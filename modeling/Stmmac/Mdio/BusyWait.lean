import Mathlib.Data.Nat.Find
import Stmmac.Library.Clock
import Stmmac.Mdio.Bus

/-!
# The deadline of a wait on the MDIO bus

`stmmac_mdio_busy_wait` polls the busy bit until it is clear or `jiffies` has passed a deadline
three seconds after the entry. The clock is sampled before the register. `sample n` is what the
poll `n` finds; a wait as a whole is these polls, a round of the bus machine each.
-/

namespace Stmmac

open Library

/-- What a poll finds: `curr`, and the address register read after it. -/
structure MiiSample where
  jiffies : BitVec 32
  mii : BitVec 32

/-- The body of the loop and its test: the value returned, if the loop is left. -/
def mdioPoll (finish : BitVec 32) (s : MiiSample) : Option (BitVec 32) :=
  if hasBit s.mii miiBusy then
    if Clock.timeAfterEq s.jiffies finish then some mdioEbusy else none
  else some 0

/-- The loop from poll `n` on, with the number of the last poll. -/
def mdioPolls (finish : BitVec 32) (sample : Nat → MiiSample) :
    Nat → Nat → Option (BitVec 32 × Nat)
  | 0, _ => none
  | fuel + 1, n =>
    match mdioPoll finish (sample n) with
    | some ret => some (ret, n)
    | none => mdioPolls finish sample fuel (n + 1)

/-- `stmmac_mdio_busy_wait`, entered at `jiffies`. -/
def mdioBusyWait (hz jiffies : BitVec 32) (sample : Nat → MiiSample) (fuel : Nat) :
    Option (BitVec 32 × Nat) :=
  mdioPolls (jiffies + 3 * hz) sample fuel 0

/-- A round of the bus machine is a poll at some time. -/
theorem busyWait_eq_poll (mii : MiiRegs) (finish jiffies : BitVec 32) (req : MdioRequest)
    (next s : Mdio) :
    stmmacMdioBusyWait mii (Clock.timeAfterEq jiffies finish) req next s =
      match mdioPoll finish ⟨jiffies, readl s.regs mii.addr⟩ with
      | none => s
      | some ret => if ret = 0 then next else mdioReturn req ret s := by
  unfold stmmacMdioBusyWait mdioPoll
  dsimp only
  split_ifs <;> rfl

section Wait

variable {finish : BitVec 32} {sample : Nat → MiiSample} {n m fuel : Nat} {ret : BitVec 32}

/-- The loop is left at the first poll that ends it. -/
theorem polls_eq (hwait : ∀ k, n ≤ k → k < m → mdioPoll finish (sample k) = none)
    (hend : mdioPoll finish (sample m) = some ret) (hle : n ≤ m) (hfuel : m < n + fuel) :
    mdioPolls finish sample fuel n = some (ret, m) := by
  induction fuel generalizing n with
  | zero => omega
  | succ fuel ih =>
    unfold mdioPolls
    rcases Nat.lt_or_eq_of_le hle with hlt | rfl
    · rw [hwait n (Nat.le_refl n) hlt]
      exact ih (fun k hk => hwait k (by omega)) hlt (by omega)
    · rw [hend]

/-- A poll returns 0 exactly if it finds the bus free. -/
theorem poll_zero_iff (s : MiiSample) :
    mdioPoll finish s = some 0 ↔ hasBit s.mii miiBusy = false := by
  unfold mdioPoll
  cases hasBit s.mii miiBusy <;> cases Clock.timeAfterEq s.jiffies finish <;> decide

theorem poll_ebusy_iff (s : MiiSample) : mdioPoll finish s = some mdioEbusy ↔
    hasBit s.mii miiBusy = true ∧ Clock.timeAfterEq s.jiffies finish = true := by
  unfold mdioPoll
  cases hasBit s.mii miiBusy <;> cases Clock.timeAfterEq s.jiffies finish <;> decide

theorem poll_none_iff (s : MiiSample) : mdioPoll finish s = none ↔
    hasBit s.mii miiBusy = true ∧ Clock.timeAfterEq s.jiffies finish = false := by
  unfold mdioPoll
  cases hasBit s.mii miiBusy <;> cases Clock.timeAfterEq s.jiffies finish <;> decide

end Wait

/-! ## The clock during a wait -/

/-- Ticks from the entry to the sample of poll `n`. -/
def MiiSample.elapsed (jiffies : BitVec 32) (sample : Nat → MiiSample) : Nat → Nat :=
  Clock.elapsed jiffies fun n => (sample n).jiffies

/-- Time goes on for ever, and between two samples by less than half the range of the clock, the
three seconds taken off. -/
structure Ticking (hz jiffies : BitVec 32) (sample : Nat → MiiSample) : Prop where
  step : ∀ n, Clock.advance jiffies (fun n => (sample n).jiffies) n < 2 ^ 31 - 3 * hz.toNat
  unbounded : ∀ k, ∃ n, k ≤ MiiSample.elapsed jiffies sample n

section Deadline

variable {hz jiffies : BitVec 32} {sample : Nat → MiiSample}

/-- Some poll is the first at or past the deadline, and it is less than half a turn past it. -/
theorem exists_first_late (ht : Ticking hz jiffies sample) :
    ∃ n, 3 * hz.toNat ≤ MiiSample.elapsed jiffies sample n ∧
      (∀ k < n, MiiSample.elapsed jiffies sample k < 3 * hz.toNat) ∧
      ∀ k ≤ n, MiiSample.elapsed jiffies sample k < 2 ^ 31 := by
  have hex := ht.unbounded (3 * hz.toNat)
  have hbefore : ∀ k < Nat.find hex, MiiSample.elapsed jiffies sample k < 3 * hz.toNat :=
    fun k hk => Nat.lt_of_not_le (Nat.find_min hex hk)
  have hlast : MiiSample.elapsed jiffies sample (Nat.find hex) < 2 ^ 31 := by
    have hstep := ht.step (Nat.find hex)
    cases hn : Nat.find hex with
    | zero =>
      rw [hn] at hstep
      exact Nat.lt_of_lt_of_le hstep (Nat.sub_le _ _)
    | succ n =>
      have hprev := hbefore n (by omega)
      rw [hn] at hstep
      change MiiSample.elapsed jiffies sample n +
        Clock.advance jiffies (fun n => (sample n).jiffies) (n + 1) < 2 ^ 31
      omega
  refine ⟨Nat.find hex, Nat.find_spec hex, hbefore, fun k hk => ?_⟩
  exact Nat.lt_of_le_of_lt (Clock.elapsed_mono hk) hlast

/-- The comparison with the deadline says whether three seconds have passed. -/
theorem late_iff (hhz : 3 * hz.toNat < 2 ^ 31) {n : Nat}
    (hlt : MiiSample.elapsed jiffies sample n < 2 ^ 31) :
    Clock.timeAfterEq (sample n).jiffies (jiffies + 3 * hz) = true ↔
      3 * hz.toNat ≤ MiiSample.elapsed jiffies sample n := by
  have hthree : (3 * hz).toNat = 3 * hz.toNat := by
    rw [BitVec.toNat_mul]
    exact Nat.mod_eq_of_lt (by change 3 * hz.toNat < _; omega)
  have hclock : (sample n).jiffies =
      jiffies + BitVec.ofNat 32 (MiiSample.elapsed jiffies sample n) :=
    @Clock.clock_eq 32 jiffies (fun n => (sample n).jiffies) n
  rw [hclock, Clock.timeAfterEq_iff (by omega) (by omega), hthree]

/-- A wait ends; it returns 0 exactly if one of its polls found the bus free, and `-EBUSY` only if
one found it busy three seconds or more after the entry. -/
theorem busyWait_deadline (hhz : 3 * hz.toNat < 2 ^ 31) (ht : Ticking hz jiffies sample) :
    ∃ n ret, (∀ fuel, n < fuel → mdioBusyWait hz jiffies sample fuel = some (ret, n)) ∧
      (ret = 0 ∨ ret = mdioEbusy) ∧
      (ret = 0 ↔ ∃ k ≤ n, hasBit (sample k).mii miiBusy = false) ∧
      (ret = mdioEbusy → ∃ k ≤ n, 3 * hz.toNat ≤ MiiSample.elapsed jiffies sample k ∧
        hasBit (sample k).mii miiBusy = true) := by
  have hne : (0 : BitVec 32) ≠ mdioEbusy := by decide
  obtain ⟨late, hlate, hbefore, hlt⟩ := exists_first_late ht
  by_cases hfree : ∃ k ≤ late, hasBit (sample k).mii miiBusy = false
  · have hspec := Nat.find_spec hfree
    refine ⟨Nat.find hfree, 0, fun fuel hfuel => polls_eq ?_ ?_ (Nat.zero_le _) (by omega),
      .inl rfl, iff_of_true rfl ⟨_, Nat.le_refl _, hspec.2⟩, fun h => absurd h hne⟩
    · intro k _ hk
      have hbusy : hasBit (sample k).mii miiBusy = true := by
        by_contra hclear
        exact Nat.find_min hfree hk ⟨by omega, by simpa using hclear⟩
      refine (poll_none_iff _).mpr ⟨hbusy, ?_⟩
      have := hbefore k (by omega)
      rw [Bool.eq_false_iff, ne_eq, late_iff hhz (hlt k (by omega))]
      omega
    · exact (poll_zero_iff _).mpr hspec.2
  · have hbusy : ∀ k ≤ late, hasBit (sample k).mii miiBusy = true := fun k hk => by
      by_contra hclear
      exact hfree ⟨k, hk, by simpa using hclear⟩
    refine ⟨late, mdioEbusy, fun fuel hfuel => polls_eq ?_ ?_ (Nat.zero_le _) (by omega),
      .inr rfl, iff_of_false hne.symm hfree,
      fun _ => ⟨late, Nat.le_refl _, hlate, hbusy late (Nat.le_refl _)⟩⟩
    · intro k _ hk
      refine (poll_none_iff _).mpr ⟨hbusy k hk.le, ?_⟩
      rw [Bool.eq_false_iff, ne_eq, late_iff hhz (hlt k hk.le)]
      exact Nat.not_le.mpr (hbefore k hk)
    · refine (poll_ebusy_iff _).mpr ⟨hbusy late (Nat.le_refl _), ?_⟩
      exact (late_iff hhz (hlt late (Nat.le_refl _))).mpr hlate

/-- A bus that stays busy, with a deadline beyond the wrap of the clock. -/
theorem busyWait_deadline_wrap :
    let sample := fun n => MiiSample.mk (4294967290 + BitVec.ofNat 32 ((n + 1) * 100)) 1
    ∃ n ret, (∀ fuel, n < fuel → mdioBusyWait 100 4294967290 sample fuel = some (ret, n)) ∧
      (ret = 0 ∨ ret = mdioEbusy) ∧
      (ret = 0 ↔ ∃ k ≤ n, hasBit (sample k).mii miiBusy = false) ∧
      (ret = mdioEbusy → ∃ k ≤ n, 3 * (100 : BitVec 32).toNat ≤
        MiiSample.elapsed 4294967290 sample k ∧ hasBit (sample k).mii miiBusy = true) := by
  refine busyWait_deadline (by decide) ⟨fun n => ?_, fun k => ⟨k, ?_⟩⟩
  · exact (Clock.advance_steady (by decide) n).trans_lt (by decide)
  · refine Nat.le_trans ?_ (Clock.elapsed_steady (by decide) k).ge
    omega

/-- The poll 300 ticks after the entry is the last. -/
example : mdioBusyWait 100 4294967290
    (fun n => ⟨4294967290 + BitVec.ofNat 32 ((n + 1) * 100), 1⟩) 5 = some (mdioEbusy, 2) := by
  decide

end Deadline

end Stmmac
