import Stmmac.Library.Ring

/-!
# A clock that wraps

A counter of `w` bits goes forward and wraps. Between two readings it has made less than one turn,
so the readings tell how many ticks have passed. A deadline is compared with a reading by the sign
of their difference; this is right as long as the reading is less than half a turn past it.
-/

namespace Stmmac.Library.Clock

variable {w : Nat}

/-- `a` is not before `b`, by the sign of the difference. -/
def timeAfterEq (a b : BitVec w) : Bool := decide (0 ≤ (a - b).toInt)

/-- Ticks between the reading before the reading `n` and that one; the first follows `start`. -/
def advance (start : BitVec w) (clock : Nat → BitVec w) : Nat → Nat
  | 0 => (clock 0 - start).toNat
  | n + 1 => (clock (n + 1) - clock n).toNat

/-- Ticks from `start` to the reading `n`. -/
def elapsed (start : BitVec w) (clock : Nat → BitVec w) : Nat → Nat
  | 0 => advance start clock 0
  | n + 1 => elapsed start clock n + advance start clock (n + 1)

variable {start : BitVec w} {clock : Nat → BitVec w}

theorem add_ofNat_sub (x y : BitVec w) : x + BitVec.ofNat w (y - x).toNat = y := by
  rw [BitVec.ofNat_toNat, BitVec.setWidth_eq, BitVec.add_comm, BitVec.sub_add_cancel]

/-- The reading is the start plus what has elapsed, modulo one turn. -/
theorem clock_eq (n : Nat) : clock n = start + BitVec.ofNat w (elapsed start clock n) := by
  induction n with
  | zero => exact (add_ofNat_sub start (clock 0)).symm
  | succ n ih =>
    rw [elapsed, advance, BitVec.ofNat_add, ← BitVec.add_assoc, ← ih, add_ofNat_sub]

theorem elapsed_mono {m n : Nat} (h : m ≤ n) : elapsed start clock m ≤ elapsed start clock n := by
  induction h with
  | refl => exact Nat.le_refl _
  | step _ ih => exact Nat.le_trans ih (Nat.le_add_right _ _)

section Steady

variable {k : Nat} (hk : k < 2 ^ w)

include hk in
/-- A clock that is read every `k` ticks. -/
theorem advance_steady (n : Nat) :
    advance start (fun n => start + BitVec.ofNat w ((n + 1) * k)) n = k := by
  have hsub : ∀ x y : BitVec w, x + y - x = y := fun x y => by
    rw [BitVec.add_comm, BitVec.add_sub_cancel]
  cases n with
  | zero =>
    change (start + BitVec.ofNat w ((0 + 1) * k) - start).toNat = k
    rw [hsub, BitVec.toNat_ofNat, Nat.zero_add, Nat.one_mul, Nat.mod_eq_of_lt hk]
  | succ n =>
    have hnext : start + BitVec.ofNat w ((n + 1 + 1) * k) =
        start + BitVec.ofNat w ((n + 1) * k) + BitVec.ofNat w k := by
      rw [Nat.succ_mul (n + 1), BitVec.ofNat_add, BitVec.add_assoc]
    rw [advance, hnext, hsub, BitVec.toNat_ofNat, Nat.mod_eq_of_lt hk]

include hk in
theorem elapsed_steady (n : Nat) :
    elapsed start (fun n => start + BitVec.ofNat w ((n + 1) * k)) n = (n + 1) * k := by
  induction n with
  | zero => rw [elapsed, advance_steady hk, Nat.zero_add, Nat.one_mul]
  | succ n ih => rw [elapsed, advance_steady hk, ih, ← Nat.succ_mul]

end Steady

theorem toInt_nonneg_iff (x : BitVec w) : 0 ≤ x.toInt ↔ 2 * x.toNat < 2 ^ w := by
  have hlt := x.isLt
  rw [BitVec.toInt_eq_toNat_cond]
  split <;> omega

/-- The comparison with a deadline `d` ticks after the start, `e` ticks after it. -/
theorem timeAfterEq_iff {d : BitVec w} {e : Nat} (hd : 2 * d.toNat < 2 ^ w)
    (he : 2 * e < 2 * d.toNat + 2 ^ w) :
    timeAfterEq (start + BitVec.ofNat w e) (start + d) = true ↔ d.toNat ≤ e := by
  have hdiff : start + BitVec.ofNat w e - (start + d) =
      BitVec.ofNat w e - BitVec.ofNat w d.toNat := by
    rw [BitVec.ofNat_toNat, BitVec.setWidth_eq]
    grind
  unfold timeAfterEq
  rw [decide_eq_true_iff, hdiff, toInt_nonneg_iff]
  rcases Nat.lt_or_ge e d.toNat with hgt | hle
  · have hback : (BitVec.ofNat w e - BitVec.ofNat w d.toNat).toNat = 2 ^ w - (d.toNat - e) := by
      rw [BitVec.toNat_sub, BitVec.toNat_ofNat, BitVec.toNat_ofNat,
        Nat.mod_eq_of_lt d.isLt, Nat.mod_eq_of_lt (by omega : e < 2 ^ w)]
      exact (Nat.mod_eq_of_lt (by omega)).trans (by omega)
    rw [hback]
    omega
  · rw [Ring.toNat_ofNat_sub hle (by omega)]
    omega

end Stmmac.Library.Clock
