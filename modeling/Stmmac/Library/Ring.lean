import Mathlib.Algebra.BigOperators.Group.Finset.Basic
import Mathlib.Data.Nat.ModEq
import Mathlib.Logic.Function.Basic
import Mathlib.Tactic.Common

/-!
# Rings indexed by free-running counters

A ring of `N` slots is used through counters that are never reset modulo `N`: the value `c`
stands for slot `c % N`. When `N` divides `2 ^ w`, a counter of `w` bits may wrap: the window
between two counters is that of the unbounded counters they abbreviate. Consecutive counter
values of a window no longer than the ring name distinct slots, so a run of writes through them
changes each slot once.
-/

namespace Stmmac.Library.Ring

variable {α : Type*} {N : Nat}

/-! ## Counters -/

theorem eq_of_mod_eq {a b : Nat} (hab : a ≤ b) (hlt : b < a + N) (h : a % N = b % N) : a = b := by
  have hdvd : N ∣ b - a := (Nat.modEq_iff_dvd' hab).mp h
  have := Nat.eq_zero_of_dvd_of_lt hdvd (by omega)
  omega

/-- Distinct counters of a window of at most `N` values name distinct slots. -/
theorem mod_ne_of_window (lo : Nat) {a b : Nat}
    (hw : lo ≤ a ∧ a < lo + N ∧ lo ≤ b ∧ b < lo + N ∧ a ≠ b) : a % N ≠ b % N := by
  obtain ⟨ha, ha', hb, hb', hne⟩ := hw
  intro h
  rcases Nat.le_total a b with hab | hab
  · exact hne (eq_of_mod_eq hab (by omega) h)
  · exact hne (eq_of_mod_eq hab (by omega) h.symm).symm

/-- Every slot is named by a counter of every window of `N` values. -/
theorem exists_mod_eq {i : Nat} (lo : Nat) (hi : i < N) :
    ∃ k, lo ≤ k ∧ k < lo + N ∧ k % N = i := by
  have hlo := Nat.mod_add_div lo N
  have hlt := Nat.mod_lt lo (by omega : 0 < N)
  rcases Nat.lt_or_ge i (lo % N) with h | h
  · refine ⟨i + N * (lo / N + 1), ?_, ?_, ?_⟩
    · rw [Nat.mul_add]; omega
    · rw [Nat.mul_add]; omega
    · rw [Nat.add_mul_mod_self_left, Nat.mod_eq_of_lt hi]
  · refine ⟨i + N * (lo / N), by omega, by omega, ?_⟩
    rw [Nat.add_mul_mod_self_left, Nat.mod_eq_of_lt hi]

theorem toNat_ofNat_sub {w t h : Nat} (hle : t ≤ h) (hlt : h - t < 2 ^ w) :
    (BitVec.ofNat w h - BitVec.ofNat w t).toNat = h - t := by
  have ht := Nat.mod_add_div t (2 ^ w)
  have hh := Nat.mod_add_div h (2 ^ w)
  obtain ⟨d, rfl⟩ := Nat.exists_eq_add_of_le hle
  have hd : d < 2 ^ w := by omega
  have hadd : BitVec.ofNat w (t + d) = BitVec.ofNat w t + BitVec.ofNat w d := by
    rw [BitVec.ofNat_add]
  rw [hadd, BitVec.add_comm, BitVec.add_sub_cancel, BitVec.toNat_ofNat, Nat.mod_eq_of_lt hd]
  omega

theorem ofNat_eq_iff {w t h : Nat} (hle : t ≤ h) (hlt : h - t < 2 ^ w) :
    BitVec.ofNat w t = BitVec.ofNat w h ↔ t = h := by
  refine ⟨fun he => ?_, fun he => by rw [he]⟩
  have := toNat_ofNat_sub hle hlt
  rw [he, BitVec.sub_self] at this
  simp at this
  omega

theorem ofNat_succ (w n : Nat) : BitVec.ofNat w (n + 1) = BitVec.ofNat w n + 1 :=
  BitVec.ofNat_add n 1

/-- The slot of a wrapping counter is the slot of the unbounded one. -/
theorem slot_ofNat {w : Nat} {size : BitVec w} (hd : size.toNat ∣ 2 ^ w) (n : Nat) :
    (BitVec.ofNat w n % size).toNat = n % size.toNat := by
  rw [BitVec.toNat_umod, BitVec.toNat_ofNat, Nat.mod_mod_of_dvd n hd]

/-! ## Continuity -/

/-- Slots follow the counters around the ring, also where the counters wrap: the next counter
names the next slot, counters less than a ring apart name distinct slots, and a counter that starts
below zero names the slot it stands for. -/
structure Continuous {w : Nat} (slot : BitVec w → Nat) (N : Nat) : Prop where
  succ : ∀ k, slot (k + 1) = (slot k + 1) % N
  walk : ∀ k n, slot (k + n) = (slot k + n.toNat) % N
  distinct : ∀ k l, k ≠ l → (l - k).toNat < N → slot k ≠ slot l
  below : ∀ i < N, slot (BitVec.ofNat w i - BitVec.ofNat w N) = i

section Continuity

variable {w : Nat} {size : BitVec w}

/-- The law for the next slot decides at the counter that wraps. -/
theorem dvd_of_succ (h : ((BitVec.allOnes w + 1) % size).toNat =
    ((BitVec.allOnes w % size).toNat + 1) % size.toNat) : size.toNat ∣ 2 ^ w := by
  have hzero : BitVec.allOnes w + 1 = 0 := by
    rw [← BitVec.neg_one_eq_allOnes]
    exact BitVec.add_left_neg 1#w
  rw [hzero, BitVec.toNat_umod, BitVec.toNat_umod, BitVec.toNat_allOnes, Nat.mod_add_mod,
    Nat.sub_add_cancel Nat.one_le_two_pow] at h
  exact Nat.dvd_of_mod_eq_zero (h.symm.trans (Nat.zero_mod _))

theorem slot_add (hd : size.toNat ∣ 2 ^ w) (k n : BitVec w) :
    ((k + n) % size).toNat = ((k % size).toNat + n.toNat) % size.toNat := by
  rw [BitVec.toNat_umod, BitVec.toNat_umod, BitVec.toNat_add, Nat.mod_mod_of_dvd _ hd,
    Nat.mod_add_mod]

/-- The counters are continuous exactly when the size divides the range of the counter. -/
theorem continuous_iff (hpos : 0 < size.toNat) :
    Continuous (fun k => (k % size).toNat) size.toNat ↔ size.toNat ∣ 2 ^ w := by
  refine ⟨fun h => dvd_of_succ (h.succ _), fun hd => ⟨fun k => ?_, slot_add hd, ?_, ?_⟩⟩
  · have hone : (1 : BitVec w).toNat = 1 % 2 ^ w := BitVec.toNat_ofNat 1 w
    rw [slot_add hd, hone, Nat.add_mod, Nat.mod_mod_of_dvd _ hd, ← Nat.add_mod]
  · intro k l hne hlt he
    have hl : l = k + (l - k) := by rw [BitVec.add_comm, BitVec.sub_add_cancel]
    have hslot : (k % size).toNat < size.toNat := by
      rw [BitVec.toNat_umod]
      exact Nat.mod_lt _ hpos
    rw [hl, slot_add hd] at he
    have hzero : (l - k).toNat = 0 := by
      have := eq_of_mod_eq (N := size.toNat) (Nat.le_add_right (k % size).toNat (l - k).toNat)
        (by omega) (by rw [← he, Nat.mod_eq_of_lt hslot])
      omega
    rw [show l - k = 0 from BitVec.eq_of_toNat_eq hzero] at hl
    simp at hl
    exact hne hl.symm
  · intro i hi
    have hsum := slot_add hd (BitVec.ofNat w i - BitVec.ofNat w size.toNat)
      (BitVec.ofNat w size.toNat)
    rw [BitVec.sub_add_cancel, slot_ofNat hd, BitVec.toNat_ofNat, Nat.mod_eq_of_lt size.isLt,
      Nat.add_mod_right, Nat.mod_eq_of_lt hi] at hsum
    rw [BitVec.toNat_umod, Nat.mod_mod, ← BitVec.toNat_umod] at hsum
    exact hsum.symm

end Continuity

/-! ## Searching the ring -/

/-- Going around the ring from `pos`, `i` is the first slot that `P` holds of. -/
def FirstFrom (N : Nat) (P : Nat → Prop) (pos i : Nat) : Prop :=
  ∃ j < N, i = (pos + j) % N ∧ P i ∧ ∀ l < j, ¬ P ((pos + l) % N)

/-- A search that every slot satisfies ends where it starts. -/
theorem firstFrom_of_all {P : Nat → Prop} {pos i : Nat} (hpos : pos < N) (hall : ∀ j < N, P j) :
    FirstFrom N P pos i ↔ i = pos := by
  constructor
  · rintro ⟨j, -, rfl, -, hmin⟩
    cases j with
    | zero => exact Nat.mod_eq_of_lt hpos
    | succ j => exact absurd (hall _ (Nat.mod_lt _ (by omega))) (hmin 0 (Nat.succ_pos j))
  · rintro rfl
    exact ⟨0, by omega, (Nat.mod_eq_of_lt hpos).symm, hall _ hpos, by simp⟩

/-! ## Single writes -/

/-- A write through one counter of a window, seen through another. -/
theorem modify_slot (r : Nat → α) (f : α → α) {h k m : Nat} (hk : k < N) (hm : m < N) :
    Function.update r ((h + m) % N) (f (r ((h + m) % N))) ((h + k) % N) =
      if k = m then f (r ((h + k) % N)) else r ((h + k) % N) := by
  split
  · next h => subst h; simp
  · next hne =>
    apply Function.update_of_ne
    exact mod_ne_of_window h (by omega)

theorem modify_base (r : Nat → α) (f : α → α) {h k : Nat} (hk : k < N) :
    Function.update r (h % N) (f (r (h % N))) ((h + k) % N) =
      if k = 0 then f (r ((h + k) % N)) else r ((h + k) % N) :=
  modify_slot r f (m := 0) hk (by omega)

/-! ## Consecutive writes -/

/-- Apply the functions of a list to consecutive slots, from counter `h` on. -/
def modifyFrom (N : Nat) (r : Nat → α) (h : Nat) : List (α → α) → Nat → α
  | [] => r
  | f :: fs => modifyFrom N (Function.update r (h % N) (f (r (h % N)))) (h + 1) fs

@[simp] theorem modifyFrom_nil (r : Nat → α) (h : Nat) : modifyFrom N r h [] = r := rfl

theorem modifyFrom_of_ne {r : Nat → α} {h j : Nat} {fs : List (α → α)}
    (hj : ∀ i < fs.length, j ≠ (h + i) % N) : modifyFrom N r h fs j = r j := by
  induction fs generalizing r h with
  | nil => rfl
  | cons f fs ih =>
    have hne : j ≠ h % N := by simpa using hj 0 (by simp)
    have hrest : ∀ i < fs.length, j ≠ (h + 1 + i) % N := by
      intro i hi
      have := hj (i + 1) (by simpa using hi)
      rwa [show h + 1 + i = h + (i + 1) by omega]
    rw [modifyFrom, ih hrest, Function.update_of_ne hne]

theorem modifyFrom_slot {r : Nat → α} {h i : Nat} {fs : List (α → α)} (hlen : fs.length ≤ N)
    (hi : i < fs.length) :
    modifyFrom N r h fs ((h + i) % N) = fs[i] (r ((h + i) % N)) := by
  induction fs generalizing r h i with
  | nil => simp at hi
  | cons f fs ih =>
    rw [List.length_cons] at hlen
    cases i with
    | zero =>
      have hne : ∀ i < fs.length, (h + 0) % N ≠ (h + 1 + i) % N := fun i hi =>
        mod_ne_of_window h (by omega)
      rw [modifyFrom, modifyFrom_of_ne hne]
      simp
    | succ i =>
      have hi' : i < fs.length := by simpa using hi
      have hne : (h + (i + 1)) % N ≠ h % N :=
        mod_ne_of_window h (by omega)
      have hslot : (h + (i + 1)) % N = (h + 1 + i) % N := by
        rw [show h + (i + 1) = h + 1 + i by omega]
      rw [modifyFrom, List.getElem_cons_succ, hslot, ih (by omega) hi', ← hslot,
        Function.update_of_ne hne]

/-- A write to one slot leaves the rest of a sum over the slots as it is. -/
theorem exists_sum_rest {M : Type*} [AddCommMonoid M] (f : α → M) (r : Nat → α) {e : Nat}
    (he : e < N) :
    ∃ rest, ∑ i ∈ Finset.range N, f (r i) = f (r e) + rest ∧
      ∀ q, ∑ i ∈ Finset.range N, f (Function.update r e q i) = f q + rest := by
  have hmem : e ∈ Finset.range N := Finset.mem_range.mpr he
  refine ⟨∑ i ∈ (Finset.range N).erase e, f (r i), (Finset.add_sum_erase _ _ hmem).symm,
    fun q => ?_⟩
  have hrest : ∑ i ∈ (Finset.range N).erase e, f (Function.update r e q i) =
      ∑ i ∈ (Finset.range N).erase e, f (r i) :=
    Finset.sum_congr rfl fun i hi => by rw [Function.update_of_ne (Finset.ne_of_mem_erase hi)]
  rw [← Finset.add_sum_erase _ _ hmem, hrest, Function.update_self]

theorem sum_update {M : Type*} [AddCommMonoid M] (f : α → M) (r : Nat → α) {e : Nat} (q : α)
    (he : e < N) :
    ∑ i ∈ Finset.range N, f (Function.update r e q i) + f (r e) =
      ∑ i ∈ Finset.range N, f (r i) + f q := by
  obtain ⟨rest, hold, hnew⟩ := exists_sum_rest f r he
  rw [hold, hnew]
  ac_rfl

/-- A slot joins the sum. -/
theorem sum_extend {M : Type*} [AddCommMonoid M] (f : α → M) (r : Nat → α) (n : Nat) (q : α) :
    ∑ i ∈ Finset.range (n + 1), f (Function.update r n q i) =
      ∑ i ∈ Finset.range n, f (r i) + f q := by
  rw [Finset.sum_range_succ, Function.update_self]
  congr 1
  refine Finset.sum_congr rfl fun i hi => ?_
  rw [Function.update_of_ne (Nat.ne_of_lt (Finset.mem_range.mp hi))]

/-- A sum over the slots, after consecutive slots that counted for nothing were written. -/
theorem sum_slots {M : Type*} [AddCommMonoid M] {f g : Nat → M} {h n : Nat} (hn : n ≤ N)
    (hoff : ∀ j < N, (∀ i < n, j ≠ (h + i) % N) → g j = f j)
    (hzero : ∀ i < n, f ((h + i) % N) = 0) :
    ∑ j ∈ Finset.range N, g j =
      ∑ j ∈ Finset.range N, f j + ∑ i ∈ Finset.range n, g ((h + i) % N) := by
  classical
  let S := (Finset.range n).image fun i => (h + i) % N
  have hS : S ⊆ Finset.range N := by
    intro j hj
    obtain ⟨i, hi, rfl⟩ := Finset.mem_image.mp hj
    exact Finset.mem_range.mpr (Nat.mod_lt _ (by have := Finset.mem_range.mp hi; omega))
  have hinj : Set.InjOn (fun i => (h + i) % N) (Finset.range n : Set Nat) := by
    intro i hi j hj he
    have hi := Finset.mem_range.mp hi
    have hj := Finset.mem_range.mp hj
    by_contra hne
    exact mod_ne_of_window h (by omega) he
  have hf : ∑ j ∈ S, f j = 0 := by
    rw [Finset.sum_image hinj]
    exact Finset.sum_eq_zero fun i hi => hzero i (Finset.mem_range.mp hi)
  have hg : ∑ j ∈ S, g j = ∑ i ∈ Finset.range n, g ((h + i) % N) := Finset.sum_image hinj
  have hrest : ∑ j ∈ Finset.range N \ S, g j = ∑ j ∈ Finset.range N \ S, f j := by
    refine Finset.sum_congr rfl fun j hj => ?_
    obtain ⟨hjN, hjS⟩ := Finset.mem_sdiff.mp hj
    refine hoff j (Finset.mem_range.mp hjN) fun i hi he => hjS ?_
    exact Finset.mem_image.mpr ⟨i, Finset.mem_range.mpr hi, he.symm⟩
  rw [← Finset.sum_sdiff hS, ← Finset.sum_sdiff (f := f) hS, hf, hg, hrest, add_zero]

/-- A write to every slot of the ring, each from its own index. -/
def mapBelow (N : Nat) (f : Nat → α → α) (r : Nat → α) : Nat → α :=
  fun i => if i < N then f i (r i) else r i

theorem mapBelow_of_lt {f : Nat → α → α} {r : Nat → α} {i : Nat} (hi : i < N) :
    mapBelow N f r i = f i (r i) := if_pos hi

theorem mapBelow_of_ge {f : Nat → α → α} {r : Nat → α} {i : Nat} (hi : N ≤ i) :
    mapBelow N f r i = r i := if_neg (Nat.not_lt.mpr hi)

@[simp] theorem mapBelow_zero (f : Nat → α → α) (r : Nat → α) : mapBelow 0 f r = r :=
  funext fun _ => if_neg (Nat.not_lt_zero _)

/-- One more round of a loop over the slots. -/
theorem mapBelow_succ (f : Nat → α → α) (r : Nat → α) (n : Nat) :
    mapBelow (n + 1) f r = Function.update (mapBelow n f r) n (f n (r n)) := by
  funext i
  rcases Nat.lt_trichotomy i n with h | h | h
  · rw [Function.update_of_ne (by omega), mapBelow_of_lt h, mapBelow_of_lt (by omega)]
  · subst h; rw [Function.update_self, mapBelow_of_lt (Nat.lt_succ_self i)]
  · rw [Function.update_of_ne (by omega), mapBelow_of_ge (by omega), mapBelow_of_ge (by omega)]

end Stmmac.Library.Ring
