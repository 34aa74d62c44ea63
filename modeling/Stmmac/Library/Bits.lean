import Mathlib.Algebra.Ring.Nat
import Mathlib.Tactic.Common

/-!
# Bit fields of machine words

`insert w lo v` overwrites the bits of `w` from position `lo` on with `v`, as an assignment to a
C bit field does. Reading the field back gives `v`; a field on other positions keeps its value.
-/

namespace Stmmac.Library.Bits

variable {n m k : Nat}

def mask (n lo m : Nat) : BitVec n := (BitVec.allOnes m).setWidth n <<< lo

/-- Overwrite the `m` bits of `w` from position `lo` on. -/
def insert (w : BitVec n) (lo : Nat) (v : BitVec m) : BitVec n :=
  (w &&& ~~~ mask n lo m) ||| (v.setWidth n <<< lo)

theorem getLsbD_mask (lo i : Nat) (hi : i < n) :
    (mask n lo m).getLsbD i = decide (lo ≤ i ∧ i < lo + m) := by
  by_cases h : i < lo
  · simp [mask, hi, h, Nat.not_le.mpr h]
  · have hm : i - lo < m ↔ i < lo + m := by omega
    simp [mask, hi, h, hm, Nat.not_lt.mp h]

/-- The bits of an insertion, position by position. -/
theorem getLsbD_insert (w : BitVec n) (lo : Nat) (v : BitVec m) {i : Nat} (hi : i < n) :
    (insert w lo v).getLsbD i =
      if lo ≤ i ∧ i < lo + m then v.getLsbD (i - lo) else w.getLsbD i := by
  have hd : i - lo < n := by omega
  simp only [insert, BitVec.getLsbD_or, BitVec.getLsbD_and, BitVec.getLsbD_not, hi,
    getLsbD_mask, BitVec.getLsbD_shiftLeft, BitVec.getLsbD_setWidth, hd, decide_true,
    Bool.true_and]
  by_cases h : lo ≤ i ∧ i < lo + m
  · simp [h]
  · by_cases hl : i < lo
    · simp [h, hl]
    · have : m ≤ i - lo := by omega
      simp [h, BitVec.getLsbD_of_ge v _ this]

/-- Reading the field that was written. -/
theorem extract_insert_self (w : BitVec n) (lo : Nat) (v : BitVec m) (h : lo + m ≤ n) :
    (insert w lo v).extractLsb' lo m = v := by
  apply BitVec.eq_of_getLsbD_eq
  intro i hi
  have hin : lo + i < n := by omega
  simp [hi, getLsbD_insert w lo v hin]

/-- A field on other positions keeps its value. -/
theorem extract_insert_of_disjoint (w : BitVec n) (lo : Nat) (v : BitVec m) (lo' : Nat)
    (h : lo + m ≤ lo' ∨ lo' + k ≤ lo) :
    (insert w lo v).extractLsb' lo' k = w.extractLsb' lo' k := by
  apply BitVec.eq_of_getLsbD_eq
  intro i hi
  simp only [BitVec.getLsbD_extractLsb', hi, decide_true, Bool.true_and]
  by_cases hn : lo' + i < n
  · rw [getLsbD_insert w lo v hn, if_neg (by omega)]
  · rw [BitVec.getLsbD_of_ge _ _ (by omega), BitVec.getLsbD_of_ge _ _ (by omega)]

/-- Take the bits under `m` from `v` and the others from `w`. -/
def merge (w v m : BitVec n) : BitVec n := (w &&& ~~~m) ||| (v &&& m)

theorem getLsbD_merge (w v m : BitVec n) (i : Nat) :
    (merge w v m).getLsbD i = if m.getLsbD i then v.getLsbD i else w.getLsbD i := by
  simp only [merge, BitVec.getLsbD_or, BitVec.getLsbD_and, BitVec.getLsbD_not]
  by_cases hi : i < n
  · cases m.getLsbD i <;> simp [hi]
  · simp [hi, BitVec.getLsbD_of_ge _ i (Nat.not_lt.mp hi)]

/-- A merge keeps the bits outside its mask. -/
theorem merge_and_of_disjoint {w v m bits : BitVec n} (h : m &&& bits = 0#n) :
    merge w v m &&& bits = w &&& bits := by
  apply BitVec.eq_of_getLsbD_eq
  intro i hi
  have hbit := congrArg (·.getLsbD i) h
  simp only [BitVec.getLsbD_and, BitVec.getLsbD_zero, getLsbD_merge] at hbit ⊢
  cases hm : m.getLsbD i <;> simp_all

/-- A merge replaces the bits of its mask. -/
theorem merge_and_of_subset {w v m bits : BitVec n} (h : m &&& bits = bits) :
    merge w v m &&& bits = v &&& bits := by
  apply BitVec.eq_of_getLsbD_eq
  intro i hi
  have hbit := congrArg (·.getLsbD i) h
  simp only [BitVec.getLsbD_and, getLsbD_merge] at hbit ⊢
  cases hm : m.getLsbD i <;> simp_all

/-- Words that agree on some bits still do after the same merge. -/
theorem merge_and_congr {w w' v m bits : BitVec n} (h : w &&& bits = w' &&& bits) :
    merge w v m &&& bits = merge w' v m &&& bits := by
  apply BitVec.eq_of_getLsbD_eq
  intro i hi
  have hbit := congrArg (·.getLsbD i) h
  simp only [BitVec.getLsbD_and, getLsbD_merge] at hbit ⊢
  cases hm : m.getLsbD i <;> simp_all

/-- A flag that is cut out of a word. -/
theorem flag_ne_zero_iff {w : BitVec n} (hk : k < n) :
    (w &&& BitVec.twoPow n k) >>> k ≠ 0#n ↔ w.getLsbD k = true := by
  rw [BitVec.and_twoPow]
  split
  · rename_i h
    have hone : BitVec.twoPow n k >>> k ≠ 0#n := by
      intro hzero
      have hbit := congrArg (·.getLsbD 0) hzero
      simp [hk] at hbit
    simp [h, hone]
  · rename_i h
    simp [h]

/-! ## Setting and clearing bits -/

section Masks

variable {w : BitVec n} {bits other : BitVec n}

/-- Words that agree on some bits agree on fewer. -/
theorem and_congr_of_subset {w' : BitVec n} (hsub : other &&& bits = bits)
    (h : w &&& other = w' &&& other) : w &&& bits = w' &&& bits := by
  rw [← hsub, ← BitVec.and_assoc, ← BitVec.and_assoc, h]

/-- Setting bits leaves the others alone. -/
theorem or_and_of_disjoint (h : bits &&& other = 0#n) : (w ||| bits) &&& other = w &&& other := by
  rw [BitVec.and_comm, BitVec.and_or_distrib_left, BitVec.and_comm other bits, h, BitVec.or_zero,
    BitVec.and_comm]

/-- Clearing bits leaves the others alone. -/
theorem andNot_and_of_disjoint (h : bits &&& other = 0#n) :
    (w &&& ~~~ bits) &&& other = w &&& other := by
  have hsub : ~~~ bits &&& other = other := by
    apply BitVec.eq_of_getLsbD_eq
    intro i hi
    have hbit := congrArg (·.getLsbD i) h
    simp only [BitVec.getLsbD_and, BitVec.getLsbD_zero] at hbit
    simp only [BitVec.getLsbD_and, BitVec.getLsbD_not, hi, decide_true, Bool.true_and]
    cases hb : bits.getLsbD i <;> simp_all
  rw [BitVec.and_assoc, hsub]

/-- Writing a field that is clear. -/
theorem or_and_of_clear {field : BitVec n} (h : w &&& field = 0#n) (hsub : bits &&& field = bits) :
    (w ||| bits) &&& field = bits := by
  rw [BitVec.and_comm, BitVec.and_or_distrib_left, BitVec.and_comm field w, h, BitVec.zero_or,
    BitVec.and_comm, hsub]

theorem or_and_self : (w ||| bits) &&& bits = bits := by
  rw [BitVec.and_comm, BitVec.and_or_distrib_left, BitVec.and_self]
  apply BitVec.eq_of_getLsbD_eq
  intro i hi
  simp only [BitVec.getLsbD_or, BitVec.getLsbD_and]
  cases bits.getLsbD i <;> simp

theorem andNot_and_self : (w &&& ~~~ bits) &&& bits = 0#n := by
  rw [BitVec.and_assoc, BitVec.and_comm (~~~ bits) bits]
  simp

/-- Clearing the lowest `k` bits. -/
theorem toNat_andNot_ones {m : BitVec n} (hm : m.toNat = 2 ^ k - 1) :
    (w &&& ~~~m).toNat = w.toNat - w.toNat % 2 ^ k := by
  have hdisjoint : (w &&& m) &&& (w &&& ~~~m) = 0#n := by
    rw [BitVec.and_comm w m, BitVec.and_assoc, ← BitVec.and_assoc w w, BitVec.and_self,
      BitVec.and_comm, andNot_and_self]
  have hsum : (w &&& m) + (w &&& ~~~m) = w := by
    rw [BitVec.add_eq_or_of_and_eq_zero _ _ hdisjoint]
    apply BitVec.eq_of_getLsbD_eq
    intro i hi
    simp only [BitVec.getLsbD_or, BitVec.getLsbD_and, BitVec.getLsbD_not, hi, decide_true,
      Bool.true_and]
    cases w.getLsbD i <;> cases m.getLsbD i <;> rfl
  have hparts := BitVec.toNat_add_of_and_eq_zero hdisjoint
  rw [hsum, BitVec.toNat_and, hm, Nat.and_two_pow_sub_one_eq_mod] at hparts
  omega

/-- Words are equal if each has the bits of the other. -/
theorem eq_of_subset {w' : BitVec n} (h : w &&& w' = w) (h' : w' &&& w = w') : w = w' := by
  rw [← h, BitVec.and_comm, h']

/-- Words are equal if they agree on some bits and on the others. -/
theorem eq_of_and_compl {w' : BitVec n} (h : w &&& bits = w' &&& bits)
    (h' : w &&& ~~~bits = w' &&& ~~~bits) : w = w' := by
  apply BitVec.eq_of_getLsbD_eq
  intro i hi
  have hbit := congrArg (·.getLsbD i) h
  have hbit' := congrArg (·.getLsbD i) h'
  simp only [BitVec.getLsbD_and, BitVec.getLsbD_not, hi, decide_true, Bool.true_and] at hbit hbit'
  cases hb : bits.getLsbD i <;> simp_all

/-- A flag is set or clear. -/
theorem and_twoPow_of_ne_zero {k : Nat} (h : w &&& BitVec.twoPow n k ≠ 0#n) :
    w &&& BitVec.twoPow n k = BitVec.twoPow n k := by
  rw [BitVec.and_twoPow] at h ⊢
  split
  · rfl
  · next hk => exact absurd (if_neg hk) h

theorem or_subset_iff : (w ||| bits) &&& other = w ||| bits ↔
    w &&& other = w ∧ bits &&& other = bits := by
  have hbit : ∀ x : BitVec n, x &&& other = x ↔
      ∀ i < n, x.getLsbD i = true → other.getLsbD i = true := by
    intro x
    constructor
    · intro h i _ hx
      have := congrArg (·.getLsbD i) h
      simpa [hx] using this
    · intro h
      apply BitVec.eq_of_getLsbD_eq
      intro i hi
      have := h i hi
      cases hx : x.getLsbD i <;> simp_all
  simp only [hbit, BitVec.getLsbD_or, Bool.or_eq_true]
  constructor
  · intro h
    exact ⟨fun i hi hw => h i hi (.inl hw), fun i hi hb => h i hi (.inr hb)⟩
  · rintro ⟨hw, hb⟩ i hi (h | h)
    · exact hw i hi h
    · exact hb i hi h

/-- The bits of a word to which bits were added are among some exactly if all of them were. -/
theorem foldl_or_subset_iff {α : Type*} {f : α → BitVec n} {l : List α} :
    l.foldl (fun w a => w ||| f a) w &&& other = l.foldl (fun w a => w ||| f a) w ↔
      w &&& other = w ∧ ∀ a ∈ l, f a &&& other = f a := by
  induction l generalizing w with
  | nil => simp
  | cons a l ih => rw [List.foldl_cons, ih, or_subset_iff, List.forall_mem_cons, and_assoc]

end Masks

/-- Words joined from parts of the same widths are equal exactly if the parts are. -/
theorem append_inj {a a' : BitVec n} {b b' : BitVec m} :
    a ++ b = a' ++ b' ↔ a = a' ∧ b = b' := by
  refine ⟨fun h => ⟨?_, ?_⟩, fun ⟨ha, hb⟩ => by rw [ha, hb]⟩
  · rw [← BitVec.extractLsb'_append_eq_left (a := a) (b := b), h,
      BitVec.extractLsb'_append_eq_left]
  · rw [← BitVec.setWidth_append_eq_right (a := a) (b := b), h, BitVec.setWidth_append_eq_right]

end Stmmac.Library.Bits
