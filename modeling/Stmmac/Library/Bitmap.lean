import Mathlib.Logic.Function.Basic
import Mathlib.Tactic.Common

/-!
# Bitmaps in an array of words

Bit `nr` of a bitmap is bit `nr & 31` of word `nr >> 5`. A bitmap filled from a list holds the bits
of its members, whatever their order and however often they occur.
-/

namespace Stmmac.Library.Bitmap

variable {α : Type*}

def testBit (map : Nat → BitVec 32) (nr : Nat) : Bool := (map (nr >>> 5)).getLsbD (nr &&& 31)

def setBit (map : Nat → BitVec 32) (nr : Nat) : Nat → BitVec 32 :=
  Function.update map (nr >>> 5) (map (nr >>> 5) ||| 1#32 <<< (nr &&& 31))

/-- Set the bit of each member of a list. -/
def fill (nr : α → Nat) (l : List α) (map : Nat → BitVec 32) : Nat → BitVec 32 :=
  l.foldl (fun map a => setBit map (nr a)) map

theorem place_inj {m n : Nat} : (m >>> 5 = n >>> 5 ∧ m &&& 31 = n &&& 31) ↔ m = n := by
  have hand : ∀ k : Nat, k &&& 31 = k % 32 := fun k => Nat.and_two_pow_sub_one_eq_mod k 5
  rw [hand, hand, Nat.shiftRight_eq_div_pow, Nat.shiftRight_eq_div_pow]
  omega

@[simp] theorem testBit_setBit (map : Nat → BitVec 32) (m n : Nat) :
    testBit (setBit map m) n = (decide (m = n) || testBit map n) := by
  have hlt : n &&& 31 < 32 := Nat.lt_succ_of_le Nat.and_le_right
  have hone : ∀ k, (1#32 <<< k).getLsbD (n &&& 31) = decide (k = n &&& 31) := by
    intro k
    rw [BitVec.getLsbD_shiftLeft, BitVec.getLsbD_one]
    grind
  unfold testBit setBit
  by_cases hword : m >>> 5 = n >>> 5
  · have hsame : m &&& 31 = n &&& 31 ↔ m = n :=
      (and_iff_right hword).symm.trans place_inj
    rw [hword, Function.update_self, BitVec.getLsbD_or, hone, Bool.or_comm]
    simp only [hsame]
  · have hne : m ≠ n := fun h => hword (congrArg (· >>> 5) h)
    rw [Function.update_of_ne (Ne.symm hword)]
    simp [hne]

/-- The bits of a bitmap that was filled. -/
theorem testBit_fill (nr : α → Nat) (l : List α) (map : Nat → BitVec 32) (n : Nat) :
    testBit (fill nr l map) n = true ↔ (∃ a ∈ l, nr a = n) ∨ testBit map n = true := by
  induction l generalizing map with
  | nil => simp [fill]
  | cons a l ih =>
    have hcons : fill nr (a :: l) map = fill nr l (setBit map (nr a)) := rfl
    rw [hcons, ih, testBit_setBit]
    simp [or_assoc, or_left_comm]

/-- The bits of the first two words, as one word. -/
theorem getLsbD_append (map : Nat → BitVec 32) {n : Nat} (hn : n < 64) :
    (map 1 ++ map 0).getLsbD n = testBit map n := by
  have hand : n &&& 31 = n % 32 := Nat.and_two_pow_sub_one_eq_mod n 5
  unfold testBit
  rw [BitVec.getLsbD_append, hand, Nat.shiftRight_eq_div_pow]
  by_cases hlow : n < 32
  · have hword : n / 2 ^ 5 = 0 ∧ n % 32 = n := by omega
    rw [if_pos hlow, hword.1, hword.2]
  · have hword : n / 2 ^ 5 = 1 ∧ n % 32 = n - 32 := by omega
    rw [if_neg hlow, hword.1, hword.2]

/-- Lists with the same members fill the same two words. -/
theorem append_fill_congr {nr : α → Nat} {l l' : List α} (map : Nat → BitVec 32)
    (h : ∀ a, a ∈ l ↔ a ∈ l') :
    fill nr l map 1 ++ fill nr l map 0 = fill nr l' map 1 ++ fill nr l' map 0 := by
  apply BitVec.eq_of_getLsbD_eq
  intro n hn
  rw [getLsbD_append _ hn, getLsbD_append _ hn, Bool.eq_iff_iff, testBit_fill, testBit_fill]
  simp only [h]

end Stmmac.Library.Bitmap
