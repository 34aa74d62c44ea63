import Stmmac.Library.Bits

/-!
# Layout of the DMA descriptors

`struct dma_desc` is two words seen through four bit-field layouts, followed by the two buffer
words. Bit fields are allocated from the least significant bit, so a field is a word, a position
and a width. The layouts below are those of `descs.h`, in declaration order; only the fields
that some function reads or writes are named.
-/

namespace Stmmac

open Library

inductive Word where
  | des0 | des1
  deriving DecidableEq, Repr

/-- A bit field of the union `des01`. -/
structure Field where
  word : Word
  lo : Nat
  len : Nat
  deriving DecidableEq, Repr

namespace Field

abbrev Fits (f : Field) : Prop := f.lo + f.len ≤ 32

abbrev Disjoint (f g : Field) : Prop :=
  f.word ≠ g.word ∨ f.lo + f.len ≤ g.lo ∨ g.lo + g.len ≤ f.lo

end Field

/-- The union `des01`. -/
structure Des01 where
  des0 : BitVec 32
  des1 : BitVec 32
  deriving DecidableEq, Repr

/-- `struct dma_desc`. -/
structure DmaDesc where
  des01 : Des01
  des2 : BitVec 32
  des3 : BitVec 32
  deriving DecidableEq, Repr

namespace Des01

def word (p : Des01) : Word → BitVec 32
  | .des0 => p.des0
  | .des1 => p.des1

def get (p : Des01) (f : Field) : BitVec f.len := (p.word f.word).extractLsb' f.lo f.len

def set (p : Des01) (f : Field) (v : BitVec f.len) : Des01 :=
  match f.word with
  | .des0 => { p with des0 := Bits.insert p.des0 f.lo v }
  | .des1 => { p with des1 := Bits.insert p.des1 f.lo v }

/-- A field used as a condition. -/
def test (p : Des01) (f : Field) : Bool := p.get f != 0

theorem word_set (p : Des01) (f : Field) (v : BitVec f.len) (w : Word) :
    (p.set f v).word w = if w = f.word then Bits.insert (p.word w) f.lo v else p.word w := by
  unfold set
  cases hf : f.word <;> cases w <;> simp [word]

@[simp] theorem get_set_self (p : Des01) (f : Field) (v : BitVec f.len) (h : f.Fits) :
    (p.set f v).get f = v := by
  rw [get, word_set, if_pos rfl, Bits.extract_insert_self _ _ _ h]

/-- A field on other bits keeps its value. -/
@[simp] theorem get_set_of_disjoint (p : Des01) (f g : Field) (v : BitVec f.len)
    (h : f.Disjoint g) : (p.set f v).get g = p.get g := by
  rw [get, word_set, get]
  split
  · next hw =>
    have hlo : f.lo + f.len ≤ g.lo ∨ g.lo + g.len ≤ f.lo := h.resolve_left fun hne => hne hw.symm
    rw [Bits.extract_insert_of_disjoint _ _ _ _ hlo]
  · rfl

@[simp] theorem test_set_self (p : Des01) (f : Field) (v : BitVec f.len) (h : f.Fits) :
    (p.set f v).test f = (v != 0) := by
  rw [test, get_set_self p f v h]

@[simp] theorem test_set_of_disjoint (p : Des01) (f g : Field) (v : BitVec f.len)
    (h : f.Disjoint g) : (p.set f v).test g = p.test g := by
  rw [test, get_set_of_disjoint p f g v h, test]

@[simp] theorem get_zero (f : Field) : (⟨0#32, 0#32⟩ : Des01).get f = 0#f.len := by
  have hw : (⟨0#32, 0#32⟩ : Des01).word f.word = 0#32 := by cases f.word <;> rfl
  rw [get, hw]
  simp

@[simp] theorem test_zero (f : Field) : (⟨0#32, 0#32⟩ : Des01).test f = false := by simp [test]

end Des01

/-! ## Receive layout -/

namespace Rx

abbrev crcError : Field := ⟨.des0, 1, 1⟩
abbrev dribbling : Field := ⟨.des0, 2, 1⟩
abbrev miiError : Field := ⟨.des0, 3, 1⟩
abbrev collision : Field := ⟨.des0, 6, 1⟩
abbrev ipcCsumError : Field := ⟨.des0, 7, 1⟩
abbrev lastDescriptor : Field := ⟨.des0, 8, 1⟩
abbrev firstDescriptor : Field := ⟨.des0, 9, 1⟩
abbrev vlanTag : Field := ⟨.des0, 10, 1⟩
abbrev overflowError : Field := ⟨.des0, 11, 1⟩
abbrev lengthError : Field := ⟨.des0, 12, 1⟩
abbrev saFilterFail : Field := ⟨.des0, 13, 1⟩
abbrev descriptorError : Field := ⟨.des0, 14, 1⟩
abbrev errorSummary : Field := ⟨.des0, 15, 1⟩
abbrev frameLength : Field := ⟨.des0, 16, 14⟩
abbrev own : Field := ⟨.des0, 31, 1⟩
abbrev buffer1Size : Field := ⟨.des1, 0, 11⟩
abbrev buffer2Size : Field := ⟨.des1, 11, 11⟩
abbrev secondAddressChained : Field := ⟨.des1, 24, 1⟩
abbrev endRing : Field := ⟨.des1, 25, 1⟩
abbrev disableIc : Field := ⟨.des1, 31, 1⟩

end Rx

/-! ## Transmit layout -/

namespace Tx

abbrev deferred : Field := ⟨.des0, 0, 1⟩
abbrev underflowError : Field := ⟨.des0, 1, 1⟩
abbrev excessiveDeferral : Field := ⟨.des0, 2, 1⟩
abbrev collisionCount : Field := ⟨.des0, 3, 4⟩
abbrev excessiveCollisions : Field := ⟨.des0, 8, 1⟩
abbrev lateCollision : Field := ⟨.des0, 9, 1⟩
abbrev noCarrier : Field := ⟨.des0, 10, 1⟩
abbrev lossCarrier : Field := ⟨.des0, 11, 1⟩
abbrev errorSummary : Field := ⟨.des0, 15, 1⟩
abbrev timeStampStatus : Field := ⟨.des0, 17, 1⟩
abbrev own : Field := ⟨.des0, 31, 1⟩
abbrev buffer1Size : Field := ⟨.des1, 0, 11⟩
abbrev timeStampEnable : Field := ⟨.des1, 22, 1⟩
abbrev secondAddressChained : Field := ⟨.des1, 24, 1⟩
abbrev endRing : Field := ⟨.des1, 25, 1⟩
abbrev checksumInsertion : Field := ⟨.des1, 27, 2⟩
abbrev firstSegment : Field := ⟨.des1, 29, 1⟩
abbrev lastSegment : Field := ⟨.des1, 30, 1⟩
abbrev interrupt : Field := ⟨.des1, 31, 1⟩

end Tx

/-! ## Enhanced transmit layout -/

namespace Etx

abbrev vlanFrame : Field := ⟨.des0, 7, 1⟩
abbrev buffer1Size : Field := ⟨.des1, 0, 13⟩
abbrev buffer2Size : Field := ⟨.des1, 16, 13⟩

end Etx

end Stmmac
