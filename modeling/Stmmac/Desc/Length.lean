import Mathlib.Algebra.Ring.Nat
import Stmmac.Desc.Normal

/-!
# The length of a normal transmit descriptor

`norm_set_tx_desc_len_on_ring` writes long lengths through the enhanced layout, but a normal
descriptor is read through the normal one, whose second size lies elsewhere. The boundary is off by
one as well: 2048 does not fit the first size.
-/

namespace Stmmac

namespace Tx

abbrev buffer2Size : Field := ⟨.des1, 11, 11⟩

/-- The bits above the two sizes. -/
abbrev control : Field := ⟨.des1, 22, 10⟩

end Tx

/-- The bits between the two sizes of the enhanced layout. -/
abbrev Etx.reserved3 : Field := ⟨.des1, 13, 3⟩

/-- The sizes of the normal layout add up to the length and no other bit is changed. -/
structure LenRoundTrip (p : Des01) (len : BitVec 32) : Prop where
  sum : (((normSetTxDescLenOnRing p len).get Tx.buffer1Size).toNat : Int) +
    ((normSetTxDescLenOnRing p len).get Tx.buffer2Size).toNat = len.toInt
  des0 : (normSetTxDescLenOnRing p len).des0 = p.des0
  control : (normSetTxDescLenOnRing p len).get Tx.control = p.get Tx.control

variable {p : Des01} {len : BitVec 32}

theorem Des01.toNat_get (p : Des01) (f : Field) :
    (p.get f).toNat = (p.word f.word).toNat / 2 ^ f.lo % 2 ^ f.len := by
  rw [get, BitVec.extractLsb'_toNat, Nat.shiftRight_eq_div_pow]

theorem normSetTxDescLenOnRing_of_le (h : len.toInt ≤ 2048) :
    normSetTxDescLenOnRing p len = p.set Tx.buffer1Size (len.setWidth 11) :=
  if_neg (Int.not_lt.mpr h)

theorem normSetTxDescLenOnRing_of_lt (h : 2048 < len.toInt) :
    normSetTxDescLenOnRing p len =
      (p.set Etx.buffer1Size 2047).set Etx.buffer2Size ((len - 2047).setWidth 13) := by
  have hsize : ((p.set Etx.buffer1Size 2047).get Etx.buffer1Size).setWidth 32 =
      (2047 : BitVec 32) := by
    rw [Des01.get_set_self _ _ _ (by decide)]
    rfl
  rw [← hsize]
  exact if_pos h

/-- A length that is not negative is its own value. -/
theorem toNat_eq_of_toInt_nonneg (h : 0 ≤ len.toInt) : (len.toNat : Int) = len.toInt := by
  have hcond := BitVec.toInt_eq_toNat_cond len
  have hlt := len.isLt
  split_ifs at hcond <;> omega

theorem toNat_of_free (hfree : p.get Tx.buffer2Size = 0) : (p.get Tx.buffer2Size).toNat = 0 := by
  rw [hfree]
  rfl

theorem lenRoundTrip_of_le (hfree : p.get Tx.buffer2Size = 0) (hnonneg : 0 ≤ len.toInt)
    (hle : len.toInt ≤ 2047) : LenRoundTrip p len := by
  have hset : normSetTxDescLenOnRing p len = p.set Tx.buffer1Size (len.setWidth 11) :=
    normSetTxDescLenOnRing_of_le (by omega)
  have hlen := toNat_eq_of_toInt_nonneg hnonneg
  refine ⟨?_, ?_, ?_⟩
  · have hsize2 := toNat_of_free hfree
    rw [hset, Des01.get_set_self _ _ _ (by decide), Des01.get_set_of_disjoint _ _ _ _ (by decide),
      hsize2, BitVec.toNat_setWidth]
    change ((len.toNat % 2 ^ 11 : Nat) : Int) + (0 : Nat) = len.toInt
    omega
  · rw [hset]
    rfl
  · rw [hset, Des01.get_set_of_disjoint _ _ _ _ (by decide)]

/-- At 2 KiB the size is cut off. -/
theorem not_lenRoundTrip_of_eq (hfree : p.get Tx.buffer2Size = 0) (h : len.toInt = 2048) :
    ¬ LenRoundTrip p len := by
  intro hround
  have hsum := hround.sum
  have hlen : (len.toNat : Int) = len.toInt := toNat_eq_of_toInt_nonneg (by omega)
  have hsize2 := toNat_of_free hfree
  rw [normSetTxDescLenOnRing_of_le (by omega), Des01.get_set_self _ _ _ (by decide),
    Des01.get_set_of_disjoint _ _ _ _ (by decide), hsize2, BitVec.toNat_setWidth] at hsum
  change ((len.toNat % 2 ^ 11 : Nat) : Int) + (0 : Nat) = len.toInt at hsum
  omega

/-- A longer length is written where the normal layout does not look. -/
theorem not_lenRoundTrip_of_lt (hfree : p.get Tx.buffer2Size = 0) (hlt : 2048 < len.toInt)
    (hle : len.toInt ≤ 4094) : ¬ LenRoundTrip p len := by
  intro hround
  have hset := normSetTxDescLenOnRing_of_lt (p := p) hlt
  have hsum := hround.sum
  have hlen : (len.toNat : Int) = len.toInt := toNat_eq_of_toInt_nonneg (by omega)
  generalize hq : normSetTxDescLenOnRing p len = q at hset hsum
  -- what the enhanced layout shows of the same word
  have hsize1 : (q.get Etx.buffer1Size).toNat = 2047 := by
    rw [hset, Des01.get_set_of_disjoint _ _ _ _ (by decide), Des01.get_set_self _ _ _ (by decide)]
    rfl
  have hsize2 : (q.get Etx.buffer2Size).toNat = len.toNat - 2047 := by
    rw [hset, Des01.get_set_self _ _ _ (by decide), BitVec.toNat_setWidth,
      BitVec.toNat_sub_of_le (BitVec.le_def.mpr (by simp; omega))]
    simp
    omega
  have hgap : (q.get Etx.reserved3).toNat = (p.get Etx.reserved3).toNat := by
    rw [hset, Des01.get_set_of_disjoint _ _ _ _ (by decide),
      Des01.get_set_of_disjoint _ _ _ _ (by decide)]
  have hfree' := toNat_of_free hfree
  simp only [Des01.toNat_get, Des01.word] at hsum hsize1 hsize2 hgap hfree'
  omega

/-- In ring mode a length up to 4094 is read back, and nothing else changed, exactly if it fits the
first size. -/
theorem len_round_trip_iff (p : Des01) (len : BitVec 32) (hfree : p.get Tx.buffer2Size = 0)
    (hnonneg : 0 ≤ len.toInt) (hle : len.toInt ≤ 4094) :
    LenRoundTrip p len ↔ len.toInt ≤ 2047 := by
  refine ⟨fun hround => ?_, lenRoundTrip_of_le hfree hnonneg⟩
  by_contra hgt
  obtain hlt | heq : 2048 < len.toInt ∨ len.toInt = 2048 := by omega
  · exact not_lenRoundTrip_of_lt hfree hlt hle hround
  · exact not_lenRoundTrip_of_eq hfree heq hround

theorem len_round_trip_1500 : LenRoundTrip ⟨0, 0⟩ 1500 :=
  (len_round_trip_iff ⟨0, 0⟩ 1500 rfl (by decide) (by decide)).mpr (by decide)

/-- A length of 3000 reads as 3871, and sets `second_address_chained` and `end_ring`. -/
theorem len_3000_not_read_back : ¬ LenRoundTrip ⟨0, 0⟩ 3000 :=
  fun h => absurd h.sum (by decide)

end Stmmac
