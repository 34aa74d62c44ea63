import Stmmac.Conf

/-!
# The geometry of the rings

The sizes of the rings are module parameters. `stmmac_verify_args` replaces negative ones, and
`stmmac_open` rounds them up to whole cache lines. Zero passes the check and stays zero, so the ring
has no slot to take a position modulo; a very large size passes too, and the number of bytes to
allocate wraps.
-/

namespace Stmmac

open Library

def dmaTxSizeDefault : BitVec 32 := 5
def dmaRxSizeDefault : BitVec 32 := 5

/-- The part of `stmmac_verify_args` on a ring size. -/
def verifyRingSize (default size : BitVec 32) : BitVec 32 := if size.slt 0 then default else size

/-- The interface as `stmmac_open` sizes its rings, with a cache line of `line` bytes. -/
def Conf.withRings (c : Conf) (line dmaTxsize dmaRxsize : BitVec 32) : Conf :=
  { c with
    dmaTxSize := stmmacAlign line (verifyRingSize dmaTxSizeDefault dmaTxsize)
    dmaRxSize := stmmacAlign line (verifyRingSize dmaRxSizeDefault dmaRxsize) }

/-- `sizeof` of a descriptor. -/
def Conf.descSize (c : Conf) : BitVec 32 := if c.extendDesc then 32 else 16

/-- A ring with slots, all of them inside what is allocated for `size * descSize` bytes. -/
structure RingSound (descSize size : BitVec 32) : Prop where
  size_pos : 0 < size.toNat
  bytes_eq : (size * descSize).toNat = size.toNat * descSize.toNat
  slot_inside : ∀ i < size.toNat, (i + 1) * descSize.toNat ≤ (size * descSize).toNat

structure GeometrySound (c : Conf) : Prop where
  tx : RingSound c.descSize c.dmaTxSize
  rx : RingSound c.descSize c.dmaRxSize

/-- A size that is not zero and is at least a cache line short of the address space. -/
def SizeFits (line descSize size : BitVec 32) : Prop :=
  0 < size.toNat ∧ (size.toNat + line.toNat) * descSize.toNat ≤ 2 ^ 32

instance (line descSize size : BitVec 32) : Decidable (SizeFits line descSize size) :=
  inferInstanceAs (Decidable (_ ∧ _))

section Align

variable {line x descSize : BitVec 32} {k m : Nat}

/-- The next multiple of the cache line. -/
theorem toNat_stmmacAlign (hline : line.toNat = 2 ^ k) (hx : x.toNat < 2 ^ 31) :
    2 ^ k ∣ (stmmacAlign line x).toNat ∧ x.toNat ≤ (stmmacAlign line x).toNat ∧
      (stmmacAlign line x).toNat < x.toNat + line.toNat := by
  have hk : k ≤ 31 := by
    have hlt : 2 ^ k < 2 ^ 32 := hline ▸ line.isLt
    exact Nat.le_of_lt_succ ((Nat.pow_lt_pow_iff_right (by decide)).mp hlt)
  have hpos := Nat.two_pow_pos k
  have hmax : 2 ^ k ≤ 2 ^ 31 := Nat.pow_le_pow_right (by decide) hk
  have hones : (line - 1).toNat = 2 ^ k - 1 := by
    have hone : (1 : BitVec 32).toNat = 1 := rfl
    rw [BitVec.toNat_sub_of_le (BitVec.le_def.mpr (by rw [hone]; omega)), hline, hone]
  have hsum : (x + (line - 1)).toNat = x.toNat + (2 ^ k - 1) := by
    rw [BitVec.toNat_add_of_lt (by rw [hones]; omega), hones]
  have hvalue : (stmmacAlign line x).toNat =
      x.toNat + (2 ^ k - 1) - (x.toNat + (2 ^ k - 1)) % 2 ^ k := by
    rw [stmmacAlign, Bits.toNat_andNot_ones hones, hsum]
  have hmod := Nat.mod_lt (x.toNat + (2 ^ k - 1)) hpos
  rw [hvalue]
  refine ⟨Nat.dvd_sub_mod _, by omega, by omega⟩

theorem pos_stmmacAlign (hline : line.toNat = 2 ^ k) (hx : x.toNat < 2 ^ 31) :
    0 < (stmmacAlign line x).toNat ↔ 0 < x.toNat := by
  obtain ⟨hdvd, hle, hlt⟩ := toNat_stmmacAlign hline hx
  refine ⟨fun h => ?_, fun h => by omega⟩
  have := Nat.le_of_dvd h hdvd
  omega

/-- Below a power of two there is room for another cache line. -/
theorem stmmacAlign_lt_iff (hline : line.toNat = 2 ^ k) (hx : x.toNat < 2 ^ 31)
    (hpos : 0 < x.toNat) :
    (stmmacAlign line x).toNat < 2 ^ m ↔ x.toNat + line.toNat ≤ 2 ^ m := by
  obtain ⟨hdvd, hle, hlt⟩ := toNat_stmmacAlign hline hx
  refine ⟨fun h => ?_, fun h => by omega⟩
  have hone := Nat.le_of_dvd ((pos_stmmacAlign hline hx).mpr hpos) hdvd
  have hpow : 2 ^ k ≤ 2 ^ m := by omega
  have hkm : k ≤ m := (Nat.pow_le_pow_iff_right (by decide)).mp hpow
  have hroom : 2 ^ k ≤ 2 ^ m - (stmmacAlign line x).toNat :=
    Nat.le_of_dvd (by omega) (Nat.dvd_sub (Nat.pow_dvd_pow 2 hkm) hdvd)
  omega

/-- A ring is sound when it has slots and its bytes can be counted. -/
theorem ringSound_iff {size : BitVec 32} (hdesc : descSize.toNat * 2 ^ m = 2 ^ 32) :
    RingSound descSize size ↔ 0 < size.toNat ∧ size.toNat < 2 ^ m := by
  have hpos : 0 < descSize.toNat := Nat.pos_of_ne_zero fun h => by simp [h] at hdesc
  have hlt : size.toNat * descSize.toNat < 2 ^ 32 ↔ size.toNat < 2 ^ m := by
    rw [← hdesc, Nat.mul_comm]
    exact Nat.mul_lt_mul_left hpos
  constructor
  · intro h
    exact ⟨h.size_pos, hlt.mp (h.bytes_eq ▸ (size * descSize).isLt)⟩
  · rintro ⟨hsize, hsmall⟩
    have hbytes : (size * descSize).toNat = size.toNat * descSize.toNat := by
      rw [BitVec.toNat_mul, Nat.mod_eq_of_lt (hlt.mpr hsmall)]
    refine ⟨hsize, hbytes, fun i hi => ?_⟩
    rw [hbytes]
    exact Nat.mul_le_mul_right _ hi

theorem ringSound_align_iff (hline : IsPow2 line) (hx : x.toNat < 2 ^ 31)
    (hdesc : descSize.toNat * 2 ^ m = 2 ^ 32) :
    RingSound descSize (stmmacAlign line x) ↔ SizeFits line descSize x := by
  obtain ⟨k, hk⟩ := hline
  have hpos : 0 < descSize.toNat := Nat.pos_of_ne_zero fun h => by simp [h] at hdesc
  have hroom : (x.toNat + line.toNat) * descSize.toNat ≤ 2 ^ 32 ↔ x.toNat + line.toNat ≤ 2 ^ m := by
    rw [← hdesc, Nat.mul_comm descSize.toNat]
    exact Nat.mul_le_mul_right_iff hpos
  rw [ringSound_iff hdesc, pos_stmmacAlign hk hx, SizeFits, hroom]
  exact and_congr_right fun h => stmmacAlign_lt_iff hk hx h

end Align

/-! ## The parameters -/

section Params

variable {line : BitVec 32}

theorem toNat_verifyRingSize {default : BitVec 32} (size : BitVec 32)
    (hdefault : default.toNat < 2 ^ 31) : (verifyRingSize default size).toNat < 2 ^ 31 := by
  unfold verifyRingSize
  split_ifs with hneg
  · exact hdefault
  · have hlt := size.isLt
    have hcond := BitVec.toInt_eq_toNat_cond size
    simp only [BitVec.slt, decide_eq_true_eq, not_lt] at hneg
    change (0 : Int) ≤ size.toInt at hneg
    split at hcond <;> omega

/-- The rings of an open interface are sound exactly if each size that `stmmac_verify_args` lets
through is positive and small enough. -/
theorem geometry_iff (c : Conf) (dmaTxsize dmaRxsize : BitVec 32) (hline : IsPow2 line) :
    GeometrySound (c.withRings line dmaTxsize dmaRxsize) ↔
      SizeFits line c.descSize (verifyRingSize dmaTxSizeDefault dmaTxsize) ∧
        SizeFits line c.descSize (verifyRingSize dmaRxSizeDefault dmaRxsize) := by
  have hdesc : ∃ m, c.descSize.toNat * 2 ^ m = 2 ^ 32 := by
    unfold Conf.descSize
    cases c.extendDesc
    · exact ⟨28, rfl⟩
    · exact ⟨27, rfl⟩
  obtain ⟨m, hm⟩ := hdesc
  have htx := toNat_verifyRingSize dmaTxsize (by decide : dmaTxSizeDefault.toNat < 2 ^ 31)
  have hrx := toNat_verifyRingSize dmaRxsize (by decide : dmaRxSizeDefault.toNat < 2 ^ 31)
  have htx' := ringSound_align_iff hline htx hm
  have hrx' := ringSound_align_iff hline hrx hm
  constructor
  · intro h
    exact ⟨htx'.mp h.tx, hrx'.mp h.rx⟩
  · rintro ⟨ht, hr⟩
    exact ⟨htx'.mpr ht, hrx'.mpr hr⟩

/-- Negative parameters, with cache lines of 64 bytes. -/
theorem geometry_iff_negative :
    GeometrySound ((Conf.normal 0).withRings 64 (-1) (-7)) ↔
      SizeFits 64 (Conf.normal 0).descSize (verifyRingSize dmaTxSizeDefault (-1)) ∧
        SizeFits 64 (Conf.normal 0).descSize (verifyRingSize dmaRxSizeDefault (-7)) :=
  geometry_iff (Conf.normal 0) (-1) (-7) ⟨6, rfl⟩

/-- A ring of size 0. -/
theorem geometry_zero : ¬ GeometrySound ((Conf.normal 0).withRings 64 0 256) := by
  intro h
  have hpos := h.tx.size_pos
  revert hpos
  decide

end Params

end Stmmac
