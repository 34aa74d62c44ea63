import Mathlib.Algebra.Ring.Nat
import Mathlib.Data.Nat.Prime.Basic
import Stmmac.Desc.Normal

/-!
# Configuration of an open interface

The fields of `struct stmmac_priv`, `struct mac_device_info` and `struct plat_stmmacenet_data`
that the data path reads and does not write. `ring_mode.c` is not part of the repository: its
descriptor hooks are taken as functions that produce a new `des3` and touch nothing else.
-/

namespace Stmmac

/-- `struct stmmac_ring_mode_ops`, the hooks on `des3`. -/
structure StmmacRingModeOps where
  refillDesc3 : DmaDesc → BitVec 32
  initDesc3 : DmaDesc → BitVec 32
  cleanDesc3 : DmaDesc → BitVec 32
  set16kibBfsize : BitVec 32 → BitVec 32

structure Conf where
  desc : StmmacDescOps
  ring : StmmacRingModeOps
  /-- The `des3` that `chain->init` gives to a descriptor. -/
  chainDes3 : Nat → BitVec 32
  mode : Mode
  extendDesc : Bool
  dmaTxSize : BitVec 32
  dmaRxSize : BitVec 32
  txCoalFrames : BitVec 32
  hwtsTxEn : Bool
  hwtsRxEn : Bool
  /-- Nothing sets it: the function that did is commented out. -/
  advTs : Bool
  useRiwt : Bool
  rxCoe : RxCoe
  maxSkbFrags : Nat

/-- The time stamps are read from `dma_etx` and `dma_erx` if `adv_ts` is set and from `dma_tx` and
`dma_rx` if not; those of the two that `extend_desc` did not allocate are `NULL`. -/
def Conf.stampRing (c : Conf) : Bool := c.advTs == c.extendDesc

/-- Rings of `size` normal descriptors, without time stamps or jumbo frames. -/
def Conf.normal (size : BitVec 32) : Conf where
  desc := ndescOps
  ring :=
    { refillDesc3 := fun p => p.des3
      initDesc3 := fun p => p.des2 + 8192
      cleanDesc3 := fun _ => 0
      set16kibBfsize := fun mtu => if mtu ≥ 8192 then 16384 else 0 }
  chainDes3 := fun _ => 0
  mode := .ring
  extendDesc := false
  dmaTxSize := size
  dmaRxSize := size
  txCoalFrames := 64
  hwtsTxEn := false
  hwtsRxEn := false
  advTs := false
  useRiwt := false
  rxCoe := .none
  maxSkbFrags := 17

/-- `STMMAC_ALIGN`, with a cache line of `line` bytes. -/
def stmmacAlign (line x : BitVec 32) : BitVec 32 := (x + (line - 1)) &&& ~~~(line - 1)

/-- A ring size that is a power of two. -/
def IsPow2 (size : BitVec 32) : Prop := ∃ k, size.toNat = 2 ^ k

theorem IsPow2.dvd {size : BitVec 32} (h : IsPow2 size) : size.toNat ∣ 2 ^ 32 := by
  obtain ⟨k, hk⟩ := h
  have hlt : 2 ^ k < 2 ^ 32 := hk ▸ size.isLt
  have hle : k ≤ 32 := Nat.le_of_lt ((Nat.pow_lt_pow_iff_right (by decide)).mp hlt)
  exact hk ▸ Nat.pow_dvd_pow 2 hle

theorem isPow2_iff_dvd {size : BitVec 32} : IsPow2 size ↔ size.toNat ∣ 2 ^ 32 := by
  refine ⟨IsPow2.dvd, fun h => ?_⟩
  obtain ⟨k, -, hk⟩ := (Nat.dvd_prime_pow Nat.prime_two).mp h
  exact ⟨k, hk⟩

theorem IsPow2.pos {size : BitVec 32} (h : IsPow2 size) : 0 < size.toNat := by
  obtain ⟨k, hk⟩ := h
  exact hk ▸ Nat.two_pow_pos k

end Stmmac
