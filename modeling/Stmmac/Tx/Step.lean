import Stmmac.Tx.CleanSpec
import Stmmac.Tx.XmitSpec

/-!
# Transmit side: the system

The calls of the driver on the transmit ring and the completions of the hardware, as one labelled
transition function. A completion writes back a descriptor the DMA owns and gives it up; nothing
is assumed here about which one, since a run may add such an assumption to its steps.
-/

namespace Stmmac

open Library

inductive TxAct where
  | xmit (skb : TxSkb) (dma : Nat → BitVec 32)
  | rtl8211Xmit (length addr : BitVec 32)
  | txClean
  | txErr
  | complete (entry : Nat) (desc : DmaDesc)

/-- The DMA writes back descriptor `entry`. -/
def txComplete (c : Conf) (s : TxState) (entry : Nat) (desc : DmaDesc) : Option TxState :=
  if c.txOwned (s.ring entry) ∧ c.desc.getTxOwner desc.des01 = false then
    some (s.modify entry ({ · with desc := desc }))
  else none

/-- The write-back changes the status word only. -/
def StatusOnly (s : TxState) (entry : Nat) (desc : DmaDesc) : Prop :=
  desc = { (s.ring entry).desc with
    des01 := { (s.ring entry).desc.des01 with des0 := desc.des01.des0 } }

instance (s : TxState) (entry : Nat) (desc : DmaDesc) : Decidable (StatusOnly s entry desc) :=
  inferInstanceAs (Decidable (_ = _))

def txStep (c : Conf) (s : TxState) : TxAct → Option TxState
  | .xmit skb dma => some (stmmacXmit c s skb dma).1
  | .rtl8211Xmit length addr => some (rtl8211Xmit c s length addr).1
  | .txClean => some (stmmacTxClean c s)
  | .txErr => some (stmmacTxErr c s)
  | .complete entry desc => txComplete c s entry desc

/-- The transmit side after `init_dma_desc_rings`, on zeroed memory. -/
def TxState.idle (c : Conf) : TxState where
  ring i := ⟨⟨c.desc.initTxDesc ⟨0, 0⟩ c.mode (i == c.dmaTxSize.toNat - 1), 0, 0⟩, none, 0⟩
  curTx := 0
  dirtyTx := 0
  txCountFrames := 0
  queueStopped := false
  txtimer := false
  txPathInLpiMode := false
  eeeEnabled := false
  eeeCtrlTimer := false
  stats := {}
  trace := []

/-- A frame without checksum offload or time stamps. -/
def TxSkb.plain (id : Nat) (headlen : BitVec 32) (frags : List (BitVec 32)) : TxSkb where
  id := id
  len := frags.foldl (· + ·) headlen
  headlen := headlen
  frags := frags
  csumPartial := false
  hwTstamp := false
  inProgress := false

variable {c : Conf} {s s' : TxState} {t h entry : Nat} {desc : DmaDesc}

theorem StatusOnly.des1 (hs : StatusOnly s entry desc) :
    desc.des01.des1 = (s.ring entry).desc.des01.des1 := by
  rw [hs]

theorem txComplete_eq (hs : txComplete c s entry desc = some s') :
    c.txOwned (s.ring entry) = true ∧ c.desc.getTxOwner desc.des01 = false ∧
      s' = s.modify entry ({ · with desc := desc }) := by
  unfold txComplete at hs
  split at hs
  · next hown =>
    obtain rfl := Option.some.inj hs
    exact ⟨hown.1, hown.2, rfl⟩
  · cases hs

/-- A refused frame stops the queue and changes nothing else. -/
theorem stmmacXmit_refused {skb : TxSkb} {dma : Nat → BitVec 32} (h : ¬ XmitFits c s skb) :
    (stmmacXmit c s skb dma).1 = { s with queueStopped := true } := by
  rw [stmmacXmit_busy h]

theorem stmmacXmit_same {skb : TxSkb} {dma : Nat → BitVec 32} (h : ¬ XmitFits c s skb) :
    SameRing s (stmmacXmit c s skb dma).1 := by
  rw [stmmacXmit_refused h]
  exact ⟨rfl, rfl, rfl, .inl rfl⟩

/-- Reclaiming stays inside the window. -/
theorem TxWindow.txClean (w : TxWindow c s t h) : ∃ t', TxWindow c (stmmacTxClean c s) t' h :=
  stmmacTxClean_invariant (I := fun t s => TxWindow c s t h)
    (fun w hsame => w.congr hsame.dirtyTx hsame.curTx) (fun w hg => w.clean hg) w

/-! ## The free slots -/

/-- The slots outside the window, seen through the counters that will use them next. -/
def FreeSlots (c : Conf) (s : TxState) (t h : Nat) (P : TxSlot → Prop) : Prop :=
  ∀ k, h ≤ k → k < t + c.dmaTxSize.toNat → P (s.ring (k % c.dmaTxSize.toNat))

namespace FreeSlots

variable {P : TxSlot → Prop}

theorem of_forall (hp : IsPow2 c.dmaTxSize) (h : ∀ i < c.dmaTxSize.toNat, P (s.ring i)) :
    FreeSlots c s t t P :=
  fun k _ _ => h _ (Nat.mod_lt k hp.pos)

/-- With nothing in flight every slot is free. -/
theorem all (hf : FreeSlots c s t t P) {i : Nat}
    (hi : i < c.dmaTxSize.toNat) : P (s.ring i) := by
  obtain ⟨k, hk, hk', rfl⟩ := Ring.exists_mod_eq t hi
  exact hf k hk hk'

/-- Reclaiming adds one slot, a lap ahead. -/
theorem clean (hp : IsPow2 c.dmaTxSize) (w : TxWindow c s t h) (hg : txCleanGuard c s = true)
    (hP : ∀ p, P (c.reclaimSlot p)) (hf : FreeSlots c s t h P) :
    FreeSlots c (txCleanBody c s) (t + 1) h P := by
  have hlt := w.lt_of_guard hg
  intro k hk hk'
  rcases Nat.lt_or_ge k (t + c.dmaTxSize.toNat) with hkN | hkN
  · rw [w.clean_kept hp (by omega) hkN]
    exact hf k hk hkN
  · have hkt : k % c.dmaTxSize.toNat = t % c.dmaTxSize.toNat := by
      rw [show k = t + c.dmaTxSize.toNat by omega, Nat.add_mod_right]
    rw [hkt, txCleanBody_ring, w.entry_dirty hp, Function.update_self]
    exact hP _

theorem filled {n : Nat} {fill : Nat → TxSlot → TxSlot} (w : TxWindow c s t h)
    (hfill : TxFilled c s s' h n fill) (hroom : h + n < t + c.dmaTxSize.toNat)
    (hf : FreeSlots c s t h P) : FreeSlots c s' t (h + n) P := by
  have hle := w.le
  intro k hk hk'
  rw [hfill.frame _ fun i hi => Ring.mod_ne_of_window t (by omega)]
  exact hf k (by omega) hk'

end FreeSlots

end Stmmac
