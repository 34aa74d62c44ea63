import Stmmac.Tx.Window
import Stmmac.Tx.Xmit

/-!
# Transmit side: what a transmit call writes

An accepted `stmmac_xmit` writes the slots of the next `nr_frags + 1` counter values, each as
`xmitSlot` says, and no other; it moves `cur_tx` past them. `rtl8211_xmit` does the same for one
slot. Callers below use these facts and never unfold the two functions.
-/

namespace Stmmac

open Library

variable {c : Conf} {s : TxState} {skb : TxSkb} {dma : Nat → BitVec 32}

/-! ## Slots -/

/-- Segment `i` of a frame on the slot it fills. -/
def Conf.segSlot (c : Conf) (skb : TxSkb) (dma : Nat → BitVec 32) : Nat → TxSlot → TxSlot
  | 0, p => c.prepareSlot true skb.headlen (dma 0) skb.csumPartial { p with skb := some skb }
  | i + 1, p => c.fragSlot skb.csumPartial (skb.frags.getD i 0) (dma (i + 1)) p

/-- What `close_tx_desc` and the coalescing block do to the last slot. -/
def Conf.closeSlot (c : Conf) (s : TxState) (n : BitVec 32) (p : TxSlot) : TxSlot :=
  let p := p.mapDes c.desc.closeTxDesc
  if c.txCoalFrames > s.txCountFrames + n then p.mapDes c.desc.clearTxIc else p

/-- What the request for a time stamp does to the first slot. -/
def Conf.stampSlot (c : Conf) (skb : TxSkb) (p : TxSlot) : TxSlot :=
  if skb.hwTstamp && c.hwtsTxEn then
    { p.mapDes c.desc.enableTxTimestamp with skb := some { skb with inProgress := true } }
  else p

/-- What handing over the first slot does to it, with the time stamp requested afterwards. -/
def Conf.firstSlot (c : Conf) (skb : TxSkb) (p : TxSlot) : TxSlot :=
  c.stampSlot skb (p.mapDes c.desc.setTxOwner)

/-- Slot `i` of an accepted frame. -/
def Conf.xmitSlot (c : Conf) (s : TxState) (skb : TxSkb) (dma : Nat → BitVec 32) (i : Nat)
    (p : TxSlot) : TxSlot :=
  let p := c.segSlot skb dma i p
  let p := if i = skb.frags.length then
      c.closeSlot s (BitVec.ofNat 32 (skb.frags.length + 1)) p else p
  if i = 0 then c.firstSlot skb p else p

@[simp] theorem segSlot_dma (i : Nat) (p : TxSlot) : (c.segSlot skb dma i p).dma = dma i := by
  cases i <;> rfl

@[simp] theorem closeSlot_dma (n : BitVec 32) (p : TxSlot) : (c.closeSlot s n p).dma = p.dma := by
  unfold Conf.closeSlot; split <;> rfl

@[simp] theorem closeSlot_skb (n : BitVec 32) (p : TxSlot) : (c.closeSlot s n p).skb = p.skb := by
  unfold Conf.closeSlot; split <;> rfl

@[simp] theorem firstSlot_dma (p : TxSlot) : (c.firstSlot skb p).dma = p.dma := by
  unfold Conf.firstSlot Conf.stampSlot; split <;> rfl

theorem xmitSlot_dma (i : Nat) (p : TxSlot) : (c.xmitSlot s skb dma i p).dma = dma i := by
  unfold Conf.xmitSlot
  split_ifs <;> simp

/-- Only the first slot of a frame refers to its skb. -/
theorem xmitSlot_skb (i : Nat) (p : TxSlot) :
    (c.xmitSlot s skb dma i p).skb.map TxSkb.id = if i = 0 then some skb.id else none := by
  cases i with
  | zero =>
    have hseg : (c.segSlot skb dma 0 p).skb = some skb := rfl
    simp only [Conf.xmitSlot, Conf.firstSlot, Conf.stampSlot, ↓reduceIte]
    split_ifs <;> simp [hseg]
  | succ i =>
    have hseg : (c.segSlot skb dma (i + 1) p).skb = none := rfl
    simp only [Conf.xmitSlot, Nat.add_eq_zero_iff, Nat.one_ne_zero, and_false, ↓reduceIte]
    split_ifs <;> simp [hseg]

variable (ops : c.desc.Lawful)

include ops in
theorem closeSlot_owned (n : BitVec 32) (p : TxSlot) :
    c.txOwned (c.closeSlot s n p) = c.txOwned p := by
  unfold Conf.closeSlot Conf.txOwned
  dsimp only
  split <;> simp [ops.txOwner_close, ops.txOwner_clearIc]

include ops in
theorem firstSlot_owned (p : TxSlot) : c.txOwned (c.firstSlot skb p) = true := by
  unfold Conf.firstSlot Conf.stampSlot Conf.txOwned
  split <;> simp [ops.txOwner_set, ops.txOwner_timestamp]

include ops in
/-- Every slot of an accepted frame belongs to the DMA. -/
theorem xmitSlot_owned (i : Nat) (p : TxSlot) : c.txOwned (c.xmitSlot s skb dma i p) = true := by
  cases i with
  | zero => simp [Conf.xmitSlot, firstSlot_owned ops]
  | succ i =>
    have hseg : c.txOwned (c.segSlot skb dma (i + 1) p) = true := by
      simp [Conf.segSlot, Conf.fragSlot, Conf.txOwned, ops.txOwner_set]
    simp only [Conf.xmitSlot, Nat.add_eq_zero_iff, Nat.one_ne_zero, and_false, ↓reduceIte]
    split_ifs
    · rw [closeSlot_owned ops, hseg]
    · exact hseg

/-! ## The fragment loop -/

theorem xmitFrags_eq (hp : IsPow2 c.dmaTxSize) (csum : Bool) (segs : List (BitVec 32 × BitVec 32))
    {s : TxState} {h : Nat} (hcur : s.curTx = BitVec.ofNat 32 h) :
    xmitFrags c csum segs s =
      { s with
        ring := Ring.modifyFrom c.dmaTxSize.toNat s.ring (h + 1)
          (segs.map fun (len, addr) => c.fragSlot csum len addr)
        curTx := BitVec.ofNat 32 (h + segs.length)
        trace := s.trace ++ segs.map fun (len, addr) => .dmaMap addr len } := by
  induction segs generalizing s h with
  | nil => simp [xmitFrags, ← hcur]
  | cons seg segs ih =>
    obtain ⟨len, addr⟩ := seg
    have hnext : s.curTx + 1 = BitVec.ofNat 32 (h + 1) := by rw [hcur, Ring.ofNat_succ]
    simp only [xmitFrags]
    refine (ih (h := h + 1) hnext).trans ?_
    simp only [TxState.modify, TxState.call, List.map_cons, List.length_cons, Ring.modifyFrom,
      hnext, txEntry_ofNat hp, List.append_assoc, List.cons_append, List.nil_append]
    simp [Nat.add_assoc, Nat.add_comm 1]

/-! ## The blocks around the loop -/

section Blocks

variable (s : TxState) (entry : Nat) (n : BitVec 32)

@[simp] theorem xmitExitLpi_ring : (xmitExitLpi s).ring = s.ring := by
  unfold xmitExitLpi; split <;> rfl
@[simp] theorem xmitExitLpi_curTx : (xmitExitLpi s).curTx = s.curTx := by
  unfold xmitExitLpi; split <;> rfl
@[simp] theorem xmitExitLpi_dirtyTx : (xmitExitLpi s).dirtyTx = s.dirtyTx := by
  unfold xmitExitLpi; split <;> rfl
@[simp] theorem xmitExitLpi_txCountFrames : (xmitExitLpi s).txCountFrames = s.txCountFrames := by
  unfold xmitExitLpi; split <;> rfl

/-- `close_tx_desc` followed by the coalescing block writes the last slot only. -/
theorem txCoalesce_ring :
    (txCoalesce c entry n (s.modify entry (.mapDes c.desc.closeTxDesc))).ring =
      Function.update s.ring entry (c.closeSlot s n (s.ring entry)) := by
  unfold txCoalesce Conf.closeSlot
  dsimp only [TxState.modify]
  split <;> simp
@[simp] theorem txCoalesce_curTx (k : BitVec 32) : (txCoalesce c entry k s).curTx = s.curTx := by
  unfold txCoalesce; dsimp only; split <;> rfl
@[simp] theorem txCoalesce_dirtyTx (k : BitVec 32) :
    (txCoalesce c entry k s).dirtyTx = s.dirtyTx := by
  unfold txCoalesce; dsimp only; split <;> rfl
@[simp] theorem txCoalesce_trace (k : BitVec 32) : (txCoalesce c entry k s).trace = s.trace := by
  unfold txCoalesce; dsimp only; split <;> rfl

@[simp] theorem xmitStopQueue_ring : (xmitStopQueue c s).ring = s.ring := by
  unfold xmitStopQueue; split <;> rfl
@[simp] theorem xmitStopQueue_curTx : (xmitStopQueue c s).curTx = s.curTx := by
  unfold xmitStopQueue; split <;> rfl
@[simp] theorem xmitStopQueue_dirtyTx : (xmitStopQueue c s).dirtyTx = s.dirtyTx := by
  unfold xmitStopQueue; split <;> rfl
@[simp] theorem xmitStopQueue_trace : (xmitStopQueue c s).trace = s.trace := by
  unfold xmitStopQueue; split <;> rfl

@[simp] theorem addTxBytes_ring (k : BitVec 32) : (s.addTxBytes k).ring = s.ring := rfl
@[simp] theorem addTxBytes_curTx (k : BitVec 32) : (s.addTxBytes k).curTx = s.curTx := rfl
@[simp] theorem addTxBytes_dirtyTx (k : BitVec 32) : (s.addTxBytes k).dirtyTx = s.dirtyTx := rfl
@[simp] theorem addTxBytes_trace (k : BitVec 32) : (s.addTxBytes k).trace = s.trace := rfl

theorem xmitTimestamp_ring :
    (xmitTimestamp c skb entry s).ring =
      Function.update s.ring entry (c.stampSlot skb (s.ring entry)) := by
  unfold xmitTimestamp Conf.stampSlot
  dsimp only
  split_ifs <;> simp
@[simp] theorem xmitTimestamp_curTx : (xmitTimestamp c skb entry s).curTx = s.curTx := by
  unfold xmitTimestamp; dsimp only; split_ifs <;> rfl
@[simp] theorem xmitTimestamp_dirtyTx : (xmitTimestamp c skb entry s).dirtyTx = s.dirtyTx := by
  unfold xmitTimestamp; dsimp only; split_ifs <;> rfl

theorem xmitExitLpi_trace :
    (xmitExitLpi s).trace = s.trace ++ if s.txPathInLpiMode then [.resetEeeMode] else [] := by
  unfold xmitExitLpi; split <;> simp [stmmacDisableEeeMode]

theorem xmitTimestamp_trace :
    (xmitTimestamp c skb entry s).trace =
      s.trace ++ if c.hwtsTxEn then [] else [.skbTxTimestamp skb.id] := by
  unfold xmitTimestamp; dsimp only; cases c.hwtsTxEn <;> split_ifs <;> simp_all

end Blocks

/-! ## The whole call -/

/-- The frame fits: `stmmac_xmit` does not return `NETDEV_TX_BUSY`. -/
def XmitFits (c : Conf) (s : TxState) (skb : TxSkb) : Prop :=
  skb.frags.length + 1 ≤ (stmmacTxAvail c s).toNat

instance : Decidable (XmitFits c s skb) := inferInstanceAs (Decidable (_ ≤ _))

/-- The mappings of a frame, in the order they are made. -/
def TxSkb.maps (skb : TxSkb) (dma : Nat → BitVec 32) : List (BitVec 32 × BitVec 32) :=
  (dma 0, skb.headlen) :: (skb.segments dma).map Prod.swap

/-- The calls an accepted frame makes. -/
def xmitCalls (c : Conf) (s : TxState) (skb : TxSkb) (dma : Nat → BitVec 32) : List TxCall :=
  (if s.txPathInLpiMode then [.resetEeeMode] else []) ++
    (skb.maps dma).map (fun m => .dmaMap m.1 m.2) ++
      (if c.hwtsTxEn then [] else [.skbTxTimestamp skb.id]) ++ [.enableDmaTransmission]

theorem stmmacXmit_busy (h : ¬ XmitFits c s skb) :
    stmmacXmit c s skb dma = ({ s with queueStopped := true }, .busy) := by
  unfold XmitFits at h
  rw [stmmacXmit]
  exact if_pos (by omega)

theorem stmmacXmit_result (dma : Nat → BitVec 32) (h : XmitFits c s skb) :
    (stmmacXmit c s skb dma).2 = .ok := by
  unfold XmitFits at h
  rw [stmmacXmit]
  exact congrArg Prod.snd (if_neg (by omega))

variable {h : Nat}

theorem length_segments : (skb.segments dma).length = skb.frags.length := by
  simp [TxSkb.segments]

/-- The segment functions, as the list the ring is modified from. -/
theorem segSlot_list :
    c.segSlot skb dma 0 ::
        (skb.segments dma).map (fun (len, addr) => c.fragSlot skb.csumPartial len addr) =
      (List.range (skb.frags.length + 1)).map (c.segSlot skb dma) := by
  rw [List.range_succ_eq_map, List.map_cons]
  congr 1
  apply List.ext_getElem
  · simp [TxSkb.segments]
  · intro i hi hi'
    simp only [List.length_map, length_segments] at hi
    have hget : skb.frags.getD i 0 = skb.frags[i] := by simp [hi]
    simp only [TxSkb.segments, List.getElem_map, List.getElem_zipIdx, List.getElem_range,
      Nat.zero_add]
    exact congrArg (c.fragSlot skb.csumPartial · (dma (i + 1))) hget.symm

section Accepted

variable (hp : IsPow2 c.dmaTxSize) (hfit : XmitFits c s skb) (hcur : s.curTx = BitVec.ofNat 32 h)

include hfit in
theorem not_busy : ¬ (stmmacTxAvail c s).toNat < skb.frags.length + 1 := by
  unfold XmitFits at hfit; omega

include hp hfit hcur in
theorem stmmacXmit_curTx :
    (stmmacXmit c s skb dma).1.curTx = BitVec.ofNat 32 (h + (skb.frags.length + 1)) := by
  simp only [stmmacXmit, if_neg (not_busy hfit)]
  rw [xmitFrags_eq hp (h := h) _ _ (by simp [hcur])]
  simp only [TxState.call_curTx, xmitTimestamp_curTx, addTxBytes_curTx, xmitStopQueue_curTx,
    txCoalesce_curTx, TxState.modify_curTx, length_segments]
  exact (Ring.ofNat_succ 32 _).symm

include hp hfit hcur in
theorem stmmacXmit_dirtyTx : (stmmacXmit c s skb dma).1.dirtyTx = s.dirtyTx := by
  simp only [stmmacXmit, if_neg (not_busy hfit)]
  rw [xmitFrags_eq hp (h := h) _ _ (by simp [hcur])]
  simp

include hp hfit hcur in
theorem stmmacXmit_trace :
    (stmmacXmit c s skb dma).1.trace = s.trace ++ xmitCalls c s skb dma := by
  simp only [stmmacXmit, if_neg (not_busy hfit)]
  rw [xmitFrags_eq hp (h := h) _ _ (by simp [hcur])]
  simp [xmitCalls, xmitTimestamp_trace, xmitExitLpi_trace, TxSkb.maps, Function.comp_def]

include hp hfit hcur in
/-- The ring: all segments in order, then the last slot, then the first. -/
theorem stmmacXmit_ring :
    let N := c.dmaTxSize.toNat
    let r := Ring.modifyFrom N s.ring h
      ((List.range (skb.frags.length + 1)).map (c.segSlot skb dma))
    let last := (h + skb.frags.length) % N
    let r := Function.update r last
      (c.closeSlot s (BitVec.ofNat 32 (skb.frags.length + 1)) (r last))
    (stmmacXmit c s skb dma).1.ring =
      Function.update r (h % N) (c.firstSlot skb (r (h % N))) := by
  have hfirst : c.txEntry s.curTx = h % c.dmaTxSize.toNat := by rw [hcur, txEntry_ofNat hp]
  simp only [stmmacXmit, if_neg (not_busy hfit)]
  rw [xmitFrags_eq hp (h := h) _ _ (by simp [hcur])]
  rw [← segSlot_list]
  simp only [TxState.call_ring, xmitTimestamp_ring, addTxBytes_ring, xmitStopQueue_ring,
    TxState.modify_ring, txCoalesce_ring, xmitExitLpi_curTx, hfirst, txEntry_ofNat hp,
    length_segments, Ring.modifyFrom]
  simp [Conf.firstSlot, Conf.segSlot, Conf.closeSlot]

end Accepted

/-! ## Filling slots -/

/-- The step from `s` to `s'` fills `n` slots from counter `h` on, slot `i` by `fill i`, moves
`cur_tx` past them and leaves everything else of the ring alone. -/
structure TxFilled (c : Conf) (s s' : TxState) (h n : Nat) (fill : Nat → TxSlot → TxSlot) :
    Prop where
  dirty : s'.dirtyTx = s.dirtyTx
  cur : s'.curTx = BitVec.ofNat 32 (h + n)
  slot : ∀ i < n, s'.ring ((h + i) % c.dmaTxSize.toNat) =
    fill i (s.ring ((h + i) % c.dmaTxSize.toNat))
  frame : ∀ j, (∀ i < n, j ≠ (h + i) % c.dmaTxSize.toNat) → s'.ring j = s.ring j

namespace TxFilled

variable {s' : TxState} {t n : Nat} {fill : Nat → TxSlot → TxSlot}

theorem window (f : TxFilled c s s' h n fill) (w : TxWindow c s t h)
    (hroom : h + n < t + c.dmaTxSize.toNat) : TxWindow c s' t (h + n) :=
  ⟨f.dirty.trans w.dirty, f.cur, Nat.le_trans w.le (Nat.le_add_right _ _), hroom⟩

/-- The slots in flight before the step are none of the slots it fills. -/
theorem kept (f : TxFilled c s s' h n fill) (hroom : h + n ≤ t + c.dmaTxSize.toNat) {k : Nat}
    (hk : t ≤ k) (hk' : k < h) :
    s'.ring (k % c.dmaTxSize.toNat) = s.ring (k % c.dmaTxSize.toNat) := by
  apply f.frame
  intro i hi
  exact Ring.mod_ne_of_window t (by omega)

end TxFilled

/-- An accepted frame fits into the free part of the window. -/
theorem XmitFits.room {t : Nat} (hfit : XmitFits c s skb) (w : TxWindow c s t h) :
    h + (skb.frags.length + 1) < t + c.dmaTxSize.toNat := by
  have hav := w.avail
  have hle := w.le
  unfold XmitFits at hfit
  omega

/-- Each slot of an accepted frame is written as `xmitSlot` says, from what it held before. -/
theorem stmmacXmit_filled {t : Nat} (dma : Nat → BitVec 32) (hp : IsPow2 c.dmaTxSize)
    (w : TxWindow c s t h) (hfit : XmitFits c s skb) :
    TxFilled c s (stmmacXmit c s skb dma).1 h (skb.frags.length + 1) (c.xmitSlot s skb dma) where
  dirty := stmmacXmit_dirtyTx hp hfit w.cur
  cur := stmmacXmit_curTx hp hfit w.cur
  slot i hi := by
    have hroom := hfit.room w
    have hle := w.le
    rw [stmmacXmit_ring hp hfit w.cur, Ring.modify_base _ _ (by omega),
      Ring.modify_slot _ _ (by omega) (by omega),
      Ring.modifyFrom_slot (by simp; omega) (by simpa using hi)]
    simp [Conf.xmitSlot]
  frame j hj := by
    have hfirst : j ≠ h % c.dmaTxSize.toNat := hj 0 (Nat.succ_pos _)
    have hlast := hj _ (Nat.lt_succ_self _)
    rw [stmmacXmit_ring hp hfit w.cur, Function.update_of_ne hfirst, Function.update_of_ne hlast]
    apply Ring.modifyFrom_of_ne
    intro i hi
    exact hj i (by simpa using hi)

/-! ## Frames without an skb -/

/-- The slot of a frame sent by `rtl8211_xmit`. -/
def Conf.rtl8211Slot (c : Conf) (s : TxState) (length addr : BitVec 32) (p : TxSlot) : TxSlot :=
  (c.closeSlot s 1 (c.prepareSlot true length addr false p)).mapDes c.desc.setTxOwner

section Rtl8211

variable {length addr : BitVec 32}

@[simp] theorem rtl8211Slot_dma (p : TxSlot) : (c.rtl8211Slot s length addr p).dma = addr := by
  simp [Conf.rtl8211Slot, Conf.prepareSlot]

theorem rtl8211Xmit_curTx : (rtl8211Xmit c s length addr).1.curTx = s.curTx + 1 := by
  simp [rtl8211Xmit]

theorem rtl8211Xmit_dirtyTx : (rtl8211Xmit c s length addr).1.dirtyTx = s.dirtyTx := by
  simp [rtl8211Xmit]

theorem rtl8211Xmit_trace :
    (rtl8211Xmit c s length addr).1.trace =
      s.trace ++ [.dmaMap addr length, .enableDmaTransmission] := by
  simp [rtl8211Xmit]

theorem rtl8211Xmit_filled (hp : IsPow2 c.dmaTxSize) (hcur : s.curTx = BitVec.ofNat 32 h) :
    TxFilled c s (rtl8211Xmit c s length addr).1 h 1
      fun _ => c.rtl8211Slot s length addr := by
  have hentry : c.txEntry s.curTx = h % c.dmaTxSize.toNat := by rw [hcur, txEntry_ofNat hp]
  have hring : (rtl8211Xmit c s length addr).1.ring =
      Function.update s.ring (h % c.dmaTxSize.toNat)
        (c.rtl8211Slot s length addr (s.ring (h % c.dmaTxSize.toNat))) := by
    simp only [rtl8211Xmit, hentry, TxState.call_ring, addTxBytes_ring, TxState.modify_ring,
      txCoalesce_ring]
    simp [Conf.rtl8211Slot, Conf.closeSlot]
  refine ⟨rtl8211Xmit_dirtyTx, ?_, ?_, ?_⟩
  · rw [rtl8211Xmit_curTx, hcur, Ring.ofNat_succ]
  · intro i hi
    obtain rfl : i = 0 := by omega
    simp [hring]
  · intro j hj
    rw [hring]
    exact Function.update_of_ne (hj 0 Nat.one_pos) _ _

end Rtl8211

end Stmmac
