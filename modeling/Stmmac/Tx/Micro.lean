import Stmmac.Desc.Writes
import Stmmac.Library.Ops
import Stmmac.Tx.CleanSpec
import Stmmac.Tx.XmitSpec

/-!
# Transmit side: the calls as single accesses

`stmmac_xmit`, `rtl8211_xmit` and the rounds of `stmmac_tx_clean` as programs whose operations read
or write `cur_tx`, or one word or bit field of a descriptor, one at a time. Run alone, the program
of a call does what the call does.
-/

namespace Stmmac

open Library

/-! ## Operations -/

/-- The local variables `first` and `desc`. -/
inductive TxPtr where
  | first | desc

/-- The local variables of a call: the value of `cur_tx` it has read, the slots of `first` and
`desc`, and whether the interrupt bit is to be cleared. -/
structure TxRegs where
  cur : BitVec 32
  first : Nat
  entry : Nat
  coal : Bool

def TxRegs.slot (r : TxRegs) : TxPtr → Nat
  | .first => r.first
  | .desc => r.entry

/-- A step that leaves alone what the other operations read and write. -/
structure QuietStep where
  run : TxState → TxState
  ring : ∀ s, (run s).ring = s.ring
  curTx : ∀ s, (run s).curTx = s.curTx
  dirtyTx : ∀ s, (run s).dirtyTx = s.dirtyTx
  txCountFrames : ∀ s, (run s).txCountFrames = s.txCountFrames

inductive TxOp where
  | loadCur
  | storeCur
  | useFirst
  | useEntry
  | descFirst
  | useDirty
  | write (t : TxPtr) (f : DmaDesc → DmaDesc)
  | skb (t : TxPtr) (x : Option TxSkb)
  | dma (t : TxPtr) (addr : BitVec 32)
  | count (n : BitVec 32)
  | clearIc
  | rearm
  | storeDirty
  | quiet (q : QuietStep)

/-- `++cur_tx` is a read of it, then a write of the value read plus 1. -/
def TxOp.run (c : Conf) : TxRegs × TxState → TxOp → TxRegs × TxState
  | (r, s), .loadCur => ({ r with cur := s.curTx }, s)
  | (r, s), .storeCur => ({ r with cur := r.cur + 1 }, { s with curTx := r.cur + 1 })
  | (r, s), .useFirst => ({ r with first := c.txEntry r.cur, entry := c.txEntry r.cur }, s)
  | (r, s), .useEntry => ({ r with entry := c.txEntry r.cur }, s)
  | (r, s), .descFirst => ({ r with entry := r.first }, s)
  | (r, s), .useDirty => ({ r with entry := c.txEntry s.dirtyTx }, s)
  | (r, s), .write t f => (r, s.modify (r.slot t) fun p => { p with desc := f p.desc })
  | (r, s), .skb t x => (r, s.modify (r.slot t) ({ · with skb := x }))
  | (r, s), .dma t addr => (r, s.modify (r.slot t) ({ · with dma := addr }))
  | (r, s), .count n =>
    let count := s.txCountFrames + n
    let coal := decide (c.txCoalFrames > count)
    ({ r with coal := coal }, { s with txCountFrames := if coal then count else 0 })
  | (r, s), .clearIc => (r, if r.coal then s.modify r.entry (.mapDes c.desc.clearTxIc) else s)
  | (r, s), .rearm =>
    (r, if r.coal then
      { s with
        stats := { s.stats with
          xstats := { s.stats.xstats with txResetIcBit := s.stats.xstats.txResetIcBit + 1 } }
        txtimer := true }
      else s)
  | (r, s), .storeDirty => (r, { s with dirtyTx := s.dirtyTx + 1 })
  | (r, s), .quiet q => (r, q.run s)

/-- The descriptor whose words the operation writes, unless it is the clearing of the interrupt bit
and that is not asked for. -/
def TxOp.target (r : TxRegs) : TxOp → Option Nat
  | .write t _ => some (r.slot t)
  | .clearIc => some r.entry
  | _ => none

/-- The descriptor whose words the operation writes. -/
def TxOp.writes (r : TxRegs) : TxOp → Option Nat
  | .clearIc => if r.coal then some r.entry else none
  | op => op.target r

/-- A write to the union `des01`. -/
def TxOp.des01 (t : TxPtr) (f : Des01 → Des01) : TxOp :=
  .write t fun d => { d with des01 := f d.des01 }

namespace QuietStep

def exitLpi : QuietStep :=
  ⟨xmitExitLpi, xmitExitLpi_ring, xmitExitLpi_curTx, xmitExitLpi_dirtyTx,
    xmitExitLpi_txCountFrames⟩

def call (x : TxCall) : QuietStep :=
  ⟨(·.call x), fun _ => rfl, fun _ => rfl, fun _ => rfl, fun _ => rfl⟩

def stopQueue (c : Conf) : QuietStep :=
  ⟨xmitStopQueue c, xmitStopQueue_ring, xmitStopQueue_curTx, xmitStopQueue_dirtyTx, fun _ => by
    unfold xmitStopQueue; split <;> rfl⟩

def addTxBytes (len : BitVec 32) : QuietStep :=
  ⟨(·.addTxBytes len), fun _ => rfl, fun _ => rfl, fun _ => rfl, fun _ => rfl⟩

/-- The statistics and the time stamp of a last segment. -/
def account (c : Conf) (p : TxSlot) : QuietStep where
  run s := stmmacGetTxHwtstamp c { s with stats := txLastStats c s.stats p } p
  ring s := by rw [stmmacGetTxHwtstamp_eq]
  curTx s := by rw [stmmacGetTxHwtstamp_eq]
  dirtyTx s := by rw [stmmacGetTxHwtstamp_eq]
  txCountFrames s := by rw [stmmacGetTxHwtstamp_eq]

def devKfreeSkb (c : Conf) (id : Nat) : QuietStep :=
  ⟨fun s => s.call (.devKfreeSkb id fun i => c.txOwned (s.ring i)), fun _ => rfl, fun _ => rfl,
    fun _ => rfl, fun _ => rfl⟩

end QuietStep

/-! ## Programs -/

section Programs

variable (c : Conf) (w : DescWrites)

/-- A segment mapped and its descriptor prepared, `tx_skbuff` being written in between where
`skb` says so. -/
def segmentOps (t : TxPtr) (isFs : Bool) (len addr : BitVec 32) (csum : Bool) : List TxOp :=
  [TxOp.quiet (.call (.dmaMap addr len)), .write t ({ · with des2 := addr }), .dma t addr] ++
    (if isFs then [] else [TxOp.skb t none]) ++
      (w.prepareTxDesc isFs len csum c.mode).map (.des01 t)

/-- One round of the fragment loop. -/
def fragOps (csum : Bool) (len addr : BitVec 32) : List TxOp :=
  [TxOp.loadCur, .storeCur, .useEntry] ++ segmentOps c w .desc false len addr csum ++
    [TxOp.des01 .desc c.desc.setTxOwner]

/-- The fragment loop. -/
def xmitFragsOps (csum : Bool) (segs : List (BitVec 32 × BitVec 32)) : List TxOp :=
  segs.flatMap fun (len, addr) => fragOps c w csum len addr

/-- `close_tx_desc` and the coalescing block. -/
def closeOps (n : BitVec 32) : List TxOp :=
  w.closeTxDesc.map (.des01 .desc) ++ [TxOp.count n, .clearIc, .rearm]

/-- `stmmac_xmit` up to the hand-over of the first descriptor. -/
def xmitFillOps (skb : TxSkb) (dma : Nat → BitVec 32) : List TxOp :=
  [TxOp.quiet .exitLpi, .loadCur, .useFirst, .skb .first (some skb)] ++
    segmentOps c w .first true skb.headlen (dma 0) skb.csumPartial ++
      xmitFragsOps c w skb.csumPartial (skb.segments dma) ++
        closeOps w (BitVec.ofNat 32 (skb.frags.length + 1))

/-- The request for a time stamp. -/
def stampOps (skb : TxSkb) : List TxOp :=
  (if skb.hwTstamp && c.hwtsTxEn then
    [TxOp.skb .first (some { skb with inProgress := true }), .des01 .first c.desc.enableTxTimestamp]
  else []) ++ if c.hwtsTxEn then [] else [TxOp.quiet (.call (.skbTxTimestamp skb.id))]

/-- `stmmac_xmit` from the hand-over on. -/
def xmitAfterOps (skb : TxSkb) : List TxOp :=
  [TxOp.loadCur, .storeCur, .quiet (.stopQueue c), .quiet (.addTxBytes skb.len)] ++
    stampOps c skb ++ [TxOp.quiet (.call .enableDmaTransmission)]

def xmitOps (skb : TxSkb) (dma : Nat → BitVec 32) : List TxOp :=
  xmitFillOps c w skb dma ++ .des01 .first c.desc.setTxOwner :: xmitAfterOps c skb

def rtl8211Ops (length addr : BitVec 32) : List TxOp :=
  [TxOp.loadCur, .useFirst] ++ segmentOps c w .first true length addr false ++ closeOps w 1 ++
    [TxOp.des01 .first c.desc.setTxOwner, .loadCur, .storeCur, .quiet (.addTxBytes length),
      .quiet (.call .enableDmaTransmission)]

/-- A round of `stmmac_tx_clean`, on a descriptor that was read and is not owned by the DMA. -/
def cleanOps (s : TxState) : List TxOp :=
  let p := s.ring (c.txEntry s.dirtyTx)
  .useDirty ::
    ((if c.desc.getTxLs p.desc.des01 then [TxOp.quiet (.account c p)] else []) ++
      (if p.dma ≠ 0 then
        [TxOp.quiet (.call (.dmaUnmapSingle p.dma (c.desc.getTxLen p.desc.des01))), .dma .desc 0]
      else []) ++
      [TxOp.write .desc fun d => { d with des3 := c.ring.cleanDesc3 d }] ++
      (match p.skb with
        | some skb => [TxOp.quiet (.devKfreeSkb c skb.id), .skb .desc none]
        | none => []) ++
      (w.releaseTxDesc p.desc.des01 c.mode).map (.des01 .desc) ++ [TxOp.storeDirty])

end Programs

/-! ## A program run alone -/

theorem modify_modify (s : TxState) (e : Nat) (f g : TxSlot → TxSlot) :
    (s.modify e f).modify e g = s.modify e fun p => g (f p) := by
  simp [TxState.modify]

variable {c : Conf} {w : DescWrites} {r : TxRegs} {s : TxState}

theorem run_des01s (ws : List (Des01 → Des01)) (t : TxPtr) :
    (ws.map (TxOp.des01 t)).foldl (TxOp.run c) (r, s) =
      (r, s.modify (r.slot t) (.mapDes (writeAll ws))) := by
  induction ws generalizing s with
  | nil => simp [TxState.modify, TxSlot.mapDes]
  | cons f ws ih =>
    rw [List.map_cons, List.foldl_cons]
    refine ih.trans ?_
    simp only [modify_modify]
    rfl

variable (hw : w.Split c.desc)

include hw in
theorem run_segmentOps (t : TxPtr) (isFs : Bool) (len addr : BitVec 32) (csum : Bool) :
    (segmentOps c w t isFs len addr csum).foldl (TxOp.run c) (r, s) =
      (r, (s.call (.dmaMap addr len)).modify (r.slot t) fun p =>
        c.prepareSlot isFs len addr csum (if isFs then p else { p with skb := none })) := by
  unfold segmentOps
  rw [List.foldl_append, List.foldl_append]
  cases isFs <;> simp [TxOp.run, QuietStep.call, run_des01s, modify_modify, TxSlot.mapDes,
    hw.prepare_eq, Conf.prepareSlot]

include hw in
theorem run_fragOps (csum : Bool) (len addr : BitVec 32) :
    (fragOps c w csum len addr).foldl (TxOp.run c) (r, s) =
      ({ r with cur := s.curTx + 1, entry := c.txEntry (s.curTx + 1) },
        (({ s with curTx := s.curTx + 1 } : TxState).call (.dmaMap addr len)).modify
          (c.txEntry (s.curTx + 1)) (c.fragSlot csum len addr)) := by
  unfold fragOps
  rw [List.foldl_append, List.foldl_append]
  simp only [List.foldl_cons, List.foldl_nil, TxOp.run, run_segmentOps hw, TxRegs.slot, TxOp.des01,
    modify_modify]
  rfl

include hw in
/-- The fragment loop leaves `desc` at the last slot it filled. -/
theorem run_xmitFragsOps (csum : Bool) (segs : List (BitVec 32 × BitVec 32))
    (hcur : r.cur = s.curTx) (hentry : r.entry = c.txEntry s.curTx) :
    (xmitFragsOps c w csum segs).foldl (TxOp.run c) (r, s) =
      ({ r with
          cur := (xmitFrags c csum segs s).curTx
          entry := c.txEntry (xmitFrags c csum segs s).curTx },
        xmitFrags c csum segs s) := by
  induction segs generalizing r s with
  | nil => simp [xmitFragsOps, xmitFrags, ← hcur, hcur ▸ hentry.symm]
  | cons seg segs ih =>
    obtain ⟨len, addr⟩ := seg
    rw [xmitFragsOps, List.flatMap_cons, List.foldl_append, run_fragOps hw]
    exact ih rfl rfl

include hw in
theorem run_closeOps (n : BitVec 32) :
    (closeOps w n).foldl (TxOp.run c) (r, s) =
      ({ r with coal := decide (c.txCoalFrames > s.txCountFrames + n) },
        txCoalesce c r.entry n (s.modify r.entry (.mapDes c.desc.closeTxDesc))) := by
  have hclose : writeAll w.closeTxDesc = c.desc.closeTxDesc := funext hw.close_eq
  rw [closeOps, List.foldl_append, run_des01s, hclose, txCoalesce]
  by_cases h : c.txCoalFrames > s.txCountFrames + n <;> simp [TxOp.run, TxRegs.slot, h]

theorem run_stampOps (skb : TxSkb) :
    (stampOps c skb).foldl (TxOp.run c) (r, s) = (r, xmitTimestamp c skb r.first s) := by
  unfold stampOps xmitTimestamp
  cases skb.hwTstamp <;> cases c.hwtsTxEn
  case true.true =>
    simp [TxOp.run, TxRegs.slot, TxOp.des01, modify_modify]
    rfl
  all_goals rfl

/-- After the hand-over come the last increment of `cur_tx` and what follows it. -/
theorem xmitAfterOps_eq (skb : TxSkb) : xmitAfterOps c skb = .loadCur :: .storeCur ::
    ([TxOp.quiet (.stopQueue c), .quiet (.addTxBytes skb.len)] ++ stampOps c skb ++
      [TxOp.quiet (.call .enableDmaTransmission)]) := rfl

include hw in
/-- The program of an accepted frame does what `stmmac_xmit` does. -/
theorem run_xmitOps {skb : TxSkb} (dma : Nat → BitVec 32) (hfit : XmitFits c s skb) :
    ((xmitOps c w skb dma).foldl (TxOp.run c) (r, s)).2 = (stmmacXmit c s skb dma).1 := by
  unfold xmitOps xmitFillOps
  simp only [List.foldl_append, List.foldl_cons, List.foldl_nil, TxOp.run]
  rw [run_segmentOps hw, run_xmitFragsOps hw, run_closeOps hw, xmitAfterOps_eq]
  · simp only [List.foldl_append, List.foldl_cons, List.foldl_nil, TxOp.run, run_stampOps]
    rw [stmmacXmit, if_neg (not_busy hfit)]
    rfl
  · rfl
  · rfl

include hw in
theorem run_rtl8211Ops (length addr : BitVec 32) :
    ((rtl8211Ops c w length addr).foldl (TxOp.run c) (r, s)).2 =
      (rtl8211Xmit c s length addr).1 := by
  unfold rtl8211Ops
  simp only [List.foldl_append, List.foldl_cons, List.foldl_nil, TxOp.run]
  rw [run_segmentOps hw, run_closeOps hw]
  rfl

theorem modify_congr {e : Nat} {f g : TxSlot → TxSlot} (h : f (s.ring e) = g (s.ring e)) :
    s.modify e f = s.modify e g := by
  rw [TxState.modify, h, TxState.modify]

include hw in
/-- The program of a round does what a round of `stmmac_tx_clean` does. -/
theorem run_cleanOps :
    ((cleanOps c w s).foldl (TxOp.run c) (r, s)).2 = txCleanBody c s := by
  unfold cleanOps txCleanBody
  generalize hp : s.ring (c.txEntry s.dirtyTx) = p
  obtain ⟨desc, skb, dma⟩ := p
  have hrelease : ∀ s' : TxState, (s'.ring (c.txEntry s.dirtyTx)).desc.des01 = desc.des01 →
      s'.modify (c.txEntry s.dirtyTx) (.mapDes (writeAll (w.releaseTxDesc desc.des01 c.mode))) =
        s'.modify (c.txEntry s.dirtyTx) (.mapDes (c.desc.releaseTxDesc · c.mode)) := by
    intro s' hs'
    refine modify_congr ?_
    rw [TxSlot.mapDes, hs', hw.release_eq, TxSlot.mapDes, hs']
  cases hl : c.desc.getTxLs desc.des01 <;> by_cases hd : dma = 0 <;> cases skb
  all_goals
    simp only [hp, hl, hd, if_true, if_false, Bool.false_eq_true, List.foldl_append,
      List.foldl_cons, List.foldl_nil, ne_eq, not_true_eq_false, not_false_eq_true, TxOp.run,
      TxRegs.slot, run_des01s, QuietStep.call, QuietStep.account, QuietStep.devKfreeSkb]
    rw [hrelease]
    simp [hp, stmmacGetTxHwtstamp_eq]

end Stmmac
