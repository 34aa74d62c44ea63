import Stmmac.Library.Ring
import Stmmac.Library.Runs
import Stmmac.Tx.State

/-!
# Transmit side: reclaiming and error recovery

`stmmac_tx_clean` walks from `dirty_tx` to the first descriptor the DMA still owns;
`stmmac_tx_err`, also reached through `stmmac_tx_timeout`, drops everything and starts over.
-/

namespace Stmmac

open Library

/-- `STMMAC_TX_THRESH`. -/
def stmmacTxThresh (c : Conf) : BitVec 32 := c.dmaTxSize / 4

def stmmacGetTxHwtstamp (c : Conf) (s : TxState) (p : TxSlot) : TxState :=
  if !c.hwtsTxEn then s
  else match p.skb with
    | none => s.call .nullDeref
    | some skb =>
      if !skb.inProgress then s
      else if !c.stampRing then s.call .nullDeref
      else if !c.desc.getTxTimestampStatus p.desc.des01 then s
      else s.call (.skbTstampTx skb.id (c.desc.getTimestamp p.desc c.advTs))

/-- The counters after the last segment of a frame. -/
def txLastStats (c : Conf) (s : Stats) (p : TxSlot) : Stats :=
  match c.desc.txStatus s p.desc.des01 with
  | (s, true) => { s with dev := { s.dev with txErrors := s.dev.txErrors + 1 } }
  | (s, false) =>
    { dev := { s.dev with txPackets := s.dev.txPackets + 1 }
      xstats := { s.xstats with txPktN := s.xstats.txPktN + 1 } }

/-- The loop condition of `stmmac_tx_clean` together with its `break`. -/
def txCleanGuard (c : Conf) (s : TxState) : Bool :=
  s.dirtyTx != s.curTx && !c.txOwned (s.ring (c.txEntry s.dirtyTx))

/-- One round of the loop of `stmmac_tx_clean`. -/
def txCleanBody (c : Conf) (s : TxState) : TxState :=
  let entry := c.txEntry s.dirtyTx
  let p := s.ring entry
  let s := if c.desc.getTxLs p.desc.des01 then
      stmmacGetTxHwtstamp c { s with stats := txLastStats c s.stats p } p
    else s
  let s := if p.dma ≠ 0 then
      let s := s.call (.dmaUnmapSingle p.dma (c.desc.getTxLen p.desc.des01))
      s.modify entry ({ · with dma := 0 })
    else s
  let s := s.modify entry fun p =>
    { p with desc := { p.desc with des3 := c.ring.cleanDesc3 p.desc } }
  let s := match p.skb with
    | some skb =>
      let s := s.call (.devKfreeSkb skb.id fun i => c.txOwned (s.ring i))
      s.modify entry ({ · with skb := none })
    | none => s
  let s := s.modify entry (.mapDes (c.desc.releaseTxDesc · c.mode))
  { s with dirtyTx := s.dirtyTx + 1 }

def stmmacEnableEeeMode (s : TxState) : TxState :=
  if s.dirtyTx = s.curTx ∧ s.txPathInLpiMode = false then s.call .setEeeMode else s

/-- What `stmmac_tx_clean` does after its loop: wake the queue, and watch for an idle link. -/
def txCleanTail (c : Conf) (s : TxState) : TxState :=
  let s := if s.queueStopped && decide (stmmacTxAvail c s > stmmacTxThresh c) then
      { s with queueStopped := false } else s
  if s.eeeEnabled && !s.txPathInLpiMode then { stmmacEnableEeeMode s with eeeCtrlTimer := true }
  else s

def stmmacTxClean (c : Conf) (s : TxState) : TxState :=
  let s := { s with stats := { s.stats with
    xstats := { s.stats.xstats with txClean := s.stats.xstats.txClean + 1 } } }
  txCleanTail c (iterate (txCleanGuard c) (txCleanBody c) s.inFlight s)

/-- One round of `dma_free_tx_skbufs`. -/
def freeTxSkbuf (c : Conf) (s : TxState) (i : Nat) : TxState :=
  let p := s.ring i
  match p.skb with
  | none => s
  | some skb =>
    let s := if p.dma ≠ 0 then
        s.call (.dmaUnmapSingle p.dma (c.desc.getTxLen p.desc.des01)) else s
    let s := s.call (.devKfreeSkb skb.id fun i => c.txOwned (s.ring i))
    s.modify i ({ · with skb := none, dma := 0 })

def dmaFreeTxSkbufs (c : Conf) (s : TxState) : TxState :=
  (List.range c.dmaTxSize.toNat).foldl (freeTxSkbuf c) s

def stmmacTxErr (c : Conf) (s : TxState) : TxState :=
  let n := c.dmaTxSize.toNat
  let s := { s with queueStopped := true }
  let s := dmaFreeTxSkbufs c (s.call .stopTx)
  let init (i : Nat) : TxSlot → TxSlot := .mapDes (c.desc.initTxDesc · c.mode (i == n - 1))
  let s := { s with ring := Ring.mapBelow n init s.ring }
  let s := { s with dirtyTx := 0, curTx := 0 }
  let s := s.call .startTx
  { s with
    stats := { s.stats with dev := { s.stats.dev with txErrors := s.stats.dev.txErrors + 1 } }
    queueStopped := false }

end Stmmac
