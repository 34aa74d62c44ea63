import Stmmac.Tx.State

/-!
# Transmit side: the two transmit paths

`stmmac_xmit` and `rtl8211_xmit` for frames that are not jumbo (`is_jumbo_frm` returns 0). The
polling of `timer0` and the masking of its interrupt around `stmmac_xmit` serialise the two calls
and leave the ring alone, so they do not appear. `dma i` is the address that mapping segment `i`
returns.
-/

namespace Stmmac

inductive NetdevTx where
  | ok | busy
  deriving DecidableEq, Repr

def stmmacDisableEeeMode (s : TxState) : TxState :=
  { s.call .resetEeeMode with eeeCtrlTimer := false, txPathInLpiMode := false }

/-- Leave the low-power state before transmitting. -/
def xmitExitLpi (s : TxState) : TxState :=
  if s.txPathInLpiMode then stmmacDisableEeeMode s else s

/-- `prepare_tx_desc` on a freshly mapped segment. -/
def Conf.prepareSlot (c : Conf) (isFs : Bool) (len addr : BitVec 32) (csum : Bool)
    (p : TxSlot) : TxSlot :=
  { p with
    desc := { p.desc with
      des01 := c.desc.prepareTxDesc p.desc.des01 isFs len csum c.mode
      des2 := addr }
    dma := addr }

/-- One round of the fragment loop on the slot it fills. -/
def Conf.fragSlot (c : Conf) (csum : Bool) (len addr : BitVec 32) (p : TxSlot) : TxSlot :=
  let p := c.prepareSlot false len addr csum { p with skb := none }
  p.mapDes c.desc.setTxOwner

/-- The fragment loop, over the sizes and mapped addresses of the fragments. -/
def xmitFrags (c : Conf) (csum : Bool) : List (BitVec 32 × BitVec 32) → TxState → TxState
  | [], s => s
  | (len, addr) :: frags, s =>
    let s := { s with curTx := s.curTx + 1 }
    let s := s.call (.dmaMap addr len)
    let s := s.modify (c.txEntry s.curTx) (c.fragSlot csum len addr)
    xmitFrags c csum frags s

/-- The coalescing block: clear the interrupt bit and rearm the timer, or start counting anew. -/
def txCoalesce (c : Conf) (entry : Nat) (n : BitVec 32) (s : TxState) : TxState :=
  let s := { s with txCountFrames := s.txCountFrames + n }
  if c.txCoalFrames > s.txCountFrames then
    let s := s.modify entry (.mapDes c.desc.clearTxIc)
    { s with
      stats := { s.stats with
        xstats := { s.stats.xstats with txResetIcBit := s.stats.xstats.txResetIcBit + 1 } }
      txtimer := true }
  else { s with txCountFrames := 0 }

/-- Stop the queue when a frame with all its fragments may no longer fit. -/
def xmitStopQueue (c : Conf) (s : TxState) : TxState :=
  if (stmmacTxAvail c s).toNat ≤ c.maxSkbFrags + 1 then { s with queueStopped := true } else s

/-- Ask for a hardware time stamp, or report a software one. -/
def xmitTimestamp (c : Conf) (skb : TxSkb) (first : Nat) (s : TxState) : TxState :=
  let s := if skb.hwTstamp && c.hwtsTxEn then
      s.modify first fun p => { p.mapDes c.desc.enableTxTimestamp with
        skb := some { skb with inProgress := true } }
    else s
  if !c.hwtsTxEn then s.call (.skbTxTimestamp skb.id) else s

def TxState.addTxBytes (s : TxState) (len : BitVec 32) : TxState :=
  { s with stats := { s.stats with
      dev := { s.stats.dev with txBytes := s.stats.dev.txBytes + len.toNat } } }

/-- The sizes and mapped addresses of the fragments of `skb`. -/
def TxSkb.segments (skb : TxSkb) (dma : Nat → BitVec 32) : List (BitVec 32 × BitVec 32) :=
  skb.frags.zipIdx.map fun (len, i) => (len, dma (i + 1))

/-- `nr_frags` is an `unsigned char`, so `nfrags + 1` does not wrap and is compared as it is. -/
def stmmacXmit (c : Conf) (s : TxState) (skb : TxSkb) (dma : Nat → BitVec 32) :
    TxState × NetdevTx :=
  let nfrags := skb.frags.length
  if (stmmacTxAvail c s).toNat < nfrags + 1 then ({ s with queueStopped := true }, .busy)
  else
    let s := xmitExitLpi s
    let first := c.txEntry s.curTx
    let s := s.modify first ({ · with skb := some skb })
    let s := s.call (.dmaMap (dma 0) skb.headlen)
    let s := s.modify first (c.prepareSlot true skb.headlen (dma 0) skb.csumPartial)
    let s := xmitFrags c skb.csumPartial (skb.segments dma) s
    let entry := c.txEntry s.curTx
    let s := s.modify entry (.mapDes c.desc.closeTxDesc)
    let s := txCoalesce c entry (BitVec.ofNat 32 (nfrags + 1)) s
    let s := s.modify first (.mapDes c.desc.setTxOwner)
    let s := { s with curTx := s.curTx + 1 }
    let s := xmitStopQueue c s
    let s := s.addTxBytes skb.len
    let s := xmitTimestamp c skb first s
    (s.call .enableDmaTransmission, .ok)

/-- The frame has no skb of its own: `tx_skbuff` is not written. `ip_summed` is 0, which is not
`CHECKSUM_PARTIAL`. The result is the length, as an `unsigned short`. -/
def rtl8211Xmit (c : Conf) (s : TxState) (length addr : BitVec 32) : TxState × BitVec 16 :=
  let entry := c.txEntry s.curTx
  let s := s.call (.dmaMap addr length)
  let s := s.modify entry (c.prepareSlot true length addr false)
  let s := s.modify entry (.mapDes c.desc.closeTxDesc)
  let s := txCoalesce c entry 1 s
  let s := s.modify entry (.mapDes c.desc.setTxOwner)
  let s := { s with curTx := s.curTx + 1 }
  let s := s.addTxBytes length
  (s.call .enableDmaTransmission, length.setWidth 16)

end Stmmac
