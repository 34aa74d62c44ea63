import Stmmac.Library.Ring
import Stmmac.Library.Runs
import Stmmac.Rx.Skb

/-!
# Receive side: reception and refill

`stmmac_rx` consumes descriptors from `cur_rx` on and hands their buffers up; `stmmac_rx_refill`
follows with `dirty_rx` and gives the slots back to the DMA with new buffers. `alloc d` is what the
allocation made for `dirty_rx = d` returns, `none` if it fails.
-/

namespace Stmmac

open Library

/-! ## Refill -/

/-- The loop condition of `stmmac_rx_refill` together with its `break`. -/
def rxRefillGuard (c : Conf) (alloc : BitVec 32 → Option RxBuf) (s : RxState) : Bool :=
  s.curRx - s.dirtyRx != 0 &&
    ((s.ring (c.rxEntry s.dirtyRx)).skb.isSome || (alloc s.dirtyRx).isSome)

/-- A new buffer for a slot, mapped and written to its descriptor. -/
def rxRefillSlot (c : Conf) (s : RxState) (entry : Nat) (b : RxBuf) : RxState :=
  let s := s.call (.netdevAllocSkb b.id s.dmaBufSz)
  let s := s.call (.dmaMapSingle b.id b.dma s.dmaBufSz)
  s.modify entry fun p =>
    let desc := { p.desc with des2 := b.dma }
    { desc := { desc with des3 := c.ring.refillDesc3 desc }, skb := some b.skb, dma := b.dma }

def RxSlot.mapDes (f : Des01 → Des01) (p : RxSlot) : RxSlot :=
  { p with desc := { p.desc with des01 := f p.desc.des01 } }

/-- One round of the loop of `stmmac_rx_refill`. -/
def rxRefillBody (c : Conf) (alloc : BitVec 32 → Option RxBuf) (s : RxState) : RxState :=
  let entry := c.rxEntry s.dirtyRx
  let s := match (s.ring entry).skb, alloc s.dirtyRx with
    | none, some b => rxRefillSlot c s entry b
    | _, _ => s
  let s := s.modify entry (.mapDes c.desc.setRxOwner)
  { s with dirtyRx := s.dirtyRx + 1 }

def stmmacRxRefill (c : Conf) (alloc : BitVec 32 → Option RxBuf) (s : RxState) : RxState :=
  iterate (rxRefillGuard c alloc) (rxRefillBody c alloc) (s.curRx - s.dirtyRx).toNat s

/-! ## Reception -/

/-- `none` is a read from the ring that is not allocated. -/
def stmmacGetRxHwtstamp (c : Conf) (p : RxSlot) (skb : RxSkb) : Option RxSkb :=
  if !c.hwtsRxEn then some skb
  else if !c.stampRing then none
  else if !c.desc.getRxTimestampStatus p.desc c.advTs then some skb
  else some { skb with hwtstamp := some (c.desc.getTimestamp p.desc c.advTs) }

/-- The length given to `skb_put`. -/
def Conf.rxFrameLen (c : Conf) (p : RxSlot) (status : RxFrameStatus) : Int :=
  let frameLen := c.desc.getRxFrameLen p.desc.des01 c.rxCoe
  if status ≠ .llcSnap then frameLen - ethFcsLen else frameLen

/-- `rx_status`, and `rx_extended_status` where there is one. -/
def Conf.readRxStatus (c : Conf) (s : Stats) (p : RxSlot) : Stats × RxFrameStatus :=
  match c.desc.rxStatus s p.desc.des01, c.extendDesc, c.desc.rxExtendedStatus with
  | (s, status), true, some extended => (extended s p.desc, status)
  | (s, status), _, _ => (s, status)

/-- The device overwrites the buffer words of the descriptor with a time stamp. -/
def Conf.stampsRx (c : Conf) : Bool := c.hwtsRxEn && !c.extendDesc

/-- A discarded frame. -/
def rxDiscard (c : Conf) (s : RxState) (entry : Nat) : RxState :=
  let s := { s with stats := { s.stats with
    dev := { s.stats.dev with rxErrors := s.stats.dev.rxErrors + 1 } } }
  if c.stampsRx then
    let s := s.modify entry ({ · with skb := none })
    s.call (.dmaUnmapSingle (s.ring entry).dma s.dmaBufSz)
  else s

/-- A frame for the stack. The flag is set when the loop is left. -/
def rxDeliver (c : Conf) (s : RxState) (entry : Nat) (status : RxFrameStatus) : RxState × Bool :=
  let p := s.ring entry
  let frameLen := c.rxFrameLen p status
  match p.skb with
  | none =>
    ({ s with stats := { s.stats with
      dev := { s.stats.dev with rxDropped := s.stats.dev.rxDropped + 1 } } }, true)
  | some skb =>
    let s := s.modify entry ({ · with skb := none })
    match stmmacGetRxHwtstamp c p skb with
    | none => ({ s with halted := true }, true)
    | some skb =>
      let s := s.call (.skbPut entry frameLen)
      match skbPut skb frameLen with
      | none => ({ s with halted := true }, true)
      | some skb =>
        let s := s.call (.dmaUnmapSingle p.dma s.dmaBufSz)
        let skb := ethTypeTrans skb
        let skb := if c.rxCoe = .none then skb else { skb with ipSummed := true }
        let s := s.call (.napiGroReceive skb)
        ({ s with stats := { s.stats with
          dev := { s.stats.dev with
            rxPackets := s.stats.dev.rxPackets + 1
            rxBytes := s.stats.dev.rxBytes + frameLen } } }, false)

/-- One round of the loop of `stmmac_rx`, on a descriptor the DMA does not own. -/
def rxBody (c : Conf) (s : RxState) : RxState × Bool :=
  let entry := c.rxEntry s.curRx
  let p := s.ring entry
  let s := { s with curRx := s.curRx + 1 }
  let (stats, status) := c.readRxStatus s.stats p
  let s := { s with stats := stats }.call (.rxStatus entry p.desc)
  if status = .discardFrame then (rxDiscard c s entry, false)
  else rxDeliver c s entry status

/-- The loop of `stmmac_rx`, with the rounds still allowed and the rounds done. -/
def rxLoop (c : Conf) : Nat → RxState → Nat → RxState × Nat
  | 0, s, count => (s, count)
  | n + 1, s, count =>
    if c.rxOwned (s.ring (c.rxEntry s.curRx)) then (s, count)
    else
      match rxBody c s with
      | (s, true) => (s, count + 1)
      | (s, false) => rxLoop c n s (count + 1)

/-- `count` is unsigned, so `limit` is compared as an unsigned number. A call in which the kernel
stops does not get to the refill. -/
def stmmacRx (c : Conf) (alloc : BitVec 32 → Option RxBuf) (s : RxState) (limit : BitVec 32) :
    RxState × Nat :=
  let (s, count) := rxLoop c limit.toNat s 0
  if s.halted then (s, count)
  else
    let s := stmmacRxRefill c alloc s
    ({ s with stats := { s.stats with
      xstats := { s.stats.xstats with rxPktN := s.stats.xstats.rxPktN + count } } }, count)

end Stmmac
