import Stmmac.Rx.Receive

/-!
# Receive side: initialisation, release, suspend and resume

The receive half of `init_dma_desc_rings` and of `stmmac_clear_descriptors`, which both it and
`stmmac_suspend` call, and `dma_free_rx_skbufs`. Here `alloc i` is what the allocation for slot `i`
returns.
-/

namespace Stmmac

open Library

def bufSize16KiB : BitVec 32 := 16384
def bufSize8KiB : BitVec 32 := 8192
def bufSize4KiB : BitVec 32 := 4096

/-- `DMA_BUFFER_SIZE` is 2 KiB. -/
def dmaBufferSize : BitVec 32 := 2048

/-- `mtu` is compared as a signed number; the size passed in is never used. -/
def stmmacSetBfsize (mtu : BitVec 32) : BitVec 32 :=
  if mtu.toInt ≥ bufSize4KiB.toInt then bufSize8KiB
  else if mtu.toInt ≥ dmaBufferSize.toInt then bufSize4KiB
  else dmaBufferSize

/-- The receive half of `stmmac_clear_descriptors`. -/
def stmmacClearDescriptors (c : Conf) (s : RxState) : RxState :=
  let n := c.dmaRxSize.toNat
  let init (i : Nat) : RxSlot → RxSlot :=
    .mapDes (c.desc.initRxDesc · c.useRiwt c.mode (i == n - 1))
  { s with ring := Ring.mapBelow n init s.ring }

def stmmacInitRxBuffers (c : Conf) (s : RxState) (i : Nat) (b : RxBuf) : RxState :=
  let s := s.call (.netdevAllocSkb b.id s.dmaBufSz)
  let s := s.call (.dmaMapSingle b.id b.dma s.dmaBufSz)
  s.modify i fun p =>
    let desc := { p.desc with des2 := b.dma }
    let desc := if c.mode = .ring ∧ s.dmaBufSz = bufSize16KiB then
        { desc with des3 := c.ring.initDesc3 desc } else desc
    { desc := desc, skb := some b.skb, dma := b.dma }

/-- The loop over `stmmac_init_rx_buffers`, from slot `i` on; it stops at the first allocation
that fails and returns the index reached. -/
def initRxLoop (c : Conf) (alloc : Nat → Option RxBuf) : Nat → Nat → RxState → RxState × Nat
  | 0, i, s => (s, i)
  | n + 1, i, s =>
    match alloc i with
    | none => (s, i)
    | some b => initRxLoop c alloc n (i + 1) (stmmacInitRxBuffers c s i b)

/-- The receive half of `init_dma_desc_rings`, once the rings are allocated; `s` holds what the
new arrays happen to contain. -/
def initDmaDescRings (c : Conf) (alloc : Nat → Option RxBuf) (mtu : BitVec 32) (s : RxState) :
    RxState :=
  let n := c.dmaRxSize.toNat
  let bfsize := match c.mode with
    | .ring => c.ring.set16kibBfsize mtu
    | .chain => 0
  let bfsize := if bfsize < bufSize16KiB then stmmacSetBfsize mtu else bfsize
  let (s, i) := initRxLoop c alloc n 0 s
  let s := { s with curRx := 0, dirtyRx := BitVec.ofNat 32 i - c.dmaRxSize, dmaBufSz := bfsize }
  let chain (i : Nat) (p : RxSlot) : RxSlot :=
    { p with desc := { p.desc with des3 := c.chainDes3 i } }
  let s := match c.mode with
    | .ring => s
    | .chain => { s with ring := Ring.mapBelow n chain s.ring }
  stmmacClearDescriptors c s

/-- One round of `dma_free_rx_skbufs`. -/
def freeRxSkbuf (s : RxState) (i : Nat) : RxState :=
  let p := s.ring i
  let s := match p.skb with
    | none => s
    | some skb => (s.call (.dmaUnmapSingle p.dma s.dmaBufSz)).call (.devKfreeSkbAny skb.id)
  s.modify i ({ · with skb := none })

def dmaFreeRxSkbufs (c : Conf) (s : RxState) : RxState :=
  (List.range c.dmaRxSize.toNat).foldl freeRxSkbuf s

/-- `stmmac_suspend` stops the DMA and clears the descriptors; the rest of it leaves the ring
alone. -/
def stmmacSuspend (c : Conf) (s : RxState) : RxState := stmmacClearDescriptors c s

/-- `stmmac_resume` starts the DMA again where it stopped and leaves the ring alone. -/
def stmmacResume (s : RxState) : RxState := s

end Stmmac
