import Mathlib.Logic.Function.Basic
import Stmmac.Conf

/-!
# Receive side: state

`ring i` holds entry `i` of `dma_rx` (or the basic part of `dma_erx`), `rx_skbuff` and
`rx_skbuff_dma`. A socket buffer is seen from the byte that was mapped for the DMA: `data` and
`tail` are the offsets of `skb->data` and `skb->tail` from it, and `buf` is the memory there.
The length of an allocation counts from there too, without the `NET_IP_ALIGN` bytes before it.
`halted` is set when the kernel stops, in `skb_over_panic` or at a read through `NULL`.
-/

namespace Stmmac

structure RxSkb where
  id : Nat
  buf : Nat → BitVec 8
  data : Nat
  tail : Int
  end_ : Int
  len : BitVec 32
  macHeader : Nat
  protocol : BitVec 16
  ipSummed : Bool
  hwtstamp : Option (BitVec 64)

/-- A buffer as `netdev_alloc_skb_ip_align` returns it, with the address it is then mapped at. -/
structure RxBuf where
  id : Nat
  buf : Nat → BitVec 8
  room : Nat
  dma : BitVec 32

structure RxSlot where
  desc : DmaDesc
  skb : Option RxSkb
  dma : BitVec 32

inductive RxCall where
  | netdevAllocSkb (id : Nat) (len : BitVec 32)
  | dmaMapSingle (id : Nat) (addr len : BitVec 32)
  | dmaUnmapSingle (addr len : BitVec 32)
  | rxStatus (entry : Nat) (desc : DmaDesc)
  | skbPut (entry : Nat) (len : Int)
  | napiGroReceive (skb : RxSkb)
  | devKfreeSkbAny (id : Nat)
  | memcpy (bytes : List (BitVec 8))

structure RxState where
  ring : Nat → RxSlot
  curRx : BitVec 32
  dirtyRx : BitVec 32
  dmaBufSz : BitVec 32
  halted : Bool
  stats : Stats
  trace : List RxCall

/-- The bytes from the one that was mapped up to `skb->tail`. -/
def RxSkb.bytes (skb : RxSkb) : List (BitVec 8) :=
  (List.range (skb.data + skb.len.toNat)).map skb.buf

/-- A new buffer, empty, its first byte the one that is mapped. -/
def RxBuf.skb (b : RxBuf) : RxSkb where
  id := b.id
  buf := b.buf
  data := 0
  tail := 0
  end_ := b.room
  len := 0
  macHeader := 0
  protocol := 0
  ipSummed := false
  hwtstamp := none

namespace RxState

def modify (s : RxState) (entry : Nat) (f : RxSlot → RxSlot) : RxState :=
  { s with ring := Function.update s.ring entry (f (s.ring entry)) }

def call (s : RxState) (x : RxCall) : RxState := { s with trace := s.trace ++ [x] }

section

variable (s : RxState) (entry : Nat) (f : RxSlot → RxSlot) (x : RxCall)

@[simp] theorem modify_ring :
    (s.modify entry f).ring = Function.update s.ring entry (f (s.ring entry)) := rfl
@[simp] theorem modify_curRx : (s.modify entry f).curRx = s.curRx := rfl
@[simp] theorem modify_dirtyRx : (s.modify entry f).dirtyRx = s.dirtyRx := rfl
@[simp] theorem modify_trace : (s.modify entry f).trace = s.trace := rfl
@[simp] theorem call_ring : (s.call x).ring = s.ring := rfl
@[simp] theorem call_curRx : (s.call x).curRx = s.curRx := rfl
@[simp] theorem call_dirtyRx : (s.call x).dirtyRx = s.dirtyRx := rfl
@[simp] theorem call_trace : (s.call x).trace = s.trace ++ [x] := rfl

end

end RxState

/-- `cur_rx % rxsize`. -/
def Conf.rxEntry (c : Conf) (cur : BitVec 32) : Nat := (cur % c.dmaRxSize).toNat

/-- Ownership of an RX slot. -/
def Conf.rxOwned (c : Conf) (p : RxSlot) : Bool := c.desc.getRxOwner p.desc.des01

end Stmmac
