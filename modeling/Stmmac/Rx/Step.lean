import Stmmac.Rx.Init

/-!
# Receive side: the system

The device holds a position in the ring. A reception writes a frame to the buffer of the slot
there, provided the DMA owns its descriptor, writes the descriptor back and moves on. The slots
written are recorded in `received`, as they are after the write.
-/

namespace Stmmac

open Library

/-- What the device writes: the union `des01`, a time stamp over the buffer words where the
configuration has one, and the bytes of the frame. -/
structure RxWrite where
  des01 : Des01
  stamp : Option (BitVec 32 × BitVec 32)
  bytes : List (BitVec 8)

/-- A frame without errors in a single normal descriptor. -/
def RxWrite.frame (bytes : List (BitVec 8)) : RxWrite where
  des01 := ⟨BitVec.ofNat 32 (bytes.length * 65536 + 768), 0x003fffff⟩
  stamp := none
  bytes := bytes

def RxSkb.fill (skb : RxSkb) (bytes : List (BitVec 8)) : RxSkb :=
  { skb with buf := fun i => bytes.getD i (skb.buf i) }

/-- The slot after the write. The bytes go to the address in `des2`, which is that of the slot's
buffer unless something else was written there; such stray writes are not followed. -/
def RxSlot.write (p : RxSlot) (w : RxWrite) : RxSlot where
  desc :=
    { des01 := w.des01
      des2 := (w.stamp.map Prod.fst).getD p.desc.des2
      des3 := (w.stamp.map Prod.snd).getD p.desc.des3 }
  skb := if p.desc.des2 = p.dma then p.skb.map (·.fill w.bytes) else p.skb
  dma := p.dma

structure RxHw where
  rx : RxState
  pos : Nat
  received : List (Nat × RxSlot)

inductive RxAct where
  | receive (w : RxWrite)
  | rx (alloc : BitVec 32 → Option RxBuf) (limit : BitVec 32)
  | refill (alloc : BitVec 32 → Option RxBuf)
  | suspend
  | resume

/-- A write the device makes at its position. -/
def rxReceive (c : Conf) (s : RxHw) (w : RxWrite) : Option RxHw :=
  let p := s.rx.ring s.pos
  if c.rxOwned p ∧ c.desc.getRxOwner w.des01 = false ∧ (w.stamp.isSome → c.stampsRx) then
    some
      { rx := s.rx.modify s.pos (·.write w)
        pos := (s.pos + 1) % c.dmaRxSize.toNat
        received := s.received ++ [(s.pos, p.write w)] }
  else none

/-- No call is made once the kernel has stopped. -/
def rxStep (c : Conf) (s : RxHw) (a : RxAct) : Option RxHw :=
  if s.rx.halted then none
  else match a with
  | .receive w => rxReceive c s w
  | .rx alloc limit => some { s with rx := (stmmacRx c alloc s.rx limit).1 }
  | .refill alloc => some { s with rx := stmmacRxRefill c alloc s.rx }
  | .suspend => some { s with rx := stmmacSuspend c s.rx }
  | .resume => some { s with rx := stmmacResume s.rx }

/-- The descriptors that `stmmac_rx` examined, in order. -/
def examined (trace : List RxCall) : List (Nat × DmaDesc) :=
  trace.filterMap fun
    | .rxStatus entry desc => some (entry, desc)
    | _ => none

/-- The buffers handed to the stack, in order. -/
def delivered (trace : List RxCall) : List RxSkb :=
  trace.filterMap fun
    | .napiGroReceive skb => some skb
    | _ => none

theorem examined_append (l₁ l₂ : List RxCall) :
    examined (l₁ ++ l₂) = examined l₁ ++ examined l₂ :=
  List.filterMap_append

theorem delivered_append (l₁ l₂ : List RxCall) :
    delivered (l₁ ++ l₂) = delivered l₁ ++ delivered l₂ :=
  List.filterMap_append

end Stmmac
