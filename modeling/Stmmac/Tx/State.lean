import Mathlib.Logic.Function.Basic
import Stmmac.Conf

/-!
# Transmit side: state

`ring i` holds entry `i` of the three arrays `dma_tx` (or the basic part of `dma_etx`),
`tx_skbuff` and `tx_skbuff_dma`, which the source always indexes alike. `trace` lists the calls
out of the driver in order; a freed buffer is recorded with the ownership bits of the ring at
that moment. A `NULL` dereference is recorded as `nullDeref`.
-/

namespace Stmmac

/-- The fields of a `struct sk_buff` to transmit. `frags` are the fragment sizes, so that
`nr_frags` is its length; `inProgress` is `SKBTX_IN_PROGRESS`. -/
structure TxSkb where
  id : Nat
  len : BitVec 32
  headlen : BitVec 32
  frags : List (BitVec 32)
  csumPartial : Bool
  hwTstamp : Bool
  inProgress : Bool
  deriving DecidableEq, Repr

structure TxSlot where
  desc : DmaDesc
  skb : Option TxSkb
  dma : BitVec 32
  deriving DecidableEq, Repr

inductive TxCall where
  | dmaMap (addr len : BitVec 32)
  | dmaUnmapSingle (addr len : BitVec 32)
  | devKfreeSkb (id : Nat) (owned : Nat → Bool)
  | skbTstampTx (id : Nat) (ns : BitVec 64)
  | skbTxTimestamp (id : Nat)
  | nullDeref
  | setEeeMode
  | resetEeeMode
  | enableDmaTransmission
  | stopTx
  | startTx

structure TxState where
  ring : Nat → TxSlot
  curTx : BitVec 32
  dirtyTx : BitVec 32
  txCountFrames : BitVec 32
  queueStopped : Bool
  txtimer : Bool
  txPathInLpiMode : Bool
  eeeEnabled : Bool
  eeeCtrlTimer : Bool
  stats : Stats
  trace : List TxCall

namespace TxSlot

def mapDes (f : Des01 → Des01) (p : TxSlot) : TxSlot :=
  { p with desc := { p.desc with des01 := f p.desc.des01 } }

@[simp] theorem mapDes_des01 (f : Des01 → Des01) (p : TxSlot) :
    (p.mapDes f).desc.des01 = f p.desc.des01 := rfl
@[simp] theorem mapDes_skb (f : Des01 → Des01) (p : TxSlot) : (p.mapDes f).skb = p.skb := rfl
@[simp] theorem mapDes_dma (f : Des01 → Des01) (p : TxSlot) : (p.mapDes f).dma = p.dma := rfl

end TxSlot

namespace TxState

def modify (s : TxState) (entry : Nat) (f : TxSlot → TxSlot) : TxState :=
  { s with ring := Function.update s.ring entry (f (s.ring entry)) }

def call (s : TxState) (x : TxCall) : TxState := { s with trace := s.trace ++ [x] }

section

variable (s : TxState) (entry : Nat) (f : TxSlot → TxSlot) (x : TxCall)

@[simp] theorem modify_ring :
    (s.modify entry f).ring = Function.update s.ring entry (f (s.ring entry)) := rfl
@[simp] theorem modify_curTx : (s.modify entry f).curTx = s.curTx := rfl
@[simp] theorem modify_dirtyTx : (s.modify entry f).dirtyTx = s.dirtyTx := rfl
@[simp] theorem modify_trace : (s.modify entry f).trace = s.trace := rfl
@[simp] theorem modify_stats : (s.modify entry f).stats = s.stats := rfl
@[simp] theorem modify_txCountFrames :
    (s.modify entry f).txCountFrames = s.txCountFrames := rfl
@[simp] theorem call_ring : (s.call x).ring = s.ring := rfl
@[simp] theorem call_curTx : (s.call x).curTx = s.curTx := rfl
@[simp] theorem call_dirtyTx : (s.call x).dirtyTx = s.dirtyTx := rfl
@[simp] theorem call_trace : (s.call x).trace = s.trace ++ [x] := rfl
@[simp] theorem call_stats : (s.call x).stats = s.stats := rfl
@[simp] theorem call_txCountFrames : (s.call x).txCountFrames = s.txCountFrames := rfl

end

end TxState

/-- `cur_tx % txsize`. -/
def Conf.txEntry (c : Conf) (cur : BitVec 32) : Nat := (cur % c.dmaTxSize).toNat

/-- Ownership of a TX slot. -/
def Conf.txOwned (c : Conf) (p : TxSlot) : Bool := c.desc.getTxOwner p.desc.des01

def stmmacTxAvail (c : Conf) (s : TxState) : BitVec 32 :=
  s.dirtyTx + c.dmaTxSize - s.curTx - 1

/-- The descriptors between `dirty_tx` and `cur_tx`. -/
def TxState.inFlight (s : TxState) : Nat := (s.curTx - s.dirtyTx).toNat

/-- The slot of the `k`-th descriptor in flight. -/
def TxState.flightSlot (c : Conf) (s : TxState) (k : Nat) : Nat :=
  c.txEntry (s.dirtyTx + BitVec.ofNat 32 k)

end Stmmac
