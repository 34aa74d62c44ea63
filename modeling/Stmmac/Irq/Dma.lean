import Mathlib.Tactic.Common

/-!
# DMA interrupt status

`dwmac_dma_interrupt` of `dwmac_lib.c`: what it makes of the status register and the bits it writes
back. A bit of `DMA_STATUS` is cleared by writing 1 to it.
-/

namespace Stmmac

/-! ## Registers (`dwmac_dma.h`) -/

namespace DmaStatus

def nis : BitVec 32 := 0x00010000
def ais : BitVec 32 := 0x00008000
def eri : BitVec 32 := 0x00004000
def fbi : BitVec 32 := 0x00002000
def eti : BitVec 32 := 0x00000400
def rwt : BitVec 32 := 0x00000200
def rps : BitVec 32 := 0x00000100
def ru : BitVec 32 := 0x00000080
def ri : BitVec 32 := 0x00000040
def unf : BitVec 32 := 0x00000020
def ovf : BitVec 32 := 0x00000010
def tjt : BitVec 32 := 0x00000008
def tps : BitVec 32 := 0x00000002
def ti : BitVec 32 := 0x00000001

end DmaStatus

namespace DmaIntrEna

def nie : BitVec 32 := 0x00010000
def tie : BitVec 32 := 0x00000001
def rie : BitVec 32 := 0x00000040
def aie : BitVec 32 := 0x00008000
def fbe : BitVec 32 := 0x00002000
def une : BitVec 32 := 0x00000020

def defaultMask : BitVec 32 := (nie ||| rie ||| tie) ||| (aie ||| fbe ||| une)

end DmaIntrEna

/-! ## `enum dma_irq_status` -/

def txHardError : BitVec 32 := 1
def txHardErrorBumpTc : BitVec 32 := 2
def handleRx : BitVec 32 := 4
def handleTx : BitVec 32 := 8

/-- The counters of `struct stmmac_extra_stats` that the interrupt path writes. -/
structure IrqStats where
  txUndeflowIrq : Nat := 0
  txJabberIrq : Nat := 0
  rxOverflowIrq : Nat := 0
  rxBufUnavIrq : Nat := 0
  rxProcessStoppedIrq : Nat := 0
  rxWatchdogIrq : Nat := 0
  txEarlyIrq : Nat := 0
  txProcessStoppedIrq : Nat := 0
  fatalBusErrorIrq : Nat := 0
  normalIrqN : Nat := 0
  rxNormalIrqN : Nat := 0
  txNormalIrqN : Nat := 0
  rxEarlyIrq : Nat := 0
  threshold : Int := 0
  deriving DecidableEq, Repr

def hasBit (value bit : BitVec 32) : Bool := value &&& bit != 0

/-- The part of `dwmac_dma_interrupt` for `DMA_STATUS_AIS`, with the value it returns so far. -/
def dwmacAbnormalIrq (intrStatus : BitVec 32) (x : IrqStats) : IrqStats × BitVec 32 :=
  if !hasBit intrStatus DmaStatus.ais then (x, 0)
  else
    let bump (bit : BitVec 32) (up : IrqStats → IrqStats) (x : IrqStats) : IrqStats :=
      if hasBit intrStatus bit then up x else x
    let ret := if hasBit intrStatus DmaStatus.unf then txHardErrorBumpTc else 0
    let x := bump DmaStatus.unf (fun x => { x with txUndeflowIrq := x.txUndeflowIrq + 1 }) x
    let x := bump DmaStatus.tjt (fun x => { x with txJabberIrq := x.txJabberIrq + 1 }) x
    let x := bump DmaStatus.ovf (fun x => { x with rxOverflowIrq := x.rxOverflowIrq + 1 }) x
    let x := bump DmaStatus.ru (fun x => { x with rxBufUnavIrq := x.rxBufUnavIrq + 1 }) x
    let x := bump DmaStatus.rps
      (fun x => { x with rxProcessStoppedIrq := x.rxProcessStoppedIrq + 1 }) x
    let x := bump DmaStatus.rwt (fun x => { x with rxWatchdogIrq := x.rxWatchdogIrq + 1 }) x
    let x := bump DmaStatus.eti (fun x => { x with txEarlyIrq := x.txEarlyIrq + 1 }) x
    let x := bump DmaStatus.tps
      (fun x => { x with txProcessStoppedIrq := x.txProcessStoppedIrq + 1 }) x
    let ret := if hasBit intrStatus DmaStatus.tps then txHardError else ret
    let x := bump DmaStatus.fbi (fun x => { x with fatalBusErrorIrq := x.fatalBusErrorIrq + 1 }) x
    let ret := if hasBit intrStatus DmaStatus.fbi then txHardError else ret
    (x, ret)

/-- `dwmac_dma_interrupt` up to the write to `DMA_STATUS`, on the values read from `DMA_STATUS` and
`DMA_INTR_ENA`. -/
def dwmacDmaInterrupt (intrStatus intrEna : BitVec 32) (x : IrqStats) : IrqStats × BitVec 32 :=
  let (x, ret) := dwmacAbnormalIrq intrStatus x
  if !hasBit intrStatus DmaStatus.nis then (x, ret)
  else
    let x := { x with normalIrqN := x.normalIrqN + 1 }
    let (x, ret) :=
      -- to schedule NAPI on real RIE event
      if hasBit intrStatus DmaStatus.ri && hasBit intrEna DmaIntrEna.rie then
        ({ x with rxNormalIrqN := x.rxNormalIrqN + 1 }, ret ||| handleRx)
      else (x, ret)
    let (x, ret) := if hasBit intrStatus DmaStatus.ti then
        ({ x with txNormalIrqN := x.txNormalIrqN + 1 }, ret ||| handleTx)
      else (x, ret)
    let x := if hasBit intrStatus DmaStatus.eri then { x with rxEarlyIrq := x.rxEarlyIrq + 1 }
      else x
    (x, ret)

/-- `DMA_STATUS` after the write at the end of `dwmac_dma_interrupt`. -/
def dwmacAckStatus (status intrStatus : BitVec 32) : BitVec 32 :=
  status &&& ~~~(intrStatus &&& 0x1ffff)

/-- What the device sets on completing a receive descriptor. -/
def DmaStatus.received : BitVec 32 := nis ||| ri

theorem dwmacDmaInterrupt_zero (intrEna : BitVec 32) (x : IrqStats) :
    (dwmacDmaInterrupt 0 intrEna x).2 = 0 := rfl

theorem dwmacDmaInterrupt_received (x : IrqStats) :
    (dwmacDmaInterrupt DmaStatus.received DmaIntrEna.defaultMask x).2 = handleRx := rfl

end Stmmac
