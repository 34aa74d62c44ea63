import Mathlib.Logic.Function.Basic
import Stmmac.Irq.Dma
import Stmmac.Library.Bits

/-!
# Registers of the MAC core

The register file as storage: a register keeps what was last written to it. Registers are named by
their offset from `ioaddr`, with the offsets of `dwmac1000.h`.
-/

namespace Stmmac

open Library

/-- The register file, by offset. -/
abbrev Regs := Nat → BitVec 32

def readl (regs : Regs) (offset : Nat) : BitVec 32 := regs offset

def writel (regs : Regs) (value : BitVec 32) (offset : Nat) : Regs :=
  Function.update regs offset value

section

variable (regs : Regs) (value : BitVec 32) {offset offset' : Nat}

@[simp] theorem readl_writel_self : readl (writel regs value offset) offset = value := by
  simp [readl, writel]

@[simp] theorem readl_writel_of_ne (h : offset' ≠ offset) :
    readl (writel regs value offset) offset' = readl regs offset' := by
  simp [readl, writel, h]

end

/-! ## Testing bits -/

section

variable {w w' bits : BitVec 32}

theorem hasBit_congr (h : w &&& bits = w' &&& bits) : hasBit w bits = hasBit w' bits := by
  unfold hasBit
  rw [h]

theorem hasBit_or_self (h : bits ≠ 0) : hasBit (w ||| bits) bits = true := by
  unfold hasBit
  rw [Bits.or_and_self]
  simpa using h

theorem hasBit_andNot_self : hasBit (w &&& ~~~bits) bits = false := by
  unfold hasBit
  rw [Bits.andNot_and_self]
  rfl

end

/-! ## Offsets -/

def gmacControl : Nat := 0x00
def gmacFrameFilter : Nat := 0x04
def gmacHashHigh : Nat := 0x08
def gmacHashLow : Nat := 0x0c
def gmacMiiAddr : Nat := 0x10
def gmacMiiData : Nat := 0x14
def gmacFlowCtrl : Nat := 0x18
def gmacVlanTag : Nat := 0x1c
def gmacVersion : Nat := 0x20
def gmacWakeupFilter : Nat := 0x28
def gmacPmt : Nat := 0x2c
def lpiCtrlStatus : Nat := 0x30
def lpiTimerCtrl : Nat := 0x34
def gmacIntStatus : Nat := 0x38
def gmacIntMask : Nat := 0x3c
def gmacAnCtrl : Nat := 0xc0
def gmacAnStatus : Nat := 0xc4
def gmacAneAdv : Nat := 0xc8
def gmacAneLpa : Nat := 0xcc
def gmacAneExp : Nat := 0xd0
def gmacTbi : Nat := 0xd4
def gmacSRGmii : Nat := 0xd8
def gmacMmcCtrl : Nat := 0x100
def gmacMmcRxIntr : Nat := 0x104
def gmacMmcTxIntr : Nat := 0x108
def gmacMmcRxCsumOffload : Nat := 0x208

/-- `GMAC_ADDR_HIGH`. -/
def gmacAddrHigh (reg : Nat) : Nat := (if reg > 15 then 0x800 else 0x40) + reg * 8

/-- `GMAC_ADDR_LOW`. -/
def gmacAddrLow (reg : Nat) : Nat := (if reg > 15 then 0x804 else 0x44) + reg * 8

/-- The named registers that hold no MAC address. -/
def gmacNamedRegs : List Nat :=
  [gmacControl, gmacFrameFilter, gmacHashHigh, gmacHashLow, gmacMiiAddr, gmacMiiData, gmacFlowCtrl,
    gmacVlanTag, gmacVersion, gmacWakeupFilter, gmacPmt, lpiCtrlStatus, lpiTimerCtrl,
    gmacIntStatus, gmacIntMask, gmacAnCtrl, gmacAnStatus, gmacAneAdv, gmacAneLpa, gmacAneExp,
    gmacTbi, gmacSRGmii, gmacMmcCtrl, gmacMmcRxIntr, gmacMmcTxIntr, gmacMmcRxCsumOffload]

/-! ## The control register -/

namespace GmacControl

def jd : BitVec 32 := 0x00400000
def be : BitVec 32 := 0x00200000
def je : BitVec 32 := 0x00100000
def ps : BitVec 32 := 0x00008000
def fes : BitVec 32 := 0x00004000
def dm : BitVec 32 := 0x00000800
def acs : BitVec 32 := 0x00000080

/-- `GMAC_CORE_INIT`. -/
def coreInit : BitVec 32 := jd ||| ps ||| acs ||| je ||| be

end GmacControl

def macEnableTx : BitVec 32 := 0x8
def macRnableRx : BitVec 32 := 0x4

def stmmacSetMac (regs : Regs) (enable : Bool) : Regs :=
  let value := readl regs gmacControl
  let value := if enable then value ||| (macRnableRx ||| macEnableTx)
    else value &&& ~~~(macEnableTx ||| macRnableRx)
  writel regs value gmacControl

/-- The write to `GMAC_VLAN_TAG` is compiled only with VLAN support, and then names a variable
that does not exist. -/
def dwmac1000CoreInit (regs : Regs) : Regs :=
  let value := readl regs gmacControl ||| GmacControl.coreInit
  let regs := writel regs value gmacControl
  writel regs 0x207 gmacIntMask

end Stmmac
