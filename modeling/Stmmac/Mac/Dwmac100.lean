import Stmmac.Library.Bitmap
import Stmmac.Mac.Filter

/-!
# The receive filter of the 10/100 core

`dwmac100_set_filter` keeps its mode bits in the control register of the core, between bits of
other functions, and changes them by reading, setting and clearing. The registers are those of
`dwmac100.h`; the hash is that of `ether_crc`.
-/

namespace Stmmac

open Library

def macControl : Nat := 0x00
def macHashHigh : Nat := 0x0c
def macHashLow : Nat := 0x10

def macControlPm : BitVec 32 := 0x00080000
def macControlPr : BitVec 32 := 0x00040000
def macControlIf : BitVec 32 := 0x00020000
def macControlHo : BitVec 32 := 0x00008000
def macControlHp : BitVec 32 := 0x00002000

/-- The bits that choose the filter. -/
def macControlModes : BitVec 32 :=
  macControlPm ||| macControlPr ||| macControlIf ||| macControlHo ||| macControlHp

/-- `ether_crc`. -/
def etherCrc (p : List (BitVec 8)) : BitVec 32 := bitrev32 (crc32Le (~~~ 0) p)

/-- `bit_nr`, the place of an address in the hash table of this core. -/
def etherBitNr (addr : MacAddr) : Nat := (etherCrc addr.toList >>> 26).toNat

/-- The mode, and the hash table where it is used. -/
def dwmac100SetMode (regs : Regs) (dev : FilterCall) (value : BitVec 32) : BitVec 32 × Regs :=
  if hasBit dev.flags iffPromisc then
    ((value ||| macControlPr) &&&
      ~~~(macControlPm ||| macControlIf ||| macControlHo ||| macControlHp), regs)
  else if dev.mc.length > hashTableSize || hasBit dev.flags iffAllmulti then
    let regs := writel regs 0xffffffff macHashHigh
    ((value ||| macControlPm) &&& ~~~(macControlPr ||| macControlIf ||| macControlHo),
      writel regs 0xffffffff macHashLow)
  else if dev.mc = [] then
    (value &&&
      ~~~(macControlPm ||| macControlPr ||| macControlIf ||| macControlHo ||| macControlHp), regs)
  else
    let mcFilter := Bitmap.fill etherBitNr dev.mc fun _ => 0
    let regs := writel regs (mcFilter 0) macHashLow
    ((value ||| macControlHp) &&&
      ~~~(macControlPm ||| macControlPr ||| macControlIf ||| macControlHo),
      writel regs (mcFilter 1) macHashHigh)

/-- The core id is not used. -/
def dwmac100SetFilter (regs : Regs) (dev : FilterCall) : Regs :=
  let (value, regs) := dwmac100SetMode regs dev (readl regs macControl)
  writel regs value macControl

end Stmmac
