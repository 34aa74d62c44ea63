import Stmmac.Mac.Regs

/-!
# Energy efficient Ethernet

`stmmac_eee_init` and the operations of `dwmac1000_core.c` it calls. The first success of
`stmmac_eee_init` starts `eee_ctrl_timer`; `eee_active` is never cleared, so no later one starts
it again.
-/

namespace Stmmac

namespace LpiCtrlStatus

def pls : BitVec 32 := 0x00020000

end LpiCtrlStatus

def dwmac1000SetEeePls (regs : Regs) (link : Bool) : Regs :=
  let value := readl regs lpiCtrlStatus
  writel regs (if link then value ||| LpiCtrlStatus.pls else value &&& ~~~LpiCtrlStatus.pls)
    lpiCtrlStatus

def dwmac1000SetEeeTimer (regs : Regs) (ls tw : BitVec 32) : Regs :=
  writel regs ((tw &&& 0xffff) ||| (ls &&& 0x7ff) <<< 16) lpiTimerCtrl

/-- The values of `priv->pcs`. -/
def stmmacPcsRgmii : BitVec 32 := 1 <<< 0
def stmmacPcsSgmii : BitVec 32 := 1 <<< 1
def stmmacPcsTbi : BitVec 32 := 1 <<< 2
def stmmacPcsRtbi : BitVec 32 := 1 <<< 3

/-- `STMMAC_DEFAULT_LIT_LS`. -/
def stmmacDefaultLitLs : BitVec 32 := 0x3E8

structure EeeConf where
  pcs : BitVec 32
  dmaCapEee : Bool
  txLpiTimer : BitVec 32

/-- `eee_active`, and whether `eee_ctrl_timer` is pending. -/
structure Eee where
  active : Bool
  ctrlTimer : Bool
  deriving DecidableEq, Repr

/-- `phyInitEee` is what `phy_init_eee` returns, zero for a PHY that supports EEE. The value
returned becomes `eee_enabled`. -/
def stmmacEeeInit (c : EeeConf) (phyInitEee : Int) (link : Bool) (regs : Regs) (e : Eee) :
    Regs × Eee × Bool :=
  if c.pcs = stmmacPcsRgmii ∨ c.pcs = stmmacPcsTbi ∨ c.pcs = stmmacPcsRtbi then (regs, e, false)
  else if c.dmaCapEee then
    if phyInitEee ≠ 0 then (regs, e, false)
    else if e.active = false then
      (dwmac1000SetEeeTimer regs stmmacDefaultLitLs c.txLpiTimer,
        { active := true, ctrlTimer := true }, true)
    else (dwmac1000SetEeePls regs link, e, true)
  else (regs, e, false)

variable {c : EeeConf} {phyInitEee : Int} {link : Bool} {regs : Regs} {e : Eee} {off : Nat}

/-- Only the two LPI registers are written. -/
theorem readl_stmmacEeeInit (hctrl : off ≠ lpiCtrlStatus) (htimer : off ≠ lpiTimerCtrl) :
    readl (stmmacEeeInit c phyInitEee link regs e).1 off = readl regs off := by
  unfold stmmacEeeInit dwmac1000SetEeeTimer dwmac1000SetEeePls
  split_ifs <;> simp [hctrl, htimer]

end Stmmac
