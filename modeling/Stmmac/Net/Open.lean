import Stmmac.Library.Ledger
import Stmmac.Mac.Eee
import Stmmac.Net.Ops
import Stmmac.Rx.State

/-!
# Opening and releasing an interface

`stmmac_open` and `stmmac_release` with what they acquire and release. The answers of the kernel
are given by `OpenEnv`; `init_dma_desc_rings` has no result, so a failure in it is not noticed, and
a failed allocation of an index array is found out only by using it.
-/

namespace Stmmac

open Library
open Library.Ledger (Event)

/-- What `stmmac_open` acquires. -/
inductive OpenRes where
  | phyPower
  | gmacClk
  | phy
  | sysfs
  | dmaRx
  | dmaTx
  | rxSkbuffDma
  | rxSkbuff
  | txSkbuffDma
  | txSkbuff
  | rxSkb (i : Nat)
  | rxMap (i : Nat)
  | irq
  | wolIrq
  | lpiIrq
  deriving DecidableEq

/-- `priv->phydev`: `NULL`, an attached PHY, or one that has been disconnected. -/
inductive PhyPtr where
  | null
  | attached
  | detached
  deriving DecidableEq

/-- An entry of `rx_skbuff`; `stale` is what a new array happens to contain. -/
inductive RxEntry where
  | null
  | skb
  | stale
  deriving DecidableEq

structure OpenConf where
  /-- `bsp_priv` has the callbacks `phy_power_on` and `gmac_clk_enable`. -/
  phyPowerOn : Bool
  gmacClkEnable : Bool
  eee : EeeConf
  mode : Mode
  extendDesc : Bool
  /-- `dma_buf_sz` is `BUF_SIZE_16KiB`. -/
  bufSz16KiB : Bool
  useRiwt : Bool
  msgHw : Bool
  rxSize : Nat
  txSize : Nat
  irq : Int
  wolIrq : Int
  lpiIrq : Int

inductive PhyAnswer where
  | error (ret : Int) (h : ret < 0)
  /-- A PHY whose `phy_id` is 0. -/
  | noDevice
  | attached

/-- The answers of the kernel and the device. -/
structure OpenEnv where
  etherAddrValid : Bool
  mdioRegister : Int
  phyConnect : PhyAnswer
  dmaRx : Bool
  dmaTx : Bool
  rxSkbuffDma : Bool
  rxSkbuff : Bool
  txSkbuffDma : Bool
  txSkbuff : Bool
  rxSkb : Nat → Bool
  /-- The new `rx_skbuff` array contains something at this index. -/
  stale : Nat → Bool
  dmaInit : Int
  requestIrq : Int
  requestWolIrq : Int
  requestLpiIrq : Int
  phyInitEee : Int

structure OpenState where
  mdioRegistered : Bool
  phydev : PhyPtr
  /-- The six allocations of `init_dma_desc_rings` have succeeded. -/
  allocated : Bool
  rxSkbuff : Nat → RxEntry
  eeeActive : Bool
  eeeEnabled : Bool
  events : List (Event OpenRes)
  uses : List OpsUse

namespace OpenState

/-- The state at the start of a call whose history is recorded. -/
def fresh (s : OpenState) : OpenState := { s with events := [], uses := [] }

def acquire (s : OpenState) (r : OpenRes) : OpenState :=
  { s with events := s.events ++ [.acquire r] }

def release (s : OpenState) (r : OpenRes) : OpenState :=
  { s with events := s.events ++ [.release r] }

def use (s : OpenState) (u : OpsUse) : OpenState := { s with uses := s.uses ++ [u] }

/-- Acquire if the answer is yes. -/
def acquireIf (s : OpenState) (ok : Bool) (r : OpenRes) : OpenState :=
  if ok then s.acquire r else s

def releaseIf (s : OpenState) (held : Bool) (r : OpenRes) : OpenState :=
  if held then s.release r else s

end OpenState

namespace OpenConf

/-- The PHY is reached over MDIO. -/
def hasPhyBus (c : OpenConf) : Bool :=
  c.eee.pcs != stmmacPcsSgmii && c.eee.pcs != stmmacPcsTbi && c.eee.pcs != stmmacPcsRtbi

def otherWolIrq (c : OpenConf) : Bool := c.wolIrq != c.irq

/-- `-ENXIO`. -/
def hasLpiIrq (c : OpenConf) : Bool := c.lpiIrq != -6

end OpenConf

variable (c : OpenConf) (e : OpenEnv)

/-- The result is zero or negative. -/
def stmmacInitPhy (s : OpenState) : OpenState × Int :=
  match e.phyConnect with
  | .error ret _ => (s, ret)
  | .noDevice => ((s.acquire .phy).release .phy, -19)
  | .attached => (({ s.acquire .phy with phydev := .attached }).acquire .sysfs, 0)

/-- The indices for which `stmmac_init_rx_buffers` succeeds. -/
def rxFilled : List Nat := (List.range c.rxSize).takeWhile e.rxSkb

def stmmacInitRxBuffersRes (s : OpenState) (i : Nat) : OpenState :=
  let s := (s.acquire (.rxSkb i)).acquire (.rxMap i)
  if c.mode = .ring ∧ c.bufSz16KiB then s.use (.ring .initDesc3) else s

def chainInits (s : OpenState) : OpenState :=
  match c.mode with
  | .ring => s
  | .chain => (s.use (.chain .init)).use (.chain .init)

/-- `stmmac_clear_descriptors`. -/
def clearDescriptorsUses (s : OpenState) : OpenState :=
  let s := (List.range c.rxSize).foldl (fun s _ => s.use (.desc .initRxDesc)) s
  (List.range c.txSize).foldl (fun s _ => s.use (.desc .initTxDesc)) s

def set16kibBfsizeUse (s : OpenState) : OpenState :=
  match c.mode with
  | .ring => s.use (.ring .set16kibBfsize)
  | .chain => s

def allocRings (s : OpenState) : OpenState :=
  (s.acquireIf e.dmaRx .dmaRx).acquireIf e.dmaTx .dmaTx

/-- The contents of `rx_skbuff` once the buffers are there. -/
def openedRx (i : Nat) : RxEntry :=
  if i ∈ rxFilled c e then .skb else if e.stale i then .stale else .null

def allocArrays (s : OpenState) : OpenState :=
  let s := (s.acquireIf e.rxSkbuffDma .rxSkbuffDma).acquireIf e.rxSkbuff .rxSkbuff
  let s := (s.acquireIf e.txSkbuffDma .txSkbuffDma).acquireIf e.txSkbuff .txSkbuff
  { s with
    allocated := e.rxSkbuffDma && e.rxSkbuff && e.txSkbuffDma && e.txSkbuff
    rxSkbuff := openedRx c e }

/-- The flag is cleared if an array is used that could not be allocated. -/
def initDmaDescRingsRes (s : OpenState) : OpenState × Bool :=
  let s := allocRings e (set16kibBfsizeUse c s)
  if !e.dmaRx || !e.dmaTx then ({ s with allocated := false }, true)
  else
    let s := allocArrays c e s
    -- the first buffer is written to both receive arrays
    if rxFilled c e ≠ [] ∧ ¬ (e.rxSkbuff && e.rxSkbuffDma) then (s, false)
    else
      let s := chainInits c ((rxFilled c e).foldl (stmmacInitRxBuffersRes c) s)
      if c.txSize ≠ 0 ∧ ¬ (e.txSkbuff && e.txSkbuffDma) then (s, false)
      else (clearDescriptorsUses c s, true)

/-- The end of every failed call. -/
def openError (s : OpenState) : OpenState :=
  let s := match s.phydev with
    | .null => s
    | .attached | .detached => { s.release .phy with phydev := .detached }
  s.releaseIf c.gmacClkEnable .gmacClk

def openErrorWolirq (s : OpenState) : OpenState := openError c (s.release .irq)

def openErrorLpiirq (s : OpenState) : OpenState :=
  openErrorWolirq c (s.releaseIf c.otherWolIrq .wolIrq)

/-- `stmmac_eee_init`, as far as flags and tables are concerned. -/
def eeeInitRes (s : OpenState) : OpenState :=
  if c.eee.pcs = stmmacPcsRgmii ∨ c.eee.pcs = stmmacPcsTbi ∨ c.eee.pcs = stmmacPcsRtbi then
    { s with eeeEnabled := false }
  else if c.eee.dmaCapEee then
    if e.phyInitEee ≠ 0 then { s with eeeEnabled := false }
    else if s.eeeActive then { s.use (.mac .setEeePls) with eeeEnabled := true }
    else { s.use (.mac .setEeeTimer) with eeeActive := true, eeeEnabled := true }
  else { s with eeeEnabled := false }

/-- The rest of a successful call. -/
def openStart (s : OpenState) : OpenState :=
  let s := ((s.use (.dma .dmaMode)).use (.dma .startTx)).use (.dma .startRx)
  let s := if c.msgHw then (s.use (.mac .dumpRegs)).use (.dma .dumpRegs) else s
  let s := eeeInitRes c e s
  let s := if c.useRiwt then s.use .testDma else s
  if c.eee.pcs ≠ 0 then s.use .testMac else s

inductive OpenOutcome where
  /-- A `NULL` dereference. -/
  | crashed (s : OpenState)
  | returned (ret : Int) (s : OpenState)

/-- From the rings on. -/
def openRings (s : OpenState) : OpenOutcome :=
  match initDmaDescRingsRes c e s with
  | (s, false) => .crashed s
  | (s, true) =>
    let s := s.use (.dma .init)
    if e.dmaInit < 0 then .returned e.dmaInit (openError c s)
    else
      let s := (s.use (.mac .setUmacAddr)).use (.mac .coreInit)
      if e.requestIrq < 0 then .returned e.requestIrq (openError c s)
      else
        let s := s.acquire .irq
        if c.otherWolIrq ∧ e.requestWolIrq < 0 then
          .returned e.requestWolIrq (openErrorWolirq c s)
        else
          let s := s.acquireIf c.otherWolIrq .wolIrq
          if c.hasLpiIrq ∧ e.requestLpiIrq < 0 then
            .returned e.requestLpiIrq (openErrorLpiirq c s)
          else .returned 0 (openStart c e (s.acquireIf c.hasLpiIrq .lpiIrq))

/-- Power and clock, and `stmmac_check_ether_addr`. -/
def openPower (s : OpenState) : OpenState :=
  let s := (s.acquireIf c.phyPowerOn .phyPower).acquireIf c.gmacClkEnable .gmacClk
  if e.etherAddrValid then s else s.use (.mac .getUmacAddr)

def stmmacOpen (s : OpenState) : OpenOutcome :=
  let s := openPower c e s
  if c.hasPhyBus then
    if s.mdioRegistered = false ∧ e.mdioRegister < 0 then
      .returned e.mdioRegister (openError c s)
    else
      match stmmacInitPhy e { s with mdioRegistered := true } with
      | (s, ret) => if ret ≠ 0 then .returned ret (openError c s) else openRings c e s
  else openRings c e s

/-- One round of `dma_free_rx_skbufs`. -/
def freeRxEntry (s : OpenState) (i : Nat) : OpenState :=
  match s.rxSkbuff i with
  | .null => s
  | .skb | .stale =>
    let s := (s.release (.rxMap i)).release (.rxSkb i)
    { s with rxSkbuff := Function.update s.rxSkbuff i .null }

def stopPhy (s : OpenState) : OpenState :=
  match s.phydev with
  | .null => s
  | .attached | .detached => { (s.release .sysfs).release .phy with phydev := .null }

def freeIrqs (s : OpenState) : OpenState :=
  ((s.release .irq).releaseIf c.otherWolIrq .wolIrq).releaseIf c.hasLpiIrq .lpiIrq

/-- `free_dma_desc_resources`, with no frame queued. -/
def freeDmaDescResources (s : OpenState) : OpenState :=
  let s := (List.range c.rxSize).foldl freeRxEntry s
  let s := (s.release .dmaTx).release .dmaRx
  let s := (s.release .rxSkbuffDma).release .rxSkbuff
  (s.release .txSkbuffDma).release .txSkbuff

/-- `stmmac_release` right after a successful `stmmac_open`. -/
def stmmacRelease (s : OpenState) : OpenState :=
  let s := freeIrqs c (stopPhy s)
  let s := (s.use (.dma .stopTx)).use (.dma .stopRx)
  let s := freeDmaDescResources c s
  (s.releaseIf c.phyPowerOn .phyPower).releaseIf c.gmacClkEnable .gmacClk

/-- A board with both callbacks, a PHY on the MDIO bus and one interrupt line. -/
def OpenConf.board : OpenConf where
  phyPowerOn := true
  gmacClkEnable := true
  eee := ⟨0, false, 0⟩
  mode := .ring
  extendDesc := false
  bufSz16KiB := false
  useRiwt := false
  msgHw := false
  rxSize := 64
  txSize := 64
  irq := 35
  wolIrq := 35
  lpiIrq := -6

/-- Everything succeeds. -/
def OpenEnv.granted : OpenEnv where
  etherAddrValid := true
  mdioRegister := 0
  phyConnect := .attached
  dmaRx := true
  dmaTx := true
  rxSkbuffDma := true
  rxSkbuff := true
  txSkbuffDma := true
  txSkbuff := true
  rxSkb := fun _ => true
  stale := fun _ => false
  dmaInit := 0
  requestIrq := 0
  requestWolIrq := 0
  requestLpiIrq := 0
  phyInitEee := 0

/-- The state after `stmmac_dvr_probe`. -/
def OpenState.probed : OpenState where
  mdioRegistered := false
  phydev := .null
  allocated := false
  rxSkbuff := fun _ => .null
  eeeActive := false
  eeeEnabled := false
  events := []
  uses := []

end Stmmac
