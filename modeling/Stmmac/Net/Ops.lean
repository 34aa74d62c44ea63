import Mathlib.Tactic.Common

/-!
# Tables of operations

`struct mac_device_info` and the tables it points to, seen as which of their functions are there.
`stmmac_hw_init` fills them in; nothing after it does. `enh_desc_ops`, `ring_mode_ops` and
`chain_mode_ops` are not part of the repository and are taken as given.
-/

namespace Stmmac

/-- The functions of `struct stmmac_ops`. -/
inductive MacFn where
  | coreInit | rxIpc | dumpRegs | hostIrqStatus | setFilter | flowCtrl | pmt | setUmacAddr
  | getUmacAddr | setEeeMode | resetEeeMode | setEeeTimer | setEeePls | ctrlAne | getAdv
  deriving DecidableEq

/-- The functions of `struct stmmac_dma_ops`. -/
inductive DmaFn where
  | init | dumpRegs | dmaMode | dmaDiagnosticFr | enableDmaTransmission | enableDmaIrq
  | disableDmaIrq | startTx | stopTx | startRx | stopRx | dmaInterrupt | getHwFeature | rxWatchdog
  deriving DecidableEq

/-- The functions of `struct stmmac_desc_ops`. -/
inductive DescFn where
  | initRxDesc | initTxDesc | prepareTxDesc | setTxOwner | getTxOwner | closeTxDesc
  | releaseTxDesc | clearTxIc | getTxLs | txStatus | getTxLen | getRxOwner | setRxOwner
  | getRxFrameLen | rxStatus | rxExtendedStatus | enableTxTimestamp | getTxTimestampStatus
  | getTimestamp | getRxTimestampStatus
  deriving DecidableEq

/-- The functions of `struct stmmac_ring_mode_ops`. -/
inductive RingFn where
  | isJumboFrm | jumboFrm | refillDesc3 | initDesc3 | cleanDesc3 | set16kibBfsize
  deriving DecidableEq

/-- The functions of `struct stmmac_chain_mode_ops`. -/
inductive ChainFn where
  | init | isJumboFrm | jumboFrm | refillDesc3 | cleanDesc3
  deriving DecidableEq

/-- The functions of `struct stmmac_hwtimestamp`. -/
inductive PtpFn where
  | configHwTstamping | configSubSecondIncrement | initSystime | configAddend | adjustSystime
  | getSystime
  deriving DecidableEq

/-- Each table may be missing, and each function in it. -/
structure MacDeviceInfo where
  mac : Option (MacFn → Bool)
  dma : Option (DmaFn → Bool)
  desc : Option (DescFn → Bool)
  ring : Option (RingFn → Bool)
  chain : Option (ChainFn → Bool)
  ptp : Option (PtpFn → Bool)

/-- A call through a table, or the test of a function pointer against `NULL` before a call. -/
inductive OpsUse where
  | mac (f : MacFn)
  | dma (f : DmaFn)
  | desc (f : DescFn)
  | ring (f : RingFn)
  | chain (f : ChainFn)
  | ptp (f : PtpFn)
  | testMac
  | testDma
  | testDesc
  deriving DecidableEq

namespace MacDeviceInfo

/-- The use dereferences no `NULL` pointer. -/
def Present (hw : MacDeviceInfo) : OpsUse → Bool
  | .mac f => hw.mac.any (· f)
  | .dma f => hw.dma.any (· f)
  | .desc f => hw.desc.any (· f)
  | .ring f => hw.ring.any (· f)
  | .chain f => hw.chain.any (· f)
  | .ptp f => hw.ptp.any (· f)
  | .testMac => hw.mac.isSome
  | .testDma => hw.dma.isSome
  | .testDesc => hw.desc.isSome

end MacDeviceInfo

/-! ## The tables -/

def dwmac1000Ops : MacFn → Bool := fun _ => true

def dwmac100Ops : MacFn → Bool
  | .coreInit | .rxIpc | .dumpRegs | .hostIrqStatus | .setFilter | .flowCtrl | .pmt
  | .setUmacAddr | .getUmacAddr => true
  | .setEeeMode | .resetEeeMode | .setEeeTimer | .setEeePls | .ctrlAne | .getAdv => false

def dwmac1000DmaOps : DmaFn → Bool
  | .dmaDiagnosticFr => false
  | _ => true

def dwmac100DmaOps : DmaFn → Bool
  | .getHwFeature | .rxWatchdog => false
  | _ => true

def ndescOpsTable : DescFn → Bool
  | .rxExtendedStatus => false
  | _ => true

/-- The tables defined elsewhere. -/
structure ExternOps where
  enhDesc : DescFn → Bool
  ring : RingFn → Bool
  chain : ChainFn → Bool

/-- They define all their functions. -/
structure ExternOps.Complete (ext : ExternOps) : Prop where
  enhDesc : ∀ f, ext.enhDesc f = true
  ring : ∀ f, ext.ring f = true
  chain : ∀ f, ext.chain f = true

/-! ## `stmmac_hw_init` -/

/-- What `stmmac_hw_init` looks at: platform data, the module parameter `chain_mode`, and the
hardware capability register. -/
structure HwConf where
  hasGmac : Bool
  chainMode : Bool
  enhDesc : Bool
  hwCap : BitVec 32

/-- The fields of `struct dma_features` that the modelled functions read. -/
structure DmaFeatures where
  timeStamp : Bool
  eee : Bool

/-- `stmmac_get_hw_features`: the register is read only with a function to read it. -/
def stmmacGetHwFeatures (h : HwConf) : DmaFeatures :=
  if h.hasGmac then ⟨h.hwCap.getLsbD 12, h.hwCap.getLsbD 14⟩ else ⟨false, false⟩

/-- The tables that `stmmac_hw_init` leaves; `hw->ptp` would be set by `stmmac_init_ptp`, which is
commented out. -/
def stmmacHwInit (ext : ExternOps) (h : HwConf) : MacDeviceInfo where
  mac := some (if h.hasGmac then dwmac1000Ops else dwmac100Ops)
  dma := some (if h.hasGmac then dwmac1000DmaOps else dwmac100DmaOps)
  desc := some (if h.enhDesc then ext.enhDesc else ndescOpsTable)
  ring := if h.chainMode then none else some ext.ring
  chain := if h.chainMode then some ext.chain else none
  ptp := none

variable {ext : ExternOps} {h : HwConf}

@[simp] theorem present_ptp (f : PtpFn) : (stmmacHwInit ext h).Present (.ptp f) = false := rfl

@[simp] theorem present_testMac : (stmmacHwInit ext h).Present .testMac = true := rfl
@[simp] theorem present_testDma : (stmmacHwInit ext h).Present .testDma = true := rfl
@[simp] theorem present_testDesc : (stmmacHwInit ext h).Present .testDesc = true := rfl

/-- All descriptor functions but the optional one are there. -/
theorem present_desc (hext : ext.Complete) {f : DescFn} (hf : f ≠ .rxExtendedStatus) :
    (stmmacHwInit ext h).Present (.desc f) = true := by
  simp only [MacDeviceInfo.Present, stmmacHwInit, Option.any_some]
  split
  · exact hext.enhDesc f
  · cases f <;> first | rfl | exact absurd rfl hf

/-- The ring functions are there in ring mode only. -/
theorem present_ring (hext : ext.Complete) (f : RingFn) :
    (stmmacHwInit ext h).Present (.ring f) = !h.chainMode := by
  simp only [MacDeviceInfo.Present, stmmacHwInit]
  cases h.chainMode
  · exact hext.ring f
  · rfl

theorem present_chain (hext : ext.Complete) (f : ChainFn) :
    (stmmacHwInit ext h).Present (.chain f) = h.chainMode := by
  simp only [MacDeviceInfo.Present, stmmacHwInit]
  cases h.chainMode
  · rfl
  · exact hext.chain f

/-- The DMA functions of both cores. -/
theorem present_dma {f : DmaFn}
    (hf : f ≠ .dmaDiagnosticFr ∧ f ≠ .getHwFeature ∧ f ≠ .rxWatchdog) :
    (stmmacHwInit ext h).Present (.dma f) = true := by
  simp only [MacDeviceInfo.Present, stmmacHwInit, Option.any_some]
  cases h.hasGmac <;> cases f <;> first | rfl | simp at hf

/-- The core functions of both cores. -/
theorem present_mac {f : MacFn} (hf : dwmac100Ops f = true) :
    (stmmacHwInit ext h).Present (.mac f) = true := by
  simp only [MacDeviceInfo.Present, stmmacHwInit, Option.any_some]
  cases h.hasGmac
  · exact hf
  · rfl

/-- A GMAC has them all. -/
theorem present_mac_gmac (hgmac : h.hasGmac = true) (f : MacFn) :
    (stmmacHwInit ext h).Present (.mac f) = true := by
  simp only [MacDeviceInfo.Present, stmmacHwInit, Option.any_some, hgmac]
  rfl

end Stmmac
