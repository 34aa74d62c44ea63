import Stmmac.Desc.Ops
import Stmmac.Mac.Regs
import Stmmac.Net.Ops

/-!
# Detection of the MAC

`stmmac_hw_init` finds out what the core can do. It chooses the descriptors from the platform data
and after that lets the capability register override what it has chosen from: the choice is kept in
`hw->desc` and `extend_desc`, the new value in `plat->enh_desc`. The tables themselves are those of
`Net/Ops`.
-/

namespace Stmmac.HwInit

open Library

/-- `struct dma_features`. -/
structure DmaFeatures where
  mbps10100 : BitVec 32
  mbps1000 : BitVec 32
  halfDuplex : BitVec 32
  hashFilter : BitVec 32
  multiAddr : BitVec 32
  pcs : BitVec 32
  smaMdio : BitVec 32
  pmtRemoteWakeUp : BitVec 32
  pmtMagicFrame : BitVec 32
  rmon : BitVec 32
  timeStamp : BitVec 32
  atimeStamp : BitVec 32
  eee : BitVec 32
  av : BitVec 32
  txCoe : BitVec 32
  rxCoeType1 : BitVec 32
  rxCoeType2 : BitVec 32
  rxfifoOver2048 : BitVec 32
  numberRxChannel : BitVec 32
  numberTxChannel : BitVec 32
  enhDesc : BitVec 32

/-- A capability register without features. -/
def DmaFeatures.none : DmaFeatures :=
  ⟨0, 0, 0, 0, 0, 0, 0, 0, 0, 0, 0, 0, 0, 0, 0, 0, 0, 0, 0, 0, 0⟩

/-- The fields of `struct plat_stmmacenet_data` that the detection reads or writes. -/
structure PlatFeatures where
  hasGmac : Bool
  enhDesc : BitVec 32
  txCoe : BitVec 32
  rxCoe : RxCoe
  pmt : BitVec 32

/-- The tables of descriptor operations. -/
inductive DescTable where
  | enhDescOps
  | ndescOps
  deriving DecidableEq

/-- `struct mac_device_info`. -/
structure MacDeviceInfo where
  /-- The operations are those of `dwmac1000`, or else those of `dwmac100`. -/
  dwmac1000 : Bool
  synopsysUid : BitVec 32
  desc : Option DescTable
  mode : Option Mode

/-- `struct stmmac_priv`, as far as the detection writes it. -/
structure HwPriv where
  plat : PlatFeatures
  hw : Option MacDeviceInfo
  unicastFlt : Bool
  synopsysId : BitVec 32
  extendDesc : BitVec 32
  dmaCap : DmaFeatures
  hwCapSupport : BitVec 32
  wakeupCapable : Bool

/-- As `alloc_etherdev` and the probe leave it. -/
def HwPriv.fresh (plat : PlatFeatures) : HwPriv where
  plat := plat
  hw := none
  unicastFlt := false
  synopsysId := 0
  extendDesc := 0
  dmaCap := .none
  hwCapSupport := 0
  wakeupCapable := false

/-- What the kernel and the core answer: whether there is memory, the version and the capability
register, and the control register after its checksum bit was written. -/
structure HwAnswers where
  alloc : Bool
  version : BitVec 32
  hwFeature : BitVec 32
  control : BitVec 32

def dwmacCore350 : BitVec 32 := 0x35

/-- `DMA_HW_FEAT_ENHDESSEL`. -/
def dmaHwFeatEnhdessel : BitVec 32 := 0x01000000

def gmacControlIpc : BitVec 32 := 0x00000400

/-! ## The functions -/

def dwmac1000Setup (a : HwAnswers) : Option MacDeviceInfo :=
  if a.alloc then some ⟨true, a.version, none, none⟩ else none

def dwmac100Setup (a : HwAnswers) : Option MacDeviceInfo :=
  if a.alloc then some ⟨false, 0, none, none⟩ else none

def stmmacGetSynopsysId (hw : MacDeviceInfo) : BitVec 32 :=
  let hwid := hw.synopsysUid
  if hwid ≠ 0 then hwid &&& 0x000000ff else 0

def stmmacSelecDescMode (s : HwPriv) (hw : MacDeviceInfo) : HwPriv × MacDeviceInfo :=
  if s.plat.enhDesc ≠ 0 then
    (if dwmacCore350.sle s.synopsysId then { s with extendDesc := 1 } else s,
      { hw with desc := some .enhDescOps })
  else (s, { hw with desc := some .ndescOps })

/-- The fields of the capability register. -/
def dmaFeatures (hwCap : BitVec 32) : DmaFeatures where
  mbps10100 := hwCap &&& 0x00000001
  mbps1000 := (hwCap &&& 0x00000002) >>> 1
  halfDuplex := (hwCap &&& 0x00000004) >>> 2
  hashFilter := (hwCap &&& 0x00000010) >>> 4
  multiAddr := (hwCap &&& 0x00000020) >>> 5
  pcs := (hwCap &&& 0x00000040) >>> 6
  smaMdio := (hwCap &&& 0x00000100) >>> 8
  pmtRemoteWakeUp := (hwCap &&& 0x00000200) >>> 9
  pmtMagicFrame := (hwCap &&& 0x00000400) >>> 10
  rmon := (hwCap &&& 0x00000800) >>> 11
  timeStamp := (hwCap &&& 0x00001000) >>> 12
  atimeStamp := (hwCap &&& 0x00002000) >>> 13
  eee := (hwCap &&& 0x00004000) >>> 14
  av := (hwCap &&& 0x00008000) >>> 15
  txCoe := (hwCap &&& 0x00010000) >>> 16
  rxCoeType1 := (hwCap &&& 0x00020000) >>> 17
  rxCoeType2 := (hwCap &&& 0x00040000) >>> 18
  rxfifoOver2048 := (hwCap &&& 0x00080000) >>> 19
  numberRxChannel := (hwCap &&& 0x00300000) >>> 20
  numberTxChannel := (hwCap &&& 0x00c00000) >>> 22
  enhDesc := (hwCap &&& dmaHwFeatEnhdessel) >>> 24

/-- Only the DMA operations of `dwmac1000` read the register. -/
def stmmacGetHwFeatures (s : HwPriv) (hw : MacDeviceInfo) (a : HwAnswers) : HwPriv × BitVec 32 :=
  if hw.dwmac1000 then ({ s with dmaCap := dmaFeatures a.hwFeature }, a.hwFeature) else (s, 0)

/-- The fields that the capability register overrides. -/
def overridePlat (plat : PlatFeatures) (cap : DmaFeatures) : PlatFeatures :=
  { plat with
    enhDesc := cap.enhDesc
    pmt := cap.pmtRemoteWakeUp
    txCoe := cap.txCoe
    rxCoe := if cap.rxCoeType2 ≠ 0 then .type2 else if cap.rxCoeType1 ≠ 0 then .type1
      else plat.rxCoe }

/-- `rx_ipc` of the core. -/
def rxIpc (hw : MacDeviceInfo) (a : HwAnswers) : Bool :=
  hw.dwmac1000 && hasBit a.control gmacControlIpc

/-- `stmmac_hw_init` from where `priv->hw` is known. -/
def hwConfigure (chainMode : Bool) (a : HwAnswers) (s : HwPriv) (hw : MacDeviceInfo) : HwPriv :=
  let s := { s with synopsysId := stmmacGetSynopsysId hw }
  let (s, hw) := stmmacSelecDescMode s hw
  let hw := { hw with mode := some (if chainMode then .chain else .ring) }
  let (s, hwCap) := stmmacGetHwFeatures s hw a
  let s := { s with hw := some hw, hwCapSupport := hwCap }
  let plat := if hwCap ≠ 0 then overridePlat s.plat s.dmaCap else s.plat
  let plat := if rxIpc hw a then plat else { plat with rxCoe := .none }
  { s with plat := plat, wakeupCapable := s.wakeupCapable || plat.pmt != 0 }

def stmmacHwInit (chainMode : Bool) (a : HwAnswers) (s : HwPriv) : Int × HwPriv :=
  let s := if s.plat.hasGmac then { s with unicastFlt := true } else s
  match if s.plat.hasGmac then dwmac1000Setup a else dwmac100Setup a with
  | none => (-12, s)
  | some hw => (0, hwConfigure chainMode a s hw)

/-! ## What the choice should be -/

/-- The operations and the layout of the descriptors are those that the platform data say. -/
structure DescConsistent (s : HwPriv) : Prop where
  table_iff : s.hw.bind MacDeviceInfo.desc = some .enhDescOps ↔ s.plat.enhDesc ≠ 0
  extended_iff : s.extendDesc ≠ 0 ↔ s.plat.enhDesc ≠ 0 ∧ dwmacCore350.sle s.synopsysId = true

/-- The capability register, where it is read and says anything, says of the descriptors what the
platform data said. -/
def SameDesc (plat : PlatFeatures) (hwFeature : BitVec 32) : Prop :=
  plat.hasGmac = false ∨ hwFeature = 0 ∨
    (hasBit hwFeature dmaHwFeatEnhdessel = true ↔ plat.enhDesc ≠ 0)

section

variable {chainMode : Bool} {a : HwAnswers} {plat : PlatFeatures}

theorem enhDesc_ne_zero_iff (hwCap : BitVec 32) :
    (dmaFeatures hwCap).enhDesc ≠ 0 ↔ hasBit hwCap dmaHwFeatEnhdessel = true := by
  have hflag := Bits.flag_ne_zero_iff (w := hwCap) (k := 24) (by decide)
  have hbit : hasBit hwCap dmaHwFeatEnhdessel = true ↔ hwCap.getLsbD 24 = true := by
    have hmask : dmaHwFeatEnhdessel = BitVec.twoPow 32 24 := rfl
    unfold hasBit
    rw [bne_iff_ne, hmask, BitVec.and_twoPow]
    cases hwCap.getLsbD 24 <;> decide
  exact hflag.trans hbit.symm

theorem selecDescMode_of_ne {s : HwPriv} (hw : MacDeviceInfo) (h : s.plat.enhDesc ≠ 0) :
    stmmacSelecDescMode s hw =
      ({ s with extendDesc := if dwmacCore350.sle s.synopsysId then 1 else s.extendDesc },
        { hw with desc := some .enhDescOps }) := by
  rw [stmmacSelecDescMode, if_pos h]
  split_ifs <;> rfl

theorem selecDescMode_of_eq {s : HwPriv} (hw : MacDeviceInfo) (h : s.plat.enhDesc = 0) :
    stmmacSelecDescMode s hw = (s, { hw with desc := some .ndescOps }) :=
  if_neg (not_not.mpr h)

/-- The choice changes neither the platform data nor the core. -/
theorem selecDescMode_keeps (s : HwPriv) (hw : MacDeviceInfo) :
    (stmmacSelecDescMode s hw).1.plat = s.plat ∧
      (stmmacSelecDescMode s hw).1.dmaCap = s.dmaCap ∧
      (stmmacSelecDescMode s hw).2.dwmac1000 = hw.dwmac1000 := by
  unfold stmmacSelecDescMode
  split_ifs <;> exact ⟨rfl, rfl, rfl⟩

/-- The platform data after the configuration. -/
theorem hwConfigure_enhDesc (s : HwPriv) (hw : MacDeviceInfo) :
    (hwConfigure chainMode a s hw).plat.enhDesc =
      if hw.dwmac1000 = true ∧ a.hwFeature ≠ 0 then (dmaFeatures a.hwFeature).enhDesc
      else s.plat.enhDesc := by
  unfold hwConfigure stmmacGetHwFeatures
  dsimp only
  obtain ⟨hplat, -, hgmac⟩ := selecDescMode_keeps { s with synopsysId := stmmacGetSynopsysId hw } hw
  rw [hgmac]
  cases hw.dwmac1000 with
  | false => split_ifs <;> simp_all
  | true =>
    by_cases hcap : a.hwFeature = 0#32
    · split_ifs <;> simp_all
    · split_ifs <;> simp_all [overridePlat]

/-- The features after the configuration. -/
theorem hwConfigure_dmaCap (s : HwPriv) (hw : MacDeviceInfo) :
    (hwConfigure chainMode a s hw).dmaCap =
      if hw.dwmac1000 then dmaFeatures a.hwFeature else s.dmaCap := by
  unfold hwConfigure stmmacGetHwFeatures
  dsimp only
  obtain ⟨-, hcap, hgmac⟩ := selecDescMode_keeps { s with synopsysId := stmmacGetSynopsysId hw } hw
  rw [hgmac]
  cases hw.dwmac1000 with
  | false => exact hcap
  | true => rfl

/-- The choice follows the platform data as they were. -/
theorem hwConfigure_table (s : HwPriv) (hw : MacDeviceInfo) :
    (hwConfigure chainMode a s hw).hw.bind MacDeviceInfo.desc =
      some (if s.plat.enhDesc ≠ 0 then .enhDescOps else .ndescOps) := by
  unfold hwConfigure stmmacSelecDescMode
  dsimp only
  rw [Option.bind_some]
  split_ifs <;> rfl

theorem hwConfigure_extendDesc (s : HwPriv) (hw : MacDeviceInfo) (hs : s.extendDesc = 0) :
    (hwConfigure chainMode a s hw).extendDesc ≠ 0 ↔ s.plat.enhDesc ≠ 0 ∧
      dwmacCore350.sle (hwConfigure chainMode a s hw).synopsysId = true := by
  have hfeatures : ∀ (s : HwPriv) (hw : MacDeviceInfo),
      (stmmacGetHwFeatures s hw a).1.extendDesc = s.extendDesc ∧
        (stmmacGetHwFeatures s hw a).1.synopsysId = s.synopsysId := by
    intro s hw
    unfold stmmacGetHwFeatures
    split_ifs <;> exact ⟨rfl, rfl⟩
  unfold hwConfigure
  dsimp only
  rw [(hfeatures _ _).1, (hfeatures _ _).2]
  let s' := { s with synopsysId := stmmacGetSynopsysId hw }
  by_cases henh : s.plat.enhDesc = 0#32
  · have hnormal : s'.plat.enhDesc = 0 := henh
    rw [selecDescMode_of_eq _ hnormal]
    simp [s', henh, hs]
  · have henhanced : s'.plat.enhDesc ≠ 0 := henh
    rw [selecDescMode_of_ne _ henhanced]
    cases dwmacCore350.sle (stmmacGetSynopsysId hw) <;> simp [s', henh, hs]

/-- A detection that succeeds configures the core that it has set up. -/
theorem hwInit_eq (h : (stmmacHwInit chainMode a (.fresh plat)).1 = 0) :
    ∃ s hw, (stmmacHwInit chainMode a (.fresh plat)).2 = hwConfigure chainMode a s hw ∧
      s.plat = plat ∧ s.extendDesc = 0 ∧ s.dmaCap = .none ∧ hw.dwmac1000 = plat.hasGmac := by
  unfold stmmacHwInit dwmac1000Setup dwmac100Setup at h ⊢
  cases hgmac : plat.hasGmac <;> cases halloc : a.alloc <;>
    simp [HwPriv.fresh, hgmac, halloc] at h ⊢
  · exact ⟨_, _, rfl, rfl, rfl, rfl, rfl⟩
  · exact ⟨_, _, rfl, rfl, rfl, rfl, rfl⟩

/-- The detection as the calls through the tables see it. -/
def hwConf (chainMode : Bool) (a : HwAnswers) (plat : PlatFeatures) : HwConf where
  hasGmac := plat.hasGmac
  chainMode := chainMode
  enhDesc := plat.enhDesc != 0
  hwCap := a.hwFeature

/-- The functions of a table. -/
def DescTable.functions (ext : ExternOps) : DescTable → DescFn → Bool
  | enhDescOps => ext.enhDesc
  | ndescOps => ndescOpsTable

/-- The descriptor table that is chosen is the one that all calls go through. -/
theorem desc_eq (ext : ExternOps) (h : (stmmacHwInit chainMode a (.fresh plat)).1 = 0) :
    (Stmmac.stmmacHwInit ext (hwConf chainMode a plat)).desc =
      ((stmmacHwInit chainMode a (.fresh plat)).2.hw.bind MacDeviceInfo.desc).map
        (DescTable.functions ext) := by
  obtain ⟨s, hw, hend, rfl, -, -, -⟩ := hwInit_eq h
  rw [hend, hwConfigure_table, Option.map_some]
  unfold Stmmac.stmmacHwInit hwConf
  dsimp only
  by_cases henh : s.plat.enhDesc = 0#32 <;> simp [henh, DescTable.functions]

/-- The time stamps that a core is known to take. -/
theorem timeStamp_eq (h : (stmmacHwInit chainMode a (.fresh plat)).1 = 0) :
    (Stmmac.stmmacGetHwFeatures (hwConf chainMode a plat)).timeStamp =
      ((stmmacHwInit chainMode a (.fresh plat)).2.dmaCap.timeStamp != 0) := by
  obtain ⟨s, hw, hend, rfl, -, hcap, hgmac⟩ := hwInit_eq h
  rw [hend, hwConfigure_dmaCap, hgmac, hcap]
  unfold Stmmac.stmmacGetHwFeatures hwConf
  dsimp only
  cases s.plat.hasGmac with
  | false => rfl
  | true =>
    have hflag := Bits.flag_ne_zero_iff (w := a.hwFeature) (k := 12) (by decide)
    rw [Bool.eq_iff_iff, if_pos rfl, if_pos rfl, bne_iff_ne]
    exact hflag.symm

/-- After a detection that succeeds the choice of the descriptors is consistent exactly if the
capability register did not override it. -/
theorem descConsistent_iff (h : (stmmacHwInit chainMode a (.fresh plat)).1 = 0) :
    DescConsistent (stmmacHwInit chainMode a (.fresh plat)).2 ↔ SameDesc plat a.hwFeature := by
  obtain ⟨s, hw, hend, rfl, hs, -, hgmac⟩ := hwInit_eq h
  have hextend := @hwConfigure_extendDesc chainMode a s hw hs
  have htable : (hwConfigure chainMode a s hw).hw.bind MacDeviceInfo.desc = some .enhDescOps ↔
      s.plat.enhDesc ≠ 0 := by
    rw [hwConfigure_table]
    by_cases henh : s.plat.enhDesc = 0#32 <;> simp [henh]
  rw [hend]
  have hsame : SameDesc s.plat a.hwFeature ↔
      (s.plat.enhDesc ≠ 0 ↔ (hwConfigure chainMode a s hw).plat.enhDesc ≠ 0) := by
    rw [hwConfigure_enhDesc, hgmac]
    unfold SameDesc
    by_cases hover : s.plat.hasGmac = true ∧ a.hwFeature ≠ 0
    · obtain ⟨hread, hcap⟩ := hover
      rw [if_pos ⟨hread, hcap⟩, enhDesc_ne_zero_iff, hread, or_iff_right (by decide),
        or_iff_right hcap]
      exact iff_comm
    · rw [if_neg hover]
      grind
  rw [hsame]
  constructor
  · intro hc
    exact htable.symm.trans hc.table_iff
  · intro hc
    exact ⟨htable.trans hc, hextend.trans (and_congr_left fun _ => hc)⟩

/-- A core of version 3.50 whose capability register agrees with the platform data. -/
theorem descConsistent_agree :
    DescConsistent (stmmacHwInit false ⟨true, 0x1035, 0x01000000, 0⟩
        (.fresh ⟨true, 1, 0, .none, 0⟩)).2 ↔
      SameDesc ⟨true, 1, 0, .none, 0⟩ 0x01000000 :=
  descConsistent_iff rfl

/-- Without a word from the platform, a core that has enhanced descriptors gets the operations on
normal ones. -/
theorem normal_ops_enhanced_core :
    let t := stmmacHwInit false ⟨true, 0x1035, 0x01000000, 0⟩ (.fresh ⟨true, 0, 0, .none, 0⟩)
    t.1 = 0 ∧ ¬ DescConsistent t.2 := by
  intro t
  refine ⟨rfl, fun h => ?_⟩
  have htable := h.table_iff
  revert htable
  decide

end

end Stmmac.HwInit
