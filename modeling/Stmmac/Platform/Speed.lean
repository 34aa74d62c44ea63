import Stmmac.Mac.Link
import Stmmac.Platform.Clk
import Stmmac.Platform.Rgmii

/-!
# The clock of the interface follows the link

`stmmac_adjust_link` tells the platform of a new speed, and `stmmc_pltfr_fix_mac_speed` selects the
clock between MAC and PHY in a GRF register. The MAC moves eight bits in each clock at 1000 Mb/s and
four below; clock and width together are the speed of the link, after any history of the link and
of the interface, and whatever other drivers write to their own fields of the register.
-/

namespace Stmmac

open Library

/-! ## The platform -/

def gmacPhyIntfSelRmii : BitVec 32 := 0x01C0#32 <<< 16 ||| 0x0100
def gmacSpeed10M : BitVec 32 := 0x0400#32 <<< 16 ||| 0x0000
def gmacSpeed100M : BitVec 32 := 0x0400#32 <<< 16 ||| 0x0400
def gmacRmiiClk25M : BitVec 32 := 0x0800#32 <<< 16 ||| 0x0800
def gmacRmiiClk2_5M : BitVec 32 := 0x0800#32 <<< 16 ||| 0x0000
def gmacClk125M : BitVec 32 := 0x3000#32 <<< 16 ||| 0x0000
def gmacClk25M : BitVec 32 := 0x3000#32 <<< 16 ||| 0x3000
def gmacClk2_5M : BitVec 32 := 0x3000#32 <<< 16 ||| 0x2000
def gmacRmiiMode : BitVec 32 := 0x4000#32 <<< 16 ||| 0x4000

/-- `SET_RMII`. -/
def setRmii (grf : Grf) : Grf :=
  grfWritel gmacRmiiMode .socCon1 (grfWritel gmacPhyIntfSelRmii .socCon1 grf)

def setRgmii10M : Grf → Grf := grfWritel gmacClk2_5M .socCon1
def setRgmii100M : Grf → Grf := grfWritel gmacClk25M .socCon1
def setRgmii1000M : Grf → Grf := grfWritel gmacClk125M .socCon1

def setRmii10M (grf : Grf) : Grf :=
  grfWritel gmacSpeed10M .socCon1 (grfWritel gmacRmiiClk2_5M .socCon1 grf)

def setRmii100M (grf : Grf) : Grf :=
  grfWritel gmacSpeed100M .socCon1 (grfWritel gmacRmiiClk25M .socCon1 grf)

/-- The choice of the interface at the end of `stmmc_pltfr_init`. -/
def stmmcPltfrInitIface (iface : PhyIface) (txDelay rxDelay : BitVec 32) (grf : Grf) : Grf :=
  match iface with
  | .rgmii => setRgmii txDelay rxDelay grf
  | .rmii => setRmii grf
  | .other => grf

def stmmcPltfrFixMacSpeed (iface : PhyIface) (speed : BitVec 32) (grf : Grf) : Grf :=
  match iface with
  | .rgmii =>
    if speed = 10 then setRgmii10M grf
    else if speed = 100 then setRgmii100M grf
    else if speed = 1000 then setRgmii1000M grf
    else grf
  | .rmii =>
    if speed = 10 then setRmii10M grf
    else if speed = 100 then setRmii100M grf
    else grf
  | .other => grf

/-- The `int` of `struct phy_device` becomes an `unsigned int`. -/
def stmmacHwFixMacSpeed (iface : PhyIface) (phydev : PhyDevice) (grf : Grf) : Grf :=
  stmmcPltfrFixMacSpeed iface (BitVec.ofInt 32 phydev.speed) grf

/-! ## The system -/

structure PlatLink where
  link : LinkState
  grf : Grf

/-- `stmmac_adjust_link` with the callback, which the switch on a changed speed calls. -/
def adjustLinkFix (c : LinkConf) (iface : PhyIface) (phydev : Option PhyDevice) (phyInitEee : Int)
    (s : PlatLink) : PlatLink where
  link := stmmacAdjustLink c phydev phyInitEee s.link
  grf :=
    match phydev with
    | none => s.grf
    | some phydev =>
      if phydev.link ∧ phydev.speed ≠ s.link.speed ∧
          (phydev.speed = 1000 ∨ phydev.speed = 100 ∨ phydev.speed = 10) then
        stmmacHwFixMacSpeed iface phydev s.grf
      else s.grf

/-- `opened` is `stmmac_open`, which sets the caches and leaves the core, reset and initialised,
with any contents of its registers; `grfWritel` is a write of another driver. -/
inductive SpeedAct where
  | opened (regs : Regs)
  | adjustLink (phydev : Option PhyDevice) (phyInitEee : Int)
  | setMac (enable : Bool)
  | grfWritel (w : BitVec 32) (offset : GrfReg)

def speedStep (c : LinkConf) (iface : PhyIface) (s : PlatLink) : SpeedAct → PlatLink
  | .opened regs => { s with link := stmmacInitPhyCaches { s.link with regs := regs } }
  | .adjustLink phydev phyInitEee => adjustLinkFix c iface phydev phyInitEee s
  | .setMac enable => { s with link := linkStep c s.link (.setMac enable) }
  | .grfWritel w offset => { s with grf := grfWritel w offset s.grf }

/-- The bits of `SOC_CON1` that belong to the GMAC and that the driver writes. -/
def gmacCon1Bits : BitVec 32 := 0x7DC0

/-- Other drivers leave the fields of the GMAC alone. -/
def SpeedAct.Foreign : SpeedAct → Prop
  | grfWritel w .socCon1 => (w >>> 16) &&& gmacCon1Bits = 0
  | opened _ | adjustLink _ _ | setMac _ | grfWritel _ .socCon3 => True

/-- `SOC_CON1` with the writes of the other drivers only. -/
def foreignCon1 (con1 : BitVec 32) : SpeedAct → BitVec 32
  | .grfWritel w .socCon1 => grfWrite con1 w
  | .opened _ | .adjustLink _ _ | .setMac _ | .grfWritel _ .socCon3 => con1

/-! ## Clock and width -/

namespace PhyIface

/-- The speeds in Mb/s that the interface carries. -/
def Supports (iface : PhyIface) (speed : Int) : Prop :=
  speed = 10 ∨ speed = 100 ∨ iface = rgmii ∧ speed = 1000

/-- The clock selected by `SOC_CON1`, in kHz. -/
def gmacClk : PhyIface → BitVec 32 → Option Nat
  | rgmii, con1 =>
    if con1 &&& 0x3000 = 0 then some 125000
    else if con1 &&& 0x3000 = 0x3000 then some 25000
    else if con1 &&& 0x3000 = 0x2000 then some 2500
    else none
  | rmii, con1 => if con1 &&& 0x0800 = 0 then some 2500 else some 25000
  | other, _ => none

/-- The fields that select interface and RMII mode. -/
def selected : PhyIface → BitVec 32
  | rgmii => 0x0040
  | rmii => 0x4100
  | other => 0

end PhyIface

/-- The number of bits that the MAC moves in a clock: four with port select set. -/
def miiWidth (ctrl : BitVec 32) : Nat := if hasBit ctrl GmacControl.ps then 4 else 8

/-- MAC and platform are set for a speed in Mb/s. -/
structure Clocked (iface : PhyIface) (speed : Int) (ctrl con1 : BitVec 32) : Prop where
  mac : SpeedSet speed ctrl
  rate : ∃ khz, iface.gmacClk con1 = some khz ∧ ((khz * miiWidth ctrl : Nat) : Int) = 1000 * speed
  rmii : iface = .rmii → (con1 &&& 0x0400 = 0 ↔ speed = 10)
  select : con1 &&& 0x41C0 = iface.selected

namespace PhyIface

/-- The fields of `SOC_CON1` that select the clock. -/
def clockBits : PhyIface → BitVec 32
  | rgmii => 0x3000
  | rmii => 0x0C00
  | other => 0

/-- They are set for a speed that the interface carries. -/
def ClockIs : PhyIface → Int → BitVec 32 → Prop
  | rgmii, speed, con1 =>
    con1 &&& 0x3000 = if speed = 1000 then 0 else if speed = 100 then 0x3000 else 0x2000
  | rmii, speed, con1 =>
    con1 &&& 0x0800 = (if speed = 100 then 0x0800 else 0) ∧
      con1 &&& 0x0400 = if speed = 100 then 0x0400 else 0
  | other, _, _ => True

end PhyIface

/-- The cached speed does not run ahead of the clock. -/
structure ClockBehind (iface : PhyIface) (s : PlatLink) : Prop where
  caches : CachesBehind s.link
  clock : iface.Supports s.link.speed → iface.ClockIs s.link.speed (s.grf .socCon1)
  select : s.grf .socCon1 &&& 0x41C0 = iface.selected

/-! ## The writes -/

section Writes

variable {w content bits : BitVec 32} {grf : Grf} {iface : PhyIface} {speed : Int}

theorem grfWrite_keep (h : (w >>> 16) &&& bits = 0#32) :
    grfWrite content w &&& bits = content &&& bits :=
  Bits.merge_and_of_disjoint h

theorem grfWrite_set (h : (w >>> 16) &&& bits = bits) : grfWrite content w &&& bits = w &&& bits :=
  Bits.merge_and_of_subset h

@[simp] theorem grfWritel_self (offset : GrfReg) :
    grfWritel w offset grf offset = grfWrite (grf offset) w := by
  simp [grfWritel]

@[simp] theorem grfWritel_of_ne {offset offset' : GrfReg} (h : offset' ≠ offset) :
    grfWritel w offset grf offset' = grf offset' := by
  simp [grfWritel, h]

/-- A word that does not touch the bits, written to `SOC_CON1` or elsewhere. -/
theorem grfWritel_keep {offset : GrfReg} (h : offset = .socCon1 → (w >>> 16) &&& bits = 0#32) :
    grfWritel w offset grf .socCon1 &&& bits = grf .socCon1 &&& bits := by
  cases offset with
  | socCon1 =>
    rw [grfWritel_self]
    exact grfWrite_keep (h rfl)
  | socCon3 => rw [grfWritel_of_ne (by decide)]

theorem disjoint_of_subset {m field : BitVec 32} (hsub : m &&& field = m)
    (h : field &&& bits = 0#32) : m &&& bits = 0#32 := by
  rw [← hsub, BitVec.and_assoc, h, BitVec.and_zero]

/-- `stmmc_pltfr_fix_mac_speed` keeps what lies outside the fields of the clock. -/
theorem fixMacSpeed_keep {speed : BitVec 32} (h : iface.clockBits &&& bits = 0#32) :
    stmmcPltfrFixMacSpeed iface speed grf .socCon1 &&& bits = grf .socCon1 &&& bits := by
  have hword : ∀ {w : BitVec 32} {grf : Grf}, (w >>> 16) &&& iface.clockBits = w >>> 16 →
      grfWritel w .socCon1 grf .socCon1 &&& bits = grf .socCon1 &&& bits :=
    fun hsub => grfWritel_keep fun _ => disjoint_of_subset hsub h
  unfold stmmcPltfrFixMacSpeed
  cases iface with
  | rgmii => split_ifs <;> first | exact hword rfl | rfl
  | rmii => split_ifs <;> first | exact (hword rfl).trans (hword rfl) | rfl
  | other => rfl

/-- For a speed that the interface carries it sets them. -/
theorem fixMacSpeed_clock (h : iface.Supports speed) :
    iface.ClockIs speed (stmmcPltfrFixMacSpeed iface (BitVec.ofInt 32 speed) grf .socCon1) := by
  cases iface with
  | rgmii =>
    have hword : ∀ {w : BitVec 32}, (w >>> 16) &&& 0x3000 = 0x3000 →
        grfWritel w .socCon1 grf .socCon1 &&& 0x3000 = w &&& 0x3000 := fun hw => by
      rw [grfWritel_self, grfWrite_set hw]
    rcases h with rfl | rfl | ⟨-, rfl⟩
    · exact hword (w := gmacClk2_5M) rfl
    · exact hword (w := gmacClk25M) rfl
    · exact hword (w := gmacClk125M) rfl
  | rmii =>
    -- the word for the clock first, then the one for the speed
    have hwords : ∀ w w' : BitVec 32, (w >>> 16) &&& 0x0800 = 0x0800 →
        (w' >>> 16) &&& 0x0800 = 0#32 → (w' >>> 16) &&& 0x0400 = 0x0400 →
        grfWritel w' .socCon1 (grfWritel w .socCon1 grf) .socCon1 &&& 0x0800 = w &&& 0x0800 ∧
          grfWritel w' .socCon1 (grfWritel w .socCon1 grf) .socCon1 &&& 0x0400 = w' &&& 0x0400 :=
      fun w w' hw hkeep hw' => by
        rw [grfWritel_self, grfWritel_self, grfWrite_keep hkeep, grfWrite_set hw, grfWrite_set hw']
        exact ⟨rfl, rfl⟩
    rcases h with rfl | rfl | ⟨hiface, -⟩
    · exact hwords gmacRmiiClk2_5M gmacSpeed10M rfl rfl rfl
    · exact hwords gmacRmiiClk25M gmacSpeed100M rfl rfl rfl
    · cases hiface
  | other => trivial

/-- The interface chosen by `stmmc_pltfr_init`. -/
theorem pltfrInit_select {txDelay rxDelay : BitVec 32} (hiface : iface ≠ .other) :
    stmmcPltfrInitIface iface txDelay rxDelay grf .socCon1 &&& 0x41C0 = iface.selected := by
  have hwords : ∀ {w w' : BitVec 32}, (w >>> 16) &&& 0x01C0 = 0x01C0 →
      (w' >>> 16) &&& 0x01C0 = 0#32 → (w' >>> 16) &&& 0x4000 = 0x4000 →
      grfWrite (grfWrite (grf .socCon1) w) w' &&& 0x41C0 = w &&& 0x01C0 ||| w' &&& 0x4000 :=
    fun hw hkeep hw' => by
      rw [show (0x41C0 : BitVec 32) = 0x01C0 ||| 0x4000 from rfl, BitVec.and_or_distrib_left,
        grfWrite_keep hkeep, grfWrite_set hw, grfWrite_set hw']
  cases iface with
  | rgmii =>
    rw [stmmcPltfrInitIface, setRgmii_con1]
    exact hwords rfl rfl rfl
  | rmii =>
    rw [stmmcPltfrInitIface, setRmii, grfWritel_self, grfWritel_self]
    exact hwords rfl rfl rfl
  | other => exact absurd rfl hiface

/-- The interface is chosen in the fields of the GMAC. -/
theorem pltfrInit_foreign {txDelay rxDelay : BitVec 32} :
    stmmcPltfrInitIface iface txDelay rxDelay grf .socCon1 &&& ~~~gmacCon1Bits =
      grf .socCon1 &&& ~~~gmacCon1Bits := by
  have hwords : ∀ {w w' : BitVec 32}, (w >>> 16) &&& ~~~gmacCon1Bits = 0#32 →
      (w' >>> 16) &&& ~~~gmacCon1Bits = 0#32 →
      grfWrite (grfWrite (grf .socCon1) w) w' &&& ~~~gmacCon1Bits =
        grf .socCon1 &&& ~~~gmacCon1Bits :=
    fun hw hw' => (grfWrite_keep hw').trans (grfWrite_keep hw)
  cases iface with
  | rgmii =>
    rw [stmmcPltfrInitIface, setRgmii_con1]
    exact hwords rfl rfl
  | rmii =>
    rw [stmmcPltfrInitIface, setRmii, grfWritel_self, grfWritel_self]
    exact hwords rfl rfl
  | other => rfl

theorem PhyIface.ClockIs.congr {con1 con1' : BitVec 32} (h : iface.ClockIs speed con1)
    (heq : con1' &&& iface.clockBits = con1 &&& iface.clockBits) : iface.ClockIs speed con1' := by
  cases iface with
  | rgmii => exact heq.trans h
  | rmii =>
    have hpart : ∀ bits : BitVec 32, 0x0C00 &&& bits = bits → con1' &&& bits = con1 &&& bits :=
      fun _ hsub => Bits.and_congr_of_subset hsub heq
    exact ⟨(hpart _ rfl).trans h.1, (hpart _ rfl).trans h.2⟩
  | other => trivial

end Writes

/-! ## What each step keeps -/

section Steps

variable {c : LinkConf} {iface : PhyIface} {s : PlatLink} {phydev : PhyDevice} {phyInitEee : Int}
  {a : SpeedAct}

/-- Both selections are disjoint from the clock. -/
theorem clockBits_select (iface : PhyIface) : iface.clockBits &&& 0x41C0 = 0#32 := by
  cases iface <;> rfl

theorem clockBits_foreign (iface : PhyIface) : iface.clockBits &&& ~~~gmacCon1Bits = 0#32 := by
  cases iface <;> rfl

/-- A call with the link up caches the speed. -/
theorem adjustMac_speed (hlink : phydev.link = true) (l : LinkState) :
    (adjustMac c phydev l).speed = phydev.speed := by
  unfold adjustMac
  rw [if_pos hlink]

/-- After a call with the link up the clock is that of the speed, if the interface carries it. -/
theorem ClockBehind.clock_up (inv : ClockBehind iface s) (hlink : phydev.link = true)
    (h : iface.Supports phydev.speed) :
    iface.ClockIs phydev.speed
      ((adjustLinkFix c iface (some phydev) phyInitEee s).grf .socCon1) := by
  simp only [adjustLinkFix]
  split_ifs with hnew
  · exact fixMacSpeed_clock h
  · have hspeed : phydev.speed = s.link.speed := by
      by_contra hne
      exact hnew ⟨hlink, hne, by unfold PhyIface.Supports at h; omega⟩
    rw [hspeed] at h ⊢
    exact inv.clock h

theorem adjustLinkFix_keep {bits : BitVec 32} (phydev : Option PhyDevice)
    (h : iface.clockBits &&& bits = 0#32) :
    (adjustLinkFix c iface phydev phyInitEee s).grf .socCon1 &&& bits =
      s.grf .socCon1 &&& bits := by
  cases phydev with
  | none => rfl
  | some phydev =>
    simp only [adjustLinkFix]
    split_ifs
    · exact fixMacSpeed_keep h
    · rfl

theorem ClockBehind.adjustLink (hgmac : c.hasGmac = true) (inv : ClockBehind iface s)
    (phydev : Option PhyDevice) :
    ClockBehind iface (adjustLinkFix c iface phydev phyInitEee s) where
  caches := inv.caches.step hgmac (.adjustLink phydev phyInitEee)
  select := (adjustLinkFix_keep phydev (clockBits_select iface)).trans inv.select
  clock := by
    cases phydev with
    | none => exact inv.clock
    | some phydev =>
      have hcached : (adjustLinkFix c iface (some phydev) phyInitEee s).link.speed =
          (adjustMac c phydev s.link).speed := rfl
      rw [hcached]
      intro hs
      cases hlink : phydev.link with
      | true =>
        rw [adjustMac_speed hlink] at hs ⊢
        exact inv.clock_up hlink hs
      | false =>
        have hgrf : (adjustLinkFix c iface (some phydev) phyInitEee s).grf = s.grf := by
          simp [adjustLinkFix, hlink]
        rw [hgrf]
        rcases (adjustMac_down (c := c) (s := s.link) hlink).2 with heq | ⟨hspeed, -⟩
        · rw [heq] at hs ⊢
          exact inv.clock hs
        · rw [hspeed] at hs
          unfold PhyIface.Supports at hs
          omega

theorem ClockBehind.step (hgmac : c.hasGmac = true) (inv : ClockBehind iface s)
    (ha : a.Foreign) : ClockBehind iface (speedStep c iface s a) := by
  cases a with
  | opened regs =>
    refine ⟨⟨⟨fun h => ?_, fun h => ?_⟩, fun h => absurd rfl h⟩, fun h => ?_, inv.select⟩
    · unfold SupportedSpeed at h
      simp [speedStep, stmmacInitPhyCaches] at h
    · simp [speedStep, stmmacInitPhyCaches] at h
    · unfold PhyIface.Supports at h
      simp [speedStep, stmmacInitPhyCaches] at h
  | adjustLink phydev phyInitEee => exact inv.adjustLink hgmac phydev
  | setMac enable => exact ⟨inv.caches.step hgmac (.setMac enable), inv.clock, inv.select⟩
  | grfWritel w offset =>
    have hkeep : ∀ bits : BitVec 32, gmacCon1Bits &&& bits = bits →
        grfWritel w offset s.grf .socCon1 &&& bits = s.grf .socCon1 &&& bits := fun bits hsub =>
      grfWritel_keep fun hoff => by
        subst hoff
        have hforeign : (w >>> 16) &&& gmacCon1Bits = 0 := ha
        rw [← hsub, ← BitVec.and_assoc, hforeign]
        exact BitVec.zero_and
    exact ⟨inv.caches, fun h => (inv.clock h).congr (hkeep _ (by cases iface <;> rfl)),
      (hkeep _ rfl).trans inv.select⟩

/-- What the driver does to `SOC_CON1` beside its own fields: nothing. -/
theorem speedStep_foreign {con1 : BitVec 32}
    (h : s.grf .socCon1 &&& ~~~gmacCon1Bits = con1 &&& ~~~gmacCon1Bits) :
    (speedStep c iface s a).grf .socCon1 &&& ~~~gmacCon1Bits =
      foreignCon1 con1 a &&& ~~~gmacCon1Bits := by
  cases a with
  | opened regs => exact h
  | setMac enable => exact h
  | adjustLink phydev phyInitEee =>
    exact (adjustLinkFix_keep phydev (clockBits_foreign iface)).trans h
  | grfWritel w offset =>
    cases offset with
    | socCon1 =>
      simp only [speedStep, grfWritel_self]
      exact Bits.merge_and_congr h
    | socCon3 => exact h

end Steps

/-! ## Histories -/

section Histories

variable {c : LinkConf} {iface : PhyIface} {s : PlatLink} {as : List SpeedAct}

theorem ClockBehind.run (hgmac : c.hasGmac = true) (inv : ClockBehind iface s)
    (has : ∀ a ∈ as, a.Foreign) : ClockBehind iface (as.foldl (speedStep c iface) s) := by
  induction as generalizing s with
  | nil => exact inv
  | cons a as ih =>
    exact ih (inv.step hgmac (has a List.mem_cons_self)) fun b hb =>
      has b (List.mem_cons_of_mem _ hb)

theorem foreign_run {con1 : BitVec 32}
    (h : s.grf .socCon1 &&& ~~~gmacCon1Bits = con1 &&& ~~~gmacCon1Bits) :
    (as.foldl (speedStep c iface) s).grf .socCon1 &&& ~~~gmacCon1Bits =
      as.foldl foreignCon1 con1 &&& ~~~gmacCon1Bits := by
  induction as generalizing s con1 with
  | nil => exact h
  | cons a as ih => exact ih (speedStep_foreign h)

/-- Control word and clock together make the speed. -/
theorem clocked_of_set {speed : Int} {ctrl con1 : BitVec 32} (hmac : SpeedSet speed ctrl)
    (hclock : iface.ClockIs speed con1) (hselect : con1 &&& 0x41C0 = iface.selected)
    (hiface : iface ≠ .other) (h : iface.Supports speed) : Clocked iface speed ctrl con1 := by
  have hsupported : SupportedSpeed speed := by
    unfold PhyIface.Supports at h
    unfold SupportedSpeed
    omega
  have hport := hmac.port hsupported
  cases iface with
  | rgmii =>
    have hclk : ∀ {field : BitVec 32} {khz : Nat}, con1 &&& 0x3000 = field →
        (if field = 0 then some 125000 else if field = 0x3000 then some 25000
          else if field = 0x2000 then some 2500 else none) = some khz →
        PhyIface.rgmii.gmacClk con1 = some khz := fun hfield hkhz => by
      rw [PhyIface.gmacClk, hfield]
      exact hkhz
    refine ⟨hmac, ?_, nofun, hselect⟩
    rcases h with rfl | rfl | ⟨-, rfl⟩
    · exact ⟨2500, hclk hclock rfl, by simp [miiWidth, hport]⟩
    · exact ⟨25000, hclk hclock rfl, by simp [miiWidth, hport]⟩
    · exact ⟨125000, hclk hclock rfl, by simp [miiWidth, hport]⟩
  | rmii =>
    have hclk : ∀ {field : BitVec 32} {khz : Nat}, con1 &&& 0x0800 = field →
        (if field = 0 then some 2500 else some 25000) = some khz →
        PhyIface.rmii.gmacClk con1 = some khz := fun hfield hkhz => by
      rw [PhyIface.gmacClk, hfield]
      exact hkhz
    obtain ⟨hclock, hspeed⟩ := hclock
    rcases h with rfl | rfl | ⟨hrgmii, -⟩
    · exact ⟨hmac, ⟨2500, hclk hclock rfl, by simp [miiWidth, hport]⟩,
        fun _ => by simpa using hspeed, hselect⟩
    · refine ⟨hmac, ⟨25000, hclk hclock rfl, by simp [miiWidth, hport]⟩, fun _ => ?_, hselect⟩
      rw [hspeed]
      decide
    · cases hrgmii
  | other => exact absurd rfl hiface

end Histories

end Stmmac
