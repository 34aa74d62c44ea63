import Stmmac.Mac.Eee

/-!
# Link adjustment

`stmmac_adjust_link` changes the control word only where the PHY differs from the cached
`oldduplex` and `speed`, which are reset when the link goes down. The caches never run ahead of
the word, so the bits that the PHY decides are after each call what a full recomputation gives.
-/

namespace Stmmac

open Library

/-- `struct mac_link`: the bits of the control word that depend on the link. -/
structure MacLink where
  port : BitVec 32
  duplex : BitVec 32
  speed : BitVec 32

/-- Set by `dwmac1000_setup` or `dwmac100_setup`. -/
def macLink (hasGmac : Bool) : MacLink :=
  if hasGmac then ⟨GmacControl.ps, GmacControl.dm, GmacControl.fes⟩
  else ⟨0x08000000, 0x00100000, 0⟩

structure LinkConf where
  hasGmac : Bool
  flowCtrl : BitVec 32
  pause : BitVec 32
  eee : EeeConf

/-- The fields of `struct phy_device` that the driver reads. -/
structure PhyDevice where
  link : Bool
  duplex : Int
  speed : Int
  pause : Bool
  duplex_eq : duplex = 0 ∨ duplex = 1

structure LinkState where
  regs : Regs
  oldlink : Bool
  speed : Int
  oldduplex : Int
  eee : Eee
  eeeEnabled : Bool

def flowRx : BitVec 32 := 1
def flowTx : BitVec 32 := 2

def dwmac1000FlowCtrl (regs : Regs) (duplex : Int) (fc pauseTime : BitVec 32) : Regs :=
  let flow : BitVec 32 := 0
  let flow := if hasBit fc flowRx then flow ||| 0x4 else flow
  let flow := if hasBit fc flowTx then flow ||| 0x2 else flow
  let flow := if duplex ≠ 0 then flow ||| pauseTime <<< 16 else flow
  writel regs flow gmacFlowCtrl

/-- Here `MAC_FLOW_CTRL` is at `0x1c`. -/
def dwmac100FlowCtrl (regs : Regs) (duplex : Int) (pauseTime : BitVec 32) : Regs :=
  let flow : BitVec 32 := 0x2
  let flow := if duplex ≠ 0 then flow ||| pauseTime <<< 16 else flow
  writel regs flow 0x1c

/-- The switch on a changed speed. -/
def adjustSpeed (hasGmac : Bool) (speed : Int) (ctrl : BitVec 32) : BitVec 32 :=
  let link := macLink hasGmac
  if speed = 1000 then
    if hasGmac then ctrl &&& ~~~link.port else ctrl
  else if speed = 100 ∨ speed = 10 then
    if hasGmac then
      let ctrl := ctrl ||| link.port
      if speed = 100 then ctrl ||| link.speed else ctrl &&& ~~~link.speed
    else ctrl &&& ~~~link.port
  else ctrl

def adjustDuplex (hasGmac : Bool) (duplex : Int) (ctrl : BitVec 32) : BitVec 32 :=
  if duplex = 0 then ctrl &&& ~~~(macLink hasGmac).duplex else ctrl ||| (macLink hasGmac).duplex

/-- `stmmac_adjust_link` up to the call of `stmmac_eee_init`. The callback `fix_mac_speed` writes
no register of the core. -/
def adjustMac (c : LinkConf) (phydev : PhyDevice) (s : LinkState) : LinkState :=
  if phydev.link then
    let ctrl := readl s.regs gmacControl
    let ctrl := if phydev.duplex ≠ s.oldduplex then adjustDuplex c.hasGmac phydev.duplex ctrl
      else ctrl
    let regs := if phydev.pause then
        if c.hasGmac then dwmac1000FlowCtrl s.regs phydev.duplex c.flowCtrl c.pause
        else dwmac100FlowCtrl s.regs phydev.duplex c.pause
      else s.regs
    let ctrl := if phydev.speed ≠ s.speed then adjustSpeed c.hasGmac phydev.speed ctrl else ctrl
    { s with
      regs := writel regs ctrl gmacControl
      oldduplex := phydev.duplex
      speed := phydev.speed
      oldlink := true }
  else if s.oldlink then { s with oldlink := false, speed := 0, oldduplex := -1 }
  else s

def stmmacAdjustLink (c : LinkConf) (phydev : Option PhyDevice) (phyInitEee : Int)
    (s : LinkState) : LinkState :=
  match phydev with
  | none => s
  | some phydev =>
    let s := adjustMac c phydev s
    let (regs, eee, enabled) := stmmacEeeInit c.eee phyInitEee phydev.link s.regs s.eee
    { s with regs := regs, eee := eee, eeeEnabled := enabled }

/-- The caches that `stmmac_init_phy` sets. -/
def stmmacInitPhyCaches (s : LinkState) : LinkState :=
  { s with oldlink := false, speed := 0, oldduplex := -1 }

inductive LinkAct where
  | adjustLink (phydev : Option PhyDevice) (phyInitEee : Int)
  | setMac (enable : Bool)

def linkStep (c : LinkConf) (s : LinkState) : LinkAct → LinkState
  | .adjustLink phydev phyInitEee => stmmacAdjustLink c phydev phyInitEee s
  | .setMac enable => { s with regs := stmmacSetMac s.regs enable }

/-! ## Full recomputation -/

def SupportedSpeed (speed : Int) : Prop := speed = 10 ∨ speed = 100 ∨ speed = 1000

/-- Port select and speed bit are those of a supported speed. -/
structure SpeedSet (speed : Int) (ctrl : BitVec 32) : Prop where
  port : SupportedSpeed speed → hasBit ctrl GmacControl.ps = decide (speed ≠ 1000)
  fes : speed = 10 ∨ speed = 100 → hasBit ctrl GmacControl.fes = decide (speed = 100)

def DuplexSet (duplex : Int) (ctrl : BitVec 32) : Prop :=
  hasBit ctrl GmacControl.dm = decide (duplex ≠ 0)

/-- The bits that the PHY decides. -/
def phyBits : BitVec 32 := GmacControl.ps ||| GmacControl.fes ||| GmacControl.dm

/-- `ctrl` is `left` with the bits that the PHY decides computed anew. -/
structure Recomputed (phydev : PhyDevice) (left ctrl : BitVec 32) : Prop where
  speed : SpeedSet phydev.speed ctrl
  duplex : DuplexSet phydev.duplex ctrl
  others : ctrl &&& ~~~phyBits = left &&& ~~~phyBits

/-- The caches do not run ahead of the control word. -/
structure CachesBehind (s : LinkState) : Prop where
  speed : SpeedSet s.speed (readl s.regs gmacControl)
  duplex : s.oldduplex ≠ -1 → DuplexSet s.oldduplex (readl s.regs gmacControl)

section Words

variable {w w' other : BitVec 32} {speed duplex : Int}

theorem adjustDuplex_gmac : adjustDuplex true duplex w =
    if duplex = 0 then w &&& ~~~GmacControl.dm else w ||| GmacControl.dm := rfl

theorem adjustSpeed_gmac : adjustSpeed true speed w =
    if speed = 1000 then w &&& ~~~GmacControl.ps
    else if speed = 100 ∨ speed = 10 then
      if speed = 100 then (w ||| GmacControl.ps) ||| GmacControl.fes
      else (w ||| GmacControl.ps) &&& ~~~GmacControl.fes
    else w := rfl

theorem adjustDuplex_and (h : GmacControl.dm &&& other = 0) :
    adjustDuplex true duplex w &&& other = w &&& other := by
  rw [adjustDuplex_gmac]
  split_ifs
  · exact Bits.andNot_and_of_disjoint h
  · exact Bits.or_and_of_disjoint h

theorem adjustSpeed_and (hps : GmacControl.ps &&& other = 0)
    (hfes : GmacControl.fes &&& other = 0) :
    adjustSpeed true speed w &&& other = w &&& other := by
  have hport : (w ||| GmacControl.ps) &&& other = w &&& other := Bits.or_and_of_disjoint hps
  rw [adjustSpeed_gmac]
  split_ifs
  · exact Bits.andNot_and_of_disjoint hps
  · exact (Bits.or_and_of_disjoint hfes).trans hport
  · exact (Bits.andNot_and_of_disjoint hfes).trans hport
  · rfl

theorem duplexSet_adjustDuplex : DuplexSet duplex (adjustDuplex true duplex w) := by
  unfold DuplexSet
  rw [adjustDuplex_gmac]
  split_ifs with h
  · simpa [h] using hasBit_andNot_self
  · simpa [h] using hasBit_or_self (by decide)

theorem speedSet_adjustSpeed : SpeedSet speed (adjustSpeed true speed w) := by
  have hport : hasBit (w ||| GmacControl.ps) GmacControl.ps = true := hasBit_or_self (by decide)
  have hdisj : GmacControl.fes &&& GmacControl.ps = 0 := by decide
  rw [adjustSpeed_gmac]
  split_ifs with h1000 hlow h100
  · exact ⟨fun _ => by simpa [h1000] using hasBit_andNot_self, fun h => by omega⟩
  · refine ⟨fun _ => ?_, fun _ => ?_⟩
    · rw [hasBit_congr (Bits.or_and_of_disjoint hdisj), hport]
      simpa using h1000
    · rw [hasBit_or_self (by decide)]
      simpa using h100
  · refine ⟨fun _ => ?_, fun _ => ?_⟩
    · rw [hasBit_congr (Bits.andNot_and_of_disjoint hdisj), hport]
      simpa using h1000
    · rw [hasBit_andNot_self]
      simpa using h100
  · exact ⟨fun h => by unfold SupportedSpeed at h; omega, fun h => by omega⟩

/-- Writes to other bits keep what is set. -/
theorem SpeedSet.congr (h : SpeedSet speed w) (hps : w' &&& GmacControl.ps = w &&& GmacControl.ps)
    (hfes : w' &&& GmacControl.fes = w &&& GmacControl.fes) : SpeedSet speed w' :=
  ⟨fun hs => (hasBit_congr hps).trans (h.port hs), fun hs => (hasBit_congr hfes).trans (h.fes hs)⟩

theorem DuplexSet.congr (h : DuplexSet duplex w)
    (hdm : w' &&& GmacControl.dm = w &&& GmacControl.dm) : DuplexSet duplex w' :=
  (hasBit_congr hdm).trans h

end Words

/-! ## What each step keeps -/

section Steps

variable {c : LinkConf} {s : LinkState} {phydev : PhyDevice} {phyInitEee : Int} {off : Nat}

/-- The control word after a call with the link up. -/
theorem adjustMac_ctrl (hlink : phydev.link = true) :
    readl (adjustMac c phydev s).regs gmacControl =
      let ctrl := readl s.regs gmacControl
      let ctrl := if phydev.duplex ≠ s.oldduplex then adjustDuplex c.hasGmac phydev.duplex ctrl
        else ctrl
      if phydev.speed ≠ s.speed then adjustSpeed c.hasGmac phydev.speed ctrl else ctrl := by
  unfold adjustMac
  rw [if_pos hlink]
  simp

theorem adjustMac_down (hlink : phydev.link = false) :
    (adjustMac c phydev s).regs = s.regs ∧
      (adjustMac c phydev s = s ∨
        (adjustMac c phydev s).speed = 0 ∧ (adjustMac c phydev s).oldduplex = -1) := by
  unfold adjustMac
  rw [if_neg (by simp [hlink])]
  split_ifs
  · exact ⟨rfl, .inr ⟨rfl, rfl⟩⟩
  · exact ⟨rfl, .inl rfl⟩

theorem stmmacAdjustLink_ctrl :
    readl (stmmacAdjustLink c (some phydev) phyInitEee s).regs gmacControl =
      readl (adjustMac c phydev s).regs gmacControl :=
  readl_stmmacEeeInit (by decide) (by decide)

/-- The bits that the PHY does not decide are kept in every state. -/
theorem adjustMac_others (hgmac : c.hasGmac = true) (phydev : PhyDevice) :
    readl (adjustMac c phydev s).regs gmacControl &&& ~~~phyBits =
      readl s.regs gmacControl &&& ~~~phyBits := by
  cases hlink : phydev.link with
  | false => rw [(adjustMac_down hlink).1]
  | true =>
    rw [adjustMac_ctrl hlink, hgmac]
    dsimp only
    have hdup : ∀ w, adjustDuplex true phydev.duplex w &&& ~~~phyBits = w &&& ~~~phyBits :=
      fun _ => adjustDuplex_and (by decide)
    have hspeed : ∀ w, adjustSpeed true phydev.speed w &&& ~~~phyBits = w &&& ~~~phyBits :=
      fun _ => adjustSpeed_and (by decide) (by decide)
    split_ifs <;> simp only [hspeed, hdup]

/-- With the link up the word is the one that a full recomputation gives. -/
theorem CachesBehind.recomputed (hgmac : c.hasGmac = true) (inv : CachesBehind s)
    (hlink : phydev.link = true) :
    Recomputed phydev (readl s.regs gmacControl)
      (readl (adjustMac c phydev s).regs gmacControl) := by
  have hothers := adjustMac_others (s := s) hgmac phydev
  rw [adjustMac_ctrl hlink, hgmac] at hothers ⊢
  dsimp only at hothers ⊢
  set w := readl s.regs gmacControl
  set d := if phydev.duplex ≠ s.oldduplex then adjustDuplex true phydev.duplex w else w with hd
  have hdup : DuplexSet phydev.duplex d := by
    rw [hd]
    split_ifs with h
    · exact duplexSet_adjustDuplex
    · have heq : phydev.duplex = s.oldduplex := not_not.mp h
      have hne : phydev.duplex ≠ -1 := by
        rcases phydev.duplex_eq with h | h <;> omega
      exact heq ▸ inv.duplex (heq ▸ hne)
  have hkeep : ∀ bits, GmacControl.dm &&& bits = 0 → d &&& bits = w &&& bits := by
    intro bits h
    rw [hd]
    split_ifs
    · exact adjustDuplex_and h
    · rfl
  refine ⟨?_, ?_, hothers⟩
  · split_ifs with h
    · exact speedSet_adjustSpeed
    · have heq : phydev.speed = s.speed := not_not.mp h
      exact heq ▸ inv.speed.congr (hkeep _ (by decide)) (hkeep _ (by decide))
  · split_ifs
    · exact hdup.congr (adjustSpeed_and (by decide) (by decide))
    · exact hdup

theorem CachesBehind.adjustMac (hgmac : c.hasGmac = true) (inv : CachesBehind s)
    (phydev : PhyDevice) : CachesBehind (adjustMac c phydev s) := by
  cases hlink : phydev.link with
  | true =>
    have hword := inv.recomputed hgmac hlink
    have hcaches : (Stmmac.adjustMac c phydev s).speed = phydev.speed ∧
        (Stmmac.adjustMac c phydev s).oldduplex = phydev.duplex := by
      unfold Stmmac.adjustMac
      rw [if_pos hlink]
      exact ⟨rfl, rfl⟩
    exact ⟨hcaches.1.symm ▸ hword.speed, fun _ => hcaches.2.symm ▸ hword.duplex⟩
  | false =>
    obtain ⟨hregs, heq | ⟨hspeed, hduplex⟩⟩ := adjustMac_down (c := c) (s := s) hlink
    · exact heq.symm ▸ inv
    · refine ⟨?_, fun h => absurd hduplex h⟩
      rw [hspeed]
      exact ⟨fun h => by unfold SupportedSpeed at h; omega, fun h => by omega⟩

theorem CachesBehind.setMac (inv : CachesBehind s) (enable : Bool) :
    CachesBehind { s with regs := stmmacSetMac s.regs enable } := by
  have hkeep : ∀ bits, (macRnableRx ||| macEnableTx) &&& bits = 0 →
      readl (stmmacSetMac s.regs enable) gmacControl &&& bits =
        readl s.regs gmacControl &&& bits := by
    intro bits h
    unfold stmmacSetMac
    dsimp only
    rw [readl_writel_self]
    split_ifs
    · exact Bits.or_and_of_disjoint h
    · exact Bits.andNot_and_of_disjoint (by rwa [BitVec.or_comm])
  exact
    { speed := inv.speed.congr (hkeep _ (by decide)) (hkeep _ (by decide))
      duplex := fun h => (inv.duplex h).congr (hkeep _ (by decide)) }

theorem CachesBehind.step (hgmac : c.hasGmac = true) (inv : CachesBehind s) (a : LinkAct) :
    CachesBehind (linkStep c s a) := by
  cases a with
  | setMac enable => exact inv.setMac enable
  | adjustLink phydev phyInitEee =>
    cases phydev with
    | none => exact inv
    | some phydev =>
      have hmac := inv.adjustMac hgmac phydev
      have hctrl : readl (linkStep c s (.adjustLink (some phydev) phyInitEee)).regs gmacControl =
        readl (Stmmac.adjustMac c phydev s).regs gmacControl := stmmacAdjustLink_ctrl
      exact ⟨hctrl ▸ hmac.speed, fun h => hctrl ▸ hmac.duplex h⟩

end Steps

/-! ## Histories -/

section Histories

variable {c : LinkConf} {s : LinkState} {as mid : List LinkAct}

theorem CachesBehind.run (hgmac : c.hasGmac = true) (inv : CachesBehind s) (as : List LinkAct) :
    CachesBehind (as.foldl (linkStep c) s) := by
  induction as generalizing s with
  | nil => exact inv
  | cons a as ih => exact ih (inv.step hgmac a)

/-- Adjustments keep the bits that the PHY does not decide. -/
theorem adjustLinks_others (hgmac : c.hasGmac = true)
    (hmid : ∀ a ∈ mid, ∃ phydev phyInitEee, a = .adjustLink phydev phyInitEee) :
    readl (mid.foldl (linkStep c) s).regs gmacControl &&& ~~~phyBits =
      readl s.regs gmacControl &&& ~~~phyBits := by
  induction mid generalizing s with
  | nil => rfl
  | cons a mid ih =>
    rw [List.foldl_cons, ih fun b hb => hmid b (List.mem_cons_of_mem _ hb)]
    obtain ⟨phydev, phyInitEee, rfl⟩ := hmid a List.mem_cons_self
    cases phydev with
    | none => rfl
    | some phydev =>
      have hctrl : readl (linkStep c s (.adjustLink (some phydev) phyInitEee)).regs gmacControl =
        readl (adjustMac c phydev s).regs gmacControl := stmmacAdjustLink_ctrl
      rw [hctrl, adjustMac_others hgmac phydev]

/-- After every history `as` followed by adjustments only, one more with the link up leaves the
control word that a full recomputation would make of the one that `as` left. With `as` empty or
ending in a call of `stmmac_set_mac`, that is the initial word or the one of the last such
call. -/
theorem adjustLink_recomputes (c : LinkConf) (hgmac : c.hasGmac = true) (s : LinkState)
    (as mid : List LinkAct)
    (hmid : ∀ a ∈ mid, ∃ phydev phyInitEee, a = .adjustLink phydev phyInitEee)
    (phydev : PhyDevice) (phyInitEee : Int) (hlink : phydev.link = true) :
    let left := as.foldl (linkStep c) (stmmacInitPhyCaches s)
    let last := (mid ++ [LinkAct.adjustLink (some phydev) phyInitEee]).foldl (linkStep c) left
    Recomputed phydev (readl left.regs gmacControl) (readl last.regs gmacControl) := by
  intro left last
  have hinit : CachesBehind (stmmacInitPhyCaches s) :=
    { speed := ⟨fun h => by unfold SupportedSpeed at h; simp [stmmacInitPhyCaches] at h,
        fun h => by simp [stmmacInitPhyCaches] at h⟩
      duplex := fun h => absurd rfl h }
  have inv : CachesBehind (mid.foldl (linkStep c) left) := (hinit.run hgmac as).run hgmac mid
  have hlast : readl last.regs gmacControl =
      readl (adjustMac c phydev (mid.foldl (linkStep c) left)).regs gmacControl := by
    simp only [last, List.foldl_append, List.foldl_cons, List.foldl_nil]
    exact stmmacAdjustLink_ctrl
  have hword := inv.recomputed hgmac hlink
  rw [hlast]
  exact ⟨hword.speed, hword.duplex, hword.others.trans (adjustLinks_others hgmac hmid)⟩

/-- 1000 Mb/s, link loss, then 100 Mb/s half duplex, the transmitter and the receiver enabled
before. -/
theorem adjustLink_recomputes_100 :
    let c : LinkConf := ⟨true, 0, 0, ⟨0, false, 0⟩⟩
    let phy (link : Bool) (speed : Int) : PhyDevice := ⟨link, 0, speed, false, .inl rfl⟩
    let left := [LinkAct.adjustLink (some (phy true 1000)) 0, .setMac true].foldl (linkStep c)
      (stmmacInitPhyCaches ⟨fun _ => 0, true, 0, 0, ⟨false, false⟩, false⟩)
    let last := ([LinkAct.adjustLink (some (phy false 0)) 0] ++
      [LinkAct.adjustLink (some (phy true 100)) 0]).foldl (linkStep c) left
    Recomputed (phy true 100) (readl left.regs gmacControl) (readl last.regs gmacControl) := by
  intro c phy left last
  exact adjustLink_recomputes c rfl _ _ _
    (fun a ha => ⟨some (phy false 0), 0, List.mem_singleton.mp ha⟩) (phy true 100) 0 rfl

end Histories

end Stmmac
