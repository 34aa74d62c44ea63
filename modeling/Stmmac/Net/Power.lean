import Stmmac.Library.Runs
import Stmmac.Platform.Clk

/-!
# Clocks and PHY supply over the life of an interface

The entry points of a GMAC core with the calls they make of `gmac_clk_enable` and `phy_power_on` of
the platform, and with the calls that reach registers of the core. A register can be reached only
while the clocks run. While an interface is open they do, and the orders of entry points in which a
register is reached without them are described exactly.
-/

namespace Stmmac

open Library

/-! ## What the entry points do -/

/-- Calls that read or write registers of the core. -/
inductive CoreUse where
  | hwInit | mdio | initDmaEngine | setUmacAddr | coreInit | setMac | dmaMode | mmcSetup | startDma
  | stopDma | eeeInit | rxWatchdog | ctrlAne | pmt | interrupt | entry | lpi
  deriving DecidableEq, Repr

inductive PmOp where
  | phyPowerOn (enable : Bool)
  | gmacClkEnable (req : ClkReq)
  | access (u : CoreUse)

structure PmConf where
  /-- The PHY is on the MDIO bus. -/
  usesPhy : Bool
  useRiwt : Bool
  pcs : Bool

/-- Where `stmmac_open` gives up: at the MDIO bus or the PHY, before a register has been reached or
after, at the reset of the DMA, or at an interrupt line. -/
inductive OpenEnd where
  | noBus | noPhy | noDma | noIrq | opened
  deriving DecidableEq, Repr

/-- `alloc_etherdev` fails, or something after the version register has been read. -/
inductive ProbeEnd where
  | noNetdev | failed | probed
  deriving DecidableEq, Repr

/-- The clocks off; nothing can fail. -/
def clkOff : PmOp := .gmacClkEnable ⟨false, fun _ => true⟩

/-- `ok` tells the outcomes of the calls of `clk_prepare_enable`. -/
def clkOn (ok : Clk → Bool) : PmOp := .gmacClkEnable ⟨true, ok⟩

/-- `stmmac_open` after the PHY is attached, up to where it ends. -/
def openCoreOps (c : PmConf) : OpenEnd → List PmOp
  | .noBus | .noPhy => [clkOff]
  | .noDma => [.access .initDmaEngine, clkOff]
  | .noIrq => [.access .initDmaEngine, .access .setUmacAddr, .access .coreInit, clkOff]
  | .opened =>
    [.access .initDmaEngine, .access .setUmacAddr, .access .coreInit, .access .setMac,
      .access .dmaMode, .access .mmcSetup, .access .startDma, .access .eeeInit] ++
    (if c.useRiwt then [.access .rxWatchdog] else []) ++
    (if c.pcs then [.access .ctrlAne] else [])

/-- The address register that `stmmac_check_ether_addr` may read is not listed: the clocks are as
for the access that follows, or the call ends as `noPhy`. -/
def stmmacOpenOps (c : PmConf) (ok : Clk → Bool) (e : OpenEnd) : List PmOp :=
  [.phyPowerOn true, clkOn ok] ++ (if c.usesPhy && e != .noBus then [.access .mdio] else []) ++
    openCoreOps c e

def stmmacReleaseOps : List PmOp :=
  [.access .stopDma, .access .setMac, .phyPowerOn false, clkOff]

/-- `stmmac_suspend` of a running interface; `wakeup` is what `device_may_wakeup` returns. -/
def stmmacSuspendOps (wakeup : Bool) : List PmOp :=
  .access .stopDma ::
    if wakeup then [.access .pmt] else [.access .setMac, clkOff, .phyPowerOn false]

def stmmacResumeOps (ok : Clk → Bool) (wakeup : Bool) : List PmOp :=
  (if wakeup then [.access .pmt] else [clkOn ok, .phyPowerOn true]) ++
    [.access .setMac, .access .startDma]

/-- `stmmac_dvr_remove` up to `unregister_netdev`, which closes an interface that is up. -/
def stmmacRemoveOps (running : Bool) : List PmOp :=
  [.access .stopDma, .access .setMac] ++ if running then stmmacReleaseOps else []

/-! ## States and steps -/

/-- How far the callbacks of `dev_pm_ops` have put the device to sleep. -/
inductive Sleep where
  | awake
  | suspended (wakeup : Bool)
  | frozen
  deriving DecidableEq, Repr

namespace Sleep

def isSuspended : Sleep → Bool
  | suspended _ => true
  | awake | frozen => false

end Sleep

structure PmState where
  clk : BspClk
  /-- What `phy_power_on` was last called with. -/
  phyPower : Bool
  /-- There is a net device. -/
  bound : Bool
  /-- `netif_running`. -/
  running : Bool
  /-- The interrupt lines are requested. -/
  irqs : Bool
  /-- `priv->phydev` is set; the files of the PHY in sysfs exist just then. -/
  phydev : Bool
  sleep : Sleep
  /-- What reached the registers, and whether the clocks ran. -/
  accesses : List (CoreUse × Bool)

/-- Each clock that the platform provides is enabled, `clk_mac` among them. -/
def BspClk.Clocked (s : BspClk) : Prop :=
  ∀ clk ∈ .clkMac :: s.switched, disables s.calls clk < enables s.calls clk

instance (s : BspClk) : Decidable s.Clocked := inferInstanceAs (Decidable (∀ _ ∈ _, _))

namespace PmState

def op (s : PmState) : PmOp → PmState
  | .phyPowerOn enable => { s with phyPower := enable }
  | .gmacClkEnable req => { s with clk := gmacClkEnable s.clk req }
  | .access u => { s with accesses := s.accesses ++ [(u, decide s.clk.Clocked)] }

def ops (s : PmState) (l : List PmOp) : PmState := l.foldl op s

/-- `stmmac_open`, which leaves `priv->phydev` as it is when it fails at the PHY. -/
def stmmacOpen (c : PmConf) (ok : Clk → Bool) (e : OpenEnd) (s : PmState) : PmState :=
  { s.ops (stmmacOpenOps c ok e) with
    irqs := e == .opened
    phydev := s.phydev || c.usesPhy && e != .noBus && e != .noPhy }

def stmmacRelease (s : PmState) : PmState :=
  { s.ops stmmacReleaseOps with irqs := false, phydev := false }

end PmState

inductive PmAct where
  /-- `gmac_clk_init` and `stmmac_dvr_probe`; `got` is what `clk_get` provides. -/
  | probe (got : Clk → Bool) (e : ProbeEnd)
  | remove
  | ndoOpen (ok : Clk → Bool) (e : OpenEnd)
  | release
  | suspend (wakeup : Bool)
  | resume (ok : Clk → Bool) (wakeup : Bool)
  | freeze
  /-- `stmmac_restore`, also after a freeze that is thawed. -/
  | restore (ok : Clk → Bool) (e : OpenEnd)
  /-- `stmmac_interrupt`; the lines are shared, so at any time while they are requested. -/
  | interrupt
  /-- Reading or writing `phy_regValue` in sysfs. -/
  | phyRegValue
  /-- An entry point that the kernel calls while an interface is up, such as `stmmac_set_rx_mode`,
  `stmmac_ioctl` or a change of link. -/
  | entry
  /-- `eee_ctrl_timer` or `stmmac_tx_clean` writes the LPI control register. The timer arms itself
  again, and neither `stmmac_suspend` nor every `stmmac_release` stops it. -/
  | timer

/-- Without a PHY on the MDIO bus nothing fails there. -/
def OpenEnd.Possible (c : PmConf) (e : OpenEnd) : Prop :=
  e = .noBus ∨ e = .noPhy → c.usesPhy = true

instance (c : PmConf) (e : OpenEnd) : Decidable (e.Possible c) :=
  inferInstanceAs (Decidable (_ → _))

namespace PmAct

/-- When the kernel makes the call. User space stands still while the device sleeps. -/
def Enabled (c : PmConf) (s : PmState) : PmAct → Prop
  | probe got e => s.bound = false ∧ (e = .probed → got .clkMac = true)
  | remove => s.bound = true ∧ s.sleep = .awake
  | ndoOpen _ e => s.bound = true ∧ s.sleep = .awake ∧ s.running = false ∧ e.Possible c
  | release => s.sleep = .awake ∧ s.running = true
  | suspend _ | freeze => s.bound = true ∧ s.sleep = .awake
  | resume _ _ => s.sleep.isSuspended = true
  | restore _ e => s.sleep = .frozen ∧ e.Possible c
  | interrupt => s.irqs = true
  | phyRegValue => s.sleep = .awake ∧ s.phydev = true
  | entry => s.sleep = .awake ∧ s.running = true
  | timer => s.bound = true

instance (c : PmConf) (s : PmState) : ∀ a, Decidable (Enabled c s a)
  | probe _ _ | remove | ndoOpen _ _ | release | suspend _ | freeze | restore _ _ | phyRegValue
  | entry => inferInstanceAs (Decidable (_ ∧ _))
  | resume _ _ | interrupt | timer => inferInstanceAs (Decidable (_ = _))

def apply (c : PmConf) (s : PmState) : PmAct → PmState
  | probe got e =>
    let s := { s with clk := gmacClkInit got s.clk }
    let s := if e = .noNetdev then s else s.op (.access .hwInit)
    { s with bound := e == .probed }
  | remove =>
    { s.ops (stmmacRemoveOps s.running) with
      bound := false, running := false, irqs := false, phydev := false }
  | ndoOpen ok e => { s.stmmacOpen c ok e with running := e == .opened }
  | release => { s.stmmacRelease with running := false }
  | suspend wakeup =>
    { (if s.running then s.ops (stmmacSuspendOps wakeup) else s) with sleep := .suspended wakeup }
  | resume ok wakeup =>
    { (if s.running then s.ops (stmmacResumeOps ok wakeup) else s) with sleep := .awake }
  | freeze => { (if s.running then s.stmmacRelease else s) with sleep := .frozen }
  | restore ok e => { (if s.running then s.stmmacOpen c ok e else s) with sleep := .awake }
  | interrupt => s.op (.access .interrupt)
  | phyRegValue => s.op (.access .mdio)
  | entry => s.op (.access .entry)
  | timer => s.op (.access .lpi)

end PmAct

def pmStep (c : PmConf) (s : PmState) (a : PmAct) : Option PmState :=
  if a.Enabled c s then some (a.apply c s) else none

/-! ## What should hold -/

/-- Every register was reached with the clocks running. -/
def PmState.AllClocked (s : PmState) : Prop := ∀ a ∈ s.accesses, a.2 = true

/-- An open interface that is not asleep with its clocks off. -/
def PmState.on (s : PmState) : Bool := s.irqs && s.sleep != .suspended false

namespace PmAct

/-- The calls that find the clocks running where they need them, from what the kernel knows of the
interface and whether its clocks can be enabled. `running` without interrupt lines is an interface
that `stmmac_restore` failed to open again. -/
def FindsClocks (s : PmState) : PmAct → Prop
  | probe _ e => e = .noNetdev
  | remove | release | phyRegValue | entry => s.irqs = true
  | ndoOpen ok _ => ∀ clk ∈ s.clk.switched, ok clk = true
  | restore ok _ => s.running = true → ∀ clk ∈ s.clk.switched, ok clk = true
  | suspend _ | freeze => s.running = true → s.irqs = true
  | resume ok wakeup =>
    s.running = true →
      s.sleep = .suspended true ∨ wakeup = false ∧ ∀ clk ∈ s.clk.switched, ok clk = true
  | interrupt => s.sleep ≠ .suspended false
  | timer => s.on = true

/-- An open that gives up before it reaches a register has switched its clocks on. Else it disables
one that was not enabled, and no later enable makes up for that. -/
def SwitchesClocks (s : PmState) : PmAct → Prop
  | ndoOpen ok e => e = .noBus → ∀ clk ∈ s.clk.switched, ok clk = true
  | restore ok e => e = .noBus → s.running = true → ∀ clk ∈ s.clk.switched, ok clk = true
  | _ => True

/-- A call that does not fail to open the interface. -/
def Opens : PmAct → Prop
  | ndoOpen _ e | restore _ e => e = .opened
  | _ => True

instance (s : PmState) : ∀ a, Decidable (FindsClocks s a)
  | probe _ _ | remove | release | phyRegValue | entry | timer =>
    inferInstanceAs (Decidable (_ = _))
  | ndoOpen _ _ => inferInstanceAs (Decidable (∀ _ ∈ _, _))
  | restore _ _ => inferInstanceAs (Decidable (_ → ∀ _ ∈ _, _))
  | suspend _ | freeze => inferInstanceAs (Decidable (_ → _))
  | resume _ _ => inferInstanceAs (Decidable (_ → _ ∨ _ ∧ ∀ _ ∈ _, _))
  | interrupt => inferInstanceAs (Decidable (_ ≠ _))

instance (s : PmState) : ∀ a, Decidable (SwitchesClocks s a)
  | ndoOpen _ _ => inferInstanceAs (Decidable (_ → ∀ _ ∈ _, _))
  | restore _ _ => inferInstanceAs (Decidable (_ → _ → ∀ _ ∈ _, _))
  | probe _ _ | remove | release | suspend _ | resume _ _ | freeze | interrupt | phyRegValue
  | entry | timer => .isTrue trivial

instance : ∀ a, Decidable (Opens a)
  | ndoOpen _ _ | restore _ _ => inferInstanceAs (Decidable (_ = _))
  | probe _ _ | remove | release | suspend _ | resume _ _ | freeze | interrupt | phyRegValue
  | entry | timer => .isTrue trivial

end PmAct

/-- Each clock is enabled once more than it is disabled if the flag says so and the platform
switches it, and as often otherwise. -/
def ClkCounts (s : BspClk) : Prop :=
  ∀ clk, enables s.calls clk =
    disables s.calls clk + if s.clkEnable = true ∧ clk ∈ s.switched then 1 else 0

/-- An interface is up only while there is a net device, and has its interrupt lines only while it
is up; a frozen one does not have them. -/
structure PmShape (s : PmState) : Prop where
  bound : s.running = true → s.bound = true
  running : s.irqs = true → s.running = true
  frozen : s.sleep = .frozen → s.irqs = false
  unbound : s.bound = false → s.sleep = .awake ∧ s.phydev = false

/-- The clocks run exactly while the interface is open and not asleep without them. -/
structure PmInv (s : PmState) : Prop extends PmShape s where
  counts : ClkCounts s.clk
  flag : s.clk.clkEnable = s.on
  mac : s.bound = true → s.clk.provided .clkMac = true
  up : s.running = true → s.sleep.isSuspended = true → s.irqs = true

/-! ## The clocks -/

section Clocks

variable {s : BspClk} {req : ClkReq} {got : Clk → Bool} {clk : Clk}

theorem gmacClkEnable_flag (s : BspClk) (req : ClkReq) :
    (gmacClkEnable s req).clkEnable = req.enable := by
  unfold gmacClkEnable
  split_ifs <;> simp_all

theorem gmacClkEnable_platform (s : BspClk) (req : ClkReq) :
    (gmacClkEnable s req).provided = s.provided ∧
      (gmacClkEnable s req).switched = s.switched := by
  unfold gmacClkEnable
  split_ifs <;> exact ⟨rfl, rfl⟩

theorem clkMac_mem_switched : .clkMac ∈ s.switched ↔ s.provided .clkMac = true := by
  have hmem : Clk.clkMac ∈ clksSwitched s.phyIface := by cases s.phyIface <;> decide
  simp [BspClk.switched, hmem]

/-- Getting the clocks neither enables nor disables any. -/
theorem gmacClkInit_calls (got : Clk → Bool) (s : BspClk) (clk : Clk) :
    enables (gmacClkInit got s).calls clk = enables s.calls clk ∧
      disables (gmacClkInit got s).calls clk = disables s.calls clk := by
  have hsource : ∀ phyIface clockInput, ClkCall.prepareEnable clk true ∉
      clkSource phyIface clockInput ∧
        ClkCall.disableUnprepare clk ∉ clkSource phyIface clockInput := by
    intro phyIface clockInput
    unfold clkSource
    split_ifs <;> simp
  obtain ⟨hen, hdis⟩ := hsource s.phyIface s.clockInput
  unfold enables disables gmacClkInit
  constructor <;> simp [List.count_append, List.count_eq_zero.mpr, hen, hdis]

namespace ClkCounts

theorem init (h : ClkCounts s) (hoff : s.clkEnable = false) (got : Clk → Bool) :
    ClkCounts (gmacClkInit got s) := by
  intro clk
  obtain ⟨hen, hdis⟩ := gmacClkInit_calls got s clk
  have hclk := h clk
  rw [hen, hdis, hclk, hoff]
  simp [gmacClkInit]

/-- An enable that takes effect has to succeed for every clock. -/
theorem enable (h : ClkCounts s)
    (hok : req.enable = true → s.clkEnable = false → ∀ clk ∈ s.switched, req.ok clk = true) :
    ClkCounts (gmacClkEnable s req) := by
  have hnodup := s.nodup_switched
  cases hen : req.enable <;> cases hflag : s.clkEnable
  · rwa [gmacClkEnable_same (hen.trans hflag.symm)]
  · rw [gmacClkEnable_off hen hflag]
    intro clk
    have hclk := h clk
    rw [enables_append_disableUnprepare, disables_append_disableUnprepare hnodup, hclk, hflag]
    simp
  · rw [gmacClkEnable_on hen hflag]
    intro clk
    have hclk := h clk
    rw [enables_append_prepareEnable hnodup, disables_append_prepareEnable, hclk, hflag]
    have hiff : clk ∈ s.switched ∧ req.ok clk = true ↔ clk ∈ s.switched :=
      and_iff_left_of_imp (hok hen hflag clk)
    simp only [hiff]
    simp [BspClk.switched]
  · rwa [gmacClkEnable_same (hen.trans hflag.symm)]

theorem clocked_iff (h : ClkCounts s) (hmac : s.clkEnable = true → s.provided .clkMac = true) :
    s.Clocked ↔ s.clkEnable = true := by
  constructor
  · intro hclocked
    by_contra hoff
    have hlt := hclocked .clkMac List.mem_cons_self
    have hclk := h .clkMac
    simp only [hoff, false_and, if_false, Nat.add_zero] at hclk
    omega
  · intro hon clk hclk
    have hmem : clk ∈ s.switched := by
      rcases List.mem_cons.mp hclk with rfl | hclk
      · exact clkMac_mem_switched.mpr (hmac hon)
      · exact hclk
    have hcount := h clk
    rw [if_pos ⟨hon, hmem⟩] at hcount
    omega

/-- A clock that cannot be enabled does not run. -/
theorem not_clocked_of_refused (h : ClkCounts s) (hoff : s.clkEnable = false) (ok : Clk → Bool)
    (hclk : clk ∈ s.switched) (hok : ok clk = false) :
    ¬ (gmacClkEnable s ⟨true, ok⟩).Clocked := by
  intro hclocked
  have hmem : clk ∈ (gmacClkEnable s ⟨true, ok⟩).switched := by
    rwa [(gmacClkEnable_platform s ⟨true, ok⟩).2]
  have hlt := hclocked clk (List.mem_cons_of_mem _ hmem)
  have hcount := h clk
  rw [gmacClkEnable_on rfl hoff, enables_append_prepareEnable s.nodup_switched,
    disables_append_prepareEnable, hcount, hoff] at hlt
  simp [hok] at hlt

end ClkCounts

end Clocks

/-! ## Lists of calls -/

/-- The flag after a list of calls, and whether it was set whenever a register was reached. -/
def flagRun : Bool → List PmOp → Bool × Bool
  | flag, [] => (flag, true)
  | flag, .phyPowerOn _ :: l => flagRun flag l
  | _, .gmacClkEnable req :: l => flagRun req.enable l
  | flag, .access _ :: l =>
    let r := flagRun flag l
    (r.1, flag && r.2)

section Ops

variable {s : PmState} {l : List PmOp} {ok : Clk → Bool} {u : CoreUse}

section Frame

variable (s : PmState) (l : List PmOp)

/-- The calls change clocks, supply and history and nothing else. -/
theorem ops_frame : ∃ clk phyPower accesses, s.ops l =
    { s with clk := clk, phyPower := phyPower, accesses := accesses } := by
  induction l generalizing s with
  | nil => exact ⟨s.clk, s.phyPower, s.accesses, rfl⟩
  | cons a l ih => cases a <;> exact ih (s.op _)

@[simp] theorem ops_bound : (s.ops l).bound = s.bound := by
  obtain ⟨_, _, _, h⟩ := ops_frame s l
  rw [h]

@[simp] theorem ops_running : (s.ops l).running = s.running := by
  obtain ⟨_, _, _, h⟩ := ops_frame s l
  rw [h]

@[simp] theorem ops_irqs : (s.ops l).irqs = s.irqs := by
  obtain ⟨_, _, _, h⟩ := ops_frame s l
  rw [h]

@[simp] theorem ops_phydev : (s.ops l).phydev = s.phydev := by
  obtain ⟨_, _, _, h⟩ := ops_frame s l
  rw [h]

@[simp] theorem ops_sleep : (s.ops l).sleep = s.sleep := by
  obtain ⟨_, _, _, h⟩ := ops_frame s l
  rw [h]

end Frame

theorem ops_platform (s : PmState) (l : List PmOp) :
    (s.ops l).clk.provided = s.clk.provided ∧ (s.ops l).clk.switched = s.clk.switched := by
  induction l generalizing s with
  | nil => exact ⟨rfl, rfl⟩
  | cons a l ih =>
    obtain ⟨hprovided, hswitched⟩ := ih (s.op a)
    cases a with
    | phyPowerOn | access => exact ⟨hprovided, hswitched⟩
    | gmacClkEnable req =>
      obtain ⟨hp, hs⟩ := gmacClkEnable_platform s.clk req
      exact ⟨hprovided.trans hp, hswitched.trans hs⟩

theorem allClocked_access (s : PmState) (u : CoreUse) :
    (s.op (.access u)).AllClocked ↔ s.AllClocked ∧ s.clk.Clocked := by
  simp [PmState.AllClocked, PmState.op, or_imp, forall_and]

/-- What was reached without clocks stays in the history. -/
theorem allClocked_of_ops (h : (s.ops l).AllClocked) : s.AllClocked := by
  induction l generalizing s with
  | nil => exact h
  | cons a l ih =>
    have hs := ih h
    cases a with
    | phyPowerOn | gmacClkEnable => exact hs
    | access u => exact ((allClocked_access s u).mp hs).1

/-- Where the clocks can be enabled the flag tells all. -/
theorem ops_counts (h : ClkCounts s.clk) (hmac : s.clk.provided .clkMac = true)
    (hok : ∀ req, .gmacClkEnable req ∈ l → req.enable = true →
      ∀ clk ∈ s.clk.switched, req.ok clk = true) :
    ClkCounts (s.ops l).clk ∧ (s.ops l).clk.clkEnable = (flagRun s.clk.clkEnable l).1 ∧
      ((s.ops l).AllClocked ↔ s.AllClocked ∧ (flagRun s.clk.clkEnable l).2 = true) := by
  induction l generalizing s with
  | nil => exact ⟨h, rfl, (and_iff_left rfl).symm⟩
  | cons a l ih =>
    have hrest : ∀ req, .gmacClkEnable req ∈ l → req.enable = true →
        ∀ clk ∈ s.clk.switched, req.ok clk = true :=
      fun req hreq => hok req (List.mem_cons_of_mem _ hreq)
    cases a with
    | phyPowerOn enable => exact ih (s := s.op (.phyPowerOn enable)) h hmac hrest
    | gmacClkEnable req =>
      obtain ⟨hprovided, hswitched⟩ := gmacClkEnable_platform s.clk req
      have hcounts : ClkCounts (gmacClkEnable s.clk req) :=
        h.enable fun hen _ => hok req List.mem_cons_self hen
      have hflag := gmacClkEnable_flag s.clk req
      have hl := ih (s := s.op (.gmacClkEnable req)) hcounts (hprovided ▸ hmac)
        (by simpa only [PmState.op, hswitched] using hrest)
      simp only [PmState.op, hflag] at hl
      exact hl
    | access u =>
      have hl := ih (s := s.op (.access u)) h hmac hrest
      refine ⟨hl.1, hl.2.1, hl.2.2.trans ?_⟩
      rw [allClocked_access, h.clocked_iff fun _ => hmac]
      simp [flagRun, PmState.op, and_assoc]

/-- If some clock cannot be enabled, the next access finds the clocks off. -/
theorem not_allClocked_of_refused (h : ClkCounts s.clk) (hoff : s.clk.clkEnable = false)
    (hok : ¬ ∀ clk ∈ s.clk.switched, ok clk = true) :
    ¬ ((s.op (clkOn ok)).op (.access u)).AllClocked := by
  intro hall
  obtain ⟨clk, hclk, hrefused⟩ : ∃ clk ∈ s.clk.switched, ok clk = false := by simpa using hok
  have hclocked := ((allClocked_access _ _).mp hall).2
  exact h.not_clocked_of_refused hoff ok hclk hrefused hclocked

end Ops

/-! ## The entry points -/

section Entries

variable {c : PmConf} {s t : PmState} {a : PmAct} {ok : Clk → Bool} {e : OpenEnd} {l : List PmOp}

theorem flagRun_open (flag : Bool) (c : PmConf) (ok : Clk → Bool) (e : OpenEnd) :
    flagRun flag (stmmacOpenOps c ok e) = (e == .opened, true) := by
  unfold stmmacOpenOps
  cases c.usesPhy <;> cases e <;> cases hriwt : c.useRiwt <;> cases hpcs : c.pcs <;>
    simp [flagRun, openCoreOps, clkOn, clkOff, hriwt, hpcs]

theorem flagRun_suspend (flag wakeup : Bool) :
    flagRun flag (stmmacSuspendOps wakeup) = (flag && wakeup, flag) := by
  cases wakeup <;> cases flag <;> rfl

theorem flagRun_resume (flag : Bool) (ok : Clk → Bool) (wakeup : Bool) :
    flagRun flag (stmmacResumeOps ok wakeup) = (flag || !wakeup, flag || !wakeup) := by
  cases wakeup <;> cases flag <;> rfl

theorem flagRun_remove (flag running : Bool) :
    flagRun flag (stmmacRemoveOps running) = (flag && !running, flag) := by
  cases running <;> cases flag <;> rfl

/-- Unless it gives up before, `stmmac_open` reaches a register just after it has enabled the
clocks. -/
theorem stmmacOpenOps_eq (ok : Clk → Bool) (hpossible : e.Possible c) (hbus : e ≠ .noBus) :
    ∃ u l, stmmacOpenOps c ok e = [.phyPowerOn true, clkOn ok, .access u] ++ l := by
  unfold stmmacOpenOps
  rw [bne_iff_ne.mpr hbus, Bool.and_true]
  cases hphy : c.usesPhy with
  | true => exact ⟨.mdio, _, rfl⟩
  | false =>
    cases e with
    | noBus => exact absurd rfl hbus
    | noPhy => exact absurd (hpossible (.inr rfl)) (by simp [hphy])
    | noDma | noIrq | opened => exact ⟨.initDmaEngine, _, rfl⟩

theorem mem_stmmacOpenOps {req : ClkReq} (h : .gmacClkEnable req ∈ stmmacOpenOps c ok e)
    (hen : req.enable = true) : req.ok = ok := by
  unfold stmmacOpenOps at h
  cases e <;> simp [openCoreOps, clkOn, clkOff] at h <;> grind

theorem mem_stmmacResumeOps {req : ClkReq} {wakeup : Bool}
    (h : .gmacClkEnable req ∈ stmmacResumeOps ok wakeup) : req.ok = ok := by
  unfold stmmacResumeOps at h
  cases wakeup <;> simp [clkOn] at h
  rw [h]

namespace PmInv

/-- The clocks after a list of calls, in a state of which the invariant speaks. -/
theorem ops (inv : PmInv s) (hbound : s.bound = true) (l : List PmOp)
    (hok : ∀ req, .gmacClkEnable req ∈ l → req.enable = true →
      ∀ clk ∈ s.clk.switched, req.ok clk = true) :
    ClkCounts (s.ops l).clk ∧ (s.ops l).clk.clkEnable = (flagRun s.on l).1 ∧
      ((s.ops l).AllClocked ↔ s.AllClocked ∧ (flagRun s.on l).2 = true) := by
  rw [← inv.flag]
  exact ops_counts inv.counts (inv.mac hbound) hok

/-- Opening an interface that is closed or frozen. -/
theorem stmmacOpen (inv : PmInv s) (hbound : s.bound = true) (hoff : s.irqs = false)
    (ok : Clk → Bool) (hpossible : e.Possible c)
    (hbus : e = .noBus → ∀ clk ∈ s.clk.switched, ok clk = true) :
    ((s.stmmacOpen c ok e).AllClocked ↔
        s.AllClocked ∧ ∀ clk ∈ s.clk.switched, ok clk = true) ∧
      ((∀ clk ∈ s.clk.switched, ok clk = true) →
        ClkCounts (s.stmmacOpen c ok e).clk ∧
          (s.stmmacOpen c ok e).clk.clkEnable = (e == .opened)) := by
  have hflag : s.clk.clkEnable = false := by simp [inv.flag, PmState.on, hoff]
  by_cases hok : ∀ clk ∈ s.clk.switched, ok clk = true
  · obtain ⟨hcounts, hclk, hall⟩ := inv.ops hbound (stmmacOpenOps c ok e) fun req hreq hen =>
      mem_stmmacOpenOps hreq hen ▸ hok
    rw [flagRun_open] at hclk hall
    refine ⟨hall.trans (and_congr_right' (iff_of_true rfl hok)), fun _ => ⟨hcounts, hclk⟩⟩
  · refine ⟨iff_of_false (fun hall => ?_) fun h => hok h.2, fun h => absurd h hok⟩
    obtain ⟨u, l, hl⟩ := stmmacOpenOps_eq ok hpossible fun he => hok (hbus he)
    have hops : (s.ops (stmmacOpenOps c ok e)).AllClocked := hall
    rw [hl, PmState.ops, List.foldl_append] at hops
    exact not_allClocked_of_refused (s := s.op (.phyPowerOn true)) inv.counts hflag hok
      (allClocked_of_ops hops)

/-- While the interface is awake the clocks run exactly if it is open. -/
theorem on_of_awake (hawake : s.sleep = .awake) : s.on = s.irqs := by simp [PmState.on, hawake]

theorem stmmacRelease (inv : PmInv s) (hbound : s.bound = true) (hawake : s.sleep = .awake) :
    (s.stmmacRelease.AllClocked ↔ s.AllClocked ∧ s.irqs = true) ∧
      ClkCounts s.stmmacRelease.clk ∧ s.stmmacRelease.clk.clkEnable = false := by
  obtain ⟨hcounts, hclk, hall⟩ := inv.ops hbound stmmacReleaseOps
    (by simp [stmmacReleaseOps, clkOff])
  rw [on_of_awake hawake] at hall
  simp only [stmmacReleaseOps, flagRun, clkOff, Bool.and_true, Bool.and_self] at hall hclk
  exact ⟨hall, hcounts, hclk⟩

/-- A single access of a state of which the invariant speaks. -/
theorem access (inv : PmInv s) (hbound : s.bound = true) (u : CoreUse) :
    (s.op (.access u)).AllClocked ↔ s.AllClocked ∧ s.on = true := by
  rw [allClocked_access, inv.counts.clocked_iff fun _ => inv.mac hbound, inv.flag]

end PmInv

/-- No entry point leaves the interrupt lines to an interface that is not up. -/
theorem PmShape.step (h : PmShape s) (hen : a.Enabled c s) : PmShape (a.apply c s) := by
  obtain ⟨hbound, hrunning, hfrozen, hunbound⟩ := h
  cases a with
  | probe | remove | ndoOpen | release | interrupt | phyRegValue | entry | timer =>
    simp only [PmAct.Enabled] at hen
    constructor <;>
      simp only [PmAct.apply, PmState.stmmacOpen, PmState.stmmacRelease] <;> (try split_ifs) <;>
        simp_all [PmState.op]
  | suspend | resume | freeze | restore =>
    -- an interface that is not up is put to sleep and woken up without a call
    simp only [PmAct.Enabled] at hen
    constructor <;>
      simp only [PmAct.apply, PmState.stmmacOpen, PmState.stmmacRelease] <;> split_ifs <;> simp_all

theorem PmAct.FindsClocks.switchesClocks (h : a.FindsClocks s) : a.SwitchesClocks s := by
  cases a with
  | ndoOpen ok e => exact fun _ => h
  | restore ok e => exact fun _ => h
  | probe | remove | release | suspend | resume | freeze | interrupt | phyRegValue | entry
  | timer => trivial

namespace PmInv

theorem irqs_of_running (inv : PmInv s) (h : s.running = false) : s.irqs = false := by
  have := inv.running
  grind

/-- An interface that is not up sleeps and wakes as it is. -/
theorem on_of_not_running (inv : PmInv s) (hrunning : ¬ s.running = true) (sleep : Sleep) :
    s.on = { s with sleep := sleep : PmState }.on := by
  have hirqs := inv.irqs_of_running (by simpa using hrunning)
  simp [PmState.on, hirqs]

theorem idle_clocks (inv : PmInv s) (hrunning : ¬ s.running = true) (sleep : Sleep) :
    ClkCounts s.clk ∧ s.clk.clkEnable = { s with sleep := sleep : PmState }.on :=
  ⟨inv.counts, inv.flag.trans (inv.on_of_not_running hrunning sleep)⟩

/-- A probe takes `clk_mac` or fails, and nothing else changes what the platform provides. -/
theorem mac_step (inv : PmInv s) (hen : a.Enabled c s) (hbound : (a.apply c s).bound = true) :
    (a.apply c s).clk.provided .clkMac = true := by
  have hops : ∀ l, s.bound = true → (s.ops l).clk.provided .clkMac = true := by
    intro l hb
    rw [(ops_platform s l).1]
    exact inv.mac hb
  cases a with
  | probe got e =>
    simp only [PmAct.apply] at hbound ⊢
    have := hen.2 (by simpa using hbound)
    split_ifs <;> exact this
  | remove => cases hbound
  | ndoOpen | release => exact hops _ (by simpa [PmAct.apply, PmState.stmmacOpen,
      PmState.stmmacRelease] using hbound)
  | suspend | resume | freeze | restore =>
    simp only [PmAct.apply, PmState.stmmacOpen, PmState.stmmacRelease] at hbound ⊢
    split_ifs at hbound ⊢
    · exact hops _ (by simpa using hbound)
    · exact inv.mac hbound
  | interrupt | phyRegValue | entry | timer => exact inv.mac hbound

/-- Only an interface that is really open, or none at all, is suspended. -/
theorem up_step (inv : PmInv s) (hen : a.Enabled c s) (hfinds : a.FindsClocks s)
    (hrunning : (a.apply c s).running = true)
    (hsleep : (a.apply c s).sleep.isSuspended = true) : (a.apply c s).irqs = true := by
  cases a with
  | suspend wakeup =>
    simp only [PmAct.apply] at hrunning ⊢
    split_ifs at hrunning ⊢ with h
    · simpa using hfinds h
    · exact absurd hrunning h
  | ndoOpen | release | remove =>
    simp_all [PmAct.apply, PmAct.Enabled, PmState.stmmacOpen, PmState.stmmacRelease,
      Sleep.isSuspended]
  | probe =>
    have := inv.unbound hen.1
    simp only [PmAct.apply] at hrunning hsleep
    split_ifs at hrunning hsleep <;> simp_all [PmState.op, Sleep.isSuspended]
  | resume | freeze | restore => cases hsleep
  | interrupt | phyRegValue | entry | timer => exact inv.up hrunning hsleep

/-- A probe reads registers with the clocks off, unless it fails before. -/
theorem probe_clocks (inv : PmInv s) (got : Clk → Bool) (e : ProbeEnd) (hbound : s.bound = false) :
    ((PmAct.apply c s (.probe got e)).AllClocked ↔ s.AllClocked ∧ e = .noNetdev) ∧
      ClkCounts (PmAct.apply c s (.probe got e)).clk ∧
      (PmAct.apply c s (.probe got e)).clk.clkEnable = (PmAct.apply c s (.probe got e)).on := by
  have hirqs : s.irqs = false := by
    have := inv.bound
    have := inv.running
    grind
  have hoff : s.clk.clkEnable = false := by simp [inv.flag, PmState.on, hirqs]
  have hcounts : ClkCounts (gmacClkInit got s.clk) := inv.counts.init hoff got
  have hclocked : ¬ (gmacClkInit got s.clk).Clocked := by
    intro h
    have := (hcounts.clocked_iff nofun).mp h
    cases this
  simp only [PmAct.apply]
  split_ifs with he
  · exact ⟨(and_iff_left he).symm, hcounts, by simp [PmState.on, gmacClkInit, hirqs]⟩
  · refine ⟨?_, hcounts, by simp [PmState.on, PmState.op, gmacClkInit, hirqs]⟩
    exact (allClocked_access _ _).trans (by simp [hclocked, he])

/-- A resume from a sleep with the clocks running leaves them as they are. -/
theorem resume_running (inv : PmInv s) (hbound : s.bound = true) (hon : s.on = true)
    (ok : Clk → Bool) (wakeup : Bool) :
    ((s.ops (stmmacResumeOps ok wakeup)).AllClocked ↔ s.AllClocked) ∧
      ClkCounts (s.ops (stmmacResumeOps ok wakeup)).clk ∧
      (s.ops (stmmacResumeOps ok wakeup)).clk.clkEnable = true := by
  cases wakeup with
  | true =>
    obtain ⟨hcounts, hclk, hall⟩ := inv.ops hbound (stmmacResumeOps ok true)
      (by simp [stmmacResumeOps])
    rw [flagRun_resume, hon] at hclk hall
    exact ⟨hall.trans (and_iff_left rfl), hcounts, hclk⟩
  | false =>
    have hskip : s.op (clkOn ok) = s := by
      have hsame : gmacClkEnable s.clk ⟨true, ok⟩ = s.clk :=
        gmacClkEnable_same (inv.flag.trans hon).symm
      simp only [PmState.op, clkOn, hsame]
    have hops : s.ops (stmmacResumeOps ok false) =
        s.ops [.phyPowerOn true, .access .setMac, .access .startDma] :=
      congrArg (PmState.ops · [.phyPowerOn true, .access .setMac, .access .startDma]) hskip
    obtain ⟨hcounts, hclk, hall⟩ := inv.ops hbound
      [.phyPowerOn true, .access .setMac, .access .startDma] (by simp)
    rw [hon] at hclk hall
    rw [hops]
    exact ⟨hall.trans (and_iff_left rfl), hcounts, hclk⟩

/-- A resume from a sleep with the clocks off has to enable them. -/
theorem resume_off (inv : PmInv s) (hbound : s.bound = true) (hoff : s.on = false)
    (ok : Clk → Bool) (wakeup : Bool) :
    ((s.ops (stmmacResumeOps ok wakeup)).AllClocked ↔ s.AllClocked ∧
        (wakeup = false ∧ ∀ clk ∈ s.clk.switched, ok clk = true)) ∧
      ((wakeup = false ∧ ∀ clk ∈ s.clk.switched, ok clk = true) →
        ClkCounts (s.ops (stmmacResumeOps ok wakeup)).clk ∧
          (s.ops (stmmacResumeOps ok wakeup)).clk.clkEnable = true) := by
  cases wakeup with
  | true =>
    obtain ⟨-, -, hall⟩ := inv.ops hbound (stmmacResumeOps ok true) (by simp [stmmacResumeOps])
    rw [flagRun_resume, hoff] at hall
    exact ⟨hall.trans (by simp), fun h => absurd h.1 (by simp)⟩
  | false =>
    by_cases hok : ∀ clk ∈ s.clk.switched, ok clk = true
    · obtain ⟨hcounts, hclk, hall⟩ := inv.ops hbound (stmmacResumeOps ok false)
        fun req hreq _ => mem_stmmacResumeOps hreq ▸ hok
      rw [flagRun_resume, hoff] at hclk hall
      exact ⟨hall.trans (and_congr_right' (iff_of_true rfl ⟨rfl, hok⟩)), fun _ => ⟨hcounts, hclk⟩⟩
    · refine ⟨iff_of_false (fun hall => ?_) fun h => hok h.2.2, fun h => absurd h.2 hok⟩
      exact not_allClocked_of_refused (s := s.op (.phyPowerOn true)) inv.counts
        (inv.flag.trans hoff) hok (allClocked_of_ops (l := [.access .startDma]) hall)

/-- A resume enables the clocks if the suspend has disabled them, unless the device may wake the
system up by now. -/
theorem resume_clocks (inv : PmInv s) (hrunning : s.running = true)
    (hsuspended : s.sleep.isSuspended = true) (ok : Clk → Bool) (wakeup : Bool) :
    ((s.ops (stmmacResumeOps ok wakeup)).AllClocked ↔ s.AllClocked ∧
        (s.sleep = .suspended true ∨
          wakeup = false ∧ ∀ clk ∈ s.clk.switched, ok clk = true)) ∧
      ((s.sleep = .suspended true ∨ wakeup = false ∧ ∀ clk ∈ s.clk.switched, ok clk = true) →
        ClkCounts (s.ops (stmmacResumeOps ok wakeup)).clk ∧
          (s.ops (stmmacResumeOps ok wakeup)).clk.clkEnable = s.irqs) := by
  have hirqs := inv.up hrunning hsuspended
  have hbound := inv.bound hrunning
  cases hsleep : s.sleep with
  | awake | frozen => simp [hsleep, Sleep.isSuspended] at hsuspended
  | suspended slept =>
    cases slept with
    | true =>
      have hon : s.on = true := by simp [PmState.on, hirqs, hsleep]
      obtain ⟨hall, hcounts, hclk⟩ := inv.resume_running hbound hon ok wakeup
      exact ⟨hall.trans (by simp), fun _ => ⟨hcounts, hclk.trans hirqs.symm⟩⟩
    | false =>
      have hoff : s.on = false := by simp [PmState.on, hsleep]
      obtain ⟨hall, hclk⟩ := inv.resume_off hbound hoff ok wakeup
      rw [hirqs]
      refine ⟨hall.trans (by simp), fun h => hclk (h.resolve_left (by simp))⟩

theorem clocks_step (inv : PmInv s) (hen : a.Enabled c s) (hsw : a.SwitchesClocks s) :
    ((a.apply c s).AllClocked ↔ s.AllClocked ∧ a.FindsClocks s) ∧
      (a.FindsClocks s →
        ClkCounts (a.apply c s).clk ∧ (a.apply c s).clk.clkEnable = (a.apply c s).on) := by
  cases a with
  | probe got e =>
    obtain ⟨hall, hclk⟩ := inv.probe_clocks (c := c) got e hen.1
    exact ⟨hall, fun _ => hclk⟩
  | remove =>
    obtain ⟨hbound, hawake⟩ := hen
    obtain ⟨hcounts, hclk, hall⟩ := inv.ops hbound (stmmacRemoveOps s.running) (by
      cases s.running <;> simp [stmmacRemoveOps, stmmacReleaseOps, clkOff])
    rw [flagRun_remove, on_of_awake hawake] at hclk hall
    refine ⟨hall, fun hirqs => ⟨hcounts, hclk.trans ?_⟩⟩
    simp [PmAct.apply, PmState.on, inv.running hirqs]
  | ndoOpen ok e =>
    obtain ⟨hbound, hawake, hrunning, hpossible⟩ := hen
    obtain ⟨hall, hclk⟩ :=
      inv.stmmacOpen hbound (inv.irqs_of_running hrunning) ok hpossible hsw
    refine ⟨hall, fun hok => ⟨(hclk hok).1, (hclk hok).2.trans ?_⟩⟩
    simp [PmAct.apply, PmState.stmmacOpen, PmState.on, hawake]
  | release =>
    obtain ⟨hawake, hrunning⟩ := hen
    obtain ⟨hall, hcounts, hclk⟩ := inv.stmmacRelease (inv.bound hrunning) hawake
    exact ⟨hall, fun _ => ⟨hcounts, hclk⟩⟩
  | suspend wakeup =>
    obtain ⟨hbound, hawake⟩ := hen
    simp only [PmAct.apply, PmAct.FindsClocks]
    split_ifs with hrunning
    · obtain ⟨hcounts, hclk, hall⟩ := inv.ops hbound (stmmacSuspendOps wakeup) (by
        cases wakeup <;> simp [stmmacSuspendOps, clkOff])
      rw [flagRun_suspend, on_of_awake hawake] at hclk hall
      refine ⟨hall.trans (by simp [hrunning]), fun _ => ⟨hcounts, hclk.trans ?_⟩⟩
      cases wakeup <;> simp [PmState.on]
    · exact ⟨by simp [hrunning, PmState.AllClocked], fun _ => inv.idle_clocks hrunning _⟩
  | resume ok wakeup =>
    have hsuspended : s.sleep.isSuspended = true := hen
    simp only [PmAct.apply, PmAct.FindsClocks]
    split_ifs with hrunning
    · obtain ⟨hall, hclk⟩ := inv.resume_clocks hrunning hsuspended ok wakeup
      refine ⟨hall.trans (by simp [hrunning]), fun h => ?_⟩
      have hnext := hclk (h hrunning)
      exact ⟨hnext.1, hnext.2.trans (by simp [PmState.on])⟩
    · exact ⟨by simp [hrunning, PmState.AllClocked], fun _ => inv.idle_clocks hrunning _⟩
  | freeze =>
    obtain ⟨hbound, hawake⟩ := hen
    simp only [PmAct.apply, PmAct.FindsClocks]
    split_ifs with hrunning
    · obtain ⟨hall, hcounts, hclk⟩ := inv.stmmacRelease hbound hawake
      exact ⟨hall.trans (by simp [hrunning]), fun _ => ⟨hcounts, hclk⟩⟩
    · exact ⟨by simp [hrunning, PmState.AllClocked], fun _ => inv.idle_clocks hrunning _⟩
  | restore ok e =>
    obtain ⟨hfrozen, hpossible⟩ := hen
    simp only [PmAct.apply, PmAct.FindsClocks]
    split_ifs with hrunning
    · obtain ⟨hall, hclk⟩ :=
        inv.stmmacOpen (inv.bound hrunning) (inv.frozen hfrozen) ok hpossible
          fun he => hsw he hrunning
      refine ⟨hall.trans (by simp [hrunning]), fun hok => ?_⟩
      obtain ⟨hcounts, hflag⟩ := hclk (hok hrunning)
      exact ⟨hcounts, hflag.trans (by simp [PmState.on, PmState.stmmacOpen])⟩
    · exact ⟨by simp [hrunning, PmState.AllClocked], fun _ => inv.idle_clocks hrunning _⟩
  | interrupt =>
    have hirqs : s.irqs = true := hen
    refine ⟨(inv.access (inv.bound (inv.running hirqs)) _).trans ?_, fun _ =>
      ⟨inv.counts, inv.flag⟩⟩
    simp [PmAct.FindsClocks, PmState.on, hirqs]
  | phyRegValue =>
    obtain ⟨hawake, hphydev⟩ := hen
    have hbound : s.bound = true := by
      have := inv.unbound
      grind
    refine ⟨(inv.access hbound _).trans ?_, fun _ => ⟨inv.counts, inv.flag⟩⟩
    rw [on_of_awake hawake]
    rfl
  | entry =>
    obtain ⟨hawake, hrunning⟩ := hen
    refine ⟨(inv.access (inv.bound hrunning) _).trans ?_, fun _ => ⟨inv.counts, inv.flag⟩⟩
    rw [on_of_awake hawake]
    rfl
  | timer => exact ⟨inv.access hen _, fun _ => ⟨inv.counts, inv.flag⟩⟩

theorem step (inv : PmInv s) (hen : a.Enabled c s) (hfinds : a.FindsClocks s) :
    PmInv (a.apply c s) where
  toPmShape := inv.toPmShape.step hen
  counts := ((inv.clocks_step hen hfinds.switchesClocks).2 hfinds).1
  flag := ((inv.clocks_step hen hfinds.switchesClocks).2 hfinds).2
  mac := inv.mac_step hen
  up := inv.up_step hen hfinds

end PmInv

/-! ## The supply of the PHY -/

namespace PmOp

def power : PmOp → Option Bool
  | phyPowerOn enable => some enable
  | gmacClkEnable _ | access _ => none

end PmOp

theorem ops_phyPower (s : PmState) (l : List PmOp) :
    (s.ops l).phyPower = (latest PmOp.power l).getD s.phyPower :=
  foldl_latest PmState.phyPower fun _ a _ => by cases a <;> rfl

theorem latest_power_open (c : PmConf) (ok : Clk → Bool) (e : OpenEnd) :
    latest PmOp.power (stmmacOpenOps c ok e) = some true := by
  unfold stmmacOpenOps
  cases c.usesPhy <;> cases e <;> cases hriwt : c.useRiwt <;> cases hpcs : c.pcs <;>
    simp [openCoreOps, hriwt, hpcs] <;> rfl

theorem PmInv.power_step (inv : PmInv s) (hen : a.Enabled c s) (hfinds : a.FindsClocks s)
    (hopens : a.Opens) (hpower : s.phyPower = s.on) :
    (a.apply c s).phyPower = (a.apply c s).on := by
  have hrelease : (s.ops stmmacReleaseOps).phyPower = false := rfl
  have hopen : ∀ ok e, (s.ops (stmmacOpenOps c ok e)).phyPower = true := by
    intro ok e
    rw [ops_phyPower, latest_power_open]
    rfl
  cases a with
  | probe got e =>
    simp only [PmAct.FindsClocks] at hfinds
    simpa [PmAct.apply, hfinds, PmState.on] using hpower
  | remove =>
    have hrunning := inv.running hfinds
    have hoff : (s.ops (stmmacRemoveOps s.running)).phyPower = false := by
      rw [hrunning]
      rfl
    exact hoff
  | ndoOpen ok e =>
    obtain rfl : e = .opened := hopens
    refine (hopen ok .opened).trans ?_
    simp [PmAct.apply, PmState.stmmacOpen, PmState.on, hen.2.1]
  | release => exact hrelease
  | suspend wakeup =>
    simp only [PmAct.apply, PmAct.FindsClocks] at hfinds ⊢
    split_ifs with hrunning
    · have hirqs := hfinds hrunning
      rw [on_of_awake hen.2, hirqs] at hpower
      cases wakeup with
      | true => exact hpower.trans (by simp [PmState.on, hirqs])
      | false => simp [PmState.on, ops_phyPower, stmmacSuspendOps, latest, PmOp.power]
    · exact hpower.trans (inv.on_of_not_running hrunning _)
  | resume ok wakeup =>
    simp only [PmAct.apply, PmAct.FindsClocks] at hfinds ⊢
    split_ifs with hrunning
    · have hirqs := inv.up hrunning hen
      have hpowered : (s.ops (stmmacResumeOps ok wakeup)).phyPower = true := by
        rw [ops_phyPower]
        cases wakeup with
        | true =>
          have hsleep : s.sleep = .suspended true := by simpa using hfinds hrunning
          simp [stmmacResumeOps, latest, PmOp.power, hpower, PmState.on, hirqs, hsleep]
        | false => rfl
      exact hpowered.trans (by simp [PmState.on, hirqs])
    · exact hpower.trans (inv.on_of_not_running hrunning _)
  | freeze =>
    simp only [PmAct.apply]
    split_ifs with hrunning
    · exact hrelease
    · exact hpower.trans (inv.on_of_not_running hrunning _)
  | restore ok e =>
    obtain rfl : e = .opened := hopens
    simp only [PmAct.apply]
    split_ifs with hrunning
    · refine (hopen ok .opened).trans ?_
      simp [PmState.stmmacOpen, PmState.on]
    · exact hpower.trans (inv.on_of_not_running hrunning _)
  | interrupt | phyRegValue | entry | timer => exact hpower

end Entries

/-! ## Runs -/

/-- An interface that is closed, with its clocks off. -/
structure PmState.Closed (s : PmState) : Prop where
  bound : s.bound = true
  running : s.running = false
  irqs : s.irqs = false
  sleep : s.sleep = .awake
  mac : s.clk.provided .clkMac = true
  clkEnable : s.clk.clkEnable = false
  counts : ∀ clk, enables s.clk.calls clk = disables s.clk.calls clk

section Runs

variable {c : PmConf} {s₀ s t : PmState} {a : PmAct} {as : List PmAct}

theorem PmState.Closed.inv (h : s.Closed) : PmInv s where
  bound hrunning := by simp [h.running] at hrunning
  running hirqs := by simp [h.irqs] at hirqs
  frozen hfrozen := by simp [h.sleep] at hfrozen
  unbound hbound := by simp [h.bound] at hbound
  counts clk := by simp [h.counts clk, h.clkEnable]
  flag := by simp [h.clkEnable, PmState.on, h.irqs]
  mac _ := h.mac
  up hrunning := by simp [h.running] at hrunning

theorem pmStep_eq (hs : pmStep c s a = some t) : a.Enabled c s ∧ t = a.apply c s := by
  unfold pmStep at hs
  split_ifs at hs with hen
  exact ⟨hen, (Option.some.inj hs).symm⟩

/-- The history only grows. -/
theorem allClocked_of_apply (h : (a.apply c s).AllClocked) : s.AllClocked := by
  have hops : ∀ l, (s.ops l).AllClocked → s.AllClocked := fun l => allClocked_of_ops
  cases a with
  | probe got e =>
    simp only [PmAct.apply] at h
    split_ifs at h
    · exact h
    · exact ((allClocked_access _ _).mp h).1
  | remove | ndoOpen | release => exact hops _ h
  | suspend | resume | freeze | restore =>
    simp only [PmAct.apply] at h
    split_ifs at h
    · exact hops _ h
    · exact h
  | interrupt | phyRegValue | entry | timer => exact ((allClocked_access _ _).mp h).1

/-- An RMII board after a probe whose accesses are not counted. -/
def PmState.rmii : PmState where
  clk := gmacClkInit (fun _ => true) ⟨.rmii, false, fun _ => false, false, []⟩
  phyPower := false
  bound := true
  running := false
  irqs := false
  phydev := false
  sleep := .awake
  accesses := []

theorem PmState.closed_rmii : PmState.rmii.Closed :=
  ⟨rfl, rfl, rfl, rfl, rfl, rfl, fun clk => by cases clk <;> rfl⟩

/-- An interface that fails to open once, sleeps without clocks, and is opened and closed. -/
def pmDay : List PmAct :=
  [.ndoOpen (fun _ => true) .noIrq, .ndoOpen (fun _ => true) .opened, .interrupt, .timer, .entry,
    .suspend false, .resume (fun _ => true) false, .phyRegValue, .release]

/-- In every such run whose opens succeed, the PHY is powered, and each clock enabled exactly once
more than disabled, exactly while the interface is open and not asleep without its clocks. -/
theorem power_follows_interface (hclosed : s₀.Closed) (hpower : s₀.phyPower = false)
    (run : Run (pmStep c) (fun s a => a.FindsClocks s ∧ a.Opens) s₀ as s) :
    s.phyPower = s.on ∧ ∀ clk, enables s.clk.calls clk =
      disables s.clk.calls clk + if s.on = true ∧ clk ∈ s.clk.switched then 1 else 0 := by
  have hinv : PmInv s ∧ s.phyPower = s.on := by
    refine run.invariant (I := fun s => PmInv s ∧ s.phyPower = s.on) ?_ ⟨hclosed.inv, ?_⟩
    · intro s t a inv hok hs
      obtain ⟨hen, rfl⟩ := pmStep_eq hs
      exact ⟨inv.1.step hen hok.1, inv.1.power_step hen hok.1 hok.2 inv.2⟩
    · simp [hpower, PmState.on, hclosed.irqs]
  exact ⟨hinv.2, fun clk => hinv.1.flag ▸ hinv.1.counts clk⟩

theorem power_follows_day :
    ∃ s, Run (pmStep ⟨true, true, false⟩) (fun s a => a.FindsClocks s ∧ a.Opens) PmState.rmii
        (pmDay.drop 1) s ∧
      s.phyPower = s.on ∧ ∀ clk, enables s.clk.calls clk =
        disables s.clk.calls clk + if s.on = true ∧ clk ∈ s.clk.switched then 1 else 0 :=
  exec_exists (by decide +kernel) fun _ run => power_follows_interface PmState.closed_rmii rfl run

end Runs

end Stmmac
