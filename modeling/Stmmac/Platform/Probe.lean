import Stmmac.Library.Ledger
import Stmmac.Platform.CharDev
import Stmmac.Platform.Clk

/-!
# Probing and removing the platform device

`char_net_probe` and `char_net_remove` with what they call, for every outcome of these calls. What
the device core releases by itself (the mapping, `devm_kzalloc`) is left out; the rest is kept as a
history of acquisitions and releases. `char_net_remove` releases none of it and
`stmmac_mdio_unregister` is called by nobody, so only a probe that fails before it has acquired
anything leaves nothing behind.
-/

namespace Stmmac

open Library Library.Ledger

/-- What the device core does not release. -/
inductive ProbeResource where
  | powerGpio | resetGpio
  | clkRef (clk : Clk)
  | clkEnabled (clk : Clk)
  | phyPower | macDeviceInfo | mdioBus
  deriving DecidableEq, Repr

/-- The pointers of `struct plat_stmmacenet_data` that are set, with those of its `bsp_priv`. -/
structure PlatData where
  /-- `plat->init` is `stmmc_pltfr_init`. -/
  init : Bool
  mdioBusData : Bool
  bspPriv : Bool
  phyPowerOn : Bool
  gmacClkEnable : Bool

/-- The device and the outcomes of the calls that are made to probe it. -/
structure ProbeOutcome where
  memResource : Bool
  ioremap : Option Errno
  ofNode : Bool
  platAlloc : Bool
  mdioDataAlloc : Bool
  /-- `dev.platform_data`, without a device tree. -/
  platformData : PlatData
  powerIoValid : Bool
  powerRequest : Bool
  resetIoValid : Bool
  resetRequest : Bool
  phyIface : PhyIface
  clockInput : Bool
  clkGet : Clk → Bool
  /-- `platform_get_irq_byname` does not return `-ENXIO`. -/
  macIrq : Bool
  macAlloc : Bool
  powerCtrlByPmu : Bool
  regulatorGet : Bool
  regulatorIsEnabled : Bool
  regulatorEnable : Bool
  gpioOutput : Bool
  clkPrepareEnable : Clk → Bool
  mdiobusAlloc : Bool
  mdiobusRegister : Int
  phyFound : Bool

def enxio : Int := 6
def enomem : Int := 12
def enodev : Int := 19

/-- What `stmmac_probe_config_dt` sets; with a device node it returns 0. -/
def stmmacProbeConfigDt (o : ProbeOutcome) : PlatData where
  init := true
  mdioBusData := o.mdioDataAlloc
  bspPriv := true
  phyPowerOn := true
  gmacClkEnable := true

def ProbeOutcome.plat (o : ProbeOutcome) : PlatData :=
  if o.ofNode then stmmacProbeConfigDt o else o.platformData

/-- The requests of `stmmc_pltfr_init` that succeed; it returns 0 whether they do or not. -/
def stmmcPltfrInit (o : ProbeOutcome) : List ProbeResource :=
  (if o.powerIoValid && o.powerRequest then [.powerGpio] else []) ++
    (if o.resetIoValid && o.resetRequest then [.resetGpio] else [])

/-- What a call of the clock framework acquires or releases. -/
def clkEvents : ClkCall → List (Event ProbeResource)
  | .get clk ok => if ok then [.acquire (.clkRef clk)] else []
  | .prepareEnable clk ok => if ok then [.acquire (.clkEnabled clk)] else []
  | .disableUnprepare clk => [.release (.clkEnabled clk)]
  | .setRate _ _ | .setParent _ _ => []

/-- The clocks after `gmac_clk_init`. -/
def ProbeOutcome.clks (o : ProbeOutcome) : BspClk :=
  gmacClkInit o.clkGet ⟨o.phyIface, o.clockInput, fun _ => false, false, []⟩

/-- `phy_power_on(true)`; a regulator that is on already is left alone. -/
def phyPowerOn (o : ProbeOutcome) : List (Event ProbeResource) :=
  if o.powerCtrlByPmu then
    if o.regulatorGet && !o.regulatorIsEnabled && o.regulatorEnable then [.acquire .phyPower]
    else []
  else if o.powerIoValid && o.gpioOutput then [.acquire .phyPower]
  else []

/-- `gmac_clk_enable(true)` after `gmac_clk_init`. -/
def gmacClkOn (o : ProbeOutcome) : List (Event ProbeResource) :=
  let s := gmacClkEnable o.clks ⟨true, o.clkPrepareEnable⟩
  (s.calls.drop o.clks.calls.length).flatMap clkEvents

def stmmacMdioRegister (o : ProbeOutcome) : List (Event ProbeResource) × Int :=
  if !o.plat.mdioBusData then ([], 0)
  else if !o.mdiobusAlloc then ([], -enomem)
  else if o.mdiobusRegister ≠ 0 then ([], o.mdiobusRegister)
  else if !o.phyFound then ([.acquire .mdioBus, .release .mdioBus], -enodev)
  else ([.acquire .mdioBus], 0)

/-- The first part of `net_open`. -/
def netPowerOn (o : ProbeOutcome) : List (Event ProbeResource) :=
  if o.plat.bspPriv then
    (if o.plat.phyPowerOn then phyPowerOn o else []) ++
      (if o.plat.gmacClkEnable then gmacClkOn o else [])
  else []

/-- `net_open`; setting and reading the MAC address do not fail on the address that it has. -/
def netOpen (o : ProbeOutcome) : List (Event ProbeResource) × Int :=
  let (mdio, ret) := stmmacMdioRegister o
  (netPowerOn o ++ mdio, if ret < 0 then -1 else 0)

/-- How a probe ends: it returns, or it uses the `hw` pointer that `gmac_init` left NULL. -/
inductive ProbeResult where
  | returned (ret : Int)
  | nullHw
  deriving DecidableEq, Repr

/-- What a probe acquires up to the lookup of the interrupt. -/
def probeInit (o : ProbeOutcome) : List (Event ProbeResource) :=
  (if o.plat.init then (stmmcPltfrInit o).map .acquire else []) ++ o.clks.calls.flatMap clkEvents

def charNetProbe (o : ProbeOutcome) : List (Event ProbeResource) × ProbeResult :=
  if !o.memResource then ([], .returned (-enodev))
  else
    match o.ioremap with
    | some e => ([], .returned e)
    | none =>
      if o.ofNode && !o.platAlloc then ([], .returned (-enomem))
      else if !o.macIrq then (probeInit o, .returned (-enxio))
      else if !o.macAlloc then (probeInit o, .nullHw)
      else
        -- the result of `net_open` is not looked at
        (probeInit o ++ [.acquire .macDeviceInfo] ++ (netOpen o).1, .returned 0)

/-- `char_net_remove` unmaps the registers, which the device core would do as well. -/
def charNetRemove : List (Event ProbeResource) := []

/-- A probe, and the removal if it succeeded. -/
def bindUnbind (o : ProbeOutcome) : List (Event ProbeResource) :=
  (charNetProbe o).1 ++ if (charNetProbe o).2 = .returned 0 then charNetRemove else []

/-! ## Balance -/

/-- Nothing is left after a probe that fails or after the removal, and a probe succeeds only with
`net_open` and without using a NULL pointer. -/
structure ProbeBalanced (o : ProbeOutcome) : Prop where
  failed : ∀ ret, (charNetProbe o).2 = .returned ret → ret ≠ 0 →
    replay 0 (charNetProbe o).1 = some 0
  opened : (charNetProbe o).2 = .returned 0 → (netOpen o).2 = 0
  hw : (charNetProbe o).2 ≠ .nullHw
  removed : (charNetProbe o).2 = .returned 0 →
    replay 0 ((charNetProbe o).1 ++ charNetRemove) = some 0

/-- The probe fails before the platform is initialised. -/
def ProbeFailsEarly (o : ProbeOutcome) : Prop :=
  o.memResource = false ∨ o.ioremap.isSome = true ∨ (o.ofNode = true ∧ o.platAlloc = false)

/-- No GPIO is requested successfully and no clock is there. -/
def NoneAcquired (o : ProbeOutcome) : Prop :=
  (o.plat.init = true → ¬ (o.powerIoValid = true ∧ o.powerRequest = true) ∧
    ¬ (o.resetIoValid = true ∧ o.resetRequest = true)) ∧
  ∀ clk, o.clkGet clk = false

variable {o : ProbeOutcome} {os : List ProbeOutcome}

/-! ## What the first part of a probe acquires -/

/-- The GPIOs and the clocks that a probe gets. -/
def ProbeOutcome.acquired (o : ProbeOutcome) : List ProbeResource :=
  (if o.plat.init then stmmcPltfrInit o else []) ++ (clksGot.filter o.clkGet).map .clkRef

theorem mem_clksGot (clk : Clk) : clk ∈ clksGot := by
  cases clk <;> decide

theorem flatMap_clkEvents_get (got : Clk → Bool) (clks : List Clk) :
    (clks.map fun clk => ClkCall.get clk (got clk)).flatMap clkEvents =
      ((clks.filter got).map ProbeResource.clkRef).map Event.acquire := by
  induction clks with
  | nil => rfl
  | cons clk clks ih =>
    rw [List.map_cons, List.flatMap_cons, ih]
    cases h : got clk <;> simp [clkEvents, h]

theorem flatMap_clkEvents_clkSource (phyIface : PhyIface) (clockInput : Bool) :
    (clkSource phyIface clockInput).flatMap clkEvents = [] := by
  cases phyIface <;> cases clockInput <;> rfl

theorem probeInit_eq (o : ProbeOutcome) : probeInit o = o.acquired.map Event.acquire := by
  have hclks : o.clks.calls = clksGot.map (fun clk => ClkCall.get clk (o.clkGet clk)) ++
      clkSource o.phyIface o.clockInput := rfl
  unfold probeInit ProbeOutcome.acquired
  rw [hclks, List.flatMap_append, flatMap_clkEvents_get, flatMap_clkEvents_clkSource,
    List.append_nil, List.map_append]
  split_ifs <;> rfl

theorem acquired_eq_nil_iff : o.acquired = [] ↔ NoneAcquired o := by
  unfold ProbeOutcome.acquired NoneAcquired stmmcPltfrInit
  simp [List.filter_eq_nil_iff, mem_clksGot]

/-- Of acquisitions alone nothing is left only if there are none. -/
theorem replay_probeInit_iff : replay 0 (probeInit o) = some 0 ↔ o.acquired = [] := by
  rw [probeInit_eq, replay_acquires, add_zero, Option.some_inj, Multiset.coe_eq_zero]

/-! ## One probe -/

theorem charNetProbe_of_failsEarly (h : ProbeFailsEarly o) :
    ∃ ret ≠ 0, charNetProbe o = ([], .returned ret) := by
  unfold charNetProbe
  cases hmem : o.memResource with
  | false => exact ⟨-enodev, by decide, rfl⟩
  | true =>
    cases hmap : o.ioremap with
    | some e => exact ⟨e.1, Int.ne_of_lt e.2, rfl⟩
    | none =>
      have halloc : o.ofNode = true ∧ o.platAlloc = false := by
        simpa [ProbeFailsEarly, hmem, hmap] using h
      exact ⟨-enomem, by decide, by simp [halloc]⟩

theorem charNetProbe_of_not_failsEarly (h : ¬ ProbeFailsEarly o) :
    charNetProbe o =
      if !o.macIrq then (probeInit o, .returned (-enxio))
      else if !o.macAlloc then (probeInit o, .nullHw)
      else (probeInit o ++ [.acquire .macDeviceInfo] ++ (netOpen o).1, .returned 0) := by
  obtain ⟨hmem, hmap, halloc⟩ : o.memResource = true ∧ o.ioremap = none ∧
      ¬ (o.ofNode = true ∧ o.platAlloc = false) := by
    simpa [ProbeFailsEarly] using h
  have hplat : (o.ofNode && !o.platAlloc) = false := by
    cases hnode : o.ofNode <;> simp_all
  unfold charNetProbe
  simp [hmem, hmap, hplat]

theorem release_macDeviceInfo_not_mem_clkEvents (call : ClkCall) :
    Event.release ProbeResource.macDeviceInfo ∉ clkEvents call := by
  cases call with
  | get clk ok | prepareEnable clk ok => cases ok <;> simp [clkEvents]
  | disableUnprepare clk | setRate clk rate | setParent clk parent => simp [clkEvents]

theorem release_macDeviceInfo_not_mem_phyPowerOn :
    Event.release ProbeResource.macDeviceInfo ∉ phyPowerOn o := by
  unfold phyPowerOn
  split_ifs <;> simp

theorem release_macDeviceInfo_not_mem_gmacClkOn :
    Event.release ProbeResource.macDeviceInfo ∉ gmacClkOn o := by
  intro h
  obtain ⟨call, -, hcall⟩ := List.mem_flatMap.mp h
  exact release_macDeviceInfo_not_mem_clkEvents call hcall

theorem release_macDeviceInfo_not_mem_stmmacMdioRegister :
    Event.release ProbeResource.macDeviceInfo ∉ (stmmacMdioRegister o).1 := by
  unfold stmmacMdioRegister
  split_ifs <;> simp

theorem release_macDeviceInfo_not_mem_netOpen :
    Event.release ProbeResource.macDeviceInfo ∉ (netOpen o).1 := by
  have hphy := release_macDeviceInfo_not_mem_phyPowerOn (o := o)
  have hclk := release_macDeviceInfo_not_mem_gmacClkOn (o := o)
  have hmdio := release_macDeviceInfo_not_mem_stmmacMdioRegister (o := o)
  refine List.mem_append.not.mpr (not_or_intro ?_ hmdio)
  unfold netPowerOn
  split_ifs <;> simp [hphy, hclk]

/-- The removal does not free what `gmac_init` has allocated. -/
theorem macDeviceInfo_left :
    replay 0 (probeInit o ++ [.acquire .macDeviceInfo] ++ (netOpen o).1 ++ charNetRemove) ≠
      some 0 := by
  intro hreplay
  have hcount := replay_count hreplay .macDeviceInfo
  have hinit : (probeInit o).count (.release .macDeviceInfo) = 0 := by
    rw [probeInit_eq]
    exact List.count_eq_zero.mpr (by simp)
  have hopen := List.count_eq_zero.mpr (release_macDeviceInfo_not_mem_netOpen (o := o))
  simp [charNetRemove, List.count_append, hinit, hopen] at hcount

/-- A probe that fails is balanced if nothing is left. -/
theorem probeBalanced_iff_of_failed {es : List (Event ProbeResource)} {ret : Int} (hret : ret ≠ 0)
    (hprobe : charNetProbe o = (es, .returned ret)) : ProbeBalanced o ↔ replay 0 es = some 0 := by
  have hnot : (charNetProbe o).2 ≠ .returned 0 := by
    rw [hprobe]
    exact fun h => hret (ProbeResult.returned.inj h)
  refine ⟨fun h => ?_, fun h => ⟨fun _ _ _ => ?_, fun h0 => absurd h0 hnot, ?_,
    fun h0 => absurd h0 hnot⟩⟩
  · have hfailed := h.failed ret (by rw [hprobe]) hret
    rwa [hprobe] at hfailed
  · rwa [hprobe]
  · rw [hprobe]
    exact ProbeResult.noConfusion

/-- A probe that gets as far as `gmac_init` is not balanced. -/
theorem not_probeBalanced_of_macIrq (hearly : ¬ ProbeFailsEarly o) (hirq : o.macIrq = true) :
    ¬ ProbeBalanced o := by
  intro h
  have hprobe := charNetProbe_of_not_failsEarly hearly
  rw [hirq] at hprobe
  cases halloc : o.macAlloc with
  | false =>
    rw [halloc] at hprobe
    exact h.hw (by rw [hprobe]; rfl)
  | true =>
    rw [halloc] at hprobe
    have hremoved := h.removed (by rw [hprobe]; rfl)
    rw [hprobe] at hremoved
    exact macDeviceInfo_left hremoved

/-- A probe is balanced exactly if it fails before it has acquired anything. -/
theorem probeBalanced_iff :
    ProbeBalanced o ↔ ProbeFailsEarly o ∨ (o.macIrq = false ∧ NoneAcquired o) := by
  by_cases hearly : ProbeFailsEarly o
  · obtain ⟨ret, hret, hprobe⟩ := charNetProbe_of_failsEarly hearly
    exact iff_of_true ((probeBalanced_iff_of_failed hret hprobe).mpr rfl) (.inl hearly)
  · rw [or_iff_right hearly, ← acquired_eq_nil_iff, ← replay_probeInit_iff]
    cases hirq : o.macIrq with
    | false =>
      have hprobe := charNetProbe_of_not_failsEarly hearly
      rw [hirq] at hprobe
      rw [probeBalanced_iff_of_failed (by decide) hprobe]
      simp
    | true => exact iff_of_false (not_probeBalanced_of_macIrq hearly hirq) (by simp)

/-! ## Cycles -/

/-- A balanced probe acquires nothing at all. -/
theorem bindUnbind_of_balanced (h : ProbeFailsEarly o ∨ (o.macIrq = false ∧ NoneAcquired o)) :
    bindUnbind o = [] := by
  by_cases hearly : ProbeFailsEarly o
  · obtain ⟨ret, hret, hprobe⟩ := charNetProbe_of_failsEarly hearly
    simp [bindUnbind, hprobe, charNetRemove]
  · obtain ⟨hirq, hnone⟩ := h.resolve_left hearly
    have hnil : probeInit o = [] := by
      rw [probeInit_eq, acquired_eq_nil_iff.mpr hnone]
      rfl
    simp [bindUnbind, charNetProbe_of_not_failsEarly hearly, hirq, hnil, charNetRemove]

/-- Binding and unbinding any number of times is balanced, and leaks nothing, exactly if each probe
fails before it has acquired anything. -/
theorem probes_balanced_iff (os : List ProbeOutcome) :
    ((∀ o ∈ os, ProbeBalanced o) ∧ replay 0 (os.flatMap bindUnbind) = some 0) ↔
      ∀ o ∈ os, ProbeFailsEarly o ∨ (o.macIrq = false ∧ NoneAcquired o) := by
  refine ⟨fun h o ho => probeBalanced_iff.mp (h.1 o ho), fun h => ⟨fun o ho => ?_, ?_⟩⟩
  · exact probeBalanced_iff.mpr (h o ho)
  · have hnil : os.flatMap bindUnbind = [] :=
      List.flatMap_eq_nil_iff.mpr fun o ho => bindUnbind_of_balanced (h o ho)
    rw [hnil]
    rfl

/-- Every call succeeds. -/
def ProbeOutcome.success : ProbeOutcome where
  memResource := true
  ioremap := none
  ofNode := true
  platAlloc := true
  mdioDataAlloc := true
  platformData := ⟨false, false, false, false, false⟩
  powerIoValid := true
  powerRequest := true
  resetIoValid := true
  resetRequest := true
  phyIface := .rmii
  clockInput := true
  clkGet := fun _ => true
  macIrq := true
  macAlloc := true
  powerCtrlByPmu := false
  regulatorGet := true
  regulatorIsEnabled := false
  regulatorEnable := true
  gpioOutput := true
  clkPrepareEnable := fun _ => true
  mdiobusAlloc := true
  mdiobusRegister := 0
  phyFound := true

/-- Every call succeeds and the removal releases nothing. -/
theorem probe_leaks : ¬ ProbeBalanced .success :=
  fun h => absurd (h.removed rfl) (by decide +kernel)

end Stmmac
