import Mathlib.Data.Set.Basic
import Mathlib.Logic.Function.Basic
import Mathlib.Order.Bounds.Basic
import Mathlib.Tactic.Common
import Stmmac.Platform.Probe

/-!
# Registration of the MDIO bus and choice of the PHY

`stmmac_mdio_register` goes through the PHYs that the registered bus has found. As long as no PHY
number is given it takes the address at hand for the MAC. The same variable says that no number is
given, by the values -1 and 0; 0 is an address as well, so a PHY there is taken and then given up
for the next one.
-/

namespace Stmmac

/-- `PHY_MAX_ADDR`. -/
def phyMaxAddr : Nat := 32

/-- `-ENOMEM` and `-ENODEV`. -/
def mdioEnomem : Int := -12
def mdioEnodev : Int := -19

/-- `struct phy_device`, as far as the registration reads it. -/
structure ProbedPhy where
  phyId : BitVec 32
  irq : Int

/-- `struct stmmac_mdio_bus_data`. -/
structure MdioBusData where
  phyMask : BitVec 32
  irqs : Option (Nat → Int)
  probedPhyIrq : Int

/-- The line printed for a PHY: `act` is the flag, `irq` the number found then. -/
structure PhyLine where
  addr : Nat
  phyId : BitVec 32
  irq : Int
  act : Bool

inductive MdiobusCall where
  | alloc
  | register (phyMask : BitVec 32)
  | unregister
  | free

/-- What the registration reads and writes: `plat->phy_addr`, the list of interrupts that the bus
uses, the devices of the bus, `net_priv.mii`, and what it has printed and called. -/
structure MdioSetup where
  phyAddr : Int
  irqlist : Nat → Int
  phyMap : Nat → Option ProbedPhy
  mii : Bool
  found : Bool
  lines : List PhyLine
  calls : List MdiobusCall

namespace MdioSetup

def call (s : MdioSetup) (c : MdiobusCall) : MdioSetup := { s with calls := s.calls ++ [c] }

end MdioSetup

/-- `plat->phy_addr` after a PHY at `addr`. -/
def probePhyAddr (phyAddr : Int) (addr : Nat) : Int :=
  if phyAddr = -1 then addr else if phyAddr = 0 then addr else phyAddr

/-- The body of the loop, for a PHY at `addr`. -/
def registerPhy (data : MdioBusData) (s : MdioSetup) (addr : Nat) (phydev : ProbedPhy) :
    MdioSetup :=
  let assigned := data.irqs.isNone && decide (data.probedPhyIrq > 0)
  let phydev := if assigned then { phydev with irq := data.probedPhyIrq } else phydev
  let phyAddr := probePhyAddr s.phyAddr addr
  { s with
    irqlist := if assigned then Function.update s.irqlist addr data.probedPhyIrq else s.irqlist
    phyMap := Function.update s.phyMap addr (some phydev)
    phyAddr := phyAddr
    lines := s.lines ++ [⟨addr, phydev.phyId, phydev.irq, decide (phyAddr = addr)⟩]
    found := true }

/-- The loop over the addresses. -/
def registerPhys (data : MdioBusData) (phyMap : Nat → Option ProbedPhy) (s : MdioSetup) :
    MdioSetup :=
  (List.range phyMaxAddr).foldl
    (fun s addr => match phyMap addr with
      | none => s
      | some phydev => registerPhy data s addr phydev) s

/-- What the kernel answers: whether there is memory for a bus, the result of its registration, and
the devices it has found then. -/
structure MdiobusAnswers where
  alloc : Bool
  register : Int
  phyMap : Nat → Option ProbedPhy

/-- `stmmac_mdio_register`. The bus uses `net_priv.mii_irq`, in `irqlist`, unless the board gives a
list; `lines` is what this call prints. -/
def mdioRegister (mdioBusData : Option MdioBusData) (answers : MdiobusAnswers)
    (s : MdioSetup) : Int × MdioSetup :=
  match mdioBusData with
  | none => (0, s)
  | some data =>
    let s := s.call .alloc
    if answers.alloc = false then (mdioEnomem, s)
    else
      let s := { s with irqlist := data.irqs.getD s.irqlist }
      let s := s.call (.register data.phyMask)
      if answers.register ≠ 0 then (answers.register, s.call .free)
      else
        let s := { s with phyMap := answers.phyMap, found := false, lines := [] }
        let s := registerPhys data answers.phyMap s
        if s.found then (0, { s with mii := true })
        else (mdioEnodev, (s.call .unregister).call .free)

/-! ## The choice -/

/-- The addresses at which the bus has a PHY. -/
def populated (phyMap : Nat → Option ProbedPhy) : Set Nat :=
  {addr | addr < phyMaxAddr ∧ (phyMap addr).isSome = true}

/-- No PHY number is given. -/
def NoNumber (phyAddr : Int) : Prop := phyAddr = -1 ∨ phyAddr = 0

/-- The PHY of the MAC is the one with the number given, or else the first, and the flags say
which it is. -/
structure PicksPhy (phyMap : Nat → Option ProbedPhy) (before after : MdioSetup) : Prop where
  first : NoNumber before.phyAddr →
    ∃ addr, IsLeast (populated phyMap) addr ∧ after.phyAddr = (addr : Int)
  given : ¬ NoNumber before.phyAddr → after.phyAddr = before.phyAddr
  act_iff : ∀ line ∈ after.lines, line.act = true ↔ (line.addr : Int) = after.phyAddr
  scanned : ∀ addr, (∃ line ∈ after.lines, line.addr = addr) ↔ addr ∈ populated phyMap

/-- No number is given, and the first of several PHYs is at address 0. -/
def GivesUpZero (phyMap : Nat → Option ProbedPhy) (phyAddr : Int) : Prop :=
  NoNumber phyAddr ∧ 0 ∈ populated phyMap ∧ ∃ addr ∈ populated phyMap, addr ≠ 0

section Loop

variable (data : MdioBusData) {phyMap : Nat → Option ProbedPhy} {s : MdioSetup}

/-- The PHYs in the order of the loop. -/
def phyList (phyMap : Nat → Option ProbedPhy) : List (Nat × ProbedPhy) :=
  (List.range phyMaxAddr).filterMap fun addr => (phyMap addr).map (addr, ·)

theorem registerPhys_eq (phyMap : Nat → Option ProbedPhy) (s : MdioSetup) :
    registerPhys data phyMap s =
      (phyList phyMap).foldl (fun s p => registerPhy data s p.1 p.2) s := by
  unfold registerPhys phyList
  rw [List.foldl_filterMap]
  congr 1
  funext s addr
  cases phyMap addr <;> rfl

theorem mem_phyList {addr : Nat} {phydev : ProbedPhy} :
    (addr, phydev) ∈ phyList phyMap ↔ addr < phyMaxAddr ∧ phyMap addr = some phydev := by
  unfold phyList
  simp only [List.mem_filterMap, List.mem_range, Option.map_eq_some_iff, Prod.mk.injEq]
  constructor
  · rintro ⟨a, ha, p, hp, rfl, rfl⟩
    exact ⟨ha, hp⟩
  · rintro ⟨ha, hp⟩
    exact ⟨addr, ha, phydev, hp, rfl, rfl⟩

theorem mem_populated_iff {addr : Nat} :
    addr ∈ populated phyMap ↔ ∃ phydev, (addr, phydev) ∈ phyList phyMap := by
  simp only [mem_phyList, populated, Set.mem_ofPred_eq, Option.isSome_iff_exists,
    exists_and_left]

theorem phyList_sorted (phyMap : Nat → Option ProbedPhy) :
    (phyList phyMap).Pairwise fun p q => p.1 < q.1 := by
  unfold phyList
  refine List.Pairwise.filterMap _ ?_ List.pairwise_lt_range
  intro a b hab p hp q hq
  obtain ⟨_, -, rfl⟩ := Option.map_eq_some_iff.mp hp
  obtain ⟨_, -, rfl⟩ := Option.map_eq_some_iff.mp hq
  exact hab

/-- The loop over a list of PHYs. -/
def runPhys (ps : List (Nat × ProbedPhy)) (s : MdioSetup) : MdioSetup :=
  ps.foldl (fun s p => registerPhy data s p.1 p.2) s

theorem registerPhy_lines (addr : Nat) (phydev : ProbedPhy) :
    ∃ line, (registerPhy data s addr phydev).lines = s.lines ++ [line] ∧ line.addr = addr ∧
      (line.act = true ↔ probePhyAddr s.phyAddr addr = addr) :=
  ⟨_, rfl, rfl, decide_eq_true_iff⟩

theorem probePhyAddr_of_noNumber {phyAddr : Int} (h : NoNumber phyAddr) (addr : Nat) :
    probePhyAddr phyAddr addr = addr := by
  unfold probePhyAddr
  rcases h with rfl | rfl <;> rfl

theorem probePhyAddr_of_number {phyAddr : Int} (h : ¬ NoNumber phyAddr) (addr : Nat) :
    probePhyAddr phyAddr addr = phyAddr := by
  obtain ⟨hminus, hzero⟩ := not_or.mp h
  rw [probePhyAddr, if_neg hminus, if_neg hzero]

theorem not_noNumber {addr : Nat} (h : addr ≠ 0) : ¬ NoNumber (addr : Int) := by
  unfold NoNumber
  omega

theorem runPhys_found (ps : List (Nat × ProbedPhy)) :
    (runPhys data ps s).found = (s.found || !ps.isEmpty) := by
  induction ps generalizing s with
  | nil => simp [runPhys]
  | cons p ps ih =>
    have hrun : (runPhys data (p :: ps) s).found = _ := ih (s := registerPhy data s p.1 p.2)
    rw [hrun]
    simp [registerPhy]

/-- Each PHY has a line. -/
theorem runPhys_scanned (ps : List (Nat × ProbedPhy)) (addr : Nat) :
    (∃ line ∈ (runPhys data ps s).lines, line.addr = addr) ↔
      (∃ line ∈ s.lines, line.addr = addr) ∨ ∃ phydev, (addr, phydev) ∈ ps := by
  induction ps generalizing s with
  | nil => simp [runPhys]
  | cons p ps ih =>
    obtain ⟨line, hline, haddr, -⟩ := registerPhy_lines data (s := s) p.1 p.2
    have hrun : runPhys data (p :: ps) s = runPhys data ps (registerPhy data s p.1 p.2) := rfl
    rw [hrun, ih, hline]
    simp only [List.mem_append, List.mem_cons, Prod.ext_iff]
    grind

/-- A number is kept. -/
theorem runPhys_phyAddr (ps : List (Nat × ProbedPhy)) (h : ¬ NoNumber s.phyAddr) :
    (runPhys data ps s).phyAddr = s.phyAddr := by
  induction ps generalizing s with
  | nil => rfl
  | cons p ps ih =>
    have haddr : (registerPhy data s p.1 p.2).phyAddr = s.phyAddr := probePhyAddr_of_number h p.1
    exact (ih (by rwa [haddr])).trans haddr

/-- The flags say whether a PHY has the number. -/
theorem runPhys_act (ps : List (Nat × ProbedPhy)) (h : ¬ NoNumber s.phyAddr)
    (hs : ∀ line ∈ s.lines, line.act = true ↔ (line.addr : Int) = s.phyAddr) :
    ∀ line ∈ (runPhys data ps s).lines, line.act = true ↔ (line.addr : Int) = s.phyAddr := by
  induction ps generalizing s with
  | nil => exact hs
  | cons p ps ih =>
    have haddr : (registerPhy data s p.1 p.2).phyAddr = s.phyAddr := probePhyAddr_of_number h p.1
    have hnext := ih (s := registerPhy data s p.1 p.2)
    rw [haddr] at hnext
    refine hnext h fun line hmem => ?_
    obtain ⟨new, hline, hat, hact⟩ := registerPhy_lines data (s := s) p.1 p.2
    rw [hline, List.mem_append, List.mem_singleton] at hmem
    rcases hmem with hmem | rfl
    · exact hs line hmem
    · rw [hact, probePhyAddr_of_number h, hat, eq_comm]

/-- With no number given, the first PHY is taken, unless it is at address 0 and another follows. -/
theorem runPhys_first (p : Nat × ProbedPhy) (ps : List (Nat × ProbedPhy))
    (h : NoNumber s.phyAddr) (hlines : s.lines = []) (hp : p.1 ≠ 0 ∨ ps = []) :
    (runPhys data (p :: ps) s).phyAddr = p.1 ∧
      ∀ line ∈ (runPhys data (p :: ps) s).lines, line.act = true ↔ (line.addr : Int) = p.1 := by
  have haddr : (registerPhy data s p.1 p.2).phyAddr = p.1 := probePhyAddr_of_noNumber h p.1
  have hfirst : ∀ line ∈ (registerPhy data s p.1 p.2).lines,
      line.act = true ↔ (line.addr : Int) = p.1 := by
    obtain ⟨line, hline, hat, hact⟩ := registerPhy_lines data (s := s) p.1 p.2
    rw [hline, hlines]
    simp [hact, hat, probePhyAddr_of_noNumber h]
  rcases hp with hne | rfl
  · have hnumber : ¬ NoNumber (registerPhy data s p.1 p.2).phyAddr := haddr ▸ not_noNumber hne
    have hact := runPhys_act data ps hnumber
    rw [haddr] at hact
    exact ⟨(runPhys_phyAddr data ps hnumber).trans haddr, hact hfirst⟩
  · exact ⟨haddr, hfirst⟩

/-- A PHY at address 0 is given up for the one after it. -/
theorem runPhys_zero (p q : Nat × ProbedPhy) (ps : List (Nat × ProbedPhy)) (hp : p.1 = 0)
    (hq : q.1 ≠ 0) (h : NoNumber s.phyAddr) :
    (runPhys data (p :: q :: ps) s).phyAddr = q.1 := by
  have hzero : (registerPhy data s p.1 p.2).phyAddr = 0 := by
    rw [← Int.natCast_zero, ← hp]
    exact probePhyAddr_of_noNumber h p.1
  have hnext : (registerPhy data (registerPhy data s p.1 p.2) q.1 q.2).phyAddr = q.1 :=
    probePhyAddr_of_noNumber (.inr hzero) q.1
  exact (runPhys_phyAddr data ps (hnext ▸ not_noNumber hq)).trans hnext

end Loop

/-! ## The function -/

section Register

variable {data : MdioBusData} {answers : MdiobusAnswers} {s : MdioSetup}

/-- The setup that the loop starts with. -/
def scanStart (data : MdioBusData) (answers : MdiobusAnswers) (s : MdioSetup) : MdioSetup :=
  { (s.call .alloc).call (.register data.phyMask) with
    irqlist := data.irqs.getD s.irqlist
    phyMap := answers.phyMap
    found := false
    lines := [] }

/-- The setup that it ends with. -/
def scanned (data : MdioBusData) (answers : MdiobusAnswers) (s : MdioSetup) : MdioSetup :=
  runPhys data (phyList answers.phyMap) (scanStart data answers s)

theorem register_eq (halloc : answers.alloc = true) (hreg : answers.register = 0) :
    mdioRegister (some data) answers s =
      if (scanned data answers s).found then (0, { scanned data answers s with mii := true })
      else (mdioEnodev, ((scanned data answers s).call .unregister).call .free) := by
  have hscan : scanned data answers s =
      registerPhys data answers.phyMap (scanStart data answers s) :=
    (registerPhys_eq data _ _).symm
  rw [hscan]
  unfold mdioRegister
  simp only [halloc, hreg, Bool.true_eq_false, if_false, ne_eq, not_true_eq_false]
  rfl

theorem scanned_found_iff :
    (scanned data answers s).found = true ↔ (populated answers.phyMap).Nonempty := by
  unfold scanned
  rw [runPhys_found]
  constructor
  · intro h
    obtain ⟨p, hmem⟩ := List.isEmpty_eq_false_iff_exists_mem.mp (by simpa [scanStart] using h)
    exact ⟨p.1, mem_populated_iff.mpr ⟨p.2, hmem⟩⟩
  · rintro ⟨addr, hmem⟩
    obtain ⟨phydev, hmem⟩ := mem_populated_iff.mp hmem
    have := List.isEmpty_eq_false_iff_exists_mem.mpr ⟨_, hmem⟩
    simp [this]

/-- The function returns 0 exactly when the bus is registered and has a PHY. -/
theorem register_zero_iff :
    (mdioRegister (some data) answers s).1 = 0 ↔
      answers.alloc = true ∧ answers.register = 0 ∧ (populated answers.phyMap).Nonempty := by
  have herr : mdioEnomem ≠ 0 ∧ mdioEnodev ≠ 0 := by decide
  by_cases halloc : answers.alloc = true
  · by_cases hreg : answers.register = 0
    · rw [register_eq halloc hreg, ← @scanned_found_iff data answers s]
      split_ifs with hfound <;> simp [halloc, hreg, hfound, herr]
    · simp [mdioRegister, halloc, hreg]
  · simp [mdioRegister, halloc, herr]

/-- The return value is the one that a probe goes by. -/
theorem register_ret {data : Option MdioBusData} {o : ProbeOutcome}
    (hdata : o.plat.mdioBusData = data.isSome) (halloc : o.mdiobusAlloc = answers.alloc)
    (hregister : o.mdiobusRegister = answers.register)
    (hfound : o.phyFound = true ↔ (populated answers.phyMap).Nonempty) :
    (mdioRegister data answers s).1 = (stmmacMdioRegister o).2 := by
  unfold stmmacMdioRegister
  rw [hdata, halloc, hregister]
  cases data with
  | none => rfl
  | some data =>
    by_cases ha : answers.alloc = true
    · by_cases hr : answers.register = 0
      · rw [register_eq ha hr]
        rw [← @scanned_found_iff data answers s] at hfound
        cases hf : o.phyFound with
        | true =>
          rw [if_pos (hfound.mp hf)]
          simp [ha, hr]
        | false =>
          rw [if_neg (hfound.not.mp (by simp [hf]))]
          simp [ha, hr, mdioEnodev, enodev]
      · simp [mdioRegister, ha, hr]
    · simp [mdioRegister, ha, mdioEnomem, enomem]

/-- The addresses of the PHYs in the order of the loop. -/
theorem populated_cases (h : (populated answers.phyMap).Nonempty) :
    ∃ p ps, phyList answers.phyMap = p :: ps ∧ IsLeast (populated answers.phyMap) p.1 ∧
      ∀ q ∈ ps, p.1 < q.1 := by
  have hsorted := phyList_sorted answers.phyMap
  have hmem : ∀ addr, addr ∈ populated answers.phyMap ↔ _ := fun _ => mem_populated_iff
  cases hlist : phyList answers.phyMap with
  | nil =>
    obtain ⟨addr, haddr⟩ := h
    obtain ⟨phydev, hin⟩ := (hmem addr).mp haddr
    rw [hlist] at hin
    exact absurd hin List.not_mem_nil
  | cons p ps =>
    rw [hlist, List.pairwise_cons] at hsorted
    refine ⟨p, ps, rfl, ⟨(hmem p.1).mpr ⟨p.2, by simp [hlist]⟩, fun addr haddr => ?_⟩, hsorted.1⟩
    obtain ⟨phydev, hin⟩ := (hmem addr).mp haddr
    rw [hlist, List.mem_cons] at hin
    rcases hin with rfl | hin
    · exact Nat.le_refl _
    · exact (hsorted.1 _ hin).le

theorem givesUpZero_iff {p : Nat × ProbedPhy} {ps : List (Nat × ProbedPhy)}
    (hlist : phyList answers.phyMap = p :: ps) (hleast : IsLeast (populated answers.phyMap) p.1)
    (hafter : ∀ q ∈ ps, p.1 < q.1) (hno : NoNumber s.phyAddr) :
    GivesUpZero answers.phyMap s.phyAddr ↔ p.1 = 0 ∧ ps ≠ [] := by
  constructor
  · rintro ⟨-, hzero, addr, hmem, hne⟩
    have hp : p.1 = 0 := Nat.le_zero.mp (hleast.2 hzero)
    refine ⟨hp, ?_⟩
    rintro rfl
    obtain ⟨phydev, hin⟩ := mem_populated_iff.mp hmem
    rw [hlist, List.mem_singleton] at hin
    exact hne ((congrArg Prod.fst hin).trans hp)
  · rintro ⟨hp, hps⟩
    obtain ⟨q, ps, rfl⟩ := List.exists_cons_of_ne_nil hps
    refine ⟨hno, hp ▸ hleast.1, q.1, mem_populated_iff.mpr ⟨q.2, ?_⟩, ?_⟩
    · rw [hlist]
      simp
    · exact Nat.ne_of_gt (hp ▸ hafter q (by simp))

/-- The PHYs that are scanned are those the bus has found. -/
theorem scanned_lines (addr : Nat) :
    (∃ line ∈ (scanned data answers s).lines, line.addr = addr) ↔
      addr ∈ populated answers.phyMap := by
  rw [scanned, runPhys_scanned, mem_populated_iff]
  simp [scanStart]

/-- A number that is given is kept, and the flags say which PHY has it. -/
theorem scanned_given (h : ¬ NoNumber s.phyAddr) :
    (scanned data answers s).phyAddr = s.phyAddr ∧
      ∀ line ∈ (scanned data answers s).lines, line.act = true ↔ (line.addr : Int) = s.phyAddr := by
  have hno : ¬ NoNumber (scanStart data answers s).phyAddr := h
  exact ⟨runPhys_phyAddr data _ hno, runPhys_act data _ hno (by simp [scanStart])⟩

section NoNumberGiven

variable {p : Nat × ProbedPhy} {ps : List (Nat × ProbedPhy)}
  (hlist : phyList answers.phyMap = p :: ps) (h : NoNumber s.phyAddr)
include hlist h

theorem scanned_first (hp : p.1 ≠ 0 ∨ ps = []) :
    (scanned data answers s).phyAddr = p.1 ∧
      ∀ line ∈ (scanned data answers s).lines, line.act = true ↔ (line.addr : Int) = p.1 := by
  have hno : NoNumber (scanStart data answers s).phyAddr := h
  rw [scanned, hlist]
  exact runPhys_first data p ps hno rfl hp

/-- The PHY at address 0 is given up. -/
theorem scanned_zero (hp : p.1 = 0) (hps : ps ≠ []) (hafter : ∀ q ∈ ps, p.1 < q.1) :
    (scanned data answers s).phyAddr ≠ 0 := by
  obtain ⟨q, rest, rfl⟩ := List.exists_cons_of_ne_nil hps
  have hno : NoNumber (scanStart data answers s).phyAddr := h
  have hq : 0 < q.1 := hp ▸ hafter q (by simp)
  rw [scanned, hlist, runPhys_zero data p q rest hp hq.ne' hno]
  omega

end NoNumberGiven

/-- A call that returns 0 picks the PHY and flags it as it should exactly if a number is given, or
no PHY is at address 0, or that PHY is the only one. -/
theorem picksPhy_iff (hret : (mdioRegister (some data) answers s).1 = 0) :
    PicksPhy answers.phyMap s (mdioRegister (some data) answers s).2 ↔
      ¬ GivesUpZero answers.phyMap s.phyAddr := by
  obtain ⟨halloc, hreg, hpop⟩ := register_zero_iff.mp hret
  have hend : (mdioRegister (some data) answers s).2 =
      { scanned data answers s with mii := true } := by
    rw [register_eq halloc hreg, if_pos (scanned_found_iff.mpr hpop)]
  rw [hend]
  by_cases hno : NoNumber s.phyAddr
  · obtain ⟨p, ps, hlist, hleast, hafter⟩ := populated_cases hpop
    rw [givesUpZero_iff hlist hleast hafter hno]
    by_cases hgood : p.1 ≠ 0 ∨ ps = []
    · obtain ⟨haddr, hact⟩ := @scanned_first data answers s p ps hlist hno hgood
      refine iff_of_true ⟨fun _ => ⟨p.1, hleast, haddr⟩, fun h => absurd hno h, ?_,
        scanned_lines⟩ (by tauto)
      intro line hline
      rw [hact line hline]
      exact Eq.congr_right haddr.symm
    · obtain ⟨hp, hps⟩ := not_or.mp hgood
      rw [not_not] at hp
      refine iff_of_false (fun h => ?_) (not_not.mpr ⟨hp, hps⟩)
      obtain ⟨addr, hleast', haddr⟩ := h.first hno
      rw [hleast'.unique hleast, hp] at haddr
      exact scanned_zero hlist hno hp hps hafter haddr
  · obtain ⟨haddr, hact⟩ := @scanned_given data answers s hno
    refine iff_of_true ⟨fun h => absurd h hno, fun _ => haddr, ?_, scanned_lines⟩
      (fun h => hno h.1)
    intro line hline
    rw [hact line hline]
    exact Eq.congr_right haddr.symm

/-- One PHY, at address 3. -/
theorem picksPhy_iff_three :
    let phyMap := fun addr => if addr = 3 then some (ProbedPhy.mk 0x001cc915 (-1)) else none
    let s := MdioSetup.mk (-1) (fun _ => -1) (fun _ => none) false false [] []
    PicksPhy phyMap s (mdioRegister (some ⟨0, none, 0⟩) ⟨true, 0, phyMap⟩ s).2 ↔
      ¬ GivesUpZero phyMap s.phyAddr := by
  intro phyMap s
  have hret : (mdioRegister (some ⟨0, none, 0⟩) ⟨true, 0, phyMap⟩ s).1 = 0 := by decide
  exact picksPhy_iff hret

/-- PHYs at addresses 0 and 1, with no number given: address 1 is picked, and both are flagged. -/
theorem picks_one_not_zero :
    let phyMap := fun addr => if addr < 2 then some (ProbedPhy.mk 0x001cc915 (-1)) else none
    let s := MdioSetup.mk (-1) (fun _ => -1) (fun _ => none) false false [] []
    let after := (mdioRegister (some ⟨0, none, 0⟩) ⟨true, 0, phyMap⟩ s).2
    after.phyAddr = 1 ∧ after.lines.map (fun line => (line.addr, line.act)) =
      [(0, true), (1, true)] ∧ ¬ PicksPhy phyMap s after := by
  intro phyMap s after
  have hend : after.phyAddr = 1 ∧ after.lines.map (fun line => (line.addr, line.act)) =
      [(0, true), (1, true)] := by decide
  refine ⟨hend.1, hend.2, fun h => ?_⟩
  obtain ⟨addr, hleast, haddr⟩ := h.first (.inl rfl)
  have hzero : addr ≤ 0 := hleast.2 ⟨by decide, by decide⟩
  rw [hend.1] at haddr
  omega

end Register

end Stmmac
