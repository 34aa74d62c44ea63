import Mathlib.Data.List.Count
import Stmmac.Library.History

/-!
# The clocks of the platform

`gmac_clk_init` and `gmac_clk_enable` of `gmac_ctrl.c`, with the calls they make of the clock
framework. The flag `clk_enable` stands for the clocks that were enabled, but it is set whether or
not `clk_prepare_enable` succeeded.
-/

namespace Stmmac

open Library

/-- The clocks of `struct bsp_priv`. -/
inductive Clk where
  | clkMac | clkMacPll | gmacClkin | macClkRx | macClkTx | clkMacRef | clkMacRefout | aclkMac
  | pclkMac
  deriving DecidableEq, Repr

/-- `phy_iface`; the code tells these apart. -/
inductive PhyIface where
  | rgmii | rmii | other
  deriving DecidableEq, Repr

/-- A call of the clock framework, with its outcome where there is one. -/
inductive ClkCall where
  | get (clk : Clk) (ok : Bool)
  | setRate (clk : Clk) (rate : Nat)
  | setParent (clk parent : Clk)
  | prepareEnable (clk : Clk) (ok : Bool)
  | disableUnprepare (clk : Clk)
  deriving DecidableEq, Repr

/-- The clock fields of `struct bsp_priv`, and the calls made so far. -/
structure BspClk where
  phyIface : PhyIface
  clockInput : Bool
  /-- The pointer of a clock is not an error. -/
  provided : Clk → Bool
  clkEnable : Bool
  calls : List ClkCall

/-- The clocks in the order in which `gmac_clk_init` gets them. -/
def clksGot : List Clk :=
  [.macClkRx, .macClkTx, .clkMacRef, .clkMacRefout, .aclkMac, .pclkMac, .clkMacPll, .gmacClkin,
    .clkMac]

/-- The calls of `gmac_clk_init` that choose the source of `clk_mac`. -/
def clkSource (phyIface : PhyIface) (clockInput : Bool) : List ClkCall :=
  if clockInput then
    (if phyIface = .rmii then [.setRate .gmacClkin 50000000] else []) ++
      [.setParent .clkMac .gmacClkin]
  else
    (if phyIface = .rmii then [.setRate .clkMacPll 50000000] else []) ++
      [.setParent .clkMac .clkMacPll]

/-- `gmac_clk_init`; `got` is what `clk_get` provides. -/
def gmacClkInit (got : Clk → Bool) (s : BspClk) : BspClk :=
  { s with
    clkEnable := false
    provided := got
    calls := s.calls ++ clksGot.map (fun clk => .get clk (got clk)) ++
      clkSource s.phyIface s.clockInput }

/-- The clocks that `gmac_clk_enable` switches, in its order. -/
def clksSwitched (phyIface : PhyIface) : List Clk :=
  (if phyIface = .rmii then [.macClkRx, .clkMacRef, .clkMacRefout] else []) ++
    [.aclkMac, .pclkMac, .macClkTx, .clkMac]

namespace BspClk

/-- Those of them that are not errors. -/
def switched (s : BspClk) : List Clk := (clksSwitched s.phyIface).filter s.provided

end BspClk

/-- A call of `gmac_clk_enable`, with the outcomes of the calls of `clk_prepare_enable`. -/
structure ClkReq where
  enable : Bool
  ok : Clk → Bool

def gmacClkEnable (s : BspClk) (req : ClkReq) : BspClk :=
  if req.enable then
    if s.clkEnable then s
    else
      { s with
        clkEnable := true
        calls := s.calls ++ s.switched.map fun clk => .prepareEnable clk (req.ok clk) }
  else if s.clkEnable then
    { s with clkEnable := false, calls := s.calls ++ s.switched.map .disableUnprepare }
  else s

/-! ## Balance -/

/-- How often a clock was enabled successfully. -/
def enables (calls : List ClkCall) (clk : Clk) : Nat := calls.count (.prepareEnable clk true)

/-- How often a clock was disabled. -/
def disables (calls : List ClkCall) (clk : Clk) : Nat := calls.count (.disableUnprepare clk)

/-- Each clock is enabled at most once more than it is disabled, and as the flag says. -/
structure ClkBalanced (s : BspClk) : Prop where
  covered : ∀ clk, disables s.calls clk ≤ enables s.calls clk
  once : ∀ clk, enables s.calls clk ≤ disables s.calls clk + 1
  off : s.clkEnable = false → ∀ clk, enables s.calls clk = disables s.calls clk
  on : s.clkEnable = true → ∀ clk ∈ s.switched, enables s.calls clk = disables s.calls clk + 1

theorem ClkBalanced.of_eq {s : BspClk} (hoff : s.clkEnable = false)
    (h : ∀ clk, enables s.calls clk = disables s.calls clk) : ClkBalanced s where
  covered clk := Nat.le_of_eq (h clk).symm
  once clk := Nat.le_succ_of_le (Nat.le_of_eq (h clk))
  off _ := h
  on hon := by simp [hoff] at hon

/-- An enable that takes effect enables every clock that it switches. -/
def EnablesAll (s : BspClk) (req : ClkReq) : Prop :=
  req.enable = true → s.clkEnable = false → ∀ clk ∈ s.switched, req.ok clk = true

variable {s : BspClk} {req : ClkReq} {calls : List ClkCall} {clk : Clk} {clks : List Clk}

theorem nodup_clksSwitched (phyIface : PhyIface) : (clksSwitched phyIface).Nodup := by
  cases phyIface <;> decide

namespace BspClk

theorem nodup_switched (s : BspClk) : s.switched.Nodup := (nodup_clksSwitched s.phyIface).filter _

end BspClk

/-! ## Counting calls -/

theorem enables_append_prepareEnable (hnodup : clks.Nodup) (ok : Clk → Bool) :
    enables (calls ++ clks.map fun clk => .prepareEnable clk (ok clk)) clk =
      enables calls clk + if clk ∈ clks ∧ ok clk = true then 1 else 0 := by
  rw [enables, List.count_append]
  congr 1
  induction clks with
  | nil => rfl
  | cons c clks ih =>
    obtain ⟨hc, hnodup⟩ := List.nodup_cons.mp hnodup
    rw [List.map_cons, List.count_cons, ih hnodup]
    by_cases hclk : c = clk
    · subst hclk
      simp [hc]
    · simp [hclk, Ne.symm hclk]

theorem disables_append_prepareEnable (ok : Clk → Bool) :
    disables (calls ++ clks.map fun clk => .prepareEnable clk (ok clk)) clk =
      disables calls clk := by
  have hnone : (clks.map fun clk => ClkCall.prepareEnable clk (ok clk)).count
      (.disableUnprepare clk) = 0 := List.count_eq_zero.mpr (by simp)
  rw [disables, List.count_append, hnone]
  rfl

theorem enables_append_disableUnprepare :
    enables (calls ++ clks.map .disableUnprepare) clk = enables calls clk := by
  have hnone : (clks.map ClkCall.disableUnprepare).count (.prepareEnable clk true) = 0 :=
    List.count_eq_zero.mpr (by simp)
  rw [enables, List.count_append, hnone]
  rfl

theorem disables_append_disableUnprepare (hnodup : clks.Nodup) :
    disables (calls ++ clks.map .disableUnprepare) clk =
      disables calls clk + if clk ∈ clks then 1 else 0 := by
  rw [disables, List.count_append,
    List.count_map_of_injective clks _ fun _ _ h => ClkCall.disableUnprepare.inj h, hnodup.count]
  rfl

/-! ## One call of `gmac_clk_enable` -/

/-- A call that finds the flag as it should be does nothing. -/
theorem gmacClkEnable_same (h : req.enable = s.clkEnable) : gmacClkEnable s req = s := by
  unfold gmacClkEnable
  cases hen : req.enable <;> simp [← h, hen]

theorem gmacClkEnable_on (hen : req.enable = true) (hoff : s.clkEnable = false) :
    gmacClkEnable s req =
      { s with
        clkEnable := true
        calls := s.calls ++ s.switched.map fun clk => .prepareEnable clk (req.ok clk) } := by
  simp [gmacClkEnable, hen, hoff]

theorem gmacClkEnable_off (hen : req.enable = false) (hon : s.clkEnable = true) :
    gmacClkEnable s req =
      { s with clkEnable := false, calls := s.calls ++ s.switched.map .disableUnprepare } := by
  simp [gmacClkEnable, hen, hon]

/-- Clocks that are not switched are never called. -/
def ClkFrame (s : BspClk) : Prop :=
  ∀ clk ∉ s.switched, enables s.calls clk = 0 ∧ disables s.calls clk = 0

theorem ClkFrame.step (h : ClkFrame s) (req : ClkReq) : ClkFrame (gmacClkEnable s req) := by
  have hnodup := s.nodup_switched
  cases hen : req.enable <;> cases hflag : s.clkEnable
  · rwa [gmacClkEnable_same (hen.trans hflag.symm)]
  · rw [gmacClkEnable_off hen hflag]
    intro clk hclk
    change clk ∉ s.switched at hclk
    obtain ⟨he, hd⟩ := h clk hclk
    exact ⟨by rw [enables_append_disableUnprepare, he],
      by rw [disables_append_disableUnprepare hnodup, hd, if_neg hclk]⟩
  · rw [gmacClkEnable_on hen hflag]
    intro clk hclk
    change clk ∉ s.switched at hclk
    obtain ⟨he, hd⟩ := h clk hclk
    exact ⟨by rw [enables_append_prepareEnable hnodup, he, if_neg fun h => hclk h.1],
      by rw [disables_append_prepareEnable, hd]⟩
  · rwa [gmacClkEnable_same (hen.trans hflag.symm)]

/-- A call keeps the balance exactly if it enables all that it should. -/
theorem ClkBalanced.step_iff (hframe : ClkFrame s) (h : ClkBalanced s) (req : ClkReq) :
    ClkBalanced (gmacClkEnable s req) ↔ EnablesAll s req := by
  have hnodup := s.nodup_switched
  cases hen : req.enable <;> cases hflag : s.clkEnable
  · rw [gmacClkEnable_same (hen.trans hflag.symm)]
    exact iff_of_true h fun hon => by simp [hen] at hon
  · refine iff_of_true ?_ fun hon => by simp [hen] at hon
    rw [gmacClkEnable_off hen hflag]
    refine .of_eq rfl fun clk => ?_
    rw [enables_append_disableUnprepare, disables_append_disableUnprepare hnodup]
    split_ifs with hclk
    · exact h.on hflag clk hclk
    · obtain ⟨he, hd⟩ := hframe clk hclk
      rw [he, hd]
  · rw [gmacClkEnable_on hen hflag]
    have hoff := h.off hflag
    constructor
    · intro hbal _ _ clk hclk
      have hon := hbal.on rfl clk hclk
      rw [enables_append_prepareEnable hnodup, disables_append_prepareEnable, hoff clk] at hon
      by_contra hok
      simp [hok] at hon
    · intro hall
      refine ⟨fun clk => ?_, fun clk => ?_, fun hoff => ?_, fun _ clk hclk => ?_⟩
      · rw [enables_append_prepareEnable hnodup, disables_append_prepareEnable, hoff clk]
        exact Nat.le_add_right _ _
      · rw [enables_append_prepareEnable hnodup, disables_append_prepareEnable, hoff clk]
        split_ifs <;> omega
      · cases hoff
      · rw [enables_append_prepareEnable hnodup, disables_append_prepareEnable, hoff clk,
          if_pos ⟨hclk, hall hen hflag clk hclk⟩]
  · rw [gmacClkEnable_same (hen.trans hflag.symm)]
    exact iff_of_true h fun _ hoff => by simp [hflag] at hoff

/-! ## Runs -/

/-- Only getting the clocks and choosing the source is done at first. -/
theorem gmacClkInit_counts (got : Clk → Bool) (hcalls : s.calls = []) (clk : Clk) :
    enables (gmacClkInit got s).calls clk = 0 ∧ disables (gmacClkInit got s).calls clk = 0 := by
  unfold enables disables gmacClkInit clkSource
  rw [hcalls]
  constructor <;> refine List.count_eq_zero.mpr ?_ <;> split_ifs <;> simp [clksGot]

/-- The clocks stay balanced in every state of a run exactly if each enable that takes effect
succeeds for every clock that it switches. -/
theorem clk_balanced_iff (phyIface : PhyIface) (clockInput : Bool) (got : Clk → Bool)
    (reqs : List ClkReq) :
    let s := gmacClkInit got ⟨phyIface, clockInput, fun _ => false, false, []⟩
    (∀ done, done <+: reqs → ClkBalanced (done.foldl gmacClkEnable s)) ↔
      ∀ done req, done ++ [req] <+: reqs → EnablesAll (done.foldl gmacClkEnable s) req := by
  intro s
  have hcounts (clk : Clk) : enables s.calls clk = 0 ∧ disables s.calls clk = 0 :=
    gmacClkInit_counts got rfl clk
  refine forall_prefix_iff (I := ClkFrame) (fun _ req h => h.step req)
    (fun _ req hframe h => h.step_iff hframe req) (fun clk _ => hcounts clk) ?_
  exact .of_eq rfl fun clk => (hcounts clk).1.trans (hcounts clk).2.symm

/-- One failing `clk_prepare_enable` is followed by a disable that nothing matches. -/
theorem clk_unbalanced :
    let s := gmacClkInit (fun _ => true) ⟨.rmii, true, fun _ => false, false, []⟩
    ¬ ∀ done, done <+: [⟨true, fun clk => clk != .aclkMac⟩, ⟨false, fun _ => true⟩] →
      ClkBalanced (done.foldl gmacClkEnable s) :=
  fun h => absurd ((h _ (List.prefix_refl _)).covered .aclkMac) (by decide)

end Stmmac
