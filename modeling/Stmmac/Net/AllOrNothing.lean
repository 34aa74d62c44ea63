import Stmmac.Net.Open

/-!
# Opening an interface, all or nothing

Every exit of `stmmac_open` acquires first and releases afterwards, so whether it undoes what it
did is a comparison of two lists. A failing exit never turns the PHY power off, removes no sysfs
file, frees no ring and leaves `phydev` with a detached PHY, and `init_dma_desc_rings` has no
result: a call can succeed without rings, and index arrays start out uninitialized.
-/

namespace Stmmac

open Library
open Library.Ledger (Event replay history)

/-- A resource that is only taken in some configurations. -/
def opt (b : Bool) (r : OpenRes) : List OpenRes := if b then [r] else []

@[simp] theorem count_opt (b : Bool) (r x : OpenRes) :
    (opt b r).count x = if b ∧ r = x then 1 else 0 := by
  cases b <;> simp [opt, List.count_singleton]

variable (c : OpenConf) (e : OpenEnv)

/-! ## What is acquired and released -/

def PhyAnswer.isAttached : PhyAnswer → Bool
  | .attached => true
  | .error _ _ | .noDevice => false

def powerTaken : List OpenRes := opt c.phyPowerOn .phyPower ++ opt c.gmacClkEnable .gmacClk

def rxTaken (i : Nat) : List OpenRes := [.rxSkb i, .rxMap i]

def arraysTaken : List OpenRes :=
  opt e.rxSkbuffDma .rxSkbuffDma ++ opt e.rxSkbuff .rxSkbuff ++
    (opt e.txSkbuffDma .txSkbuffDma ++ opt e.txSkbuff .txSkbuff)

/-- By `init_dma_desc_rings`. -/
def ringsTaken : List OpenRes :=
  opt e.dmaRx .dmaRx ++ opt e.dmaTx .dmaTx ++
    if e.dmaRx && e.dmaTx then arraysTaken e ++ (rxFilled c e).flatMap rxTaken else []

/-- By `open_error`. -/
def errorReleased (p : PhyPtr) : List OpenRes :=
  opt (p ≠ .null) .phy ++ opt c.gmacClkEnable .gmacClk

/-- The pointer after `phy_disconnect`, if there was something to disconnect. -/
def PhyPtr.disconnect : PhyPtr → PhyPtr
  | .null => .null
  | .attached | .detached => .detached

def irqsTaken : List OpenRes :=
  .irq :: (opt c.otherWolIrq .wolIrq ++ opt c.hasLpiIrq .lpiIrq)

def rxReleased (f : Nat → RxEntry) (i : Nat) : List OpenRes :=
  match f i with
  | .null => []
  | .skb | .stale => [.rxMap i, .rxSkb i]

/-- By `stmmac_release`. -/
def allReleased (s : OpenState) : List OpenRes :=
  (if s.phydev = .null then [] else [.sysfs, .phy]) ++ irqsTaken c ++
    (List.range c.rxSize).flatMap (rxReleased s.rxSkbuff) ++
    [.dmaTx, .dmaRx, .rxSkbuffDma, .rxSkbuff, .txSkbuffDma, .txSkbuff] ++ powerTaken c

/-! ## Steps that only acquire -/

/-- Only the resources change. -/
structure Acquires (s s' : OpenState) (as : List OpenRes) : Prop where
  events : s'.events = s.events ++ as.map .acquire
  phydev : s'.phydev = s.phydev
  allocated : s'.allocated = s.allocated
  rxSkbuff : s'.rxSkbuff = s.rxSkbuff

namespace Acquires

variable {c e} {s s' s'' : OpenState} {as bs : List OpenRes}

theorem refl (s : OpenState) : Acquires s s [] := ⟨by simp, rfl, rfl, rfl⟩

theorem trans (h : Acquires s s' as) (h' : Acquires s' s'' bs) : Acquires s s'' (as ++ bs) := by
  refine ⟨?_, h'.phydev.trans h.phydev, h'.allocated.trans h.allocated,
    h'.rxSkbuff.trans h.rxSkbuff⟩
  rw [h'.events, h.events, List.map_append, List.append_assoc]

theorem use (h : Acquires s s' as) (u : OpsUse) : Acquires s (s'.use u) as :=
  ⟨h.events, h.phydev, h.allocated, h.rxSkbuff⟩

theorem acquire (h : Acquires s s' as) (r : OpenRes) : Acquires s (s'.acquire r) (as ++ [r]) :=
  h.trans ⟨rfl, rfl, rfl, rfl⟩

theorem acquireIf (h : Acquires s s' as) (b : Bool) (r : OpenRes) :
    Acquires s (s'.acquireIf b r) (as ++ opt b r) := by
  cases b with
  | true => exact h.acquire r
  | false => exact h.trans (refl s')

theorem foldl {f : OpenState → Nat → OpenState} {taken : Nat → List OpenRes}
    (hf : ∀ s i, Acquires s (f s i) (taken i)) (l : List Nat) (s : OpenState) :
    Acquires s (l.foldl f s) (l.flatMap taken) := by
  induction l generalizing s with
  | nil => exact refl s
  | cons i l ih => exact (hf s i).trans (ih (f s i))

end Acquires

theorem clearDescriptorsUses_acquires (s : OpenState) :
    Acquires s (clearDescriptorsUses c s) [] := by
  have huse : ∀ (u : OpsUse) (n : Nat) (s : OpenState),
      Acquires s ((List.range n).foldl (fun s _ => s.use u) s) [] := by
    intro u n s
    have h := Acquires.foldl (fun s (_ : Nat) => (Acquires.refl s).use u) (List.range n) s
    rwa [List.flatMap_eq_nil_iff.mpr fun _ _ => rfl] at h
  exact (huse _ _ s).trans (huse _ _ _)

theorem stmmacInitRxBuffersRes_acquires (s : OpenState) (i : Nat) :
    Acquires s (stmmacInitRxBuffersRes c s i) (rxTaken i) := by
  have h := ((Acquires.refl s).acquire (.rxSkb i)).acquire (.rxMap i)
  unfold stmmacInitRxBuffersRes
  dsimp only
  split
  · exact h.use _
  · exact h

theorem chainInits_acquires (s : OpenState) : Acquires s (chainInits c s) [] := by
  unfold chainInits
  split
  · exact .refl s
  · exact ((Acquires.refl s).use _).use _

theorem set16kibBfsizeUse_acquires (s : OpenState) : Acquires s (set16kibBfsizeUse c s) [] := by
  unfold set16kibBfsizeUse
  split
  · exact (Acquires.refl s).use _
  · exact .refl s

theorem eeeInitRes_acquires (s : OpenState) : Acquires s (eeeInitRes c e s) [] := by
  have h : ∀ s' : OpenState, Acquires s s' [] → ∀ a b,
      Acquires s { s' with eeeActive := a, eeeEnabled := b } [] := fun _ h _ _ =>
    ⟨h.events, h.phydev, h.allocated, h.rxSkbuff⟩
  unfold eeeInitRes
  split_ifs
  · exact h s (.refl s) _ _
  · exact h s (.refl s) _ _
  · exact h _ ((Acquires.refl s).use _) _ _
  · exact h _ ((Acquires.refl s).use _) _ _
  · exact h s (.refl s) _ _

theorem openStart_acquires (s : OpenState) : Acquires s (openStart c e s) [] := by
  have hif : ∀ (p : Prop) [Decidable p] (s s' t : OpenState), Acquires s s' [] →
      Acquires s t [] → Acquires s (if p then s' else t) [] := by
    intro p _ s s' t h h'
    split
    · exact h
    · exact h'
  have h := (((Acquires.refl s).use (.dma .dmaMode)).use (.dma .startTx)).use (.dma .startRx)
  have h := hif c.msgHw _ _ _ ((h.use (.mac .dumpRegs)).use (.dma .dumpRegs)) h
  have h := h.trans (eeeInitRes_acquires c e _)
  have h := hif c.useRiwt _ _ _ (h.use .testDma) h
  exact hif (c.eee.pcs ≠ 0) _ _ _ (h.use .testMac) h

/-- An index array that could not be allocated is used. -/
def Crashes : Prop :=
  (e.dmaRx && e.dmaTx) = true ∧
    (rxFilled c e ≠ [] ∧ ¬ (e.rxSkbuff && e.rxSkbuffDma) = true ∨
      c.txSize ≠ 0 ∧ ¬ (e.txSkbuff && e.txSkbuffDma) = true)

instance : Decidable (Crashes c e) := inferInstanceAs (Decidable (_ ∧ _))

theorem allocArrays_acquires (s : OpenState) :
    Acquires { s with
      allocated := e.rxSkbuffDma && e.rxSkbuff && e.txSkbuffDma && e.txSkbuff
      rxSkbuff := openedRx c e } (allocArrays c e s) (arraysTaken e) := by
  have h := (((Acquires.refl s).acquireIf e.rxSkbuffDma .rxSkbuffDma).acquireIf
    e.rxSkbuff .rxSkbuff).acquireIf e.txSkbuffDma .txSkbuffDma
  have h := h.acquireIf e.txSkbuff .txSkbuff
  refine ⟨h.events.trans ?_, h.phydev, rfl, rfl⟩
  simp [arraysTaken]

/-- What `init_dma_desc_rings` has done. -/
structure RingsOpened (s s' : OpenState) : Prop where
  events : s'.events = s.events ++ (ringsTaken c e).map .acquire
  phydev : s'.phydev = s.phydev
  allocated : s'.allocated = (e.dmaRx && e.dmaTx && (e.rxSkbuffDma && e.rxSkbuff &&
    e.txSkbuffDma && e.txSkbuff))
  rxSkbuff : (e.dmaRx && e.dmaTx) = true → s'.rxSkbuff = openedRx c e

variable {c e}

theorem initDmaDescRings_crashes (h : Crashes c e) (s : OpenState) :
    (initDmaDescRingsRes c e s).2 = false := by
  obtain ⟨hdma, h⟩ := h
  obtain ⟨hrx, htx⟩ := Bool.and_eq_true_iff.mp hdma
  simp only [initDmaDescRingsRes, hrx, htx, Bool.not_true, Bool.or_false, Bool.false_eq_true,
    if_false]
  split
  · rfl
  · next hfirst => rw [if_pos (h.resolve_left hfirst)]

theorem initDmaDescRings_opened (h : ¬ Crashes c e) (s : OpenState) :
    (initDmaDescRingsRes c e s).2 = true ∧ RingsOpened c e s (initDmaDescRingsRes c e s).1 := by
  have hrings : Acquires s (allocRings e (set16kibBfsizeUse c s))
      (opt e.dmaRx .dmaRx ++ opt e.dmaTx .dmaTx) := by
    have h := set16kibBfsizeUse_acquires c s
    exact (h.acquireIf e.dmaRx .dmaRx).acquireIf e.dmaTx .dmaTx
  unfold initDmaDescRingsRes
  generalize allocRings e (set16kibBfsizeUse c s) = t at hrings ⊢
  by_cases hdma : (e.dmaRx && e.dmaTx) = true
  · obtain ⟨hrx, htx⟩ := Bool.and_eq_true_iff.mp hdma
    have hno := not_or.mp fun h' => h ⟨hdma, h'⟩
    simp only [hrx, htx, Bool.not_true, Bool.or_false, Bool.false_eq_true, if_false,
      if_neg hno.1, if_neg hno.2]
    have harrays := allocArrays_acquires c e t
    have hbufs := Acquires.foldl (stmmacInitRxBuffersRes_acquires c) (rxFilled c e)
      (allocArrays c e t)
    have hend := ((harrays.trans hbufs).trans (chainInits_acquires c _)).trans
      (clearDescriptorsUses_acquires c _)
    refine ⟨trivial, ?_, hend.phydev.trans hrings.phydev, ?_, fun _ => hend.rxSkbuff⟩
    · simp [hend.events, hrings.events, ringsTaken, hrx, htx]
    · rw [hend.allocated, hrx, htx, Bool.and_self, Bool.true_and]
  · have hnot : (!e.dmaRx || !e.dmaTx) = true := by
      rwa [← Bool.not_and, Bool.not_eq_true', Bool.eq_false_iff]
    rw [if_pos hnot]
    refine ⟨rfl, ?_, hrings.phydev, ?_, fun h => absurd h hdma⟩
    · rw [hrings.events, ringsTaken, if_neg hdma, List.append_nil]
    · rw [Bool.eq_false_iff.mpr hdma, Bool.false_and]

/-! ## Failing and succeeding -/

theorem openError_eq (s : OpenState) :
    openError c s = { s with
      phydev := s.phydev.disconnect
      events := s.events ++ (errorReleased c s.phydev).map .release } := by
  obtain ⟨m, p, a, rx, ea, ee, ev, us⟩ := s
  cases p <;> cases hclk : c.gmacClkEnable <;>
    simp [openError, OpenState.releaseIf, OpenState.release, errorReleased, opt,
      PhyPtr.disconnect, hclk]

variable (c e)

/-- A failing exit after the rings; the interrupt lines are given back. -/
structure Undone (s s' : OpenState) : Prop where
  phydev : s'.phydev = s.phydev.disconnect
  events : ∃ lines lines' : List OpenRes, lines.Perm lines' ∧
    s'.events = s.events ++ history (ringsTaken c e ++ lines) (lines' ++ errorReleased c s.phydev)

/-- The DMA reset or a request for an interrupt line fails. -/
def FailsLate : Prop :=
  e.dmaInit < 0 ∨ e.requestIrq < 0 ∨ (c.otherWolIrq ∧ e.requestWolIrq < 0) ∨
    (c.hasLpiIrq ∧ e.requestLpiIrq < 0)

instance : Decidable (FailsLate c e) := inferInstanceAs (Decidable (_ ∨ _))

/-- A successful exit. -/
structure Opened (s s' : OpenState) : Prop where
  events : s'.events = s.events ++ (ringsTaken c e ++ irqsTaken c).map .acquire
  phydev : s'.phydev = s.phydev
  allocated : s'.allocated = (e.dmaRx && e.dmaTx && (e.rxSkbuffDma && e.rxSkbuff &&
    e.txSkbuffDma && e.txSkbuff))
  rxSkbuff : (e.dmaRx && e.dmaTx) = true → s'.rxSkbuff = openedRx c e

variable {c e}

theorem RingsOpened.undone {s t t' : OpenState} {lines : List OpenRes}
    (h : RingsOpened c e s t) (h' : Acquires t t' lines) (lines' : List OpenRes)
    (hperm : lines.Perm lines') (f : OpenState)
    (hf : f.events = t'.events ++ lines'.map .release) (hp : f.phydev = t'.phydev) :
    Undone c e s (openError c f) := by
  have hphy : f.phydev = s.phydev := hp.trans (h'.phydev.trans h.phydev)
  rw [openError_eq]
  refine ⟨by rw [hphy], lines, lines', hperm, ?_⟩
  simp [hphy, hf, h'.events, h.events, history]

theorem openRings_cases (h : ¬ Crashes c e) (s : OpenState) :
    (FailsLate c e ∧ ∃ ret s', openRings c e s = .returned ret s' ∧ ret < 0 ∧ Undone c e s s') ∨
      ¬ FailsLate c e ∧ ∃ s', openRings c e s = .returned 0 s' ∧ Opened c e s s' := by
  obtain ⟨hret, ht⟩ := initDmaDescRings_opened h s
  unfold openRings
  generalize initDmaDescRingsRes c e s = r at hret ht ⊢
  obtain ⟨t, b⟩ := r
  obtain rfl : b = true := hret
  have hmac := (((Acquires.refl t).use (.dma .init)).use (.mac .setUmacAddr)).use (.mac .coreInit)
  have hirq := hmac.acquire .irq
  have hwol := hirq.acquireIf c.otherWolIrq .wolIrq
  dsimp only at ht ⊢
  split_ifs with hdma hreq hreqWol hreqLpi
  · refine .inl ⟨.inl hdma, _, _, rfl, hdma, ht.undone (.refl t) _ .rfl _ ?_ rfl⟩
    simp [OpenState.use]
  · exact .inl ⟨.inr (.inl hreq), _, _, rfl, hreq, ht.undone hmac _ .rfl _ (by simp) rfl⟩
  · refine .inl ⟨.inr (.inr (.inl hreqWol)), _, _, rfl, hreqWol.2, ?_⟩
    exact ht.undone hirq _ .rfl _ rfl rfl
  · refine .inl ⟨.inr (.inr (.inr hreqLpi)), _, _, rfl, hreqLpi.2, ?_⟩
    refine ht.undone hwol (opt c.otherWolIrq .wolIrq ++ [.irq]) ?_ _ ?_ ?_
    · exact List.perm_append_comm
    · cases hw : c.otherWolIrq <;> simp [OpenState.releaseIf, OpenState.release, opt]
    · cases hw : c.otherWolIrq <;> rfl
  · refine .inr ⟨?_, _, rfl, ?_⟩
    · simp only [FailsLate, not_or]
      exact ⟨hdma, hreq, hreqWol, hreqLpi⟩
    · have h := (hwol.acquireIf c.hasLpiIrq .lpiIrq).trans (openStart_acquires c e _)
      refine ⟨?_, h.phydev.trans ht.phydev, h.allocated.trans ht.allocated,
        fun hdma => h.rxSkbuff.trans (ht.rxSkbuff hdma)⟩
      simp [h.events, ht.events, irqsTaken]

variable (c e)

/-- MDIO registration or the attachment of the PHY fails. -/
def FailsEarly (s : OpenState) : Prop :=
  c.hasPhyBus ∧ (s.mdioRegistered = false ∧ e.mdioRegister < 0 ∨ e.phyConnect.isAttached = false)

instance (s : OpenState) : Decidable (FailsEarly c e s) := inferInstanceAs (Decidable (_ ∧ _))

def phyTaken : List OpenRes := if c.hasPhyBus then [.phy, .sysfs] else []

/-- `phydev` once the PHY has been attached. -/
def phyOpened (s : OpenState) : PhyPtr := if c.hasPhyBus then .attached else s.phydev

theorem openPower_acquires (s : OpenState) : Acquires s (openPower c e s) (powerTaken c) := by
  have h := ((Acquires.refl s).acquireIf c.phyPowerOn .phyPower).acquireIf
    c.gmacClkEnable .gmacClk
  unfold openPower
  dsimp only
  split
  · exact h
  · exact h.use _

theorem openPower_mdioRegistered (s : OpenState) :
    (openPower c e s).mdioRegistered = s.mdioRegistered := by
  unfold openPower
  cases c.phyPowerOn <;> cases c.gmacClkEnable <;> cases e.etherAddrValid <;> rfl

variable {c e}

theorem stmmacOpen_early {s : OpenState} (h : FailsEarly c e s) :
    ∃ ret s', stmmacOpen c e s = .returned ret s' ∧ ret < 0 ∧
      s'.phydev = s.phydev.disconnect ∧
      ∃ phy : List OpenRes, s'.events = s.events ++
        history (powerTaken c ++ phy) (phy ++ errorReleased c s.phydev) := by
  obtain ⟨hbus, hfail⟩ := h
  have hpower := openPower_acquires c e s
  have hmdio := openPower_mdioRegistered c e s
  unfold stmmacOpen
  generalize openPower c e s = t at hpower hmdio ⊢
  simp only [hbus, if_true, hmdio]
  split
  · next hreg =>
    refine ⟨_, _, rfl, hreg.2, ?_, [], ?_⟩
    · rw [openError_eq, hpower.phydev]
    · simp [openError_eq, history, hpower.phydev, hpower.events]
  · next hreg =>
    have hphy := hfail.resolve_left hreg
    unfold stmmacInitPhy
    cases hanswer : e.phyConnect with
    | error ret hret =>
      refine ⟨ret, openError c { t with mdioRegistered := true }, ?_, hret, ?_, [], ?_⟩
      · simp [hret.ne]
      · rw [openError_eq, ← hpower.phydev]
      · simp [openError_eq, history, hpower.phydev, hpower.events]
    | noDevice =>
      refine ⟨-19, openError c (({ t with mdioRegistered := true }.acquire .phy).release .phy),
        ?_, by decide, ?_, [.phy], ?_⟩
      · simp
      · rw [openError_eq, ← hpower.phydev]
        rfl
      · simp [openError_eq, history, hpower.phydev, hpower.events, OpenState.acquire,
          OpenState.release]
    | attached => simp [hanswer, PhyAnswer.isAttached] at hphy

theorem stmmacOpen_rings {s : OpenState} (h : ¬ FailsEarly c e s) :
    ∃ t, stmmacOpen c e s = openRings c e t ∧ t.phydev = phyOpened c s ∧
      t.events = s.events ++ (powerTaken c ++ phyTaken c).map .acquire := by
  have hpower := openPower_acquires c e s
  have hmdio := openPower_mdioRegistered c e s
  unfold stmmacOpen
  generalize openPower c e s = t at hpower hmdio ⊢
  by_cases hbus : c.hasPhyBus = true
  · obtain ⟨hreg, hphy⟩ := not_or.mp fun h' => h ⟨hbus, h'⟩
    simp only [hbus, if_true, hmdio, if_neg hreg]
    cases hanswer : e.phyConnect with
    | error ret hret => simp [hanswer, PhyAnswer.isAttached] at hphy
    | noDevice => simp [hanswer, PhyAnswer.isAttached] at hphy
    | attached =>
      refine ⟨({ { t with mdioRegistered := true }.acquire .phy with
        phydev := .attached }).acquire .sysfs, ?_, ?_, ?_⟩
      · simp [stmmacInitPhy, hanswer]
      · simp [OpenState.acquire, phyOpened, hbus]
      · simp [OpenState.acquire, hpower.events, phyTaken, hbus]
  · refine ⟨t, if_neg hbus, ?_, ?_⟩
    · rw [hpower.phydev, phyOpened, if_neg hbus]
    · rw [hpower.events, phyTaken, if_neg hbus, List.append_nil]

/-! ## Release -/

theorem freeRxEntry_eq (s : OpenState) (i : Nat) :
    (freeRxEntry s i).events = s.events ++ (rxReleased s.rxSkbuff i).map .release ∧
      ∀ j, j ≠ i → (freeRxEntry s i).rxSkbuff j = s.rxSkbuff j := by
  unfold freeRxEntry rxReleased
  cases s.rxSkbuff i <;> simp +contextual [OpenState.release]

theorem foldl_freeRxEntry_events (n : Nat) (s : OpenState) :
    ((List.range n).foldl freeRxEntry s).events =
        s.events ++ ((List.range n).flatMap (rxReleased s.rxSkbuff)).map .release ∧
      ∀ j, n ≤ j → ((List.range n).foldl freeRxEntry s).rxSkbuff j = s.rxSkbuff j := by
  induction n with
  | zero => simp
  | succ n ih =>
    obtain ⟨hevents, hrest⟩ := ih
    rw [List.range_succ, List.foldl_append, List.foldl_cons, List.foldl_nil]
    generalize (List.range n).foldl freeRxEntry s = t at hevents hrest ⊢
    obtain ⟨hstep, hkeep⟩ := freeRxEntry_eq t n
    have hn : rxReleased t.rxSkbuff n = rxReleased s.rxSkbuff n := by
      rw [rxReleased, rxReleased, hrest n le_rfl]
    refine ⟨?_, fun j hj => ?_⟩
    · rw [hstep, hevents, hn]
      simp
    · rw [hkeep j (by omega), hrest j (by omega)]

theorem stopPhy_eq (s : OpenState) :
    stopPhy s = { s with
      phydev := .null
      events := s.events ++ (if s.phydev = .null then [] else [.sysfs, .phy]).map .release } := by
  obtain ⟨m, p, a, rx, ea, ee, ev, us⟩ := s
  cases p <;> simp [stopPhy, OpenState.release]

theorem freeIrqs_eq (s : OpenState) :
    freeIrqs c s = { s with events := s.events ++ (irqsTaken c).map .release } := by
  cases hw : c.otherWolIrq <;> cases hl : c.hasLpiIrq <;>
    simp [freeIrqs, OpenState.releaseIf, OpenState.release, irqsTaken, opt, hw, hl]

theorem stmmacRelease_events (s : OpenState) :
    (stmmacRelease c s).events = s.events ++ (allReleased c s).map .release := by
  have hpower : ∀ s : OpenState,
      ((s.releaseIf c.phyPowerOn .phyPower).releaseIf c.gmacClkEnable .gmacClk).events =
        s.events ++ (powerTaken c).map .release := by
    intro s
    cases hp : c.phyPowerOn <;> cases hg : c.gmacClkEnable <;>
      simp [OpenState.releaseIf, OpenState.release, powerTaken, opt, hp, hg]
  simp [stmmacRelease, hpower, freeDmaDescResources, OpenState.release, OpenState.use,
    (foldl_freeRxEntry_events _ _).1, freeIrqs_eq, stopPhy_eq, allReleased]

/-! ## Comparing the lists -/

theorem disconnect_ne_detached_iff (p : PhyPtr) : p.disconnect ≠ .detached ↔ p = .null := by
  cases p <;> decide

theorem perm_errorReleased_iff (as : List OpenRes) {l l' : List OpenRes} (hl : l.Perm l') :
    (powerTaken c ++ as ++ l).Perm (l' ++ errorReleased c .null) ↔
      c.phyPowerOn = false ∧ as = [] := by
  have hlength := hl.length_eq
  refine ⟨fun h => ?_, ?_⟩
  · have h := h.length_eq
    simp only [List.length_append, powerTaken, errorReleased, opt] at h
    have hpower : c.phyPowerOn = false := by
      cases hp : c.phyPowerOn with
      | false => rfl
      | true =>
        simp [hp] at h
        omega
    refine ⟨hpower, List.eq_nil_of_length_eq_zero ?_⟩
    simp [hpower] at h
    omega
  · rintro ⟨hpower, rfl⟩
    simp only [powerTaken, errorReleased, hpower, opt, List.append_nil]
    exact List.perm_append_comm.trans (hl.append_right _)

theorem ringsTaken_eq_nil_iff : ringsTaken c e = [] ↔ e.dmaRx = false ∧ e.dmaTx = false := by
  cases hrx : e.dmaRx <;> cases htx : e.dmaTx <;> simp [ringsTaken, opt, hrx, htx]

theorem count_rxTaken (l : List Nat) (x : OpenRes) :
    (l.flatMap rxTaken).count x =
      match x with
      | .rxSkb i | .rxMap i => l.count i
      | _ => 0 := by
  induction l with
  | nil => cases x <;> rfl
  | cons i l ih =>
    rw [List.flatMap_cons, List.count_append, ih]
    cases x <;> simp [rxTaken, List.count_cons, Nat.add_comm]

theorem flatMap_rxReleased_perm (f : Nat → RxEntry) (l : List Nat) :
    (l.flatMap (rxReleased f)).Perm ((l.filter (f · ≠ .null)).flatMap rxTaken) := by
  induction l with
  | nil => exact .rfl
  | cons i l ih =>
    rw [List.flatMap_cons]
    cases hi : f i with
    | null => simpa [rxReleased, hi] using ih
    | skb | stale =>
      simp only [rxReleased, hi, ne_eq, reduceCtorEq, not_false_eq_true, decide_true,
        List.filter_cons_of_pos, List.flatMap_cons, rxTaken]
      exact (List.Perm.swap _ _ _).append ih

/-- The entries given back are the buffers received. -/
theorem perm_rxFilled_iff :
    (rxFilled c e).Perm ((List.range c.rxSize).filter (openedRx c e · ≠ .null)) ↔
      ∀ i < c.rxSize, i ∈ rxFilled c e ∨ e.stale i = false := by
  have hsub : (rxFilled c e).Sublist (List.range c.rxSize) := List.takeWhile_sublist _
  have hnodup := hsub.nodup List.nodup_range
  rw [List.perm_ext_iff_of_nodup hnodup (List.nodup_range.filter _)]
  refine ⟨fun h i hi => ?_, fun h i => ?_⟩
  · by_contra hno
    rw [not_or] at hno
    refine hno.1 ((h i).mpr ?_)
    simp [hi, openedRx, hno]
  · rw [List.mem_filter, List.mem_range]
    refine ⟨fun hi => ⟨List.mem_range.mp (hsub.subset hi), ?_⟩, fun ⟨hi, hfull⟩ => ?_⟩
    · simp [openedRx, hi]
    · by_contra hno
      have hstale := (h i hi).resolve_left hno
      simp [openedRx, hno, hstale] at hfull

/-! ## The property -/

variable (c e)

/-- A failed call has released exactly what it acquired and leaves no detached PHY; after a
successful one everything is allocated, and `stmmac_release` releases exactly that. A call that
dereferences `NULL` is neither. -/
def AllOrNothing : OpenOutcome → Prop
  | .crashed _ => False
  | .returned ret s =>
    (ret ≠ 0 → replay 0 s.events = some 0 ∧ s.phydev ≠ .detached) ∧
      (ret = 0 → s.allocated = true ∧ replay 0 (stmmacRelease c s).events = some 0)

instance : DecidablePred (AllOrNothing c)
  | .crashed _ => inferInstanceAs (Decidable False)
  | .returned _ _ => inferInstanceAs (Decidable (_ ∧ _))

/-- When `stmmac_open` is all-or-nothing. -/
def OpenOk (s : OpenState) : Prop :=
  if FailsEarly c e s then c.phyPowerOn = false ∧ s.phydev = .null
  else ¬ Crashes c e ∧
    if FailsLate c e then
      c.phyPowerOn = false ∧ c.hasPhyBus = false ∧ s.phydev = .null ∧
        e.dmaRx = false ∧ e.dmaTx = false
    else
      (c.hasPhyBus ∨ s.phydev = .null) ∧
        (e.dmaRx && e.dmaTx && (e.rxSkbuffDma && e.rxSkbuff && e.txSkbuffDma && e.txSkbuff)) ∧
        ∀ i < c.rxSize, i ∈ rxFilled c e ∨ e.stale i = false

variable {c e}

theorem Undone.balanced_iff {s t s' : OpenState} (h : Undone c e t s')
    (ht : t.events = (powerTaken c ++ phyTaken c).map .acquire) (hphy : t.phydev = phyOpened c s) :
    (replay 0 s'.events = some 0 ∧ s'.phydev ≠ .detached) ↔
      c.phyPowerOn = false ∧ c.hasPhyBus = false ∧ s.phydev = .null ∧
        e.dmaRx = false ∧ e.dmaTx = false := by
  obtain ⟨lines, lines', hlines, hevents⟩ := h.events
  have hnull : s'.phydev ≠ .detached ↔ c.hasPhyBus = false ∧ s.phydev = .null := by
    rw [h.phydev, disconnect_ne_detached_iff, hphy, phyOpened]
    cases c.hasPhyBus <;> simp
  have hperm : c.hasPhyBus = false → s.phydev = .null →
      (replay 0 s'.events = some 0 ↔
        c.phyPowerOn = false ∧ e.dmaRx = false ∧ e.dmaTx = false) := by
    intro hbus hs
    rw [hevents, ht, Ledger.acquires_append_history, Ledger.replay_history_iff, hphy, phyOpened,
      phyTaken, hbus, hs, ← ringsTaken_eq_nil_iff (c := c), ← perm_errorReleased_iff _ hlines]
    simp
  rw [hnull]
  constructor
  · rintro ⟨hreplay, hbus, hs⟩
    obtain ⟨hpower, hrings⟩ := (hperm hbus hs).mp hreplay
    exact ⟨hpower, hbus, hs, hrings⟩
  · rintro ⟨hpower, hbus, hs, hrings⟩
    exact ⟨(hperm hbus hs).mpr ⟨hpower, hrings⟩, hbus, hs⟩

theorem early_balanced_iff (p : PhyPtr) (phy : List OpenRes) :
    (replay 0 (history (powerTaken c ++ phy) (phy ++ errorReleased c p)) = some 0 ∧
      p.disconnect ≠ .detached) ↔ c.phyPowerOn = false ∧ p = .null := by
  rw [disconnect_ne_detached_iff, and_congr_left_iff]
  rintro rfl
  rw [Ledger.replay_history_iff, ← List.append_nil (powerTaken c),
    perm_errorReleased_iff [] (.refl phy), and_iff_left rfl]

theorem ringsTaken_of_allocated (h : (e.dmaRx && e.dmaTx && (e.rxSkbuffDma && e.rxSkbuff &&
    e.txSkbuffDma && e.txSkbuff)) = true) :
    ringsTaken c e = [.dmaRx, .dmaTx, .rxSkbuffDma, .rxSkbuff, .txSkbuffDma, .txSkbuff] ++
      (rxFilled c e).flatMap rxTaken := by
  simp only [Bool.and_eq_true] at h
  simp [ringsTaken, arraysTaken, opt, h]

theorem Opened.balanced_iff {s t s' : OpenState} (h : Opened c e t s')
    (ht : t.events = (powerTaken c ++ phyTaken c).map .acquire) (hphy : t.phydev = phyOpened c s)
    (hall : s'.allocated = true) :
    replay 0 (stmmacRelease c s').events = some 0 ↔
      (c.hasPhyBus ∨ s.phydev = .null) ∧ ∀ i < c.rxSize, i ∈ rxFilled c e ∨ e.stale i = false := by
  have halloc := h.allocated ▸ hall
  have hrx := h.rxSkbuff (Bool.and_eq_true_iff.mp halloc).1
  rw [stmmacRelease_events, h.events, ht, ← List.map_append, ← history,
    Ledger.replay_history_iff, ← perm_rxFilled_iff, ringsTaken_of_allocated halloc]
  have hback := (flatMap_rxReleased_perm (openedRx c e) (List.range c.rxSize)).count_eq
  unfold allReleased
  rw [hrx, h.phydev, hphy]
  generalize (List.range c.rxSize).filter (openedRx c e · ≠ .null) = full at hback ⊢
  constructor
  · intro hperm
    refine ⟨?_, List.perm_iff_count.mpr fun i => ?_⟩
    · have hsysfs := hperm.count_eq .sysfs
      by_contra hno
      rw [not_or] at hno
      simp [hback, count_rxTaken, powerTaken, irqsTaken, phyTaken, phyOpened, hno] at hsysfs
    · have hskb := hperm.count_eq (.rxSkb i)
      simp only [List.count_append, hback, count_rxTaken, powerTaken, irqsTaken, phyTaken,
        phyOpened] at hskb
      split_ifs at hskb <;> simpa using hskb
  · rintro ⟨hbus, hperm⟩
    refine List.perm_iff_count.mpr fun x => ?_
    have hbufs := (hperm.flatMap_right rxTaken).count_eq x
    have hphys : (phyTaken c).count x =
        (if phyOpened c s = .null then [] else [OpenRes.sysfs, .phy]).count x := by
      unfold phyTaken phyOpened
      cases hb : c.hasPhyBus with
      | true => exact (List.Perm.swap _ _ _).count_eq x
      | false => simp [hbus.resolve_left (by simp [hb])]
    have hsix : [OpenRes.dmaRx, .dmaTx, .rxSkbuffDma, .rxSkbuff, .txSkbuffDma, .txSkbuff].count x =
        [OpenRes.dmaTx, .dmaRx, .rxSkbuffDma, .rxSkbuff, .txSkbuffDma, .txSkbuff].count x :=
      (List.Perm.swap _ _ _).count_eq x
    simp only [List.count_append, hback, hphys, hsix, hbufs]
    omega

/-- `stmmac_open` is all-or-nothing exactly under `OpenOk`, from any state and for any answers. -/
theorem open_allOrNothing_iff (s : OpenState) :
    AllOrNothing c (stmmacOpen c e s.fresh) ↔ OpenOk c e s := by
  unfold OpenOk
  by_cases hearly : FailsEarly c e s
  · obtain ⟨ret, s', hopen, hret, hphy, phy, hevents⟩ := stmmacOpen_early (s := s.fresh) hearly
    rw [if_pos hearly, hopen, AllOrNothing, hphy, hevents]
    have hiff := early_balanced_iff (c := c) s.phydev phy
    simpa [hret.ne, OpenState.fresh] using hiff
  · rw [if_neg hearly]
    obtain ⟨t, hopen, hphy, hevents⟩ := stmmacOpen_rings (s := s.fresh) hearly
    replace hphy : t.phydev = phyOpened c s := hphy
    rw [hopen]
    by_cases hcrash : Crashes c e
    · have hring := initDmaDescRings_crashes hcrash t
      unfold openRings
      generalize initDmaDescRingsRes c e t = r at hring ⊢
      obtain ⟨t', b⟩ := r
      obtain rfl : b = false := hring
      exact iff_of_false id fun h => h.1 hcrash
    · obtain ⟨hlate, ret, s', hret, hneg, hundone⟩ | ⟨hlate, s', hret, hopened⟩ :=
        openRings_cases hcrash t
      · rw [hret, AllOrNothing, if_pos hlate, ← hundone.balanced_iff hevents hphy]
        simp [hneg.ne, hcrash]
      · rw [hret, AllOrNothing, if_neg hlate]
        have hiff := hopened.balanced_iff hevents hphy
        rw [← hopened.allocated]
        simp only [ne_eq, not_true_eq_false, false_implies, true_and, forall_const, hcrash,
          not_false_eq_true]
        rw [and_left_comm]
        exact and_congr_right hiff

/-- Everything succeeds until `request_irq` returns `-EBUSY`. -/
def OpenEnv.lineBusy : OpenEnv := { OpenEnv.granted with requestIrq := -16 }

/-- A refused interrupt line leaves a detached PHY behind, and all rings. -/
theorem open_line_busy :
    ¬ AllOrNothing .board (stmmacOpen .board .lineBusy OpenState.probed.fresh) := by
  decide +kernel

end Stmmac
