import Stmmac.Net.Open

/-!
# Uses of the tables: opening an interface

Whatever `stmmac_open` calls through a table is there: the ring and chain functions are used in
their own mode only, and those for EEE on a core that has them.
-/

namespace Stmmac

def HwConf.mode (h : HwConf) : Mode := if h.chainMode then .chain else .ring

def OpenOutcome.state : OpenOutcome → OpenState
  | .crashed s | .returned _ s => s

/-- Every use of a list is present. -/
def AllPresent (hw : MacDeviceInfo) (us : List OpsUse) : Prop := ∀ u ∈ us, hw.Present u = true

section AllPresent

variable {hw : MacDeviceInfo} {us vs : List OpsUse} {u : OpsUse}

@[simp] theorem allPresent_nil : AllPresent hw [] := List.forall_mem_nil _

@[simp] theorem allPresent_cons :
    AllPresent hw (u :: us) ↔ hw.Present u = true ∧ AllPresent hw us :=
  List.forall_mem_cons

@[simp] theorem allPresent_append :
    AllPresent hw (us ++ vs) ↔ AllPresent hw us ∧ AllPresent hw vs :=
  List.forall_mem_append

@[simp] theorem allPresent_ite {p : Prop} [Decidable p] :
    AllPresent hw (if p then us else vs) ↔ (p → AllPresent hw us) ∧ (¬ p → AllPresent hw vs) := by
  split <;> simp_all

theorem allPresent_replicate (n : Nat) (h : hw.Present u = true) :
    AllPresent hw (.replicate n u) := by
  intro v hv
  rwa [List.eq_of_mem_replicate hv]

theorem allPresent_flatMap {α : Type*} {l : List α} {f : α → List OpsUse}
    (h : ∀ x ∈ l, AllPresent hw (f x)) : AllPresent hw (l.flatMap f) := by
  intro u hu
  obtain ⟨x, hx, hu⟩ := List.mem_flatMap.mp hu
  exact h x hx u hu

end AllPresent

section Open

variable {ext : ExternOps} {h : HwConf} {c : OpenConf} {e : OpenEnv} {s : OpenState}

theorem HwConf.mode_eq_ring : h.mode = .ring ↔ h.chainMode = false := by
  unfold HwConf.mode
  cases h.chainMode <;> simp

theorem HwConf.mode_eq_chain : h.mode = .chain ↔ h.chainMode = true := by
  unfold HwConf.mode
  cases h.chainMode <;> simp

/-- The uses recorded so far are present. -/
def UsesOk (ext : ExternOps) (h : HwConf) (s : OpenState) : Prop :=
  AllPresent (stmmacHwInit ext h) s.uses

theorem UsesOk.use (hs : UsesOk ext h s) {u : OpsUse}
    (hu : (stmmacHwInit ext h).Present u = true) : UsesOk ext h (s.use u) := by
  simpa [UsesOk, OpenState.use] using ⟨hs, hu⟩

theorem UsesOk.acquire (hs : UsesOk ext h s) (r : OpenRes) : UsesOk ext h (s.acquire r) := hs

theorem UsesOk.release (hs : UsesOk ext h s) (r : OpenRes) : UsesOk ext h (s.release r) := hs

theorem UsesOk.acquireIf (hs : UsesOk ext h s) (b : Bool) (r : OpenRes) :
    UsesOk ext h (s.acquireIf b r) := by
  cases b <;> exact hs

theorem UsesOk.releaseIf (hs : UsesOk ext h s) (b : Bool) (r : OpenRes) :
    UsesOk ext h (s.releaseIf b r) := by
  cases b <;> exact hs

theorem UsesOk.foldl {f : OpenState → Nat → OpenState}
    (hf : ∀ s i, UsesOk ext h s → UsesOk ext h (f s i)) (l : List Nat)
    (hs : UsesOk ext h s) : UsesOk ext h (l.foldl f s) := by
  induction l generalizing s with
  | nil => exact hs
  | cons i l ih => exact ih (hf s i hs)

theorem UsesOk.clearDescriptors (hext : ext.Complete) (hs : UsesOk ext h s) :
    UsesOk ext h (clearDescriptorsUses c s) := by
  have hrx := present_desc (h := h) hext (f := .initRxDesc) (by simp)
  have htx := present_desc (h := h) hext (f := .initTxDesc) (by simp)
  exact .foldl (fun _ _ hs => hs.use htx) _ (.foldl (fun _ _ hs => hs.use hrx) _ hs)

theorem UsesOk.initRxBuffers (hext : ext.Complete) (hmode : c.mode = h.mode) {i : Nat}
    (hs : UsesOk ext h s) : UsesOk ext h (stmmacInitRxBuffersRes c s i) := by
  unfold stmmacInitRxBuffersRes
  dsimp only
  split
  · next hring =>
    refine UsesOk.use hs ?_
    rw [present_ring hext, HwConf.mode_eq_ring.mp (hmode ▸ hring.1)]
    rfl
  · exact hs

theorem UsesOk.chainInits (hext : ext.Complete) (hmode : c.mode = h.mode)
    (hs : UsesOk ext h s) : UsesOk ext h (chainInits c s) := by
  unfold Stmmac.chainInits
  split
  · exact hs
  · next hchain =>
    have hinit : (stmmacHwInit ext h).Present (.chain .init) = true := by
      rw [present_chain hext, HwConf.mode_eq_chain.mp (hmode ▸ hchain)]
    exact (hs.use hinit).use hinit

theorem UsesOk.set16kibBfsize (hext : ext.Complete) (hmode : c.mode = h.mode)
    (hs : UsesOk ext h s) : UsesOk ext h (set16kibBfsizeUse c s) := by
  unfold set16kibBfsizeUse
  split
  · next hring =>
    refine hs.use ?_
    rw [present_ring hext, HwConf.mode_eq_ring.mp (hmode ▸ hring)]
    rfl
  · exact hs

theorem UsesOk.initRings (hext : ext.Complete) (hmode : c.mode = h.mode)
    (hs : UsesOk ext h s) : UsesOk ext h (initDmaDescRingsRes c e s).1 := by
  have hrings : UsesOk ext h (allocRings e (set16kibBfsizeUse c s)) :=
    ((hs.set16kibBfsize hext hmode).acquireIf _ _).acquireIf _ _
  unfold initDmaDescRingsRes
  generalize allocRings e (set16kibBfsizeUse c s) = t at hrings ⊢
  have harrays : UsesOk ext h (allocArrays c e t) :=
    (((hrings.acquireIf _ _).acquireIf _ _).acquireIf _ _).acquireIf _ _
  have hbufs := UsesOk.foldl (f := stmmacInitRxBuffersRes c)
    (fun _ _ hs => hs.initRxBuffers hext hmode) (rxFilled c e) harrays
  dsimp only
  split_ifs
  · exact hrings
  · exact harrays
  · exact hbufs.chainInits hext hmode
  · exact (hbufs.chainInits hext hmode).clearDescriptors hext

theorem UsesOk.openError (hs : UsesOk ext h s) : UsesOk ext h (openError c s) := by
  unfold Stmmac.openError
  refine UsesOk.releaseIf ?_ _ _
  split
  · exact hs
  · exact hs
  · exact hs

/-- EEE functions are used on a core that has them. -/
theorem UsesOk.eeeInit (hgmac : c.eee.dmaCapEee = true → h.hasGmac = true)
    (hs : UsesOk ext h s) : UsesOk ext h (eeeInitRes c e s) := by
  unfold eeeInitRes
  split_ifs with _ hcap
  · exact hs
  · exact hs
  · exact hs.use (present_mac_gmac (hgmac hcap) _)
  · exact hs.use (present_mac_gmac (hgmac hcap) _)
  · exact hs

theorem UsesOk.openStart (hgmac : c.eee.dmaCapEee = true → h.hasGmac = true)
    (hs : UsesOk ext h s) : UsesOk ext h (openStart c e s) := by
  have hdma : ∀ f : DmaFn, f ≠ .dmaDiagnosticFr ∧ f ≠ .getHwFeature ∧ f ≠ .rxWatchdog →
      (stmmacHwInit ext h).Present (.dma f) = true := fun _ hf => present_dma hf
  have hif : ∀ (p : Prop) [Decidable p] (s t : OpenState), UsesOk ext h s → UsesOk ext h t →
      UsesOk ext h (if p then s else t) := by
    intro p _ s t hs ht
    split
    · exact hs
    · exact ht
  have hstart := ((hs.use (hdma .dmaMode (by simp))).use (hdma .startTx (by simp))).use
    (hdma .startRx (by simp))
  have hdump := hif c.msgHw _ _
    ((hstart.use (present_mac (f := .dumpRegs) rfl)).use (hdma .dumpRegs (by simp))) hstart
  have heee := UsesOk.eeeInit (e := e) hgmac hdump
  have hriwt := hif c.useRiwt _ _ (heee.use present_testDma) heee
  exact hif (c.eee.pcs ≠ 0) _ _ (hriwt.use present_testMac) hriwt

theorem UsesOk.openRings (hext : ext.Complete) (hmode : c.mode = h.mode)
    (hgmac : c.eee.dmaCapEee = true → h.hasGmac = true) (hs : UsesOk ext h s) :
    UsesOk ext h (openRings c e s).state := by
  have hrings := UsesOk.initRings (e := e) hext hmode hs
  unfold Stmmac.openRings
  generalize initDmaDescRingsRes c e s = r at hrings ⊢
  obtain ⟨t, b⟩ := r
  cases b with
  | false => exact hrings
  | true =>
    have hinit := hrings.use (present_dma (f := .init) (by simp))
    have hmac := (hinit.use (present_mac (f := .setUmacAddr) rfl)).use
      (present_mac (f := .coreInit) rfl)
    have hwol := (hmac.acquire .irq).acquireIf c.otherWolIrq .wolIrq
    dsimp only
    split_ifs
    · exact hinit.openError
    · exact hmac.openError
    · exact ((hmac.acquire .irq).release .irq).openError
    · exact ((hwol.releaseIf c.otherWolIrq .wolIrq).release .irq).openError
    · exact (hwol.acquireIf c.hasLpiIrq .lpiIrq).openStart hgmac

theorem UsesOk.stmmacOpen (hext : ext.Complete) (hmode : c.mode = h.mode)
    (hgmac : c.eee.dmaCapEee = true → h.hasGmac = true) (hs : UsesOk ext h s) :
    UsesOk ext h (stmmacOpen c e s).state := by
  have hpower : UsesOk ext h (openPower c e s) := by
    have hclk := (hs.acquireIf c.phyPowerOn .phyPower).acquireIf c.gmacClkEnable .gmacClk
    unfold openPower
    dsimp only
    split
    · exact hclk
    · exact hclk.use (present_mac (f := .getUmacAddr) rfl)
  unfold Stmmac.stmmacOpen
  generalize openPower c e s = t at hpower ⊢
  have hphy : UsesOk ext h (stmmacInitPhy e { t with mdioRegistered := true }).1 := by
    unfold stmmacInitPhy
    cases e.phyConnect <;> exact hpower
  dsimp only
  generalize stmmacInitPhy e { t with mdioRegistered := true } = r at hphy ⊢
  split_ifs
  · exact hpower.openError
  · exact hphy.openError
  · exact hphy.openRings hext hmode hgmac
  · exact hpower.openRings hext hmode hgmac

end Open

/-! ## EEE -/

section Eee

variable {c : OpenConf} {e : OpenEnv} {s s' : OpenState}

theorem eeeInitRes_eeeEnabled (h : (eeeInitRes c e s).eeeEnabled = true) :
    c.eee.dmaCapEee = true := by
  cases hcap : c.eee.dmaCapEee with
  | true => rfl
  | false =>
    unfold eeeInitRes at h
    rw [hcap] at h
    split at h <;> cases h

theorem openStart_eeeEnabled (h : (openStart c e s).eeeEnabled = true) :
    c.eee.dmaCapEee = true := by
  have hif : ∀ (p : Prop) [Decidable p] (t : OpenState) (u : OpsUse),
      (if p then t.use u else t).eeeEnabled = t.eeeEnabled := by
    intro p _ t u
    split <;> rfl
  refine eeeInitRes_eeeEnabled ((hif _ _ _).symm.trans ((hif _ _ _).symm.trans h))

theorem openRings_eeeEnabled (hopen : openRings c e s = .returned 0 s')
    (heee : s'.eeeEnabled = true) : c.eee.dmaCapEee = true := by
  unfold openRings at hopen
  generalize initDmaDescRingsRes c e s = r at hopen
  obtain ⟨t, b⟩ := r
  cases b with
  | false => cases hopen
  | true =>
    dsimp only at hopen
    split_ifs at hopen with hdma hirq hwol hlpi
    · exact absurd (OpenOutcome.returned.inj hopen).1 hdma.ne
    · exact absurd (OpenOutcome.returned.inj hopen).1 hirq.ne
    · exact absurd (OpenOutcome.returned.inj hopen).1 hwol.2.ne
    · exact absurd (OpenOutcome.returned.inj hopen).1 hlpi.2.ne
    · obtain rfl := (OpenOutcome.returned.inj hopen).2
      exact openStart_eeeEnabled heee

/-- EEE is enabled only on a core with the capability. -/
theorem stmmacOpen_eeeEnabled (hopen : stmmacOpen c e s = .returned 0 s')
    (heee : s'.eeeEnabled = true) : c.eee.dmaCapEee = true := by
  unfold stmmacOpen at hopen
  dsimp only at hopen
  split_ifs at hopen with _ hmdio hphy
  · exact absurd (OpenOutcome.returned.inj hopen).1 hmdio.2.ne
  · exact absurd (OpenOutcome.returned.inj hopen).1 hphy
  · exact openRings_eeeEnabled hopen heee
  · exact openRings_eeeEnabled hopen heee

end Eee

end Stmmac
