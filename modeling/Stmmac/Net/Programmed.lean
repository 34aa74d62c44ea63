import Stmmac.Net.Registers

/-!
# The registers in every run

Each entry point keeps what the register file should say, so it says it in every state of every
run: the set-up is as `stmmac_open` wrote it until the interface is closed, and MAC and DMA are
enabled only while it is up.
-/

namespace Stmmac

open Library

/-! ## What the steps keep -/

section Steps

variable {c : NicConf} {o : OpenCall} {s s' : NicRegs} {regs regs' : Regs} {offs : List Nat}
  {enabled enabled' started started' : Bool}

/-- The registers of the set-up are not among those that an open interface writes. -/
theorem SetUp.congr (h : SetUp c o regs) (hsame : SameBut sharedRegs regs regs') :
    SetUp c o regs' where
  addr := (addrPair_congr (hsame _ (by decide)) (hsame _ (by decide))).trans h.addr
  words p hp := by
    have hkey : p.1 ∈ baseKeys ++ [dmaRxWatchdog, gmacAnCtrl] := by
      rcases List.mem_append.mp hp with hp | hp
      · have hmem : p.1 ∈ (c.baseWords o).map Prod.fst := List.mem_map_of_mem hp
        exact List.mem_append_left _ hmem
      · exact List.mem_append_right _ ((startWords_keys c).1 (List.mem_map_of_mem hp))
    have hdisjoint : ∀ off ∈ baseKeys ++ [dmaRxWatchdog, gmacAnCtrl], off ∉ sharedRegs := by decide
    exact (hsame _ (hdisjoint _ hkey)).trans (h.words p hp)
  others off hshared haddr hwords hmmc :=
    (hsame off hshared).trans (h.others off hshared haddr hwords hmmc)

namespace CoreHeld

/-- Writes to registers other than the two control words. -/
theorem congr (h : CoreHeld c o enabled started s) (hsame : SameBut offs s.regs s'.regs)
    (hsub : offs ⊆ sharedRegs) (hoffs : gmacControl ∉ offs ∧ dmaControl ∉ offs)
    (htc : s'.tc = s.tc) : CoreHeld c o enabled started s' where
  setUp := h.setUp.congr (hsame.mono hsub)
  control := hsame _ hoffs.1 ▸ h.control
  dma := hsame _ hoffs.2 ▸ htc ▸ h.dma
  storeForward hsf := htc.trans (h.storeForward hsf)

theorem setMac (h : CoreHeld c o enabled started s) (enable : Bool) :
    CoreHeld c o enable started (s.setRegs (stmmacSetMac s.regs enable)) where
  setUp := h.setUp.congr ((stmmacSetMac_sameBut _ enable).mono (by decide))
  control := h.control.setMac enable
  dma := stmmacSetMac_sameBut s.regs enable dmaControl (by decide) ▸ h.dma
  storeForward := h.storeForward

/-- A new word for the DMA. -/
theorem setDma (h : CoreHeld c o enabled started s) (hsame : SameBut [dmaControl] s.regs s'.regs)
    (hdma : DmaSays (readl o.hw.regs dmaControl) started' s'.tc (readl s'.regs dmaControl))
    (hsf : c.mode.storeForward = true → s'.tc = sfDmaMode) : CoreHeld c o enabled started' s' where
  setUp := h.setUp.congr (hsame.mono (by decide))
  control := hsame _ (show gmacControl ∉ [dmaControl] by decide) ▸ h.control
  dma := hdma
  storeForward := hsf

theorem stop (h : CoreHeld c o enabled started s) :
    CoreHeld c o enabled false (s.setRegs (dwmacDmaStopRx (dwmacDmaStopTx s.regs))) :=
  h.setDma ((dmaOp_sameBut s.regs .stopTx).trans (dmaOp_sameBut _ .stopRx))
    h.dma.toDmaModeSays.stop h.storeForward

theorem start (h : CoreHeld c o enabled started s) :
    CoreHeld c o enabled true (s.setRegs (dwmacDmaStartRx (dwmacDmaStartTx s.regs))) :=
  h.setDma ((dmaOp_sameBut s.regs .startTx).trans (dmaOp_sameBut _ .startRx))
    h.dma.toDmaModeSays.start h.storeForward

theorem adjustLink (h : CoreHeld c o enabled started s) (phydev : Option PhyDevice)
    (phyInitEee : Int) :
    CoreHeld c o enabled started
      { s with link := stmmacAdjustLink c.link phydev phyInitEee s.link } where
  setUp := h.setUp.congr ((stmmacAdjustLink_sameBut c phydev phyInitEee s.link).mono (by decide))
  control := by
    cases phydev with
    | none => exact h.control
    | some phydev =>
      refine h.control.adjust ?_
      have hctrl :
          readl (stmmacAdjustLink c.link (some phydev) phyInitEee s.link).regs gmacControl =
            readl (adjustMac c.link phydev s.link).regs gmacControl := stmmacAdjustLink_ctrl
      have hothers := adjustMac_others (c := c.link) (s := s.link) rfl phydev
      rwa [← hctrl] at hothers
  dma := stmmacAdjustLink_sameBut c phydev phyInitEee s.link dmaControl (by decide) ▸ h.dma
  storeForward := h.storeForward

/-- `stmmac_tx_err` on a DMA that runs. -/
theorem txErr (h : CoreHeld c o enabled true s) : CoreHeld c o enabled true (s.irqCall .txErr) :=
  h.setDma ((dmaOp_sameBut s.regs .stopTx).trans (dmaOp_sameBut _ .startTx)) h.dma.txErr
    h.storeForward

/-- A bump changes `tc` only in threshold mode. -/
theorem bump (h : CoreHeld c o enabled started s) :
    CoreHeld c o enabled started (s.onDma stmmacBumpTc) := by
  unfold NicRegs.onDma stmmacBumpTc
  split
  · next htc =>
    refine h.setDma (dmaOp_sameBut s.regs (.operationMode (s.tc + 64) sfDmaMode)) h.dma.bump ?_
    exact fun hsf => absurd (h.storeForward hsf) htc.1
  · exact h

/-- A call of the interrupt handler; one that restarts the transmitter needs a DMA that runs. -/
theorem irqCall (h : CoreHeld c o enabled started s) (a : IrqCall)
    (ha : a = .txErr → started = true) : CoreHeld c o enabled started (s.irqCall a) := by
  cases a with
  | disableDmaIrq | enableDmaIrq =>
    exact h.congr SameBut.writel_self (by decide) (by decide) rfl
  | bumpTc => exact h.bump
  | txErr =>
    obtain rfl := ha rfl
    exact h.txErr
  | txClean | rx | napiSchedule => exact h

theorem irqCalls (h : CoreHeld c o enabled started s) {calls : List IrqCall}
    (hcalls : .txErr ∈ calls → started = true) :
    CoreHeld c o enabled started (calls.foldl NicRegs.irqCall s) := by
  induction calls generalizing s with
  | nil => exact h
  | cons a calls ih =>
    refine ih (h.irqCall a fun ha => hcalls (ha ▸ List.mem_cons_self)) fun hmem => ?_
    exact hcalls (List.mem_cons_of_mem a hmem)

end CoreHeld

/-- The handler ends with the interrupts enabled if it began so. -/
theorem directCalls_intrEna {ret : BitVec 32}
    (h : readl s.regs dmaIntrEna = DmaIntrEna.defaultMask) :
    readl ((directCalls ret).foldl NicRegs.irqCall s).regs dmaIntrEna =
      DmaIntrEna.defaultMask := by
  have herror : ∀ t : NicRegs, readl t.regs dmaIntrEna = DmaIntrEna.defaultMask →
      readl ((errorCalls ret).foldl NicRegs.irqCall t).regs dmaIntrEna =
        DmaIntrEna.defaultMask := by
    intro t ht
    unfold errorCalls
    split_ifs
    · refine Eq.trans ?_ ht
      change readl (t.onDma stmmacBumpTc).regs dmaIntrEna = readl t.regs dmaIntrEna
      unfold NicRegs.onDma stmmacBumpTc
      split
      · exact dmaOp_sameBut t.regs (.operationMode (t.tc + 64) sfDmaMode) _ (by decide)
      · rfl
    · exact ((dmaOp_sameBut _ .startTx _ (by decide)).trans
        (dmaOp_sameBut t.regs .stopTx _ (by decide))).trans ht
    · exact ht
  unfold directCalls
  rw [List.foldl_append]
  split
  · exact herror _ (readl_writel_self _ _)
  · exact herror s h

/-- A word without an abnormal event reports no error. -/
theorem errorCalls_eq_nil {intrStatus intrEna : BitVec 32} {x : IrqStats}
    (h : hasBit intrStatus DmaStatus.ais = false) :
    errorCalls (dwmacDmaInterrupt intrStatus intrEna x).2 = [] := by
  have hzero : abnormalRet intrStatus = 0 := by simp [abnormalRet, h]
  rw [dwmacDmaInterrupt_ret, hzero]
  obtain ⟨-, he⟩ | ⟨-, he | he | he⟩ := normalRet_cases intrStatus intrEna <;>
    rw [he] <;> decide

theorem txErr_notMem_directCalls {intrStatus intrEna : BitVec 32} {x : IrqStats}
    (h : hasBit intrStatus DmaStatus.ais = false) :
    .txErr ∉ directCalls (dwmacDmaInterrupt intrStatus intrEna x).2 := by
  unfold directCalls
  rw [errorCalls_eq_nil h]
  split <;> decide

namespace Programmed

/-- The interrupt mask of a state in which it is not written. -/
theorem of_coreHeld (h : Programmed c o enabled started s)
    (hheld : CoreHeld c o enabled' started' s') (hsame : SameBut offs s.regs s'.regs)
    (hoffs : dmaIntrEna ∉ offs) : Programmed c o enabled' started' s' where
  toCoreHeld := hheld
  intrEna := (hsame _ hoffs).trans h.intrEna

/-- Writes to registers of which the set-up says nothing. -/
theorem congr (h : Programmed c o enabled started s) (hsame : SameBut offs s.regs s'.regs)
    (hsub : offs ⊆ sharedRegs)
    (hoffs : gmacControl ∉ offs ∧ dmaControl ∉ offs ∧ dmaIntrEna ∉ offs) (htc : s'.tc = s.tc) :
    Programmed c o enabled started s' :=
  h.of_coreHeld (h.toCoreHeld.congr hsame hsub ⟨hoffs.1, hoffs.2.1⟩ htc) hsame hoffs.2.2

theorem setPhase (h : Programmed c o enabled started s) (phase : IfPhase) :
    Programmed c o enabled started { s with phase := phase } :=
  ⟨⟨h.setUp, h.control, h.dma, h.storeForward⟩, h.intrEna⟩

theorem suspend (h : Programmed c o true true s) (wakeup : Bool) (wolopts : BitVec 32) :
    Programmed c o wakeup false (stmmacSuspendRegs o wakeup wolopts s) := by
  have hstop := h.of_coreHeld h.toCoreHeld.stop
    ((dmaOp_sameBut s.regs .stopTx).trans (dmaOp_sameBut _ .stopRx)) (by decide)
  cases wakeup with
  | true =>
    exact hstop.congr SameBut.writel_self (by decide) (by decide) rfl
  | false =>
    exact (hstop.of_coreHeld (hstop.toCoreHeld.setMac false) (stmmacSetMac_sameBut _ false)
      (by decide)).setPhase _

theorem resume (h : Programmed c o enabled false s) (wakeup : Bool) :
    Programmed c o true true (stmmacResumeRegs o wakeup s) := by
  have hwake : Programmed c o enabled false
      (if wakeup then s.setRegs (dwmac1000Pmt s.regs 0) else s) := by
    cases wakeup with
    | true =>
      exact h.congr SameBut.writel_self (by decide) (by decide) rfl
    | false => exact h
  have hmac := hwake.of_coreHeld (hwake.toCoreHeld.setMac true) (stmmacSetMac_sameBut _ true)
    (by decide)
  exact (hmac.of_coreHeld hmac.toCoreHeld.start
    ((dmaOp_sameBut _ .startTx).trans (dmaOp_sameBut _ .startRx)) (by decide)).setPhase _

theorem interrupt (h : Programmed c o enabled started s) (intrStatus : BitVec 32)
    (hquiet : started = false → hasBit intrStatus DmaStatus.ais = false) :
    Programmed c o enabled started (stmmacInterruptRegs intrStatus s) := by
  have hack : Programmed c o enabled started
      ({ s with xstats := (dwmacDmaInterrupt intrStatus (readl s.regs dmaIntrEna) s.xstats).1
        }.setRegs (writel s.regs (intrStatus &&& 0x1ffff) dmaStatus)) :=
    h.congr SameBut.writel_self (by decide) (by decide) rfl
  refine ⟨hack.toCoreHeld.irqCalls fun hmem => ?_, directCalls_intrEna hack.intrEna⟩
  cases hstarted : started with
  | true => rfl
  | false => exact absurd hmem (txErr_notMem_directCalls (hquiet hstarted))

end Programmed

namespace Stopped

theorem congr (h : Stopped regs) (hsame : SameBut offs regs regs')
    (hoffs : gmacControl ∉ offs ∧ dmaControl ∉ offs) : Stopped regs' where
  mac := hsame _ hoffs.1 ▸ h.mac
  st := hsame _ hoffs.2 ▸ h.st
  sr := hsame _ hoffs.2 ▸ h.sr

/-- `rx_ipc` sets a bit of its own. -/
theorem rxIpc (h : Stopped regs) : Stopped (dwmac1000RxIpcEnable regs) where
  mac := by
    unfold dwmac1000RxIpcEnable
    rw [readl_writel_self]
    exact (Bits.or_and_of_disjoint (by decide)).trans h.mac
  st := h.st
  sr := h.sr

/-- A call of `stmmac_open` that fails leaves MAC and DMA disabled. -/
theorem baseRegs (h : Stopped o.hw.regs) : Stopped (c.baseRegs o) where
  mac := by
    rw [baseRegs_control]
    exact (Bits.or_and_of_disjoint (by decide)).trans h.mac
  st := baseRegs_dma (c := c) (o := o) ▸ h.st
  sr := baseRegs_dma (c := c) (o := o) ▸ h.sr

end Stopped

theorem stopped_release (s : NicRegs) : Stopped (stmmacReleaseRegs s).regs where
  mac := setMac_macBits false
  st := (hasBit_st_dmaOp .stopRx).trans (hasBit_st_dmaOp .stopTx)
  sr := hasBit_sr_dmaOp .stopRx

/-- A call of `stmmac_open` gets as far as a reset that ends in time. -/
def NicConf.resets (c : NicConf) (o : OpenCall) : Bool :=
  (!c.usesPhy || o.attached) && decide (o.hw.busy < 10)

/-- The outcomes of `stmmac_open`: no reset, a failure after it, and success. -/
theorem stmmacOpenRegs_cases (c : NicConf) (o : OpenCall) (s : NicRegs) :
    (c.resets o = false ∧ (stmmacOpenRegs c o s).phase = s.phase ∧
      SameBut [dmaBusMode] s.regs (stmmacOpenRegs c o s).regs) ∨
    (c.resets o = true ∧ (stmmacOpenRegs c o s).phase = s.phase ∧
      (stmmacOpenRegs c o s).regs = c.baseRegs o) ∨
    (c.resets o = true ∧ ∃ t, stmmacOpenRegs c o s = openRun c o t ∧ t.regs = c.baseRegs o) := by
  unfold stmmacOpenRegs NicConf.resets
  split
  · next hphy =>
    refine .inl ⟨?_, rfl, .refl _ _⟩
    rw [Bool.and_eq_true, Bool.not_eq_true'] at hphy
    simp [hphy]
  · next hphy =>
    have hattached : (!c.usesPhy || o.attached) = true := by
      cases hu : c.usesPhy <;> simp_all
    generalize hcaches :
      (if c.usesPhy then { s with link := stmmacInitPhyCaches s.link } else s) = t
    have ht : t.regs = s.regs ∧ t.phase = s.phase := by
      rw [← hcaches]
      split <;> exact ⟨rfl, rfl⟩
    dsimp only
    rw [hattached, Bool.true_and]
    rcases Nat.lt_or_ge o.hw.busy 10 with hbusy | hbusy
    · rw [stmmacInitDmaEngine_of_lt hbusy, if_neg (show ¬ (0 : Int) < 0 by decide)]
      split
      · exact .inr (.inr ⟨decide_eq_true hbusy, _, rfl, rfl⟩)
      · exact .inr (.inl ⟨decide_eq_true hbusy, ht.2, rfl⟩)
    · rw [stmmacInitDmaEngine_of_le hbusy, if_pos (show -ebusy < 0 by decide)]
      refine .inl ⟨decide_eq_false (Nat.not_lt.mpr hbusy), ht.2, ?_⟩
      rw [← ht.1]
      exact .writel (by decide)

theorem nicInv_closed (h : s.phase = .closed) : NicInv c s ↔ Stopped s.regs := by
  simp only [NicInv, h]

theorem nicInv_running (h : s.phase = .running o) : NicInv c s ↔ Programmed c o true true s := by
  simp only [NicInv, h]

theorem nicInv_suspended {wakeup : Bool} (h : s.phase = .suspended o wakeup) :
    NicInv c s ↔ Programmed c o wakeup false s := by
  simp only [NicInv, h]

theorem nicInv_opened (hphase : s.phase = .closed) (inv : Stopped s.regs)
    (hreset : Stopped o.hw.regs) : NicInv c (stmmacOpenRegs c o s) := by
  rcases stmmacOpenRegs_cases c o s with ⟨-, hphase', hsame⟩ | ⟨-, hphase', hbase⟩ |
    ⟨-, t, he, hbase⟩
  · exact (nicInv_closed (hphase'.trans hphase)).mpr (inv.congr hsame (by decide))
  · exact (nicInv_closed (hphase'.trans hphase)).mpr (hbase ▸ hreset.baseRegs)
  · rw [he]
    exact (nicInv_running (openRun_eq c o t).2.2).mpr (openRun_programmed hbase)

/-- The two MDIO registers. -/
theorem mdio_sameBut (regs : Regs) (addr data : BitVec 32) :
    SameBut [gmacMiiAddr, gmacMiiData] regs
      (writel (writel regs data gmacMiiData) addr gmacMiiAddr) :=
  (SameBut.writel (by decide)).trans (.writel (by decide))

theorem irqCall_phase (s : NicRegs) (a : IrqCall) : (s.irqCall a).phase = s.phase := by
  cases a <;> rfl

theorem stmmacInterruptRegs_phase (s : NicRegs) (intrStatus : BitVec 32) :
    (stmmacInterruptRegs intrStatus s).phase = s.phase := by
  have hcalls : ∀ (calls : List IrqCall) (t : NicRegs),
      (calls.foldl NicRegs.irqCall t).phase = t.phase := by
    intro calls
    induction calls with
    | nil => exact fun _ => rfl
    | cons a calls ih => exact fun t => (ih _).trans (irqCall_phase t a)
  exact hcalls _ _

/-- What a step can do, with the phase it starts from where that matters. -/
inductive NicMove (c : NicConf) (s : NicRegs) : NicAct → NicRegs → Prop where
  | probe (hphase : s.phase = .closed) :
      NicMove c s .probe (s.setRegs (dwmac1000RxIpcEnable s.regs))
  | ndoOpen (o : OpenCall) (hphase : s.phase = .closed) :
      NicMove c s (.ndoOpen o) (stmmacOpenRegs c o s)
  | release {o : OpenCall} (hphase : s.phase = .running o) :
      NicMove c s .release (stmmacReleaseRegs s)
  | suspend {o : OpenCall} (wakeup : Bool) (wolopts : BitVec 32) (hphase : s.phase = .running o) :
      NicMove c s (.suspend wakeup wolopts) (stmmacSuspendRegs o wakeup wolopts s)
  | resume {o : OpenCall} {w : Bool} (wakeup : Bool) (hphase : s.phase = .suspended o w) :
      NicMove c s (.resume wakeup) (stmmacResumeRegs o wakeup s)
  | adjustLink {o : OpenCall} (phydev : Option PhyDevice) (phyInitEee : Int)
      (hphase : s.phase = .running o) :
      NicMove c s (.adjustLink phydev phyInitEee)
        { s with link := stmmacAdjustLink c.link phydev phyInitEee s.link }
  | setRxMode (dev : FilterCall) :
      NicMove c s (.setRxMode dev) (s.setRegs (dwmac1000SetFilter s.regs dev))
  | interrupt (intrStatus : BitVec 32) (hphase : s.phase.isClosed = false) :
      NicMove c s (.interrupt intrStatus) (stmmacInterruptRegs intrStatus s)
  | txTimeout {o : OpenCall} (hphase : s.phase = .running o) :
      NicMove c s .txTimeout (s.irqCall .txErr)
  | transmit : NicMove c s .transmit (s.setRegs (writel s.regs 1 dmaXmtPollDemand))
  | lpi (enter : Bool) (value : BitVec 32) :
      NicMove c s (.lpi enter) (s.setRegs (writel s.regs value lpiCtrlStatus))
  | mdio (addr data : BitVec 32) :
      NicMove c s (.mdio addr data)
        (s.setRegs (writel (writel s.regs data gmacMiiData) addr gmacMiiAddr))
  | setTc (tc : Int) : NicMove c s (.setTc tc) { s with tc := tc }

theorem nicStep_move {a : NicAct} (hs : nicStep c s a = some s') : NicMove c s a s' := by
  unfold nicStep at hs
  split at hs <;> cases hs <;> constructor <;> first
    | assumption
    | simp_all [IfPhase.isClosed]

/-- Writes to registers of which the set-up says nothing, in any phase. -/
theorem NicInv.congr (inv : NicInv c s) (hsame : SameBut offs s.regs s'.regs)
    (hsub : offs ⊆ sharedRegs)
    (hoffs : gmacControl ∉ offs ∧ dmaControl ∉ offs ∧ dmaIntrEna ∉ offs) (htc : s'.tc = s.tc)
    (hphase : s'.phase = s.phase) : NicInv c s' := by
  cases h : s.phase with
  | closed =>
    exact (nicInv_closed (hphase.trans h)).mpr
      (((nicInv_closed h).mp inv).congr hsame ⟨hoffs.1, hoffs.2.1⟩)
  | running o =>
    exact (nicInv_running (hphase.trans h)).mpr
      (((nicInv_running h).mp inv).congr hsame hsub hoffs htc)
  | suspended o wakeup =>
    exact (nicInv_suspended (hphase.trans h)).mpr
      (((nicInv_suspended h).mp inv).congr hsame hsub hoffs htc)

theorem NicInv.interrupt (inv : NicInv c s) {intrStatus : BitVec 32}
    (hok : Regular s (.interrupt intrStatus)) (hopen : s.phase.isClosed = false) :
    NicInv c (stmmacInterruptRegs intrStatus s) := by
  have hphase := stmmacInterruptRegs_phase s intrStatus
  cases h : s.phase with
  | closed =>
    rw [h] at hopen
    cases hopen
  | running o =>
    exact (nicInv_running (hphase.trans h)).mpr
      (((nicInv_running h).mp inv).interrupt intrStatus nofun)
  | suspended o wakeup =>
    have hquiet : hasBit intrStatus DmaStatus.ais = false := hok (h ▸ rfl)
    exact (nicInv_suspended (hphase.trans h)).mpr
      (((nicInv_suspended h).mp inv).interrupt intrStatus fun _ => hquiet)

/-- Every step keeps the invariant. -/
theorem NicInv.step {a : NicAct} (inv : NicInv c s) (hok : Regular s a)
    (hs : nicStep c s a = some s') : NicInv c s' := by
  cases nicStep_move hs with
  | probe hphase =>
    refine (nicInv_closed ?_).mpr ((nicInv_closed hphase).mp inv).rxIpc
    exact hphase
  | ndoOpen o hphase => exact nicInv_opened hphase ((nicInv_closed hphase).mp inv) hok
  | release hphase => exact (nicInv_closed rfl).mpr (stopped_release s)
  | suspend wakeup wolopts hphase =>
    exact (nicInv_suspended rfl).mpr (((nicInv_running hphase).mp inv).suspend wakeup wolopts)
  | resume wakeup hphase =>
    exact (nicInv_running rfl).mpr (((nicInv_suspended hphase).mp inv).resume wakeup)
  | adjustLink phydev phyInitEee hphase =>
    have hprog := (nicInv_running hphase).mp inv
    have hheld := hprog.toCoreHeld.adjustLink phydev phyInitEee
    refine (nicInv_running ?_).mpr (hprog.of_coreHeld hheld
      (stmmacAdjustLink_sameBut c phydev phyInitEee s.link) (by decide))
    exact hphase
  | interrupt intrStatus hopen => exact inv.interrupt hok hopen
  | txTimeout hphase =>
    have hprog := (nicInv_running hphase).mp inv
    refine (nicInv_running ?_).mpr (hprog.of_coreHeld hprog.toCoreHeld.txErr
      ((dmaOp_sameBut s.regs .stopTx).trans (dmaOp_sameBut _ .startTx)) (by decide))
    exact hphase
  | setRxMode dev => exact inv.congr (setFilter_sameBut _ dev) (by decide) (by decide) rfl rfl
  | transmit | lpi enter value =>
    exact inv.congr SameBut.writel_self (by decide) (by decide) rfl rfl
  | mdio addr data => exact inv.congr (mdio_sameBut _ addr data) (by decide) (by decide) rfl rfl
  | setTc tc =>
    -- only while the interface is closed, when nothing is said of the threshold
    cases hphase : s.phase with
    | closed =>
      have hstopped : Stopped s.regs := (nicInv_closed hphase).mp inv
      exact (nicInv_closed rfl).mpr hstopped
    | running o | suspended o wakeup =>
      rw [Regular, hphase] at hok
      cases hok

/-- From a closed interface with MAC and DMA disabled, in every state of every run: while the
interface is up both are enabled and all registers of the set-up hold what `stmmac_open` wrote after
the reset, whatever they held before it and whatever happened since; while it is not, the DMA is
disabled. -/
theorem registers_programmed {s₀ : NicRegs} {as : List NicAct} (hphase : s₀.phase = .closed)
    (hstopped : Stopped s₀.regs) (run : Run (nicStep c) Regular s₀ as s) : NicInv c s :=
  run.invariant (fun inv hok hs => inv.step hok hs) ((nicInv_closed hphase).mpr hstopped)

end Steps

/-- A core whose registers are zero after a reset of four looks. -/
def OpenCall.plain : OpenCall where
  attached := true
  hw := ⟨4, fun _ => 0⟩
  devAddr := #v[0x00, 0x11, 0x22, 0x33, 0x44, 0x55]
  dmaTxPhy := 0x10000
  dmaRxPhy := 0x20000
  irqs := true
  phyInitEee := 0
  phyLink := true

/-- Threshold mode, with counters that are reset by one word. -/
def NicConf.plain : NicConf where
  flowCtrl := 0
  pause := 0
  eee := ⟨0, true, 0⟩
  dmaCfg := none
  extendDesc := false
  ringMode := .ring
  mode := ⟨false, false, false⟩
  useRiwt := true
  mmc := ⟨fun regs => writel regs 0x35 0x100, fun _ => .writel (mem_mmcRegs.mpr (by decide))⟩

/-- An interface that was never opened. -/
def NicRegs.probed (tc : Int) : NicRegs where
  link := ⟨fun _ => 0, false, 0, -1, ⟨false, false⟩, false⟩
  tc := tc
  xstats := {}
  phase := .closed

/-- A failed reset, then an underflow, a change of link, and suspend and resume around an interrupt
of the core. -/
theorem registers_programmed_around :
    ∃ s, Run (nicStep .plain) Regular (.probed 64)
        [.probe, .ndoOpen { OpenCall.plain with hw := ⟨10, fun _ => 0⟩ }, .ndoOpen .plain,
          .interrupt (DmaStatus.ais ||| DmaStatus.unf),
          .adjustLink (some ⟨true, 1, 1000, true, .inr rfl⟩) 0, .setRxMode ⟨0, [], [], 0x37⟩,
          .suspend true wakeMagic, .interrupt 0x10000000, .resume true] s ∧ NicInv .plain s :=
  exec_exists (by decide +kernel) fun _ run => registers_programmed rfl (by decide) run

end Stmmac
