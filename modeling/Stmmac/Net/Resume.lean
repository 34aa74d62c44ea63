import Stmmac.Net.Programmed

/-!
# Suspend and resume: the registers

`stmmac_resume` programs nothing anew: it enables again what `stmmac_suspend` disabled. Whatever
the two say of wake-up, and whatever happened in between, the register file is then what it was, but
for the request to enter LPI that a timer may have made meanwhile.
-/

namespace Stmmac

open Library

namespace NicAct

def isResume : NicAct → Bool
  | resume _ => true
  | _ => false

/-- A timer finds the transmit ring empty. -/
def entersLpi : NicAct → Bool
  | lpi enter => enter
  | _ => false

end NicAct

/-- The LPI control register, after `set_eee_mode` if it was called. -/
def lpiWord (entered : Bool) (w : BitVec 32) : BitVec 32 := if entered then w ||| lpiEnable else w

/-- The registers that are written while the interface is suspended, but for that of LPI. -/
def quietRegs : List Nat := [gmacMiiAddr, gmacMiiData, dmaStatus, dmaIntrEna]

/-- The state `t` of an interface that has slept since it was suspended in `u`; `entered` says
whether a timer called `set_eee_mode` meanwhile. -/
structure Asleep (u : NicRegs) (entered : Bool) (t : NicRegs) : Prop where
  phase : t.phase = u.phase
  tc : t.tc = u.tc
  lpi : readl t.regs lpiCtrlStatus = lpiWord entered (readl u.regs lpiCtrlStatus)
  sameBut : SameBut (lpiCtrlStatus :: quietRegs) u.regs t.regs

variable {c : NicConf} {o : OpenCall} {s s' t t' u : NicRegs} {wakeup wakeup' entered : Bool}
  {wolopts : BitVec 32} {a : NicAct} {bs : List NicAct}

/-- A second request changes nothing. -/
theorem lpiWord_or (entered : Bool) (w : BitVec 32) :
    lpiWord entered w ||| lpiEnable = w ||| lpiEnable := by
  cases entered with
  | false => rfl
  | true => rw [lpiWord, if_pos rfl, BitVec.or_assoc, BitVec.or_self]

/-- An interrupt without an error writes the status and the mask. -/
theorem interrupt_sameBut {intrStatus : BitVec 32}
    (h : hasBit intrStatus DmaStatus.ais = false) :
    SameBut quietRegs s.regs (stmmacInterruptRegs intrStatus s).regs ∧
      (stmmacInterruptRegs intrStatus s).tc = s.tc := by
  have hmask : ∀ regs value, SameBut quietRegs regs (writel regs value dmaIntrEna) :=
    fun regs value => .writel (by decide)
  have hack : SameBut quietRegs s.regs (writel s.regs (intrStatus &&& 0x1ffff) dmaStatus) :=
    .writel (by decide)
  unfold stmmacInterruptRegs directCalls
  dsimp only
  rw [errorCalls_eq_nil h, List.append_nil]
  split
  · exact ⟨(hack.trans (hmask _ _)).trans (hmask _ _), rfl⟩
  · exact ⟨hack, rfl⟩

/-- Writes to registers other than that of LPI. -/
theorem Asleep.quiet (h : Asleep u entered t) (hphase : t'.phase = t.phase) (htc : t'.tc = t.tc)
    (hsame : SameBut quietRegs t.regs t'.regs) : Asleep u entered t' where
  phase := hphase.trans h.phase
  tc := htc.trans h.tc
  lpi := (hsame _ (by decide)).trans h.lpi
  sameBut := h.sameBut.trans (hsame.mono (List.subset_cons_self _ _))

/-- A step of a suspended interface that does not wake it up. -/
theorem Asleep.step (h : Asleep u entered t) (hphase : u.phase = .suspended o wakeup)
    (hok : Regular t a) (hs : nicStep c t a = some t') (ha : a.isResume = false) :
    Asleep u (entered || a.entersLpi) t' := by
  have hsleep : t.phase = .suspended o wakeup := h.phase.trans hphase
  unfold nicStep at hs
  rw [hsleep] at hs
  cases a with
  | resume wakeup => cases ha
  | interrupt intrStatus =>
    obtain rfl := Option.some.inj hs
    obtain ⟨hsame, htc⟩ := interrupt_sameBut (s := t) (hok (hsleep ▸ rfl))
    rw [show (NicAct.interrupt intrStatus).entersLpi = false from rfl, Bool.or_false]
    exact h.quiet (stmmacInterruptRegs_phase t intrStatus) htc hsame
  | lpi enter =>
    cases enter with
    | false => cases hs
    | true =>
      obtain rfl := Option.some.inj hs
      rw [show (NicAct.lpi true).entersLpi = true from rfl, Bool.or_true]
      refine ⟨h.phase, h.tc, ?_, h.sameBut.trans (.writel (by decide))⟩
      exact (readl_writel_self _ _).trans (h.lpi ▸ lpiWord_or entered _)
  | mdio addr data =>
    obtain rfl := Option.some.inj hs
    rw [show (NicAct.mdio addr data).entersLpi = false from rfl, Bool.or_false]
    exact h.quiet rfl rfl ((mdio_sameBut _ _ _).mono (by decide))
  | setTc tc =>
    rw [Regular, hsleep] at hok
    cases hok
  | _ => cases hs

/-- A run that ends with the first resume slept until then. -/
theorem Asleep.run (h : Asleep u entered t) (hphase : u.phase = .suspended o wakeup)
    (hbs : ∀ b ∈ bs, b.isResume = false)
    (run : Run (nicStep c) Regular t (bs ++ [.resume wakeup']) t') :
    ∃ v, Asleep u (entered || bs.any NicAct.entersLpi) v ∧ t' = stmmacResumeRegs o wakeup' v := by
  induction bs generalizing t entered with
  | nil =>
    cases run with
    | cons hok hs run =>
      cases run
      unfold nicStep at hs
      rw [h.phase.trans hphase] at hs
      rw [List.any_nil, Bool.or_false]
      exact ⟨t, h, (Option.some.inj hs).symm⟩
  | cons b bs ih =>
    cases run with
    | cons hok hs run =>
      rw [List.any_cons, ← Bool.or_assoc]
      exact ih (h.step hphase hok hs (hbs b List.mem_cons_self))
        (fun b hb => hbs b (List.mem_cons_of_mem _ hb)) run

/-! ## The words after resume -/

section Words

variable {v : NicRegs}

/-- What `stmmac_suspend` writes. -/
theorem suspend_sameBut (o : OpenCall) (wakeup : Bool) (wolopts : BitVec 32) (s : NicRegs) :
    SameBut [gmacControl, dmaControl, gmacPmt] s.regs
      (stmmacSuspendRegs o wakeup wolopts s).regs := by
  have hstop : SameBut [dmaControl] s.regs (dwmacDmaStopRx (dwmacDmaStopTx s.regs)) :=
    (dmaOp_sameBut s.regs .stopTx).trans (dmaOp_sameBut _ .stopRx)
  refine (hstop.mono (by decide)).trans ?_
  cases wakeup with
  | true => exact .writel (by decide)
  | false => exact (stmmacSetMac_sameBut _ false).mono (by decide)

/-- What `stmmac_resume` writes. -/
theorem resume_sameBut (o : OpenCall) (wakeup : Bool) (s : NicRegs) :
    SameBut [gmacControl, dmaControl, gmacPmt] s.regs (stmmacResumeRegs o wakeup s).regs := by
  have hstart : ∀ regs, SameBut [dmaControl] regs (dwmacDmaStartRx (dwmacDmaStartTx regs)) :=
    fun regs => (dmaOp_sameBut regs .startTx).trans (dmaOp_sameBut _ .startRx)
  have hmac : ∀ regs, SameBut [gmacControl, dmaControl, gmacPmt] regs
      (dwmacDmaStartRx (dwmacDmaStartTx (stmmacSetMac regs true))) :=
    fun regs => ((stmmacSetMac_sameBut _ true).mono (by decide)).trans
      ((hstart _).mono (by decide))
  cases wakeup with
  | true => exact (SameBut.writel (by decide)).trans (hmac _)
  | false => exact hmac _

theorem resume_tc : (stmmacResumeRegs o wakeup s).tc = s.tc := by
  cases wakeup <;> rfl

theorem suspend_control_others :
    readl (stmmacSuspendRegs o wakeup wolopts s).regs gmacControl &&& ~~~macBits =
      readl s.regs gmacControl &&& ~~~macBits := by
  cases wakeup with
  | true => rfl
  | false => exact setMac_others false

theorem resume_control_others :
    readl (stmmacResumeRegs o wakeup s).regs gmacControl &&& ~~~macBits =
      readl s.regs gmacControl &&& ~~~macBits := by
  cases wakeup with
  | true => exact setMac_others true
  | false => exact setMac_others true

/-- The bits that start and stop the DMA. -/
def dmaRunBits : BitVec 32 := DmaControl.st ||| DmaControl.sr

theorem suspend_dma_others :
    readl (stmmacSuspendRegs o wakeup wolopts s).regs dmaControl &&& ~~~dmaRunBits =
      readl s.regs dmaControl &&& ~~~dmaRunBits := by
  have hstop : readl (dwmacDmaStopRx (dwmacDmaStopTx s.regs)) dmaControl &&& ~~~dmaRunBits =
      readl s.regs dmaControl &&& ~~~dmaRunBits :=
    (readl_dmaOp_and .stopRx rfl).trans (readl_dmaOp_and .stopTx rfl)
  cases wakeup with
  | true => exact hstop
  | false => exact hstop

theorem resume_dma_others :
    readl (stmmacResumeRegs o wakeup s).regs dmaControl &&& ~~~dmaRunBits =
      readl s.regs dmaControl &&& ~~~dmaRunBits := by
  have hstart : ∀ regs,
      readl (dwmacDmaStartRx (dwmacDmaStartTx regs)) dmaControl &&& ~~~dmaRunBits =
        readl regs dmaControl &&& ~~~dmaRunBits :=
    fun regs => (readl_dmaOp_and .startRx rfl).trans (readl_dmaOp_and .startTx rfl)
  cases wakeup with
  | true => exact hstart _
  | false => exact hstart _

/-- Both bits of a DMA that runs. -/
theorem DmaSays.runBits {reset w : BitVec 32} {tc : Int} (h : DmaSays reset true tc w) :
    w &&& dmaRunBits = dmaRunBits := by
  have hst : w &&& DmaControl.st = DmaControl.st :=
    Bits.and_twoPow_of_ne_zero (k := 13) (bne_iff_ne.mp h.st)
  have hsr : w &&& DmaControl.sr = DmaControl.sr :=
    Bits.and_twoPow_of_ne_zero (k := 1) (bne_iff_ne.mp h.sr)
  rw [dmaRunBits, BitVec.and_or_distrib_left, hst, hsr]

end Words

end Stmmac
