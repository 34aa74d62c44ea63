import Stmmac.Irq.Lpi
import Stmmac.Mac.Link

/-!
# The timers of an interface

`txtimer` and `eee_ctrl_timer` over the life of an interface, with `stmmac_release` as a machine
that can be interrupted between its steps. `stmmac_release` stops `eee_ctrl_timer` first, and only
if `eee_enabled` is set; a link event that clears the flag leaves the timer pending, and until the
IRQ lines are freed an interrupt can arm it again.
-/

namespace Stmmac

open Library

/-- Closed, open, or the next step of `stmmac_release` after its first. -/
inductive IfacePc where
  | stopped
  | opened
  | stopPhy
  | stopQueue
  | delTxtimer
  | freeIrq
  | freeWolIrq
  | freeLpiIrq
  | stopDma
  | freeResources
  | disableMac
  deriving DecidableEq

/-- `eee_enabled` and the state of `eee_ctrl_timer` are those of the transmit side. -/
structure Iface where
  irq : MainIrq
  link : LinkState
  pc : IfacePc

namespace Iface

def tx (s : Iface) : TxState := s.irq.direct.tx

def setTx (s : Iface) (tx : TxState) : Iface :=
  { s with irq := { s.irq with direct := { s.irq.direct with tx := tx } } }

/-- The link state, with what the transmit side knows about EEE. -/
def linkState (s : Iface) : LinkState :=
  { s.link with eee := { s.link.eee with ctrlTimer := s.tx.eeeCtrlTimer }
                eeeEnabled := s.tx.eeeEnabled }

def setLink (s : Iface) (link : LinkState) : Iface :=
  { s.setTx { s.tx with eeeEnabled := link.eeeEnabled, eeeCtrlTimer := link.eee.ctrlTimer } with
    link := link }

end Iface

/-- `stmmac_open` up to a success: new rings, the caches of `stmmac_init_phy`, the extra statistics
cleared but for the threshold, EEE, and the coalescing timer. `mtu` and `alloc` are those of
`init_dma_desc_rings`. -/
def stmmacOpenTimers (c : Conf) (lc : LinkConf) (phyInitEee : Int) (link : Bool)
    (alloc : Nat → Option RxBuf) (mtu : BitVec 32) (s : Iface) : Iface :=
  let rx := s.irq.direct.hw.rx
  let rx := { rx with stats := { rx.stats with xstats := {} } }
  let tx := { s.tx with
    ring := (TxState.idle c).ring, curTx := 0, dirtyTx := 0, queueStopped := false
    stats := { s.tx.stats with xstats := {} }
    txtimer := true }
  let tc := s.irq.direct.tc
  let direct := { DirectIrq.opened c alloc mtu rx tx with tc := tc, xstats := { threshold := tc } }
  let s := { s with
    irq := { direct := direct, core := {} }
    link := stmmacInitPhyCaches s.link
    pc := .opened }
  let (regs, eee, enabled) := stmmacEeeInit lc.eee phyInitEee link s.link.regs s.linkState.eee
  s.setLink { s.link with regs := regs, eee := eee, eeeEnabled := enabled }

/-- The first step of `stmmac_release`. -/
def stmmacReleaseEee (s : Iface) : Iface :=
  let s := if s.tx.eeeEnabled then s.setTx { s.tx with eeeCtrlTimer := false } else s
  { s with pc := .stopPhy }

/-- One further step of `stmmac_release`. -/
def stmmacReleaseStep (c : Conf) (s : Iface) : Option Iface :=
  match s.pc with
  | .stopped | .opened => none
  | .stopPhy => some { s with pc := .stopQueue }
  | .stopQueue => some { s.setTx { s.tx with queueStopped := true } with pc := .delTxtimer }
  | .delTxtimer => some { s.setTx { s.tx with txtimer := false } with pc := .freeIrq }
  | .freeIrq => some { s with pc := .freeWolIrq }
  | .freeWolIrq => some { s with pc := .freeLpiIrq }
  | .freeLpiIrq => some { s with pc := .stopDma }
  | .stopDma => some { s.setTx (s.tx.call .stopTx) with pc := .freeResources }
  | .freeResources =>
    let rx := dmaFreeRxSkbufs c s.irq.direct.hw.rx
    let hw := { s.irq.direct.hw with rx := rx }
    let s := s.setTx (dmaFreeTxSkbufs c s.tx)
    some { s with
      irq := { s.irq with direct := { s.irq.direct with hw := hw } }
      pc := .disableMac }
  | .disableMac =>
    some { s with
      link := { s.link with regs := stmmacSetMac s.link.regs false }
      pc := .stopped }

/-- Some IRQ line is requested. -/
def IfacePc.Interruptible : IfacePc → Bool
  | opened | stopPhy | stopQueue | delTxtimer | freeIrq | freeWolIrq | freeLpiIrq => true
  | stopped | stopDma | freeResources | disableMac => false

/-- An interrupt finds any values in `DMA_STATUS` and the core registers. -/
inductive IfaceAct where
  | openOk (phyInitEee : Int) (link : Bool) (alloc : Nat → Option RxBuf) (mtu : BitVec 32)
  | openFails
  | adjustLink (phydev : Option PhyDevice) (phyInitEee : Int)
  | xmit (skb : TxSkb) (dma : Nat → BitVec 32)
  | complete (entry : Nat) (desc : DmaDesc)
  | receive (w : RxWrite)
  | interrupt (regs : Regs) (status : BitVec 32) (alloc : BitVec 32 → RxBuf)
  | txtimerExpires
  | eeeCtrlTimerExpires
  | release
  | releaseStep

/-- The interface when it is interrupted with `status` in `DMA_STATUS`. -/
def Iface.raise (s : Iface) (status : BitVec 32) : MainIrq :=
  { s.irq with direct := { s.irq.direct with status := status } }

/-- A failed `stmmac_open` starts no timer. -/
def ifaceStep (c : Conf) (lc : LinkConf) (s : Iface) : IfaceAct → Option Iface
  | .openOk phyInitEee link alloc mtu =>
    if s.pc = .stopped then some (stmmacOpenTimers c lc phyInitEee link alloc mtu s) else none
  | .openFails => if s.pc = .stopped then some s else none
  | .adjustLink phydev phyInitEee =>
    if s.pc = .opened then some (s.setLink (stmmacAdjustLink lc phydev phyInitEee s.linkState))
    else none
  | .xmit skb dma =>
    if s.pc = .opened then some (s.setTx (stmmacXmit c s.tx skb dma).1) else none
  | .complete entry desc => (txComplete c s.tx entry desc).map s.setTx
  | .receive w =>
    (rxStep c s.irq.direct.hw (.receive w)).map fun hw =>
      { s with irq := { s.irq with direct := { s.irq.direct with hw := hw } } }
  | .interrupt regs status alloc =>
    if s.pc.Interruptible then
      some { s with irq := stmmacInterrupt c lc.hasGmac regs alloc (s.raise status) }
    else none
  | .txtimerExpires =>
    if s.tx.txtimer then some (s.setTx (stmmacTxClean c { s.tx with txtimer := false })) else none
  | .eeeCtrlTimerExpires =>
    if s.tx.eeeCtrlTimer then
      some (s.setTx { stmmacEnableEeeMode s.tx with eeeCtrlTimer := true })
    else none
  | .release => if s.pc = .opened then some (stmmacReleaseEee s) else none
  | .releaseStep => stmmacReleaseStep c s

/-! ## When the timers stay stopped -/

/-- The first step of `stmmac_release` is done and it has not returned. -/
def IfacePc.Releasing : IfacePc → Bool
  | stopped | opened => false
  | stopPhy | stopQueue | delTxtimer | freeIrq | freeWolIrq | freeLpiIrq | stopDma
  | freeResources | disableMac => true

/-- `del_timer_sync(&priv->txtimer)` is done, or the interface is closed. -/
def IfacePc.TxtimerDeleted : IfacePc → Bool
  | freeIrq | freeWolIrq | freeLpiIrq | stopDma | freeResources | disableMac | stopped => true
  | opened | stopPhy | stopQueue | delTxtimer => false

/-- The timers as the DMA part of an interrupt finds them. -/
def Iface.timersSeen (s : Iface) (lc : LinkConf) (regs : Regs) : TxTimers :=
  { s.tx.timers with
    txPathInLpiMode := if lc.hasGmac then flagSaved regs s.tx.txPathInLpiMode
      else s.tx.txPathInLpiMode }

/-- `eee_ctrl_timer` is pending at `stmmac_release` only if that will delete it, and no call of
`stmmac_tx_clean` during the release arms it again. -/
def TimersOk (lc : LinkConf) (s : Iface) : IfaceAct → Prop
  | .release => s.tx.eeeEnabled = true ∨ s.tx.eeeCtrlTimer = false
  | .interrupt regs status _ => s.pc.Releasing = true → (s.raise status).direct.CleansTx = true →
      (s.timersSeen lc regs).CleanArms = false
  | .txtimerExpires => s.pc.Releasing = true → s.tx.timers.CleanArms = false
  | .openOk .. | .openFails | .adjustLink .. | .xmit .. | .complete .. | .receive ..
  | .eeeCtrlTimerExpires | .releaseStep => True

structure TimersInv (s : Iface) : Prop where
  handler : s.irq.direct.pc = .idle
  eee : s.pc ≠ .opened → s.tx.eeeCtrlTimer = false
  txtimer : s.pc.TxtimerDeleted = true → s.tx.txtimer = false

/-- Before the first `stmmac_open`. -/
def Iface.Boot (s : Iface) : Prop :=
  s.pc = .stopped ∧ s.irq.direct.pc = .idle ∧ s.tx.txtimer = false ∧ s.tx.eeeCtrlTimer = false

variable {c : Conf} {lc : LinkConf} {s s' : Iface}

theorem CleanArms.afterClean {t : TxTimers} (h : t.CleanArms = false) : t.afterClean = t := by
  unfold TxTimers.afterClean
  rw [h, Bool.or_false]

namespace TimersInv

/-- Outside `opened` a step that keeps both timers, or only clears them, keeps the invariant. -/
theorem congr (inv : TimersInv s) (hhandler : s'.irq.direct.pc = s.irq.direct.pc)
    (hpc : s'.pc = s.pc) (heee : s'.tx.eeeCtrlTimer = s.tx.eeeCtrlTimer)
    (htxtimer : s'.tx.txtimer = s.tx.txtimer) : TimersInv s' :=
  { handler := hhandler ▸ inv.handler
    eee := fun h => heee ▸ inv.eee (hpc ▸ h)
    txtimer := fun h => htxtimer ▸ inv.txtimer (hpc ▸ h) }

theorem opened (hhandler : s.irq.direct.pc = .idle) (hpc : s.pc = .opened) : TimersInv s :=
  { handler := hhandler
    eee := fun h => absurd hpc h
    txtimer := fun h => by rw [hpc] at h; cases h }

theorem interrupt {regs : Regs} {status : BitVec 32} {alloc : BitVec 32 → RxBuf}
    (inv : TimersInv s) (hok : TimersOk lc s (.interrupt regs status alloc))
    (hs : ifaceStep c lc s (.interrupt regs status alloc) = some s') : TimersInv s' := by
  obtain ⟨hint, hs⟩ := Option.ite_none_right_eq_some.mp hs
  obtain rfl := Option.some.inj hs
  obtain ⟨hhandler, htimers⟩ :=
    stmmacInterrupt_timers (c := c) (s := s.raise status) lc.hasGmac regs alloc inv.handler
  by_cases hopen : s.pc = .opened
  · exact .opened hhandler hopen
  · have hrel : s.pc.Releasing = true := by
      cases hpc : s.pc <;> simp_all [IfacePc.Interruptible, IfacePc.Releasing]
    -- whether `stmmac_tx_clean` was called or not, it armed nothing
    have hseen : (stmmacInterrupt c lc.hasGmac regs alloc (s.raise status)).direct.tx.timers =
        s.timersSeen lc regs := by
      refine htimers.trans ?_
      by_cases hclean : (s.raise status).direct.CleansTx = true
      · rw [if_pos hclean]
        exact CleanArms.afterClean (hok hrel hclean)
      · rw [if_neg hclean]
        rfl
    exact inv.congr (hhandler.trans inv.handler.symm) rfl (congrArg TxTimers.eeeCtrlTimer hseen)
      (congrArg TxTimers.txtimer hseen)

theorem txtimerExpires (inv : TimersInv s) (hok : TimersOk lc s .txtimerExpires)
    (hs : ifaceStep c lc s .txtimerExpires = some s') : TimersInv s' := by
  obtain ⟨hpending, hs⟩ := Option.ite_none_right_eq_some.mp hs
  obtain rfl := Option.some.inj hs
  have htimers := stmmacTxClean_timers c { s.tx with txtimer := false }
  by_cases hopen : s.pc = .opened
  · exact .opened inv.handler hopen
  · by_cases hstop : s.pc = .stopped
    · have := inv.txtimer (by rw [hstop]; rfl)
      rw [hpending] at this
      cases this
    · have hrel : s.pc.Releasing = true := by
        cases hpc : s.pc <;> simp_all [IfacePc.Releasing]
      have hkeep : TxTimers.afterClean { s.tx.timers with txtimer := false } =
          { s.tx.timers with txtimer := false } := CleanArms.afterClean (hok hrel)
      have hseen := htimers.trans hkeep
      exact
        { handler := inv.handler
          eee := fun _ => (congrArg TxTimers.eeeCtrlTimer hseen).trans (inv.eee hopen)
          txtimer := fun _ => congrArg TxTimers.txtimer hseen }

theorem release (inv : TimersInv s) (hok : TimersOk lc s .release)
    (hs : ifaceStep c lc s .release = some s') : TimersInv s' := by
  obtain ⟨hopen, hs⟩ := Option.ite_none_right_eq_some.mp hs
  obtain rfl := Option.some.inj hs
  unfold stmmacReleaseEee
  split_ifs with hena
  · exact ⟨inv.handler, fun _ => rfl, fun h => by cases h⟩
  · exact ⟨inv.handler, fun _ => hok.resolve_left hena, fun h => by cases h⟩

theorem releaseStep (inv : TimersInv s) (hs : stmmacReleaseStep c s = some s') :
    TimersInv s' := by
  have heee := inv.eee
  have htx := inv.txtimer
  unfold stmmacReleaseStep at hs
  cases hpc : s.pc <;> simp only [hpc, Option.some.injEq, reduceCtorEq] at hs <;>
    rw [hpc] at heee htx <;> obtain rfl := hs
  case stopPhy | stopQueue =>
    exact ⟨inv.handler, fun _ => heee (by decide), fun h => by cases h⟩
  case delTxtimer => exact ⟨inv.handler, fun _ => heee (by decide), fun _ => rfl⟩
  case freeIrq | freeWolIrq | freeLpiIrq | stopDma | disableMac =>
    exact ⟨inv.handler, fun _ => heee (by decide), fun _ => htx rfl⟩
  case freeResources =>
    have hfree := dmaFreeTxSkbufs_timers c s.tx
    exact
      { handler := inv.handler
        eee := fun _ => (congrArg TxTimers.eeeCtrlTimer hfree).trans (heee (by decide))
        txtimer := fun _ => (congrArg TxTimers.txtimer hfree).trans (htx rfl) }

theorem step {a : IfaceAct} (inv : TimersInv s) (hok : TimersOk lc s a)
    (hs : ifaceStep c lc s a = some s') : TimersInv s' := by
  cases a with
  | openOk phyInitEee link alloc mtu =>
    obtain ⟨-, hs⟩ := Option.ite_none_right_eq_some.mp hs
    exact .opened (Option.some.inj hs ▸ rfl) (Option.some.inj hs ▸ rfl)
  | openFails =>
    obtain ⟨-, hs⟩ := Option.ite_none_right_eq_some.mp hs
    exact Option.some.inj hs ▸ inv
  | adjustLink phydev phyInitEee =>
    obtain ⟨hopen, hs⟩ := Option.ite_none_right_eq_some.mp hs
    exact .opened (Option.some.inj hs ▸ inv.handler) (Option.some.inj hs ▸ hopen)
  | xmit skb dma =>
    obtain ⟨hopen, hs⟩ := Option.ite_none_right_eq_some.mp hs
    exact .opened (Option.some.inj hs ▸ inv.handler) (Option.some.inj hs ▸ hopen)
  | complete entry desc =>
    obtain ⟨tx, htx, rfl⟩ := Option.map_eq_some_iff.mp hs
    obtain ⟨-, -, rfl⟩ := txComplete_eq htx
    exact inv.congr rfl rfl rfl rfl
  | receive w =>
    obtain ⟨hw, -, rfl⟩ := Option.map_eq_some_iff.mp hs
    exact inv.congr rfl rfl rfl rfl
  | interrupt regs status alloc => exact inv.interrupt hok hs
  | txtimerExpires => exact inv.txtimerExpires hok hs
  | eeeCtrlTimerExpires =>
    -- pending only while the interface is open
    obtain ⟨hpending, hs⟩ := Option.ite_none_right_eq_some.mp hs
    have hopen : s.pc = .opened := by
      by_contra hne
      rw [inv.eee hne] at hpending
      cases hpending
    exact .opened (Option.some.inj hs ▸ inv.handler) (Option.some.inj hs ▸ hopen)
  | release => exact inv.release hok hs
  | releaseStep => exact inv.releaseStep hs

end TimersInv

/-- In every run whose steps meet the condition, no timer is pending while the interface is
closed, in particular after every return of `stmmac_release`. -/
theorem no_timer_outlives (c : Conf) (lc : LinkConf) (s₀ s : Iface) (hboot : s₀.Boot)
    (as : List IfaceAct) (run : Run (ifaceStep c lc) (TimersOk lc) s₀ as s)
    (hpc : s.pc = .stopped) : s.tx.txtimer = false ∧ s.tx.eeeCtrlTimer = false := by
  obtain ⟨hstop, hhandler, htx, heee⟩ := hboot
  have hinit : TimersInv s₀ := ⟨hhandler, fun _ => heee, fun _ => htx⟩
  have inv : TimersInv s := run.invariant (fun h hok hs => h.step hok hs) hinit
  exact ⟨inv.txtimer (by rw [hpc]; rfl), inv.eee (by rw [hpc]; decide)⟩

/-- A closed interface with rings of 64 normal descriptors. -/
def Iface.closed : Iface where
  irq := .quiet false
  link := ⟨fun _ => 0, false, 0, -1, ⟨false, false⟩, false⟩
  pc := .stopped

/-- A GMAC whose core supports EEE. -/
def eeeGmac : LinkConf := ⟨true, 0, 0, ⟨0, true, 0⟩⟩

instance (lc : LinkConf) (s : Iface) : ∀ a, Decidable (TimersOk lc s a)
  | .release => inferInstanceAs (Decidable (_ = true ∨ _ = false))
  | .interrupt _ _ _ => inferInstanceAs (Decidable (_ = true → _ = true → _ = false))
  | .txtimerExpires => inferInstanceAs (Decidable (_ = true → _ = false))
  | .openOk .. | .openFails | .adjustLink .. | .xmit .. | .complete .. | .receive ..
  | .eeeCtrlTimerExpires | .releaseStep => inferInstanceAs (Decidable True)

/-- A PHY that supports EEE, an expiry of each timer, then the release. -/
theorem no_timer_outlives_release :
    ∃ s, Run (ifaceStep (.normal 64) eeeGmac) (TimersOk eeeGmac) .closed
        ([.openOk 0 false (fun i => some (.page i)) 1500, .txtimerExpires, .eeeCtrlTimerExpires,
          .release] ++ .replicate 9 .releaseStep) s ∧
      s.tx.txtimer = false ∧ s.tx.eeeCtrlTimer = false := by
  have hreach : ∃ s, Run (ifaceStep (.normal 64) eeeGmac) (TimersOk eeeGmac) .closed
      ([.openOk 0 false (fun i => some (.page i)) 1500, .txtimerExpires, .eeeCtrlTimerExpires,
        .release] ++ .replicate 9 .releaseStep) s ∧ s.pc = .stopped :=
    exec_reaches (by decide +kernel)
  obtain ⟨s, run, hpc⟩ := hreach
  exact ⟨s, run, no_timer_outlives (.normal 64) eeeGmac .closed s ⟨rfl, rfl, rfl, rfl⟩ _ run hpc⟩

/-- A link event finds that the PHY no longer supports EEE; the release then leaves the timer
pending. -/
theorem eee_timer_outlives :
    ∃ s, Run (ifaceStep (.normal 64) eeeGmac) (fun _ _ => True) .closed
        ([.openOk 0 false (fun i => some (.page i)) 1500,
          .adjustLink (some ⟨true, 1, 100, false, .inr rfl⟩) (-95), .release] ++
          .replicate 9 .releaseStep) s ∧
      s.pc = .stopped ∧ s.tx.eeeCtrlTimer = true :=
  exec_reaches (by decide +kernel)

/-! ## Exactness -/

/-- During a release `eee_ctrl_timer` is pending. -/
def LeftPending (s : Iface) : Prop := s.pc.Releasing = true ∧ s.tx.eeeCtrlTimer = true

theorem afterClean_eeeCtrlTimer {t : TxTimers} (h : t.eeeCtrlTimer = true ∨ t.CleanArms = true) :
    t.afterClean.eeeCtrlTimer = true := by
  unfold TxTimers.afterClean
  rcases h with h | h <;> simp [h]

/-- Between the steps of a run the handler is not running. -/
theorem ifaceStep_handler {a : IfaceAct} (hhandler : s.irq.direct.pc = .idle)
    (hs : ifaceStep c lc s a = some s') : s'.irq.direct.pc = .idle := by
  cases a with
  | openOk =>
    obtain ⟨-, hs⟩ := Option.ite_none_right_eq_some.mp hs
    exact Option.some.inj hs ▸ rfl
  | openFails | adjustLink | xmit | txtimerExpires | eeeCtrlTimerExpires =>
    obtain ⟨-, hs⟩ := Option.ite_none_right_eq_some.mp hs
    exact Option.some.inj hs ▸ hhandler
  | complete | receive =>
    obtain ⟨x, -, rfl⟩ := Option.map_eq_some_iff.mp hs
    exact hhandler
  | interrupt regs status alloc =>
    obtain ⟨-, hs⟩ := Option.ite_none_right_eq_some.mp hs
    obtain rfl := Option.some.inj hs
    exact (stmmacInterrupt_timers (s := s.raise status) lc.hasGmac regs alloc hhandler).1
  | release =>
    obtain ⟨-, hs⟩ := Option.ite_none_right_eq_some.mp hs
    obtain rfl := Option.some.inj hs
    unfold stmmacReleaseEee
    split_ifs <;> exact hhandler
  | releaseStep =>
    simp only [ifaceStep, stmmacReleaseStep] at hs
    cases hpc : s.pc <;> simp only [hpc, Option.some.injEq, reduceCtorEq] at hs <;>
      obtain rfl := hs <;> exact hhandler

/-- Nothing in the rest of the release stops it. -/
theorem LeftPending.step {a : IfaceAct} (h : LeftPending s) (hhandler : s.irq.direct.pc = .idle)
    (hs : ifaceStep c lc s a = some s') :
    s'.tx.eeeCtrlTimer = true ∧ (s'.pc.Releasing = true ∨ s'.pc = .stopped) := by
  obtain ⟨hrel, hpend⟩ := h
  have hne : s.pc ≠ .opened ∧ s.pc ≠ .stopped := by
    constructor <;> intro hpc <;> rw [hpc] at hrel <;> cases hrel
  cases a with
  | openOk | openFails | adjustLink | xmit | release =>
    obtain ⟨hpc, -⟩ := Option.ite_none_right_eq_some.mp hs
    simp [hpc] at hne
  | complete entry desc =>
    obtain ⟨tx, htx, rfl⟩ := Option.map_eq_some_iff.mp hs
    obtain ⟨-, -, rfl⟩ := txComplete_eq htx
    exact ⟨hpend, .inl hrel⟩
  | receive w =>
    obtain ⟨hw, -, rfl⟩ := Option.map_eq_some_iff.mp hs
    exact ⟨hpend, .inl hrel⟩
  | interrupt regs status alloc =>
    obtain ⟨-, hs⟩ := Option.ite_none_right_eq_some.mp hs
    obtain rfl := Option.some.inj hs
    obtain ⟨-, htimers⟩ :=
      stmmacInterrupt_timers (c := c) (s := s.raise status) lc.hasGmac regs alloc hhandler
    refine ⟨(congrArg TxTimers.eeeCtrlTimer htimers).trans ?_, .inl hrel⟩
    split
    · exact afterClean_eeeCtrlTimer (.inl hpend)
    · exact hpend
  | txtimerExpires =>
    obtain ⟨-, hs⟩ := Option.ite_none_right_eq_some.mp hs
    obtain rfl := Option.some.inj hs
    have htimers := congrArg TxTimers.eeeCtrlTimer
      (stmmacTxClean_timers c { s.tx with txtimer := false })
    exact ⟨htimers.trans (afterClean_eeeCtrlTimer (.inl hpend)), .inl hrel⟩
  | eeeCtrlTimerExpires =>
    obtain ⟨-, hs⟩ := Option.ite_none_right_eq_some.mp hs
    obtain rfl := Option.some.inj hs
    exact ⟨rfl, .inl hrel⟩
  | releaseStep =>
    simp only [ifaceStep, stmmacReleaseStep] at hs
    cases hpc : s.pc <;> simp only [hpc, Option.some.injEq, reduceCtorEq] at hs <;>
      obtain rfl := hs
    case freeResources =>
      have hfree := congrArg TxTimers.eeeCtrlTimer (dmaFreeTxSkbufs_timers c s.tx)
      exact ⟨hfree.trans hpend, .inl rfl⟩
    case disableMac => exact ⟨hpend, .inr rfl⟩
    all_goals exact ⟨hpend, .inl rfl⟩

/-- A step that breaks the condition leaves the timer pending. -/
theorem leftPending_of_not_ok {a : IfaceAct} (hhandler : s.irq.direct.pc = .idle)
    (hok : ¬ TimersOk lc s a) (hs : ifaceStep c lc s a = some s') : LeftPending s' := by
  cases a with
  | openOk | openFails | adjustLink | xmit | complete | receive | eeeCtrlTimerExpires
  | releaseStep => exact absurd trivial hok
  | release =>
    obtain ⟨hena, hpend⟩ := not_or.mp hok
    obtain ⟨-, hs⟩ := Option.ite_none_right_eq_some.mp hs
    obtain rfl := Option.some.inj hs
    unfold stmmacReleaseEee
    rw [if_neg hena]
    exact ⟨rfl, eq_true_of_ne_false hpend⟩
  | interrupt regs status alloc =>
    simp only [TimersOk, not_forall] at hok
    obtain ⟨hrel, hclean, harms⟩ := hok
    obtain ⟨-, hs⟩ := Option.ite_none_right_eq_some.mp hs
    obtain rfl := Option.some.inj hs
    obtain ⟨-, htimers⟩ :=
      stmmacInterrupt_timers (c := c) (s := s.raise status) lc.hasGmac regs alloc hhandler
    rw [if_pos hclean] at htimers
    refine ⟨hrel, (congrArg TxTimers.eeeCtrlTimer htimers).trans ?_⟩
    exact afterClean_eeeCtrlTimer (.inr (eq_true_of_ne_false harms))
  | txtimerExpires =>
    simp only [TimersOk, not_forall] at hok
    obtain ⟨hrel, harms⟩ := hok
    obtain ⟨-, hs⟩ := Option.ite_none_right_eq_some.mp hs
    obtain rfl := Option.some.inj hs
    have htimers := congrArg TxTimers.eeeCtrlTimer
      (stmmacTxClean_timers c { s.tx with txtimer := false })
    exact ⟨hrel, htimers.trans (afterClean_eeeCtrlTimer (.inr (eq_true_of_ne_false harms)))⟩

theorem LeftPending.run {as : List IfaceAct}
    (run : Run (ifaceStep c lc) (fun s _ => s.pc ≠ .stopped) s as s') (h : LeftPending s)
    (hhandler : s.irq.direct.pc = .idle) (hend : s'.pc = .stopped) :
    s'.tx.eeeCtrlTimer = true := by
  induction run with
  | nil s =>
    have hrel := h.1
    rw [hend] at hrel
    cases hrel
  | @cons s t u a as hok hs run ih =>
    obtain ⟨hpend, hrel | hstop⟩ := h.step hhandler hs
    · exact ih ⟨hrel, hpend⟩ (ifaceStep_handler hhandler hs) hend
    · cases run with
      | nil => exact hpend
      | cons hne => exact absurd hstop hne

/-- For one call of `stmmac_release`: no timer is pending when it returns exactly when each of its
steps, and of the interrupts and expiries in between, meets the condition. -/
theorem release_stops_timers_iff {as : List IfaceAct} (hhandler : s.irq.direct.pc = .idle)
    (hopen : s.pc = .opened)
    (run : Run (ifaceStep c lc) (fun s _ => s.pc ≠ .stopped) s (.release :: as) s')
    (hend : s'.pc = .stopped) :
    s'.tx.txtimer = false ∧ s'.tx.eeeCtrlTimer = false ↔
      Run (ifaceStep c lc) (TimersOk lc) s (.release :: as) s' := by
  have hinit : TimersInv s := .opened hhandler hopen
  constructor
  · rintro ⟨-, heee⟩
    -- the first step that breaks the condition would leave the timer pending to the end
    generalize IfaceAct.release :: as = bs at run
    clear hopen hinit
    induction run with
    | nil s => exact .nil s
    | @cons s t u a as hne hs run ih =>
      have hidle := ifaceStep_handler hhandler hs
      have hok : TimersOk lc s a := by
        by_contra hok
        have hpend := (leftPending_of_not_ok hhandler hok hs).run run hidle hend
        rw [heee] at hpend
        cases hpend
      exact .cons hok hs (ih hidle hend heee)
  · intro run
    have inv : TimersInv s' := run.invariant (fun h hok hs => h.step hok hs) hinit
    exact ⟨inv.txtimer (by rw [hend]; rfl), inv.eee (by rw [hend]; decide)⟩

end Stmmac
