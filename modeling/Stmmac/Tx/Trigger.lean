import Stmmac.Tx.Occupancy

/-!
# Transmit side: what triggers reclaiming

A frame in flight is reclaimed by `stmmac_tx_clean`, which runs from an interrupt handler or from
`txtimer`. The timer is armed when `stmmac_xmit` suppresses the interrupt of a frame, fires once
and is not armed again by its handler, in contrast to `eee_ctrl_timer`. So a frame that the timer
finds unfinished may be left without a trigger; the steps after which that happens are
characterised here.
-/

namespace Stmmac

open Library

/-- The transmit side with the TX interrupt, pending or not. -/
structure TriggerState where
  tx : TxState
  txInt : Bool

inductive TriggerAct where
  | xmit (skb : TxSkb) (dma : Nat → BitVec 32)
  | rtl8211Xmit (length addr : BitVec 32)
  | complete (entry : Nat) (desc : DmaDesc)
  | handler
  | txTimer

/-- `stmmac_tx_timer`. -/
def stmmacTxTimer (c : Conf) (s : TxState) : TxState := stmmacTxClean c s

/-- A completion raises the interrupt if the descriptor asks for it, in whatever order the
hardware completes; a timer that fires is no longer pending. -/
def triggerStep (c : Conf) (s : TriggerState) : TriggerAct → Option TriggerState
  | .xmit skb dma => some { s with tx := (stmmacXmit c s.tx skb dma).1 }
  | .rtl8211Xmit length addr => some { s with tx := (rtl8211Xmit c s.tx length addr).1 }
  | .complete entry desc => (txComplete c s.tx entry desc).map fun tx =>
      { tx := tx, txInt := s.txInt || (s.tx.ring entry).desc.des01.test Tx.interrupt }
  | .handler => some { tx := stmmacTxClean c s.tx, txInt := false }
  | .txTimer =>
    if s.tx.txtimer then some { s with tx := stmmacTxTimer c { s.tx with txtimer := false } }
    else none

/-- The DMA owns no descriptor in flight. -/
def AllDone (c : Conf) (s : TxState) : Prop :=
  ∀ k < s.inFlight, c.txOwned (s.ring (s.flightSlot c k)) = false

/-- The DMA owns a descriptor in flight that asks for an interrupt. -/
def IntQueued (c : Conf) (s : TxState) : Prop :=
  ∃ k < s.inFlight, c.txOwned (s.ring (s.flightSlot c k)) = true ∧
    (s.ring (s.flightSlot c k)).desc.des01.test Tx.interrupt = true

/-- Something will call `stmmac_tx_clean` for the frames in flight. -/
def Triggered (c : Conf) (s : TriggerState) : Prop :=
  s.tx.dirtyTx ≠ s.tx.curTx → s.tx.txtimer = true ∨ s.txInt = true ∨ IntQueued c s.tx

/-- A slot is free when `rtl8211_xmit` is called. -/
def HasSlot (c : Conf) (s : TriggerState) : TriggerAct → Prop
  | .rtl8211Xmit _ _ => 1 ≤ (stmmacTxAvail c s.tx).toNat
  | _ => True

/-- The trigger that a step uses up is not the last one, or finds all frames completed. -/
def TriggerLeft (c : Conf) (s : TriggerState) : TriggerAct → Prop
  | .handler => AllDone c s.tx ∨ s.tx.txtimer = true ∨ IntQueued c s.tx
  | .txTimer => AllDone c s.tx ∨ s.txInt = true ∨ IntQueued c s.tx
  | _ => True

instance (s : TxState) : Decidable (AllDone c s) :=
  inferInstanceAs (Decidable (∀ k < _, _ = _))

instance (s : TxState) : Decidable (IntQueued c s) :=
  inferInstanceAs (Decidable (∃ k < _, _ ∧ _))

instance (s : TriggerState) : Decidable (Triggered c s) :=
  inferInstanceAs (Decidable (_ ≠ _ → _ ∨ _ ∨ _))

instance (c : Conf) (s : TriggerState) : ∀ a, Decidable (HasSlot c s a)
  | .rtl8211Xmit _ _ => inferInstanceAs (Decidable (_ ≤ _))
  | .xmit _ _ | .complete _ _ | .handler | .txTimer => inferInstanceAs (Decidable True)

instance (c : Conf) (s : TriggerState) : ∀ a, Decidable (TriggerLeft c s a)
  | .handler | .txTimer => inferInstanceAs (Decidable (_ ∨ _ ∨ _))
  | .xmit _ _ | .rtl8211Xmit _ _ | .complete _ _ => inferInstanceAs (Decidable True)

variable {c : Conf} {s s' : TxState} {t t' h entry : Nat} {desc : DmaDesc}

/-! ## Reclaiming -/

theorem allDone_iff (hp : IsPow2 c.dmaTxSize) (w : TxWindow c s t h) :
    AllDone c s ↔ ∀ k, t ≤ k → k < h → c.txOwned (s.ring (k % c.dmaTxSize.toNat)) = false := by
  unfold AllDone
  simp only [w.inFlight, w.flightSlot hp]
  have hle := w.le
  constructor
  · intro hall k hk hk'
    obtain ⟨i, rfl⟩ := Nat.exists_eq_add_of_le hk
    exact hall i (by omega)
  · intro hall k hk
    exact hall (t + k) (by omega) (by omega)

theorem intQueued_iff (hp : IsPow2 c.dmaTxSize) (w : TxWindow c s t h) :
    IntQueued c s ↔ ∃ k, t ≤ k ∧ k < h ∧ c.txOwned (s.ring (k % c.dmaTxSize.toNat)) = true ∧
      (s.ring (k % c.dmaTxSize.toNat)).desc.des01.test Tx.interrupt = true := by
  unfold IntQueued
  simp only [w.inFlight, w.flightSlot hp]
  have hle := w.le
  constructor
  · rintro ⟨k, hk, hint⟩
    exact ⟨t + k, by omega, by omega, hint⟩
  · rintro ⟨k, hk, hk', hint⟩
    obtain ⟨i, rfl⟩ := Nat.exists_eq_add_of_le hk
    exact ⟨i, by omega, hint⟩

/-- `stmmac_tx_clean` empties the ring exactly when everything in flight is done. -/
theorem dirty_eq_cur_clean_iff (hp : IsPow2 c.dmaTxSize) (w : TxWindow c s t h) :
    (stmmacTxClean c s).dirtyTx = (stmmacTxClean c s).curTx ↔ AllDone c s := by
  obtain ⟨t', f, hexit⟩ := w.cleaned hp
  rw [f.window.dirty_eq_cur_iff, allDone_iff hp w]
  constructor
  · rintro rfl
    exact f.done
  · intro hall
    by_contra hne
    have hlt := Nat.lt_of_le_of_ne f.window.le hne
    have hown := hexit hlt
    rw [hall t' f.le hlt] at hown
    cases hown

/-- It leaves every descriptor that will raise an interrupt. -/
theorem intQueued_clean_iff (hp : IsPow2 c.dmaTxSize) (w : TxWindow c s t h) :
    IntQueued c (stmmacTxClean c s) ↔ IntQueued c s := by
  obtain ⟨t', f, -⟩ := w.cleaned hp
  rw [intQueued_iff hp f.window, intQueued_iff hp w]
  constructor
  · rintro ⟨k, hk, hk', hint⟩
    rw [f.kept k hk hk'] at hint
    exact ⟨k, Nat.le_trans f.le hk, hk', hint⟩
  · rintro ⟨k, hk, hk', hown, hint⟩
    have hkt : t' ≤ k := by
      by_contra hlt
      rw [f.done k hk (by omega)] at hown
      cases hown
    exact ⟨k, hkt, hk', by rw [f.kept k hkt hk']; exact ⟨hown, hint⟩⟩

theorem stmmacTxClean_txtimer : (stmmacTxClean c s).txtimer = s.txtimer := by
  refine stmmacTxClean_field TxState.txtimer (fun _ _ => rfl) (fun s => ?_) (fun s => ?_)
  · rw [txCleanBody_eq]
  · unfold txCleanTail stmmacEnableEeeMode
    dsimp only
    split_ifs <;> rfl

/-! ## Transmitting -/

/-- The coalescing block suppresses the interrupt of a frame of `n` descriptors. -/
def Coalesced (c : Conf) (s : TxState) (n : BitVec 32) : Prop :=
  c.txCoalFrames > s.txCountFrames + n

instance (n : BitVec 32) : Decidable (Coalesced c s n) := inferInstanceAs (Decidable (_ > _))

section Slots

variable (hd : c.desc = ndescOps) {skb : TxSkb} {dma : Nat → BitVec 32} (n : BitVec 32)
  (p : TxSlot)

include hd

theorem closeSlot_interrupt :
    (c.closeSlot s n p).desc.des01.test Tx.interrupt = !decide (Coalesced c s n) := by
  unfold Conf.closeSlot Coalesced
  dsimp only
  split
  · next hco => simp (disch := decide) [hd, ndescOps, ndescClearTxIc, hco]
  · next hco => simp (disch := decide) [hd, ndescOps, ndescCloseTxDesc, hco]

theorem firstSlot_interrupt :
    (c.firstSlot skb p).desc.des01.test Tx.interrupt = p.desc.des01.test Tx.interrupt := by
  unfold Conf.firstSlot Conf.stampSlot
  split <;> simp (disch := decide) [hd, ndescOps, ndescSetTxOwner, ndescEnableTxTimestamp]

/-- The last descriptor of a frame asks for an interrupt unless the frame is coalesced. -/
theorem xmitSlot_interrupt :
    (c.xmitSlot s skb dma skb.frags.length p).desc.des01.test Tx.interrupt =
      !decide (Coalesced c s (BitVec.ofNat 32 (skb.frags.length + 1))) := by
  unfold Conf.xmitSlot
  dsimp only
  split <;> simp [firstSlot_interrupt hd, closeSlot_interrupt hd]

theorem rtl8211Slot_interrupt (length addr : BitVec 32) :
    (c.rtl8211Slot s length addr p).desc.des01.test Tx.interrupt = !decide (Coalesced c s 1) := by
  rw [← closeSlot_interrupt hd 1 (c.prepareSlot true length addr false p)]
  simp (disch := decide) [Conf.rtl8211Slot, hd, ndescOps, ndescSetTxOwner]

end Slots

theorem rtl8211Slot_owned (ops : c.desc.Lawful) (length addr : BitVec 32) (p : TxSlot) :
    c.txOwned (c.rtl8211Slot s length addr p) = true := by
  simp [Conf.rtl8211Slot, Conf.txOwned, ops.txOwner_set]

section Blocks

variable (s : TxState) (skb : TxSkb) (n : BitVec 32)

@[simp] theorem xmitExitLpi_txtimer : (xmitExitLpi s).txtimer = s.txtimer := by
  unfold xmitExitLpi; split <;> rfl
@[simp] theorem xmitStopQueue_txtimer : (xmitStopQueue c s).txtimer = s.txtimer := by
  unfold xmitStopQueue; split <;> rfl
@[simp] theorem xmitTimestamp_txtimer : (xmitTimestamp c skb entry s).txtimer = s.txtimer := by
  unfold xmitTimestamp; dsimp only; split_ifs <;> rfl
@[simp] theorem call_txtimer (x : TxCall) : (s.call x).txtimer = s.txtimer := rfl
@[simp] theorem modify_txtimer (f : TxSlot → TxSlot) : (s.modify entry f).txtimer = s.txtimer := rfl
@[simp] theorem addTxBytes_txtimer : (s.addTxBytes n).txtimer = s.txtimer := rfl

/-- The timer is armed together with the suppression of the interrupt. -/
theorem txCoalesce_txtimer :
    (txCoalesce c entry n s).txtimer = (s.txtimer || decide (Coalesced c s n)) := by
  unfold txCoalesce Coalesced
  dsimp only
  split
  · next hco => simp [hco]
  · next hco => simp [hco]

end Blocks

theorem stmmacXmit_txtimer {skb : TxSkb} (dma : Nat → BitVec 32) (hp : IsPow2 c.dmaTxSize)
    (hfit : XmitFits c s skb) (hcur : s.curTx = BitVec.ofNat 32 h) :
    (stmmacXmit c s skb dma).1.txtimer =
      (s.txtimer || decide (Coalesced c s (BitVec.ofNat 32 (skb.frags.length + 1)))) := by
  simp only [stmmacXmit, if_neg (not_busy hfit)]
  rw [xmitFrags_eq hp (h := h) _ _ (by simp [hcur])]
  simp only [call_txtimer, xmitTimestamp_txtimer, addTxBytes_txtimer, xmitStopQueue_txtimer,
    txCoalesce_txtimer, modify_txtimer, xmitExitLpi_txtimer]
  simp [Coalesced]

theorem rtl8211Xmit_txtimer (length addr : BitVec 32) :
    (rtl8211Xmit c s length addr).1.txtimer = (s.txtimer || decide (Coalesced c s 1)) := by
  simp [rtl8211Xmit, txCoalesce_txtimer, Coalesced]

/-! ## One step -/

section Step

variable {d d' : TriggerState} {a : TriggerAct}

theorem triggerStep_window (hp : IsPow2 c.dmaTxSize) (w : TxWindow c d.tx t h)
    (hok : HasSlot c d a) (hs : triggerStep c d a = some d') :
    ∃ t' h', TxWindow c d'.tx t' h' := by
  cases a with
  | xmit skb dma =>
    obtain rfl := Option.some.inj hs
    exact txStep_window (a := .xmit skb dma) hp w trivial rfl
  | rtl8211Xmit length addr =>
    obtain rfl := Option.some.inj hs
    exact txStep_window (a := .rtl8211Xmit length addr) hp w hok rfl
  | complete entry desc =>
    obtain ⟨s', hs', rfl⟩ := Option.map_eq_some_iff.mp hs
    exact txStep_window (a := .complete entry desc) hp w trivial hs'
  | handler =>
    obtain rfl := Option.some.inj hs
    exact txStep_window (a := .txClean) hp w trivial rfl
  | txTimer =>
    simp only [triggerStep] at hs
    split at hs
    · obtain rfl := Option.some.inj hs
      have w' : TxWindow c { d.tx with txtimer := false } t h := w.congr rfl rfl
      exact txStep_window (a := .txClean) hp w' trivial rfl
    · cases hs

/-- The last of `n` new descriptors asks for an interrupt, or the timer was armed. -/
theorem triggered_of_filled {n : Nat} {fill : Nat → TxSlot → TxSlot} {k : BitVec 32}
    (hp : IsPow2 c.dmaTxSize) (w : TxWindow c s t h) (hfill : TxFilled c s s' h (n + 1) fill)
    (hroom : h + (n + 1) < t + c.dmaTxSize.toNat)
    (htimer : s'.txtimer = (s.txtimer || decide (Coalesced c s k)))
    (hown : ∀ p, c.txOwned (fill n p) = true)
    (hint : ∀ p, (fill n p).desc.des01.test Tx.interrupt = !decide (Coalesced c s k))
    (txInt : Bool) : Triggered c ⟨s', txInt⟩ := by
  intro _
  have hle := w.le
  by_cases hco : Coalesced c s k
  · left
    simp [htimer, hco]
  · right; right
    rw [intQueued_iff hp (hfill.window w hroom)]
    refine ⟨h + n, by omega, by omega, ?_, ?_⟩
    · rw [hfill.slot n (Nat.lt_succ_self n)]
      exact hown _
    · rw [hfill.slot n (Nat.lt_succ_self n), hint]
      simp [hco]

/-- A completion takes away no trigger but the one it turns into a pending interrupt. -/
theorem triggered_complete (htrig : Triggered c d) (hs : txComplete c d.tx entry desc = some s') :
    Triggered c ⟨s', d.txInt || (d.tx.ring entry).desc.des01.test Tx.interrupt⟩ := by
  obtain ⟨_, _, rfl⟩ := txComplete_eq hs
  intro hne
  rcases htrig hne with htimer | hpending | ⟨k, hk, hown, hint⟩
  · exact .inl htimer
  · right; left
    simp [hpending]
  · by_cases he : d.tx.flightSlot c k = entry
    · right; left
      rw [← he, hint, Bool.or_true]
    · right; right
      refine ⟨k, hk, ?_⟩
      have hkept : (d.tx.modify entry ({ · with desc := desc })).ring (d.tx.flightSlot c k) =
          d.tx.ring (d.tx.flightSlot c k) := Function.update_of_ne he _ _
      exact ⟨(congrArg c.txOwned hkept).trans hown, by
        rw [← hint]; exact congrArg (·.desc.des01.test Tx.interrupt) hkept⟩

/-- From a state with a trigger, a step leads to a state with a trigger exactly when it leaves
one. -/
theorem triggered_step_iff (hd : c.desc = ndescOps) (hp : IsPow2 c.dmaTxSize)
    (w : TxWindow c d.tx t h) (htrig : Triggered c d) (hok : HasSlot c d a)
    (hs : triggerStep c d a = some d') : Triggered c d' ↔ TriggerLeft c d a := by
  have ops : c.desc.Lawful := hd ▸ ndescOps_lawful
  cases a with
  | xmit skb dma =>
    obtain rfl := Option.some.inj hs
    refine iff_of_true ?_ trivial
    by_cases hfit : XmitFits c d.tx skb
    · exact triggered_of_filled hp w (stmmacXmit_filled dma hp w hfit) (hfit.room w)
        (stmmacXmit_txtimer dma hp hfit w.cur) (fun p => xmitSlot_owned ops _ p)
        (fun p => xmitSlot_interrupt hd p) _
    · rw [stmmacXmit_refused hfit]
      exact htrig
  | rtl8211Xmit length addr =>
    obtain rfl := Option.some.inj hs
    refine iff_of_true ?_ trivial
    exact triggered_of_filled hp w (rtl8211Xmit_filled hp w.cur) (rtl8211_room w hok)
      (rtl8211Xmit_txtimer length addr) (fun p => rtl8211Slot_owned ops length addr p)
      (fun p => rtl8211Slot_interrupt hd p length addr) _
  | complete entry desc =>
    obtain ⟨s', hs', rfl⟩ := Option.map_eq_some_iff.mp hs
    exact iff_of_true (triggered_complete htrig hs') trivial
  | handler =>
    obtain rfl := Option.some.inj hs
    simp only [Triggered, TriggerLeft, ← dirty_eq_cur_clean_iff hp w, intQueued_clean_iff hp w,
      stmmacTxClean_txtimer]
    grind
  | txTimer =>
    simp only [triggerStep] at hs
    split at hs
    · next hpending =>
      obtain rfl := Option.some.inj hs
      have w' : TxWindow c { d.tx with txtimer := false } t h := w.congr rfl rfl
      have hdone : AllDone c { d.tx with txtimer := false } ↔ AllDone c d.tx := Iff.rfl
      have hqueued : IntQueued c { d.tx with txtimer := false } ↔ IntQueued c d.tx := Iff.rfl
      simp only [Triggered, TriggerLeft, stmmacTxTimer, ← hdone, ← hqueued,
        ← dirty_eq_cur_clean_iff hp w', intQueued_clean_iff hp w', stmmacTxClean_txtimer]
      grind
    · cases hs

end Step

/-! ## Runs -/

/-- Frames in flight keep a trigger over every run whose steps leave one, and the condition on a
step cannot be relaxed. -/
theorem reclaim_triggered {d d' : TriggerState} {as : List TriggerAct} (hd : c.desc = ndescOps)
    (hp : IsPow2 c.dmaTxSize) (hcur : d.tx.curTx = 0) (hdirty : d.tx.dirtyTx = 0)
    (run : Run (triggerStep c) (fun d a => HasSlot c d a ∧ TriggerLeft c d a) d as d') :
    Triggered c d' ∧ ∀ a d'', HasSlot c d' a → triggerStep c d' a = some d'' →
      (Triggered c d'' ↔ TriggerLeft c d' a) := by
  have hstart : (∃ t h, TxWindow c d.tx t h) ∧ Triggered c d :=
    ⟨⟨_, _, .of_eq hp (hcur.trans hdirty.symm)⟩, fun hne => absurd (hdirty.trans hcur.symm) hne⟩
  obtain ⟨⟨t, h, w⟩, htrig⟩ := run.invariant
    (I := fun d => (∃ t h, TxWindow c d.tx t h) ∧ Triggered c d)
    (fun ⟨⟨_, _, w⟩, htrig⟩ ⟨hok, hleft⟩ hs =>
      ⟨triggerStep_window hp w hok hs, (triggered_step_iff hd hp w htrig hok hs).mpr hleft⟩) hstart
  exact ⟨htrig, fun a d'' hok hs => triggered_step_iff hd hp w htrig hok hs⟩

/-- The transmit side after `stmmac_open`, which arms the timer. -/
def TriggerState.opened (c : Conf) : TriggerState where
  tx := { TxState.idle c with txtimer := true }
  txInt := false

theorem reclaim_triggered_two_frames :
    ∃ d, Run (triggerStep (.normal 64))
        (fun d a => HasSlot (.normal 64) d a ∧ TriggerLeft (.normal 64) d a)
        (.opened (.normal 64))
        [.xmit (.plain 7 60 []) fun _ => 4096, .complete 0 ⟨⟨0, 0⟩, 4096, 0⟩, .txTimer,
          .rtl8211Xmit 60 8192] d ∧ Triggered (.normal 64) d :=
  exec_exists (by decide +kernel) fun _ run =>
    (reclaim_triggered rfl ⟨6, rfl⟩ rfl rfl run).1

/-- The timer fires before the only frame, whose interrupt is suppressed, has been sent. -/
theorem timer_leaves_no_trigger :
    ∃ d, Run (triggerStep (.normal 64)) (HasSlot (.normal 64)) (.opened (.normal 64))
        [.xmit (.plain 7 60 []) fun _ => 4096, .txTimer] d ∧ ¬ Triggered (.normal 64) d :=
  exec_reaches (by decide +kernel)

end Stmmac
