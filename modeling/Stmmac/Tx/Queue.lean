import Stmmac.Library.Runs
import Stmmac.Tx.Step

/-!
# Transmit side: stopping and waking the queue

`stmmac_xmit` stops the queue when no more than `MAX_SKB_FRAGS + 1` slots are free;
`stmmac_tx_clean` wakes it when more than `STMMAC_TX_THRESH` are, a quarter of the ring. An awake
queue has room for every frame if and only if `MAX_SKB_FRAGS` is at most a quarter of the ring.
-/

namespace Stmmac

open Library

variable {c : Conf} {s s' : TxState} {a : TxAct} {t h : Nat}

/-- Frames have at most `MAX_SKB_FRAGS` fragments, and `rtl8211_xmit` is not called. -/
def FragsBounded (c : Conf) (_ : TxState) : TxAct → Prop
  | .xmit skb _ => skb.frags.length ≤ c.maxSkbFrags
  | .rtl8211Xmit _ _ => False
  | _ => True

instance (c : Conf) (s : TxState) : ∀ a, Decidable (FragsBounded c s a)
  | .xmit _ _ => inferInstanceAs (Decidable (_ ≤ _))
  | .rtl8211Xmit _ _ => inferInstanceAs (Decidable False)
  | .txClean | .txErr | .complete _ _ => inferInstanceAs (Decidable True)

/-- An awake queue has room for any frame, so `stmmac_xmit` takes it. -/
def AwakeHasRoom (c : Conf) (s : TxState) : Prop :=
  s.queueStopped = false →
    c.maxSkbFrags + 1 ≤ (stmmacTxAvail c s).toNat ∧
      ∀ skb dma, skb.frags.length ≤ c.maxSkbFrags → (stmmacXmit c s skb dma).2 = .ok

theorem awakeHasRoom_of_avail
    (h : s.queueStopped = false → c.maxSkbFrags + 1 ≤ (stmmacTxAvail c s).toNat) :
    AwakeHasRoom c s := by
  intro hawake
  have hroom := h hawake
  refine ⟨hroom, fun skb dma hskb => stmmacXmit_result dma ?_⟩
  unfold XmitFits
  omega

/-! ## What the calls do to the queue -/

section Blocks

variable (s : TxState) (entry : Nat) (n : BitVec 32) (skb : TxSkb)

@[simp] theorem xmitExitLpi_queueStopped : (xmitExitLpi s).queueStopped = s.queueStopped := by
  unfold xmitExitLpi; split <;> rfl
@[simp] theorem txCoalesce_queueStopped :
    (txCoalesce c entry n s).queueStopped = s.queueStopped := by
  unfold txCoalesce; dsimp only; split <;> rfl
@[simp] theorem xmitTimestamp_queueStopped :
    (xmitTimestamp c skb entry s).queueStopped = s.queueStopped := by
  unfold xmitTimestamp; dsimp only; split_ifs <;> rfl
@[simp] theorem call_queueStopped (x : TxCall) : (s.call x).queueStopped = s.queueStopped := rfl
@[simp] theorem modify_queueStopped (f : TxSlot → TxSlot) :
    (s.modify entry f).queueStopped = s.queueStopped := rfl
@[simp] theorem addTxBytes_queueStopped : (s.addTxBytes n).queueStopped = s.queueStopped := rfl

end Blocks

theorem stmmacTxAvail_congr (hd : s'.dirtyTx = s.dirtyTx) (hc : s'.curTx = s.curTx) :
    stmmacTxAvail c s' = stmmacTxAvail c s := by
  unfold stmmacTxAvail
  rw [hd, hc]

theorem xmitStopQueue_queueStopped :
    (xmitStopQueue c s).queueStopped =
      (s.queueStopped || decide ((stmmacTxAvail c s).toNat ≤ c.maxSkbFrags + 1)) := by
  unfold xmitStopQueue
  split
  · next hle => simp [hle]
  · next hle => simp [hle]

/-- An accepted frame stops the queue when it leaves too little room for another. -/
theorem stmmacXmit_queueStopped {skb : TxSkb} (dma : Nat → BitVec 32) (hp : IsPow2 c.dmaTxSize)
    (hfit : XmitFits c s skb) (hcur : s.curTx = BitVec.ofNat 32 h) :
    (stmmacXmit c s skb dma).1.queueStopped = (s.queueStopped ||
      decide ((stmmacTxAvail c (stmmacXmit c s skb dma).1).toNat ≤ c.maxSkbFrags + 1)) := by
  simp only [stmmacXmit, if_neg (not_busy hfit)]
  rw [xmitFrags_eq hp (h := h) _ _ (by simp [hcur])]
  simp only [call_queueStopped, xmitTimestamp_queueStopped, addTxBytes_queueStopped,
    xmitStopQueue_queueStopped, txCoalesce_queueStopped, modify_queueStopped,
    xmitExitLpi_queueStopped]
  congr 4
  apply stmmacTxAvail_congr <;> simp

@[simp] theorem txCleanBody_queueStopped : (txCleanBody c s).queueStopped = s.queueStopped := by
  rw [txCleanBody_eq]

theorem txCleanTail_queueStopped :
    (txCleanTail c s).queueStopped =
      (s.queueStopped && !decide (stmmacTxThresh c < stmmacTxAvail c s)) := by
  have hidle : ∀ s : TxState,
      (if s.eeeEnabled && !s.txPathInLpiMode then
        { stmmacEnableEeeMode s with eeeCtrlTimer := true } else s).queueStopped =
          s.queueStopped := by
    intro s
    unfold stmmacEnableEeeMode
    split_ifs <;> rfl
  unfold txCleanTail
  dsimp only
  rw [hidle]
  split
  · next hwake => simp only [gt_iff_lt, Bool.and_eq_true] at hwake; simp [hwake]
  · next hwake => cases hstop : s.queueStopped <;> simp_all

/-- `stmmac_tx_clean` leaves the queue stopped unless more than a quarter of the ring is free. -/
theorem stmmacTxClean_queueStopped :
    (stmmacTxClean c s).queueStopped = (s.queueStopped &&
      !decide (stmmacTxThresh c < stmmacTxAvail c (stmmacTxClean c s))) := by
  have hloop : ∀ s₀ : TxState, s₀.queueStopped = s.queueStopped →
      (iterate (txCleanGuard c) (txCleanBody c) s₀.inFlight s₀).queueStopped = s.queueStopped :=
    fun s₀ => iterate_invariant (I := fun s' : TxState => s'.queueStopped = s.queueStopped)
      (fun hs _ => txCleanBody_queueStopped.trans hs)
  rw [stmmacTxClean, txCleanTail_queueStopped, hloop,
    stmmacTxAvail_congr txCleanTail_dirtyTx txCleanTail_curTx]
  rfl

/-! ## A low wake threshold is enough -/

/-- Reclaiming only adds room. -/
theorem TxWindow.avail_clean (w : TxWindow c s t h) :
    (stmmacTxAvail c s).toNat ≤ (stmmacTxAvail c (stmmacTxClean c s)).toNat := by
  obtain ⟨t', w', hle⟩ := stmmacTxClean_invariant
    (I := fun t' s' => TxWindow c s' t' h ∧ t ≤ t')
    (fun ⟨w, hle⟩ hsame => ⟨w.congr hsame.dirtyTx hsame.curTx, hle⟩)
    (fun ⟨w, hle⟩ hg => ⟨w.clean hg, Nat.le_succ_of_le hle⟩) ⟨w, Nat.le_refl t⟩
  have hav := w.avail
  have hav' := w'.avail
  omega

theorem toNat_stmmacTxThresh : (stmmacTxThresh c).toNat = c.dmaTxSize.toNat / 4 := by
  simp [stmmacTxThresh]

/-- The counters span a window, and an awake queue has room for a largest frame. -/
structure QueueInv (c : Conf) (s : TxState) : Prop where
  window : ∃ t h, TxWindow c s t h
  room : s.queueStopped = false → c.maxSkbFrags + 1 ≤ (stmmacTxAvail c s).toNat

theorem txStep_queueInv (hp : IsPow2 c.dmaTxSize) (hN : c.maxSkbFrags + 2 < c.dmaTxSize.toNat)
    (hM : c.maxSkbFrags ≤ c.dmaTxSize.toNat / 4) (inv : QueueInv c s) (hok : FragsBounded c s a)
    (hs : txStep c s a = some s') : QueueInv c s' := by
  obtain ⟨⟨t, h, w⟩, hroom⟩ := inv
  cases a with
  | xmit skb dma =>
    obtain rfl := Option.some.inj hs
    by_cases hfit : XmitFits c s skb
    · refine ⟨⟨t, _, (stmmacXmit_filled dma hp w hfit).window w (hfit.room w)⟩, fun hawake => ?_⟩
      rw [stmmacXmit_queueStopped dma hp hfit w.cur, Bool.or_eq_false_iff, decide_eq_false_iff_not]
        at hawake
      omega
    · rw [stmmacXmit_refused hfit]
      exact ⟨⟨t, h, w.congr rfl rfl⟩, fun hawake => nomatch hawake⟩
  | rtl8211Xmit length addr => exact hok.elim
  | txClean =>
    obtain rfl := Option.some.inj hs
    obtain ⟨t', w'⟩ := w.txClean
    refine ⟨⟨t', h, w'⟩, fun hawake => ?_⟩
    rw [stmmacTxClean_queueStopped, Bool.and_eq_false_iff, Bool.not_eq_false',
      decide_eq_true_iff, BitVec.lt_def, toNat_stmmacTxThresh] at hawake
    have hmore := w.avail_clean
    rcases hawake with hawake | hwoken
    · exact Nat.le_trans (hroom hawake) hmore
    · omega
  | txErr =>
    obtain rfl := Option.some.inj hs
    have w' : TxWindow c (stmmacTxErr c s) 0 0 := .err hp
    have hav := w'.avail
    exact ⟨⟨0, 0, w'⟩, fun _ => by omega⟩
  | complete entry desc =>
    obtain ⟨_, _, rfl⟩ := txComplete_eq hs
    exact ⟨⟨t, h, w.congr rfl rfl⟩, hroom⟩

/-! ## A high wake threshold is not -/

/-- Everything from counter 0 up to `h` is queued, and nothing has been completed. -/
structure Queued (c : Conf) (s : TxState) (h : Nat) : Prop where
  window : TxWindow c s 0 h
  owned : ∀ k < h, c.txOwned (s.ring (k % c.dmaTxSize.toNat)) = true

theorem Queued.xmit (ops : c.desc.Lawful) (hp : IsPow2 c.dmaTxSize) (q : Queued c s h)
    {skb : TxSkb} (dma : Nat → BitVec 32) (hfit : XmitFits c s skb) :
    Queued c (stmmacXmit c s skb dma).1 (h + (skb.frags.length + 1)) := by
  have hfill := stmmacXmit_filled dma hp q.window hfit
  have hroom := hfit.room q.window
  refine ⟨hfill.window q.window hroom, fun k hk => ?_⟩
  rcases Nat.lt_or_ge k h with hkh | hkh
  · rw [hfill.kept (t := 0) (by omega) (Nat.zero_le k) hkh]
    exact q.owned k hkh
  · obtain ⟨i, rfl⟩ := Nat.exists_eq_add_of_le hkh
    rw [hfill.slot i (by omega)]
    exact xmitSlot_owned ops i _

theorem Queued.fits (q : Queued c s h) {skb : TxSkb}
    (hroom : h + (skb.frags.length + 1) < c.dmaTxSize.toNat) : XmitFits c s skb := by
  have := q.window.avail
  unfold XmitFits
  omega

/-- Frames of one descriptor fill an awake queue up to its last but one stop. -/
theorem Queued.replicate (ops : c.desc.Lawful) (hp : IsPow2 c.dmaTxSize) {n : Nat}
    (q : Queued c s h) (hawake : s.queueStopped = false)
    (hroom : h + n + c.maxSkbFrags + 2 < c.dmaTxSize.toNat) (dma : Nat → BitVec 32) :
    ∃ s', Run (txStep c) (FragsBounded c) s (.replicate n (.xmit (.plain 0 60 []) dma)) s' ∧
      Queued c s' (h + n) ∧ s'.queueStopped = false := by
  induction n generalizing s h with
  | zero => exact ⟨s, .nil s, q, hawake⟩
  | succ n ih =>
    have hfit : XmitFits c s (.plain 0 60 []) := q.fits (by simp [TxSkb.plain]; omega)
    have q' : Queued c _ (h + 1) := q.xmit ops hp dma hfit
    have hav := q'.window.avail
    have hawake' : (stmmacXmit c s (.plain 0 60 []) dma).1.queueStopped = false := by
      rw [stmmacXmit_queueStopped dma hp hfit q.window.cur, hawake, Bool.false_or,
        decide_eq_false_iff_not]
      omega
    obtain ⟨s', run, q'', hs'⟩ := ih q' hawake' (by omega)
    rw [Nat.add_right_comm, Nat.add_assoc] at q''
    exact ⟨s', .cons (Nat.zero_le _) rfl run, q'', hs'⟩

/-- With nothing completed `stmmac_tx_clean` reclaims nothing. -/
theorem stmmacTxClean_avail_of_guard (hg : txCleanGuard c s = false) :
    stmmacTxAvail c (stmmacTxClean c s) = stmmacTxAvail c s := by
  have hloop : ∀ s₀ : TxState, txCleanGuard c s₀ = false →
      iterate (txCleanGuard c) (txCleanBody c) s₀.inFlight s₀ = s₀ := by
    intro s₀ hg₀
    cases s₀.inFlight with
    | zero => rfl
    | succ n => simp [iterate, hg₀]
  rw [stmmacTxClean, stmmacTxAvail_congr txCleanTail_dirtyTx txCleanTail_curTx, hloop]
  · rfl
  · exact hg

theorem Queued.guard (hp : IsPow2 c.dmaTxSize) (q : Queued c s h) (hpos : 0 < h) :
    txCleanGuard c s = false := by
  rw [txCleanGuard, q.window.entry_dirty hp, q.owned 0 hpos]
  simp

/-- A frame of two descriptors then stops the queue one slot short, and `stmmac_tx_clean` wakes
it although it has reclaimed nothing. -/
theorem awake_without_room (ops : c.desc.Lawful) (hp : IsPow2 c.dmaTxSize)
    (hM : 1 ≤ c.maxSkbFrags) (hN : c.maxSkbFrags + 2 < c.dmaTxSize.toNat)
    (hlow : c.dmaTxSize.toNat / 4 < c.maxSkbFrags) (hcur : s.curTx = 0) (hdirty : s.dirtyTx = 0)
    (hawake : s.queueStopped = false) :
    ∃ as s', Run (txStep c) (FragsBounded c) s as s' ∧ ¬ AwakeHasRoom c s' := by
  have q : Queued c s 0 := ⟨⟨hdirty, hcur, Nat.le_refl 0, by omega⟩, by simp⟩
  obtain ⟨n, hn⟩ := Nat.exists_eq_add_of_lt hN
  obtain ⟨s₁, run, q₁, -⟩ := q.replicate ops hp hawake (by omega : 0 + n + _ + 2 < _) fun _ => 4096
  have hfit : XmitFits c s₁ (.plain 0 60 [60]) := q₁.fits (by simp [TxSkb.plain]; omega)
  let s₂ := (stmmacXmit c s₁ (.plain 0 60 [60]) fun _ => 4096).1
  have q₂ : Queued c s₂ (0 + n + 2) := q₁.xmit ops hp _ hfit
  have hav : (stmmacTxAvail c s₂).toNat = c.maxSkbFrags := by
    have := q₂.window.avail
    omega
  have hstop : s₂.queueStopped = true := by
    rw [stmmacXmit_queueStopped _ hp hfit q₁.window.cur, Bool.or_eq_true, decide_eq_true_iff]
    exact .inr (Nat.le_succ_of_le hav.le)
  have hav' : stmmacTxAvail c (stmmacTxClean c s₂) = stmmacTxAvail c s₂ :=
    stmmacTxClean_avail_of_guard (q₂.guard hp (by omega))
  have hwoken : (stmmacTxClean c s₂).queueStopped = false := by
    rw [stmmacTxClean_queueStopped, hstop, hav', Bool.true_and, Bool.not_eq_false',
      decide_eq_true_iff, BitVec.lt_def, toNat_stmmacTxThresh]
    omega
  have run₂ : Run (txStep c) (FragsBounded c) s₁ [.xmit (.plain 0 60 [60]) fun _ => 4096, .txClean]
      (stmmacTxClean c s₂) := .cons hM rfl (.cons trivial rfl (.nil _))
  refine ⟨_, _, run.append run₂, fun hroom => ?_⟩
  have hshort := (hroom hwoken).1
  rw [hav'] at hshort
  omega

/-- The wake threshold is high enough exactly when it covers the fragments of a largest frame. -/
theorem awake_queue_has_room_iff (ops : c.desc.Lawful) (hp : IsPow2 c.dmaTxSize)
    (hM : 1 ≤ c.maxSkbFrags) (hN : c.maxSkbFrags + 2 < c.dmaTxSize.toNat) (hcur : s.curTx = 0)
    (hdirty : s.dirtyTx = 0) (hawake : s.queueStopped = false) :
    (∀ as s', Run (txStep c) (FragsBounded c) s as s' → AwakeHasRoom c s') ↔
      c.maxSkbFrags ≤ c.dmaTxSize.toNat / 4 := by
  constructor
  · intro hall
    by_contra hlow
    obtain ⟨as, s', run, hbad⟩ :=
      awake_without_room ops hp hM hN (Nat.lt_of_not_le hlow) hcur hdirty hawake
    exact hbad (hall as s' run)
  · intro hle as s' run
    have hinit : QueueInv c s := by
      have w : TxWindow c s 0 0 := ⟨hdirty, hcur, Nat.le_refl 0, by omega⟩
      have hav := w.avail
      exact ⟨⟨0, 0, w⟩, fun _ => by omega⟩
    have hend := run.invariant (I := QueueInv c)
      (fun inv hok hs => txStep_queueInv hp hN hle inv hok hs) hinit
    exact awakeHasRoom_of_avail hend.room

theorem awake_queue_has_room_iff_128 :
    ∃ s, Run (txStep (.normal 128)) (FragsBounded (.normal 128)) (.idle (.normal 128))
        [.xmit (.plain 7 60 [100]) fun i => 4096 + BitVec.ofNat 32 i,
          .complete 0 ⟨⟨0, 0⟩, 4096, 0⟩, .txClean] s ∧ AwakeHasRoom (.normal 128) s :=
  exec_exists (by decide) fun _ run => (awake_queue_has_room_iff ndescOps_lawful ⟨7, rfl⟩
    (by decide) (by decide) rfl rfl rfl).mpr (by decide) _ _ run

/-- With 17 fragments a ring of 64 slots, of which 16 wake the queue, has one slot too few. -/
theorem awake_with_17_free :
    ∃ s, Run (txStep (.normal 64)) (FragsBounded (.normal 64)) (.idle (.normal 64))
        (.replicate 44 (.xmit (.plain 7 60 []) fun _ => 4096) ++
          [.xmit (.plain 8 60 [100]) fun i => 8192 + BitVec.ofNat 32 i, .txClean]) s ∧
      ¬ AwakeHasRoom (.normal 64) s :=
  (exec_reaches (P := fun s => s.queueStopped = false ∧
      (stmmacTxAvail (.normal 64) s).toNat < 18) (by decide +kernel)).imp
    fun _ ⟨run, hawake, hfree⟩ => ⟨run, fun hroom => Nat.not_le_of_lt hfree (hroom hawake).1⟩

end Stmmac
