import Mathlib.Data.List.Forall2
import Stmmac.Library.Runs
import Stmmac.Tx.Step

/-!
# Transmit side: when a frame is freed

A frame takes several slots, and its skb is stored in the first of them. `stmmac_tx_clean` frees
it when it reclaims that slot, whatever the DMA has done with the others. The frames accepted so
far are recorded beside the state, to compare them with the buffers that were freed. If each
`stmmac_tx_clean` finds the DMA between two frames, a frame is freed once, in order, and after the
DMA has given up all its descriptors.
-/

namespace Stmmac

open Library

/-- An accepted frame: its skb and the slots that were filled for it. -/
structure QueuedFrame where
  id : Nat
  slots : List Nat

structure FrameState where
  tx : TxState
  queued : List QueuedFrame

def queuedFrame (c : Conf) (s : TxState) (skb : TxSkb) : QueuedFrame where
  id := skb.id
  slots := (List.range (skb.frags.length + 1)).map fun i => c.txEntry (s.curTx + BitVec.ofNat 32 i)

/-- `stmmac_xmit`, `stmmac_tx_clean` and completions, remembering the accepted frames. -/
def frameStep (c : Conf) (s : FrameState) : TxAct → Option FrameState
  | .xmit skb dma =>
    match stmmacXmit c s.tx skb dma with
    | (tx, .ok) => some ⟨tx, s.queued ++ [queuedFrame c s.tx skb]⟩
    | (tx, .busy) => some ⟨tx, s.queued⟩
  | .txClean => some ⟨stmmacTxClean c s.tx, s.queued⟩
  | .complete entry desc => (txComplete c s.tx entry desc).map (⟨·, s.queued⟩)
  | .rtl8211Xmit _ _ => none
  | .txErr => none

/-- The buffers freed, with the ownership bits at the time. -/
def frees (trace : List TxCall) : List (Nat × (Nat → Bool)) :=
  trace.filterMap fun
    | .devKfreeSkb id owned => some (id, owned)
    | _ => none

/-- A free of the frame while the DMA owns none of its descriptors. -/
def FreedIdle (f : QueuedFrame) (e : Nat × (Nat → Bool)) : Prop :=
  e.1 = f.id ∧ ∀ i ∈ f.slots, e.2 i = false

/-- The oldest descriptor the DMA still owns, if any, is the first of its frame. -/
def DmaAtFrame (c : Conf) (s : TxState) : Prop :=
  ∀ k < s.inFlight, (∀ j < k, c.txOwned (s.ring (s.flightSlot c j)) = false) →
    c.txOwned (s.ring (s.flightSlot c k)) = true → (s.ring (s.flightSlot c k)).skb.isSome

/-- `stmmac_tx_clean` finds the DMA between two frames. -/
def CleanAtFrame (c : Conf) (s : FrameState) : TxAct → Prop
  | .txClean => DmaAtFrame c s.tx
  | _ => True

instance (c : Conf) (s : TxState) : Decidable (DmaAtFrame c s) :=
  inferInstanceAs (Decidable (∀ k < s.inFlight, _ → _ → _))

instance (c : Conf) (s : FrameState) : ∀ a, Decidable (CleanAtFrame c s a)
  | .txClean => inferInstanceAs (Decidable (DmaAtFrame c s.tx))
  | .xmit _ _ | .rtl8211Xmit _ _ | .txErr | .complete _ _ => inferInstanceAs (Decidable True)

/-! ## Frames laid out along the window -/

def TxSlot.skbId (p : TxSlot) : Option Nat := p.skb.map TxSkb.id

/-- The frame `f` fills the slots from counter `t` on, its skb in the first one. -/
structure FrameAt (N : Nat) (r : Nat → TxSlot) (t : Nat) (f : QueuedFrame) : Prop where
  pos : 0 < f.slots.length
  slots : f.slots = (List.range f.slots.length).map fun i => (t + i) % N
  head : (r (t % N)).skbId = some f.id
  tail : ∀ i, 0 < i → i < f.slots.length → (r ((t + i) % N)).skbId = none

/-- The frames fill the window from `t` to `h` one after the other. -/
def FramesAt (N : Nat) (r : Nat → TxSlot) : Nat → List QueuedFrame → Nat → Prop
  | t, [], h => t = h
  | t, f :: fs, h => FrameAt N r t f ∧ FramesAt N r (t + f.slots.length) fs h

section Layout

variable {N : Nat} {r r' : Nat → TxSlot} {t h : Nat} {f : QueuedFrame} {fs : List QueuedFrame}

theorem FramesAt.le (hf : FramesAt N r t fs h) : t ≤ h := by
  induction fs generalizing t with
  | nil => exact Nat.le_of_eq hf
  | cons f fs ih => exact Nat.le_trans (Nat.le_add_right _ _) (ih hf.2)

theorem FrameAt.congr (hf : FrameAt N r t f)
    (hr : ∀ i < f.slots.length, (r' ((t + i) % N)).skbId = (r ((t + i) % N)).skbId) :
    FrameAt N r' t f where
  pos := hf.pos
  slots := hf.slots
  head := (hr 0 hf.pos).trans hf.head
  tail i hi hi' := (hr i hi').trans (hf.tail i hi hi')

/-- The layout depends on the skb entries of the window only. -/
theorem FramesAt.congr (hf : FramesAt N r t fs h)
    (hr : ∀ k, t ≤ k → k < h → (r' (k % N)).skbId = (r (k % N)).skbId) :
    FramesAt N r' t fs h := by
  induction fs generalizing t with
  | nil => exact hf
  | cons f fs ih =>
    have hle := hf.2.le
    refine ⟨hf.1.congr fun i hi => hr _ (by omega) (by omega), ih hf.2 fun k hk hk' => ?_⟩
    exact hr k (by omega) hk'

/-- A new frame at the end of the window. -/
theorem FramesAt.snoc (hf : FramesAt N r t fs h) (hn : FrameAt N r h f) :
    FramesAt N r t (fs ++ [f]) (h + f.slots.length) := by
  induction fs generalizing t with
  | nil =>
    obtain rfl : t = h := hf
    exact ⟨hn, rfl⟩
  | cons g fs ih => exact ⟨hf.1, ih hf.2⟩

theorem FramesAt.head_mem (hf : FramesAt N r t fs h) (hm : f ∈ fs) :
    ∃ i ∈ f.slots, (r i).skbId = some f.id := by
  induction fs generalizing t with
  | nil => cases hm
  | cons g fs ih =>
    rcases List.mem_cons.mp hm with rfl | hm
    · refine ⟨t % N, ?_, hf.1.head⟩
      rw [hf.1.slots]
      exact List.mem_map.mpr ⟨0, List.mem_range.mpr hf.1.pos, rfl⟩
    · exact ih hf.2 hm

end Layout

/-! ## Frees -/

theorem frees_append (l₁ l₂ : List TxCall) : frees (l₁ ++ l₂) = frees l₁ ++ frees l₂ :=
  List.filterMap_append

variable {c : Conf} {s : TxState} {t h : Nat}

theorem frees_xmitCalls (skb : TxSkb) (dma : Nat → BitVec 32) :
    frees (xmitCalls c s skb dma) = [] := by
  unfold xmitCalls frees
  split_ifs <;> simp

/-- A round of the reclaimer frees the skb of its slot and nothing else. -/
theorem frees_reclaimCalls (r : Nat → TxSlot) (p : TxSlot) :
    frees (c.reclaimCalls r p) =
      (p.skbId.map fun id => (id, fun i => c.txOwned (r i))).toList := by
  have hts : frees (c.hwtstampCalls p) = [] := by
    unfold Conf.hwtstampCalls
    cases p.skb with
    | none => split_ifs <;> rfl
    | some skb => dsimp only; split_ifs <;> rfl
  have hunmap : frees (c.unmapCalls p) = [] := by
    unfold Conf.unmapCalls; split_ifs <;> rfl
  have hfree : frees (c.freeCalls r p) =
      (p.skbId.map fun id => (id, fun i => c.txOwned (r i))).toList := by
    unfold Conf.freeCalls TxSlot.skbId; cases p.skb <;> rfl
  unfold Conf.reclaimCalls
  rw [frees_append, frees_append, hunmap, hfree]
  split_ifs
  · simp [hts]
  · rfl

theorem SameRing.frees_eq {s' : TxState} (hsame : SameRing s s') :
    frees s'.trace = frees s.trace := by
  rcases hsame.trace with htr | htr <;> simp [htr, frees]

/-! ## The invariant -/

/-- `DmaAtFrame`, by the counters of the window. -/
def AtFrame (c : Conf) (s : TxState) (t h : Nat) : Prop :=
  ∀ k, t ≤ k → k < h →
    (∀ j, t ≤ j → j < k → c.txOwned (s.ring (j % c.dmaTxSize.toNat)) = false) →
      c.txOwned (s.ring (k % c.dmaTxSize.toNat)) = true →
        (s.ring (k % c.dmaTxSize.toNat)).skbId ≠ none

/-- The frames queued are those freed followed by those still in the window, which from counter
`t + m` on is filled with whole frames. The `m` slots before that are the rest of a frame already
freed, all given up by the DMA. -/
structure Reclaiming (c : Conf) (queued : List QueuedFrame) (h : Nat) (s : TxState) (t m : Nat)
    (done pending : List QueuedFrame) : Prop where
  window : TxWindow c s t h
  split : queued = done ++ pending
  freed : List.Forall₂ FreedIdle done (frees s.trace)
  rest : ∀ i < m, c.txOwned (s.ring ((t + i) % c.dmaTxSize.toNat)) = false ∧
    (s.ring ((t + i) % c.dmaTxSize.toNat)).skbId = none
  frames : FramesAt c.dmaTxSize.toNat s.ring (t + m) pending h
  atFrame : AtFrame c s t h

theorem DmaAtFrame.atFrame (hp : IsPow2 c.dmaTxSize) (w : TxWindow c s t h)
    (hd : DmaAtFrame c s) : AtFrame c s t h := by
  intro k hk hk' hbefore hown
  have hslot : ∀ j, t ≤ j → s.flightSlot c (j - t) = j % c.dmaTxSize.toNat := by
    intro j hj
    rw [w.flightSlot hp, show t + (j - t) = j by omega]
  have := hd (k - t) (by rw [w.inFlight]; omega)
  rw [hslot k hk] at this
  have hsome := this (fun j hj => ?_) hown
  · unfold TxSlot.skbId
    simpa [Option.isSome_iff_ne_none] using hsome
  · have := hbefore (t + j) (by omega) (by omega)
    rwa [w.flightSlot hp]

/-- Reclaiming a slot keeps the DMA between two frames. -/
theorem AtFrame.clean (hp : IsPow2 c.dmaTxSize) (w : TxWindow c s t h) (ha : AtFrame c s t h)
    (hg : txCleanGuard c s = true) : AtFrame c (txCleanBody c s) (t + 1) h := by
  have hN := w.lt
  have hkept : ∀ k, t + 1 ≤ k → k < h →
      (txCleanBody c s).ring (k % c.dmaTxSize.toNat) = s.ring (k % c.dmaTxSize.toNat) :=
    fun k hk hk' => w.clean_kept hp (by omega) (by omega)
  intro k hk hk' hbefore hown
  rw [hkept k hk hk'] at hown ⊢
  refine ha k (by omega) hk' ?_ hown
  intro j hj hj'
  rcases Nat.eq_or_lt_of_le hj with rfl | hj
  · rw [← w.entry_dirty hp]
    exact (txCleanGuard_iff.mp hg).2
  · rw [← hkept j hj (by omega)]
    exact hbefore j hj hj'

theorem Reclaiming.congr {s' : TxState} {queued done pending : List QueuedFrame} {m : Nat}
    (inv : Reclaiming c queued h s t m done pending) (hsame : SameRing s s') :
    Reclaiming c queued h s' t m done pending := by
  refine ⟨inv.window.congr hsame.dirtyTx hsame.curTx, inv.split, ?_, ?_, ?_, ?_⟩
  · rw [hsame.frees_eq]
    exact inv.freed
  · rw [hsame.ring]
    exact inv.rest
  · rw [hsame.ring]
    exact inv.frames
  · unfold AtFrame
    rw [hsame.ring]
    exact inv.atFrame

/-- If the first descriptor of a frame is given up, all are: the DMA is at the start of some
frame. -/
theorem Reclaiming.idle {queued done pending : List QueuedFrame} {f : QueuedFrame}
    (inv : Reclaiming c queued h s t 0 done (f :: pending))
    (hown : c.txOwned (s.ring (t % c.dmaTxSize.toNat)) = false) :
    ∀ i < f.slots.length, c.txOwned (s.ring ((t + i) % c.dmaTxSize.toNat)) = false := by
  obtain ⟨hf, hrest⟩ := inv.frames
  have hle := hrest.le
  intro i
  induction i using Nat.strongRecOn with
  | ind i ih =>
    intro hi
    by_cases h0 : i = 0
    · subst h0; exact hown
    · by_contra hc
      refine inv.atFrame (t + i) (by omega) (by omega) ?_ (by simpa using hc)
        (hf.tail i (by omega) hi)
      intro j hj hj'
      have := ih (j - t) (by omega) (by omega)
      rwa [show t + (j - t) = j by omega] at this

theorem TxWindow.frees_clean (hp : IsPow2 c.dmaTxSize) (w : TxWindow c s t h) :
    frees (txCleanBody c s).trace = frees s.trace ++
      ((s.ring (t % c.dmaTxSize.toNat)).skbId.map
        fun id => (id, fun i => c.txOwned (s.ring i))).toList := by
  rw [txCleanBody_trace, frees_append, frees_reclaimCalls, w.entry_dirty hp]

section Round

variable {queued done pending : List QueuedFrame} {f : QueuedFrame} {m : Nat}

/-- A round on a slot of a frame that was freed before. -/
theorem Reclaiming.clean_rest (hp : IsPow2 c.dmaTxSize)
    (inv : Reclaiming c queued h s t (m + 1) done pending) (hg : txCleanGuard c s = true) :
    Reclaiming c queued h (txCleanBody c s) (t + 1) m done pending := by
  have w := inv.window
  have hN := w.lt
  have hle := inv.frames.le
  have hskb : (s.ring (t % c.dmaTxSize.toNat)).skbId = none := (inv.rest 0 (by omega)).2
  refine ⟨w.clean hg, inv.split, ?_, ?_, ?_, inv.atFrame.clean hp w hg⟩
  · rw [w.frees_clean hp]
    simpa [hskb] using inv.freed
  · intro i hi
    have := inv.rest (i + 1) (by omega)
    rw [w.clean_kept hp (by omega) (by omega), show t + 1 + i = t + (i + 1) by omega]
    exact this
  · rw [show t + 1 + m = t + (m + 1) by omega]
    exact inv.frames.congr fun k hk hk' => by rw [w.clean_kept hp (by omega) (by omega)]

/-- A round on the first slot of a frame, which is freed: the rest of its slots remain. -/
theorem Reclaiming.clean_head (hp : IsPow2 c.dmaTxSize)
    (inv : Reclaiming c queued h s t 0 done (f :: pending)) (hg : txCleanGuard c s = true) :
    Reclaiming c queued h (txCleanBody c s) (t + 1) (f.slots.length - 1) (done ++ [f])
      pending := by
  have w := inv.window
  have hN := w.lt
  have hown : c.txOwned (s.ring (t % c.dmaTxSize.toNat)) = false := by
    rw [← w.entry_dirty hp]
    exact (txCleanGuard_iff.mp hg).2
  have hidle := inv.idle hown
  obtain ⟨hf, hrest⟩ : FrameAt c.dmaTxSize.toNat s.ring t f ∧
    FramesAt c.dmaTxSize.toNat s.ring (t + f.slots.length) pending h := inv.frames
  have hle := hrest.le
  have hpos := hf.pos
  refine ⟨w.clean hg, ?_, ?_, ?_, ?_, inv.atFrame.clean hp w hg⟩
  · rw [inv.split]
    simp
  · rw [w.frees_clean hp, hf.head]
    refine List.rel_append inv.freed (.cons ⟨rfl, fun i hi => ?_⟩ .nil)
    rw [hf.slots] at hi
    obtain ⟨k, hk, rfl⟩ := List.mem_map.mp hi
    exact hidle k (List.mem_range.mp hk)
  · intro i hi
    rw [w.clean_kept hp (by omega) (by omega), show t + 1 + i = t + (i + 1) by omega]
    exact ⟨hidle _ (by omega), hf.tail _ (by omega) (by omega)⟩
  · rw [show t + 1 + (f.slots.length - 1) = t + f.slots.length by omega]
    exact hrest.congr fun k hk hk' => by rw [w.clean_kept hp (by omega) (by omega)]

/-- One round of the reclaimer. -/
theorem Reclaiming.clean (hp : IsPow2 c.dmaTxSize)
    (inv : Reclaiming c queued h s t m done pending) (hg : txCleanGuard c s = true) :
    ∃ m' done' pending', Reclaiming c queued h (txCleanBody c s) (t + 1) m' done' pending' := by
  cases m with
  | succ m => exact ⟨m, done, pending, inv.clean_rest hp hg⟩
  | zero =>
    cases pending with
    | nil => exact absurd inv.frames (Nat.ne_of_lt (inv.window.lt_of_guard hg))
    | cons f pending => exact ⟨_, _, pending, inv.clean_head hp hg⟩

end Round

/-! ## Runs -/

/-- Between two calls no frame is partly reclaimed. -/
structure FrameInv (c : Conf) (s : FrameState) (t h : Nat) (done pending : List QueuedFrame) :
    Prop where
  window : TxWindow c s.tx t h
  split : s.queued = done ++ pending
  freed : List.Forall₂ FreedIdle done (frees s.tx.trace)
  frames : FramesAt c.dmaTxSize.toNat s.tx.ring t pending h

variable {f f' : FrameState} {a : TxAct} {done pending : List QueuedFrame}

theorem frameStep_xmit {skb : TxSkb} {dma : Nat → BitVec 32} :
    frameStep c f (.xmit skb dma) = some ⟨(stmmacXmit c f.tx skb dma).1,
      if XmitFits c f.tx skb then f.queued ++ [queuedFrame c f.tx skb] else f.queued⟩ := by
  by_cases hfit : XmitFits c f.tx skb
  · have hres := stmmacXmit_result dma hfit
    generalize hx : stmmacXmit c f.tx skb dma = x at hres ⊢
    obtain ⟨tx, res⟩ := x
    obtain rfl : res = .ok := hres
    simp [frameStep, hx, hfit]
  · simp [frameStep, stmmacXmit_busy hfit, hfit]

/-- An accepted frame is laid out at the end of the window. -/
theorem frameAt_xmit (hp : IsPow2 c.dmaTxSize) (w : TxWindow c s t h) {skb : TxSkb}
    {dma : Nat → BitVec 32} (hfit : XmitFits c s skb) :
    FrameAt c.dmaTxSize.toNat (stmmacXmit c s skb dma).1.ring h (queuedFrame c s skb) := by
  have hfill := stmmacXmit_filled dma hp w hfit
  have hid : ∀ i < skb.frags.length + 1,
      ((stmmacXmit c s skb dma).1.ring ((h + i) % c.dmaTxSize.toNat)).skbId =
        if i = 0 then some skb.id else none := by
    intro i hi
    rw [hfill.slot i hi]
    exact xmitSlot_skb i _
  have hlen : (queuedFrame c s skb).slots.length = skb.frags.length + 1 := by simp [queuedFrame]
  refine ⟨by omega, ?_, hid 0 (by omega), ?_⟩
  · rw [hlen]
    simp only [queuedFrame, w.cur, ← BitVec.ofNat_add, txEntry_ofNat hp]
  · intro i hi hi'
    rw [hid i (by omega), if_neg (by omega)]

theorem FrameInv.xmit (hp : IsPow2 c.dmaTxSize) (inv : FrameInv c f t h done pending)
    {skb : TxSkb} {dma : Nat → BitVec 32} (hs : frameStep c f (.xmit skb dma) = some f') :
    ∃ h' pending', FrameInv c f' t h' done pending' := by
  rw [frameStep_xmit] at hs
  obtain rfl := Option.some.inj hs
  have w := inv.window
  by_cases hfit : XmitFits c f.tx skb
  · have hfill := stmmacXmit_filled dma hp w hfit
    have hroom := hfit.room w
    have hlen : (queuedFrame c f.tx skb).slots.length = skb.frags.length + 1 := by
      simp [queuedFrame]
    refine ⟨h + (skb.frags.length + 1), pending ++ [queuedFrame c f.tx skb],
      hfill.window w hroom, ?_, ?_, ?_⟩
    · simp [hfit, inv.split]
    · rw [stmmacXmit_trace hp hfit w.cur, frees_append, frees_xmitCalls, List.append_nil]
      exact inv.freed
    · rw [← hlen]
      refine FramesAt.snoc (inv.frames.congr fun k hk hk' => ?_) (frameAt_xmit hp w hfit)
      rw [hfill.kept (t := t) (by omega) hk hk']
  · refine ⟨h, pending, ?_⟩
    simp only [stmmacXmit_refused hfit, hfit, if_false]
    exact ⟨w.congr rfl rfl, inv.split, inv.freed, inv.frames⟩

theorem FrameInv.clean (hp : IsPow2 c.dmaTxSize) (inv : FrameInv c f t h done pending)
    (hok : DmaAtFrame c f.tx) :
    ∃ t' done' pending',
      FrameInv c ⟨stmmacTxClean c f.tx, f.queued⟩ t' h done' pending' := by
  have hstart : Reclaiming c f.queued h f.tx t 0 done pending :=
    ⟨inv.window, inv.split, inv.freed, fun i hi => absurd hi (Nat.not_lt_zero i), inv.frames,
      hok.atFrame hp inv.window⟩
  have hloop : ∃ t' m done' pending',
      Reclaiming c f.queued h (stmmacTxClean c f.tx) t' m done' pending' := by
    refine stmmacTxClean_invariant
      (I := fun t s => ∃ m done pending, Reclaiming c f.queued h s t m done pending) ?_ ?_
      ⟨0, done, pending, hstart⟩
    · rintro t s s' ⟨m, d, p, r⟩ hsame
      exact ⟨m, d, p, r.congr hsame⟩
    · rintro t s ⟨m, d, p, r⟩ hg
      exact r.clean hp hg
  obtain ⟨t', m, done', pending', r⟩ := hloop
  -- the loop does not end inside a frame: it would go on with its next slot
  obtain rfl : m = 0 := by
    by_contra hm
    have hle := r.frames.le
    have hexit : txCleanGuard c (stmmacTxClean c f.tx) = false := stmmacTxClean_exit
    have hgo : txCleanGuard c (stmmacTxClean c f.tx) = true := by
      refine txCleanGuard_iff.mpr ⟨fun he => ?_, ?_⟩
      · have := r.window.dirty_eq_cur_iff.mp he
        omega
      · rw [r.window.entry_dirty hp]
        exact (r.rest 0 (Nat.pos_of_ne_zero hm)).1
    rw [hexit] at hgo
    cases hgo
  exact ⟨t', done', pending', r.window, r.split, r.freed, r.frames⟩

theorem FrameInv.step (hp : IsPow2 c.dmaTxSize) (inv : FrameInv c f t h done pending)
    (hok : CleanAtFrame c f a) (hs : frameStep c f a = some f') :
    ∃ t' h' done' pending', FrameInv c f' t' h' done' pending' := by
  cases a with
  | xmit skb dma =>
    obtain ⟨h', pending', inv'⟩ := inv.xmit hp hs
    exact ⟨t, h', done, pending', inv'⟩
  | txClean =>
    obtain rfl := Option.some.inj hs
    obtain ⟨t', done', pending', inv'⟩ := inv.clean hp hok
    exact ⟨t', h, done', pending', inv'⟩
  | complete entry desc =>
    obtain ⟨tx, htx, rfl⟩ := Option.map_eq_some_iff.mp hs
    obtain ⟨_, _, rfl⟩ := txComplete_eq htx
    refine ⟨t, h, done, pending, inv.window.congr rfl rfl, inv.split, inv.freed,
      inv.frames.congr fun k _ _ => ?_⟩
    by_cases hk : k % c.dmaTxSize.toNat = entry
    · subst hk; simp [TxSlot.skbId]
    · simp [hk]
  | rtl8211Xmit length addr => cases hs
  | txErr => cases hs

/-- In every run in which `stmmac_tx_clean` finds the DMA between two frames, the accepted frames
are freed once each, in order, while the DMA owns none of their descriptors; those not yet freed
are still in the ring. -/
theorem frames_freed_idle {as : List TxAct} (hp : IsPow2 c.dmaTxSize)
    (hempty : f.tx.curTx = f.tx.dirtyTx) (hqueued : f.queued = [])
    (htrace : frees f.tx.trace = []) (run : Run (frameStep c) (CleanAtFrame c) f as f') :
    ∃ done pending, f'.queued = done ++ pending ∧
      List.Forall₂ FreedIdle done (frees f'.tx.trace) ∧
      (∀ q ∈ pending, ∃ i ∈ q.slots, (f'.tx.ring i).skbId = some q.id) ∧
      (f'.tx.dirtyTx = f'.tx.curTx → pending = []) := by
  have w : TxWindow c f.tx f.tx.curTx.toNat f.tx.curTx.toNat := .of_eq hp hempty
  have hinit : ∃ t h done pending, FrameInv c f t h done pending :=
    ⟨_, _, [], [], w, by simp [hqueued], by simp [htrace], rfl⟩
  obtain ⟨t, h, done, pending, inv⟩ := run.invariant
    (I := fun f => ∃ t h done pending, FrameInv c f t h done pending)
    (fun ⟨_, _, _, _, inv⟩ hok hs => inv.step hp hok hs) hinit
  refine ⟨done, pending, inv.split, inv.freed, fun q hq => inv.frames.head_mem hq, fun he => ?_⟩
  have hth := inv.window.dirty_eq_cur_iff.mp he
  cases pending with
  | nil => rfl
  | cons q pending =>
    have hle := inv.frames.2.le
    have hpos := inv.frames.1.pos
    omega

theorem frames_freed_idle_one_frame :
    ∃ f, Run (frameStep (.normal 64)) (CleanAtFrame (.normal 64)) ⟨.idle (.normal 64), []⟩
        [.xmit (.plain 7 60 [100]) fun i => 4096 + BitVec.ofNat 32 i,
          .complete 0 ⟨⟨0, 0⟩, 4096, 0⟩, .complete 1 ⟨⟨0, 0⟩, 4097, 0⟩, .txClean] f ∧
      ∃ done pending, f.queued = done ++ pending ∧
        List.Forall₂ FreedIdle done (frees f.tx.trace) ∧
        (∀ q ∈ pending, ∃ i ∈ q.slots, (f.tx.ring i).skbId = some q.id) ∧
        (f.tx.dirtyTx = f.tx.curTx → pending = []) :=
  exec_exists (by decide) fun _ run => frames_freed_idle ⟨6, rfl⟩ rfl rfl rfl run

/-- The DMA has sent the linear part of a frame and not its fragment: `stmmac_tx_clean` frees the
skb while the descriptor of the fragment is owned. -/
theorem frame_freed_early :
    ∃ f, Run (frameStep (.normal 64)) (fun _ _ => True) ⟨.idle (.normal 64), []⟩
        [.xmit (.plain 7 60 [100]) fun i => 4096 + BitVec.ofNat 32 i,
          .complete 0 ⟨⟨0, 0⟩, 4096, 0⟩, .txClean] f ∧
      ∃ q ∈ f.queued, ∃ e ∈ frees f.tx.trace, e.1 = q.id ∧ ∃ i ∈ q.slots, e.2 i = true :=
  exec_reaches (by decide)

end Stmmac
