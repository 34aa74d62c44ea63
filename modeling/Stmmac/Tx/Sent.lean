import Stmmac.Tx.Delimiters

/-!
# Transmit side: frames queued and descriptors reclaimed

The descriptors taken by the two transmit paths and those reclaimed by `stmmac_tx_clean` are
counted from the start of the run. A frame is recorded with the counter of its last descriptor;
every reclaimed slot is recorded as the reclaimer found it. In a ring whose size is a power of two
a descriptor carries `last_segment` exactly when it is the last one of a frame that is still in
the ring.
-/

namespace Stmmac

open Library

/-- A queued frame, one of `rtl8211_xmit` having no skb, and the counter of its last
descriptor. -/
structure SentFrame where
  skb : Option TxSkb
  last : Nat
  deriving DecidableEq

structure SentState where
  tx : TxState
  frames : List SentFrame
  /-- How many descriptors were taken. -/
  queued : Nat
  /-- The slots reclaimed, as they were found. -/
  reclaimed : List TxSlot

/-- `priv->xstats.tx_clean++`. -/
def TxState.countClean (s : TxState) : TxState :=
  { s with stats := { s.stats with
    xstats := { s.stats.xstats with txClean := s.stats.xstats.txClean + 1 } } }

/-- The slots that `stmmac_tx_clean` reclaims. -/
def txCleanLog (c : Conf) (s : TxState) : List TxSlot :=
  iterateLog (txCleanGuard c) (txCleanBody c) (fun s => [s.ring (c.txEntry s.dirtyTx)])
    s.countClean.inFlight s.countClean

def SentState.txClean (c : Conf) (s : SentState) : SentState :=
  { s with tx := stmmacTxClean c s.tx, reclaimed := s.reclaimed ++ txCleanLog c s.tx }

/-- The transmit side without error recovery, remembering what was queued and reclaimed. -/
def sentStep (c : Conf) (s : SentState) : TxAct → Option SentState
  | .xmit skb dma =>
    match stmmacXmit c s.tx skb dma with
    | (tx, .ok) => some
        { s with
          tx := tx
          frames := s.frames ++ [⟨some skb, s.queued + skb.frags.length⟩]
          queued := s.queued + (skb.frags.length + 1) }
    | (tx, .busy) => some { s with tx := tx }
  | .rtl8211Xmit length addr => some
      { s with
        tx := (rtl8211Xmit c s.tx length addr).1
        frames := s.frames ++ [⟨none, s.queued⟩]
        queued := s.queued + 1 }
  | .txClean => some (s.txClean c)
  | .complete entry desc => (txComplete c s.tx entry desc).map fun tx => { s with tx := tx }
  | .txErr => none

def SentState.start (c : Conf) : SentState := ⟨.idle c, [], 0, []⟩

/-- `rtl8211_xmit` finds a free slot, and a completed descriptor keeps the control word that the
driver wrote. -/
def SentOk (c : Conf) (s : SentState) : TxAct → Prop
  | .rtl8211Xmit _ _ => 1 ≤ (stmmacTxAvail c s.tx).toNat
  | .complete entry desc => desc.des01.des1 = (s.tx.ring entry).desc.des01.des1
  | .xmit _ _ | .txClean | .txErr => True

instance (c : Conf) (s : SentState) : ∀ a, Decidable (SentOk c s a)
  | .rtl8211Xmit _ _ => inferInstanceAs (Decidable (_ ≤ _))
  | .complete _ _ => inferInstanceAs (Decidable (_ = _))
  | .xmit _ _ | .txClean | .txErr => inferInstanceAs (Decidable True)

variable {c : Conf} {s s' : SentState} {a : TxAct} {t h : Nat}

theorem sentStep_xmit {skb : TxSkb} {dma : Nat → BitVec 32} (hfit : XmitFits c s.tx skb) :
    sentStep c s (.xmit skb dma) = some
      { s with
        tx := (stmmacXmit c s.tx skb dma).1
        frames := s.frames ++ [⟨some skb, s.queued + skb.frags.length⟩]
        queued := s.queued + (skb.frags.length + 1) } := by
  have hres := stmmacXmit_result dma hfit
  generalize hx : stmmacXmit c s.tx skb dma = x at hres ⊢
  obtain ⟨tx, res⟩ := x
  obtain rfl : res = .ok := hres
  simp [sentStep, hx]

theorem sentStep_refused {skb : TxSkb} {dma : Nat → BitVec 32} (hfit : ¬ XmitFits c s.tx skb) :
    sentStep c s (.xmit skb dma) = some { s with tx := { s.tx with queueStopped := true } } := by
  simp [sentStep, stmmacXmit_busy hfit]

/-! ## Reclaiming -/

/-- One round of `stmmac_tx_clean`. -/
def SentState.round (c : Conf) (s : SentState) : SentState :=
  { s with
    tx := txCleanBody c s.tx
    reclaimed := s.reclaimed ++ [s.tx.ring (c.txEntry s.tx.dirtyTx)] }

/-- The counters of sent and failed frames. -/
def Stats.txCounts (s : Stats) : Nat × Nat × Nat :=
  (s.dev.txPackets, s.dev.txErrors, s.xstats.txPktN)

/-- Neither the ring nor the counters of frames changed. -/
structure SameSent (s s' : TxState) : Prop extends SameRing s s' where
  counts : s'.stats.txCounts = s.stats.txCounts

theorem txCleanTail_stats {s : TxState} : (txCleanTail c s).stats = s.stats := by
  unfold txCleanTail stmmacEnableEeeMode
  dsimp only
  split_ifs <;> rfl

/-- What every round keeps, `stmmac_tx_clean` keeps. -/
theorem SentState.clean_invariant {I : SentState → Prop}
    (hsame : ∀ {s : SentState} {tx : TxState}, I s → SameSent s.tx tx → I { s with tx := tx })
    (hround : ∀ {s : SentState}, I s → txCleanGuard c s.tx = true → I (s.round c)) (hs : I s) :
    I (s.txClean c) := by
  have hstart : I { s with tx := s.tx.countClean } := hsame hs ⟨⟨rfl, rfl, rfl, .inl rfl⟩, rfl⟩
  have hloop : I { s with
      tx := iterate (txCleanGuard c) (txCleanBody c) s.tx.countClean.inFlight s.tx.countClean
      reclaimed := s.reclaimed ++ txCleanLog c s.tx } :=
    iterateLog_invariant (I := fun tx reclaimed => I { s with tx := tx, reclaimed := reclaimed })
      (fun hi hg => hround hi hg) hstart
  exact hsame hloop
    ⟨⟨txCleanTail_ring, txCleanTail_dirtyTx, txCleanTail_curTx, txCleanTail_trace⟩,
      congrArg Stats.txCounts txCleanTail_stats⟩

/-! ## The slots of a frame -/

/-- The skb as the slot refers to it after a time stamp was requested. -/
def Conf.stampedSkb (c : Conf) (skb : TxSkb) : TxSkb :=
  if skb.hwTstamp && c.hwtsTxEn then { skb with inProgress := true } else skb

/-- The skb in the slot of the last descriptor: it is there only if that is the first one too. -/
def SentFrame.lastSkb (c : Conf) (f : SentFrame) : Option TxSkb :=
  f.skb.bind fun skb => if skb.frags = [] then some (c.stampedSkb skb) else none

section Slots

variable {skb : TxSkb} {dma : Nat → BitVec 32} {tx : TxState}

theorem firstSlot_skb (p : TxSlot) (hp : p.skb = some skb) :
    (c.firstSlot skb p).skb = some (c.stampedSkb skb) := by
  unfold Conf.firstSlot Conf.stampSlot Conf.stampedSkb
  split
  · rfl
  · exact hp

theorem xmitSlot_skb_zero (p : TxSlot) :
    (c.xmitSlot tx skb dma 0 p).skb = some (c.stampedSkb skb) := by
  have hseg : (c.segSlot skb dma 0 p).skb = some skb := rfl
  simp only [Conf.xmitSlot, ↓reduceIte]
  split
  · exact firstSlot_skb _ ((closeSlot_skb _ _).trans hseg)
  · exact firstSlot_skb _ hseg

theorem xmitSlot_skb_succ (i : Nat) (p : TxSlot) :
    (c.xmitSlot tx skb dma (i + 1) p).skb = none := by
  have hid : (c.xmitSlot tx skb dma (i + 1) p).skb.map TxSkb.id = none := xmitSlot_skb (i + 1) p
  simpa using hid

variable (hd : c.desc = ndescOps)

include hd in
theorem prepareSlot_last (isFs : Bool) (len addr : BitVec 32) (csum : Bool) (p : TxSlot) :
    c.desc.getTxLs (c.prepareSlot isFs len addr csum p).desc.des01 =
      c.desc.getTxLs p.desc.des01 := by
  simp only [Conf.prepareSlot, hd, ndescOps, ndescGetTxLs, ndescPrepareTxDesc,
    normSetTxDescLenOnRing, normSetTxDescLenOnChain]
  cases c.mode <;> cases csum <;> dsimp only <;> split_ifs <;>
    simp (disch := decide) only [Des01.test_set_of_disjoint]

include hd in
theorem closeSlot_last (n : BitVec 32) (p : TxSlot) :
    c.desc.getTxLs (c.closeSlot tx n p).desc.des01 = true := by
  have hbits := (closeSlot_bits (s := tx) hd n p).2.1
  simpa [hd, ndescOps, ndescGetTxLs] using hbits

include hd in
theorem segSlot_last (i : Nat) (p : TxSlot) :
    c.desc.getTxLs (c.segSlot skb dma i p).desc.des01 = c.desc.getTxLs p.desc.des01 := by
  cases i with
  | zero => exact prepareSlot_last hd _ _ _ _ _
  | succ i =>
    have hown : ∀ q : Des01, c.desc.getTxLs (c.desc.setTxOwner q) = c.desc.getTxLs q := by
      intro q
      simp (disch := decide) [hd, ndescOps, ndescGetTxLs, ndescSetTxOwner]
    simp only [Conf.segSlot, Conf.fragSlot, TxSlot.mapDes_des01, hown]
    exact prepareSlot_last hd _ _ _ _ _

include hd in
/-- Only the last slot of a frame becomes one. -/
theorem xmitSlot_last (i : Nat) (p : TxSlot) :
    c.desc.getTxLs (c.xmitSlot tx skb dma i p).desc.des01 =
      (decide (i = skb.frags.length) || c.desc.getTxLs p.desc.des01) := by
  have hfirst : ∀ q, c.desc.getTxLs (c.firstSlot skb q).desc.des01 =
      c.desc.getTxLs q.desc.des01 := by
    intro q
    have hbits := (firstSlot_bits hd skb q).2.1
    simpa [hd, ndescOps, ndescGetTxLs] using hbits
  unfold Conf.xmitSlot
  dsimp only
  split_ifs with hzero hlast hlast
  all_goals simp [hlast, hfirst, closeSlot_last hd, segSlot_last hd]

include hd in
theorem rtl8211Slot_last (length addr : BitVec 32) (p : TxSlot) :
    c.desc.getTxLs (c.rtl8211Slot tx length addr p).desc.des01 = true := by
  have hclose : c.desc.getTxLs
      (c.closeSlot tx 1 (c.prepareSlot true length addr false p)).desc.des01 = true :=
    closeSlot_last hd 1 _
  simp only [hd, ndescOps, ndescGetTxLs, Conf.rtl8211Slot, TxSlot.mapDes_des01,
    ndescSetTxOwner] at hclose ⊢
  simpa (disch := decide) using hclose

theorem rtl8211Slot_skb (length addr : BitVec 32) (p : TxSlot) :
    (c.rtl8211Slot tx length addr p).skb = p.skb := by
  simp [Conf.rtl8211Slot, Conf.prepareSlot]

end Slots

/-! ## Frames along the window -/

/-- A slot without a frame. -/
structure Vacant (c : Conf) (p : TxSlot) : Prop where
  last : c.desc.getTxLs p.desc.des01 = false
  skb : p.skb = none

/-- The slot of the last descriptor of `f`. -/
structure LastSlot (c : Conf) (f : SentFrame) (p : TxSlot) : Prop where
  last : c.desc.getTxLs p.desc.des01 = true
  skb : p.skb = f.lastSkb c

theorem idle_vacant (hd : c.desc = ndescOps) (i : Nat) : Vacant c ((TxState.idle c).ring i) := by
  refine ⟨?_, rfl⟩
  simp only [TxState.idle, hd, ndescOps, ndescGetTxLs, ndescInitTxDesc, ndescTxSetOnRing,
    ndescTxSetOnChain]
  cases c.mode <;> cases (i == c.dmaTxSize.toNat - 1) <;> simp (disch := decide)

/-- Two slots with the same marker and the same skb. -/
structure SameMark (c : Conf) (p q : TxSlot) : Prop where
  last : c.desc.getTxLs q.desc.des01 = c.desc.getTxLs p.desc.des01
  skb : q.skb = p.skb

/-- From counter `t` to `h` the last descriptors are those of the frames `fs`, in order. -/
def SentAt (c : Conf) (r : Nat → TxSlot) : Nat → List SentFrame → Nat → Prop
  | t, [], h => t = h
  | t, f :: fs, h =>
    t ≤ f.last ∧
      (∀ k, t ≤ k → k < f.last →
        c.desc.getTxLs (r (k % c.dmaTxSize.toNat)).desc.des01 = false) ∧
      LastSlot c f (r (f.last % c.dmaTxSize.toNat)) ∧ SentAt c r (f.last + 1) fs h

section SentAt

variable {r r' : Nat → TxSlot} {f : SentFrame} {fs : List SentFrame}

theorem SentAt.le (hs : SentAt c r t fs h) : t ≤ h := by
  induction fs generalizing t with
  | nil => exact Nat.le_of_eq hs
  | cons f fs ih =>
    obtain ⟨hle, -, -, hrest⟩ := hs
    have := ih hrest
    omega

theorem SentAt.le_last (hs : SentAt c r t fs h) : ∀ f ∈ fs, t ≤ f.last := by
  induction fs generalizing t with
  | nil => exact fun f hf => absurd hf List.not_mem_nil
  | cons g fs ih =>
    intro f hf
    obtain ⟨hle, -, -, hrest⟩ := hs
    rcases List.mem_cons.mp hf with rfl | hf
    · exact hle
    · have := ih hrest f hf
      omega

theorem SentAt.congr (hs : SentAt c r t fs h)
    (hview : ∀ k, t ≤ k → k < h →
      SameMark c (r (k % c.dmaTxSize.toNat)) (r' (k % c.dmaTxSize.toNat))) :
    SentAt c r' t fs h := by
  induction fs generalizing t with
  | nil => exact hs
  | cons f fs ih =>
    obtain ⟨hle, hplain, hlast, hrest⟩ := hs
    have hlt := hrest.le
    refine ⟨hle, fun k hk hk' => ?_, ?_, ih hrest fun k hk hk' => hview k (by omega) hk'⟩
    · rw [(hview k hk (by omega)).last]
      exact hplain k hk hk'
    · have hv := hview f.last hle hlt
      exact ⟨hv.last.trans hlast.last, hv.skb.trans hlast.skb⟩

/-- A frame is queued behind the others. -/
theorem SentAt.snoc (hs : SentAt c r t fs h) (hle : h ≤ f.last)
    (hplain : ∀ k, h ≤ k → k < f.last →
      c.desc.getTxLs (r (k % c.dmaTxSize.toNat)).desc.des01 = false)
    (hlast : LastSlot c f (r (f.last % c.dmaTxSize.toNat))) :
    SentAt c r t (fs ++ [f]) (f.last + 1) := by
  induction fs generalizing t with
  | nil =>
    obtain rfl : t = h := hs
    exact ⟨hle, hplain, hlast, rfl⟩
  | cons g fs ih =>
    obtain ⟨hg, hplain', hlast', hrest⟩ := hs
    exact ⟨hg, hplain', hlast', ih hrest⟩

end SentAt

/-! ## The invariant -/

/-- The last descriptors of the frames `done` are reclaimed, those of `pending` are in the
window. -/
structure SentInv (c : Conf) (s : SentState) (done pending : List SentFrame) : Prop where
  window : TxWindow c s.tx s.reclaimed.length s.queued
  split : s.frames = done ++ pending
  past : ∀ f ∈ done, f.last < s.reclaimed.length
  pending : SentAt c s.tx.ring s.reclaimed.length pending s.queued
  free : FreeSlots c s.tx s.reclaimed.length s.queued (Vacant c)

namespace SentInv

variable {done pending : List SentFrame} {tx : TxState}

theorem congr (inv : SentInv c s done pending) (hsame : SameRing s.tx tx) :
    SentInv c { s with tx := tx } done pending := by
  refine ⟨inv.window.congr hsame.dirtyTx hsame.curTx, inv.split, inv.past, ?_, ?_⟩
  · rw [hsame.ring]
    exact inv.pending
  · intro k hk hk'
    rw [hsame.ring]
    exact inv.free k hk hk'

/-- A frame fills the slots of the counters from `queued` up to its last one. -/
theorem filled {n : Nat} {fill : Nat → TxSlot → TxSlot} {f : SentFrame}
    (inv : SentInv c s done pending) (hfill : TxFilled c s.tx tx s.queued (n + 1) fill)
    (hroom : s.queued + (n + 1) < s.reclaimed.length + c.dmaTxSize.toNat)
    (hlast : f.last = s.queued + n)
    (hplain : ∀ i < n, ∀ p, Vacant c p → c.desc.getTxLs (fill i p).desc.des01 = false)
    (hend : ∀ p, Vacant c p → LastSlot c f (fill n p)) :
    SentInv c { s with tx := tx, frames := s.frames ++ [f], queued := s.queued + (n + 1) } done
      (pending ++ [f]) := by
  have w := inv.window
  have hle := w.le
  have hslot : ∀ i < n + 1, ∃ p, Vacant c p ∧
      tx.ring ((s.queued + i) % c.dmaTxSize.toNat) = fill i p := fun i hi =>
    ⟨_, inv.free (s.queued + i) (by omega) (by omega), hfill.slot i hi⟩
  refine ⟨hfill.window w hroom, by simp [inv.split], inv.past, ?_, inv.free.filled w hfill hroom⟩
  show SentAt c tx.ring _ _ (s.queued + n + 1)
  rw [← hlast]
  apply SentAt.snoc (h := s.queued)
  · refine inv.pending.congr fun k hk hk' => ?_
    rw [hfill.kept (t := s.reclaimed.length) (by omega) hk hk']
    exact ⟨rfl, rfl⟩
  · omega
  · intro k hk hk'
    obtain ⟨p, hp, hfilled⟩ := hslot (k - s.queued) (by omega)
    rw [show s.queued + (k - s.queued) = k by omega] at hfilled
    rw [hfilled]
    exact hplain _ (by omega) p hp
  · obtain ⟨p, hp, hfilled⟩ := hslot n (Nat.lt_succ_self n)
    rw [hlast, hfilled]
    exact hend p hp

section

variable (hd : c.desc = ndescOps)

include hd in
theorem xmit (hp : IsPow2 c.dmaTxSize) (inv : SentInv c s done pending) {skb : TxSkb}
    {dma : Nat → BitVec 32} (hfit : XmitFits c s.tx skb) :
    SentInv c
      { s with
        tx := (stmmacXmit c s.tx skb dma).1
        frames := s.frames ++ [⟨some skb, s.queued + skb.frags.length⟩]
        queued := s.queued + (skb.frags.length + 1) }
      done (pending ++ [⟨some skb, s.queued + skb.frags.length⟩]) := by
  have hfill := stmmacXmit_filled dma hp inv.window hfit
  refine inv.filled hfill (hfit.room inv.window) rfl (fun i hi p hv => ?_) fun p hv => ⟨?_, ?_⟩
  · rw [xmitSlot_last hd, hv.last]
    simpa using Nat.ne_of_lt hi
  · rw [xmitSlot_last hd]
    simp
  · cases hfrags : skb.frags with
    | nil => simpa [SentFrame.lastSkb, hfrags] using xmitSlot_skb_zero p
    | cons frag frags => simpa [SentFrame.lastSkb, hfrags] using xmitSlot_skb_succ _ p

include hd in
theorem rtl8211 (hp : IsPow2 c.dmaTxSize) (inv : SentInv c s done pending)
    {length addr : BitVec 32} (hroom : 1 ≤ (stmmacTxAvail c s.tx).toNat) :
    SentInv c
      { s with
        tx := (rtl8211Xmit c s.tx length addr).1
        frames := s.frames ++ [⟨none, s.queued⟩]
        queued := s.queued + 1 }
      done (pending ++ [⟨none, s.queued⟩]) := by
  refine inv.filled (rtl8211Xmit_filled hp inv.window.cur) (rtl8211_room inv.window hroom) rfl
    (fun i hi => absurd hi (Nat.not_lt_zero i)) fun p hv => ⟨rtl8211Slot_last hd _ _ _, ?_⟩
  exact (rtl8211Slot_skb _ _ _).trans hv.skb

include hd in
theorem complete (inv : SentInv c s done pending) {entry : Nat} {desc : DmaDesc}
    (hkeep : desc.des01.des1 = (s.tx.ring entry).desc.des01.des1)
    (hs : txComplete c s.tx entry desc = some tx) :
    SentInv c { s with tx := tx } done pending := by
  obtain ⟨-, -, rfl⟩ := txComplete_eq hs
  have hview : ∀ j, SameMark c (s.tx.ring j)
      ((s.tx.modify entry ({ · with desc := desc })).ring j) := by
    intro j
    by_cases hj : j = entry
    · subst hj
      refine ⟨?_, by simp⟩
      simp [hd, ndescOps, ndescGetTxLs, Des01.test, Des01.get, Des01.word, hkeep]
    · simp only [TxState.modify_ring, Function.update_of_ne hj]
      exact ⟨rfl, rfl⟩
  refine ⟨inv.window.congr rfl rfl, inv.split, inv.past, inv.pending.congr fun k _ _ => hview _,
    fun k hk hk' => ?_⟩
  have hv := inv.free k hk hk'
  exact ⟨(hview _).last.trans hv.last, (hview _).skb.trans hv.skb⟩

include hd in
/-- What a round does to the window, whatever it reclaims. -/
theorem round_window (hp : IsPow2 c.dmaTxSize) (inv : SentInv c s done pending)
    (hg : txCleanGuard c s.tx = true) :
    TxWindow c (s.round c).tx (s.round c).reclaimed.length s.queued ∧
      (∀ {fs}, SentAt c s.tx.ring (s.reclaimed.length + 1) fs s.queued →
        SentAt c (s.round c).tx.ring (s.round c).reclaimed.length fs s.queued) ∧
      FreeSlots c (s.round c).tx (s.round c).reclaimed.length s.queued (Vacant c) := by
  have w := inv.window
  have hN := w.lt
  have hlen : (s.round c).reclaimed.length = s.reclaimed.length + 1 := by simp [SentState.round]
  rw [hlen]
  refine ⟨w.clean hg, fun hs => hs.congr fun k hk hk' => ?_, inv.free.clean hp w hg fun p => ?_⟩
  · rw [show (s.round c).tx = txCleanBody c s.tx from rfl, w.clean_kept hp (by omega) (by omega)]
    exact ⟨rfl, rfl⟩
  · have hclear := (reclaimSlot_clear hd p).1
    exact ⟨by simpa [hd, ndescOps, ndescGetTxLs] using hclear, rfl⟩

include hd in
/-- A round reclaims the last descriptor of the oldest frame, or a descriptor that is not the last
of any. -/
theorem round (hp : IsPow2 c.dmaTxSize) (inv : SentInv c s done pending)
    (hg : txCleanGuard c s.tx = true) :
    (∃ f fs, pending = f :: fs ∧ f.last = s.reclaimed.length ∧
        LastSlot c f (s.tx.ring (c.txEntry s.tx.dirtyTx)) ∧
        SentInv c (s.round c) (done ++ [f]) fs) ∨
      (c.desc.getTxLs (s.tx.ring (c.txEntry s.tx.dirtyTx)).desc.des01 = false ∧
        SentInv c (s.round c) done pending) := by
  have w := inv.window
  have hlt := w.lt_of_guard hg
  have hlen : (s.round c).reclaimed.length = s.reclaimed.length + 1 := by simp [SentState.round]
  obtain ⟨hw, hkept, hfree⟩ := inv.round_window hd hp hg
  rw [w.entry_dirty hp]
  cases pending with
  | nil => exact absurd inv.pending (Nat.ne_of_lt hlt)
  | cons f fs =>
    obtain ⟨hle, hplain, hlast, hrest⟩ := inv.pending
    rcases Nat.eq_or_lt_of_le hle with he | hbefore
    · refine .inl ⟨f, fs, rfl, he.symm, he ▸ hlast, hw, ?_, fun g hmem => ?_, hkept (he ▸ hrest),
        hfree⟩
      · exact inv.split.trans (by simp)
      · rw [hlen]
        rcases List.mem_append.mp hmem with hmem | hmem
        · exact Nat.lt_succ_of_lt (inv.past g hmem)
        · rw [List.mem_singleton.mp hmem, ← he]
          exact Nat.lt_succ_self _
    · refine .inr ⟨hplain _ (Nat.le_refl _) hbefore, hw, inv.split, fun g hmem => ?_,
        hkept ⟨hbefore, fun k hk hk' => hplain k (by omega) hk', hlast, hrest⟩, hfree⟩
      rw [hlen]
      exact Nat.lt_succ_of_lt (inv.past g hmem)

include hd in
/-- A ring in zeroed memory. -/
theorem start (hp : IsPow2 c.dmaTxSize) : SentInv c (.start c) [] [] := by
  refine ⟨.of_eq hp rfl, rfl, fun f hf => absurd hf List.not_mem_nil, rfl, .of_forall hp ?_⟩
  exact fun i _ => idle_vacant hd i

end

end SentInv

end Stmmac
