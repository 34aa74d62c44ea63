import Stmmac.Tx.Clean
import Stmmac.Tx.Window

/-!
# Transmit side: what reclaiming writes

A round of `stmmac_tx_clean` rewrites the slot of `dirty_tx` as `reclaimSlot` says and moves
`dirty_tx` past it; the call is a sequence of such rounds. `stmmac_tx_err` rewrites every slot and
sets both counters to 0.
-/

namespace Stmmac

open Library

variable {c : Conf} {s : TxState} {t h : Nat}

/-! ## One round of `stmmac_tx_clean` -/

def Conf.reclaimSlot (c : Conf) (p : TxSlot) : TxSlot where
  desc :=
    { des01 := c.desc.releaseTxDesc p.desc.des01 c.mode
      des2 := p.desc.des2
      des3 := c.ring.cleanDesc3 p.desc }
  skb := none
  dma := 0

/-- The calls for the time stamp of a last segment. -/
def Conf.hwtstampCalls (c : Conf) (p : TxSlot) : List TxCall :=
  if c.hwtsTxEn then
    match p.skb with
    | none => [.nullDeref]
    | some skb =>
      if !skb.inProgress then []
      else if !c.stampRing then [.nullDeref]
      else if c.desc.getTxTimestampStatus p.desc.des01 then
        [.skbTstampTx skb.id (c.desc.getTimestamp p.desc c.advTs)]
      else []
  else []

def Conf.unmapCalls (c : Conf) (p : TxSlot) : List TxCall :=
  if p.dma ≠ 0 then [.dmaUnmapSingle p.dma (c.desc.getTxLen p.desc.des01)] else []

/-- The free of a slot's skb, with the ownership bits of the ring `r`. -/
def Conf.freeCalls (c : Conf) (r : Nat → TxSlot) (p : TxSlot) : List TxCall :=
  match p.skb with
  | none => []
  | some skb => [.devKfreeSkb skb.id fun i => c.txOwned (r i)]

/-- The calls of one round. -/
def Conf.reclaimCalls (c : Conf) (r : Nat → TxSlot) (p : TxSlot) : List TxCall :=
  (if c.desc.getTxLs p.desc.des01 then c.hwtstampCalls p else []) ++ c.unmapCalls p ++
    c.freeCalls r p

theorem stmmacGetTxHwtstamp_eq (p : TxSlot) :
    stmmacGetTxHwtstamp c s p = { s with trace := s.trace ++ c.hwtstampCalls p } := by
  unfold stmmacGetTxHwtstamp Conf.hwtstampCalls
  cases c.hwtsTxEn <;> cases p.skb
  · simp
  · simp
  · simp [TxState.call]
  · simp only [Bool.not_true, Bool.false_eq_true, ↓reduceIte]
    split_ifs <;> simp_all [TxState.call]

/-- Writes that leave the union `des01` alone leave every ownership bit alone. -/
theorem txOwned_update {r : Nat → TxSlot} {entry : Nat} {p : TxSlot}
    (hp : p.desc.des01 = (r entry).desc.des01) (i : Nat) :
    c.txOwned (Function.update r entry p i) = c.txOwned (r i) := by
  by_cases hi : i = entry
  · subst hi; simp [Conf.txOwned, hp]
  · simp [hi]

theorem txCleanBody_eq :
    let entry := c.txEntry s.dirtyTx
    let p := s.ring entry
    txCleanBody c s =
      { s with
        ring := Function.update s.ring entry (c.reclaimSlot p)
        dirtyTx := s.dirtyTx + 1
        stats := if c.desc.getTxLs p.desc.des01 then txLastStats c s.stats p else s.stats
        trace := s.trace ++ c.reclaimCalls s.ring p } := by
  generalize hp : s.ring (c.txEntry s.dirtyTx) = p
  obtain ⟨desc, skb, dma⟩ := p
  simp only [txCleanBody, hp, stmmacGetTxHwtstamp_eq]
  cases hl : c.desc.getTxLs desc.des01 <;> cases skb <;> by_cases hd : dma = 0#32
  all_goals simp [TxState.modify, TxState.call, hd, hp, hl, TxSlot.mapDes, txOwned_update,
    Conf.reclaimCalls, Conf.reclaimSlot, Conf.unmapCalls, Conf.freeCalls]

theorem reclaimSlot_owned (ops : c.desc.Lawful) (p : TxSlot) :
    c.txOwned (c.reclaimSlot p) = false :=
  ops.txOwner_release _ _

theorem txCleanBody_ring :
    (txCleanBody c s).ring =
      Function.update s.ring (c.txEntry s.dirtyTx)
        (c.reclaimSlot (s.ring (c.txEntry s.dirtyTx))) := by
  rw [txCleanBody_eq]

theorem txCleanBody_curTx : (txCleanBody c s).curTx = s.curTx := by
  rw [txCleanBody_eq]

theorem txCleanBody_dirtyTx : (txCleanBody c s).dirtyTx = s.dirtyTx + 1 := by
  rw [txCleanBody_eq]

theorem txCleanBody_trace :
    (txCleanBody c s).trace = s.trace ++ c.reclaimCalls s.ring (s.ring (c.txEntry s.dirtyTx)) := by
  rw [txCleanBody_eq]

theorem txCleanGuard_iff :
    txCleanGuard c s = true ↔
      s.dirtyTx ≠ s.curTx ∧ c.txOwned (s.ring (c.txEntry s.dirtyTx)) = false := by
  simp [txCleanGuard]

/-- A round starts with something in flight. -/
theorem TxWindow.lt_of_guard (w : TxWindow c s t h) (hg : txCleanGuard c s = true) : t < h := by
  have hne : t ≠ h := fun he => (txCleanGuard_iff.mp hg).1 (w.dirty_eq_cur_iff.mpr he)
  exact Nat.lt_of_le_of_ne w.le hne

/-- A round reclaims one slot of the window. -/
theorem TxWindow.clean (w : TxWindow c s t h) (hg : txCleanGuard c s = true) :
    TxWindow c (txCleanBody c s) (t + 1) h where
  dirty := by rw [txCleanBody_dirtyTx, w.dirty, Ring.ofNat_succ]
  cur := txCleanBody_curTx.trans w.cur
  le := w.lt_of_guard hg
  lt := by have := w.lt; omega

/-- The rest of the window keeps its slots. -/
theorem TxWindow.clean_kept (hp : IsPow2 c.dmaTxSize) (w : TxWindow c s t h) {k : Nat}
    (hk : t < k) (hk' : k < t + c.dmaTxSize.toNat) :
    (txCleanBody c s).ring (k % c.dmaTxSize.toNat) = s.ring (k % c.dmaTxSize.toNat) := by
  have hpos := hp.pos
  rw [txCleanBody_ring, w.entry_dirty hp]
  apply Function.update_of_ne
  exact Ring.mod_ne_of_window t (by omega)

/-! ## The whole call -/

section Tail

@[simp] theorem txCleanTail_ring : (txCleanTail c s).ring = s.ring := by
  unfold txCleanTail stmmacEnableEeeMode; dsimp only; split_ifs <;> rfl
@[simp] theorem txCleanTail_curTx : (txCleanTail c s).curTx = s.curTx := by
  unfold txCleanTail stmmacEnableEeeMode; dsimp only; split_ifs <;> rfl
@[simp] theorem txCleanTail_dirtyTx : (txCleanTail c s).dirtyTx = s.dirtyTx := by
  unfold txCleanTail stmmacEnableEeeMode; dsimp only; split_ifs <;> rfl

theorem txCleanTail_trace :
    (txCleanTail c s).trace = s.trace ∨ (txCleanTail c s).trace = s.trace ++ [.setEeeMode] := by
  unfold txCleanTail stmmacEnableEeeMode
  dsimp only
  split_ifs <;> simp

end Tail

/-- The ring and its counters are the same; at most the energy-saving mode was entered. -/
structure SameRing (s s' : TxState) : Prop where
  ring : s'.ring = s.ring
  dirtyTx : s'.dirtyTx = s.dirtyTx
  curTx : s'.curTx = s.curTx
  trace : s'.trace = s.trace ∨ s'.trace = s.trace ++ [.setEeeMode]

/-- An invariant that speaks of the oldest counter through `t`: if each round keeps it and moves
`t` on, `stmmac_tx_clean` keeps it. The other parts of the call leave the ring alone. -/
theorem stmmacTxClean_invariant {I : Nat → TxState → Prop} {t : Nat}
    (hsame : ∀ {t : Nat} {s s' : TxState}, I t s → SameRing s s' → I t s')
    (hbody : ∀ {t : Nat} {s : TxState}, I t s → txCleanGuard c s = true →
      I (t + 1) (txCleanBody c s))
    (hs : I t s) : ∃ t', I t' (stmmacTxClean c s) := by
  have hstart : ∀ x, ∃ t, I t { s with stats := x } := fun x =>
    ⟨t, hsame hs ⟨rfl, rfl, rfl, .inl rfl⟩⟩
  have hround : ∀ {s : TxState}, (∃ t, I t s) → txCleanGuard c s = true →
      ∃ t, I t (txCleanBody c s) := fun ⟨t, h⟩ hg => ⟨t + 1, hbody h hg⟩
  obtain ⟨t', hloop⟩ := iterate_invariant (I := fun s => ∃ t, I t s) hround (hstart _)
  exact ⟨t', hsame hloop ⟨txCleanTail_ring, txCleanTail_dirtyTx, txCleanTail_curTx,
    txCleanTail_trace⟩⟩

/-- The loop ends because its condition fails: nothing is left in flight, or the oldest
descriptor still belongs to the DMA. -/
theorem stmmacTxClean_exit : txCleanGuard c (stmmacTxClean c s) = false := by
  have hguard : ∀ s : TxState, txCleanGuard c (txCleanTail c s) = txCleanGuard c s := by
    intro s; simp [txCleanGuard]
  unfold stmmacTxClean
  rw [hguard]
  refine iterate_exit TxState.inFlight ?_ (Nat.le_refl _)
  intro s hg
  have hne := (txCleanGuard_iff.mp hg).1
  simp only [TxState.inFlight, txCleanBody_curTx, txCleanBody_dirtyTx]
  bv_omega

/-- From `s` to `s'` the completed descriptors from counter `t` up to `t'` are reclaimed, and the
rest of those in flight stay as they are. -/
structure TxCleaned (c : Conf) (s s' : TxState) (t t' h : Nat) : Prop where
  window : TxWindow c s' t' h
  le : t ≤ t'
  done : ∀ k, t ≤ k → k < t' → c.txOwned (s.ring (k % c.dmaTxSize.toNat)) = false
  kept : ∀ k, t' ≤ k → k < h →
    s'.ring (k % c.dmaTxSize.toNat) = s.ring (k % c.dmaTxSize.toNat)

theorem TxCleaned.round {s' : TxState} {t' : Nat} (hp : IsPow2 c.dmaTxSize)
    (f : TxCleaned c s s' t t' h) (hg : txCleanGuard c s' = true) :
    TxCleaned c s (txCleanBody c s') t (t' + 1) h := by
  have w := f.window
  have hlt := w.lt_of_guard hg
  have hN := w.lt
  have hown := (txCleanGuard_iff.mp hg).2
  rw [w.entry_dirty hp, f.kept t' (Nat.le_refl t') hlt] at hown
  refine ⟨w.clean hg, Nat.le_succ_of_le f.le, fun k hk hk' => ?_, fun k hk hk' => ?_⟩
  · rcases Nat.lt_succ_iff_lt_or_eq.mp hk' with hkt | rfl
    · exact f.done k hk hkt
    · exact hown
  · rw [w.clean_kept hp (by omega) (by omega)]
    exact f.kept k (by omega) hk'

/-- Where the loop ends, the DMA owns the next descriptor. -/
theorem TxCleaned.stopped {s' : TxState} {t' : Nat} (hp : IsPow2 c.dmaTxSize)
    (f : TxCleaned c s s' t t' h) (hexit : txCleanGuard c s' = false) (hlt : t' < h) :
    c.txOwned (s.ring (t' % c.dmaTxSize.toNat)) = true := by
  have hne : s'.dirtyTx ≠ s'.curTx := fun he =>
    Nat.ne_of_lt hlt (f.window.dirty_eq_cur_iff.mp he)
  rw [← f.kept t' (Nat.le_refl t') hlt, ← f.window.entry_dirty hp]
  by_contra hown
  rw [txCleanGuard_iff.mpr ⟨hne, Bool.not_eq_true _ ▸ hown⟩] at hexit
  cases hexit

theorem TxWindow.cleaned_start (w : TxWindow c s t h) : TxCleaned c s s t t h :=
  ⟨w, Nat.le_refl t, fun _ hk hk' => absurd hk' (Nat.not_lt.mpr hk), fun _ _ _ => rfl⟩

theorem TxCleaned.congr {s' s'' : TxState} {t' : Nat} (f : TxCleaned c s s' t t' h)
    (hsame : SameRing s' s'') : TxCleaned c s s'' t t' h :=
  ⟨f.window.congr hsame.dirtyTx hsame.curTx, f.le, f.done, by rw [hsame.ring]; exact f.kept⟩

/-- `stmmac_tx_clean` stops at the first descriptor that the DMA owns. -/
theorem TxWindow.cleaned (hp : IsPow2 c.dmaTxSize) (w : TxWindow c s t h) :
    ∃ t', TxCleaned c s (stmmacTxClean c s) t t' h ∧
      (t' < h → c.txOwned (s.ring (t' % c.dmaTxSize.toNat)) = true) := by
  obtain ⟨t', f⟩ := stmmacTxClean_invariant (I := fun t' s' => TxCleaned c s s' t t' h)
    (fun f hsame => f.congr hsame) (fun f hg => f.round hp hg) w.cleaned_start
  exact ⟨t', f, f.stopped hp stmmacTxClean_exit⟩

/-- A part of the state that no piece of `stmmac_tx_clean` writes. -/
theorem stmmacTxClean_field {β : Type*} (f : TxState → β)
    (hstats : ∀ (s : TxState) (x : Stats), f { s with stats := x } = f s)
    (hbody : ∀ s, f (txCleanBody c s) = f s) (htail : ∀ s, f (txCleanTail c s) = f s) :
    f (stmmacTxClean c s) = f s := by
  rw [stmmacTxClean, htail]
  refine iterate_invariant (I := fun s' => f s' = f s) (fun hs _ => ?_) (hstats s _)
  exact (hbody _).trans hs

/-! ## Dropping everything -/

/-- What `dma_free_tx_skbufs` does to a slot. -/
def TxSlot.dropped (p : TxSlot) : TxSlot :=
  if p.skb.isSome then { p with skb := none, dma := 0 } else p

/-- The calls of `dma_free_tx_skbufs` on a slot. -/
def Conf.dropCalls (c : Conf) (r : Nat → TxSlot) (p : TxSlot) : List TxCall :=
  if p.skb.isSome then c.unmapCalls p ++ c.freeCalls r p else []

@[simp] theorem TxSlot.dropped_desc (p : TxSlot) : p.dropped.desc = p.desc := by
  unfold TxSlot.dropped; split <;> rfl

@[simp] theorem TxSlot.dropped_skb (p : TxSlot) : p.dropped.skb = none := by
  unfold TxSlot.dropped
  split
  · rfl
  · next hs => simpa using hs

/-- The calls depend on the ring through its ownership bits only. -/
theorem dropCalls_congr {r r' : Nat → TxSlot} (h : ∀ i, c.txOwned (r' i) = c.txOwned (r i))
    (p : TxSlot) : c.dropCalls r' p = c.dropCalls r p := by
  simp [Conf.dropCalls, Conf.freeCalls, h]

theorem freeTxSkbuf_eq (i : Nat) :
    freeTxSkbuf c s i =
      { s with
        ring := Function.update s.ring i (s.ring i).dropped
        trace := s.trace ++ c.dropCalls s.ring (s.ring i) } := by
  generalize hp : s.ring i = p
  obtain ⟨desc, skb, dma⟩ := p
  cases skb with
  | none =>
    have hself : Function.update s.ring i ⟨desc, none, dma⟩ = s.ring := by rw [← hp]; simp
    simp [freeTxSkbuf, hp, TxSlot.dropped, Conf.dropCalls, hself]
  | some skb =>
    by_cases hd : dma = 0#32 <;>
      simp [freeTxSkbuf, TxSlot.dropped, Conf.dropCalls, TxState.modify, TxState.call, hd, hp,
        Conf.unmapCalls, Conf.freeCalls]

/-- The rounds of `dma_free_tx_skbufs` so far. -/
theorem foldl_freeTxSkbuf (n : Nat) :
    (List.range n).foldl (freeTxSkbuf c) s =
      { s with
        ring := Ring.mapBelow n (fun _ => TxSlot.dropped) s.ring
        trace := s.trace ++ (List.range n).flatMap fun i => c.dropCalls s.ring (s.ring i) } := by
  induction n with
  | zero => simp
  | succ n ih =>
    have hn : Ring.mapBelow n (fun _ => TxSlot.dropped) s.ring n = s.ring n :=
      Ring.mapBelow_of_ge (Nat.le_refl n)
    have hown : ∀ i, c.txOwned (Ring.mapBelow n (fun _ => TxSlot.dropped) s.ring i) =
        c.txOwned (s.ring i) := by
      intro i
      unfold Ring.mapBelow Conf.txOwned
      split <;> simp
    rw [List.range_succ, List.foldl_append, ih]
    simp only [List.foldl_cons, List.foldl_nil, freeTxSkbuf_eq, hn, Ring.mapBelow_succ,
      dropCalls_congr hown]
    simp

theorem dmaFreeTxSkbufs_eq :
    dmaFreeTxSkbufs c s =
      { s with
        ring := Ring.mapBelow c.dmaTxSize.toNat (fun _ => TxSlot.dropped) s.ring
        trace := s.trace ++ (List.range c.dmaTxSize.toNat).flatMap fun i =>
          c.dropCalls s.ring (s.ring i) } :=
  foldl_freeTxSkbuf _

/-- The slot of an entry after error recovery. -/
def Conf.errSlot (c : Conf) (i : Nat) (p : TxSlot) : TxSlot :=
  p.dropped.mapDes (c.desc.initTxDesc · c.mode (i == c.dmaTxSize.toNat - 1))

@[simp] theorem errSlot_dma (i : Nat) (p : TxSlot) : (c.errSlot i p).dma = p.dropped.dma := by
  simp [Conf.errSlot]

theorem errSlot_owned (ops : c.desc.Lawful) (i : Nat) (p : TxSlot) :
    c.txOwned (c.errSlot i p) = false := by
  simp [Conf.errSlot, Conf.txOwned, ops.txOwner_init]

theorem stmmacTxErr_ring :
    (stmmacTxErr c s).ring = Ring.mapBelow c.dmaTxSize.toNat c.errSlot s.ring := by
  funext i
  simp only [stmmacTxErr, dmaFreeTxSkbufs_eq, TxState.call_ring]
  unfold Ring.mapBelow Conf.errSlot
  split <;> rfl

theorem stmmacTxErr_trace :
    (stmmacTxErr c s).trace = s.trace ++ .stopTx ::
      ((List.range c.dmaTxSize.toNat).flatMap fun i => c.dropCalls s.ring (s.ring i)) ++
        [.startTx] := by
  simp [stmmacTxErr, dmaFreeTxSkbufs_eq]

theorem TxWindow.err (hp : IsPow2 c.dmaTxSize) : TxWindow c (stmmacTxErr c s) 0 0 :=
  ⟨rfl, rfl, Nat.le_refl 0, by have := hp.pos; omega⟩

end Stmmac
