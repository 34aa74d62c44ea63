import Stmmac.Tx.Frames
import Stmmac.Tx.Queue
import Stmmac.Tx.Sent
import Stmmac.Wrap

/-!
# Transmit side: what is reclaimed

`stmmac_tx_clean` as a whole, from any state with fewer descriptors in flight than slots: it
reclaims the completed descriptors up to the first that the DMA owns, each once, touches no other
slot, and wakes a stopped queue exactly if enough descriptors are free afterwards.
-/

namespace Stmmac

open Library

/-- How many descriptors in flight come before the first that the DMA owns. -/
def TxState.doneCount (c : Conf) (s : TxState) : Nat :=
  (List.range s.inFlight).findIdx fun k => c.txOwned (s.ring (s.flightSlot c k))

/-- From `s` to `s'` the completed descriptors are reclaimed. -/
structure TxReclaimed (c : Conf) (s s' : TxState) : Prop where
  dirtyTx : s'.dirtyTx = s.dirtyTx + BitVec.ofNat 32 (s.doneCount c)
  curTx : s'.curTx = s.curTx
  emptied : ∀ k < s.doneCount c,
    (s'.ring (s.flightSlot c k)).skb = none ∧ (s'.ring (s.flightSlot c k)).dma = 0
  released : c.mode = .ring → ∀ k < s.doneCount c,
    (s'.ring (s.flightSlot c k)).desc.des01 =
      (⟨0, 0⟩ : Des01).set Tx.endRing ((s.ring (s.flightSlot c k)).desc.des01.get Tx.endRing)
  kept : ∀ i, (∀ k < s.doneCount c, i ≠ s.flightSlot c k) → s'.ring i = s.ring i
  freed : (frees s'.trace).map Prod.fst = (frees s.trace).map Prod.fst ++
    (List.range (s.doneCount c)).filterMap fun k => (s.ring (s.flightSlot c k)).skbId
  noNull : .nullDeref ∈ s'.trace → .nullDeref ∈ s.trace
  awake : s.queueStopped = true → (s'.queueStopped = false ↔
    c.dmaTxSize.toNat / 4 < c.dmaTxSize.toNat - 1 - s'.inFlight)
  woken : s.queueStopped = true →
    (∀ k < s'.inFlight, c.txOwned (s'.ring (s'.flightSlot c k)) = false) → s'.queueStopped = false

/-- After `k` rounds of the loop. -/
structure ReclaimedTo (c : Conf) (s s' : TxState) (k : Nat) : Prop where
  le : k ≤ s.doneCount c
  dirtyTx : s'.dirtyTx = s.dirtyTx + BitVec.ofNat 32 k
  curTx : s'.curTx = s.curTx
  reclaimed : ∀ j < k, s'.ring (s.flightSlot c j) = c.reclaimSlot (s.ring (s.flightSlot c j))
  kept : ∀ i, (∀ j < k, i ≠ s.flightSlot c j) → s'.ring i = s.ring i
  freed : (frees s'.trace).map Prod.fst = (frees s.trace).map Prod.fst ++
    (List.range k).filterMap fun j => (s.ring (s.flightSlot c j)).skbId
  noNull : .nullDeref ∈ s'.trace → .nullDeref ∈ s.trace

variable {c : Conf} {s s' : TxState} {k : Nat}

/-! ## The first descriptor that the DMA owns -/

theorem doneCount_le : s.doneCount c ≤ s.inFlight := by
  have hle : s.doneCount c ≤ (List.range s.inFlight).length := List.findIdx_le_length
  rwa [List.length_range] at hle

theorem txOwned_of_lt_doneCount (h : k < s.doneCount c) :
    c.txOwned (s.ring (s.flightSlot c k)) = false := by
  have hnot := List.not_of_lt_findIdx h
  simpa using hnot

theorem txOwned_doneCount (h : s.doneCount c < s.inFlight) :
    c.txOwned (s.ring (s.flightSlot c (s.doneCount c))) = true := by
  unfold TxState.doneCount at h ⊢
  generalize hp : (fun k => c.txOwned (s.ring (s.flightSlot c k))) = p at h ⊢
  have hlen : (List.range s.inFlight).findIdx p < (List.range s.inFlight).length := by
    rwa [List.length_range]
  have hown := List.findIdx_getElem (w := hlen)
  rw [List.getElem_range] at hown
  rwa [← hp] at hown ⊢

/-! ## One round -/

/-- Without time stamps no skb is looked into. -/
theorem nullDeref_not_mem_reclaimCalls (hwts : c.hwtsTxEn = false) (r : Nat → TxSlot) (p : TxSlot) :
    TxCall.nullDeref ∉ c.reclaimCalls r p := by
  have hts : c.hwtstampCalls p = [] := by simp [Conf.hwtstampCalls, hwts]
  unfold Conf.reclaimCalls Conf.unmapCalls Conf.freeCalls
  rw [hts]
  cases p.skb <;> split_ifs <;> simp

theorem flightSlot_ne (hp : IsPow2 c.dmaTxSize) (hlt : s.inFlight ≤ c.dmaTxSize.toNat - 1)
    {j : Nat} (hjk : j < k) (hk : k < s.inFlight) : s.flightSlot c k ≠ s.flightSlot c j :=
  (flightSlot_distinct ((txEntry_continuous_iff hp.pos).mpr hp) hlt hjk hk).symm

namespace ReclaimedTo

theorem txEntry_dirtyTx (f : ReclaimedTo c s s' k) : c.txEntry s'.dirtyTx = s.flightSlot c k := by
  rw [f.dirtyTx]
  rfl

/-- Where the loop goes on, something is in flight. -/
theorem lt_inFlight (f : ReclaimedTo c s s' k) (hne : s'.dirtyTx ≠ s'.curTx) : k < s.inFlight := by
  refine Nat.lt_of_le_of_ne (f.le.trans doneCount_le) fun he => hne ?_
  rw [f.dirtyTx, f.curTx, he, TxState.inFlight, BitVec.ofNat_toNat, BitVec.setWidth_eq]
  grind

theorem ring_eq (hp : IsPow2 c.dmaTxSize) (hlt : s.inFlight ≤ c.dmaTxSize.toNat - 1)
    (f : ReclaimedTo c s s' k) (hk : k < s.inFlight) :
    s'.ring (s.flightSlot c k) = s.ring (s.flightSlot c k) :=
  f.kept _ fun _ hj => flightSlot_ne hp hlt hj hk

theorem round (hwts : c.hwtsTxEn = false) (hp : IsPow2 c.dmaTxSize)
    (hlt : s.inFlight ≤ c.dmaTxSize.toNat - 1) (f : ReclaimedTo c s s' k)
    (hg : txCleanGuard c s' = true) :
    ReclaimedTo c s (txCleanBody c s') (k + 1) := by
  obtain ⟨hne, hown⟩ := txCleanGuard_iff.mp hg
  have hk := f.lt_inFlight hne
  rw [f.txEntry_dirtyTx, f.ring_eq hp hlt hk] at hown
  have hring : (txCleanBody c s').ring = Function.update s'.ring (s.flightSlot c k)
      (c.reclaimSlot (s.ring (s.flightSlot c k))) := by
    rw [txCleanBody_ring, f.txEntry_dirtyTx, f.ring_eq hp hlt hk]
  refine
    { le := ?_
      dirtyTx := ?_
      curTx := txCleanBody_curTx.trans f.curTx
      reclaimed := fun j hj => ?_
      kept := fun i hi => ?_
      freed := ?_
      noNull := fun hmem => ?_ }
  · refine Nat.lt_of_le_of_ne f.le fun he => ?_
    rw [he, txOwned_doneCount (he ▸ hk)] at hown
    cases hown
  · rw [txCleanBody_dirtyTx, f.dirtyTx, Ring.ofNat_succ, BitVec.add_assoc]
  · rw [hring]
    rcases Nat.lt_succ_iff_lt_or_eq.mp hj with hj | rfl
    · rw [Function.update_of_ne (flightSlot_ne hp hlt hj hk).symm]
      exact f.reclaimed j hj
    · exact Function.update_self ..
  · rw [hring, Function.update_of_ne (hi k (Nat.lt_succ_self k))]
    exact f.kept i fun j hj => hi j (Nat.lt_succ_of_lt hj)
  · have hfree : (frees (c.reclaimCalls s'.ring (s.ring (s.flightSlot c k)))).map Prod.fst =
        (s.ring (s.flightSlot c k)).skbId.toList := by
      rw [frees_reclaimCalls]
      cases (s.ring (s.flightSlot c k)).skbId <;> rfl
    rw [txCleanBody_trace, f.txEntry_dirtyTx, f.ring_eq hp hlt hk, frees_append, List.map_append,
      f.freed, hfree, List.range_succ, List.filterMap_append, List.append_assoc]
    cases hid : (s.ring (s.flightSlot c k)).skbId <;> simp [hid]
  · rw [txCleanBody_trace] at hmem
    exact f.noNull
      ((List.mem_append.mp hmem).resolve_right (nullDeref_not_mem_reclaimCalls hwts _ _))

theorem start (s : TxState) (x : Stats) : ReclaimedTo c s { s with stats := x } 0 where
  le := Nat.zero_le _
  dirtyTx := by simp
  curTx := rfl
  reclaimed _ hj := absurd hj (Nat.not_lt_zero _)
  kept _ _ := rfl
  freed := by simp
  noNull := id

/-- The loop ends at the first descriptor that the DMA owns. -/
theorem eq_doneCount (hp : IsPow2 c.dmaTxSize) (hlt : s.inFlight ≤ c.dmaTxSize.toNat - 1)
    (f : ReclaimedTo c s s' k) (hexit : txCleanGuard c s' = false) : k = s.doneCount c := by
  refine f.le.antisymm (Nat.not_lt.mp fun hk => ?_)
  have hin := hk.trans_le doneCount_le
  have hne : s'.dirtyTx ≠ s'.curTx := fun he => by
    rw [f.dirtyTx, f.curTx] at he
    have hflight : s.inFlight = (BitVec.ofNat 32 k).toNat := by
      rw [TxState.inFlight, ← he]
      congr 1
      grind
    rw [BitVec.toNat_ofNat] at hflight
    have := Nat.mod_le k (2 ^ 32)
    omega
  have hown := txOwned_of_lt_doneCount hk
  rw [← f.ring_eq hp hlt hin, ← f.txEntry_dirtyTx] at hown
  rw [txCleanGuard_iff.mpr ⟨hne, hown⟩] at hexit
  cases hexit

end ReclaimedTo

/-! ## The whole call -/

/-- The threshold for waking the queue, as a number. -/
theorem wake_iff (hlt : s.inFlight < c.dmaTxSize.toNat) :
    stmmacTxThresh c < stmmacTxAvail c s ↔
      c.dmaTxSize.toNat / 4 < c.dmaTxSize.toNat - 1 - s.inFlight := by
  have havail := (TxWindow.of_inFlight hlt).avail
  rw [BitVec.lt_def, toNat_stmmacTxThresh]
  omega

/-- The loop of `stmmac_tx_clean`, with a bound on its rounds. -/
def txCleanLoop (c : Conf) (n : Nat) (s : TxState) : TxState :=
  iterate (txCleanGuard c) (txCleanBody c) n s.countClean

theorem stmmacTxClean_eq : stmmacTxClean c s = txCleanTail c (txCleanLoop c s.inFlight s) := rfl

theorem txCleanLoop_exit : txCleanGuard c (txCleanLoop c s.inFlight s) = false := by
  have hexit := stmmacTxClean_exit (c := c) (s := s)
  rw [stmmacTxClean_eq] at hexit
  simpa [txCleanGuard] using hexit

theorem txCleanLoop_reclaimedTo (hwts : c.hwtsTxEn = false) (hp : IsPow2 c.dmaTxSize)
    (hlt : s.inFlight ≤ c.dmaTxSize.toNat - 1) :
    ReclaimedTo c s (txCleanLoop c s.inFlight s) (s.doneCount c) := by
  obtain ⟨k, f⟩ : ∃ k, ReclaimedTo c s (txCleanLoop c s.inFlight s) k :=
    iterate_invariant (I := fun s' => ∃ k, ReclaimedTo c s s' k)
      (fun ⟨k, f⟩ hg => ⟨k + 1, f.round hwts hp hlt hg⟩) ⟨0, .start s _⟩
  rwa [← f.eq_doneCount hp hlt txCleanLoop_exit]

theorem ReclaimedTo.inFlight (f : ReclaimedTo c s s' k) (hk : k ≤ s.inFlight) :
    s'.inFlight = s.inFlight - k := by
  have hcur : s.curTx - (s.dirtyTx + BitVec.ofNat 32 k) =
      s.curTx - s.dirtyTx - BitVec.ofNat 32 k := by grind
  have hflight : s.inFlight < 2 ^ 32 := (s.curTx - s.dirtyTx).isLt
  have hk' : (BitVec.ofNat 32 k).toNat = k := by
    rw [BitVec.toNat_ofNat, Nat.mod_eq_of_lt (by omega)]
  rw [TxState.inFlight, f.curTx, f.dirtyTx, hcur, BitVec.toNat_sub_of_le, hk', TxState.inFlight]
  rw [BitVec.le_def, hk']
  exact hk

theorem stmmacTxClean_inFlight (f : ReclaimedTo c s (txCleanLoop c s.inFlight s) (s.doneCount c)) :
    (stmmacTxClean c s).inFlight = s.inFlight - s.doneCount c := by
  refine Eq.trans ?_ (f.inFlight doneCount_le)
  rw [stmmacTxClean_eq, TxState.inFlight, txCleanTail_curTx, txCleanTail_dirtyTx]
  rfl

/-- A stopped queue is woken exactly if enough descriptors are free afterwards. -/
theorem stmmacTxClean_awake_iff (hstopped : s.queueStopped = true)
    (hlt : (stmmacTxClean c s).inFlight < c.dmaTxSize.toNat) :
    (stmmacTxClean c s).queueStopped = false ↔
      c.dmaTxSize.toNat / 4 < c.dmaTxSize.toNat - 1 - (stmmacTxClean c s).inFlight := by
  rw [stmmacTxClean_queueStopped, hstopped, ← wake_iff hlt]
  simp

/-- If the DMA owns nothing that is in flight afterwards, nothing is: the loop did not stop at a
descriptor of the DMA. -/
theorem stmmacTxClean_drained (hall : ∀ k < (stmmacTxClean c s).inFlight,
    c.txOwned ((stmmacTxClean c s).ring ((stmmacTxClean c s).flightSlot c k)) = false) :
    (stmmacTxClean c s).inFlight = 0 := by
  by_contra hpos
  have hown := hall 0 (Nat.pos_of_ne_zero hpos)
  have hslot : (stmmacTxClean c s).flightSlot c 0 = c.txEntry (stmmacTxClean c s).dirtyTx := by
    simp [TxState.flightSlot]
  rw [hslot] at hown
  have hne : (stmmacTxClean c s).dirtyTx ≠ (stmmacTxClean c s).curTx := fun he =>
    hpos (by simp [TxState.inFlight, he])
  have hexit := stmmacTxClean_exit (c := c) (s := s)
  rw [txCleanGuard_iff.mpr ⟨hne, hown⟩] at hexit
  cases hexit

theorem stmmacTxClean_reclaimed (hdesc : c.desc = ndescOps) (hwts : c.hwtsTxEn = false)
    (hp : IsPow2 c.dmaTxSize) (hN : 2 ≤ c.dmaTxSize.toNat)
    (hlt : s.inFlight ≤ c.dmaTxSize.toNat - 1) : TxReclaimed c s (stmmacTxClean c s) := by
  have f := txCleanLoop_reclaimedTo hwts hp hlt
  have hring : (stmmacTxClean c s).ring = (txCleanLoop c s.inFlight s).ring := txCleanTail_ring
  have hflight := stmmacTxClean_inFlight f
  have hawake (hstopped : s.queueStopped = true) :=
    stmmacTxClean_awake_iff (c := c) hstopped (by omega)
  refine
    { dirtyTx := txCleanTail_dirtyTx.trans f.dirtyTx
      curTx := txCleanTail_curTx.trans f.curTx
      emptied := fun k hk => ?_
      released := fun hmode k hk => ?_
      kept := fun i hi => ?_
      freed := ?_
      noNull := fun hmem => f.noNull ?_
      awake := hawake
      woken := fun hstopped hall => (hawake hstopped).mpr ?_ }
  · rw [hring, f.reclaimed k hk]
    exact ⟨rfl, rfl⟩
  · rw [hring, f.reclaimed k hk]
    simp [Conf.reclaimSlot, hdesc, hmode, ndescOps, ndescReleaseTxDesc, ndescEndTxDescOnRing]
  · rw [hring]
    exact f.kept i hi
  · rw [stmmacTxClean_eq, SameRing.frees_eq ⟨txCleanTail_ring, txCleanTail_dirtyTx,
      txCleanTail_curTx, txCleanTail_trace⟩]
    exact f.freed
  · rcases txCleanTail_trace (c := c) (s := txCleanLoop c s.inFlight s) with htr | htr
    · exact htr ▸ hmem
    · rw [stmmacTxClean_eq, htr] at hmem
      simpa using hmem
  · have hnone := stmmacTxClean_drained hall
    omega

/-- `stmmac_tx_clean` ends after at most as many rounds as descriptors are in flight, reclaims the
completed ones up to the first that the DMA owns, and wakes the queue exactly if enough are free. -/
theorem tx_clean_reclaims (hdesc : c.desc = ndescOps) (hwts : c.hwtsTxEn = false)
    (hp : IsPow2 c.dmaTxSize) (hN : 2 ≤ c.dmaTxSize.toNat)
    (hlt : s.inFlight ≤ c.dmaTxSize.toNat - 1) :
    (∀ n, s.inFlight ≤ n → txCleanGuard c (txCleanLoop c n s) = false ∧
        txCleanLoop c n s = txCleanLoop c s.inFlight s) ∧
      stmmacTxClean c s = txCleanTail c (txCleanLoop c s.inFlight s) ∧
      TxReclaimed c s (stmmacTxClean c s) := by
  refine ⟨fun n hn => ?_, rfl, stmmacTxClean_reclaimed hdesc hwts hp hN hlt⟩
  have hstable : txCleanLoop c n s = txCleanLoop c s.inFlight s :=
    iterate_of_le txCleanLoop_exit hn
  exact ⟨hstable ▸ txCleanLoop_exit, hstable⟩

/-- Three completed descriptors across the wrap of the counters. -/
theorem tx_clean_reclaims_wrap :
    let c := Conf.normal 4
    let s := { TxState.idle c with curTx := 1, dirtyTx := -2, queueStopped := true }
    TxReclaimed c s (stmmacTxClean c s) :=
  (tx_clean_reclaims rfl rfl ⟨2, rfl⟩ (by decide) (by decide)).2.2

end Stmmac
