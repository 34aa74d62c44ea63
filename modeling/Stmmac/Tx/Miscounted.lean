import Stmmac.Tx.Counted

/-!
# Transmit side: two frames on one slot

In a ring of another size the slots jump when `cur_tx` and `dirty_tx` wrap. Frames of one
descriptor are sent and reclaimed until a multiple of the ring size is reached that lies less than
a ring before the wrap. If none is reclaimed any more, the first frame after the wrap is put into
the slot of the first one in flight. Both were sent, and only one is counted.
-/

namespace Stmmac

open Library

variable {c : Conf} {s : SentState} {t h n : Nat} {marked : Nat → Bool}

theorem txEntry_ofNat_mod (k : Nat) :
    c.txEntry (BitVec.ofNat 32 k) = k % 2 ^ 32 % c.dmaTxSize.toNat := by
  simp [Conf.txEntry]

/-! ## Frames of one descriptor -/

section Single

variable {tx : TxState} {skb : TxSkb}

/-- An accepted frame without fragments takes one slot, whatever the size of the ring. -/
theorem stmmacXmit_single (dma : Nat → BitVec 32) (hfit : XmitFits c tx skb)
    (hfrags : skb.frags = []) :
    (stmmacXmit c tx skb dma).1.ring = Function.update tx.ring (c.txEntry tx.curTx)
        (c.xmitSlot tx skb dma 0 (tx.ring (c.txEntry tx.curTx))) ∧
      (stmmacXmit c tx skb dma).1.curTx = tx.curTx + 1 ∧
      (stmmacXmit c tx skb dma).1.dirtyTx = tx.dirtyTx := by
  have hsegs : skb.segments dma = [] := by simp [TxSkb.segments, hfrags]
  simp only [stmmacXmit, if_neg (not_busy hfit), hsegs, xmitFrags]
  refine ⟨?_, by simp, by simp⟩
  simp only [TxState.call_ring, xmitTimestamp_ring, addTxBytes_ring, xmitStopQueue_ring,
    TxState.modify_ring, txCoalesce_ring, TxState.modify_curTx, TxState.call_curTx,
    xmitExitLpi_curTx, xmitExitLpi_ring]
  simp [Conf.xmitSlot, Conf.firstSlot, Conf.segSlot, Conf.closeSlot, hfrags]

end Single

/-- A descriptor given back without an error. -/
def TxSlot.doneDesc (p : TxSlot) : DmaDesc :=
  { p.desc with des01 := { p.desc.des01 with des0 := 0 } }

theorem txComplete_doneDesc (hd : c.desc = ndescOps) {tx : TxState} {entry : Nat}
    (hown : c.txOwned (tx.ring entry) = true) :
    txComplete c tx entry (tx.ring entry).doneDesc =
      some (tx.modify entry fun p => { p with desc := p.doneDesc }) := by
  have hgive : c.desc.getTxOwner (tx.ring entry).doneDesc.des01 = false := by
    simp [hd, ndescOps, ndescGetTxOwner, TxSlot.doneDesc, Des01.test, Des01.get, Des01.word]
  unfold txComplete
  rw [if_pos ⟨hown, hgive⟩]
  rfl

theorem doneDesc_owned (hd : c.desc = ndescOps) (p : TxSlot) :
    c.txOwned { p with desc := p.doneDesc } = false := by
  simp [Conf.txOwned, hd, ndescOps, ndescGetTxOwner, TxSlot.doneDesc, Des01.test, Des01.get,
    Des01.word]

theorem doneDesc_last (hd : c.desc = ndescOps) (p : TxSlot) :
    c.desc.getTxLs p.doneDesc.des01 = c.desc.getTxLs p.desc.des01 := by
  simp [hd, ndescOps, ndescGetTxLs, TxSlot.doneDesc, Des01.test, Des01.get, Des01.word]

/-- A frame of one descriptor was queued and completed. -/
structure OneSent (c : Conf) (s s' : SentState) : Prop where
  ring : ∃ p, s'.tx.ring = Function.update s.tx.ring (c.txEntry s.tx.curTx) p ∧
    c.txOwned p = false ∧ c.desc.getTxLs p.desc.des01 = true
  cur : s'.tx.curTx = s.tx.curTx + 1
  dirty : s'.tx.dirtyTx = s.tx.dirtyTx
  frames : ∃ skb, s'.frames = s.frames ++ [⟨skb, s.queued⟩]
  queued : s'.queued = s.queued + 1
  reclaimed : s'.reclaimed = s.reclaimed
  counts : s'.tx.stats.txCounts = s.tx.stats.txCounts

theorem exists_oneSent (hd : c.desc = ndescOps) (hfree : 1 ≤ (stmmacTxAvail c s.tx).toNat) :
    ∃ as s', Run (sentStep c) ShortSent s as s' ∧ OneSent c s s' := by
  let skb : TxSkb := .plain 0 60 []
  let dma : Nat → BitVec 32 := fun _ => 0
  let entry := c.txEntry s.tx.curTx
  let p := c.xmitSlot s.tx skb dma 0 (s.tx.ring entry)
  have hfit : XmitFits c s.tx skb := hfree
  obtain ⟨hring, hcur, hdirty⟩ := stmmacXmit_single dma hfit rfl
  have hslot : (stmmacXmit c s.tx skb dma).1.ring entry = p := by rw [hring, Function.update_self]
  have hown : c.txOwned p = true := xmitSlot_owned (hd ▸ ndescOps_lawful) 0 _
  have hlast : c.desc.getTxLs p.desc.des01 = true := by
    rw [xmitSlot_last hd]
    rfl
  have hdone := txComplete_doneDesc hd (hslot ▸ hown)
  let as : List TxAct := [.xmit skb dma, .complete entry ((stmmacXmit c s.tx skb dma).1.ring
    entry).doneDesc]
  refine ⟨as, _, .cons ⟨by decide, fun _ hf => absurd hf List.not_mem_nil⟩ (sentStep_xmit hfit)
    (.cons rfl (congrArg (Option.map _) hdone) (.nil _)), ⟨⟨{ p with desc := p.doneDesc }, ?_,
      doneDesc_owned hd p, (doneDesc_last hd p).trans hlast⟩, hcur, hdirty, ⟨_, rfl⟩, rfl, rfl,
      stmmacXmit_counts⟩⟩
  rw [TxState.modify_ring, hslot, hring, Function.update_idem]

/-- Every descriptor is given back, and `marked` are those with `last_segment`. -/
structure RingMarks (c : Conf) (r : Nat → TxSlot) (marked : Nat → Bool) : Prop where
  idle : ∀ i, c.txOwned (r i) = false
  last : ∀ i, c.desc.getTxLs (r i).desc.des01 = marked i

theorem RingMarks.update {r : Nat → TxSlot} {p : TxSlot} {b : Bool} (m : RingMarks c r marked)
    (entry : Nat) (hown : c.txOwned p = false) (hlast : c.desc.getTxLs p.desc.des01 = b) :
    RingMarks c (Function.update r entry p) (Function.update marked entry b) := by
  refine ⟨fun i => ?_, fun i => ?_⟩
  · by_cases hi : i = entry
    · rw [hi, Function.update_self]
      exact hown
    · rw [Function.update_of_ne hi]
      exact m.idle i
  · by_cases hi : i = entry
    · rw [hi, Function.update_self, Function.update_self]
      exact hlast
    · rw [Function.update_of_ne hi, Function.update_of_ne hi]
      exact m.last i

/-- Everything queued is completed, and `n` frames are counted. -/
structure TxSettled (c : Conf) (s : SentState) (t h : Nat) (marked : Nat → Bool) (n : Nat) :
    Prop where
  window : TxWindow c s.tx t h
  ring : RingMarks c s.tx.ring marked
  frames : s.frames.length = h
  queued : s.queued = h
  reclaimed : s.reclaimed.length = t
  below : ∀ f ∈ s.frames, f.last < h
  counted : s.tx.stats.txCounts.1 + s.tx.stats.txCounts.2.1 = n

namespace TxSettled

theorem congr {tx : TxState} (st : TxSettled c s t h marked n) (hsame : SameSent s.tx tx) :
    TxSettled c { s with tx := tx } t h marked n := by
  refine ⟨st.window.congr hsame.dirtyTx hsame.curTx, ?_, st.frames, st.queued, st.reclaimed,
    st.below, ?_⟩
  · rw [hsame.ring]
    exact st.ring
  · rw [hsame.counts]
    exact st.counted

variable (hd : c.desc = ndescOps)

include hd in
/-- A frame is sent and completed. -/
theorem send (st : TxSettled c s t h marked n) (hroom : h + 1 < t + c.dmaTxSize.toNat) :
    ∃ as s', Run (sentStep c) ShortSent s as s' ∧
      TxSettled c s' t (h + 1) (Function.update marked (c.txEntry (BitVec.ofNat 32 h)) true) n := by
  have w := st.window
  have hav := w.avail
  have hle := w.le
  obtain ⟨as, s', run, hsent⟩ := exists_oneSent hd (s := s) (by omega)
  obtain ⟨p, hring, hown, hlast⟩ := hsent.ring
  obtain ⟨skb, hframes⟩ := hsent.frames
  refine ⟨as, s', run, ⟨hsent.dirty.trans w.dirty, ?_, Nat.le_succ_of_le hle, hroom⟩, ?_, ?_, ?_,
    ?_, fun f hf => ?_, ?_⟩
  · rw [hsent.cur, w.cur, Ring.ofNat_succ]
  · rw [hring, w.cur]
    exact st.ring.update _ hown hlast
  · rw [hframes, List.length_append, st.frames]
    rfl
  · rw [hsent.queued, st.queued]
  · rw [hsent.reclaimed, st.reclaimed]
  · rw [hframes] at hf
    rcases List.mem_append.mp hf with hf | hf
    · exact Nat.lt_succ_of_lt (st.below f hf)
    · rw [List.mem_singleton.mp hf, st.queued]
      exact Nat.lt_succ_self h
  · rw [hsent.counts]
    exact st.counted

include hd in
/-- A round reclaims the oldest slot, and counts a frame if the slot is marked. -/
theorem round (st : TxSettled c s t h marked n) (hg : txCleanGuard c s.tx = true) :
    TxSettled c (s.round c) (t + 1) h
      (Function.update marked (c.txEntry (BitVec.ofNat 32 t)) false)
      (n + if marked (c.txEntry (BitVec.ofNat 32 t)) then 1 else 0) := by
  have w := st.window
  have hentry : c.txEntry s.tx.dirtyTx = c.txEntry (BitVec.ofNat 32 t) := by rw [w.dirty]
  have hring : (s.round c).tx.ring = Function.update s.tx.ring (c.txEntry (BitVec.ofNat 32 t))
      (c.reclaimSlot (s.tx.ring (c.txEntry (BitVec.ofNat 32 t)))) := by
    rw [← hentry]
    exact txCleanBody_ring
  refine ⟨w.clean hg, ?_, st.frames, st.queued, ?_, st.below, ?_⟩
  · rw [hring]
    refine st.ring.update _ ((hd ▸ ndescOps_lawful : c.desc.Lawful).txOwner_release _ _) ?_
    have hclear := (reclaimSlot_clear hd (s.tx.ring (c.txEntry (BitVec.ofNat 32 t)))).1
    simpa [hd, ndescOps, ndescGetTxLs] using hclear
  · rw [← st.reclaimed]
    simp [SentState.round]
  · rw [round_counts hd rfl, hentry, st.ring.last, ← st.counted]
    cases marked (c.txEntry (BitVec.ofNat 32 t))
    · rfl
    · rw [if_pos rfl, if_pos rfl, countFrame_total]

include hd in
/-- `stmmac_tx_clean` reclaims everything; `m j` and `k j` describe the ring after `j` rounds. -/
theorem clean {m : Nat → Nat → Bool} {k : Nat → Nat} {r : Nat}
    (hm : ∀ j < r, m (j + 1) = Function.update (m j) (c.txEntry (BitVec.ofNat 32 (t + j))) false)
    (hk : ∀ j < r, k (j + 1) = k j + if m j (c.txEntry (BitVec.ofNat 32 (t + j))) then 1 else 0)
    (st : TxSettled c s t (t + r) (m 0) (k 0)) :
    TxSettled c (s.txClean c) (t + r) (t + r) (m r) (k r) := by
  obtain ⟨j, hj, hend⟩ := SentState.clean_invariant
    (I := fun s => ∃ j ≤ r, TxSettled c s (t + j) (t + r) (m j) (k j))
    (fun ⟨j, hj, st⟩ hsame => ⟨j, hj, st.congr hsame⟩)
    (fun ⟨j, hj, st⟩ hg => by
      have hlt := st.window.lt_of_guard hg
      refine ⟨j + 1, by omega, ?_⟩
      rw [hm j (by omega), hk j (by omega)]
      exact st.round hd hg)
    ⟨0, Nat.zero_le r, st⟩
  obtain rfl : j = r := by
    by_contra hne
    have hexit : txCleanGuard c (s.txClean c).tx = false := stmmacTxClean_exit
    have hgo : txCleanGuard c (s.txClean c).tx = true := by
      refine txCleanGuard_iff.mpr ⟨fun he => ?_, hend.ring.idle _⟩
      have := hend.window.dirty_eq_cur_iff.mp he
      omega
    rw [hexit] at hgo
    cases hgo
  exact hend

end TxSettled

/-! ## The run -/

section Runs

variable (hd : c.desc = ndescOps)

include hd in
/-- Frames sent and reclaimed one by one. -/
theorem exists_rested (hN : 1 < c.dmaTxSize.toNat) (k : Nat) :
    ∃ as s, Run (sentStep c) ShortSent (.start c) as s ∧ TxSettled c s k k (fun _ => false) k := by
  induction k with
  | zero =>
    have hring : RingMarks c (TxState.idle c).ring fun _ => false :=
      ⟨fun i => (hd ▸ ndescOps_lawful : c.desc.Lawful).txOwner_init _ _ _,
        fun i => (idle_vacant hd i).last⟩
    exact ⟨[], .start c, .nil _, ⟨rfl, rfl, Nat.le_refl 0, by omega⟩, hring, rfl, rfl, rfl,
      fun f hf => absurd hf List.not_mem_nil, rfl⟩
  | succ k ih =>
    obtain ⟨as, s, run, st⟩ := ih
    obtain ⟨bs, s', run', st'⟩ := st.send hd (by omega)
    let m (j : Nat) : Nat → Bool :=
      if j = 0 then Function.update (fun _ => false) (c.txEntry (BitVec.ofNat 32 k)) true
      else fun _ => false
    have hclean := TxSettled.clean hd (r := 1) (m := m) (k := (k + ·)) (fun j hj => ?_)
      (fun j hj => ?_) st'
    · exact ⟨_, _, (run.append run').append (.cons (a := TxAct.txClean) trivial rfl (.nil _)),
        hclean⟩
    · obtain rfl : j = 0 := by omega
      simp [m]
    · obtain rfl : j = 0 := by omega
      simp [m]

include hd in
/-- From counter `k` on, `r` slots are filled in order, and then the first one again. -/
theorem exists_lapped {k r : Nat} (hr : r + 1 < c.dmaTxSize.toNat)
    (hentry : ∀ i < r, c.txEntry (BitVec.ofNat 32 (k + i)) = i)
    {s : SentState} (st : TxSettled c s k k (fun _ => false) k) (i : Nat) (hi : i ≤ r) :
    ∃ as s', Run (sentStep c) ShortSent s as s' ∧
      TxSettled c s' k (k + i) (fun j => decide (j < i)) k := by
  induction i with
  | zero => exact ⟨[], s, .nil s, by simpa using st⟩
  | succ i ih =>
    obtain ⟨as, s', run, st'⟩ := ih (by omega)
    obtain ⟨bs, s'', run', st''⟩ := st'.send hd (by omega)
    refine ⟨_, _, run.append run', ?_⟩
    have hmarked : Function.update (fun j => decide (j < i)) (c.txEntry (BitVec.ofNat 32 (k + i)))
        true = fun j => decide (j < i + 1) := by
      funext j
      rw [hentry i (by omega)]
      by_cases hj : j = i
      · simp [hj]
      · rw [Function.update_of_ne hj, decide_eq_decide]
        omega
    rwa [hmarked] at st''

/-- The slots from `j` up to `r`. -/
def marksFrom (r j : Nat) : Nat → Bool := fun i => decide (j ≤ i ∧ i < r)

theorem marksFrom_succ (r j : Nat) :
    marksFrom r (j + 1) = Function.update (marksFrom r j) j false := by
  funext i
  by_cases hi : i = j
  · simp [marksFrom, hi]
  · rw [Function.update_of_ne hi]
    simp only [marksFrom, decide_eq_decide]
    omega

theorem marksFrom_of_le {r j : Nat} (hj : r ≤ j) : marksFrom r j = fun _ => false := by
  funext i
  simp only [marksFrom, decide_eq_false_iff_not]
  omega

include hd in
/-- One frame more was sent than counted, and every descriptor is reclaimed. -/
theorem exists_uncounted {k r : Nat} (hr : 0 < r) (hN : r + 1 < c.dmaTxSize.toNat)
    (hentry : ∀ i < r, c.txEntry (BitVec.ofNat 32 (k + i)) = i)
    (hwrap : c.txEntry (BitVec.ofNat 32 (k + r)) = 0) :
    ∃ as s, Run (sentStep c) ShortSent (.start c) as s ∧
      TxSettled c s (k + (r + 1)) (k + (r + 1)) (fun _ => false) (k + r) := by
  obtain ⟨as, s, run, st⟩ := exists_rested hd (by omega) k
  obtain ⟨bs, s', run', st'⟩ := exists_lapped hd hN hentry st r (Nat.le_refl r)
  obtain ⟨ds, s'', run'', st''⟩ := st'.send hd (by omega)
  have hstart : Function.update (fun j => decide (j < r)) (c.txEntry (BitVec.ofNat 32 (k + r)))
      true = marksFrom r 0 := by
    funext i
    rw [hwrap]
    by_cases hi : i = 0
    · simp [marksFrom, hi, hr]
    · simp [marksFrom, hi]
  rw [hstart] at st''
  -- the last round finds slot 0 again, without its mark
  have hclean := TxSettled.clean hd (r := r + 1) (m := marksFrom r) (k := fun j => k + min j r)
    (fun j hj => ?_) (fun j hj => ?_) (by simpa [Nat.add_assoc] using st'')
  · refine ⟨_, _, ((run.append run').append run'').append
      (.cons (a := TxAct.txClean) trivial rfl (.nil _)), ?_⟩
    simpa [marksFrom_of_le (Nat.le_succ r)] using hclean
  · rcases Nat.lt_or_ge j r with hjr | hjr
    · rw [hentry j hjr, marksFrom_succ]
    · obtain rfl : j = r := by omega
      rw [hwrap, marksFrom_of_le (Nat.le_succ j), marksFrom_of_le (Nat.le_refl j)]
      simp
  · rcases Nat.lt_or_ge j r with hjr | hjr
    · rw [hentry j hjr, if_pos (by simp [marksFrom, hjr])]
      omega
    · obtain rfl : j = r := by omega
      rw [marksFrom_of_le (Nat.le_refl j), if_neg Bool.false_ne_true]
      omega

theorem TxSettled.not_counted {k W : Nat} (st : TxSettled c s h h marked k) (hk : h = k + 1)
    (hW : 2 ≤ W) : ¬ Counted W s := by
  intro hc
  have hframes := hc.frames
  have hzero : s.frames.countP (fun f => s.reclaimed.length ≤ f.last) = 0 := by
    refine List.countP_eq_zero.mpr fun f hf => ?_
    have := st.below f hf
    rw [st.reclaimed]
    simpa using this
  have hcounted : s.tx.stats.dev.txPackets + s.tx.stats.dev.txErrors = k := st.counted
  rw [hzero, hcounted, st.frames, hk, Nat.add_zero] at hframes
  have hone : W ∣ k + 1 - k := (Nat.modEq_iff_dvd' (Nat.le_succ k)).mp hframes.symm
  rw [Nat.add_sub_cancel_left] at hone
  have := Nat.le_of_dvd Nat.one_pos hone
  omega

include hd in
/-- In a ring of an even size that is not a power of two some run counts a frame too few. -/
theorem exists_miscounted (hpos : 0 < c.dmaTxSize.toNat) (heven : 2 ∣ c.dmaTxSize.toNat)
    (hnot : ¬ IsPow2 c.dmaTxSize) {W : Nat} (hW : 2 ≤ W) :
    ∃ as s, Run (sentStep c) ShortSent (.start c) as s ∧ ¬ Counted W s := by
  generalize hN : c.dmaTxSize.toNat = N at hpos heven
  have hsize : N < 2 ^ 32 := hN ▸ c.dmaTxSize.isLt
  -- the last multiple of the size before the wrap, and what is left from there
  obtain ⟨k, r, hkr, hk, hr⟩ : ∃ k r, k + r = 2 ^ 32 ∧ k % N = 0 ∧ r = 2 ^ 32 % N := by
    refine ⟨N * (2 ^ 32 / N), 2 ^ 32 % N, Nat.div_add_mod _ _, ?_, rfl⟩
    exact Nat.mul_mod_right _ _
  have hlt : r < N := hr ▸ Nat.mod_lt _ hpos
  have hr0 : r ≠ 0 := by
    intro h0
    apply hnot
    rw [isPow2_iff_dvd, hN]
    exact Nat.dvd_of_mod_eq_zero (hr ▸ h0)
  have hr2 : 2 ∣ r := hr ▸ (Nat.dvd_mod_iff heven).mpr (by decide)
  have hentry : ∀ i < r, c.txEntry (BitVec.ofNat 32 (k + i)) = i := by
    intro i hi
    rw [txEntry_ofNat_mod, hN, Nat.mod_eq_of_lt (by omega : k + i < 2 ^ 32), Nat.add_mod, hk,
      Nat.zero_add, Nat.mod_mod, Nat.mod_eq_of_lt (by omega)]
  have hwrap : c.txEntry (BitVec.ofNat 32 (k + r)) = 0 := by
    rw [txEntry_ofNat_mod, hkr, Nat.mod_self, Nat.zero_mod]
  obtain ⟨as, s, run, st⟩ := exists_uncounted hd (by omega) (by omega) hentry hwrap
  exact ⟨as, s, run, st.not_counted (by omega) hW⟩

end Runs

/-- `stmmac_open` makes the size a multiple of a cache line. -/
theorem two_dvd_stmmacAlign {line x : BitVec 32} (hline : 2 ∣ line.toNat) :
    2 ∣ (stmmacAlign line x).toNat := by
  have hodd : (line - 1).toNat % 2 = 1 := by
    show (2 ^ 32 - 1 + line.toNat) % 2 ^ 32 % 2 = 1
    omega
  have hbit : (stmmacAlign line x).toNat.testBit 0 = false := by
    rw [stmmacAlign, BitVec.toNat_and, Nat.testBit_and, BitVec.testBit_toNat (~~~(line - 1)),
      BitVec.getLsbD_not, ← BitVec.testBit_toNat (line - 1), Nat.testBit_zero, Nat.testBit_zero,
      hodd]
    simp
  rw [Nat.testBit_zero, decide_eq_false_iff_not] at hbit
  omega

/-- Every frame is counted once in every run exactly if the size of the ring is a power of two. -/
theorem frames_counted_iff {line x : BitVec 32} (hd : c.desc = ndescOps)
    (hsize : c.dmaTxSize = stmmacAlign line x) (hline : 2 ∣ line.toNat)
    (hpos : 0 < c.dmaTxSize.toNat) {W : Nat} (hW : 2 ≤ W) :
    (∀ as s, Run (sentStep c) ShortSent (.start c) as s → Counted W s) ↔ IsPow2 c.dmaTxSize := by
  constructor
  · intro h
    by_contra hnot
    obtain ⟨as, s, run, hbad⟩ :=
      exists_miscounted hd hpos (hsize ▸ two_dvd_stmmacAlign hline) hnot hW
    exact hbad (h as s run)
  · intro hp as s run
    exact counted_of_isPow2 hd hp run W

theorem frames_counted_iff_256 :
    (∀ as s, Run (sentStep (.normal (stmmacAlign 64 256))) ShortSent
        (.start (.normal (stmmacAlign 64 256))) as s → Counted (2 ^ 32) s) ↔
      IsPow2 (stmmacAlign 64 256) :=
  frames_counted_iff (c := .normal (stmmacAlign 64 256)) rfl rfl (by decide) (by decide)
    (by decide)

/-- Three cache lines of slots: after `2 ^ 32 + 1` frames one is missing in the counters. -/
theorem frame_uncounted_192 :
    ∃ as s, Run (sentStep (.normal (stmmacAlign 64 192))) ShortSent
        (.start (.normal (stmmacAlign 64 192))) as s ∧ ¬ Counted (2 ^ 32) s := by
  refine exists_miscounted (c := .normal (stmmacAlign 64 192)) rfl (by decide) (by decide) ?_
    (by decide)
  rw [isPow2_iff_dvd]
  decide

end Stmmac
