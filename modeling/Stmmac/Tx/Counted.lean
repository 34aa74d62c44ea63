import Mathlib.Data.Nat.ModEq
import Stmmac.Tx.Sent

/-!
# Transmit side: the counters of sent frames

`stmmac_tx_clean` counts a frame when it reclaims a descriptor that carries `last_segment`. In a
ring whose size is a power of two this counts every frame once. In any other ring the slots of a
window overlap when the 32-bit counters wrap: a frame overwrites the last descriptor of another
one, and only one of the two is counted.
-/

namespace Stmmac

open Library

/-- The last descriptor of the frame was reclaimed with `error_summary` set. -/
def SentFrame.failed (reclaimed : List TxSlot) (f : SentFrame) : Bool :=
  match reclaimed[f.last]? with
  | some p => p.desc.des01.test Tx.errorSummary
  | none => false

/-- Each frame accepted is counted once, or its last descriptor is not reclaimed yet; `W` is the
number of values of a counter. -/
structure Counted (W : Nat) (s : SentState) : Prop where
  frames : s.frames.length ≡ s.tx.stats.dev.txPackets + s.tx.stats.dev.txErrors +
    s.frames.countP (fun f => s.reclaimed.length ≤ f.last) [MOD W]
  errors : s.tx.stats.dev.txErrors ≡ s.frames.countP (·.failed s.reclaimed) [MOD W]
  pktN : s.tx.stats.xstats.txPktN ≡ s.tx.stats.dev.txPackets [MOD W]

/-- Frames of `stmmac_xmit` with short segments, and write-backs of the status word. -/
def ShortSent (s : SentState) (a : TxAct) : Prop := ShortFrames s.tx a

instance (s : SentState) (a : TxAct) : Decidable (ShortSent s a) :=
  inferInstanceAs (Decidable (ShortFrames s.tx a))

variable {c : Conf} {s s' : SentState} {a : TxAct} {tx : TxState} {W : Nat}

/-! ## What the calls do to the counters -/

theorem ndescGetTxStatus_counts (s : Stats) (p : Des01) :
    (ndescGetTxStatus s p).1.txCounts = s.txCounts := by
  have hkeep : ∀ {b : Bool} {x y : Stats}, x.txCounts = y.txCounts →
      (if b then x else y).txCounts = y.txCounts := by
    intro b x y h
    cases b
    · rfl
    · exact h
  refine Eq.trans (hkeep ?_) (Eq.trans (hkeep ?_) (hkeep ?_))
  · rfl
  · rfl
  · refine Eq.trans (hkeep ?_) (Eq.trans (hkeep ?_) (Eq.trans (hkeep ?_) (hkeep ?_)))
    all_goals rfl

/-- The counters after one more frame. -/
def countFrame (err : Bool) : Nat × Nat × Nat → Nat × Nat × Nat
  | (packets, errors, pktN) =>
    if err then (packets, errors + 1, pktN) else (packets + 1, errors, pktN + 1)

theorem countFrame_total (err : Bool) (x : Nat × Nat × Nat) :
    (countFrame err x).1 + (countFrame err x).2.1 = x.1 + x.2.1 + 1 := by
  cases err
  · exact Nat.add_right_comm _ _ _
  · rfl

theorem txLastStats_counts (hd : c.desc = ndescOps) (s : Stats) (p : TxSlot) :
    (txLastStats c s p).txCounts = countFrame (p.desc.des01.test Tx.errorSummary) s.txCounts := by
  have hcounts := ndescGetTxStatus_counts s p.desc.des01
  have hret : (ndescGetTxStatus s p.desc.des01).2 = p.desc.des01.test Tx.errorSummary := rfl
  unfold txLastStats
  simp only [hd, ndescOps, ← hret, ← hcounts]
  generalize ndescGetTxStatus s p.desc.des01 = x
  obtain ⟨x, err⟩ := x
  cases err <;> rfl

section Xmit

variable (entry : Nat) (n : BitVec 32) (skb : TxSkb)

theorem xmitExitLpi_stats : (xmitExitLpi tx).stats = tx.stats := by
  unfold xmitExitLpi
  split <;> rfl

theorem xmitFrags_stats (csum : Bool) (segs : List (BitVec 32 × BitVec 32)) :
    (xmitFrags c csum segs tx).stats = tx.stats := by
  induction segs generalizing tx with
  | nil => rfl
  | cons seg segs ih => exact ih

theorem txCoalesce_counts : (txCoalesce c entry n tx).stats.txCounts = tx.stats.txCounts := by
  unfold txCoalesce
  dsimp only
  split <;> rfl

theorem xmitStopQueue_stats : (xmitStopQueue c tx).stats = tx.stats := by
  unfold xmitStopQueue
  split <;> rfl

theorem addTxBytes_counts : (tx.addTxBytes n).stats.txCounts = tx.stats.txCounts := rfl

theorem xmitTimestamp_stats : (xmitTimestamp c skb entry tx).stats = tx.stats := by
  unfold xmitTimestamp
  dsimp only
  split_ifs <;> rfl

theorem stmmacXmit_counts {skb : TxSkb} {dma : Nat → BitVec 32} :
    (stmmacXmit c tx skb dma).1.stats.txCounts = tx.stats.txCounts := by
  unfold stmmacXmit
  dsimp only
  split
  · rfl
  · simp only [TxState.call_stats, xmitTimestamp_stats, addTxBytes_counts, xmitStopQueue_stats,
      TxState.modify_stats, txCoalesce_counts, xmitFrags_stats, xmitExitLpi_stats]

end Xmit

theorem round_counts (hd : c.desc = ndescOps) {p : TxSlot}
    (hp : s.tx.ring (c.txEntry s.tx.dirtyTx) = p) :
    (s.round c).tx.stats.txCounts =
      if c.desc.getTxLs p.desc.des01 then
        countFrame (p.desc.des01.test Tx.errorSummary) s.tx.stats.txCounts
      else s.tx.stats.txCounts := by
  simp only [SentState.round, txCleanBody_eq, hp]
  split
  · exact txLastStats_counts hd _ _
  · rfl

/-! ## Rings whose size is a power of two -/

/-- The counters of the frames `done`. -/
def frameCounts (reclaimed : List TxSlot) (done : List SentFrame) : Nat × Nat × Nat :=
  (done.countP fun f => !f.failed reclaimed, done.countP (·.failed reclaimed),
    done.countP fun f => !f.failed reclaimed)

section FrameCounts

variable {reclaimed : List TxSlot} {done : List SentFrame}

theorem frameCounts_snoc (f : SentFrame) :
    frameCounts reclaimed (done ++ [f]) =
      countFrame (f.failed reclaimed) (frameCounts reclaimed done) := by
  cases hf : f.failed reclaimed <;> simp [frameCounts, countFrame, hf]

/-- What is reclaimed later does not change the verdict on a frame. -/
theorem frameCounts_append (hpast : ∀ f ∈ done, f.last < reclaimed.length) (p : TxSlot) :
    frameCounts (reclaimed ++ [p]) done = frameCounts reclaimed done := by
  have hfailed : ∀ f ∈ done, f.failed (reclaimed ++ [p]) = f.failed reclaimed := by
    intro f hf
    simp [SentFrame.failed, List.getElem?_append_left (hpast f hf)]
  have hbad : done.countP (·.failed (reclaimed ++ [p])) = done.countP (·.failed reclaimed) :=
    List.countP_congr fun f hf => by rw [hfailed f hf]
  have hgood : (done.countP fun f => !f.failed (reclaimed ++ [p])) =
      done.countP fun f => !f.failed reclaimed :=
    List.countP_congr fun f hf => by rw [hfailed f hf]
  rw [frameCounts, hbad, hgood, frameCounts]

end FrameCounts

/-- The frames counted are those whose last descriptor is reclaimed. -/
structure CountInv (c : Conf) (s : SentState) (done pending : List SentFrame) : Prop where
  sent : SentInv c s done pending
  counts : s.tx.stats.txCounts = frameCounts s.reclaimed done

namespace CountInv

variable {done pending : List SentFrame}

theorem counted (inv : CountInv c s done pending) (W : Nat) : Counted W s := by
  have hcounts := inv.counts
  simp only [Stats.txCounts, frameCounts, Prod.mk.injEq] at hcounts
  obtain ⟨hpackets, herrors, hpktN⟩ := hcounts
  have hpast : ∀ f ∈ done, ¬ s.reclaimed.length ≤ f.last := fun f hf =>
    Nat.not_le.mpr (inv.sent.past f hf)
  have hlast := inv.sent.pending.le_last
  have hwaiting : s.frames.countP (fun f => s.reclaimed.length ≤ f.last) = pending.length := by
    rw [inv.sent.split, List.countP_append, List.countP_eq_zero.mpr, List.countP_eq_length.mpr,
      Nat.zero_add]
    · simpa using hlast
    · simpa using hpast
  have hfailed : s.frames.countP (·.failed s.reclaimed) = done.countP (·.failed s.reclaimed) := by
    have hzero : pending.countP (·.failed s.reclaimed) = 0 := by
      refine List.countP_eq_zero.mpr fun f hf => ?_
      simp [SentFrame.failed, List.getElem?_eq_none (hlast f hf)]
    rw [inv.sent.split, List.countP_append, hzero, Nat.add_zero]
  have htotal : done.length = done.countP (·.failed s.reclaimed) +
      done.countP fun f => !f.failed s.reclaimed := by
    simpa using List.length_eq_countP_add_countP (·.failed s.reclaimed) (l := done)
  refine ⟨?_, ?_, ?_⟩
  · rw [hwaiting, hpackets, herrors, inv.sent.split, List.length_append, htotal]
    exact congrArg (· % W) (by omega)
  · rw [herrors, hfailed]
  · rw [hpktN, hpackets]

theorem congr (inv : CountInv c s done pending) (hsame : SameSent s.tx tx) :
    CountInv c { s with tx := tx } done pending :=
  ⟨inv.sent.congr hsame.toSameRing, hsame.counts.trans inv.counts⟩

section

variable (hd : c.desc = ndescOps) (hp : IsPow2 c.dmaTxSize)

include hd hp in
/-- A frame is counted when the round reclaims its last descriptor. -/
theorem round (inv : CountInv c s done pending) (hg : txCleanGuard c s.tx = true) :
    ∃ done' pending', CountInv c (s.round c) done' pending' := by
  generalize hslot : s.tx.ring (c.txEntry s.tx.dirtyTx) = p
  have hcounts := round_counts hd hslot
  have hreclaimed : (s.round c).reclaimed = s.reclaimed ++ [p] := by simp [SentState.round, hslot]
  have hold := frameCounts_append inv.sent.past p
  rcases inv.sent.round hd hp hg with ⟨f, fs, rfl, hlast, hf, hsent⟩ | ⟨hplain, hsent⟩
  · refine ⟨done ++ [f], fs, hsent, ?_⟩
    have hfailed : f.failed (s.reclaimed ++ [p]) = p.desc.des01.test Tx.errorSummary := by
      simp [SentFrame.failed, hlast]
    rw [hslot] at hf
    rw [hcounts, if_pos hf.last, inv.counts, hreclaimed, frameCounts_snoc, hold, hfailed]
  · refine ⟨done, pending, hsent, ?_⟩
    rw [hslot] at hplain
    rw [hcounts, hplain, if_neg Bool.false_ne_true, inv.counts, hreclaimed, hold]

include hd hp in
theorem step (inv : CountInv c s done pending) (hok : ShortSent s a)
    (hs : sentStep c s a = some s') : ∃ done' pending', CountInv c s' done' pending' := by
  cases a with
  | xmit skb dma =>
    by_cases hfit : XmitFits c s.tx skb
    · rw [sentStep_xmit hfit] at hs
      obtain rfl := Option.some.inj hs
      exact ⟨done, _, inv.sent.xmit hd hp hfit, stmmacXmit_counts.trans inv.counts⟩
    · rw [sentStep_refused hfit] at hs
      obtain rfl := Option.some.inj hs
      exact ⟨done, pending, inv.congr ⟨⟨rfl, rfl, rfl, .inl rfl⟩, rfl⟩⟩
  | rtl8211Xmit length addr => exact absurd hok id
  | txClean =>
    obtain rfl := Option.some.inj hs
    exact SentState.clean_invariant (I := fun s => ∃ done pending, CountInv c s done pending)
      (fun ⟨_, _, inv⟩ hsame => ⟨_, _, inv.congr hsame⟩)
      (fun ⟨_, _, inv⟩ hg => inv.round hd hp hg) ⟨done, pending, inv⟩
  | complete entry desc =>
    obtain ⟨tx, htx, rfl⟩ := Option.map_eq_some_iff.mp hs
    refine ⟨done, pending, inv.sent.complete hd hok.des1 htx, ?_⟩
    obtain ⟨-, -, rfl⟩ := txComplete_eq htx
    exact inv.counts
  | txErr => cases hs

end

end CountInv

/-- Every frame is counted once. -/
theorem counted_of_isPow2 {as : List TxAct} (hd : c.desc = ndescOps) (hp : IsPow2 c.dmaTxSize)
    (run : Run (sentStep c) ShortSent (.start c) as s) (W : Nat) : Counted W s := by
  obtain ⟨done, pending, inv⟩ := run.invariant
    (I := fun s => ∃ done pending, CountInv c s done pending)
    (fun ⟨_, _, inv⟩ hok hs => inv.step hd hp hok hs) ⟨[], [], .start hd hp, rfl⟩
  exact inv.counted W

end Stmmac
