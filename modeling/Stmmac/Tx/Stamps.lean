import Stmmac.Tx.Sent

/-!
# Transmit side: time stamps

`stmmac_tx_clean` asks for the time stamp of a frame when it reclaims the last descriptor of the
frame, and passes the skb it finds in that slot. `stmmac_xmit` stores the skb in the slot of the
first descriptor, and `rtl8211_xmit` stores none. So a time stamp reaches its frame exactly when
the frame has one descriptor and an skb; for any other frame `stmmac_get_tx_hwtstamp` is called
with `NULL`. With extended descriptors the code reads `dma_tx`, which is `NULL` then, so the results
are about normal ones.
-/

namespace Stmmac

open Library

/-- The time stamps passed to the stack. -/
def stamps (trace : List TxCall) : List (Nat × BitVec 64) :=
  trace.filterMap fun
    | .skbTstampTx id ns => some (id, ns)
    | _ => none

/-- The time stamp due to a frame: it asked for one, and its last descriptor reports one. -/
def SentFrame.stamp (c : Conf) (reclaimed : List TxSlot) (f : SentFrame) :
    Option (Nat × BitVec 64) :=
  match f.skb, reclaimed[f.last]? with
  | some skb, some p =>
    if (skb.hwTstamp || skb.inProgress) && c.desc.getTxTimestampStatus p.desc.des01 then
      some (skb.id, c.desc.getTimestamp p.desc c.advTs)
    else none
  | _, _ => none

/-- `stmmac_get_tx_hwtstamp` is called for the slots reclaimed with `last_segment`, with the skb
found there. That is the skb of the frame, and each time stamp due is passed on once, in order. -/
structure StampsRight (c : Conf) (s : SentState) : Prop where
  call : ∀ l p, s.reclaimed[l]? = some p → c.desc.getTxLs p.desc.des01 = true →
    ∃ f ∈ s.frames, f.last = l ∧ ∃ skb, p.skb = some skb ∧ f.skb.map TxSkb.id = some skb.id
  once : stamps s.tx.trace = s.frames.filterMap (·.stamp c s.reclaimed)

/-- No last descriptor that is to be reclaimed lacks an skb. -/
def LastHasSkb (c : Conf) (s : TxState) : Prop :=
  ∀ k < s.inFlight, (∀ j ≤ k, c.txOwned (s.ring (s.flightSlot c j)) = false) →
    c.desc.getTxLs (s.ring (s.flightSlot c k)).desc.des01 = true →
      (s.ring (s.flightSlot c k)).skb.isSome = true

/-- `stmmac_tx_clean` finds the skb of each frame in the slot of its last descriptor. -/
def CleanFindsSkb (c : Conf) (s : SentState) : TxAct → Prop
  | .txClean => LastHasSkb c s.tx
  | _ => True

instance (c : Conf) (s : TxState) : Decidable (LastHasSkb c s) :=
  inferInstanceAs (Decidable (∀ k < s.inFlight, _ → _ → _))

instance (c : Conf) (s : SentState) : ∀ a, Decidable (CleanFindsSkb c s a)
  | .txClean => inferInstanceAs (Decidable (LastHasSkb c s.tx))
  | .xmit _ _ | .rtl8211Xmit _ _ | .txErr | .complete _ _ => inferInstanceAs (Decidable True)

variable {c : Conf} {s s' : SentState} {a : TxAct} {tx : TxState} {t h : Nat}

/-! ## The slots that a call reclaims -/

/-- What a call logs are the slots it moves `dirty_tx` past. -/
theorem txCleanLog_cleaned (hp : IsPow2 c.dmaTxSize) (w : TxWindow c tx t h) :
    ∃ t', TxCleaned c tx (stmmacTxClean c tx) t t' h ∧
      ∀ p, p ∈ txCleanLog c tx ↔ ∃ k, t ≤ k ∧ k < t' ∧ p = tx.ring (k % c.dmaTxSize.toNat) := by
  refine SentState.clean_invariant (s := ⟨tx, [], 0, []⟩)
    (I := fun s => ∃ t', TxCleaned c tx s.tx t t' h ∧
      ∀ p, p ∈ s.reclaimed ↔ ∃ k, t ≤ k ∧ k < t' ∧ p = tx.ring (k % c.dmaTxSize.toNat)) ?_ ?_ ?_
  · rintro s tx' ⟨t', f, hmem⟩ hsame
    exact ⟨t', f.congr hsame.toSameRing, hmem⟩
  · rintro s ⟨t', f, hmem⟩ hg
    have hslot : s.tx.ring (c.txEntry s.tx.dirtyTx) = tx.ring (t' % c.dmaTxSize.toNat) := by
      rw [f.window.entry_dirty hp]
      exact f.kept t' (Nat.le_refl t') (f.window.lt_of_guard hg)
    refine ⟨t' + 1, f.round hp hg, fun p => ?_⟩
    simp only [SentState.round, List.mem_append, List.mem_singleton, hmem, hslot]
    constructor
    · rintro (⟨k, hk, hk', he⟩ | he)
      · exact ⟨k, hk, Nat.lt_succ_of_lt hk', he⟩
      · exact ⟨t', f.le, Nat.lt_succ_self t', he⟩
    · rintro ⟨k, hk, hk', he⟩
      rcases Nat.lt_succ_iff_lt_or_eq.mp hk' with hkt | rfl
      · exact .inl ⟨k, hk, hkt, he⟩
      · exact .inr he
  · refine ⟨t, w.cleaned_start, fun p => ⟨fun hmem => absurd hmem List.not_mem_nil, ?_⟩⟩
    rintro ⟨k, hk, hk', -⟩
    omega

/-- `stmmac_tx_clean` reclaims the completed descriptors up to the first one the DMA owns. -/
theorem mem_txCleanLog (hp : IsPow2 c.dmaTxSize) (w : TxWindow c tx t h) (p : TxSlot) :
    p ∈ txCleanLog c tx ↔ ∃ k < tx.inFlight,
      (∀ j ≤ k, c.txOwned (tx.ring (tx.flightSlot c j)) = false) ∧
        p = tx.ring (tx.flightSlot c k) := by
  obtain ⟨t', f, hmem⟩ := txCleanLog_cleaned hp w
  have hle := f.le
  have hle' := f.window.le
  rw [hmem, w.inFlight]
  constructor
  · rintro ⟨k, hk, hk', rfl⟩
    refine ⟨k - t, by omega, fun j hj => ?_, ?_⟩
    · rw [w.flightSlot hp]
      exact f.done _ (by omega) (by omega)
    · rw [w.flightSlot hp, show t + (k - t) = k by omega]
  · rintro ⟨k, hk, hown, rfl⟩
    refine ⟨t + k, by omega, ?_, by rw [w.flightSlot hp]⟩
    by_contra hlt
    have hstop := f.stopped hp stmmacTxClean_exit (by omega)
    have hidle := hown (t' - t) (by omega)
    rw [w.flightSlot hp, show t + (t' - t) = t' by omega, hstop] at hidle
    cases hidle

/-- Every reclaimed slot with `last_segment` has an skb. -/
def SkbFound (c : Conf) (reclaimed : List TxSlot) : Prop :=
  ∀ p ∈ reclaimed, c.desc.getTxLs p.desc.des01 = true → p.skb.isSome = true

theorem lastHasSkb_iff (hp : IsPow2 c.dmaTxSize) (w : TxWindow c tx t h) :
    LastHasSkb c tx ↔ SkbFound c (txCleanLog c tx) := by
  constructor
  · intro hok p hmem
    obtain ⟨k, hk, hown, rfl⟩ := (mem_txCleanLog hp w p).mp hmem
    exact hok k hk hown
  · intro hfound k hk hown
    exact hfound _ ((mem_txCleanLog hp w _).mpr ⟨k, hk, hown, rfl⟩)

/-! ## The invariant -/

/-- The time stamp that a round passes on for the slot it reclaims, if it is a last one. -/
def slotStamp (c : Conf) (p : TxSlot) : Option (Nat × BitVec 64) :=
  p.skb.bind fun skb =>
    if skb.inProgress && c.desc.getTxTimestampStatus p.desc.des01 then
      some (skb.id, c.desc.getTimestamp p.desc c.advTs)
    else none

theorem stamps_append (l l' : List TxCall) : stamps (l ++ l') = stamps l ++ stamps l' :=
  List.filterMap_append

theorem SameRing.stamps_eq {tx' : TxState} (hsame : SameRing tx tx') :
    stamps tx'.trace = stamps tx.trace := by
  rcases hsame.trace with htr | htr <;> simp [htr, stamps]

theorem stamps_xmitCalls (skb : TxSkb) (dma : Nat → BitVec 32) :
    stamps (xmitCalls c tx skb dma) = [] := by
  unfold stamps xmitCalls
  cases tx.txPathInLpiMode <;> cases c.hwtsTxEn <;> simp

theorem stamps_reclaimCalls (hts : c.hwtsTxEn = true) (hring : c.stampRing = true)
    (r : Nat → TxSlot) (p : TxSlot) : stamps (c.reclaimCalls r p) =
      if c.desc.getTxLs p.desc.des01 then (slotStamp c p).toList else [] := by
  have hunmap : stamps (c.unmapCalls p) = [] := by
    unfold stamps Conf.unmapCalls
    split <;> simp
  have hfree : stamps (c.freeCalls r p) = [] := by
    unfold stamps Conf.freeCalls
    split <;> simp
  have hstamp : stamps (c.hwtstampCalls p) = (slotStamp c p).toList := by
    unfold stamps Conf.hwtstampCalls slotStamp
    rw [if_pos hts]
    cases p.skb with
    | none => rfl
    | some skb =>
      dsimp only [Option.bind_some]
      rw [hring]
      cases skb.inProgress <;> cases c.desc.getTxTimestampStatus p.desc.des01 <;> rfl
  rw [Conf.reclaimCalls, stamps_append, stamps_append, hunmap, hfree]
  split
  · simp [hstamp]
  · rfl

/-- The slots reclaimed with `last_segment` are those of the frames `done`. -/
structure Matched (c : Conf) (reclaimed : List TxSlot) (done : List SentFrame) : Prop where
  found : ∀ f ∈ done, ∃ p, reclaimed[f.last]? = some p ∧ LastSlot c f p
  owner : ∀ l p, reclaimed[l]? = some p → c.desc.getTxLs p.desc.des01 = true →
    ∃ f ∈ done, f.last = l

section Matched

variable {reclaimed : List TxSlot} {done : List SentFrame} {f : SentFrame} {p q : TxSlot} {l : Nat}

/-- What is reclaimed later leaves the slot of an older frame alone. -/
theorem Matched.getElem?_append (m : Matched c reclaimed done) (hf : f ∈ done) :
    (reclaimed ++ [p])[f.last]? = reclaimed[f.last]? := by
  obtain ⟨q, hq, -⟩ := m.found f hf
  exact List.getElem?_append_left (List.getElem?_eq_some_iff.mp hq).1

/-- A slot with `last_segment` is an older one, or the one just reclaimed. -/
theorem Matched.owner_append (m : Matched c reclaimed done) (hl : (reclaimed ++ [p])[l]? = some q)
    (hq : c.desc.getTxLs q.desc.des01 = true) :
    (∃ f ∈ done, f.last = l) ∨ l = reclaimed.length ∧ q = p := by
  rcases Nat.lt_or_ge l reclaimed.length with hlt | hge
  · rw [List.getElem?_append_left hlt] at hl
    exact .inl (m.owner l q hl hq)
  · rw [List.getElem?_append_right hge, List.getElem?_singleton] at hl
    split at hl
    · exact .inr ⟨by omega, (Option.some.inj hl).symm⟩
    · cases hl

theorem Matched.plain (m : Matched c reclaimed done)
    (hplain : c.desc.getTxLs p.desc.des01 = false) : Matched c (reclaimed ++ [p]) done := by
  refine ⟨fun f hf => ?_, fun l q hl hq => ?_⟩
  · rw [m.getElem?_append hf]
    exact m.found f hf
  · rcases m.owner_append hl hq with hg | ⟨-, rfl⟩
    · exact hg
    · rw [hplain] at hq
      cases hq

theorem Matched.frame (m : Matched c reclaimed done) (hlast : f.last = reclaimed.length)
    (hf : LastSlot c f p) : Matched c (reclaimed ++ [p]) (done ++ [f]) := by
  refine ⟨fun g hg => ?_, fun l q hl hq => ?_⟩
  · rcases List.mem_append.mp hg with hg | hg
    · rw [m.getElem?_append hg]
      exact m.found g hg
    · rw [List.mem_singleton.mp hg]
      exact ⟨p, by simp [hlast], hf⟩
  · rcases m.owner_append hl hq with ⟨g, hg, he⟩ | ⟨he, -⟩
    · exact ⟨g, List.mem_append_left _ hg, he⟩
    · exact ⟨f, by simp, hlast.trans he.symm⟩

end Matched

/-- The time stamps that the frames `done` got from their last slots. -/
def doneStamps (c : Conf) (reclaimed : List TxSlot) (done : List SentFrame) :
    List (Nat × BitVec 64) :=
  done.filterMap fun f => reclaimed[f.last]?.bind (slotStamp c)

theorem Matched.doneStamps_append {reclaimed : List TxSlot} {done : List SentFrame}
    (m : Matched c reclaimed done) (p : TxSlot) :
    doneStamps c (reclaimed ++ [p]) done = doneStamps c reclaimed done :=
  List.filterMap_congr fun f hf => by rw [m.getElem?_append hf]

/-- Each frame whose last descriptor is reclaimed got the time stamp that its slot allowed. -/
structure StampInv (c : Conf) (s : SentState) (done pending : List SentFrame) : Prop where
  sent : SentInv c s done pending
  matched : Matched c s.reclaimed done
  passed : stamps s.tx.trace = doneStamps c s.reclaimed done

/-- The skb in the slot of the last descriptor is the one of the frame. -/
theorem SentFrame.lastSkb_eq {f : SentFrame} {skb : TxSkb} (hf : f.lastSkb c = some skb) :
    ∃ k, f.skb = some k ∧ skb = c.stampedSkb k := by
  obtain ⟨k, hk, he⟩ := Option.bind_eq_some_iff.mp hf
  refine ⟨k, hk, ?_⟩
  split at he
  · exact (Option.some.inj he).symm
  · cases he

theorem stampedSkb_id (skb : TxSkb) : (c.stampedSkb skb).id = skb.id := by
  unfold Conf.stampedSkb
  split <;> rfl

theorem stampedSkb_inProgress (hts : c.hwtsTxEn = true) (skb : TxSkb) :
    (c.stampedSkb skb).inProgress = (skb.hwTstamp || skb.inProgress) := by
  unfold Conf.stampedSkb
  cases skb.hwTstamp <;> simp [hts]

namespace StampInv

variable {done pending : List SentFrame}

/-- A frame whose skb is in its last slot gets the time stamp it is due. -/
theorem stamp_eq (hts : c.hwtsTxEn = true) (inv : StampInv c s done pending) {f : SentFrame}
    (hf : f ∈ done) (hfound : SkbFound c s.reclaimed) :
    s.reclaimed[f.last]?.bind (slotStamp c) = f.stamp c s.reclaimed := by
  obtain ⟨p, hp, hlast⟩ := inv.matched.found f hf
  have hsome := hfound p (List.mem_of_getElem? hp) hlast.last
  obtain ⟨skb, hskb⟩ := Option.isSome_iff_exists.mp hsome
  obtain ⟨k, hk, rfl⟩ := SentFrame.lastSkb_eq (hlast.skb.symm.trans hskb)
  simp [SentFrame.stamp, hp, hk, slotStamp, hskb, stampedSkb_id, stampedSkb_inProgress hts]

/-- The time stamps are right exactly if every last slot had an skb. -/
theorem right_iff (hts : c.hwtsTxEn = true) (inv : StampInv c s done pending) :
    StampsRight c s ↔ SkbFound c s.reclaimed := by
  constructor
  · intro h p hmem hlast
    obtain ⟨l, hl⟩ := List.mem_iff_getElem?.mp hmem
    obtain ⟨-, -, -, skb, hskb, -⟩ := h.call l p hl hlast
    simp [hskb]
  · intro hfound
    refine ⟨fun l p hl hlast => ?_, ?_⟩
    · obtain ⟨f, hf, rfl⟩ := inv.matched.owner l p hl hlast
      obtain ⟨q, hq, hslot⟩ := inv.matched.found f hf
      obtain rfl : p = q := Option.some.inj (hl.symm.trans hq)
      obtain ⟨skb, hskb⟩ := Option.isSome_iff_exists.mp (hfound p (List.mem_of_getElem? hl) hlast)
      obtain ⟨k, hk, rfl⟩ := SentFrame.lastSkb_eq (hslot.skb.symm.trans hskb)
      refine ⟨f, ?_, rfl, _, hskb, by rw [hk, stampedSkb_id]; rfl⟩
      rw [inv.sent.split]
      exact List.mem_append_left _ hf
    · have hpending : pending.filterMap (·.stamp c s.reclaimed) = [] := by
        refine List.filterMap_eq_nil_iff.mpr fun f hf => ?_
        have hlast := inv.sent.pending.le_last f hf
        unfold SentFrame.stamp
        rw [List.getElem?_eq_none hlast]
        cases f.skb <;> rfl
      rw [inv.passed, inv.sent.split, List.filterMap_append, hpending, List.append_nil, doneStamps]
      exact List.filterMap_congr fun f hf => inv.stamp_eq hts hf hfound

theorem congr (inv : StampInv c s done pending) (hsame : SameRing s.tx tx) :
    StampInv c { s with tx := tx } done pending :=
  ⟨inv.sent.congr hsame, inv.matched, hsame.stamps_eq.trans inv.passed⟩

variable (hd : c.desc = ndescOps) (hp : IsPow2 c.dmaTxSize) (hts : c.hwtsTxEn = true)
  (hring : c.stampRing = true)

include hd hp hts hring in
/-- A round passes on the time stamp of the slot it reclaims. -/
theorem round (inv : StampInv c s done pending) (hg : txCleanGuard c s.tx = true) :
    ∃ done' pending', StampInv c (s.round c) done' pending' := by
  generalize hslot : s.tx.ring (c.txEntry s.tx.dirtyTx) = p
  have hreclaimed : (s.round c).reclaimed = s.reclaimed ++ [p] := by simp [SentState.round, hslot]
  have htrace : stamps (s.round c).tx.trace = doneStamps c (s.reclaimed ++ [p]) done ++
      if c.desc.getTxLs p.desc.des01 then (slotStamp c p).toList else [] := by
    rw [← stamps_reclaimCalls hts hring s.tx.ring p, ← hslot, inv.matched.doneStamps_append,
      ← inv.passed, ← stamps_append]
    exact congrArg stamps txCleanBody_trace
  rcases inv.sent.round hd hp hg with ⟨f, fs, rfl, hlast, hf, hsent⟩ | ⟨hplain, hsent⟩
  · rw [hslot] at hf
    have hnew : (s.reclaimed ++ [p])[f.last]? = some p := by simp [hlast]
    refine ⟨done ++ [f], fs, hsent, hreclaimed ▸ inv.matched.frame hlast hf, ?_⟩
    rw [htrace, if_pos hf.last, hreclaimed, doneStamps, doneStamps, List.filterMap_append]
    simp only [List.filterMap_cons, hnew, Option.bind_some, List.filterMap_nil]
    cases slotStamp c p <;> rfl
  · rw [hslot] at hplain
    refine ⟨done, pending, hsent, hreclaimed ▸ inv.matched.plain hplain, ?_⟩
    rw [htrace, hplain, if_neg Bool.false_ne_true, List.append_nil, hreclaimed]

include hd hp hts hring in
theorem step (inv : StampInv c s done pending) (hok : SentOk c s a)
    (hs : sentStep c s a = some s') : ∃ done' pending', StampInv c s' done' pending' := by
  cases a with
  | xmit skb dma =>
    by_cases hfit : XmitFits c s.tx skb
    · rw [sentStep_xmit hfit] at hs
      obtain rfl := Option.some.inj hs
      refine ⟨done, _, inv.sent.xmit hd hp hfit, inv.matched, ?_⟩
      show stamps (stmmacXmit c s.tx skb dma).1.trace = _
      rw [stmmacXmit_trace hp hfit inv.sent.window.cur, stamps_append, stamps_xmitCalls,
        List.append_nil]
      exact inv.passed
    · rw [sentStep_refused hfit] at hs
      obtain rfl := Option.some.inj hs
      exact ⟨done, pending, inv.congr ⟨rfl, rfl, rfl, .inl rfl⟩⟩
  | rtl8211Xmit length addr =>
    obtain rfl := Option.some.inj hs
    refine ⟨done, _, inv.sent.rtl8211 hd hp hok, inv.matched, ?_⟩
    show stamps (rtl8211Xmit c s.tx length addr).1.trace = _
    rw [rtl8211Xmit_trace, stamps_append, inv.passed]
    exact List.append_nil _
  | txClean =>
    obtain rfl := Option.some.inj hs
    exact SentState.clean_invariant (I := fun s => ∃ done pending, StampInv c s done pending)
      (fun ⟨_, _, inv⟩ hsame => ⟨_, _, inv.congr hsame.toSameRing⟩)
      (fun ⟨_, _, inv⟩ hg => inv.round hd hp hts hring hg) ⟨done, pending, inv⟩
  | complete entry desc =>
    obtain ⟨tx, htx, rfl⟩ := Option.map_eq_some_iff.mp hs
    refine ⟨done, pending, inv.sent.complete hd hok htx, inv.matched, ?_⟩
    obtain ⟨-, -, rfl⟩ := txComplete_eq htx
    exact inv.passed
  | txErr => cases hs

end StampInv

/-! ## Runs -/

/-- What a step adds to the slots reclaimed. -/
theorem skbFound_step {done pending : List SentFrame} (hp : IsPow2 c.dmaTxSize)
    (inv : StampInv c s done pending) (hs : sentStep c s a = some s') :
    SkbFound c s'.reclaimed ↔ SkbFound c s.reclaimed ∧ CleanFindsSkb c s a := by
  have hquiet : s'.reclaimed = s.reclaimed →
      (SkbFound c s'.reclaimed ↔ SkbFound c s.reclaimed ∧ True) := fun he => by rw [he, and_true]
  cases a with
  | xmit skb dma =>
    apply hquiet
    by_cases hfit : XmitFits c s.tx skb
    · rw [sentStep_xmit hfit] at hs
      obtain rfl := Option.some.inj hs
      rfl
    · rw [sentStep_refused hfit] at hs
      obtain rfl := Option.some.inj hs
      rfl
  | rtl8211Xmit length addr =>
    obtain rfl := Option.some.inj hs
    exact hquiet rfl
  | txClean =>
    obtain rfl := Option.some.inj hs
    show SkbFound c (s.reclaimed ++ txCleanLog c s.tx) ↔ _ ∧ LastHasSkb c s.tx
    rw [lastHasSkb_iff hp inv.sent.window]
    exact List.forall_mem_append
  | complete entry desc =>
    obtain ⟨tx, -, rfl⟩ := Option.map_eq_some_iff.mp hs
    exact hquiet rfl
  | txErr => cases hs

/-- A run finds every skb exactly if each of its steps does. -/
theorem skbFound_run_iff (hd : c.desc = ndescOps) (hp : IsPow2 c.dmaTxSize)
    (hts : c.hwtsTxEn = true) (hring : c.stampRing = true) {as : List TxAct}
    (run : Run (sentStep c) (SentOk c) s as s')
    (hs : ∃ done pending, StampInv c s done pending) (hfound : SkbFound c s.reclaimed) :
    SkbFound c s'.reclaimed ↔
      Run (sentStep c) (fun s a => SentOk c s a ∧ CleanFindsSkb c s a) s as s' :=
  run.and_iff (I := fun s => ∃ done pending, StampInv c s done pending)
    (fun ⟨_, _, inv⟩ hok hs => inv.step hd hp hts hring hok hs)
    (fun ⟨_, _, inv⟩ _ hs => skbFound_step hp inv hs) hs hfound

/-- Where the time stamp is read from the ring in use, as it is with normal descriptors, a run gives
every frame its time stamp exactly if each `stmmac_tx_clean` finds the skbs of the frames in the
slots of their last descriptors. -/
theorem stamps_right_iff {as : List TxAct} (hd : c.desc = ndescOps) (hp : IsPow2 c.dmaTxSize)
    (hts : c.hwtsTxEn = true) (hring : c.stampRing = true)
    (run : Run (sentStep c) (SentOk c) (.start c) as s) :
    StampsRight c s ↔
      Run (sentStep c) (fun s a => SentOk c s a ∧ CleanFindsSkb c s a) (.start c) as s := by
  have hstart : ∃ done pending, StampInv c (.start c) done pending :=
    ⟨[], [], .start hd hp, ⟨fun f hf => absurd hf List.not_mem_nil, nofun⟩, rfl⟩
  obtain ⟨done, pending, inv⟩ := run.invariant
    (I := fun s => ∃ done pending, StampInv c s done pending)
    (fun ⟨_, _, inv⟩ hok hs => inv.step hd hp hts hring hok hs) hstart
  rw [inv.right_iff hts]
  exact skbFound_run_iff hd hp hts hring run hstart fun p hmem => absurd hmem List.not_mem_nil

/-- Normal descriptors with time stamps switched on. -/
def Conf.stamping : Conf := { Conf.normal 64 with hwtsTxEn := true }

/-- A frame that asks for a time stamp. -/
def TxSkb.asking (id : Nat) (frags : List (BitVec 32)) : TxSkb :=
  { TxSkb.plain id 60 frags with hwTstamp := true }

theorem stamps_right_one_frame :
    ∃ s, Run (sentStep .stamping) (fun s a => SentOk .stamping s a ∧ CleanFindsSkb .stamping s a)
        (.start .stamping)
        [.xmit (.asking 7 []) fun _ => 4096, .complete 0 ⟨⟨0x20000, 0x6040003c⟩, 5, 1⟩, .txClean]
        s ∧ StampsRight .stamping s :=
  exec_exists (by decide +kernel) fun _ run =>
    (stamps_right_iff rfl ⟨6, rfl⟩ rfl rfl (run.mono fun _ _ h => h.1)).mpr run

/-- A frame with a fragment: its skb is in slot 0, and the time stamp is read with slot 1. -/
theorem stamp_without_skb :
    ∃ s, Run (sentStep .stamping) (SentOk .stamping) (.start .stamping)
        [.xmit (.asking 7 [100]) fun i => 4096 + BitVec.ofNat 32 i,
          .complete 0 ⟨⟨0, 0x2040003c⟩, 4096, 0⟩, .complete 1 ⟨⟨0x20000, 0x40000064⟩, 5, 1⟩,
          .txClean] s ∧ ¬ StampsRight .stamping s := by
  have hrun : ∃ s, Run (sentStep .stamping) (SentOk .stamping) (.start .stamping)
        [.xmit (.asking 7 [100]) fun i => 4096 + BitVec.ofNat 32 i,
          .complete 0 ⟨⟨0, 0x2040003c⟩, 4096, 0⟩, .complete 1 ⟨⟨0x20000, 0x40000064⟩, 5, 1⟩,
          .txClean] s ∧ ∃ p ∈ s.reclaimed, ndescGetTxLs p.desc.des01 = true ∧ p.skb = none :=
    exec_reaches (by decide +kernel)
  obtain ⟨s, run, p, hmem, hlast, hskb⟩ := hrun
  refine ⟨s, run, fun hright => ?_⟩
  obtain ⟨l, hl⟩ := List.mem_iff_getElem?.mp hmem
  obtain ⟨-, -, -, skb, hsome, -⟩ := hright.call l p hl hlast
  rw [hskb] at hsome
  cases hsome

end Stmmac
