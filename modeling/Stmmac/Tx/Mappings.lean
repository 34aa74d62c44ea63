import Stmmac.Library.Ledger
import Stmmac.Tx.Delimiters

/-!
# Transmit side: DMA mappings

Each segment is mapped when it is queued and recorded in `tx_skbuff_dma`, where 0 means that
nothing is mapped. `stmmac_tx_clean` unmaps by that word, with the length read back from the
descriptor; `dma_free_tx_skbufs` looks at `tx_skbuff` first and skips the slots that have none,
which are those of fragments and of frames sent by `rtl8211_xmit`. Mappings balance as long as no
such slot is skipped, no mapping is at address 0 and the lengths fit the 11-bit field.
-/

namespace Stmmac

open Library
open Library.Ledger

/-- The mappings made and undone, as address and length. -/
def mapEvents (trace : List TxCall) : List (Event (BitVec 32 × BitVec 32)) :=
  trace.filterMap fun
    | .dmaMap addr len => some (.acquire (addr, len))
    | .dmaUnmapSingle addr len => some (.release (addr, len))
    | _ => none

/-- The mapping a slot records. -/
def Conf.recorded (c : Conf) (p : TxSlot) : Multiset (BitVec 32 × BitVec 32) :=
  if p.dma ≠ 0 then {(p.dma, c.desc.getTxLen p.desc.des01)} else 0

def outstanding (c : Conf) (s : TxState) : Multiset (BitVec 32 × BitVec 32) :=
  ∑ i ∈ Finset.range c.dmaTxSize.toNat, c.recorded (s.ring i)

/-- Every slot with a mapping has an skb: no fragment is left in the ring. -/
def MapsHaveSkb (c : Conf) (s : TxState) : Prop :=
  ∀ i < c.dmaTxSize.toNat, (s.ring i).dma ≠ 0 → (s.ring i).skb.isSome

/-- Lengths fit, addresses are not 0, `rtl8211_xmit` finds a free slot, `stmmac_tx_err` skips no
mapping, and the hardware writes back the status word only. -/
def Balanced (c : Conf) (s : TxState) : TxAct → Prop
  | .xmit skb dma => skb.Short ∧ ∀ i ≤ skb.frags.length, dma i ≠ 0
  | .rtl8211Xmit length addr =>
    length.toNat ≤ 2047 ∧ addr ≠ 0 ∧ 1 ≤ (stmmacTxAvail c s).toNat
  | .txClean => True
  | .txErr => MapsHaveSkb c s
  | .complete entry desc => StatusOnly s entry desc

instance (c : Conf) (s : TxState) : Decidable (MapsHaveSkb c s) :=
  inferInstanceAs (Decidable (∀ i < c.dmaTxSize.toNat, _ → _))

instance (c : Conf) (s : TxState) : ∀ a, Decidable (Balanced c s a)
  | .xmit skb dma => inferInstanceAs (Decidable (skb.Short ∧ ∀ i ≤ skb.frags.length, dma i ≠ 0))
  | .rtl8211Xmit _ _ => inferInstanceAs (Decidable (_ ≤ 2047 ∧ _ ≠ 0 ∧ _ ≤ _))
  | .txClean => inferInstanceAs (Decidable True)
  | .txErr => inferInstanceAs (Decidable (MapsHaveSkb c s))
  | .complete entry desc => inferInstanceAs (Decidable (StatusOnly s entry desc))

variable {c : Conf} {s s' : TxState} {skb : TxSkb} {dma : Nat → BitVec 32} {a : TxAct}
  {t h : Nat}

/-! ## Events of the calls -/

theorem mapEvents_append (l₁ l₂ : List TxCall) :
    mapEvents (l₁ ++ l₂) = mapEvents l₁ ++ mapEvents l₂ :=
  List.filterMap_append

theorem mapEvents_flatMap (l : List Nat) (f : Nat → List TxCall) :
    mapEvents (l.flatMap f) = l.flatMap fun i => mapEvents (f i) := by
  induction l with
  | nil => rfl
  | cons i l ih => rw [List.flatMap_cons, mapEvents_append, ih, List.flatMap_cons]

theorem mapEvents_xmitCalls : mapEvents (xmitCalls c s skb dma) = (skb.maps dma).map .acquire := by
  have hmaps : ∀ l : List (BitVec 32 × BitVec 32),
      mapEvents (l.map fun m => .dmaMap m.1 m.2) = l.map .acquire := by
    intro l
    induction l with
    | nil => rfl
    | cons m l ih => exact congrArg (.acquire m :: ·) ih
  unfold xmitCalls
  rw [mapEvents_append, mapEvents_append, mapEvents_append, hmaps]
  split_ifs <;> simp [mapEvents]

theorem mapEvents_unmapCalls (p : TxSlot) :
    mapEvents (c.unmapCalls p) =
      if p.dma ≠ 0 then [.release (p.dma, c.desc.getTxLen p.desc.des01)] else [] := by
  unfold Conf.unmapCalls
  split_ifs <;> rfl

theorem mapEvents_freeCalls (r : Nat → TxSlot) (p : TxSlot) : mapEvents (c.freeCalls r p) = [] := by
  unfold Conf.freeCalls; cases p.skb <;> rfl

theorem mapEvents_reclaimCalls (r : Nat → TxSlot) (p : TxSlot) :
    mapEvents (c.reclaimCalls r p) = mapEvents (c.unmapCalls p) := by
  have hts : mapEvents (c.hwtstampCalls p) = [] := by
    unfold Conf.hwtstampCalls
    cases p.skb with
    | none => split_ifs <;> rfl
    | some skb => dsimp only; split_ifs <;> rfl
  unfold Conf.reclaimCalls
  rw [mapEvents_append, mapEvents_append, mapEvents_freeCalls]
  split_ifs
  · simp [hts]
  · simp [mapEvents]

/-- A slot is unmapped when it is dropped only if it has an skb. -/
theorem mapEvents_dropCalls (r : Nat → TxSlot) (p : TxSlot) :
    mapEvents (c.dropCalls r p) = if p.skb.isSome then mapEvents (c.unmapCalls p) else [] := by
  unfold Conf.dropCalls
  split_ifs
  · rw [mapEvents_append, mapEvents_freeCalls, List.append_nil]
  · rfl

/-- Stopping and starting the DMA maps nothing. -/
theorem mapEvents_stmmacTxErr :
    mapEvents (stmmacTxErr c s).trace = mapEvents s.trace ++
      mapEvents ((List.range c.dmaTxSize.toNat).flatMap fun i =>
        c.dropCalls s.ring (s.ring i)) := by
  have hstop : ∀ l, mapEvents (.stopTx :: l) = mapEvents l := fun _ => rfl
  have hstart : mapEvents [.startTx] = [] := rfl
  rw [stmmacTxErr_trace, mapEvents_append, mapEvents_append, hstop, hstart, List.append_nil]

theorem SameRing.mapEvents (hsame : SameRing s s') :
    mapEvents s'.trace = mapEvents s.trace := by
  rcases hsame.trace with htr | htr <;> simp [htr, Stmmac.mapEvents]

theorem reclaimSlot_recorded (p : TxSlot) : c.recorded (c.reclaimSlot p) = 0 := by
  simp [Conf.recorded, Conf.reclaimSlot]

/-- Releasing what a slot records. -/
theorem replay_unmapCalls (held : Multiset (BitVec 32 × BitVec 32)) (p : TxSlot) :
    replay (c.recorded p + held) (mapEvents (c.unmapCalls p)) = some held := by
  rw [mapEvents_unmapCalls]
  unfold Conf.recorded
  split_ifs
  · rw [Multiset.singleton_add]
    exact replay_release _
  · simp

/-! ## Lengths read back -/

theorem ndescGetTxLen_prepare (p : Des01) (isFs : Bool) {len : BitVec 32} (hlen : len.toNat ≤ 2047)
    (csumFlag : Bool) (mode : Mode) :
    ndescGetTxLen (ndescPrepareTxDesc p isFs len csumFlag mode) = len := by
  have htrunc : (len.setWidth 11).setWidth 32 = len := by
    apply BitVec.eq_of_toNat_eq
    simp only [BitVec.toNat_setWidth]
    omega
  rw [ndescPrepareTxDesc_of_le p isFs (Nat.le_succ_of_le hlen)]
  cases csumFlag <;> simp (disch := decide) [ndescGetTxLen, htrunc]

/-- The length of segment `i`. -/
def TxSkb.segLen (skb : TxSkb) : Nat → BitVec 32
  | 0 => skb.headlen
  | i + 1 => skb.frags.getD i 0

theorem TxSkb.Short.segLen (hshort : skb.Short) (i : Nat) : (skb.segLen i).toNat ≤ 2047 := by
  cases i with
  | zero => exact hshort.1
  | succ i =>
    rcases Nat.lt_or_ge i skb.frags.length with hi | hi
    · have := hshort.2 _ (List.getElem_mem hi)
      simpa [TxSkb.segLen, hi] using this
    · simp [TxSkb.segLen, hi]

theorem maps_eq :
    skb.maps dma = (List.range (skb.frags.length + 1)).map fun i => (dma i, skb.segLen i) := by
  rw [List.range_succ_eq_map, List.map_cons]
  refine congrArg _ (List.ext_getElem (by simp [TxSkb.segments]) fun i hi hi' => ?_)
  have hi : i < skb.frags.length := by simpa [TxSkb.segments] using hi
  simp [TxSkb.segments, TxSkb.segLen, hi]

section Lengths

variable (hd : c.desc = ndescOps)

include hd in
theorem prepareSlot_txLen {len : BitVec 32} (hlen : len.toNat ≤ 2047) (isFs csum : Bool)
    (addr : BitVec 32) (p : TxSlot) :
    c.desc.getTxLen (c.prepareSlot isFs len addr csum p).desc.des01 = len := by
  rw [hd]
  simpa [Conf.prepareSlot, hd, ndescOps] using
    ndescGetTxLen_prepare p.desc.des01 isFs hlen csum c.mode

include hd in
theorem setTxOwner_txLen (p : TxSlot) :
    c.desc.getTxLen (p.mapDes c.desc.setTxOwner).desc.des01 = c.desc.getTxLen p.desc.des01 := by
  simp (disch := decide) [hd, ndescOps, ndescGetTxLen, ndescSetTxOwner]

include hd in
theorem closeSlot_txLen (n : BitVec 32) (p : TxSlot) :
    c.desc.getTxLen (c.closeSlot s n p).desc.des01 = c.desc.getTxLen p.desc.des01 := by
  unfold Conf.closeSlot
  dsimp only
  split <;> simp (disch := decide) [hd, ndescOps, ndescGetTxLen, ndescCloseTxDesc, ndescClearTxIc]

include hd in
theorem stampSlot_txLen (p : TxSlot) :
    c.desc.getTxLen (c.stampSlot skb p).desc.des01 = c.desc.getTxLen p.desc.des01 := by
  unfold Conf.stampSlot
  split <;> simp (disch := decide) [hd, ndescOps, ndescGetTxLen, ndescEnableTxTimestamp]

include hd in
/-- The length of a segment can be read back from its descriptor. -/
theorem xmitSlot_txLen (hshort : skb.Short) (i : Nat) (p : TxSlot) :
    c.desc.getTxLen (c.xmitSlot s skb dma i p).desc.des01 = skb.segLen i := by
  have hseg : c.desc.getTxLen (c.segSlot skb dma i p).desc.des01 = skb.segLen i := by
    cases i with
    | zero => exact prepareSlot_txLen hd (hshort.segLen 0) _ _ _ _
    | succ i =>
      exact (setTxOwner_txLen hd _).trans (prepareSlot_txLen hd (hshort.segLen (i + 1)) _ _ _ _)
  unfold Conf.xmitSlot Conf.firstSlot
  split_ifs <;> simp only [stampSlot_txLen hd, setTxOwner_txLen hd, closeSlot_txLen hd, hseg]

include hd in
theorem rtl8211Slot_txLen {length addr : BitVec 32} (hlen : length.toNat ≤ 2047) (p : TxSlot) :
    c.desc.getTxLen (c.rtl8211Slot s length addr p).desc.des01 = length := by
  unfold Conf.rtl8211Slot
  rw [setTxOwner_txLen hd, closeSlot_txLen hd, prepareSlot_txLen hd hlen]

end Lengths

/-! ## The invariant -/

/-- Replaying the calls so far leaves held what the slots record; the free slots record nothing. -/
structure MapInv (c : Conf) (s : TxState) (t h : Nat) : Prop where
  window : TxWindow c s t h
  free : FreeSlots c s t h fun p => p.dma = 0
  ledger : replay 0 (mapEvents s.trace) = some (outstanding c s)

theorem MapInv.congr (inv : MapInv c s t h) (hsame : SameRing s s') : MapInv c s' t h := by
  refine ⟨inv.window.congr hsame.dirtyTx hsame.curTx, fun k hk hk' => ?_, ?_⟩
  · rw [hsame.ring]
    exact inv.free k hk hk'
  · rw [hsame.mapEvents, inv.ledger, outstanding, outstanding, hsame.ring]

theorem sum_singletons (n : Nat) (f : Nat → BitVec 32 × BitVec 32) :
    ∑ i ∈ Finset.range n, ({f i} : Multiset (BitVec 32 × BitVec 32)) =
      ((List.range n).map f : Multiset _) := by
  induction n with
  | zero => rfl
  | succ n ih =>
    rw [Finset.sum_range_succ, ih, List.range_succ, List.map_append, ← Multiset.coe_add]
    rfl

/-- Filling free slots records the mappings made for them. -/
theorem MapInv.filled {n : Nat} {fill : Nat → TxSlot → TxSlot} {calls : List TxCall}
    {m : Nat → BitVec 32 × BitVec 32} (inv : MapInv c s t h) (hfill : TxFilled c s s' h n fill)
    (hroom : h + n < t + c.dmaTxSize.toNat) (htrace : s'.trace = s.trace ++ calls)
    (hcalls : mapEvents calls = ((List.range n).map m).map .acquire)
    (hrec : ∀ i < n, ∀ q, c.recorded (fill i q) = {m i}) : MapInv c s' t (h + n) := by
  have hle := inv.window.le
  refine ⟨hfill.window inv.window hroom, inv.free.filled inv.window hfill hroom, ?_⟩
  have hsum : outstanding c s' = outstanding c s + ((List.range n).map m : Multiset _) := by
    have hzero : ∀ i < n, c.recorded (s.ring ((h + i) % c.dmaTxSize.toNat)) = 0 := by
      intro i hi
      simp [Conf.recorded, inv.free (h + i) (by omega) (by omega)]
    rw [outstanding, Ring.sum_slots (f := fun i => c.recorded (s.ring i)) (n := n) (h := h)
      (by omega) (fun j _ hj => by rw [hfill.frame j hj]) hzero, ← sum_singletons]
    refine congrArg _ (Finset.sum_congr rfl fun i hi => ?_)
    have hi := Finset.mem_range.mp hi
    rw [hfill.slot i hi, hrec i hi]
  rw [htrace, mapEvents_append, replay_append_of inv.ledger, hcalls, replay_acquires, hsum,
    add_comm]

theorem MapInv.clean (hp : IsPow2 c.dmaTxSize) (inv : MapInv c s t h)
    (hg : txCleanGuard c s = true) : MapInv c (txCleanBody c s) (t + 1) h := by
  have w := inv.window
  refine ⟨w.clean hg, inv.free.clean hp w hg fun _ => rfl, ?_⟩
  have hlt := txEntry_lt hp s.dirtyTx
  have hsum : outstanding c s = c.recorded (s.ring (c.txEntry s.dirtyTx)) +
      outstanding c (txCleanBody c s) := by
    have := Ring.sum_update c.recorded s.ring
      (c.reclaimSlot (s.ring (c.txEntry s.dirtyTx))) hlt
    rw [reclaimSlot_recorded, add_zero] at this
    rw [outstanding, outstanding, txCleanBody_ring, ← this, add_comm]
  rw [txCleanBody_trace, mapEvents_append, replay_append_of inv.ledger, mapEvents_reclaimCalls,
    hsum, replay_unmapCalls]

/-- Dropping everything undoes every mapping when every mapping has an skb. -/
theorem MapInv.drop (inv : MapInv c s t h) (hskb : MapsHaveSkb c s) :
    (replay 0 (mapEvents s.trace)).bind (fun held =>
      replay held (mapEvents ((List.range c.dmaTxSize.toNat).flatMap fun i =>
        c.dropCalls s.ring (s.ring i)))) = some 0 := by
  rw [inv.ledger, Option.bind_some, mapEvents_flatMap, outstanding]
  refine replay_releases _ _ _ fun i hi => ?_
  have hdrop : mapEvents (c.dropCalls s.ring (s.ring i)) = mapEvents (c.unmapCalls (s.ring i)) := by
    rw [mapEvents_dropCalls]
    split_ifs with hs
    · rfl
    · have hzero : (s.ring i).dma = 0 := by
        by_contra hne
        exact hs (hskb i hi hne)
      simp [Conf.unmapCalls, hzero, mapEvents]
  rw [hdrop]
  simpa using replay_unmapCalls (c := c) 0 (s.ring i)

theorem MapInv.dmaFree (inv : MapInv c s t h) (hskb : MapsHaveSkb c s) :
    replay 0 (mapEvents (dmaFreeTxSkbufs c s).trace) = some 0 := by
  rw [dmaFreeTxSkbufs_eq, mapEvents_append, replay_append]
  exact inv.drop hskb

theorem MapInv.txErr (inv : MapInv c s t h) (hskb : MapsHaveSkb c s) :
    replay 0 (mapEvents (stmmacTxErr c s).trace) = some 0 := by
  rw [mapEvents_stmmacTxErr, replay_append]
  exact inv.drop hskb

theorem errSlot_dma_of_skb (hskb : MapsHaveSkb c s) {i : Nat} (hi : i < c.dmaTxSize.toNat) :
    (c.errSlot i (s.ring i)).dma = 0 := by
  rw [errSlot_dma, TxSlot.dropped]
  split_ifs with hs
  · rfl
  · by_contra hne
    exact hs (hskb i hi hne)

theorem MapInv.complete (hd : c.desc = ndescOps) (inv : MapInv c s t h) {entry : Nat}
    {desc : DmaDesc} (hst : StatusOnly s entry desc) (hs : txComplete c s entry desc = some s') :
    MapInv c s' t h := by
  obtain ⟨_, _, rfl⟩ := txComplete_eq hs
  have hdma : ∀ i, ((s.modify entry ({ · with desc := desc })).ring i).dma = (s.ring i).dma := by
    intro i
    rw [TxState.modify_ring, Function.update_apply]
    split_ifs with hi
    · rw [hi]
    · rfl
  have hrec : ∀ i, c.recorded ((s.modify entry ({ · with desc := desc })).ring i) =
      c.recorded (s.ring i) := by
    intro i
    have hlen : c.desc.getTxLen ((s.modify entry ({ · with desc := desc })).ring i).desc.des01 =
        c.desc.getTxLen (s.ring i).desc.des01 := by
      rw [TxState.modify_ring, Function.update_apply]
      split_ifs with hi
      · simp [hd, ndescOps, ndescGetTxLen, Des01.get, Des01.word, hst.des1, hi]
      · rfl
    rw [Conf.recorded, Conf.recorded, hdma, hlen]
  refine ⟨inv.window.congr rfl rfl, fun k hk hk' => (hdma _).trans (inv.free k hk hk'), ?_⟩
  rw [TxState.modify_trace, inv.ledger, outstanding, outstanding]
  exact congrArg some (Finset.sum_congr rfl fun i _ => (hrec i).symm)

theorem MapInv.step (hd : c.desc = ndescOps) (hp : IsPow2 c.dmaTxSize) (inv : MapInv c s t h)
    (hok : Balanced c s a) (hs : txStep c s a = some s') : ∃ t' h', MapInv c s' t' h' := by
  have w := inv.window
  cases a with
  | xmit skb dma =>
    obtain rfl := Option.some.inj hs
    by_cases hfit : XmitFits c s skb
    · refine ⟨t, _, inv.filled (m := fun i => (dma i, skb.segLen i))
        (stmmacXmit_filled dma hp w hfit) (hfit.room w) (stmmacXmit_trace hp hfit w.cur) ?_
        fun i hi q => ?_⟩
      · rw [mapEvents_xmitCalls, maps_eq]
      · have hne : dma i ≠ 0 := hok.2 i (Nat.le_of_lt_succ hi)
        rw [Conf.recorded, xmitSlot_dma, if_pos hne, xmitSlot_txLen hd hok.1]
    · exact ⟨t, h, inv.congr (stmmacXmit_same hfit)⟩
  | rtl8211Xmit length addr =>
    obtain rfl := Option.some.inj hs
    obtain ⟨hlen, haddr, hroom⟩ := hok
    refine ⟨t, _, inv.filled (m := fun _ => (addr, length)) (rtl8211Xmit_filled hp w.cur)
      (rtl8211_room w hroom) rtl8211Xmit_trace rfl fun i _ q => ?_⟩
    rw [Conf.recorded, rtl8211Slot_dma, if_pos haddr, rtl8211Slot_txLen hd hlen]
  | txClean =>
    obtain rfl := Option.some.inj hs
    obtain ⟨t', inv'⟩ := stmmacTxClean_invariant (I := fun t s => MapInv c s t h)
      (fun inv hsame => inv.congr hsame) (fun inv hg => inv.clean hp hg) inv
    exact ⟨t', h, inv'⟩
  | txErr =>
    obtain rfl := Option.some.inj hs
    have hzero : ∀ i < c.dmaTxSize.toNat, ((stmmacTxErr c s).ring i).dma = 0 := by
      intro i hi
      rw [stmmacTxErr_ring, Ring.mapBelow_of_lt hi]
      exact errSlot_dma_of_skb hok hi
    refine ⟨0, 0, .err hp, .of_forall hp hzero, ?_⟩
    rw [inv.txErr hok, outstanding, Finset.sum_eq_zero fun i hi => ?_]
    simp [Conf.recorded, hzero i (Finset.mem_range.mp hi)]
  | complete entry desc =>
    exact ⟨t, h, inv.complete hd hok hs⟩

/-- In every run that meets `Balanced`, replaying the calls leaves held the mappings recorded in
the ring, so each mapping is undone at most once and before its record is overwritten; a final
`stmmac_tx_err` or `dma_free_tx_skbufs` that skips no mapping leaves none. -/
theorem tx_mappings_balance {as : List TxAct} (hd : c.desc = ndescOps) (hp : IsPow2 c.dmaTxSize)
    (hcur : s.curTx = 0) (hdirty : s.dirtyTx = 0)
    (hnone : ∀ i < c.dmaTxSize.toNat, (s.ring i).dma = 0) (htrace : s.trace = [])
    (run : Run (txStep c) (Balanced c) s as s') :
    replay 0 (mapEvents s'.trace) = some (outstanding c s') ∧
      (MapsHaveSkb c s' → replay 0 (mapEvents (stmmacTxErr c s').trace) = some 0 ∧
        replay 0 (mapEvents (dmaFreeTxSkbufs c s').trace) = some 0) := by
  have hinit : MapInv c s 0 0 := by
    refine ⟨⟨hdirty, hcur, Nat.le_refl 0, by simpa using hp.pos⟩, .of_forall hp hnone, ?_⟩
    rw [htrace, outstanding, Finset.sum_eq_zero fun i hi => ?_]
    · rfl
    · simp [Conf.recorded, hnone i (Finset.mem_range.mp hi)]
  obtain ⟨t, h, inv⟩ := run.invariant (I := fun s => ∃ t h, MapInv c s t h)
    (fun ⟨_, _, inv⟩ hok hs => inv.step hd hp hok hs) ⟨0, 0, hinit⟩
  exact ⟨inv.ledger, fun hskb => ⟨inv.txErr hskb, inv.dmaFree hskb⟩⟩

theorem tx_mappings_balance_two_frames :
    ∃ s, Run (txStep (.normal 64)) (Balanced (.normal 64)) (.idle (.normal 64))
        [.xmit (.plain 7 60 []) fun _ => 4096, .rtl8211Xmit 60 8192,
          .complete 0 ⟨⟨0, 0x6000003c⟩, 4096, 0⟩, .txClean] s ∧
      replay 0 (mapEvents s.trace) = some (outstanding (.normal 64) s) ∧
      (MapsHaveSkb (.normal 64) s →
        replay 0 (mapEvents (stmmacTxErr (.normal 64) s).trace) = some 0 ∧
          replay 0 (mapEvents (dmaFreeTxSkbufs (.normal 64) s).trace) = some 0) :=
  exec_exists (by decide +kernel) fun _ run =>
    tx_mappings_balance (c := .normal 64) (s := .idle (.normal 64)) rfl ⟨6, rfl⟩ rfl rfl
      (fun _ _ => rfl) rfl run

/-- A timeout with a fragment in flight: the mapping of the fragment is never undone. -/
theorem fragment_mapping_leaks :
    ∃ s, Run (txStep (.normal 64)) (fun _ _ => True) (.idle (.normal 64))
        [.xmit (.plain 7 60 [100]) fun i => 4096 + BitVec.ofNat 32 i, .txErr] s ∧
      replay 0 (mapEvents s.trace) ≠ some 0 :=
  exec_reaches (by decide +kernel)

end Stmmac
