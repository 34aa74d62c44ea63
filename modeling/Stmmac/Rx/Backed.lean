import Stmmac.Library.Ledger
import Stmmac.Rx.InitSpec

/-!
# Receive side: buffers of the descriptors the DMA owns

Ownership is given out by `stmmac_clear_descriptors` and by `stmmac_rx_refill`, buffers by
`stmmac_init_rx_buffers` and by `stmmac_rx_refill`. The clear asks for no buffer, so it must find
one in every slot. Where the device writes time stamps over the buffer words, a slot with a buffer
is given back with a stale address unless its buffer was taken out before; then `stmmac_rx` must
not go round the ring either.
-/

namespace Stmmac

open Library
open Library.Ledger

/-- The skbs allocated and those handed to the stack. -/
def rxSkbEvents (trace : List RxCall) : List (Event Nat) :=
  trace.filterMap fun
    | .netdevAllocSkb id _ => some (.acquire id)
    | .napiGroReceive skb => some (.release skb.id)
    | _ => none

/-- The addresses mapped and unmapped. -/
def rxMapEvents (trace : List RxCall) : List (Event (BitVec 32)) :=
  trace.filterMap fun
    | .dmaMapSingle _ addr _ => some (.acquire addr)
    | .dmaUnmapSingle addr _ => some (.release addr)
    | _ => none

namespace RxSlot

def skbIds (p : RxSlot) : Multiset Nat := p.skb.elim 0 fun skb => {skb.id}

def mappings (p : RxSlot) : Multiset (BitVec 32) := p.skb.elim 0 fun _ => {p.dma}

end RxSlot

/-- Every descriptor the DMA owns has a buffer that was mapped, at the address in `des2`; the skbs
and the mappings of these slots are still held. -/
structure DmaBacked (c : Conf) (s : RxState) : Prop where
  buffer : ∀ i < c.dmaRxSize.toNat, c.rxOwned (s.ring i) = true →
    ∃ skb len, (s.ring i).skb = some skb ∧ (s.ring i).desc.des2 = (s.ring i).dma ∧
      .dmaMapSingle skb.id (s.ring i).dma len ∈ s.trace
  live : Covers c.dmaRxSize.toNat (fun p => if c.rxOwned p then p.skbIds else 0) s.ring
    (rxSkbEvents s.trace)
  mapped : Covers c.dmaRxSize.toNat (fun p => if c.rxOwned p then p.mappings else 0) s.ring
    (rxMapEvents s.trace)

/-- Every slot has a buffer, and its descriptor the address of it. -/
def BuffersInPlace (c : Conf) (s : RxState) : Prop :=
  ∀ i < c.dmaRxSize.toNat, (s.ring i).skb.isSome = true ∧ (s.ring i).desc.des2 = (s.ring i).dma

instance (c : Conf) (s : RxState) : Decidable (BuffersInPlace c s) :=
  inferInstanceAs (Decidable (∀ i < c.dmaRxSize.toNat, _ ∧ _))

/-- `stmmac_suspend` finds every buffer in its place and, where there are time stamps, `stmmac_rx`
stays within the lap. -/
def KeepsBacked (c : Conf) (s : RxHw) : RxAct → Prop
  | .suspend => BuffersInPlace c s.rx
  | .rx _ limit => c.stampsRx = true → RoundsFit c s.rx limit.toNat
  | .receive _ | .refill _ | .resume => True

instance (c : Conf) (s : RxHw) : ∀ a, Decidable (KeepsBacked c s a)
  | .suspend => inferInstanceAs (Decidable (BuffersInPlace c s.rx))
  | .rx _ limit => inferInstanceAs (Decidable (_ → RoundsFit c s.rx limit.toNat))
  | .receive _ | .refill _ | .resume => inferInstanceAs (Decidable True)

/-- What holds of every slot: a buffer was mapped, an owned descriptor has one in place, and
without time stamps it stays in place. -/
structure Conf.SlotBacked (c : Conf) (trace : List RxCall) (p : RxSlot) : Prop where
  owned : c.rxOwned p = true → p.skb.isSome = true ∧ p.desc.des2 = p.dma
  mapped : ∀ skb, p.skb = some skb → ∃ len, .dmaMapSingle skb.id p.dma len ∈ trace
  kept : c.stampsRx = false → p.skb.isSome = true → p.desc.des2 = p.dma

structure RxBacked (c : Conf) (s : RxState) : Prop where
  slots : ∀ i < c.dmaRxSize.toNat, c.SlotBacked s.trace (s.ring i)
  skbs : Covers c.dmaRxSize.toNat RxSlot.skbIds s.ring (rxSkbEvents s.trace)
  maps : Covers c.dmaRxSize.toNat RxSlot.mappings s.ring (rxMapEvents s.trace)

/-- The slots from `d` to `k` were consumed and their buffers taken out; all others have one. -/
structure RxDrained (c : Conf) (s : RxState) (d k : Nat) : Prop where
  counters : RxCounters c s d k
  taken : ∀ j, d ≤ j → j < k → c.rxOwned (s.ring (j % c.dmaRxSize.toNat)) = false ∧
    (s.ring (j % c.dmaRxSize.toNat)).skb = none
  backed : ∀ j, k ≤ j → j < d + c.dmaRxSize.toNat →
    (s.ring (j % c.dmaRxSize.toNat)).skb.isSome = true

/-- The invariant: the window of the slots drained is needed only where there are time stamps. -/
structure RxHolds (c : Conf) (s : RxState) : Prop where
  backed : RxBacked c s
  drained : c.stampsRx = true → ∃ d k, RxDrained c s d k

variable {c : Conf} {s s' : RxState} {f f' : RxHw} {a : RxAct} {d k : Nat} {q : RxSlot}
  {calls trace : List RxCall}

/-! ## Events of the calls -/

theorem rxSkbEvents_append (l₁ l₂ : List RxCall) :
    rxSkbEvents (l₁ ++ l₂) = rxSkbEvents l₁ ++ rxSkbEvents l₂ :=
  List.filterMap_append

theorem rxMapEvents_append (l₁ l₂ : List RxCall) :
    rxMapEvents (l₁ ++ l₂) = rxMapEvents l₁ ++ rxMapEvents l₂ :=
  List.filterMap_append

theorem ethTypeTrans_id (skb : RxSkb) : (ethTypeTrans skb).id = skb.id := by
  unfold ethTypeTrans skbPullInline
  dsimp only
  split_ifs <;> rfl

/-- The skb handed up is that of the slot. -/
theorem upSkb_id {skb skb' : RxSkb} (hskb : q.skb = some skb) (h : c.upSkb q = some skb') :
    skb'.id = skb.id := by
  unfold Conf.upSkb at h
  split at h
  · cases h
  · obtain ⟨put, hput, rfl⟩ := Option.map_eq_some_iff.mp h
    obtain ⟨ts, -, hput⟩ := putSkb_some hskb hput
    have hid : (c.finishSkb put).id = put.id := by
      unfold Conf.finishSkb
      split_ifs <;> exact ethTypeTrans_id put
    rw [hid, skbPut_eq hput]

/-- A round releases the skb of its slot when it hands it up. -/
theorem replay_rxCalls_skb (bufSz : BitVec 32) (entry : Nat) (q : RxSlot) :
    ∃ lost, replay q.skbIds (rxSkbEvents (c.rxCalls bufSz entry q)) =
      some ((c.consumed q).skbIds + lost) := by
  by_cases hd : c.rxVerdict q = .discardFrame
  · cases hts : c.stampsRx
    · exact ⟨0, by simp [Conf.rxCalls, Conf.consumed, hd, hts, rxSkbEvents]⟩
    · exact ⟨q.skbIds, by simp [Conf.rxCalls, Conf.consumed, hd, hts, rxSkbEvents, RxSlot.skbIds]⟩
  · cases hskb : q.skb with
    | none =>
      rw [rxCalls_of_none hd hskb]
      exact ⟨0, by simp [Conf.consumed, hd, hskb, rxSkbEvents, RxSlot.skbIds]⟩
    | some skb =>
      cases hup : c.upSkb q with
      | none =>
        refine ⟨q.skbIds, ?_⟩
        rw [rxCalls_of_stops hd hup]
        split <;> simp [Conf.consumed, hd, hskb, rxSkbEvents, RxSlot.skbIds]
      | some skb' =>
        refine ⟨0, ?_⟩
        have hid := upSkb_id hskb hup
        rw [rxCalls_of_upSkb hup]
        simp [Conf.consumed, hd, hskb, rxSkbEvents, RxSlot.skbIds, hid, replay]

/-- A round undoes the mapping of its slot at most once, the slot having a buffer where there are
time stamps. -/
theorem replay_rxCalls_map (bufSz : BitVec 32) (entry : Nat)
    (hbuf : c.stampsRx = true → q.skb.isSome = true) :
    ∃ lost, replay q.mappings (rxMapEvents (c.rxCalls bufSz entry q)) =
      some ((c.consumed q).mappings + lost) := by
  by_cases hd : c.rxVerdict q = .discardFrame
  · cases hts : c.stampsRx
    · exact ⟨0, by simp [Conf.rxCalls, Conf.consumed, hd, hts, rxMapEvents]⟩
    · obtain ⟨skb, hskb⟩ := Option.isSome_iff_exists.mp (hbuf hts)
      exact ⟨0, by
        simp [Conf.rxCalls, Conf.consumed, hd, hts, hskb, rxMapEvents, RxSlot.mappings, replay]⟩
  · cases hskb : q.skb with
    | none =>
      rw [rxCalls_of_none hd hskb]
      exact ⟨0, by simp [Conf.consumed, hd, hskb, rxMapEvents, RxSlot.mappings]⟩
    | some skb =>
      cases hup : c.upSkb q with
      | none =>
        refine ⟨q.mappings, ?_⟩
        rw [rxCalls_of_stops hd hup]
        split <;> simp [Conf.consumed, hd, hskb, rxMapEvents, RxSlot.mappings]
      | some skb' =>
        rw [rxCalls_of_upSkb hup]
        exact ⟨0, by simp [Conf.consumed, hd, hskb, rxMapEvents, RxSlot.mappings, replay]⟩

theorem replay_refillCalls_skb (bufSz : BitVec 32) (b : Option RxBuf) (q : RxSlot) :
    ∃ lost, replay q.skbIds (rxSkbEvents (Conf.refillCalls bufSz b q)) =
      some ((c.refilled b q).skbIds + lost) := by
  refine ⟨0, ?_⟩
  cases hskb : q.skb <;> cases b <;> simp [Conf.refillCalls, Conf.refilled, hskb, rxSkbEvents,
    RxSlot.skbIds, RxSlot.mapDes, Conf.allocSlot, RxBuf.skb, replay]

theorem replay_refillCalls_map (bufSz : BitVec 32) (b : Option RxBuf) (q : RxSlot) :
    ∃ lost, replay q.mappings (rxMapEvents (Conf.refillCalls bufSz b q)) =
      some ((c.refilled b q).mappings + lost) := by
  refine ⟨0, ?_⟩
  cases hskb : q.skb <;> cases b <;> simp [Conf.refillCalls, Conf.refilled, hskb, rxMapEvents,
    RxSlot.mappings, RxSlot.mapDes, Conf.allocSlot, replay]

/-! ## Slots -/

theorem Conf.SlotBacked.mono (h : c.SlotBacked trace q) (calls : List RxCall) :
    c.SlotBacked (trace ++ calls) q where
  owned := h.owned
  mapped skb hskb := by
    obtain ⟨len, hmem⟩ := h.mapped skb hskb
    exact ⟨len, List.mem_append_left calls hmem⟩
  kept := h.kept

theorem Conf.SlotBacked.consumed (h : c.SlotBacked trace q) (hown : c.rxOwned q = false) :
    c.SlotBacked trace (c.consumed q) := by
  have hfree : c.rxOwned (c.consumed q) = false := by
    rw [Conf.rxOwned, consumed_desc]
    exact hown
  refine ⟨fun ho => by simp [hfree] at ho, fun skb hskb => ?_, fun hts hskb => ?_⟩
  · unfold Conf.consumed at hskb ⊢
    split at hskb
    · next hkeep => simpa [hkeep] using h.mapped skb hskb
    · cases hskb
  · unfold Conf.consumed at hskb ⊢
    split at hskb
    · next hkeep => simpa [hkeep] using h.kept hts hskb
    · cases hskb

theorem Conf.SlotBacked.refilled {b : Option RxBuf} (h : c.SlotBacked trace q)
    (hbuf : q.skb.isSome = true ∨ b.isSome = true)
    (hplace : q.skb.isSome = true → q.desc.des2 = q.dma) (bufSz : BitVec 32) :
    c.SlotBacked (trace ++ Conf.refillCalls bufSz b q) (c.refilled b q) := by
  cases hskb : q.skb with
  | none =>
    obtain ⟨b, rfl⟩ := Option.isSome_iff_exists.mp (hbuf.resolve_left (by simp [hskb]))
    have hplace : (c.refilled (some b) q).desc.des2 = (c.refilled (some b) q).dma := by
      simp [Conf.refilled, hskb, RxSlot.mapDes, Conf.allocSlot]
    refine ⟨fun _ => ⟨refilled_skb hbuf, hplace⟩, fun skb hnew => ⟨bufSz, ?_⟩, fun _ _ => hplace⟩
    obtain rfl : b.skb = skb := by
      simpa [Conf.refilled, hskb, RxSlot.mapDes, Conf.allocSlot] using hnew
    simp [Conf.refillCalls, Conf.refilled, hskb, RxSlot.mapDes, Conf.allocSlot, RxBuf.skb]
  | some skb =>
    have hq : c.refilled b q = q.mapDes c.desc.setRxOwner := by simp [Conf.refilled, hskb]
    have hcalls : Conf.refillCalls bufSz b q = [] := by simp [Conf.refillCalls, hskb]
    rw [hq, hcalls, List.append_nil]
    have hdes : q.desc.des2 = q.dma := hplace (by simp [hskb])
    exact ⟨fun _ => ⟨by simp [RxSlot.mapDes, hskb], hdes⟩, h.mapped, fun _ _ => hdes⟩

theorem Conf.SlotBacked.write {w : RxWrite} (h : c.SlotBacked trace q)
    (hown : c.rxOwned q = true) (hgive : c.desc.getRxOwner w.des01 = false)
    (hstamp : w.stamp.isSome = true → c.stampsRx = true) : c.SlotBacked trace (q.write w) := by
  refine ⟨fun ho => ?_, fun skb hskb => ?_, fun hts _ => ?_⟩
  · rw [Conf.rxOwned, RxSlot.write, hgive] at ho
    cases ho
  · unfold RxSlot.write at hskb
    rw [if_pos (h.owned hown).2] at hskb
    obtain ⟨skb, hq, rfl⟩ := Option.map_eq_some_iff.mp hskb
    exact h.mapped skb hq
  · have hnone : w.stamp = none := by
      cases hw : w.stamp with
      | none => rfl
      | some x =>
        rw [hstamp (by simp [hw])] at hts
        cases hts
    simp only [RxSlot.write, hnone]
    exact (h.owned hown).2

/-! ## What each step keeps -/

namespace RxBacked

theorem congr (h : RxBacked c s) (hring : s'.ring = s.ring) (htrace : s'.trace = s.trace) :
    RxBacked c s' where
  slots := by rw [hring, htrace]; exact h.slots
  skbs := by rw [hring, htrace]; exact h.skbs
  maps := by rw [hring, htrace]; exact h.maps

/-- A write to one slot, with the calls that go with it. -/
theorem write {e : Nat} (h : RxBacked c s) (he : e < c.dmaRxSize.toNat)
    (hring : s'.ring = Function.update s.ring e q) (htrace : s'.trace = s.trace ++ calls)
    (hslot : c.SlotBacked (s.trace ++ calls) q)
    (hskb : ∃ lost, replay (s.ring e).skbIds (rxSkbEvents calls) = some (q.skbIds + lost))
    (hmap : ∃ lost, replay (s.ring e).mappings (rxMapEvents calls) = some (q.mappings + lost)) :
    RxBacked c s' where
  slots i hi := by
    rw [hring, htrace, Function.update_apply]
    split_ifs
    · exact hslot
    · exact (h.slots i hi).mono calls
  skbs := by
    rw [hring, htrace, rxSkbEvents_append]
    exact h.skbs.write he hskb
  maps := by
    rw [hring, htrace, rxMapEvents_append]
    exact h.maps.write he hmap

theorem consume (ops : c.desc.Lawful) (hpos : 0 < c.dmaRxSize.toNat) (h : RxBacked c s)
    (hown : c.rxOwned (s.ring (c.rxEntry s.curRx)) = false)
    (hbuf : c.stampsRx = true → (s.ring (c.rxEntry s.curRx)).skb.isSome = true) :
    RxBacked c (rxBody c s).1 :=
  have he := rxEntry_lt hpos s.curRx
  h.write he (rxBody_ring ops) (rxBody_trace ops) (((h.slots _ he).consumed hown).mono _)
    (replay_rxCalls_skb _ _ _) (replay_rxCalls_map _ _ hbuf)

theorem refill {alloc : BitVec 32 → Option RxBuf} (hpos : 0 < c.dmaRxSize.toNat)
    (h : RxBacked c s) (hg : rxRefillGuard c alloc s = true)
    (hbuf : c.stampsRx = true → (s.ring (c.rxEntry s.dirtyRx)).skb = none) :
    RxBacked c (rxRefillBody c alloc s) := by
  have he := rxEntry_lt hpos s.dirtyRx
  have hslot := h.slots _ he
  have hplace : (s.ring (c.rxEntry s.dirtyRx)).skb.isSome = true →
      (s.ring (c.rxEntry s.dirtyRx)).desc.des2 = (s.ring (c.rxEntry s.dirtyRx)).dma := by
    intro hskb
    cases hts : c.stampsRx
    · exact hslot.kept hts hskb
    · rw [hbuf hts] at hskb
      cases hskb
  refine h.write he (by rw [rxRefillBody_eq]) (by rw [rxRefillBody_eq])
    (hslot.refilled (rxRefillGuard_iff.mp hg).2 hplace _) (replay_refillCalls_skb _ _ _)
    (replay_refillCalls_map _ _ _)

theorem receive (h : RxBacked c s) {e : Nat} {w : RxWrite} (he : e < c.dmaRxSize.toNat)
    (hown : c.rxOwned (s.ring e) = true) (hgive : c.desc.getRxOwner w.des01 = false)
    (hstamp : w.stamp.isSome = true → c.stampsRx = true) :
    RxBacked c (s.modify e (·.write w)) := by
  have hslot := h.slots e he
  obtain ⟨skb, hskb⟩ := Option.isSome_iff_exists.mp (hslot.owned hown).1
  have hnew : ((s.ring e).write w).skb = some (skb.fill w.bytes) := by
    simp [RxSlot.write, (hslot.owned hown).2, hskb]
  have htrace : (s.modify e (·.write w)).trace = s.trace ++ [] := (List.append_nil _).symm
  refine h.write he rfl htrace ?_ ⟨0, ?_⟩ ⟨0, ?_⟩
  · rw [List.append_nil]
    exact hslot.write hown hgive hstamp
  · simp [rxSkbEvents, RxSlot.skbIds, hnew, hskb, RxSkb.fill]
  · simp [rxMapEvents, RxSlot.mappings, hnew, hskb]

/-- The clear keeps the buffers and gives away every descriptor. -/
theorem clear (h : RxBacked c s) (hplace : BuffersInPlace c s) :
    RxBacked c (stmmacClearDescriptors c s) where
  slots i hi := by
    obtain ⟨hskb, hdes⟩ := hplace i hi
    rw [stmmacClearDescriptors_slot hi]
    exact ⟨fun _ => ⟨hskb, hdes⟩, (h.slots i hi).mapped, fun _ _ => hdes⟩
  skbs := h.skbs.congr fun i hi => by rw [stmmacClearDescriptors_slot hi]; rfl
  maps := h.maps.congr fun i hi => by rw [stmmacClearDescriptors_slot hi]; rfl

end RxBacked

namespace RxDrained

theorem lt_of_owned (w : RxDrained c s d k)
    (h : ∃ i < c.dmaRxSize.toNat, c.rxOwned (s.ring i) = true) : k < d + c.dmaRxSize.toNat := by
  obtain ⟨i, hi, hown⟩ := h
  obtain ⟨j, hj, hj', rfl⟩ := Ring.exists_mod_eq d hi
  by_contra hge
  rw [(w.taken j hj (by omega)).1] at hown
  cases hown

theorem lt_of_round (w : RxDrained c s d k) {n : Nat} (hfit : RoundsFit c s (n + 1)) :
    k < d + c.dmaRxSize.toNat := by
  have hle := w.counters.le
  rcases hfit with hex | hfit
  · exact w.lt_of_owned hex
  · rw [w.counters.toNat_sub] at hfit
    omega

theorem consume (ops : c.desc.Lawful) (hp : IsPow2 c.dmaRxSize) (hts : c.stampsRx = true)
    (w : RxDrained c s d k) (hlt : k < d + c.dmaRxSize.toNat)
    (hown : c.rxOwned (s.ring (c.rxEntry s.curRx)) = false) :
    RxDrained c (rxBody c s).1 d (k + 1) := by
  have hle := w.counters.le
  have hentry := w.counters.entry_cur hp
  refine ⟨w.counters.consume ops hlt, fun j hj hj' => ⟨?_, ?_⟩, fun j hj hj' => ?_⟩
  · rw [rxBody_owned ops]
    rcases Nat.eq_or_lt_of_le (Nat.le_of_lt_succ hj') with rfl | hjk
    · rw [← hentry]
      exact hown
    · exact (w.taken j hj hjk).1
  · rw [rxBody_ring ops, hentry]
    rcases Nat.eq_or_lt_of_le (Nat.le_of_lt_succ hj') with rfl | hjk
    · simp [Conf.consumed, hts]
    · rw [update_of_lap (d := d) hj (by omega) hle hlt (by omega)]
      exact (w.taken j hj hjk).2
  · rw [rxBody_ring ops, hentry, update_of_lap (d := d) (by omega) hj' hle hlt (by omega)]
    exact w.backed j (by omega) hj'

theorem refill {alloc : BitVec 32 → Option RxBuf} (hp : IsPow2 c.dmaRxSize)
    (w : RxDrained c s d k) (hg : rxRefillGuard c alloc s = true) :
    (s.ring (c.rxEntry s.dirtyRx)).skb = none ∧
      RxDrained c (rxRefillBody c alloc s) (d + 1) k := by
  have hpos := hp.pos
  have hlap := w.counters.lap
  have hentry := w.counters.entry_dirty hp
  obtain ⟨hdk, cnt⟩ := w.counters.refill hg
  have hring : (rxRefillBody c alloc s).ring = Function.update s.ring (d % c.dmaRxSize.toNat)
      (c.refilled (alloc s.dirtyRx) (s.ring (d % c.dmaRxSize.toNat))) := by
    rw [rxRefillBody_eq, hentry]
  refine ⟨?_, cnt, fun j hj hj' => ?_, fun j hj hj' => ?_⟩
  · rw [hentry]
    exact (w.taken d (Nat.le_refl d) hdk).2
  · rw [hring, update_of_lap (d := d) (by omega) (by omega) (by omega) (by omega) (by omega)]
    exact w.taken j (by omega) hj'
  · rcases Nat.lt_or_ge j (d + c.dmaRxSize.toNat) with hjN | hjN
    · rw [hring, update_of_lap (d := d) (by omega) hjN (by omega) (by omega) (by omega)]
      exact w.backed j hj hjN
    · obtain rfl : j = d + c.dmaRxSize.toNat := by omega
      rw [hring, Nat.add_mod_right, Function.update_self]
      refine refilled_skb ?_
      rw [← hentry]
      exact (rxRefillGuard_iff.mp hg).2

/-- The device writes to a slot it owns, which is not one of those drained. -/
theorem receive (w : RxDrained c s d k) {e : Nat} {x : RxWrite}
    (hown : c.rxOwned (s.ring e) = true) : RxDrained c (s.modify e (·.write x)) d k := by
  refine ⟨w.counters.congr rfl rfl, fun j hj hj' => ?_, fun j hj hj' => ?_⟩
  · have hne : j % c.dmaRxSize.toNat ≠ e := by
      rintro rfl
      rw [(w.taken j hj hj').1] at hown
      cases hown
    rw [RxState.modify_ring, Function.update_of_ne hne]
    exact w.taken j hj hj'
  · rw [RxState.modify_ring, Function.update_apply]
    split_ifs with he
    · rw [RxSlot.write_skb_isSome, ← he]
      exact w.backed j hj hj'
    · exact w.backed j hj hj'

/-- With a buffer in every slot nothing is drained, and the clear changes no buffer. -/
theorem clear (hpos : 0 < c.dmaRxSize.toNat) (w : RxDrained c s d k)
    (hplace : BuffersInPlace c s) : RxDrained c (stmmacClearDescriptors c s) d k := by
  have hslot : ∀ j, j % c.dmaRxSize.toNat < c.dmaRxSize.toNat := fun j => Nat.mod_lt j hpos
  refine ⟨w.counters.congr rfl rfl, fun j hj hj' => ?_, fun j hj hj' => ?_⟩
  · have hskb := (hplace _ (hslot j)).1
    rw [(w.taken j hj hj').2] at hskb
    cases hskb
  · rw [stmmacClearDescriptors_slot (hslot j)]
    exact w.backed j hj hj'

end RxDrained

/-! ## The loops and the steps -/

namespace RxHolds

theorem congr (h : RxHolds c s) (hring : s'.ring = s.ring) (hdirty : s'.dirtyRx = s.dirtyRx)
    (hcur : s'.curRx = s.curRx) (htrace : s'.trace = s.trace) : RxHolds c s' where
  backed := h.backed.congr hring htrace
  drained hts := by
    obtain ⟨d, k, w⟩ := h.drained hts
    exact ⟨d, k, w.counters.congr hdirty hcur, by rw [hring]; exact w.taken,
      by rw [hring]; exact w.backed⟩

section Rounds

variable (ops : c.desc.Lawful) (hpos : 0 < c.dmaRxSize.toNat)
  (hp : c.stampsRx = true → IsPow2 c.dmaRxSize)

include ops hpos hp in
theorem consume {n : Nat} (h : RxHolds c s)
    (hfit : c.stampsRx = true → RoundsFit c s (n + 1))
    (hown : c.rxOwned (s.ring (c.rxEntry s.curRx)) = false) :
    RxHolds c (rxBody c s).1 ∧ (c.stampsRx = true → RoundsFit c (rxBody c s).1 n) := by
  have hbuf : c.stampsRx = true → (s.ring (c.rxEntry s.curRx)).skb.isSome = true := by
    intro hts
    obtain ⟨d, k, w⟩ := h.drained hts
    rw [w.counters.entry_cur (hp hts)]
    exact w.backed k (Nat.le_refl k) (w.lt_of_round (hfit hts))
  refine ⟨⟨h.backed.consume ops hpos hown hbuf, fun hts => ?_⟩, fun hts => ?_⟩
  · obtain ⟨d, k, w⟩ := h.drained hts
    exact ⟨d, k + 1, w.consume ops (hp hts) hts (w.lt_of_round (hfit hts)) hown⟩
  · obtain ⟨d, k, w⟩ := h.drained hts
    exact (hfit hts).next ops w.counters (w.lt_of_round (hfit hts))

include ops hpos hp in
theorem loop {n : Nat} (count : Nat) (h : RxHolds c s)
    (hfit : c.stampsRx = true → RoundsFit c s n) : RxHolds c (rxLoop c n s count).1 := by
  obtain ⟨-, hloop, -⟩ := rxLoop_invariant
    (I := fun n s => RxHolds c s ∧ (c.stampsRx = true → RoundsFit c s n))
    (fun hI hown => hI.1.consume ops hpos hp hI.2 hown) ⟨h, hfit⟩
  exact hloop

include hpos hp in
theorem refill {alloc : BitVec 32 → Option RxBuf} (h : RxHolds c s)
    (hg : rxRefillGuard c alloc s = true) :
    (c.stampsRx = true → (s.ring (c.rxEntry s.dirtyRx)).skb = none) ∧
      RxHolds c (rxRefillBody c alloc s) := by
  have hnone : c.stampsRx = true → (s.ring (c.rxEntry s.dirtyRx)).skb = none := by
    intro hts
    obtain ⟨d, k, w⟩ := h.drained hts
    exact (w.refill (hp hts) hg).1
  refine ⟨hnone, h.backed.refill hpos hg hnone, fun hts => ?_⟩
  obtain ⟨d, k, w⟩ := h.drained hts
  exact ⟨d + 1, k, (w.refill (hp hts) hg).2⟩

include hpos hp in
theorem refills (alloc : BitVec 32 → Option RxBuf) (h : RxHolds c s) :
    RxHolds c (stmmacRxRefill c alloc s) :=
  stmmacRxRefill_invariant (fun h hg => (h.refill hpos hp hg).2) h

include ops hpos hp in
theorem stmmacRx {alloc : BitVec 32 → Option RxBuf} {limit : BitVec 32} (h : RxHolds c s)
    (hfit : c.stampsRx = true → RoundsFit c s limit.toNat) :
    RxHolds c (stmmacRx c alloc s limit).1 := by
  have hloop := h.loop ops hpos hp 0 hfit
  obtain ⟨st, heq⟩ := stmmacRx_eq c s alloc limit
  rw [heq]
  split
  · exact hloop
  · exact (hloop.refills hpos hp alloc).congr rfl rfl rfl rfl

include hpos in
theorem receive {x : RxWrite} (h : RxHolds c f.rx) (hf : f.pos < c.dmaRxSize.toNat)
    (hs : rxReceive c f x = some f') : RxHolds c f'.rx ∧ f'.pos < c.dmaRxSize.toNat := by
  obtain ⟨hown, hgive, hstamp, rfl⟩ := rxReceive_eq hs
  refine ⟨⟨h.backed.receive hf hown hgive hstamp, fun hts => ?_⟩, Nat.mod_lt _ hpos⟩
  obtain ⟨d, k, w⟩ := h.drained hts
  exact ⟨d, k, w.receive hown⟩

include ops hpos hp in
theorem step (h : RxHolds c f.rx) (hf : f.pos < c.dmaRxSize.toNat) (hok : KeepsBacked c f a)
    (hs : rxStep c f a = some f') : RxHolds c f'.rx ∧ f'.pos < c.dmaRxSize.toNat := by
  unfold rxStep at hs
  split at hs
  · cases hs
  cases a with
  | receive w => exact h.receive hpos hf hs
  | rx alloc limit =>
    obtain rfl := Option.some.inj hs
    exact ⟨h.stmmacRx ops hpos hp hok, hf⟩
  | refill alloc =>
    obtain rfl := Option.some.inj hs
    exact ⟨h.refills hpos hp alloc, hf⟩
  | suspend =>
    obtain rfl := Option.some.inj hs
    refine ⟨⟨h.backed.clear hok, fun hts => ?_⟩, hf⟩
    obtain ⟨d, k, w⟩ := h.drained hts
    exact ⟨d, k, w.clear hpos hok⟩
  | resume =>
    obtain rfl := Option.some.inj hs
    exact ⟨h, hf⟩

end Rounds

theorem dmaBacked (h : RxHolds c s) : DmaBacked c s where
  buffer i hi hown := by
    have hslot := h.backed.slots i hi
    obtain ⟨hbuf, hdes⟩ := hslot.owned hown
    obtain ⟨skb, hskb⟩ := Option.isSome_iff_exists.mp hbuf
    obtain ⟨len, hmem⟩ := hslot.mapped skb hskb
    exact ⟨skb, len, hskb, hdes, hmem⟩
  live := by
    refine h.backed.skbs.mono fun i _ => ?_
    split_ifs
    · exact ⟨0, (add_zero _).symm⟩
    · exact ⟨(s.ring i).skbIds, (zero_add _).symm⟩
  mapped := by
    refine h.backed.maps.mono fun i _ => ?_
    split_ifs
    · exact ⟨0, (add_zero _).symm⟩
    · exact ⟨(s.ring i).mappings, (zero_add _).symm⟩

end RxHolds

/-! ## Initialisation -/

section Opened

variable {alloc : Nat → Option RxBuf} {mtu : BitVec 32}
  (halloc : ∀ i < c.dmaRxSize.toNat, (alloc i).isSome = true)

include halloc in
/-- The slots are filled one by one, each with its own buffer. -/
theorem initBuffers_backed (htrace : s.trace = []) : RxBacked c (c.initBuffers alloc s) := by
  have hloop := initRxLoop_invariant (c := c) (s := s) (i := 0) (n := c.dmaRxSize.toNat)
    (I := fun n t =>
      (∀ i < n, (t.ring i).skb.isSome = true ∧ (t.ring i).desc.des2 = (t.ring i).dma ∧
        ∀ skb, (t.ring i).skb = some skb →
          ∃ len, .dmaMapSingle skb.id (t.ring i).dma len ∈ t.trace) ∧
      Covers n RxSlot.skbIds t.ring (rxSkbEvents t.trace) ∧
      Covers n RxSlot.mappings t.ring (rxMapEvents t.trace))
    (fun {n t b} ht _ => by
      obtain ⟨hslots, hskbs, hmaps⟩ := ht
      rw [stmmacInitRxBuffers_eq]
      dsimp only
      refine ⟨fun i hi => ?_, ?_, ?_⟩
      · rcases Nat.eq_or_lt_of_le (Nat.le_of_lt_succ hi) with rfl | hlt
        · rw [Function.update_self]
          refine ⟨rfl, initSlot_des2 _ _ _, fun skb hskb => ⟨t.dmaBufSz, ?_⟩⟩
          obtain rfl : b.skb = skb := Option.some.inj hskb
          simp [Conf.initSlot, RxBuf.skb]
        · rw [Function.update_of_ne (Nat.ne_of_lt hlt)]
          obtain ⟨hbuf, hdes, hmap⟩ := hslots i hlt
          refine ⟨hbuf, hdes, fun skb hskb => ?_⟩
          obtain ⟨len, hmem⟩ := hmap skb hskb
          exact ⟨len, List.mem_append_left _ hmem⟩
      · rw [rxSkbEvents_append]
        exact hskbs.extend
          ⟨0, by simp [rxSkbEvents, RxSlot.skbIds, Conf.initSlot, RxBuf.skb, replay]⟩
      · rw [rxMapEvents_append]
        exact hmaps.extend ⟨0, by simp [rxMapEvents, RxSlot.mappings, Conf.initSlot, replay]⟩)
    (by simpa using halloc)
    ⟨fun i hi => absurd hi (Nat.not_lt_zero i), by rw [htrace]; exact covers_zero _,
      by rw [htrace]; exact covers_zero _⟩
  rw [Nat.zero_add] at hloop
  obtain ⟨⟨hslots, hskbs, hmaps⟩, -⟩ := hloop
  refine ⟨fun i hi => ?_, hskbs, hmaps⟩
  obtain ⟨hbuf, hdes, hmap⟩ := hslots i hi
  exact ⟨fun _ => ⟨hbuf, hdes⟩, hmap, fun _ _ => hdes⟩

include halloc in
theorem RxHolds.opened (hpos : 0 < c.dmaRxSize.toNat)
    (htrace : s.trace = []) : RxHolds c (initDmaDescRings c alloc mtu s) where
  backed := by
    have h := initBuffers_backed (s := s) halloc htrace
    refine ⟨fun i hi => ?_, ?_, ?_⟩
    · obtain ⟨hskb, hdma, hdes⟩ := initDmaDescRings_slot (s := s) alloc mtu hi
      obtain ⟨b, -, hb, hbdma, hbdes⟩ := initBuffers_slot (s := s) halloc hi
      have hplace := hdes.trans (hbdes.trans (hbdma.symm.trans hdma.symm))
      refine ⟨fun _ => ⟨by rw [hskb, hb]; rfl, hplace⟩, ?_, fun _ _ => hplace⟩
      rw [hskb, hdma, initDmaDescRings_trace]
      exact (h.slots i hi).mapped
    · rw [initDmaDescRings_trace]
      refine h.skbs.congr fun i hi => ?_
      rw [RxSlot.skbIds, (initDmaDescRings_slot alloc mtu hi).1, RxSlot.skbIds]
    · rw [initDmaDescRings_trace]
      refine h.maps.congr fun i hi => ?_
      rw [RxSlot.mappings, (initDmaDescRings_slot alloc mtu hi).1,
        (initDmaDescRings_slot alloc mtu hi).2.1, RxSlot.mappings]
  drained _ := by
    refine ⟨0, 0, ⟨initDmaDescRings_dirtyRx halloc, initDmaDescRings_curRx, Nat.le_refl 0,
      Nat.zero_le _⟩, fun j _ hj => absurd hj (Nat.not_lt_zero j), fun j _ _ => ?_⟩
    have hj := Nat.mod_lt j hpos
    obtain ⟨b, -, hskb, -⟩ := initBuffers_slot (s := s) halloc hj
    rw [(initDmaDescRings_slot alloc mtu hj).1, hskb]
    rfl

end Opened

/-- Every descriptor the DMA owns has its buffer, in every run in which `stmmac_suspend` finds the
buffers in place and, with time stamps, `stmmac_rx` stays within the lap. -/
theorem dma_owns_backed {alloc : Nat → Option RxBuf} {mtu : BitVec 32} {as : List RxAct}
    (ops : c.desc.Lawful) (hpos : 0 < c.dmaRxSize.toNat)
    (hp : c.stampsRx = true → IsPow2 c.dmaRxSize)
    (halloc : ∀ i < c.dmaRxSize.toNat, (alloc i).isSome = true) (htrace : s.trace = [])
    (run : Run (rxStep c) (KeepsBacked c) (.opened c alloc mtu s) as f) : DmaBacked c f.rx := by
  obtain ⟨h, -⟩ := run.invariant (I := fun f => RxHolds c f.rx ∧ f.pos < c.dmaRxSize.toNat)
    (fun ⟨h, hf⟩ hok hs => h.step ops hpos hp hf hok hs) ⟨.opened halloc hpos htrace, hpos⟩
  exact h.dmaBacked

theorem dma_owns_backed_suspended :
    ∃ f, Run (rxStep { Conf.normal 64 with hwtsRxEn := true })
        (KeepsBacked { Conf.normal 64 with hwtsRxEn := true })
        (.opened { Conf.normal 64 with hwtsRxEn := true } (fun i => some (.page i)) 1500 .blank)
        [.receive { RxWrite.frame (.replicate 64 1) with stamp := some (7, 9) },
          .receive (.frame (.replicate 64 2)), .rx (fun _ => none) 1,
          .rx (fun n => some (.page (64 + n.toNat))) 64, .suspend, .resume,
          .receive (.frame (.replicate 64 3))] f ∧
      DmaBacked { Conf.normal 64 with hwtsRxEn := true } f.rx :=
  exec_exists (by decide +kernel) fun _ run =>
    dma_owns_backed (c := { Conf.normal 64 with hwtsRxEn := true }) ndescOps_lawful (by decide)
      (fun _ => ⟨6, rfl⟩) (fun _ _ => rfl) rfl run

theorem not_dmaBacked {i : Nat} (hi : i < c.dmaRxSize.toNat)
    (h : c.rxOwned (s.ring i) = true ∧ (s.ring i).skb.isSome = false) : ¬ DmaBacked c s := by
  intro hb
  obtain ⟨skb, len, hskb, -⟩ := hb.buffer i hi h.1
  rw [hskb] at h
  cases h.2

/-- The DMA is given a descriptor without a buffer when the allocation for the last slot fails, and
when the interface is suspended after an allocation for the refill has failed. -/
theorem dma_owns_unbacked :
    ¬ DmaBacked (.normal 64) (initDmaDescRings (.normal 64)
        (fun i => if i < 63 then some (.page i) else none) 1500 .blank) ∧
      ∃ f, Run (rxStep (.normal 64)) (fun _ _ => True)
          (.opened (.normal 64) (fun i => some (.page i)) 1500 .blank)
          [.receive (.frame (.replicate 64 1)), .rx (fun _ => none) 64, .suspend] f ∧
        ¬ DmaBacked (.normal 64) f.rx := by
  refine ⟨not_dmaBacked (i := 63) (by decide) (by decide +kernel), ?_⟩
  have hreach : ∃ f, Run (rxStep (.normal 64)) (fun _ _ => True)
      (.opened (.normal 64) (fun i => some (.page i)) 1500 .blank)
      [.receive (.frame (.replicate 64 1)), .rx (fun _ => none) 64, .suspend] f ∧
      ((Conf.normal 64).rxOwned (f.rx.ring 0) = true ∧ (f.rx.ring 0).skb.isSome = false) :=
    exec_reaches (by decide +kernel)
  obtain ⟨f, run, h⟩ := hreach
  exact ⟨f, run, not_dmaBacked (by decide) h⟩

end Stmmac
