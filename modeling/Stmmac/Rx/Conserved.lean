import Stmmac.Rx.Backed
import Stmmac.Rx.Walk

/-!
# Receive side: conservation of the buffers

An skb allocated for the ring is in a slot of `rx_skbuff`, or was handed to the stack, or was
freed, and in one of these places only. Three branches break this. Where the device writes time
stamps over the buffer words, `stmmac_rx` takes the skb of a discarded frame out of its slot and
frees it nowhere. With extended descriptors the time stamp of a good frame is read from `dma_rx`,
which is `NULL` then, after the slot was emptied. And the slot is empty as well when a frame longer
than its buffer stops the kernel. With no such frame among those `stmmac_rx` examines, nothing is
lost.
-/

namespace Stmmac

open Library

/-- The skbs allocated. -/
def allocatedIds (trace : List RxCall) : Multiset Nat :=
  (trace.filterMap fun
    | .netdevAllocSkb id _ => some id
    | _ => none : List Nat)

/-- The skbs handed to the stack. -/
def handedIds (trace : List RxCall) : Multiset Nat :=
  ((delivered trace).map RxSkb.id : List Nat)

/-- The skbs freed. -/
def freedIds (trace : List RxCall) : Multiset Nat :=
  (trace.filterMap fun
    | .devKfreeSkbAny id => some id
    | _ => none : List Nat)

/-- Every skb allocated is in exactly one place: a slot, the stack, or the free list. -/
def Accounted (c : Conf) (s : RxState) : Prop :=
  allocatedIds s.trace = ∑ i ∈ Finset.range c.dmaRxSize.toNat, (s.ring i).skbIds +
    handedIds s.trace + freedIds s.trace

instance (c : Conf) (s : RxState) : Decidable (Accounted c s) :=
  inferInstanceAs (Decidable (_ = _))

/-- A slot that has its skb, with a frame to discard where the device writes time stamps over the
buffer words, or with one to hand up for which the time stamp is read through `NULL` or the buffer
is too short. -/
def Conf.dropsBuffer (c : Conf) (p : RxSlot) : Prop :=
  ∃ skb ∈ p.skb,
    if c.rxVerdict p = .discardFrame then c.stampsRx = true
    else (c.hwtsRxEn = true ∧ c.stampRing = false) ∨
      skb.tail + c.rxFrameLen p (c.rxVerdict p) > skb.end_

instance (c : Conf) (p : RxSlot) : Decidable (c.dropsBuffer p) :=
  inferInstanceAs (Decidable (∃ skb ∈ p.skb,
    if c.rxVerdict p = .discardFrame then c.stampsRx = true
    else (c.hwtsRxEn = true ∧ c.stampRing = false) ∨
      skb.tail + c.rxFrameLen p (c.rxVerdict p) > skb.end_))

/-- `stmmac_rx` examines no slot whose buffer it drops. -/
def KeepsBuffers (c : Conf) (s : RxHw) : RxAct → Prop
  | .rx _ limit => ExaminesNone c s.rx limit.toNat fun j => c.dropsBuffer (s.rx.ahead c j)
  | .receive _ | .refill _ | .suspend | .resume => True

instance (c : Conf) (s : RxHw) : ∀ a, Decidable (KeepsBuffers c s a)
  | .rx _ limit => inferInstanceAs (Decidable (ExaminesNone c s.rx limit.toNat _))
  | .receive _ | .refill _ | .suspend | .resume => inferInstanceAs (Decidable True)

variable {c : Conf} {s s' : RxState} {f f' : RxHw} {a : RxAct} {q q' : RxSlot}
  {calls l₁ l₂ : List RxCall}

/-! ## The balance of a slot -/

theorem allocatedIds_append : allocatedIds (l₁ ++ l₂) = allocatedIds l₁ + allocatedIds l₂ := by
  simp [allocatedIds]

theorem handedIds_append : handedIds (l₁ ++ l₂) = handedIds l₁ + handedIds l₂ := by
  simp [handedIds, delivered_append]

theorem freedIds_append : freedIds (l₁ ++ l₂) = freedIds l₁ + freedIds l₂ := by
  simp [freedIds]

/-- The calls account for what becomes of the buffer of a slot. -/
def Settled (q q' : RxSlot) (calls : List RxCall) : Prop :=
  allocatedIds calls + q.skbIds = q'.skbIds + handedIds calls + freedIds calls

/-- The kernel does not stop at a slot that keeps its buffer. -/
theorem rxPanics_of_keeps (hdrop : ¬ c.dropsBuffer q) : c.rxPanics q = false := by
  by_contra hpanic
  simp only [Conf.rxPanics, Bool.not_eq_false, Bool.and_eq_true, bne_iff_ne,
    Option.isNone_iff_eq_none] at hpanic
  obtain ⟨⟨hd, hsome⟩, hnone⟩ := hpanic
  obtain ⟨skb, hskb⟩ := Option.isSome_iff_exists.mp hsome
  refine hdrop ⟨skb, hskb, ?_⟩
  rw [if_neg hd]
  by_contra hgood
  obtain ⟨hring, hroom⟩ := not_or.mp hgood
  obtain ⟨stamped, hstamped⟩ : ∃ stamped, stmmacGetRxHwtstamp c q skb = some stamped := by
    unfold stmmacGetRxHwtstamp
    cases hen : c.hwtsRxEn <;> cases hstamp : c.stampRing <;> simp_all
    split <;> exact ⟨_, rfl⟩
  obtain ⟨ts, rfl⟩ := stmmacGetRxHwtstamp_eq hstamped
  rw [Conf.putSkb, Conf.stampedRxSkb, hskb, Option.bind_some, hstamped, Option.bind_some, skbPut,
    if_neg hroom] at hnone
  cases hnone

/-- A round that does not drop its buffer hands it up or leaves it. -/
theorem settled_rxCalls (hdrop : ¬ c.dropsBuffer q) (bufSz : BitVec 32) (entry : Nat) :
    Settled q (c.consumed q) (c.rxCalls bufSz entry q) := by
  by_cases hd : c.rxVerdict q = .discardFrame
  · cases hts : c.stampsRx
    · simp [Settled, Conf.consumed, Conf.rxCalls, hd, hts, allocatedIds, handedIds, freedIds,
        delivered]
    · have hskb : q.skb = none := by
        by_contra hne
        obtain ⟨skb, hskb⟩ := Option.ne_none_iff_exists'.mp hne
        exact hdrop ⟨skb, hskb, by rwa [if_pos hd]⟩
      simp [Settled, Conf.consumed, Conf.rxCalls, hd, hts, allocatedIds, handedIds, freedIds,
        delivered, RxSlot.skbIds, hskb]
  · cases hskb : q.skb with
    | none =>
      rw [rxCalls_of_none hd hskb]
      simp [Settled, Conf.consumed, hd, hskb, allocatedIds, handedIds, freedIds, delivered,
        RxSlot.skbIds]
    | some skb =>
      have hrun := rxPanics_of_keeps hdrop
      obtain ⟨put, hput⟩ : ∃ put, c.putSkb q = some put := by
        simpa [Conf.rxPanics, hd, hskb, Option.isNone_iff_eq_none, Option.ne_none_iff_exists',
          Option.isSome_iff_exists] using hrun
      have hup : c.upSkb q = some (c.finishSkb put) := by simp [Conf.upSkb, hd, hput]
      have hid := upSkb_id hskb hup
      rw [rxCalls_of_upSkb hup]
      simp [Settled, Conf.consumed, hd, hskb, allocatedIds, handedIds, freedIds, delivered,
        RxSlot.skbIds, hid]

theorem settled_refillCalls (bufSz : BitVec 32) (b : Option RxBuf) (q : RxSlot) :
    Settled q (c.refilled b q) (Conf.refillCalls bufSz b q) := by
  cases hskb : q.skb <;> cases b <;> simp [Settled, Conf.refillCalls, Conf.refilled, hskb,
    allocatedIds, handedIds, freedIds, delivered, RxSlot.skbIds, RxSlot.mapDes, Conf.allocSlot,
    RxBuf.skb]

theorem settled_free (bufSz : BitVec 32) (q : RxSlot) :
    Settled q { q with skb := none } (q.freeCalls bufSz) := by
  cases hskb : q.skb <;> simp [Settled, RxSlot.freeCalls, hskb, allocatedIds, handedIds,
    freedIds, delivered, RxSlot.skbIds]

/-! ## What each step keeps -/

namespace Accounted

theorem congr (h : Accounted c s) (hring : s'.ring = s.ring) (htrace : s'.trace = s.trace) :
    Accounted c s' := by
  unfold Accounted
  rw [hring, htrace]
  exact h

/-- A write to one slot, with the calls that account for it. -/
theorem write {e : Nat} (h : Accounted c s) (he : e < c.dmaRxSize.toNat)
    (hring : s'.ring = Function.update s.ring e q) (htrace : s'.trace = s.trace ++ calls)
    (hbal : Settled (s.ring e) q calls) : Accounted c s' := by
  obtain ⟨rest, hold, hnew⟩ := Ring.exists_sum_rest RxSlot.skbIds s.ring he
  unfold Accounted at h ⊢
  rw [hring, htrace, allocatedIds_append, handedIds_append, freedIds_append, h, hold, hnew]
  calc (s.ring e).skbIds + rest + handedIds s.trace + freedIds s.trace + allocatedIds calls
      = allocatedIds calls + (s.ring e).skbIds + (rest + handedIds s.trace + freedIds s.trace) := by
        ac_rfl
    _ = q.skbIds + handedIds calls + freedIds calls +
          (rest + handedIds s.trace + freedIds s.trace) := by rw [hbal]
    _ = q.skbIds + rest + (handedIds s.trace + handedIds calls) +
          (freedIds s.trace + freedIds calls) := by ac_rfl

theorem consume (ops : c.desc.Lawful) (hpos : 0 < c.dmaRxSize.toNat) (h : Accounted c s)
    (hdrop : ¬ c.dropsBuffer (s.ring (c.rxEntry s.curRx))) : Accounted c (rxBody c s).1 :=
  h.write (rxEntry_lt hpos s.curRx) (rxBody_ring ops) (rxBody_trace ops)
    (settled_rxCalls hdrop _ _)

theorem refill {alloc : BitVec 32 → Option RxBuf} (hpos : 0 < c.dmaRxSize.toNat)
    (h : Accounted c s) : Accounted c (rxRefillBody c alloc s) :=
  h.write (rxEntry_lt hpos s.dirtyRx) (by rw [rxRefillBody_eq]) (by rw [rxRefillBody_eq])
    (settled_refillCalls s.dmaBufSz (alloc s.dirtyRx) _)

/-- A reception writes into the buffer and leaves it where it is. -/
theorem receive {e : Nat} {w : RxWrite} (h : Accounted c s) (he : e < c.dmaRxSize.toNat) :
    Accounted c (s.modify e (·.write w)) := by
  have hkeep : ((s.ring e).write w).skbIds = (s.ring e).skbIds := by
    unfold RxSlot.skbIds RxSlot.write
    dsimp only
    split_ifs
    · cases (s.ring e).skb <;> rfl
    · rfl
  refine h.write he rfl (List.append_nil _).symm (?_ : Settled _ _ [])
  simp [Settled, hkeep, allocatedIds, handedIds, freedIds, delivered]

theorem clear (h : Accounted c s) : Accounted c (stmmacClearDescriptors c s) := by
  have hsum : ∑ i ∈ Finset.range c.dmaRxSize.toNat,
      ((stmmacClearDescriptors c s).ring i).skbIds =
        ∑ i ∈ Finset.range c.dmaRxSize.toNat, (s.ring i).skbIds := by
    refine Finset.sum_congr rfl fun i hi => ?_
    rw [stmmacClearDescriptors_slot (Finset.mem_range.mp hi)]
    rfl
  unfold Accounted
  rw [hsum]
  exact h

/-- The round of slot `i` frees its buffer. -/
theorem freeSlot {i : Nat} (h : Accounted c s) (hi : i < c.dmaRxSize.toNat) :
    Accounted c (freeRxSkbuf s i) :=
  h.write hi (by rw [freeRxSkbuf_eq]) (by rw [freeRxSkbuf_eq]) (settled_free s.dmaBufSz _)

theorem free (h : Accounted c s) : Accounted c (dmaFreeRxSkbufs c s) := by
  have hrounds : ∀ n ≤ c.dmaRxSize.toNat, Accounted c ((List.range n).foldl freeRxSkbuf s) := by
    intro n
    induction n with
    | zero => exact fun _ => h
    | succ n ih =>
      intro hn
      rw [List.range_succ, List.foldl_append]
      exact (ih (by omega)).freeSlot (by omega)
  exact hrounds _ (Nat.le_refl _)

end Accounted

/-! ## The loop of `stmmac_rx` -/

/-- A slot met again has lost its buffer, so it is not one that drops it. -/
theorem dropsBuffer_rxBody (ops : c.desc.Lawful) {j : Nat}
    (h : c.dropsBuffer ((rxBody c s).1.ahead c j)) : c.dropsBuffer (s.ahead c (j + 1)) := by
  rw [ahead_rxBody ops] at h
  split_ifs at h with he
  · obtain ⟨skb, hskb, hbad⟩ := h
    unfold Conf.consumed at hskb hbad
    by_cases hkept : c.rxVerdict (s.ahead c (j + 1)) = .discardFrame ∧ c.stampsRx = false
    · rw [if_pos hkept, if_pos hkept.1, hkept.2] at hbad
      cases hbad
    · rw [if_neg hkept] at hskb
      cases hskb
  · exact h

theorem rxLoop_accounted (ops : c.desc.Lawful) (hpos : 0 < c.dmaRxSize.toNat) {n : Nat}
    (count : Nat) (h : s.halted = false ∧ Accounted c s)
    (hkeep : ExaminesNone c s n fun j => c.dropsBuffer (s.ahead c j)) :
    (rxLoop c n s count).1.halted = false ∧ Accounted c (rxLoop c n s count).1 := by
  have hround : ∀ {s : RxState}, (s.halted = false ∧ Accounted c s) →
      ¬ c.dropsBuffer (s.ahead c 0) →
      (rxBody c s).1.halted = false ∧ Accounted c (rxBody c s).1 := fun h hgood => by
    rw [ahead_zero] at hgood
    refine ⟨?_, h.2.consume ops hpos hgood⟩
    rw [rxBody_halted ops, h.1, rxPanics_of_keeps hgood]
    rfl
  exact rxLoop_examines (I := fun s => s.halted = false ∧ Accounted c s)
    (P := fun s j => c.dropsBuffer (s.ahead c j)) ops (fun h _ => hround h)
    (dropsBuffer_rxBody ops) count h hkeep

/-! ## Steps and runs -/

namespace Accounted

theorem refills (hpos : 0 < c.dmaRxSize.toNat) (alloc : BitVec 32 → Option RxBuf)
    (h : Accounted c s) : Accounted c (stmmacRxRefill c alloc s) :=
  stmmacRxRefill_invariant (fun h _ => h.refill hpos) h

theorem stmmacRx (ops : c.desc.Lawful) (hpos : 0 < c.dmaRxSize.toNat)
    {alloc : BitVec 32 → Option RxBuf} {limit : BitVec 32}
    (h : s.halted = false ∧ Accounted c s)
    (hkeep : ExaminesNone c s limit.toNat fun j => c.dropsBuffer (s.ahead c j)) :
    (stmmacRx c alloc s limit).1.halted = false ∧ Accounted c (stmmacRx c alloc s limit).1 := by
  obtain ⟨hlive, hloop⟩ := rxLoop_accounted ops hpos 0 h hkeep
  obtain ⟨st, heq⟩ := stmmacRx_eq c s alloc limit
  rw [heq, if_neg (Bool.eq_false_iff.mp hlive)]
  exact ⟨(stmmacRxRefill_halted c alloc _).trans hlive, (hloop.refills hpos alloc).congr rfl rfl⟩

theorem step (ops : c.desc.Lawful) (hpos : 0 < c.dmaRxSize.toNat)
    (h : f.rx.halted = false ∧ Accounted c f.rx) (hf : f.pos < c.dmaRxSize.toNat)
    (hok : KeepsBuffers c f a) (hs : rxStep c f a = some f') :
    f'.rx.halted = false ∧ Accounted c f'.rx := by
  unfold rxStep at hs
  split at hs
  · cases hs
  cases a with
  | receive w =>
    obtain ⟨-, -, -, rfl⟩ := rxReceive_eq hs
    exact ⟨h.1, h.2.receive hf⟩
  | rx alloc limit =>
    obtain rfl := Option.some.inj hs
    exact stmmacRx ops hpos h hok
  | refill alloc =>
    obtain rfl := Option.some.inj hs
    exact ⟨(stmmacRxRefill_halted c alloc _).trans h.1, h.2.refills hpos alloc⟩
  | suspend =>
    obtain rfl := Option.some.inj hs
    exact ⟨h.1, h.2.clear⟩
  | resume =>
    obtain rfl := Option.some.inj hs
    exact h

theorem opened {alloc : Nat → Option RxBuf} {mtu : BitVec 32}
    (halloc : ∀ i < c.dmaRxSize.toNat, (alloc i).isSome = true) (htrace : s.trace = []) :
    Accounted c (initDmaDescRings c alloc mtu s) := by
  have hloop := initRxLoop_invariant (c := c) (s := s) (i := 0) (n := c.dmaRxSize.toNat)
    (I := fun n t => allocatedIds t.trace = ∑ i ∈ Finset.range n, (t.ring i).skbIds +
      handedIds t.trace + freedIds t.trace)
    (fun {n t b} ht _ => by
      rw [stmmacInitRxBuffers_eq]
      simp only [allocatedIds_append, handedIds_append, freedIds_append, ht, Ring.sum_extend]
      simp [allocatedIds, handedIds, freedIds, delivered, RxSlot.skbIds, Conf.initSlot, RxBuf.skb]
      ac_rfl)
    (by simpa using halloc) (by simp [htrace, allocatedIds, handedIds, freedIds, delivered])
  have hsum : ∑ i ∈ Finset.range c.dmaRxSize.toNat,
      ((initDmaDescRings c alloc mtu s).ring i).skbIds =
        ∑ i ∈ Finset.range c.dmaRxSize.toNat, ((c.initBuffers alloc s).ring i).skbIds := by
    refine Finset.sum_congr rfl fun i hi => ?_
    rw [RxSlot.skbIds, (initDmaDescRings_slot alloc mtu (Finset.mem_range.mp hi)).1, RxSlot.skbIds]
  unfold Accounted
  rw [hsum, initDmaDescRings_trace, Conf.initBuffers]
  simpa using hloop.1

end Accounted

theorem rxStep_pos (hpos : 0 < c.dmaRxSize.toNat) (hf : f.pos < c.dmaRxSize.toNat)
    (hs : rxStep c f a = some f') : f'.pos < c.dmaRxSize.toNat := by
  unfold rxStep at hs
  split at hs
  · cases hs
  cases a with
  | receive w =>
    obtain ⟨-, -, -, rfl⟩ := rxReceive_eq hs
    exact Nat.mod_lt _ hpos
  | rx _ _ | refill _ | suspend | resume =>
    obtain rfl := Option.some.inj hs
    exact hf

/-- In any run in which `stmmac_rx` examines no slot whose buffer it drops the kernel never stops
and no skb is lost; freeing the ring then leaves none in a slot. -/
theorem rx_buffers_conserved {alloc : Nat → Option RxBuf} {mtu : BitVec 32} {as : List RxAct}
    (ops : c.desc.Lawful) (hpos : 0 < c.dmaRxSize.toNat)
    (halloc : ∀ i < c.dmaRxSize.toNat, (alloc i).isSome = true) (hlive : s.halted = false)
    (htrace : s.trace = [])
    (run : Run (rxStep c) (KeepsBuffers c) (.opened c alloc mtu s) as f) :
    f.rx.halted = false ∧ Accounted c f.rx ∧ Accounted c (dmaFreeRxSkbufs c f.rx) ∧
      ∀ i < c.dmaRxSize.toNat, ((dmaFreeRxSkbufs c f.rx).ring i).skb = none := by
  obtain ⟨-, hend, h⟩ := run.invariant
    (I := fun f => f.pos < c.dmaRxSize.toNat ∧ f.rx.halted = false ∧ Accounted c f.rx)
    (fun ⟨hf, h⟩ hok hs => ⟨rxStep_pos hpos hf hs, Accounted.step ops hpos h hf hok hs⟩)
    ⟨hpos, initDmaDescRings_halted.trans hlive, .opened halloc htrace⟩
  refine ⟨hend, h, h.free, fun i hi => ?_⟩
  simp [dmaFreeRxSkbufs_eq, Ring.mapBelow_of_lt hi]

theorem rx_buffers_conserved_refill_fails :
    ∃ f, Run (rxStep { Conf.normal 64 with hwtsRxEn := true })
        (KeepsBuffers { Conf.normal 64 with hwtsRxEn := true })
        (.opened { Conf.normal 64 with hwtsRxEn := true } (fun i => some (.page i)) 1500 .blank)
        [.receive { RxWrite.frame (.replicate 64 1) with stamp := some (7, 9) },
          .receive (.frame (.replicate 64 2)), .rx (fun _ => none) 1,
          .rx (fun n => some (.page (64 + n.toNat))) 4] f ∧
      Accounted { Conf.normal 64 with hwtsRxEn := true } f.rx :=
  (exec_reaches (P := fun _ => True) (by decide +kernel)).imp
    fun _ ⟨run, _⟩ => ⟨run, (rx_buffers_conserved
      (c := { Conf.normal 64 with hwtsRxEn := true }) ndescOps_lawful (by decide) (fun _ _ => rfl)
        rfl rfl run).2.1⟩

/-- A frame without a last-descriptor flag is discarded, and its skb is nowhere any more. -/
theorem discard_loses_buffer :
    ∃ f, Run (rxStep { Conf.normal 64 with hwtsRxEn := true }) (fun _ _ => True)
        (.opened { Conf.normal 64 with hwtsRxEn := true } (fun i => some (.page i)) 1500 .blank)
        [.receive { des01 := ⟨0, 0⟩, stamp := some (7, 9), bytes := [] },
          .rx (fun n => some (.page (64 + n.toNat))) 1] f ∧
      f.rx.halted = false ∧ ¬ Accounted { Conf.normal 64 with hwtsRxEn := true } f.rx :=
  exec_reaches (by decide +kernel)

end Stmmac
