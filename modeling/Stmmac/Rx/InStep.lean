import Stmmac.Rx.InitSpec

/-!
# Receive side: in step with the device

In the terms of the window, the frames from `k` to `p` are those at the end of `received`, as the
device left them, and the frames before `k` have been examined once each, in the order in which
they came. `stmmac_rx` must not go round the ring: a descriptor it has consumed looks like one the
device has completed until `stmmac_rx_refill` gives it back.
-/

namespace Stmmac

open Library

/-- `stmmac_rx` is called with a descriptor left to the DMA or a limit within the lap; nothing is
suspended. -/
def WithinLap (c : Conf) (s : RxHw) : RxAct → Prop
  | .rx _ limit => RoundsFit c s.rx limit.toNat
  | .suspend => False
  | .receive _ | .refill _ | .resume => True

instance (c : Conf) (s : RxHw) : ∀ a, Decidable (WithinLap c s a)
  | .rx _ limit => inferInstanceAs (Decidable (RoundsFit c s.rx limit.toNat))
  | .suspend => inferInstanceAs (Decidable False)
  | .receive _ | .refill _ | .resume => inferInstanceAs (Decidable True)

/-- `n` frames have been consumed: `cur_rx` is at the oldest one left, or else at the device, the
`n` frames were examined once each and those with a good status were delivered, in order. -/
structure RxInStep (c : Conf) (s : RxHw) (n : Nat) : Prop where
  lap : (s.rx.curRx - s.rx.dirtyRx).toNat ≤ c.dmaRxSize.toNat
  oldest : c.rxEntry s.rx.curRx = (s.received[n]?.map Prod.fst).getD s.pos
  examined : examined s.rx.trace = (s.received.take n).map fun r => (r.1, r.2.desc)
  delivered : delivered s.rx.trace = (s.received.take n).filterMap fun r => c.upSkb r.2
  good : s.rx.halted = false → ∀ r ∈ s.received.take n, c.rxVerdict r.2 ≠ .discardFrame →
    (c.upSkb r.2).isSome = true

structure RxInv (c : Conf) (s : RxState) (pos : Nat) (received : List (Nat × RxSlot))
    (d k p : Nat) : Prop where
  window : RxWindow c s pos d k p
  length : received.length = p
  waiting : ∀ j, k ≤ j → j < p →
    received[j]? = some (j % c.dmaRxSize.toNat, s.ring (j % c.dmaRxSize.toNat))
  examined : examined s.trace = (received.take k).map fun r => (r.1, r.2.desc)
  delivered : delivered s.trace = (received.take k).filterMap fun r => c.upSkb r.2
  good : s.halted = false → ∀ r ∈ received.take k, c.rxVerdict r.2 ≠ .discardFrame →
    (c.upSkb r.2).isSome = true

variable {c : Conf} {s s' : RxState} {f f' : RxHw} {a : RxAct} {pos d k p : Nat}
  {received : List (Nat × RxSlot)}

/-! ## Events of the calls -/

theorem upSkb_none {q : RxSlot} (h : q.skb = none) : c.upSkb q = none := by
  simp [Conf.upSkb, putSkb_none h]

theorem examined_rxCalls (bufSz : BitVec 32) (entry : Nat) (q : RxSlot) :
    examined (c.rxCalls bufSz entry q) = [(entry, q.desc)] := by
  unfold Conf.rxCalls
  split_ifs
  · rfl
  · rfl
  · cases c.upSkb q <;> rfl
  · rfl

theorem delivered_rxCalls (bufSz : BitVec 32) (entry : Nat) (q : RxSlot) :
    delivered (c.rxCalls bufSz entry q) = (c.upSkb q).toList := by
  unfold Conf.rxCalls
  split_ifs with hd hts hskb
  · simp [Conf.upSkb, hd, Stmmac.delivered]
  · simp [Conf.upSkb, hd, Stmmac.delivered]
  · cases c.upSkb q <;> rfl
  · have hnone : c.stampedRxSkb q = none := by simpa using hskb
    simp [Conf.upSkb, Conf.putSkb, hnone, Stmmac.delivered]

theorem examined_refillCalls (bufSz : BitVec 32) (b : Option RxBuf) (q : RxSlot) :
    examined (Conf.refillCalls bufSz b q) = [] := by
  unfold Conf.refillCalls
  split <;> rfl

theorem delivered_refillCalls (bufSz : BitVec 32) (b : Option RxBuf) (q : RxSlot) :
    delivered (Conf.refillCalls bufSz b q) = [] := by
  unfold Conf.refillCalls
  split <;> rfl

/-! ## Rounds -/

namespace RxInv

theorem congr (inv : RxInv c s pos received d k p) (hring : s'.ring = s.ring)
    (hdirty : s'.dirtyRx = s.dirtyRx) (hcur : s'.curRx = s.curRx) (htrace : s'.trace = s.trace)
    (hhalted : s'.halted = s.halted) : RxInv c s' pos received d k p where
  window := inv.window.congr hring hdirty hcur
  length := inv.length
  waiting := by rw [hring]; exact inv.waiting
  examined := by rw [htrace]; exact inv.examined
  delivered := by rw [htrace]; exact inv.delivered
  good := by rw [hhalted]; exact inv.good

/-- `stmmac_rx` consumes the oldest frame that waits. -/
theorem consume (ops : c.desc.Lawful) (hp : IsPow2 c.dmaRxSize)
    (inv : RxInv c s pos received d k p) (hlt : k < p) :
    RxInv c (rxBody c s).1 pos received d (k + 1) p := by
  have w := inv.window
  have hle := w.le
  have hN := w.lt
  have hentry := w.entry_cur hp
  generalize hq : s.ring (k % c.dmaRxSize.toNat) = q
  have hk : received[k]? = some (k % c.dmaRxSize.toNat, q) := hq ▸ inv.waiting k (Nat.le_refl k) hlt
  have htake : received.take (k + 1) = received.take k ++ [(k % c.dmaRxSize.toNat, q)] := by
    rw [List.take_add_one, hk, Option.toList_some]
  refine ⟨w.consume ops hp hlt, inv.length, fun j hj hj' => ?_, ?_, ?_, fun hrun r hr hv => ?_⟩
  · rw [rxBody_ring ops, hentry,
      update_of_lap (d := d) (by omega) (by omega) (by omega) (by omega) (by omega)]
    exact inv.waiting j (by omega) hj'
  · rw [rxBody_trace ops, examined_append, examined_rxCalls, inv.examined, hentry, hq, htake]
    simp
  · rw [rxBody_trace ops, delivered_append, delivered_rxCalls, inv.delivered, hentry, hq, htake]
    cases hup : c.upSkb q <;> simp [hup]
  · rw [rxBody_halted ops, hentry, hq, Bool.or_eq_false_iff] at hrun
    rw [htake] at hr
    rcases List.mem_append.mp hr with hr | hr
    · exact inv.good hrun.1 r hr hv
    · -- the frame just consumed has a buffer and did not stop the kernel
      obtain rfl := List.mem_singleton.mp hr
      have hskb : q.skb.isSome = true := hq ▸ w.backed k (Nat.le_refl k) (by omega)
      have hput : (c.putSkb q).isSome = true := by
        simpa [Conf.rxPanics, hv, hskb] using hrun.2
      simpa [Conf.upSkb, hv] using hput

/-- `stmmac_rx_refill` gives back the oldest slot that was consumed. -/
theorem refill (ops : c.desc.Lawful) (hp : IsPow2 c.dmaRxSize)
    {alloc : BitVec 32 → Option RxBuf} (inv : RxInv c s pos received d k p)
    (hg : rxRefillGuard c alloc s = true) :
    RxInv c (rxRefillBody c alloc s) pos received (d + 1) k p := by
  have w := inv.window
  have hN := w.lt
  have hle' := w.le'
  have hentry := w.entry_dirty hp
  obtain ⟨hdk, w'⟩ := w.refill ops hp hg
  refine ⟨w', inv.length, fun j hj hj' => ?_, ?_, ?_, ?_⟩
  · rw [rxRefillBody_eq]
    dsimp only
    rw [hentry,
      update_of_lap (d := d) (by omega) (by omega) (by omega) (by omega) (by omega)]
    exact inv.waiting j hj hj'
  · rw [rxRefillBody_eq, examined_append, examined_refillCalls, List.append_nil]
    exact inv.examined
  · rw [rxRefillBody_eq, delivered_append, delivered_refillCalls, List.append_nil]
    exact inv.delivered
  · rw [rxRefillBody_eq]
    exact inv.good

/-- The device receives a frame. -/
theorem receive (hp : IsPow2 c.dmaRxSize) (inv : RxInv c f.rx f.pos f.received d k p)
    {x : RxWrite} (h : rxReceive c f x = some f') :
    RxInv c f'.rx f'.pos f'.received d k (p + 1) := by
  obtain ⟨hown, hgive, -, rfl⟩ := rxReceive_eq h
  have w := inv.window
  have hle := w.le
  have hle' := w.le'
  have hlen := inv.length
  obtain ⟨hroom, w'⟩ := w.receive hp hown hgive
  have htake : (f.received ++ [(f.pos, (f.rx.ring f.pos).write x)]).take k = f.received.take k :=
    List.take_append_of_le_length (by omega)
  refine ⟨w', by simp [hlen], fun j hj hj' => ?_, by rw [htake]; exact inv.examined,
    by rw [htake]; exact inv.delivered, by rw [htake]; exact inv.good⟩
  rw [RxState.modify_ring, w.pos_eq]
  rcases Nat.eq_or_lt_of_le (Nat.le_of_lt_succ hj') with rfl | hlt
  · rw [Function.update_self, ← hlen, List.getElem?_concat_length]
  · rw [update_of_lap (d := d) (by omega) (by omega) (by omega) hroom (by omega),
      List.getElem?_append_left (by omega)]
    exact inv.waiting j hj hlt

/-- The loop consumes all frames that wait, or as many as it is allowed, unless the kernel
stops. -/
theorem loop (ops : c.desc.Lawful) (hp : IsPow2 c.dmaRxSize) {n : Nat} (count : Nat)
    (inv : RxInv c s pos received d k p) (hfit : RoundsFit c s n) :
    ∃ k', RxInv c (rxLoop c n s count).1 pos received d k' p ∧
      (k' = p ∨ k' = k + n ∨ (rxLoop c n s count).1.halted = true) := by
  induction n generalizing s k count with
  | zero => exact ⟨k, inv, .inr (.inl rfl)⟩
  | succ n ih =>
    have w := inv.window
    unfold rxLoop
    split
    · next hown =>
      -- the DMA owns the next descriptor: nothing waits
      refine ⟨k, inv, .inl ?_⟩
      by_contra hne
      have hle' := w.le'
      rw [w.entry_cur hp, w.taken k w.le (by omega)] at hown
      cases hown
    · next hown =>
      have hlt := w.waiting_of_round hp hfit (by simpa using hown)
      have inv' := inv.consume ops hp hlt
      have hfit' := hfit.next ops w.counters (by have := w.lt; omega)
      have hstop := rxBody_stops (s := s) ops
      have hhalt := rxBody_halted (s := s) ops
      generalize rxBody c s = r at inv' hfit' hstop hhalt
      obtain ⟨s', stop⟩ := r
      cases stop with
      | true =>
        refine ⟨k + 1, inv', .inr (.inr ?_)⟩
        have hskb := w.backed k (Nat.le_refl k) (by have := w.lt; omega)
        rw [← w.entry_cur hp] at hskb
        have hpanic := rxPanics_of_stops hskb hstop.symm
        exact hhalt.trans (by rw [hpanic, Bool.or_true])
      | false =>
        obtain ⟨k', inv'', hend⟩ := ih (count + 1) inv' hfit'
        exact ⟨k', inv'', hend.imp_right (.imp_left fun h => by omega)⟩

theorem refills (ops : c.desc.Lawful) (hp : IsPow2 c.dmaRxSize)
    (alloc : BitVec 32 → Option RxBuf) (inv : RxInv c s pos received d k p) :
    ∃ d', RxInv c (stmmacRxRefill c alloc s) pos received d' k p :=
  stmmacRxRefill_invariant (I := fun s => ∃ d, RxInv c s pos received d k p)
    (fun ⟨d, inv⟩ hg => ⟨d + 1, inv.refill ops hp hg⟩) ⟨d, inv⟩

theorem stmmacRx (ops : c.desc.Lawful) (hp : IsPow2 c.dmaRxSize)
    (alloc : BitVec 32 → Option RxBuf) {limit : BitVec 32}
    (inv : RxInv c s pos received d k p) (hfit : RoundsFit c s limit.toNat) :
    ∃ d' k', RxInv c (stmmacRx c alloc s limit).1 pos received d' k' p := by
  obtain ⟨k', inv', -⟩ := inv.loop ops hp 0 hfit
  obtain ⟨st, heq⟩ := stmmacRx_eq c s alloc limit
  rw [heq]
  split
  · exact ⟨d, k', inv'⟩
  · obtain ⟨d', inv''⟩ := inv'.refills ops hp alloc
    exact ⟨d', k', inv''.congr rfl rfl rfl rfl rfl⟩

/-- Without failing allocations every consumed slot is given back. -/
theorem refills_all (ops : c.desc.Lawful) (hp : IsPow2 c.dmaRxSize) (alloc : BitVec 32 → RxBuf)
    (inv : RxInv c s pos received d k p) :
    RxInv c (stmmacRxRefill c (fun n => some (alloc n)) s) pos received k k p := by
  obtain ⟨d', inv'⟩ := inv.refills ops hp fun n => some (alloc n)
  have hexit := stmmacRxRefill_exit c (fun n => some (alloc n)) s
  have heq : (stmmacRxRefill c (fun n => some (alloc n)) s).curRx =
      (stmmacRxRefill c (fun n => some (alloc n)) s).dirtyRx := by
    simpa [rxRefillGuard_iff, ← Bool.not_eq_true] using hexit
  have hsub := inv'.window.toNat_sub
  rw [heq, BitVec.sub_self] at hsub
  have hle := inv'.window.le
  obtain rfl : d' = k := by
    simp at hsub
    omega
  exact inv'

/-- Then a call that the kernel survives ends with nothing waiting, or at its limit. -/
theorem stmmacRx_all (ops : c.desc.Lawful) (hp : IsPow2 c.dmaRxSize)
    (alloc : BitVec 32 → RxBuf) {limit : BitVec 32} (inv : RxInv c s pos received d k p)
    (hfit : RoundsFit c s limit.toNat) :
    (Stmmac.stmmacRx c (fun n => some (alloc n)) s limit).1.halted = true ∨
      ∃ k', RxInv c (Stmmac.stmmacRx c (fun n => some (alloc n)) s limit).1 pos received k' k' p ∧
        (k' = p ∨ k' = k + limit.toNat) := by
  obtain ⟨k', inv', hend⟩ := inv.loop ops hp 0 hfit
  obtain ⟨st, heq⟩ := stmmacRx_eq c s (fun n => some (alloc n)) limit
  rw [heq]
  split
  · next hhalt => exact .inl hhalt
  · next hrun =>
    refine .inr ⟨k', (inv'.refills_all ops hp alloc).congr rfl rfl rfl rfl rfl, ?_⟩
    exact hend.imp_right fun h => h.resolve_right hrun

theorem step (ops : c.desc.Lawful) (hp : IsPow2 c.dmaRxSize)
    (inv : RxInv c f.rx f.pos f.received d k p) (hok : WithinLap c f a)
    (hs : rxStep c f a = some f') : ∃ d' k' p', RxInv c f'.rx f'.pos f'.received d' k' p' := by
  unfold rxStep at hs
  split at hs
  · cases hs
  cases a with
  | receive w => exact ⟨d, k, p + 1, inv.receive hp hs⟩
  | rx alloc limit =>
    obtain rfl := Option.some.inj hs
    obtain ⟨d', k', inv'⟩ := inv.stmmacRx ops hp alloc hok
    exact ⟨d', k', p, inv'⟩
  | refill alloc =>
    obtain rfl := Option.some.inj hs
    obtain ⟨d', inv'⟩ := inv.refills ops hp alloc
    exact ⟨d', k, p, inv'⟩
  | suspend => exact hok.elim
  | resume =>
    obtain rfl := Option.some.inj hs
    exact ⟨d, k, p, inv⟩

end RxInv

theorem initBuffers_events {alloc : Nat → Option RxBuf}
    (halloc : ∀ i < c.dmaRxSize.toNat, (alloc i).isSome = true) :
    examined (c.initBuffers alloc s).trace = examined s.trace ∧
      delivered (c.initBuffers alloc s).trace = delivered s.trace := by
  have hloop := initRxLoop_invariant (c := c) (s := s) (i := 0) (n := c.dmaRxSize.toNat)
    (I := fun _ t => examined t.trace = examined s.trace ∧ delivered t.trace = delivered s.trace)
    (fun {i t b} ht _ => by
      rw [stmmacInitRxBuffers_eq]
      simpa [examined_append, delivered_append, examined, delivered] using ht)
    (by simpa using halloc) ⟨rfl, rfl⟩
  exact hloop.1

theorem RxInv.opened (ops : c.desc.Lawful) (hp : IsPow2 c.dmaRxSize)
    {alloc : Nat → Option RxBuf} {mtu : BitVec 32}
    (halloc : ∀ i < c.dmaRxSize.toNat, (alloc i).isSome = true) (htrace : s.trace = []) :
    RxInv c (initDmaDescRings c alloc mtu s) 0 [] 0 0 0 := by
  obtain ⟨hex, hdel⟩ := initBuffers_events (s := s) halloc
  rw [htrace, ← initDmaDescRings_trace mtu] at hex hdel
  exact
    { window := .opened halloc ops hp
      length := rfl
      waiting := fun _ _ hj => absurd hj (Nat.not_lt_zero _)
      examined := hex
      delivered := hdel
      good := fun _ _ hr => absurd hr List.not_mem_nil }

theorem RxInv.inStep (hp : IsPow2 c.dmaRxSize) (inv : RxInv c f.rx f.pos f.received d k p) :
    RxInStep c f (Stmmac.examined f.rx.trace).length := by
  have w := inv.window
  have hle' := w.le'
  have hlen := inv.length
  have hn : (Stmmac.examined f.rx.trace).length = k := by
    rw [inv.examined, List.length_map, List.length_take]
    omega
  rw [hn]
  refine ⟨?_, ?_, inv.examined, inv.delivered, inv.good⟩
  · rw [w.toNat_sub]
    have := w.lt
    omega
  · rw [w.entry_cur hp]
    rcases Nat.eq_or_lt_of_le hle' with rfl | hlt
    · rw [List.getElem?_eq_none (by omega), w.pos_eq]
      rfl
    · rw [inv.waiting k (Nat.le_refl k) hlt]
      rfl

section Run

variable {as : List RxAct} (ops : c.desc.Lawful) (hp : IsPow2 c.dmaRxSize)
  {alloc : Nat → Option RxBuf} {mtu : BitVec 32}
  (halloc : ∀ i < c.dmaRxSize.toNat, (alloc i).isSome = true) (htrace : s.trace = [])

include ops hp halloc htrace

theorem RxInv.run (run : Run (rxStep c) (WithinLap c) (.opened c alloc mtu s) as f) :
    ∃ d k p, RxInv c f.rx f.pos f.received d k p :=
  run.invariant (I := fun f => ∃ d k p, RxInv c f.rx f.pos f.received d k p)
    (fun ⟨_, _, _, inv⟩ hok hs => inv.step ops hp hok hs)
    ⟨0, 0, 0, .opened ops hp halloc htrace⟩

/-- The driver and the device stay in step in every run in which `stmmac_rx` does not go round the
ring. -/
theorem rx_in_step (run : Run (rxStep c) (WithinLap c) (.opened c alloc mtu s) as f) :
    RxInStep c f (Stmmac.examined f.rx.trace).length := by
  obtain ⟨d, k, p, inv⟩ := RxInv.run ops hp halloc htrace run
  exact inv.inStep hp

end Run

theorem rx_in_step_two_frames :
    ∃ f, Run (rxStep (.normal 64)) (WithinLap (.normal 64))
        (.opened (.normal 64) (fun i => some (.page i)) 1500 .blank)
        [.receive (.frame (.replicate 64 1)), .receive (.frame (.replicate 80 2)),
          .rx (fun _ => none) 1, .receive (.frame (.replicate 64 3)),
          .rx (fun n => some (.page (64 + n.toNat))) 64] f ∧
      RxInStep (.normal 64) f (examined f.rx.trace).length :=
  exec_exists (by decide +kernel) fun _ run =>
    rx_in_step (c := .normal 64) ndescOps_lawful ⟨6, rfl⟩ (fun _ _ => rfl) rfl run

/-- With all 16 slots waiting and a limit of 17, `stmmac_rx` examines the first one twice and ends
up a slot ahead of the device. -/
theorem rx_out_of_step :
    ∃ f, Run (rxStep (.normal 16)) (fun _ _ => True)
        (.opened (.normal 16) (fun i => some (.page i)) 1500 .blank)
        (.replicate 16 (.receive (.frame (.replicate 64 1))) ++
          [.rx (fun n => some (.page (16 + n.toNat))) 17]) f ∧
      ¬ RxInStep (.normal 16) f (examined f.rx.trace).length := by
  have hreach : ∃ f, Run (rxStep (.normal 16)) (fun _ _ => True)
      (.opened (.normal 16) (fun i => some (.page i)) 1500 .blank)
      (.replicate 16 (.receive (.frame (.replicate 64 1))) ++
        [.rx (fun n => some (.page (16 + n.toNat))) 17]) f ∧
      (Conf.normal 16).rxEntry f.rx.curRx = 1 ∧ f.pos = 0 ∧
      (examined f.rx.trace).length = 17 ∧ f.received.length = 16 := exec_reaches (by decide +kernel)
  obtain ⟨f, run, hcur, hpos, hn, hlen⟩ := hreach
  refine ⟨f, run, fun h => ?_⟩
  have hold := h.oldest
  rw [hn, List.getElem?_eq_none (by omega), hcur, hpos] at hold
  cases hold

end Stmmac
