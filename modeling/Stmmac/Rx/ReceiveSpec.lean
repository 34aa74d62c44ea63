import Stmmac.Rx.Receive

/-!
# Receive side: what a round writes

A round of `stmmac_rx` takes the buffer out of one slot, or leaves the slot alone, and moves
`cur_rx`; a round of `stmmac_rx_refill` gives one slot back to the DMA and moves `dirty_rx`. What a
round does is a function of the slot it finds.
-/

namespace Stmmac

open Library

variable {c : Conf} {s : RxState}

/-! ## Rounds of `stmmac_rx` -/

/-- The verdict of `rx_status` on a slot. -/
def Conf.rxVerdict (c : Conf) (p : RxSlot) : RxFrameStatus := (c.desc.rxStatus {} p.desc.des01).2

/-- The buffer of a slot with its time stamp, `none` where there is none or the kernel stops. -/
def Conf.stampedRxSkb (c : Conf) (p : RxSlot) : Option RxSkb :=
  p.skb.bind (stmmacGetRxHwtstamp c p)

/-- The buffer of a slot after `skb_put`, `none` where there is none or the kernel stops. -/
def Conf.putSkb (c : Conf) (p : RxSlot) : Option RxSkb :=
  (c.stampedRxSkb p).bind fun skb => skbPut skb (c.rxFrameLen p (c.rxVerdict p))

/-- What remains to be done to a buffer before it is handed up. -/
def Conf.finishSkb (c : Conf) (skb : RxSkb) : RxSkb :=
  if c.rxCoe = .none then ethTypeTrans skb else { ethTypeTrans skb with ipSummed := true }

/-- The buffer that `stmmac_rx` hands up when it finds the slot. -/
def Conf.upSkb (c : Conf) (p : RxSlot) : Option RxSkb :=
  if c.rxVerdict p = .discardFrame then none else (c.putSkb p).map c.finishSkb

/-- The kernel stops: the time stamp is read through `NULL`, or `skb_put` runs past the end of the
buffer. -/
def Conf.rxPanics (c : Conf) (p : RxSlot) : Bool :=
  c.rxVerdict p != .discardFrame && p.skb.isSome && (c.putSkb p).isNone

/-- The loop is left. -/
def Conf.rxStops (c : Conf) (p : RxSlot) : Bool :=
  c.rxVerdict p != .discardFrame && (c.putSkb p).isNone

/-- The slot after the round. -/
def Conf.consumed (c : Conf) (p : RxSlot) : RxSlot :=
  if c.rxVerdict p = .discardFrame ∧ c.stampsRx = false then p else { p with skb := none }

/-- The calls of the round. -/
def Conf.rxCalls (c : Conf) (bufSz : BitVec 32) (entry : Nat) (p : RxSlot) : List RxCall :=
  .rxStatus entry p.desc ::
    if c.rxVerdict p = .discardFrame then
      if c.stampsRx then [.dmaUnmapSingle p.dma bufSz] else []
    else if (c.stampedRxSkb p).isSome then
      .skbPut entry (c.rxFrameLen p (c.rxVerdict p)) ::
        match c.upSkb p with
        | none => []
        | some skb => [.dmaUnmapSingle p.dma bufSz, .napiGroReceive skb]
    else []

/-- On a slot with a buffer the loop is left only when the kernel stops. -/
theorem rxPanics_of_stops {p : RxSlot} (hskb : p.skb.isSome = true) (h : c.rxStops p = true) :
    c.rxPanics p = true := by
  simpa [Conf.rxPanics, hskb, Conf.rxStops] using h

/-- A time stamp changes nothing else of a buffer. -/
theorem stmmacGetRxHwtstamp_eq {p : RxSlot} {skb skb' : RxSkb}
    (h : stmmacGetRxHwtstamp c p skb = some skb') : ∃ ts, skb' = { skb with hwtstamp := ts } := by
  unfold stmmacGetRxHwtstamp at h
  split_ifs at h
  · exact ⟨skb.hwtstamp, (Option.some.inj h).symm⟩
  · exact ⟨skb.hwtstamp, (Option.some.inj h).symm⟩
  · exact ⟨_, (Option.some.inj h).symm⟩

theorem stampedRxSkb_none {p : RxSlot} (h : p.skb = none) : c.stampedRxSkb p = none := by
  rw [Conf.stampedRxSkb, h, Option.bind_none]

theorem putSkb_none {p : RxSlot} (h : p.skb = none) : c.putSkb p = none := by
  rw [Conf.putSkb, stampedRxSkb_none h, Option.bind_none]

/-- A buffer that is put is that of the slot, with a time stamp. -/
theorem putSkb_some {p : RxSlot} {skb put : RxSkb} (hskb : p.skb = some skb)
    (h : c.putSkb p = some put) : ∃ ts, c.stampedRxSkb p = some { skb with hwtstamp := ts } ∧
      skbPut { skb with hwtstamp := ts } (c.rxFrameLen p (c.rxVerdict p)) = some put := by
  obtain ⟨stamped, hstamped, hput⟩ := Option.bind_eq_some_iff.mp h
  have hread : stmmacGetRxHwtstamp c p skb = some stamped := by
    rwa [Conf.stampedRxSkb, hskb, Option.bind_some] at hstamped
  obtain ⟨ts, rfl⟩ := stmmacGetRxHwtstamp_eq hread
  exact ⟨ts, hstamped, hput⟩

/-- What is handed up got past the time stamp. -/
theorem stampedRxSkb_of_upSkb {p : RxSlot} {skb : RxSkb} (h : c.upSkb p = some skb) :
    (c.stampedRxSkb p).isSome = true := by
  cases hstamped : c.stampedRxSkb p with
  | none => simp [Conf.upSkb, Conf.putSkb, hstamped] at h
  | some _ => rfl

/-- The calls for a frame that is handed up. -/
theorem rxCalls_of_upSkb {p : RxSlot} {skb : RxSkb} (h : c.upSkb p = some skb)
    (bufSz : BitVec 32) (entry : Nat) :
    c.rxCalls bufSz entry p =
      [.rxStatus entry p.desc, .skbPut entry (c.rxFrameLen p (c.rxVerdict p)),
        .dmaUnmapSingle p.dma bufSz, .napiGroReceive skb] := by
  have hpass : c.rxVerdict p ≠ .discardFrame := by
    intro hdisc
    simp [Conf.upSkb, hdisc] at h
  rw [Conf.rxCalls, if_neg hpass, if_pos (stampedRxSkb_of_upSkb h), h]

/-- The calls for a frame that is neither discarded nor handed up. -/
theorem rxCalls_of_stops {p : RxSlot} (hd : c.rxVerdict p ≠ .discardFrame)
    (h : c.upSkb p = none) (bufSz : BitVec 32) (entry : Nat) :
    c.rxCalls bufSz entry p =
      .rxStatus entry p.desc :: if (c.stampedRxSkb p).isSome then
        [.skbPut entry (c.rxFrameLen p (c.rxVerdict p))] else [] := by
  rw [Conf.rxCalls, if_neg hd, h]

/-- The calls for a frame without a buffer. -/
theorem rxCalls_of_none {p : RxSlot} (hd : c.rxVerdict p ≠ .discardFrame) (h : p.skb = none)
    (bufSz : BitVec 32) (entry : Nat) : c.rxCalls bufSz entry p = [.rxStatus entry p.desc] := by
  rw [Conf.rxCalls, if_neg hd, stampedRxSkb_none h]
  rfl

theorem readRxStatus_snd (ops : c.desc.Lawful) (st : Stats) (p : RxSlot) :
    (c.readRxStatus st p).2 = c.rxVerdict p := by
  have hst := ops.rxStatus_stats st {} p.desc.des01
  unfold Conf.readRxStatus Conf.rxVerdict
  rw [← hst]
  split <;> simp_all

@[simp] theorem consumed_desc (p : RxSlot) : (c.consumed p).desc = p.desc := by
  unfold Conf.consumed; split <;> rfl

/-- A round, as a function of the slot it finds. -/
theorem rxBody_eq (ops : c.desc.Lawful) :
    let entry := c.rxEntry s.curRx
    let p := s.ring entry
    ∃ st, rxBody c s =
      ({ s with
          ring := Function.update s.ring entry (c.consumed p)
          curRx := s.curRx + 1
          halted := s.halted || c.rxPanics p
          stats := st
          trace := s.trace ++ c.rxCalls s.dmaBufSz entry p }, c.rxStops p) := by
  generalize hp : s.ring (c.rxEntry s.curRx) = p
  have hself : Function.update s.ring (c.rxEntry s.curRx) p = s.ring := by rw [← hp]; simp
  have hver := readRxStatus_snd ops s.stats p
  generalize hread : c.readRxStatus s.stats p = read at hver
  obtain ⟨st, status⟩ := read
  obtain rfl : status = c.rxVerdict p := hver
  by_cases hd : c.rxVerdict p = .discardFrame
  · cases hts : c.stampsRx
    · apply Exists.intro
      simp [rxBody, hp, hread, hd, rxDiscard, hts, Conf.consumed, Conf.rxPanics, Conf.rxStops,
        Conf.rxCalls, RxState.call, hself]
      rfl
    · apply Exists.intro
      simp [rxBody, hp, hread, hd, rxDiscard, hts, Conf.consumed, Conf.rxPanics, Conf.rxStops,
        Conf.rxCalls, RxState.call, RxState.modify]
      rfl
  · cases hskb : p.skb with
    | none =>
      have hnone : ({ p with skb := none } : RxSlot) = p := by rw [← hskb]
      apply Exists.intro
      simp [rxBody, hp, hread, hd, rxDeliver, hskb, Conf.consumed, Conf.rxPanics, Conf.rxStops,
        Conf.rxCalls, Conf.putSkb, Conf.stampedRxSkb, RxState.call, hself, hnone]
      rfl
    | some skb =>
      cases hts : stmmacGetRxHwtstamp c p skb with
      | none =>
        apply Exists.intro
        simp [rxBody, hp, hread, hd, rxDeliver, hskb, hts, Conf.consumed, Conf.rxPanics,
          Conf.rxStops, Conf.rxCalls, Conf.putSkb, Conf.stampedRxSkb, RxState.call,
          RxState.modify]
        rfl
      | some stamped =>
        cases hput : skbPut stamped (c.rxFrameLen p (c.rxVerdict p)) with
        | none =>
          apply Exists.intro
          simp [rxBody, hp, hread, hd, rxDeliver, hskb, hts, hput, Conf.consumed, Conf.rxPanics,
            Conf.rxStops, Conf.rxCalls, Conf.putSkb, Conf.stampedRxSkb, Conf.upSkb, RxState.call,
            RxState.modify]
          rfl
        | some skb' =>
          apply Exists.intro
          simp [rxBody, hp, hread, hd, rxDeliver, hskb, hts, hput, Conf.consumed, Conf.rxPanics,
            Conf.rxStops, Conf.rxCalls, Conf.putSkb, Conf.stampedRxSkb, Conf.upSkb,
            Conf.finishSkb, RxState.call, RxState.modify]
          rfl

section Round

variable (ops : c.desc.Lawful)

include ops in
theorem rxBody_ring :
    (rxBody c s).1.ring = Function.update s.ring (c.rxEntry s.curRx)
      (c.consumed (s.ring (c.rxEntry s.curRx))) := by
  obtain ⟨_, h⟩ := rxBody_eq (s := s) ops
  rw [h]

include ops in
theorem rxBody_curRx : (rxBody c s).1.curRx = s.curRx + 1 := by
  obtain ⟨_, h⟩ := rxBody_eq (s := s) ops
  rw [h]

include ops in
theorem rxBody_dirtyRx : (rxBody c s).1.dirtyRx = s.dirtyRx := by
  obtain ⟨_, h⟩ := rxBody_eq (s := s) ops
  rw [h]

include ops in
theorem rxBody_dmaBufSz : (rxBody c s).1.dmaBufSz = s.dmaBufSz := by
  obtain ⟨_, h⟩ := rxBody_eq (s := s) ops
  rw [h]

include ops in
theorem rxBody_halted :
    (rxBody c s).1.halted = (s.halted || c.rxPanics (s.ring (c.rxEntry s.curRx))) := by
  obtain ⟨_, h⟩ := rxBody_eq (s := s) ops
  rw [h]

include ops in
theorem rxBody_trace :
    (rxBody c s).1.trace = s.trace ++
      c.rxCalls s.dmaBufSz (c.rxEntry s.curRx) (s.ring (c.rxEntry s.curRx)) := by
  obtain ⟨_, h⟩ := rxBody_eq (s := s) ops
  rw [h]

include ops in
theorem rxBody_stops : (rxBody c s).2 = c.rxStops (s.ring (c.rxEntry s.curRx)) := by
  obtain ⟨_, h⟩ := rxBody_eq (s := s) ops
  rw [h]

end Round

/-! ## Rounds of `stmmac_rx_refill` -/

section Refill

variable {alloc : BitVec 32 → Option RxBuf}

/-- The slot with a new buffer. -/
def Conf.allocSlot (c : Conf) (b : RxBuf) (p : RxSlot) : RxSlot :=
  let desc := { p.desc with des2 := b.dma }
  { desc := { desc with des3 := c.ring.refillDesc3 desc }, skb := some b.skb, dma := b.dma }

/-- The slot given back to the DMA. -/
def Conf.refilled (c : Conf) (b : Option RxBuf) (p : RxSlot) : RxSlot :=
  match p.skb, b with
  | none, some b => (c.allocSlot b p).mapDes c.desc.setRxOwner
  | _, _ => p.mapDes c.desc.setRxOwner

/-- The calls of the round. -/
def Conf.refillCalls (bufSz : BitVec 32) (b : Option RxBuf) (p : RxSlot) : List RxCall :=
  match p.skb, b with
  | none, some b => [.netdevAllocSkb b.id bufSz, .dmaMapSingle b.id b.dma bufSz]
  | _, _ => []

theorem rxRefillBody_eq :
    let entry := c.rxEntry s.dirtyRx
    let p := s.ring entry
    rxRefillBody c alloc s =
      { s with
        ring := Function.update s.ring entry (c.refilled (alloc s.dirtyRx) p)
        dirtyRx := s.dirtyRx + 1
        trace := s.trace ++ Conf.refillCalls s.dmaBufSz (alloc s.dirtyRx) p } := by
  dsimp only
  generalize hp : s.ring (c.rxEntry s.dirtyRx) = p
  cases hs : p.skb <;> cases hb : alloc s.dirtyRx <;>
    simp [rxRefillBody, hp, hs, hb, rxRefillSlot, Conf.refilled, Conf.refillCalls, Conf.allocSlot,
      RxState.call, RxState.modify]

theorem rxRefillGuard_iff :
    rxRefillGuard c alloc s = true ↔ s.curRx ≠ s.dirtyRx ∧
      ((s.ring (c.rxEntry s.dirtyRx)).skb.isSome ∨ (alloc s.dirtyRx).isSome) := by
  have hsub : s.curRx - s.dirtyRx = 0#32 ↔ s.curRx = s.dirtyRx := by bv_omega
  simp [rxRefillGuard, hsub]

/-- A slot given back has a buffer. -/
theorem refilled_skb {b : Option RxBuf} {p : RxSlot} (h : p.skb.isSome ∨ b.isSome) :
    (c.refilled b p).skb.isSome := by
  unfold Conf.refilled
  cases hs : p.skb <;> cases b <;> simp_all [RxSlot.mapDes, Conf.allocSlot]

theorem refilled_owned (ops : c.desc.Lawful) (b : Option RxBuf) (p : RxSlot) :
    c.rxOwned (c.refilled b p) = true := by
  unfold Conf.refilled Conf.rxOwned
  split <;> simp [RxSlot.mapDes, ops.rxOwner_set]

theorem stmmacRxRefill_invariant {I : RxState → Prop}
    (hbody : ∀ {s : RxState}, I s → rxRefillGuard c alloc s = true → I (rxRefillBody c alloc s))
    (hs : I s) : I (stmmacRxRefill c alloc s) :=
  iterate_invariant (I := I) hbody hs

theorem stmmacRxRefill_halted (c : Conf) (alloc : BitVec 32 → Option RxBuf) (s : RxState) :
    (stmmacRxRefill c alloc s).halted = s.halted :=
  stmmacRxRefill_invariant (I := fun t => t.halted = s.halted)
    (fun h _ => by rw [rxRefillBody_eq]; exact h) rfl

/-- The refill ends because it has caught up with `cur_rx` or an allocation fails. -/
theorem stmmacRxRefill_exit (c : Conf) (alloc : BitVec 32 → Option RxBuf) (s : RxState) :
    rxRefillGuard c alloc (stmmacRxRefill c alloc s) = false := by
  refine iterate_exit (fun s => (s.curRx - s.dirtyRx).toNat) ?_ (Nat.le_refl _)
  intro s hg
  have hne := (rxRefillGuard_iff.mp hg).1
  rw [rxRefillBody_eq]
  dsimp only
  bv_omega

end Refill

/-! ## The whole call -/

/-- What the rounds of the loop preserve, the loop preserves; the invariant may depend on the
number of rounds left. -/
theorem rxLoop_invariant {I : Nat → RxState → Prop}
    (hbody : ∀ {n : Nat} {s : RxState}, I (n + 1) s →
      c.rxOwned (s.ring (c.rxEntry s.curRx)) = false → I n (rxBody c s).1)
    {n count : Nat} (hs : I n s) : ∃ m, I m (rxLoop c n s count).1 := by
  induction n generalizing s count with
  | zero => exact ⟨0, hs⟩
  | succ n ih =>
    unfold rxLoop
    split
    · exact ⟨n + 1, hs⟩
    · next hown =>
      have hnext := hbody hs (by simpa using hown)
      generalize rxBody c s = r at hnext
      obtain ⟨s', stop⟩ := r
      cases stop with
      | true => exact ⟨n, hnext⟩
      | false => exact ih hnext

/-- `stmmac_rx` is its loop and, unless the kernel stops there, the refill. -/
theorem stmmacRx_eq (c : Conf) (s : RxState) (alloc : BitVec 32 → Option RxBuf)
    (limit : BitVec 32) :
    let s' := (rxLoop c limit.toNat s 0).1
    ∃ st, (stmmacRx c alloc s limit).1 =
      if s'.halted then s' else { stmmacRxRefill c alloc s' with stats := st } := by
  unfold stmmacRx
  generalize rxLoop c limit.toNat s 0 = r
  obtain ⟨s', count⟩ := r
  dsimp only
  apply Exists.intro
  split <;> rfl

end Stmmac
