import Stmmac.Rx.Window

/-!
# Receive side: alike states

`eth_type_trans` writes `protocol` and `mac_header` of a buffer without reading them. States that
differ only there, and in the statistics and the calls made, take the same steps and deliver the
same buffers.
-/

namespace Stmmac

open Library

/-- Other values for the fields that `eth_type_trans` writes. -/
def RxSkb.relabel (macHeader : Nat) (protocol : BitVec 16) (skb : RxSkb) : RxSkb :=
  { skb with macHeader := macHeader, protocol := protocol }

def RxSlot.relabel (macHeader : Nat) (protocol : BitVec 16) (p : RxSlot) : RxSlot :=
  { p with skb := p.skb.map (·.relabel macHeader protocol) }

/-- The slots differ in those fields at most. -/
def RxSlot.Alike (p q : RxSlot) : Prop := ∃ m x, q = p.relabel m x

/-- The states differ in those fields, the statistics and the calls; the same was delivered. -/
structure RxState.Alike (s t : RxState) : Prop where
  ring : ∀ i, (s.ring i).Alike (t.ring i)
  curRx : t.curRx = s.curRx
  dirtyRx : t.dirtyRx = s.dirtyRx
  dmaBufSz : t.dmaBufSz = s.dmaBufSz
  halted : t.halted = s.halted
  delivered : delivered t.trace = delivered s.trace

variable {c : Conf} {s t s' t' : RxState} {p q : RxSlot} {m : Nat} {x : BitVec 16}

theorem RxSlot.Alike.refl (p : RxSlot) : p.Alike p := by
  obtain ⟨desc, skb, dma⟩ := p
  cases skb with
  | none => exact ⟨0, 0, rfl⟩
  | some skb => exact ⟨skb.macHeader, skb.protocol, rfl⟩

theorem RxState.Alike.refl (s : RxState) : s.Alike s :=
  ⟨fun _ => .refl _, rfl, rfl, rfl, rfl, rfl⟩

theorem RxSlot.Alike.trans {r : RxSlot} (h : p.Alike q) (h' : q.Alike r) : p.Alike r := by
  obtain ⟨m, x, rfl⟩ := h
  obtain ⟨m', x', rfl⟩ := h'
  refine ⟨m', x', ?_⟩
  cases hskb : p.skb <;> simp [relabel, RxSkb.relabel, hskb]

theorem RxState.Alike.trans {u : RxState} (h : s.Alike t) (h' : t.Alike u) : s.Alike u where
  ring i := (h.ring i).trans (h'.ring i)
  curRx := h'.curRx.trans h.curRx
  dirtyRx := h'.dirtyRx.trans h.dirtyRx
  dmaBufSz := h'.dmaBufSz.trans h.dmaBufSz
  halted := h'.halted.trans h.halted
  delivered := h'.delivered.trans h.delivered

/-! ## Slots -/

@[simp] theorem relabel_owned : c.rxOwned (p.relabel m x) = c.rxOwned p := rfl

@[simp] theorem relabel_verdict : c.rxVerdict (p.relabel m x) = c.rxVerdict p := rfl

@[simp] theorem relabel_skb_isSome : (p.relabel m x).skb.isSome = p.skb.isSome := by
  simp [RxSlot.relabel]

theorem relabel_of_none (h : p.skb = none) : p.relabel m x = p := by
  obtain ⟨desc, skb, dma⟩ := p
  obtain rfl : skb = none := h
  rfl

theorem relabel_mapDes (f : Des01 → Des01) :
    (p.relabel m x).mapDes f = (p.mapDes f).relabel m x := rfl

/-- `eth_type_trans` does not read the fields it writes. -/
theorem ethTypeTrans_relabel (skb : RxSkb) :
    ethTypeTrans (skb.relabel m x) = ethTypeTrans skb := by
  unfold ethTypeTrans skbPullInline RxSkb.relabel
  by_cases h : ethHlen > skb.len.toNat
  · simp only [h, if_true]
    rfl
  · simp only [h, if_false]
    rfl

theorem stmmacGetRxHwtstamp_relabel (skb : RxSkb) :
    stmmacGetRxHwtstamp c (p.relabel m x) (skb.relabel m x) =
      (stmmacGetRxHwtstamp c p skb).map (·.relabel m x) := by
  unfold stmmacGetRxHwtstamp RxSlot.relabel RxSkb.relabel
  split_ifs <;> rfl

theorem stampedRxSkb_relabel :
    c.stampedRxSkb (p.relabel m x) = (c.stampedRxSkb p).map (·.relabel m x) := by
  cases hskb : p.skb with
  | none => rw [relabel_of_none hskb, stampedRxSkb_none hskb, Option.map_none]
  | some skb =>
    have hnew : (p.relabel m x).skb = some (skb.relabel m x) := by simp [RxSlot.relabel, hskb]
    rw [Conf.stampedRxSkb, Conf.stampedRxSkb, hnew, hskb, Option.bind_some, Option.bind_some,
      stmmacGetRxHwtstamp_relabel]

theorem skbPut_relabel (skb : RxSkb) (len : Int) :
    skbPut (skb.relabel m x) len = (skbPut skb len).map (·.relabel m x) := by
  unfold skbPut RxSkb.relabel
  split_ifs <;> rfl

theorem putSkb_relabel : c.putSkb (p.relabel m x) = (c.putSkb p).map (·.relabel m x) := by
  unfold Conf.putSkb
  rw [stampedRxSkb_relabel]
  cases c.stampedRxSkb p with
  | none => rfl
  | some skb => exact skbPut_relabel skb _

/-- The same buffer is handed up. -/
theorem upSkb_relabel : c.upSkb (p.relabel m x) = c.upSkb p := by
  unfold Conf.upSkb
  rw [relabel_verdict, putSkb_relabel]
  cases c.putSkb p with
  | none => rfl
  | some skb => simp [Conf.finishSkb, ethTypeTrans_relabel]

theorem rxCalls_relabel (bufSz : BitVec 32) (entry : Nat) :
    c.rxCalls bufSz entry (p.relabel m x) = c.rxCalls bufSz entry p := by
  unfold Conf.rxCalls
  rw [relabel_verdict, stampedRxSkb_relabel, Option.isSome_map, upSkb_relabel]
  rfl

theorem rxPanics_relabel : c.rxPanics (p.relabel m x) = c.rxPanics p := by
  unfold Conf.rxPanics
  rw [relabel_verdict, relabel_skb_isSome, putSkb_relabel, Option.isNone_map]

theorem rxStops_relabel : c.rxStops (p.relabel m x) = c.rxStops p := by
  unfold Conf.rxStops
  rw [relabel_verdict, putSkb_relabel, Option.isNone_map]

theorem RxSlot.Alike.consumed (h : p.Alike q) : (c.consumed p).Alike (c.consumed q) := by
  obtain ⟨m, x, rfl⟩ := h
  refine ⟨m, x, ?_⟩
  unfold Conf.consumed
  rw [relabel_verdict]
  split_ifs <;> rfl

theorem RxSlot.Alike.refilled (h : p.Alike q) (b : Option RxBuf) :
    (c.refilled b p).Alike (c.refilled b q) := by
  obtain ⟨m, x, rfl⟩ := h
  unfold Conf.refilled
  cases hskb : p.skb with
  | none =>
    rw [relabel_of_none hskb, hskb]
    exact .refl _
  | some skb =>
    have hnew : (p.relabel m x).skb = some (skb.relabel m x) := by simp [relabel, hskb]
    rw [hnew]
    exact ⟨m, x, rfl⟩

theorem refillCalls_relabel (bufSz : BitVec 32) (b : Option RxBuf) :
    Conf.refillCalls bufSz b (p.relabel m x) = Conf.refillCalls bufSz b p := by
  unfold Conf.refillCalls
  cases hskb : p.skb <;> simp [RxSlot.relabel, hskb]

theorem RxSlot.Alike.write (h : p.Alike q) (w : RxWrite) : (p.write w).Alike (q.write w) := by
  obtain ⟨m, x, rfl⟩ := h
  refine ⟨m, x, ?_⟩
  cases hskb : p.skb with
  | none => simp [RxSlot.write, relabel, hskb]
  | some skb =>
    simp only [RxSlot.write, relabel, hskb, Option.map_some]
    split_ifs <;> rfl

/-! ## Steps -/

theorem RxState.Alike.update {e : Nat} {r r' : Nat → RxSlot} (h : ∀ i, (r i).Alike (r' i))
    (hq : p.Alike q) (i : Nat) :
    (Function.update r e p i).Alike (Function.update r' e q i) := by
  rw [Function.update_apply, Function.update_apply]
  split_ifs
  · exact hq
  · exact h i

namespace RxState.Alike

theorem body (ops : c.desc.Lawful) (h : s.Alike t) :
    (rxBody c s).1.Alike (rxBody c t).1 ∧ (rxBody c t).2 = (rxBody c s).2 := by
  obtain ⟨m, x, hslot⟩ := h.ring (c.rxEntry s.curRx)
  have hcalls : c.rxCalls t.dmaBufSz (c.rxEntry t.curRx) (t.ring (c.rxEntry t.curRx)) =
      c.rxCalls s.dmaBufSz (c.rxEntry s.curRx) (s.ring (c.rxEntry s.curRx)) := by
    rw [h.curRx, h.dmaBufSz, hslot, rxCalls_relabel]
  refine ⟨⟨fun i => ?_, ?_, ?_, ?_, ?_, ?_⟩, ?_⟩
  · rw [rxBody_ring ops, rxBody_ring ops, h.curRx]
    exact update h.ring (RxSlot.Alike.consumed ⟨m, x, hslot⟩) i
  · rw [rxBody_curRx ops, rxBody_curRx ops, h.curRx]
  · rw [rxBody_dirtyRx ops, rxBody_dirtyRx ops, h.dirtyRx]
  · rw [rxBody_dmaBufSz ops, rxBody_dmaBufSz ops, h.dmaBufSz]
  · rw [rxBody_halted ops, rxBody_halted ops, h.halted, h.curRx, hslot, rxPanics_relabel]
  · rw [rxBody_trace ops, rxBody_trace ops, hcalls]
    rw [delivered_append, delivered_append, h.delivered]
  · rw [rxBody_stops ops, rxBody_stops ops, h.curRx, hslot, rxStops_relabel]

theorem loop (ops : c.desc.Lawful) {n : Nat} (count : Nat) (h : s.Alike t) :
    (rxLoop c n s count).1.Alike (rxLoop c n t count).1 := by
  induction n generalizing s t count with
  | zero => exact h
  | succ n ih =>
    obtain ⟨m, x, hslot⟩ := h.ring (c.rxEntry s.curRx)
    unfold rxLoop
    rw [h.curRx, hslot, relabel_owned]
    split
    · exact h
    · obtain ⟨hbody, hstop⟩ := h.body ops
      generalize rxBody c s = r, rxBody c t = r' at hbody hstop
      obtain ⟨s', stop⟩ := r
      obtain ⟨t', stop'⟩ := r'
      obtain rfl : stop' = stop := hstop
      cases stop' with
      | true => exact hbody
      | false => exact ih (count + 1) hbody

theorem refillBody {alloc : BitVec 32 → Option RxBuf} (h : s.Alike t) :
    (rxRefillBody c alloc s).Alike (rxRefillBody c alloc t) := by
  obtain ⟨m, x, hslot⟩ := h.ring (c.rxEntry s.dirtyRx)
  rw [rxRefillBody_eq, rxRefillBody_eq, h.dirtyRx, hslot, refillCalls_relabel, h.dmaBufSz]
  refine ⟨update h.ring (RxSlot.Alike.refilled ⟨m, x, rfl⟩ _), h.curRx, rfl, rfl, h.halted, ?_⟩
  rw [delivered_append, delivered_append, h.delivered]

theorem refill (alloc : BitVec 32 → Option RxBuf) (h : s.Alike t) :
    (stmmacRxRefill c alloc s).Alike (stmmacRxRefill c alloc t) := by
  unfold stmmacRxRefill
  rw [h.curRx, h.dirtyRx]
  refine iterate_relates (R := RxState.Alike) (fun {s t} h => ?_) (fun h _ => h.refillBody) h
  obtain ⟨m, x, hslot⟩ := h.ring (c.rxEntry s.dirtyRx)
  unfold rxRefillGuard
  rw [h.curRx, h.dirtyRx, hslot, relabel_skb_isSome]

theorem stmmacRx (ops : c.desc.Lawful) (alloc : BitVec 32 → Option RxBuf) (limit : BitVec 32)
    (h : s.Alike t) : (stmmacRx c alloc s limit).1.Alike (stmmacRx c alloc t limit).1 := by
  have hloop := h.loop (c := c) (n := limit.toNat) ops 0
  obtain ⟨st, hs⟩ := stmmacRx_eq c s alloc limit
  obtain ⟨st', ht⟩ := stmmacRx_eq c t alloc limit
  rw [hs, ht, hloop.halted]
  split_ifs
  · exact hloop
  · have hend := hloop.refill (c := c) alloc
    exact ⟨hend.ring, hend.curRx, hend.dirtyRx, hend.dmaBufSz, hend.halted, hend.delivered⟩

theorem clear (h : s.Alike t) :
    (stmmacClearDescriptors c s).Alike (stmmacClearDescriptors c t) := by
  refine ⟨fun i => ?_, h.curRx, h.dirtyRx, h.dmaBufSz, h.halted, h.delivered⟩
  obtain ⟨m, x, hslot⟩ := h.ring i
  refine ⟨m, x, ?_⟩
  unfold stmmacClearDescriptors Ring.mapBelow
  dsimp only
  rw [hslot]
  split_ifs
  · exact relabel_mapDes _
  · rfl

/-- Alike states take the same steps. -/
theorem step (ops : c.desc.Lawful) {pos : Nat} {l l' : List (Nat × RxSlot)} (a : RxAct)
    (h : s.Alike t) :
    Option.Rel (fun f f' : RxHw => f'.pos = f.pos ∧ f.rx.Alike f'.rx)
      (rxStep c ⟨s, pos, l⟩ a) (rxStep c ⟨t, pos, l'⟩ a) := by
  unfold rxStep
  dsimp only
  rw [h.halted]
  split_ifs
  · exact .none
  cases a with
  | receive w =>
    obtain ⟨m, x, hslot⟩ := h.ring pos
    unfold rxReceive
    dsimp only
    rw [hslot, relabel_owned]
    split_ifs
    · refine .some ⟨rfl, fun i => ?_, h.curRx, h.dirtyRx, h.dmaBufSz, h.halted, h.delivered⟩
      rw [modify_ring, modify_ring, hslot]
      exact update h.ring (RxSlot.Alike.write ⟨m, x, rfl⟩ w) i
    · exact .none
  | rx alloc limit => exact .some ⟨rfl, h.stmmacRx ops alloc limit⟩
  | refill alloc => exact .some ⟨rfl, h.refill alloc⟩
  | suspend => exact .some ⟨rfl, h.clear⟩
  | resume => exact .some ⟨rfl, h⟩

end RxState.Alike

/-- What is delivered in the steps that follow is the same, whatever they are. -/
def SameDeliveries (c : Conf) (s t : RxState) : Prop :=
  ∀ pos received as,
    (exec (rxStep c) (fun _ _ => True) ⟨s, pos, received⟩ as).map (delivered ·.rx.trace) =
      (exec (rxStep c) (fun _ _ => True) ⟨t, pos, received⟩ as).map (delivered ·.rx.trace)

theorem RxState.Alike.sameDeliveries (ops : c.desc.Lawful) (h : s.Alike t) :
    SameDeliveries c s t := by
  intro pos received as
  have hrel : Option.Rel (fun f f' : RxHw => f'.pos = f.pos ∧ f.rx.Alike f'.rx)
      (exec (rxStep c) (fun _ _ => True) ⟨s, pos, received⟩ as)
      (exec (rxStep c) (fun _ _ => True) ⟨t, pos, received⟩ as) := by
    refine exec_relates (fun {f f'} a hf => ?_) ⟨rfl, h⟩
    obtain ⟨rx, pos, l⟩ := f
    obtain ⟨rx', pos', l'⟩ := f'
    obtain ⟨rfl, halike⟩ := hf
    exact halike.step ops a
  exact map_eq_of_rel hrel fun _ _ hf => hf.2.delivered.symm

end Stmmac
