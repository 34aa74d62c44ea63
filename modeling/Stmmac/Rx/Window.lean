import Stmmac.Rx.ReceiveSpec
import Stmmac.Rx.Step

/-!
# Receive side: the window

Three counters chase each other around the ring: `d` for `dirty_rx`, `k` for `cur_rx` and `p` for
the device. From `d` to `k` lie the slots consumed and not given back, from `k` to `p` the frames
waiting, and from `p` on, to a lap after `d`, the slots the DMA owns. Every slot but those consumed
has a buffer.
-/

namespace Stmmac

open Library

structure RxWindow (c : Conf) (s : RxState) (pos d k p : Nat) : Prop where
  dirty : s.dirtyRx = BitVec.ofNat 32 d
  cur : s.curRx = BitVec.ofNat 32 k
  pos_eq : pos = p % c.dmaRxSize.toNat
  le : d ≤ k
  le' : k ≤ p
  lt : p ≤ d + c.dmaRxSize.toNat
  taken : ∀ j, d ≤ j → j < p → c.rxOwned (s.ring (j % c.dmaRxSize.toNat)) = false
  owned : ∀ j, p ≤ j → j < d + c.dmaRxSize.toNat →
    c.rxOwned (s.ring (j % c.dmaRxSize.toNat)) = true
  backed : ∀ j, k ≤ j → j < d + c.dmaRxSize.toNat →
    (s.ring (j % c.dmaRxSize.toNat)).skb.isSome = true

/-- Some descriptor is left to the DMA, or `n` rounds do not reach a full lap past `dirty_rx`. -/
def RoundsFit (c : Conf) (s : RxState) (n : Nat) : Prop :=
  (∃ i < c.dmaRxSize.toNat, c.rxOwned (s.ring i) = true) ∨
    n + (s.curRx - s.dirtyRx).toNat ≤ c.dmaRxSize.toNat

instance (c : Conf) (s : RxState) (n : Nat) : Decidable (RoundsFit c s n) :=
  inferInstanceAs (Decidable ((∃ i < _, _) ∨ _))

variable {c : Conf} {s s' : RxState} {pos d k p : Nat}

theorem rxEntry_lt (hpos : 0 < c.dmaRxSize.toNat) (cur : BitVec 32) :
    c.rxEntry cur < c.dmaRxSize.toNat := by
  unfold Conf.rxEntry
  rw [BitVec.toNat_umod]
  exact Nat.mod_lt _ hpos

theorem rxEntry_ofNat (hp : IsPow2 c.dmaRxSize) (n : Nat) :
    c.rxEntry (BitVec.ofNat 32 n) = n % c.dmaRxSize.toNat :=
  Ring.slot_ofNat hp.dvd n

/-- `dirty_rx` and `cur_rx` as unbounded counters, at most a lap apart. -/
structure RxCounters (c : Conf) (s : RxState) (d k : Nat) : Prop where
  dirty : s.dirtyRx = BitVec.ofNat 32 d
  cur : s.curRx = BitVec.ofNat 32 k
  le : d ≤ k
  lap : k ≤ d + c.dmaRxSize.toNat

namespace RxCounters

theorem toNat_sub (w : RxCounters c s d k) : (s.curRx - s.dirtyRx).toNat = k - d := by
  have hlap := w.lap
  have hsize := c.dmaRxSize.isLt
  rw [w.cur, w.dirty, Ring.toNat_ofNat_sub w.le (by omega)]

theorem entry_cur (hp : IsPow2 c.dmaRxSize) (w : RxCounters c s d k) :
    c.rxEntry s.curRx = k % c.dmaRxSize.toNat := by
  rw [w.cur, rxEntry_ofNat hp]

theorem entry_dirty (hp : IsPow2 c.dmaRxSize) (w : RxCounters c s d k) :
    c.rxEntry s.dirtyRx = d % c.dmaRxSize.toNat := by
  rw [w.dirty, rxEntry_ofNat hp]

theorem congr (w : RxCounters c s d k) (hdirty : s'.dirtyRx = s.dirtyRx)
    (hcur : s'.curRx = s.curRx) : RxCounters c s' d k :=
  ⟨hdirty.trans w.dirty, hcur.trans w.cur, w.le, w.lap⟩

theorem consume (ops : c.desc.Lawful) (w : RxCounters c s d k)
    (hlt : k < d + c.dmaRxSize.toNat) : RxCounters c (rxBody c s).1 d (k + 1) where
  dirty := by rw [rxBody_dirtyRx ops, w.dirty]
  cur := by rw [rxBody_curRx ops, w.cur, Ring.ofNat_succ]
  le := Nat.le_succ_of_le w.le
  lap := hlt

theorem refill {alloc : BitVec 32 → Option RxBuf} (w : RxCounters c s d k)
    (hg : rxRefillGuard c alloc s = true) :
    d < k ∧ RxCounters c (rxRefillBody c alloc s) (d + 1) k := by
  have hdk : d < k := by
    refine Nat.lt_of_le_of_ne w.le fun he => (rxRefillGuard_iff.mp hg).1 ?_
    rw [w.cur, w.dirty, he]
  have hlap := w.lap
  refine ⟨hdk, ?_, ?_, hdk, by omega⟩
  · rw [rxRefillBody_eq, w.dirty, Ring.ofNat_succ]
  · rw [rxRefillBody_eq, w.cur]

end RxCounters

/-- A round leaves the ownership of every descriptor as it is. -/
theorem rxBody_owned (ops : c.desc.Lawful) (i : Nat) :
    c.rxOwned ((rxBody c s).1.ring i) = c.rxOwned (s.ring i) := by
  rw [rxBody_ring ops, Function.update_apply]
  split_ifs with he
  · rw [Conf.rxOwned, consumed_desc, ← Conf.rxOwned, he]
  · rfl

theorem RoundsFit.next (ops : c.desc.Lawful) {n : Nat} (w : RxCounters c s d k)
    (hlt : k < d + c.dmaRxSize.toNat) (hfit : RoundsFit c s (n + 1)) :
    RoundsFit c (rxBody c s).1 n := by
  have hle := w.le
  rcases hfit with ⟨i, hi, hown⟩ | hfit
  · exact .inl ⟨i, hi, (rxBody_owned ops i).trans hown⟩
  · rw [w.toNat_sub] at hfit
    refine .inr ?_
    rw [(w.consume ops hlt).toNat_sub]
    omega

/-- A slot of the lap other than the one written keeps its contents. -/
theorem update_of_lap {r : Nat → RxSlot} {q : RxSlot} {j m : Nat} (hj : d ≤ j)
    (hj' : j < d + c.dmaRxSize.toNat) (hm : d ≤ m) (hm' : m < d + c.dmaRxSize.toNat)
    (hne : j ≠ m) :
    Function.update r (m % c.dmaRxSize.toNat) q (j % c.dmaRxSize.toNat) =
      r (j % c.dmaRxSize.toNat) :=
  Function.update_of_ne (Ring.mod_ne_of_window d ⟨hj, hj', hm, hm', hne⟩) _ _

namespace RxWindow

theorem counters (w : RxWindow c s pos d k p) : RxCounters c s d k :=
  ⟨w.dirty, w.cur, w.le, w.le'.trans w.lt⟩

theorem toNat_sub (w : RxWindow c s pos d k p) : (s.curRx - s.dirtyRx).toNat = k - d :=
  w.counters.toNat_sub

theorem entry_cur (hp : IsPow2 c.dmaRxSize) (w : RxWindow c s pos d k p) :
    c.rxEntry s.curRx = k % c.dmaRxSize.toNat :=
  w.counters.entry_cur hp

theorem entry_dirty (hp : IsPow2 c.dmaRxSize) (w : RxWindow c s pos d k p) :
    c.rxEntry s.dirtyRx = d % c.dmaRxSize.toNat :=
  w.counters.entry_dirty hp

theorem congr (w : RxWindow c s pos d k p) (hring : s'.ring = s.ring)
    (hdirty : s'.dirtyRx = s.dirtyRx) (hcur : s'.curRx = s.curRx) :
    RxWindow c s' pos d k p where
  dirty := hdirty.trans w.dirty
  cur := hcur.trans w.cur
  pos_eq := w.pos_eq
  le := w.le
  le' := w.le'
  lt := w.lt
  taken := by rw [hring]; exact w.taken
  owned := by rw [hring]; exact w.owned
  backed := by rw [hring]; exact w.backed

/-- With the device a lap ahead of `dirty_rx`, no descriptor is left to the DMA. -/
theorem lt_of_owned (w : RxWindow c s pos d k p)
    (h : ∃ i < c.dmaRxSize.toNat, c.rxOwned (s.ring i) = true) : p < d + c.dmaRxSize.toNat := by
  obtain ⟨i, hi, hown⟩ := h
  obtain ⟨j, hj, hj', rfl⟩ := Ring.exists_mod_eq d hi
  by_contra hge
  have hlt := w.lt
  rw [w.taken j hj (by omega)] at hown
  cases hown

/-- A lap ahead of `dirty_rx`, `cur_rx` is at the device. -/
theorem eq_of_lap (w : RxWindow c s pos d k p) (hlap : s.curRx - s.dirtyRx = c.dmaRxSize) :
    k = p := by
  have hsub := w.toNat_sub
  have hle := w.le
  have hle' := w.le'
  have hlt := w.lt
  rw [hlap] at hsub
  omega

/-- A single round fits unless every slot of the lap has been consumed. -/
theorem lap_of_not_roundsFit (w : RxWindow c s pos d k p) (h : ¬ RoundsFit c s 1) :
    s.curRx - s.dirtyRx = c.dmaRxSize := by
  have hlap := w.counters.lap
  have hsub := w.toNat_sub
  have hfull : ¬ 1 + (s.curRx - s.dirtyRx).toNat ≤ c.dmaRxSize.toNat := fun hle => h (.inr hle)
  exact BitVec.eq_of_toNat_eq (by omega)

/-- Then none does. -/
theorem not_roundsFit_of_lap (w : RxWindow c s pos d k p)
    (hlap : s.curRx - s.dirtyRx = c.dmaRxSize) {n : Nat} (hn : 0 < n) : ¬ RoundsFit c s n := by
  have hsub := w.toNat_sub
  have hle := w.le
  have hle' := w.le'
  rw [hlap] at hsub
  rintro (howned | hfit)
  · have := w.lt_of_owned howned
    omega
  · rw [hlap] at hfit
    omega

/-! ## The three moves -/

/-- A frame waits where the loop of `stmmac_rx` goes on. -/
theorem waiting_of_round (hp : IsPow2 c.dmaRxSize) (w : RxWindow c s pos d k p) {n : Nat}
    (hfit : RoundsFit c s (n + 1)) (hown : c.rxOwned (s.ring (c.rxEntry s.curRx)) = false) :
    k < p := by
  have hle' := w.le'
  have hle := w.le
  have hlt := w.lt
  rw [w.entry_cur hp] at hown
  by_contra hge
  obtain rfl : k = p := by omega
  have hroom : k < d + c.dmaRxSize.toNat := by
    rcases hfit with hex | hfit
    · exact w.lt_of_owned hex
    · rw [w.toNat_sub] at hfit
      omega
  rw [w.owned k (Nat.le_refl k) hroom] at hown
  cases hown

/-- `stmmac_rx` consumes a frame. -/
theorem consume (ops : c.desc.Lawful) (hp : IsPow2 c.dmaRxSize) (w : RxWindow c s pos d k p)
    (hlt : k < p) : RxWindow c (rxBody c s).1 pos d (k + 1) p := by
  have hle := w.le
  have hle' := w.le'
  have hN := w.lt
  have hring := rxBody_ring (s := s) ops
  rw [w.entry_cur hp] at hring
  have cnt := w.counters.consume ops (by omega)
  refine ⟨cnt.dirty, cnt.cur, w.pos_eq, cnt.le, hlt, hN, ?_, ?_, ?_⟩
  · intro j hj hj'
    rw [rxBody_owned ops]
    exact w.taken j hj hj'
  · intro j hj hj'
    rw [rxBody_owned ops]
    exact w.owned j hj hj'
  · intro j hj hj'
    rw [hring, update_of_lap (d := d) (by omega) hj' (by omega) (by omega) (by omega)]
    exact w.backed j (by omega) hj'

/-- `stmmac_rx_refill` gives a slot back. -/
theorem refill (ops : c.desc.Lawful) (hp : IsPow2 c.dmaRxSize)
    {alloc : BitVec 32 → Option RxBuf} (w : RxWindow c s pos d k p)
    (hg : rxRefillGuard c alloc s = true) :
    d < k ∧ RxWindow c (rxRefillBody c alloc s) pos (d + 1) k p := by
  have hle := w.le
  have hle' := w.le'
  have hN := w.lt
  have hpos := hp.pos
  have hbuf := (rxRefillGuard_iff.mp hg).2
  obtain ⟨hdk, cnt⟩ := w.counters.refill hg
  refine ⟨hdk, ?_⟩
  have hring : (rxRefillBody c alloc s).ring = Function.update s.ring (d % c.dmaRxSize.toNat)
      (c.refilled (alloc s.dirtyRx) (s.ring (d % c.dmaRxSize.toNat))) := by
    rw [rxRefillBody_eq, w.entry_dirty hp]
  have hlap : (d + c.dmaRxSize.toNat) % c.dmaRxSize.toNat = d % c.dmaRxSize.toNat :=
    Nat.add_mod_right _ _
  refine ⟨cnt.dirty, cnt.cur, w.pos_eq, hdk, hle', by omega, ?_, ?_, ?_⟩
  · intro j hj hj'
    rw [hring, update_of_lap (d := d) (by omega) (by omega) (by omega) (by omega) (by omega)]
    exact w.taken j (by omega) hj'
  · intro j hj hj'
    rcases Nat.lt_or_ge j (d + c.dmaRxSize.toNat) with hjN | hjN
    · rw [hring, update_of_lap (d := d) (by omega) hjN (by omega) (by omega) (by omega)]
      exact w.owned j hj hjN
    · -- the slot given back, a lap ahead
      obtain rfl : j = d + c.dmaRxSize.toNat := by omega
      rw [hring, hlap, Function.update_self]
      exact refilled_owned ops _ _
  · intro j hj hj'
    rcases Nat.lt_or_ge j (d + c.dmaRxSize.toNat) with hjN | hjN
    · rw [hring, update_of_lap (d := d) (by omega) hjN (by omega) (by omega) (by omega)]
      exact w.backed j hj hjN
    · obtain rfl : j = d + c.dmaRxSize.toNat := by omega
      rw [hring, hlap, Function.update_self]
      rw [w.entry_dirty hp] at hbuf
      exact refilled_skb hbuf

end RxWindow

theorem rxReceive_eq {f f' : RxHw} {w : RxWrite} (h : rxReceive c f w = some f') :
    c.rxOwned (f.rx.ring f.pos) = true ∧ c.desc.getRxOwner w.des01 = false ∧
      (w.stamp.isSome = true → c.stampsRx = true) ∧
      f' =
        { rx := f.rx.modify f.pos (·.write w)
          pos := (f.pos + 1) % c.dmaRxSize.toNat
          received := f.received ++ [(f.pos, (f.rx.ring f.pos).write w)] } := by
  unfold rxReceive at h
  dsimp only at h
  split at h
  · next hok => exact ⟨hok.1, hok.2.1, hok.2.2, (Option.some.inj h).symm⟩
  · cases h

@[simp] theorem RxSlot.write_dma (q : RxSlot) (w : RxWrite) : (q.write w).dma = q.dma := rfl

@[simp] theorem RxSlot.write_skb_isSome (q : RxSlot) (w : RxWrite) :
    (q.write w).skb.isSome = q.skb.isSome := by
  unfold RxSlot.write
  dsimp only
  split <;> simp

/-- The device receives a frame. -/
theorem RxWindow.receive (hp : IsPow2 c.dmaRxSize) (w : RxWindow c s pos d k p) {x : RxWrite}
    (hown : c.rxOwned (s.ring pos) = true) (hgive : c.desc.getRxOwner x.des01 = false) :
    p < d + c.dmaRxSize.toNat ∧
      RxWindow c (s.modify pos (·.write x)) ((pos + 1) % c.dmaRxSize.toNat) d k (p + 1) := by
  have hle := w.le
  have hle' := w.le'
  have hN := w.lt
  have hroom : p < d + c.dmaRxSize.toNat :=
    w.lt_of_owned ⟨pos, by rw [w.pos_eq]; exact Nat.mod_lt _ hp.pos, hown⟩
  have hring : (s.modify pos (·.write x)).ring = Function.update s.ring
      (p % c.dmaRxSize.toNat) ((s.ring (p % c.dmaRxSize.toNat)).write x) := by
    rw [RxState.modify_ring, w.pos_eq]
  refine ⟨hroom, w.dirty, w.cur, by rw [w.pos_eq, Nat.mod_add_mod], hle, by omega, hroom, ?_, ?_,
    ?_⟩
  · intro j hj hj'
    rw [hring]
    rcases Nat.eq_or_lt_of_le (Nat.le_of_lt_succ hj') with rfl | hjp
    · rw [Function.update_self]
      exact hgive
    · rw [update_of_lap (d := d) hj (by omega) (by omega) hroom (by omega)]
      exact w.taken j hj hjp
  · intro j hj hj'
    rw [hring, update_of_lap (d := d) (by omega) hj' (by omega) hroom (by omega)]
    exact w.owned j (by omega) hj'
  · intro j hj hj'
    rw [hring]
    by_cases hjp : j = p
    · rw [hjp, Function.update_self, RxSlot.write_skb_isSome]
      exact w.backed p (by omega) hroom
    · rw [update_of_lap (d := d) (by omega) hj' (by omega) hroom hjp]
      exact w.backed j hj hj'

end Stmmac
