import Stmmac.Rx.Alike
import Stmmac.Rx.InitSpec
import Stmmac.Rx.PeekLooks

/-!
# Receive side: what peeking changes

The walk applies `skb_put` and `eth_type_trans` to buffers that it leaves in the ring. Where they
add nothing and pull nothing, the states before and after are alike. Elsewhere the data pointer or
the length of a buffer has moved, and further rounds do not bring it back.
-/

namespace Stmmac

open Library

/-! ## Slots that can be looked at -/

/-- A round adds nothing to the buffer and pulls nothing from it. -/
def Conf.peekQuiet (c : Conf) (p : RxSlot) : Bool :=
  c.rxVerdict p == .discardFrame ||
    match p.skb with
    | none => true
    | some skb => c.peekLen p == 0 && decide (skb.len.toNat < ethHlen)

/-- The walk ends after a round on the slot: there is no buffer, or the frame is counted and the
limit is 1. -/
def Conf.peekEnds (c : Conf) (limit : BitVec 32) (p : RxSlot) : Bool :=
  c.rxVerdict p != .discardFrame &&
    match p.skb with
    | none => true
    | some skb => limit == 1 && (skbPut skb (c.peekLen p)).any fun skb => (ethTypeTrans skb).isAprd

/-- The slot at `cur_rx` and, if the walk gets there, the one after it are left as they are. -/
def PeekQuiet (c : Conf) (limit : BitVec 32) (s : RxState) : Prop :=
  let p := s.ring (c.rxEntry s.curRx)
  let q := s.ring (c.rxEntry (s.curRx + 1))
  limit = 0 ∨ c.rxOwned p = true ∨
    (c.peekQuiet p = true ∧ (c.peekEnds limit p = true ∨ c.rxOwned q = true ∨ c.peekQuiet q = true))

instance (c : Conf) (limit : BitVec 32) (s : RxState) : Decidable (PeekQuiet c limit s) :=
  inferInstanceAs (Decidable (_ ∨ _ ∨ _ ∧ (_ ∨ _ ∨ _)))

/-- The counters, the descriptors, and the data pointer and length of every buffer are the same. -/
structure SameView (s t : RxState) : Prop where
  curRx : t.curRx = s.curRx
  dirtyRx : t.dirtyRx = s.dirtyRx
  desc : ∀ i, (t.ring i).desc = (s.ring i).desc
  skb : ∀ i, (t.ring i).skb.map (fun k => (k.data, k.len)) =
    (s.ring i).skb.map fun k => (k.data, k.len)

variable {c : Conf} {s s' t : RxState} {p q : RxSlot} {entry : Nat} {length limit : BitVec 32}
  {k k₀ put : RxSkb} {len : Int}

theorem RxState.Alike.sameView (h : s.Alike t) : SameView s t where
  curRx := h.curRx
  dirtyRx := h.dirtyRx
  desc i := by
    obtain ⟨m, x, hslot⟩ := h.ring i
    rw [hslot]
    rfl
  skb i := by
    obtain ⟨m, x, hslot⟩ := h.ring i
    rw [hslot]
    cases hskb : (s.ring i).skb <;> simp [RxSlot.relabel, RxSkb.relabel, hskb]

theorem RxSlot.Alike.peekQuiet (h : p.Alike q) : c.peekQuiet q = c.peekQuiet p := by
  obtain ⟨m, x, rfl⟩ := h
  unfold Conf.peekQuiet
  cases hskb : p.skb with
  | none => simp [relabel, hskb]
  | some skb =>
    simp [relabel, hskb]
    rfl

theorem RxSlot.Alike.owned (h : p.Alike q) : c.rxOwned q = c.rxOwned p := by
  obtain ⟨m, x, rfl⟩ := h
  rfl

/-! ## One round -/

/-- What a round leaves alone. -/
structure PeekFrame (s s' : RxState) : Prop where
  curRx : s'.curRx = s.curRx
  dirtyRx : s'.dirtyRx = s.dirtyRx
  dmaBufSz : s'.dmaBufSz = s.dmaBufSz
  halted : s'.halted = s.halted
  delivered : delivered s'.trace = delivered s.trace

/-- What a round does, as a function of the slot it finds. -/
inductive PeekRoundSpec (c : Conf) (s s' : RxState) (entry : Nat) : PeekRound → Prop where
  | discarded : c.rxVerdict (s.ring entry) = .discardFrame → s'.ring = s.ring →
      PeekRoundSpec c s s' entry .pass
  | broken : c.rxVerdict (s.ring entry) ≠ .discardFrame → (s.ring entry).skb = none →
      s'.ring = s.ring → PeekRoundSpec c s s' entry .stop
  | looked {skb put : RxSkb} : c.rxVerdict (s.ring entry) ≠ .discardFrame →
      (s.ring entry).skb = some skb → skbPut skb (c.peekLen (s.ring entry)) = some put →
      s'.ring = Function.update s.ring entry { s.ring entry with skb := some (ethTypeTrans put) } →
      PeekRoundSpec c s s' entry (if (ethTypeTrans put).isAprd then .count else .pass)

theorem delivered_lookCalls (entry : Nat) (p : RxSlot) :
    delivered (c.lookCalls length entry p) = [] := by
  unfold Conf.lookCalls
  split_ifs <;> rfl

theorem peekRound_spec (ops : c.desc.Lawful) {r : PeekRound}
    (h : peekRound c length s entry = some (s', r)) :
    PeekRoundSpec c s s' entry r ∧ PeekFrame s s' := by
  obtain ⟨st, hround⟩ := peekRound_eq ops length (rfl : s.ring entry = _)
  have hdelivered : delivered (s.trace ++ c.lookCalls length entry (s.ring entry)) =
      delivered s.trace := by
    rw [delivered_append, delivered_lookCalls, List.append_nil]
  rw [hround] at h
  split at h
  · next hbroken =>
    cases h
    obtain ⟨hdisc, hskb⟩ := peekBroken_iff.mp hbroken
    exact ⟨.broken hdisc hskb rfl, rfl, rfl, rfl, rfl, hdelivered⟩
  · next hbroken =>
    split at h
    · next hsafe =>
      cases h
      refine ⟨?_, rfl, rfl, rfl, rfl, hdelivered⟩
      by_cases hdisc : c.rxVerdict (s.ring entry) = .discardFrame
      · have hready : c.isReady (s.ring entry) = false := by simp [Conf.isReady, hdisc]
        rw [hready]
        refine .discarded hdisc ?_
        rw [look_of_discard hdisc, Function.update_eq_self]
      · cases hskb : (s.ring entry).skb with
        | none => exact absurd (peekBroken_iff.mpr ⟨hdisc, hskb⟩) hbroken
        | some skb =>
          rw [peekSafe_of_skb hdisc hskb, Bool.and_eq_true, decide_eq_true_eq] at hsafe
          rw [isReady_of_skb hdisc hskb, ← look_isAprd skb (c.peekLen (s.ring entry)),
            look_of_skb hdisc hskb]
          exact .looked hdisc hskb (skbPut_eq_ite.trans (if_pos hsafe.1)) rfl
    · cases h

/-! ## Quiet rounds -/

theorem ethTypeTrans_short (h : k.len.toNat < ethHlen) :
    ethTypeTrans k = k.relabel k.data (ethTypeTrans k).protocol := by
  unfold ethTypeTrans skbPullInline RxSkb.relabel
  simp only [h, if_true]

/-- With nothing put and nothing pulled the buffer is as before. -/
theorem ethTypeTrans_quiet (hput : skbPut k 0 = some put) (hlen : k.len.toNat < ethHlen) :
    ∃ m x, ethTypeTrans put = k.relabel m x := by
  obtain rfl : put = k := by
    rw [skbPut_eq hput]
    simp
  exact ⟨_, _, ethTypeTrans_short hlen⟩

theorem PeekRoundSpec.alike {r : PeekRound} (h : PeekRoundSpec c s s' entry r)
    (hframe : PeekFrame s s') (hq : c.peekQuiet (s.ring entry) = true) : s.Alike s' := by
  have hring : ∀ i, (s.ring i).Alike (s'.ring i) := by
    intro i
    cases h with
    | discarded _ hsame => exact hsame ▸ .refl _
    | broken _ _ hsame => exact hsame ▸ .refl _
    | looked hdisc hskb hput hnew =>
      simp only [Conf.peekQuiet, hskb, Bool.or_eq_true, beq_iff_eq, Bool.and_eq_true,
        decide_eq_true_eq] at hq
      obtain ⟨hzero, hlen⟩ := hq.resolve_left hdisc
      rw [hzero] at hput
      obtain ⟨m, x, hsame⟩ := ethTypeTrans_quiet hput hlen
      rw [hnew, Function.update_apply]
      split_ifs with he
      · subst he
        exact ⟨m, x, by simp [RxSlot.relabel, hskb, hsame]⟩
      · exact .refl _
  exact ⟨hring, hframe.curRx, hframe.dirtyRx, hframe.dmaBufSz, hframe.halted, hframe.delivered⟩

/-! ## Buffers that have moved -/

/-- The buffer `k₀` after rounds that each put `len`: its data pointer has gone forward, or its
length has moved in one direction and is still too short for a header to be pulled. -/
def RxSkb.Moved (len : Int) (k₀ k : RxSkb) : Prop :=
  k₀.data < k.data ∨ k.data = k₀.data ∧ k.len.toNat < ethHlen ∧
    (ethHlen ≤ k₀.len.toNat ∨ 0 < len ∧ k₀.len.toNat < k.len.toNat ∨
      len < 0 ∧ k.len.toNat < k₀.len.toNat)

theorem RxSkb.Moved.ne (h : k₀.Moved len k) : (k.data, k.len) ≠ (k₀.data, k₀.len) := by
  intro he
  obtain ⟨hdata, hlen⟩ := Prod.mk.inj he
  unfold Moved at h
  rw [hdata, hlen] at h
  omega

/-- A round either pulls a header or leaves a length that is too short for one. -/
theorem ethTypeTrans_put (hput : skbPut k len = some put) :
    k.data < (ethTypeTrans put).data ∨
      (ethTypeTrans put).data = k.data ∧ (ethTypeTrans put).len = k.len + BitVec.ofInt 32 len ∧
        (k.len + BitVec.ofInt 32 len).toNat < ethHlen := by
  rw [ethTypeTrans_data, ethTypeTrans_len, skbPut_eq hput]
  unfold skbPullInline
  split
  · next hshort => exact .inr ⟨rfl, rfl, hshort⟩
  · exact .inl (Nat.lt_add_of_pos_right (by decide))

/-- Short lengths do not wrap. -/
theorem toNat_add_ofInt {a : BitVec 32} (ha : a.toNat < ethHlen) (hlow : -2147483648 ≤ len)
    (hhigh : len < 2147483648) (h : (a + BitVec.ofInt 32 len).toNat < ethHlen) :
    ((a + BitVec.ofInt 32 len).toNat : Int) = a.toNat + len := by
  rw [BitVec.toNat_add, BitVec.toNat_ofInt] at h ⊢
  unfold ethHlen at ha h
  omega

section Moves

variable (hlow : -2147483648 ≤ len) (hhigh : len < 2147483648)

include hlow hhigh in
theorem moved_of_put (hput : skbPut k₀ len = some put) (h : len ≠ 0 ∨ ethHlen ≤ k₀.len.toNat) :
    k₀.Moved len (ethTypeTrans put) := by
  rcases ethTypeTrans_put hput with hpull | ⟨hdata, hlen, hshort⟩
  · exact .inl hpull
  · rcases Nat.lt_or_ge k₀.len.toNat ethHlen with hk | hk
    · have hsum := toNat_add_ofInt hk hlow hhigh hshort
      refine .inr ⟨hdata, by rwa [hlen], ?_⟩
      rw [hlen]
      omega
    · exact .inr ⟨hdata, by rwa [hlen], .inl hk⟩

include hlow hhigh in
/-- Further rounds do not bring the buffer back. -/
theorem RxSkb.Moved.again (h : k₀.Moved len k) (hput : skbPut k len = some put) :
    k₀.Moved len (ethTypeTrans put) := by
  have hmono : k.data ≤ (ethTypeTrans put).data := by
    rcases ethTypeTrans_put hput with hpull | ⟨hdata, -⟩ <;> omega
  rcases h with hgone | ⟨hsame, hk, hdir⟩
  · exact .inl (Nat.lt_of_lt_of_le hgone hmono)
  · rcases ethTypeTrans_put hput with hpull | ⟨hdata, hlen, hshort⟩
    · exact .inl (hsame ▸ hpull)
    · have hsum := toNat_add_ofInt hk hlow hhigh hshort
      refine .inr ⟨hdata.trans hsame, by rwa [hlen], ?_⟩
      rw [hlen]
      omega

end Moves

/-- The buffer of the slot has moved from `k₀`. -/
def MovedAt (c : Conf) (k₀ : RxSkb) (e : Nat) (s : RxState) : Prop :=
  ∃ k, (s.ring e).skb = some k ∧ k₀.Moved (c.peekLen (s.ring e)) k

theorem MovedAt.round (ops : c.desc.Lawful) {e : Nat} {r : PeekRound} (h : MovedAt c k₀ e s)
    (hs : PeekRoundSpec c s s' entry r) : MovedAt c k₀ e s' := by
  obtain ⟨k, hk, hmoved⟩ := h
  obtain ⟨hlow, hhigh⟩ := peekLen_bounds ops (s.ring e)
  cases hs with
  | discarded _ hsame => exact ⟨k, hsame ▸ hk, hsame ▸ hmoved⟩
  | broken _ _ hsame => exact ⟨k, hsame ▸ hk, hsame ▸ hmoved⟩
  | @looked skb put _ hskb hput hnew =>
    unfold MovedAt
    rw [hnew, Function.update_apply]
    split_ifs with he
    · subst he
      obtain rfl : skb = k := Option.some.inj (hskb.symm.trans hk)
      exact ⟨_, rfl, hmoved.again hlow hhigh hput⟩
    · exact ⟨k, hk, hmoved⟩

/-- The first round on a slot that is not quiet moves its buffer. -/
theorem PeekRoundSpec.moves (ops : c.desc.Lawful) {r : PeekRound}
    (h : PeekRoundSpec c s s' entry r) (hq : c.peekQuiet (s.ring entry) = false) :
    ∃ k₀, (s.ring entry).skb = some k₀ ∧ MovedAt c k₀ entry s' := by
  obtain ⟨hlow, hhigh⟩ := peekLen_bounds ops (s.ring entry)
  cases h with
  | discarded hdisc _ => simp [Conf.peekQuiet, hdisc] at hq
  | broken _ hskb _ => simp [Conf.peekQuiet, hskb] at hq
  | @looked skb put hdisc hskb hput hnew =>
    refine ⟨skb, hskb, ethTypeTrans put, by rw [hnew, Function.update_self], ?_⟩
    have hmove : c.peekLen (s.ring entry) ≠ 0 ∨ ethHlen ≤ skb.len.toNat := by
      by_contra hno
      have hzero : c.peekLen (s.ring entry) = 0 := by omega
      have hlen : skb.len.toNat < ethHlen := by omega
      simp [Conf.peekQuiet, hskb, hzero, hlen] at hq
    rw [hnew, Function.update_self]
    exact moved_of_put hlow hhigh hput hmove

theorem MovedAt.not_sameView {e : Nat} (h : MovedAt c k₀ e s') (hk : (s.ring e).skb = some k)
    (hsame : (k.data, k.len) = (k₀.data, k₀.len)) : ¬ SameView s s' := by
  intro hview
  obtain ⟨k', hk', hmoved⟩ := h
  have he := hview.skb e
  rw [hk', hk] at he
  exact hmoved.ne ((Option.some.inj he).trans hsame)

/-! ## The walk -/

section Walk

variable {fuel count n : Nat}

theorem peekLoop_done (h : peekLoop c length limit fuel entry count s = some (s', n))
    (hend : ¬ count < limit.toNat ∨ c.rxOwned (s.ring entry) = true) : s' = s := by
  cases fuel with
  | zero => cases h
  | succ fuel =>
    rw [peekLoop_succ_done rfl hend] at h
    cases h
    rfl

/-- The first round of a walk that goes on and ends. -/
theorem peekLoop_round (h : peekLoop c length limit fuel entry count s = some (s', n))
    (hlim : count < limit.toNat) (hown : c.rxOwned (s.ring entry) = false) :
    ∃ s₁ r, peekRound c length s entry = some (s₁, r) ∧
      (r = .stop ∧ s' = s₁ ∨ ∃ fuel', r ≠ .stop ∧
        peekLoop c length limit fuel' (c.rxEntry (s₁.curRx + 1))
          (if r = .count then count + 1 else count) s₁ = some (s', n)) := by
  cases fuel with
  | zero => cases h
  | succ fuel =>
    unfold peekLoop at h
    rw [if_neg (not_not_intro hlim), if_neg (by simp [hown])] at h
    cases hr : peekRound c length s entry with
    | none =>
      rw [hr] at h
      cases h
    | some o =>
      obtain ⟨s₁, r⟩ := o
      rw [hr] at h
      cases r with
      | stop =>
        cases h
        exact ⟨s', .stop, rfl, .inl ⟨rfl, rfl⟩⟩
      | count => exact ⟨s₁, .count, rfl, .inr ⟨fuel, by decide, h⟩⟩
      | pass => exact ⟨s₁, .pass, rfl, .inr ⟨fuel, by decide, h⟩⟩

/-- What the rounds preserve, the walk preserves. -/
theorem peekLoop_invariant {I : RxState → Prop}
    (hround : ∀ {s s₁ : RxState} {entry : Nat} {r : PeekRound}, I s →
      peekRound c length s entry = some (s₁, r) → I s₁)
    (h : peekLoop c length limit fuel entry count s = some (s', n)) (hs : I s) : I s' := by
  induction fuel generalizing entry count s with
  | zero => cases h
  | succ fuel ih =>
    unfold peekLoop at h
    split at h
    · cases h
      exact hs
    split at h
    · cases h
      exact hs
    cases hr : peekRound c length s entry with
    | none =>
      rw [hr] at h
      cases h
    | some o =>
      obtain ⟨s₁, r⟩ := o
      have hnext := hround hs hr
      rw [hr] at h
      cases r with
      | stop =>
        cases h
        exact hnext
      | count => exact ih h hnext
      | pass => exact ih h hnext

theorem MovedAt.walk (ops : c.desc.Lawful) {e : Nat} (hm : MovedAt c k₀ e s)
    (h : peekLoop c length limit fuel entry count s = some (s', n)) : MovedAt c k₀ e s' :=
  peekLoop_invariant (fun hm hr => hm.round ops (peekRound_spec ops hr).1) h hm

/-- A round on a slot that is not quiet, and what follows it. -/
theorem moved_of_round (ops : c.desc.Lawful) {s₁ : RxState} {r : PeekRound} {e : Nat}
    (hr : peekRound c length s e = some (s₁, r)) (hq : c.peekQuiet (s.ring e) = false)
    (hnext : r = .stop ∧ s' = s₁ ∨ ∃ fuel', r ≠ .stop ∧
      peekLoop c length limit fuel' entry count s₁ = some (s', n)) :
    ∃ k₀, (s.ring e).skb = some k₀ ∧ MovedAt c k₀ e s' := by
  obtain ⟨k₀, hk, hmoved⟩ := (peekRound_spec ops hr).1.moves ops hq
  rcases hnext with ⟨-, rfl⟩ | ⟨fuel', -, hloop⟩
  · exact ⟨k₀, hk, hmoved⟩
  · exact ⟨k₀, hk, hmoved.walk ops hloop⟩

/-- A walk that stays at a slot which is quiet, or owned by the DMA. -/
theorem peekLoop_alike (ops : c.desc.Lawful)
    (hq : c.rxOwned (s.ring (c.rxEntry (s.curRx + 1))) = true ∨
      c.peekQuiet (s.ring (c.rxEntry (s.curRx + 1))) = true)
    (h : peekLoop c length limit fuel (c.rxEntry (s.curRx + 1)) count s = some (s', n)) :
    s.Alike s' := by
  rcases hq with hown | hq
  · rw [peekLoop_done h (.inr hown)]
    exact .refl s
  induction fuel generalizing s count with
  | zero => cases h
  | succ fuel ih =>
    unfold peekLoop at h
    split at h
    · cases h
      exact .refl _
    split at h
    · cases h
      exact .refl _
    cases hr : peekRound c length s (c.rxEntry (s.curRx + 1)) with
    | none =>
      rw [hr] at h
      cases h
    | some o =>
      obtain ⟨s₁, r⟩ := o
      obtain ⟨hspec, hframe⟩ := peekRound_spec ops hr
      have halike := hspec.alike hframe hq
      have hq₁ := (halike.ring (c.rxEntry (s.curRx + 1))).peekQuiet (c := c)
      rw [hq, ← halike.curRx] at hq₁
      rw [hr] at h
      cases r with
      | stop =>
        cases h
        exact halike
      | count => exact halike.trans (ih h hq₁)
      | pass => exact halike.trans (ih h hq₁)

end Walk

/-! ## The whole call -/

section Peek

variable {fuel n : Nat} (ops : c.desc.Lawful)
  (h : stmmacPeekPacket c length limit fuel s = some (s', n))

include h in
theorem stmmacPeekPacket_done (hend : limit = 0 ∨ c.rxOwned (s.ring (c.rxEntry s.curRx)) = true) :
    s' = s := by
  refine peekLoop_done h (hend.imp_left fun hlim => ?_)
  rw [hlim]
  exact Nat.lt_irrefl 0

include h in
/-- The first round of a call that looks at a slot. -/
theorem stmmacPeekPacket_round (hlim : limit ≠ 0)
    (hown : c.rxOwned (s.ring (c.rxEntry s.curRx)) = false) :
    ∃ s₁ r, peekRound c length s (c.rxEntry s.curRx) = some (s₁, r) ∧
      (r = .stop ∧ s' = s₁ ∨ ∃ fuel', r ≠ .stop ∧
        peekLoop c length limit fuel' (c.rxEntry (s₁.curRx + 1)) (if r = .count then 1 else 0) s₁ =
          some (s', n)) := by
  refine peekLoop_round h (Nat.pos_of_ne_zero fun hzero => hlim ?_) hown
  exact BitVec.eq_of_toNat_eq hzero

/-- How a round on a slot ends, in terms of the slot. -/
theorem PeekRoundSpec.ends {r : PeekRound} (hs : PeekRoundSpec c s s' entry r) :
    c.peekEnds limit (s.ring entry) = true ↔ r = .stop ∨ r = .count ∧ limit = 1 := by
  cases hs with
  | discarded hdisc _ => simp [Conf.peekEnds, hdisc]
  | broken hdisc hskb _ => simp [Conf.peekEnds, hdisc, hskb]
  | looked hdisc hskb hput _ =>
    simp only [Conf.peekEnds, hskb, hput, Option.any_some, Bool.and_eq_true, bne_iff_ne, ne_eq,
      hdisc, not_false_eq_true, true_and, beq_iff_eq]
    split_ifs with haprd <;> simp [haprd]

include ops h in
theorem peek_alike (hq : PeekQuiet c limit s) : s.Alike s' := by
  by_cases hend : limit = 0 ∨ c.rxOwned (s.ring (c.rxEntry s.curRx)) = true
  · rw [stmmacPeekPacket_done h hend]
    exact .refl s
  obtain ⟨hlim, hown⟩ := not_or.mp hend
  obtain ⟨hp, hrest⟩ := (hq.resolve_left hlim).resolve_left hown
  obtain ⟨s₁, r, hr, hnext⟩ := stmmacPeekPacket_round h hlim (by simpa using hown)
  obtain ⟨hspec, hframe⟩ := peekRound_spec ops hr
  have halike := hspec.alike hframe hp
  rcases hnext with ⟨-, rfl⟩ | ⟨fuel', hgo, hloop⟩
  · exact halike
  have hslot := halike.ring (c.rxEntry (s.curRx + 1))
  rcases hrest with hends | hquiet
  · -- the count has reached the limit
    obtain ⟨rfl, rfl⟩ := (hspec.ends.mp hends).resolve_left hgo
    rw [peekLoop_done hloop (.inl (by decide))]
    exact halike
  · refine halike.trans (peekLoop_alike ops ?_ hloop)
    rw [halike.curRx, hslot.owned, hslot.peekQuiet]
    exact hquiet

include ops h in
theorem peek_moves (hq : ¬ PeekQuiet c limit s) : ¬ SameView s s' := by
  obtain ⟨hlim, hq⟩ := not_or.mp hq
  obtain ⟨hown, hq⟩ := not_or.mp hq
  obtain ⟨s₁, r, hr, hnext⟩ := stmmacPeekPacket_round h hlim (by simpa using hown)
  obtain ⟨hspec, hframe⟩ := peekRound_spec ops hr
  cases hp : c.peekQuiet (s.ring (c.rxEntry s.curRx)) with
  | false =>
    -- the first round moves the buffer at `cur_rx`
    obtain ⟨k₀, hk, hmoved⟩ := moved_of_round ops hr hp hnext
    exact hmoved.not_sameView hk rfl
  | true =>
    -- the first round changes nothing, the second one moves the buffer of the next slot
    have halike := hspec.alike hframe hp
    obtain ⟨hends, hq⟩ := not_or.mp fun hrest => hq ⟨hp, hrest⟩
    obtain ⟨hown', hq⟩ := not_or.mp hq
    rcases hnext with ⟨rfl, -⟩ | ⟨fuel', hgo, hloop⟩
    · exact absurd (hspec.ends.mpr (.inl rfl)) hends
    have hslot := halike.ring (c.rxEntry (s.curRx + 1))
    have hcount : (if r = .count then 1 else 0) < limit.toNat := by
      have hpos : limit.toNat ≠ 0 := fun hzero => hlim (BitVec.eq_of_toNat_eq hzero)
      have hone : r = .count → limit.toNat ≠ 1 := fun hr hzero =>
        hends (hspec.ends.mpr (.inr ⟨hr, BitVec.eq_of_toNat_eq hzero⟩))
      split_ifs with hr
      · have := hone hr
        omega
      · omega
    rw [halike.curRx] at hloop
    obtain ⟨s₂, r', hr', hnext'⟩ := peekLoop_round hloop hcount (by
      rw [hslot.owned]
      simpa using hown')
    obtain ⟨k₁, hk₁, hmoved⟩ := moved_of_round ops hr' (by
      rw [hslot.peekQuiet]
      simpa using hq) hnext'
    obtain ⟨m, x, hsame⟩ := hslot
    obtain ⟨k₀, hk₀, rfl⟩ : ∃ k₀, (s.ring (c.rxEntry (s.curRx + 1))).skb = some k₀ ∧
        k₀.relabel m x = k₁ := by
      rw [hsame] at hk₁
      exact Option.map_eq_some_iff.mp hk₁
    exact hmoved.not_sameView hk₀ rfl

include ops h in
/-- A call of `stmmac_peek_packet` that returns changes nothing that is received later, and no
counter, descriptor or buffer, exactly when the slots it looks at are quiet. -/
theorem peek_preserves_iff :
    SameView s s' ∧ SameDeliveries c s s' ↔ PeekQuiet c limit s := by
  refine ⟨fun hsame => ?_, fun hq => ?_⟩
  · by_contra hq
    exact peek_moves ops h hq hsame.1
  · have halike := peek_alike ops h hq
    exact ⟨halike.sameView, halike.sameDeliveries ops⟩

end Peek

/-- A frame with an error is looked at and left where it is. -/
theorem peek_preserves_bad_frame :
    ∃ f, Run (rxStep (.normal 64)) (fun _ _ => True)
        (.opened (.normal 64) (fun i => some (.page i)) 1500 .blank)
        [.receive ⟨⟨BitVec.ofNat 32 (64 * 65536 + 32768 + 768), 0x003fffff⟩, none,
          .replicate 64 1⟩] f ∧
      ∃ s' n, stmmacPeekPacket (.normal 64) 1500 5 2 f.rx = some (s', n) ∧
        SameView f.rx s' ∧ SameDeliveries (.normal 64) f.rx s' := by
  have hreach : ∃ f, Run (rxStep (.normal 64)) (fun _ _ => True)
      (.opened (.normal 64) (fun i => some (.page i)) 1500 .blank)
      [.receive ⟨⟨BitVec.ofNat 32 (64 * 65536 + 32768 + 768), 0x003fffff⟩, none,
        .replicate 64 1⟩] f ∧
      (stmmacPeekPacket (.normal 64) 1500 5 2 f.rx).isSome = true ∧
        PeekQuiet (.normal 64) 5 f.rx := exec_reaches (by decide +kernel)
  obtain ⟨f, run, hreturns, hq⟩ := hreach
  obtain ⟨⟨s', n⟩, h⟩ := Option.isSome_iff_exists.mp hreturns
  exact ⟨f, run, s', n, h, (peek_preserves_iff (c := .normal 64) ndescOps_lawful h).mpr hq⟩

/-- The lengths of the buffers delivered once `stmmac_rx` is called, the device at slot 1. -/
def lensAfterRx (s : RxState) : Option (List (BitVec 32)) :=
  (exec (rxStep (.normal 64)) (fun _ _ => True) ⟨s, 1, []⟩ [.rx (fun _ => none) 64]).map
    fun f => (delivered f.rx.trace).map (·.len)

/-- `stmmac_rx` takes up a frame of 64 bytes with 46 bytes of data, and the same frame with 92 bytes
once it has been looked at: the lengths of both calls of `skb_put` add up. -/
theorem peek_changes_frame :
    ∃ f, Run (rxStep (.normal 64)) (fun _ _ => True)
        (.opened (.normal 64) (fun i => some (.page i)) 1500 .blank)
        [.receive (.frame (.replicate 64 1))] f ∧
      ∃ s' n, stmmacPeekPacket (.normal 64) 1500 1 2 f.rx = some (s', n) ∧
        ¬ SameDeliveries (.normal 64) f.rx s' := by
  have hreach : ∃ f, Run (rxStep (.normal 64)) (fun _ _ => True)
      (.opened (.normal 64) (fun i => some (.page i)) 1500 .blank)
      [.receive (.frame (.replicate 64 1))] f ∧
      lensAfterRx f.rx = some [46] ∧
        ((stmmacPeekPacket (.normal 64) 1500 1 2 f.rx).bind fun r => lensAfterRx r.1) =
          some [92] := exec_reaches (by decide +kernel)
  obtain ⟨f, run, hbefore, hafter⟩ := hreach
  obtain ⟨⟨s', n⟩, h, hafter⟩ := Option.bind_eq_some_iff.mp hafter
  refine ⟨f, run, s', n, h, fun hsame => ?_⟩
  have hlens := congrArg (Option.map (List.map (·.len)))
    (hsame 1 [] [.rx (fun _ => none) 64])
  rw [Option.map_map, Option.map_map] at hlens
  exact absurd (hbefore.symm.trans (hlens.trans hafter)) (by decide)

end Stmmac
