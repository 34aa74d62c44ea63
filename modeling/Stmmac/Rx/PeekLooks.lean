import Mathlib.Logic.Function.Iterate
import Stmmac.Rx.Peek
import Stmmac.Rx.ReceiveSpec

/-!
# Receive side: looking at a slot again

A round of the walk of `stmmac_peek_packet` as a function of the slot it finds. Each look puts the
length of the frame once more and pulls what then counts as a header, so that the next look at the
same slot finds its header elsewhere in the buffer. Neither reaches the descriptor.
-/

namespace Stmmac

open Library

/-! ## One look -/

/-- The length that a round puts. -/
def Conf.peekLen (c : Conf) (p : RxSlot) : Int := c.rxFrameLen p (c.rxVerdict p)

/-- The header at `skb->data` is that of an EtherCAT frame, 0x88a4, from the address looked for. -/
def RxSkb.isEcat (skb : RxSkb) : Bool :=
  skb.buf (skb.data + 12) == 0x88 && skb.buf (skb.data + 13) == 0xa4 &&
    skb.buf (skb.data + 6) == 2 && skb.buf (skb.data + 7) == 0 && skb.buf (skb.data + 8) == 0 &&
      skb.buf (skb.data + 9) == 0

/-- The frame is good, has a buffer, and is one that is looked for. -/
def Conf.isReady (c : Conf) (p : RxSlot) : Bool :=
  c.rxVerdict p != .discardFrame && p.skb.any (·.isEcat)

/-- The frame is good and has no buffer. -/
def Conf.peekBroken (c : Conf) (p : RxSlot) : Bool :=
  c.rxVerdict p != .discardFrame && p.skb.isNone

/-- There is room for what is put, and no header is taken off a shorter frame for the length of
the copy. -/
def Conf.peekSafe (c : Conf) (length : BitVec 32) (p : RxSlot) : Bool :=
  c.rxVerdict p == .discardFrame || p.skb.all fun skb =>
    decide (skb.tail + c.peekLen p ≤ skb.end_) &&
      !(skb.isEcat && decide (c.peekLen p < ethHlen) &&
        decide (length ≥ BitVec.ofInt 32 (c.peekLen p - ethHlen)))

/-- A buffer after `skb_put`, where it has the room, and `eth_type_trans`. -/
def RxSkb.look (len : Int) (skb : RxSkb) : RxSkb :=
  ethTypeTrans { skb with tail := skb.tail + len, len := skb.len + BitVec.ofInt 32 len }

/-- The slot after a look. -/
def Conf.look (c : Conf) (p : RxSlot) : RxSlot :=
  if c.rxVerdict p = .discardFrame then p else { p with skb := p.skb.map (·.look (c.peekLen p)) }

/-- The frame has a payload for which the caller's buffer is long enough. -/
def Conf.fits (c : Conf) (length : BitVec 32) (p : RxSlot) : Bool :=
  decide ((ethHlen : Int) ≤ c.peekLen p) && decide (c.peekLen p - ethHlen ≤ length.toNat)

/-- What a look copies: as many bytes as the payload has, from where it leaves `skb->data`. -/
def Conf.lookBytes (c : Conf) (p : RxSlot) : List (BitVec 8) :=
  match (c.look p).skb with
  | none => []
  | some skb =>
    (List.range (c.peekLen p - ethHlen).toNat).map fun i => skb.buf (skb.data + i)

/-- The calls of a look. -/
def Conf.lookCalls (c : Conf) (length : BitVec 32) (entry : Nat) (p : RxSlot) : List RxCall :=
  .rxStatus entry p.desc ::
    if c.rxVerdict p = .discardFrame ∨ p.skb = none then []
    else .skbPut entry (c.peekLen p) ::
      if c.isReady p && c.fits length p then [.memcpy (c.lookBytes p)] else []

variable {c : Conf} {s s' : RxState} {p q : RxSlot} {entry : Nat} {length limit : BitVec 32}
  {skb : RxSkb} {len : Int}

theorem peekBroken_iff :
    c.peekBroken p = true ↔ c.rxVerdict p ≠ .discardFrame ∧ p.skb = none := by
  simp [Conf.peekBroken]

section Buffer

variable (hd : c.rxVerdict p ≠ .discardFrame) (hskb : p.skb = some skb)

include hd hskb

theorem look_of_skb : c.look p = { p with skb := some (skb.look (c.peekLen p)) } := by
  simp [Conf.look, hd, hskb]

theorem isReady_of_skb : c.isReady p = skb.isEcat := by
  simp [Conf.isReady, hd, hskb]

theorem peekSafe_of_skb : c.peekSafe length p = (decide (skb.tail + c.peekLen p ≤ skb.end_) &&
    !(skb.isEcat && (decide (c.peekLen p < ethHlen) &&
      decide (length ≥ BitVec.ofInt 32 (c.peekLen p - ethHlen))))) := by
  simp [Conf.peekSafe, hd, hskb, Bool.and_assoc]

theorem lookBytes_of_skb : c.lookBytes p =
    (List.range (c.peekLen p - ethHlen).toNat).map fun i =>
      (skb.look (c.peekLen p)).buf ((skb.look (c.peekLen p)).data + i) := by
  rw [Conf.lookBytes, look_of_skb hd hskb]

theorem lookCalls_of_skb (entry : Nat) : c.lookCalls length entry p =
    [.rxStatus entry p.desc, .skbPut entry (c.peekLen p)] ++
      if skb.isEcat && c.fits length p then [.memcpy (c.lookBytes p)] else [] := by
  simp [Conf.lookCalls, hd, hskb, isReady_of_skb hd hskb]

end Buffer

/-! ## What a look keeps -/

theorem look_desc (p : RxSlot) : (c.look p).desc = p.desc := by
  unfold Conf.look
  split_ifs <;> rfl

theorem iterate_look_desc (p : RxSlot) (n : Nat) : (c.look^[n] p).desc = p.desc := by
  induction n generalizing p with
  | zero => rfl
  | succ n ih => rw [Function.iterate_succ_apply, ih, look_desc]

theorem rxVerdict_iterate (p : RxSlot) (n : Nat) :
    c.rxVerdict (c.look^[n] p) = c.rxVerdict p := by
  rw [Conf.rxVerdict, Conf.rxVerdict, iterate_look_desc]

theorem peekLen_iterate (p : RxSlot) (n : Nat) : c.peekLen (c.look^[n] p) = c.peekLen p := by
  rw [Conf.peekLen, Conf.peekLen, Conf.rxFrameLen, Conf.rxFrameLen, rxVerdict_iterate,
    iterate_look_desc]

theorem look_of_discard (h : c.rxVerdict p = .discardFrame) : c.look p = p := if_pos h

@[simp] theorem rxVerdict_look (p : RxSlot) : c.rxVerdict (c.look p) = c.rxVerdict p := by
  simp [Conf.rxVerdict, look_desc]

@[simp] theorem rxOwned_look (p : RxSlot) : c.rxOwned (c.look p) = c.rxOwned p := by
  simp [Conf.rxOwned, look_desc]

@[simp] theorem peekLen_look (p : RxSlot) : c.peekLen (c.look p) = c.peekLen p := by
  simp [Conf.peekLen, Conf.rxFrameLen, look_desc]

@[simp] theorem peekBroken_look (p : RxSlot) : c.peekBroken (c.look p) = c.peekBroken p := by
  unfold Conf.peekBroken
  rw [rxVerdict_look]
  unfold Conf.look
  split_ifs <;> simp

/-! ## The round -/

theorem skbPut_eq_ite : skbPut skb len = if skb.tail + len ≤ skb.end_ then
    some { skb with tail := skb.tail + len, len := skb.len + BitVec.ofInt 32 len } else none := by
  unfold skbPut
  split_ifs <;> first | rfl | omega

/-- The protocol that is looked for is that of the type field. -/
theorem ethTypeTrans_protocol (skb : RxSkb) : (ethTypeTrans skb).protocol = 0xa488 ↔
    skb.buf (skb.data + 12) = 0x88 ∧ skb.buf (skb.data + 13) = 0xa4 := by
  have hmac : (skbPullInline { skb with macHeader := skb.data } ethHlen).macHeader = skb.data := by
    unfold skbPullInline
    split <;> rfl
  have hword : skb.buf (skb.data + 13) ++ skb.buf (skb.data + 12) = (0xa488 : BitVec 16) ↔
      skb.buf (skb.data + 12) = 0x88 ∧ skb.buf (skb.data + 13) = 0xa4 := by
    rw [show (0xa488 : BitVec 16) = 0xa4#8 ++ 0x88#8 from rfl, Bits.append_inj, and_comm]
    rfl
  unfold ethTypeTrans
  dsimp only
  rw [← hword, hProto, hmac, skbPullInline_buf]
  dsimp only
  -- the numbers that stand for other frames are not the one looked for
  split_ifs with hproto hsnap
  · rfl
  · refine ⟨fun h => absurd h (by decide), fun h => absurd ?_ hproto⟩
    rw [h]
    decide
  · refine ⟨fun h => absurd h (by decide), fun h => absurd ?_ hproto⟩
    rw [h]
    decide

theorem ethTypeTrans_hSourceWord (skb : RxSkb) : hSourceWord (ethTypeTrans skb) = 2 ↔
    skb.buf (skb.data + 6) = 2 ∧ skb.buf (skb.data + 7) = 0 ∧ skb.buf (skb.data + 8) = 0 ∧
      skb.buf (skb.data + 9) = 0 := by
  have hmac : (ethTypeTrans skb).macHeader = skb.data := by
    unfold ethTypeTrans skbPullInline
    dsimp only
    split_ifs <;> rfl
  rw [hSourceWord, ethTypeTrans_buf, hmac,
    show (2 : BitVec 32) = 0#8 ++ 0#8 ++ 0#8 ++ 2#8 from rfl, Bits.append_inj, Bits.append_inj,
    Bits.append_inj]
  grind

theorem look_isAprd (skb : RxSkb) (len : Int) : (skb.look len).isAprd = skb.isEcat := by
  rw [Bool.eq_iff_iff]
  simp only [RxSkb.isAprd, RxSkb.isEcat, RxSkb.look, Bool.and_eq_true, beq_iff_eq,
    ethTypeTrans_protocol, ethTypeTrans_hSourceWord]
  grind

theorem peekLen_bounds (ops : c.desc.Lawful) (p : RxSlot) :
    -2147483648 ≤ c.peekLen p ∧ c.peekLen p < 2147483648 := by
  have h := ops.rxFrameLen_int p.desc.des01 c.rxCoe
  unfold Conf.peekLen Conf.rxFrameLen
  dsimp only
  unfold ethFcsLen
  split_ifs <;> omega

theorem ofInt_le_iff {x : Int} (hlow : 0 ≤ x) (hhigh : x < 2 ^ 32) :
    length ≥ BitVec.ofInt 32 x ↔ x ≤ length.toNat := by
  have hmod : (BitVec.ofInt 32 x).toNat = x.toNat := by
    rw [BitVec.toNat_ofInt, Int.emod_eq_of_lt hlow (by omega)]
  rw [ge_iff_le, BitVec.le_def, hmod, Int.toNat_le]

/-- The test before the copy, for a length that `memcpy` returns from. -/
theorem fits_iff (ops : c.desc.Lawful) (length : BitVec 32) (hlen : ethHlen ≤ c.peekLen p) :
    c.fits length p = true ↔ length ≥ BitVec.ofInt 32 (c.peekLen p - ethHlen) := by
  have hhigh := (peekLen_bounds ops p).2
  rw [ofInt_le_iff (by omega) (by omega)]
  simp [Conf.fits, hlen]

theorem peekRound_discard (ops : c.desc.Lawful) (length : BitVec 32)
    (hd : c.rxVerdict (s.ring entry) = .discardFrame) :
    ∃ st, peekRound c length s entry =
      some ({ s with stats := st, trace := s.trace ++ [.rxStatus entry (s.ring entry).desc] },
        .pass) := by
  have hver := readRxStatus_snd ops s.stats (s.ring entry)
  unfold peekRound
  dsimp only
  rw [hver, if_pos hd]
  exact ⟨_, rfl⟩

theorem peekRound_broken (ops : c.desc.Lawful) (length : BitVec 32)
    (hd : c.rxVerdict (s.ring entry) ≠ .discardFrame) (hskb : (s.ring entry).skb = none) :
    ∃ st, peekRound c length s entry =
      some ({ s with stats := st, trace := s.trace ++ [.rxStatus entry (s.ring entry).desc] },
        .stop) := by
  have hver := readRxStatus_snd ops s.stats (s.ring entry)
  unfold peekRound
  dsimp only
  rw [hver, if_neg hd, hskb]
  exact ⟨_, rfl⟩

/-- The copy, for the length of a frame. -/
theorem peekCopy_eq_ite (ops : c.desc.Lawful) : peekCopy length (c.peekLen p) skb s =
    if decide (c.peekLen p < ethHlen) && decide (length ≥ BitVec.ofInt 32 (c.peekLen p - ethHlen))
    then none
    else some { s with
      trace := s.trace ++
        if c.fits length p then
          [.memcpy ((List.range (c.peekLen p - ethHlen).toNat).map fun i => skb.buf (skb.data + i))]
        else [] } := by
  unfold peekCopy
  by_cases hshort : c.peekLen p < ethHlen
  · have hfits : c.fits length p = false := by simp [Conf.fits, hshort]
    simp [hshort, hfits]
  · have hfits := fits_iff ops length (Int.not_lt.mp hshort)
    by_cases hroom : length ≥ BitVec.ofInt 32 (c.peekLen p - ethHlen)
    · simp only [hshort, hfits.mpr hroom, if_pos hroom, decide_false, Bool.false_and, if_true]
      rfl
    · have hno : c.fits length p = false := Bool.eq_false_iff.mpr fun h => hroom (hfits.mp h)
      simp [hno, hroom]

theorem peekRound_look (ops : c.desc.Lawful) (length : BitVec 32)
    (hd : c.rxVerdict (s.ring entry) ≠ .discardFrame) (hskb : (s.ring entry).skb = some skb) :
    ∃ st, peekRound c length s entry =
      if c.peekSafe length (s.ring entry) then
        some ({ s with
          ring := Function.update s.ring entry (c.look (s.ring entry))
          stats := st
          trace := s.trace ++ c.lookCalls length entry (s.ring entry) },
          if c.isReady (s.ring entry) then .count else .pass)
      else none := by
  have hver := readRxStatus_snd ops s.stats (s.ring entry)
  generalize hp : s.ring entry = p at hd hskb hver ⊢
  refine ⟨(c.readRxStatus s.stats p).1, ?_⟩
  unfold peekRound
  dsimp only
  rw [hp, hver, if_neg hd, hskb]
  change (match skbPut skb (c.peekLen p) with | none => none | some put => _) = _
  rw [skbPut_eq_ite, peekSafe_of_skb hd hskb, isReady_of_skb hd hskb, lookCalls_of_skb hd hskb,
    look_of_skb hd hskb]
  by_cases hroom : skb.tail + c.peekLen p ≤ skb.end_
  · rw [if_pos hroom]
    change (if (skb.look (c.peekLen p)).isAprd then
      (peekCopy length (c.peekLen p) (skb.look (c.peekLen p)) _).map _ else _) = _
    rw [look_isAprd, peekCopy_eq_ite ops]
    rw [← lookBytes_of_skb hd hskb]
    generalize (decide (c.peekLen p < ethHlen) && _) = huge
    have hput : c.rxFrameLen p (c.rxVerdict p) = c.peekLen p := rfl
    cases skb.isEcat <;> cases huge <;>
      simp [hroom, RxState.call, RxState.modify, hp, RxSkb.look, hput]
  · rw [if_neg hroom]
    simp [hroom]

/-- A round, as a function of the slot it finds. -/
theorem peekRound_eq (ops : c.desc.Lawful) (length : BitVec 32) (hp : s.ring entry = p) :
    ∃ st, peekRound c length s entry =
      if c.peekBroken p then
        some ({ s with stats := st, trace := s.trace ++ c.lookCalls length entry p }, .stop)
      else if c.peekSafe length p then
        some ({ s with
          ring := Function.update s.ring entry (c.look p)
          stats := st
          trace := s.trace ++ c.lookCalls length entry p },
          if c.isReady p then .count else .pass)
      else none := by
  subst hp
  by_cases hd : c.rxVerdict (s.ring entry) = .discardFrame
  · obtain ⟨st, hround⟩ := peekRound_discard ops length hd
    refine ⟨st, hround.trans ?_⟩
    simp [Conf.peekBroken, Conf.peekSafe, Conf.isReady, Conf.lookCalls, look_of_discard hd, hd]
  · cases hskb : (s.ring entry).skb with
    | none =>
      obtain ⟨st, hround⟩ := peekRound_broken ops length hd hskb
      refine ⟨st, hround.trans ?_⟩
      simp [Conf.peekBroken, Conf.lookCalls, hd, hskb]
    | some skb =>
      obtain ⟨st, hround⟩ := peekRound_look ops length hd hskb
      refine ⟨st, hround.trans ?_⟩
      simp [Conf.peekBroken, hskb]

/-- The loop is left at its exit test or at the test for the owner. -/
theorem peekLoop_succ_done {fuel count : Nat} (hp : s.ring entry = p)
    (hend : ¬ count < limit.toNat ∨ c.rxOwned p = true) :
    peekLoop c length limit (fuel + 1) entry count s = some (s, count) := by
  rw [peekLoop, hp]
  split
  · rfl
  · next hlim => rw [if_pos (hend.resolve_left hlim)]

/-- A round that is started, and what follows it. -/
theorem peekLoop_succ (ops : c.desc.Lawful) (length : BitVec 32) (fuel : Nat) {count : Nat}
    (hp : s.ring entry = p) (hlim : count < limit.toNat) (hown : c.rxOwned p = false) :
    ∃ st, peekLoop c length limit (fuel + 1) entry count s =
      if c.peekBroken p then
        some ({ s with stats := st, trace := s.trace ++ c.lookCalls length entry p }, count)
      else if c.peekSafe length p then
        peekLoop c length limit fuel (c.rxEntry (s.curRx + 1)) (count + (c.isReady p).toNat)
          { s with
            ring := Function.update s.ring entry (c.look p)
            stats := st
            trace := s.trace ++ c.lookCalls length entry p }
      else none := by
  obtain ⟨st, hround⟩ := peekRound_eq ops length hp
  refine ⟨st, ?_⟩
  rw [peekLoop, if_neg (not_not_intro hlim), hp, if_neg (by simp [hown]), hround]
  cases c.peekBroken p with
  | true => rfl
  | false =>
    cases c.peekSafe length p with
    | true => cases c.isReady p <;> rfl
    | false => rfl

/-! ## Staying at a slot -/

/-- How many of the first `n` looks at a slot are counted. -/
def Conf.hits (c : Conf) : RxSlot → Nat → Nat
  | _, 0 => 0
  | p, n + 1 => (c.isReady p).toNat + hits c (c.look p) n

/-- The first `n` looks at a slot return. -/
def Conf.SafeLooks (c : Conf) (length : BitVec 32) (p : RxSlot) (n : Nat) : Prop :=
  ∀ i < n, c.peekSafe length (c.look^[i] p) = true

instance (n : Nat) : Decidable (c.SafeLooks length p n) :=
  inferInstanceAs (Decidable (∀ i < n, _))

theorem hits_succ (p : RxSlot) (n : Nat) :
    c.hits p (n + 1) = c.hits p n + (c.isReady (c.look^[n] p)).toNat := by
  induction n generalizing p with
  | zero => simp [Conf.hits]
  | succ n ih =>
    rw [Conf.hits, ih, Conf.hits, Function.iterate_succ_apply]
    omega

theorem exists_ready_of_hits (p : RxSlot) {n : Nat} (h : 0 < c.hits p n) :
    ∃ i < n, c.isReady (c.look^[i] p) = true := by
  induction n with
  | zero => exact absurd h (Nat.lt_irrefl 0)
  | succ n ih =>
    rw [hits_succ] at h
    cases hready : c.isReady (c.look^[n] p) with
    | true => exact ⟨n, Nat.lt_succ_self n, hready⟩
    | false =>
      rw [hready, Bool.toNat_false, Nat.add_zero] at h
      obtain ⟨i, hi, hfound⟩ := ih h
      exact ⟨i, Nat.lt_succ_of_lt hi, hfound⟩

theorem safeLooks_zero : c.SafeLooks length p 0 := fun _ h => absurd h (Nat.not_lt_zero _)

theorem safeLooks_succ (n : Nat) : c.SafeLooks length p (n + 1) ↔
    c.peekSafe length p = true ∧ c.SafeLooks length (c.look p) n := by
  unfold Conf.SafeLooks
  refine ⟨fun h => ⟨h 0 (Nat.succ_pos n), fun i hi => h (i + 1) (Nat.succ_lt_succ hi)⟩,
    fun ⟨hfirst, hrest⟩ i hi => ?_⟩
  cases i with
  | zero => exact hfirst
  | succ i => exact hrest i (Nat.lt_of_succ_lt_succ hi)

/-- A discarded frame is never counted. -/
theorem hits_of_discard (h : c.rxVerdict p = .discardFrame) (n : Nat) : c.hits p n = 0 := by
  induction n with
  | zero => rfl
  | succ n ih => simp [Conf.hits, Conf.isReady, look_of_discard h, h, ih]

/-! ## Where the next look finds a header -/

/-- How far into the buffer look `n` finds its header: each look before it takes 14 bytes off, as
long as the bytes put so far fill a header. -/
def RxSkb.headerAt (skb : RxSkb) (len : Int) (n : Nat) : Nat :=
  ethHlen * min n ((skb.len.toNat + n * len.toNat) / ethHlen)

/-- How many of the first `n` looks at a buffer find the header of a frame that is looked for. -/
def RxSkb.headers (skb : RxSkb) (len : Int) (n : Nat) : Nat :=
  (List.range n).countP fun i => RxSkb.isEcat { skb with data := skb.data + skb.headerAt len i }

/-- The bytes before the header of the next look. -/
theorem headerAt_succ (skb : RxSkb) (l n : Nat) :
    skb.headerAt l (n + 1) = skb.headerAt l n +
      if ethHlen ≤ skb.len.toNat + (n + 1) * l - skb.headerAt l n then ethHlen else 0 := by
  have hstep : (n + 1) * l = n * l + l := Nat.succ_mul n l
  have hlong : ethHlen ≤ l → ethHlen * n ≤ n * l := fun h => by
    rw [Nat.mul_comm]
    exact Nat.mul_le_mul_left n h
  unfold RxSkb.headerAt ethHlen at *
  rw [Int.toNat_natCast, hstep]
  generalize n * l = m at hlong ⊢
  split_ifs <;> omega

theorem headerAt_le (skb : RxSkb) (l n : Nat) : skb.headerAt l n ≤ skb.len.toNat + n * l := by
  unfold RxSkb.headerAt ethHlen
  rw [Int.toNat_natCast]
  generalize n * l = m
  omega

theorem look_tail (skb : RxSkb) (len : Int) :
    (skb.look len).tail = skb.tail + len ∧ (skb.look len).end_ = skb.end_ := by
  unfold RxSkb.look ethTypeTrans skbPullInline
  dsimp only
  split_ifs <;> exact ⟨rfl, rfl⟩

theorem iterate_look_tail (skb : RxSkb) (len : Int) (n : Nat) :
    ((RxSkb.look len)^[n] skb).tail = skb.tail + n * len ∧
      ((RxSkb.look len)^[n] skb).end_ = skb.end_ := by
  induction n with
  | zero => simp
  | succ n ih =>
    obtain ⟨htail, hend⟩ := look_tail ((RxSkb.look len)^[n] skb) len
    rw [Function.iterate_succ_apply', htail, hend, ih.1, ih.2]
    push_cast
    rw [Int.add_mul, Int.one_mul, Int.add_assoc]
    exact ⟨rfl, rfl⟩

/-- A look at a frame whose length does not wrap. -/
theorem look_further (skb : RxSkb) (l : Nat) (hwrap : skb.len.toNat + l < 2 ^ 32) :
    (skb.look l).data = skb.data + (if ethHlen ≤ skb.len.toNat + l then ethHlen else 0) ∧
      (skb.look l).data + (skb.look l).len.toNat = skb.data + skb.len.toNat + l := by
  have hsum : (skb.len + BitVec.ofInt 32 l).toNat = skb.len.toNat + l := by
    rw [BitVec.ofInt_natCast, BitVec.toNat_add, BitVec.toNat_ofNat]
    omega
  have hend := @ethTypeTrans_end
    { skb with tail := skb.tail + l, len := skb.len + BitVec.ofInt 32 l }
  refine ⟨?_, ?_⟩
  · rw [RxSkb.look, ethTypeTrans_data, skbPullInline]
    dsimp only
    rw [hsum]
    split_ifs <;> dsimp only <;> omega
  · rw [RxSkb.look, hend]
    dsimp only
    rw [hsum, Nat.add_assoc]

/-- Each look goes on where the header of the one before it ends. -/
theorem look_iterate {n : Nat} (hlow : 0 ≤ len)
    (hwrap : (skb.len.toNat : Int) + n * len < 2 ^ 32) :
    ((RxSkb.look len)^[n] skb).data = skb.data + skb.headerAt len n ∧
      ((RxSkb.look len)^[n] skb).buf = skb.buf := by
  obtain ⟨l, rfl⟩ := Int.eq_ofNat_of_zero_le hlow
  suffices h : ((RxSkb.look l)^[n] skb).data = skb.data + skb.headerAt l n ∧
      ((RxSkb.look l)^[n] skb).data + ((RxSkb.look l)^[n] skb).len.toNat =
        skb.data + skb.len.toNat + n * l ∧ ((RxSkb.look l)^[n] skb).buf = skb.buf from ⟨h.1, h.2.2⟩
  norm_cast at hwrap
  induction n with
  | zero => simp [RxSkb.headerAt]
  | succ n ih =>
    have hstep : (n + 1) * l = n * l + l := Nat.succ_mul n l
    obtain ⟨hdata, hend, hbuf⟩ := ih (by omega)
    have hle := headerAt_le skb l n
    obtain ⟨hdata', hend'⟩ := look_further ((RxSkb.look l)^[n] skb) l (by omega)
    have hbuf' : (((RxSkb.look l)^[n] skb).look l).buf = ((RxSkb.look l)^[n] skb).buf := by
      rw [RxSkb.look, ethTypeTrans_buf]
    rw [Function.iterate_succ_apply', hbuf', hend', headerAt_succ]
    refine ⟨?_, by omega, hbuf⟩
    have hfill : ((RxSkb.look l)^[n] skb).len.toNat + l =
        skb.len.toNat + (n + 1) * l - skb.headerAt l n := by omega
    rw [hdata', hdata, hfill, Nat.add_assoc]

theorem iterate_look_skb (hd : c.rxVerdict p ≠ .discardFrame) (hskb : p.skb = some skb) (n : Nat) :
    (c.look^[n] p).skb = some ((RxSkb.look (c.peekLen p))^[n] skb) := by
  induction n generalizing p skb with
  | zero => exact hskb
  | succ n ih =>
    have hlook : (c.look p).skb = some (skb.look (c.peekLen p)) := by rw [look_of_skb hd hskb]
    rw [Function.iterate_succ_apply, Function.iterate_succ_apply,
      ih (by rwa [rxVerdict_look]) hlook, peekLen_look]

/-! ## All looks at a buffer, as it is found -/

section Found

variable {n : Nat} (hd : c.rxVerdict p ≠ .discardFrame) (hskb : p.skb = some skb)
  (hlow : 0 ≤ c.peekLen p)

include hd hskb

include hlow in
/-- Whether a look is counted depends on the bytes where it finds its header. -/
theorem isReady_iterate (hwrap : (skb.len.toNat : Int) + n * c.peekLen p < 2 ^ 32) :
    c.isReady (c.look^[n] p) =
      RxSkb.isEcat { skb with data := skb.data + skb.headerAt (c.peekLen p) n } := by
  obtain ⟨hdata, hbuf⟩ := look_iterate hlow hwrap
  rw [isReady_of_skb (by rwa [rxVerdict_iterate]) (iterate_look_skb hd hskb n), RxSkb.isEcat,
    hdata, hbuf]
  rfl

include hlow in
theorem hits_eq_headers (hwrap : (skb.len.toNat : Int) + n * c.peekLen p < 2 ^ 32) :
    c.hits p n = skb.headers (c.peekLen p) n := by
  induction n with
  | zero => rfl
  | succ n ih =>
    have hn : (skb.len.toNat : Int) + n * c.peekLen p < 2 ^ 32 := by
      push_cast at hwrap
      rw [Int.add_mul] at hwrap
      omega
    rw [hits_succ, ih hn, isReady_iterate hd hskb hlow hn, RxSkb.headers, RxSkb.headers,
      List.range_succ, List.countP_append, List.countP_singleton]
    cases RxSkb.isEcat _ <;> rfl

/-- A look returns if there is room for it, and it does not copy a negative length. -/
theorem peekSafe_iterate (n : Nat) : c.peekSafe length (c.look^[n] p) = true ↔
    skb.tail + (n + 1 : Nat) * c.peekLen p ≤ skb.end_ ∧
      (c.isReady (c.look^[n] p) = true → ethHlen ≤ c.peekLen p ∨
        length < BitVec.ofInt 32 (c.peekLen p - ethHlen)) := by
  have hd' : c.rxVerdict (c.look^[n] p) ≠ .discardFrame := by rwa [rxVerdict_iterate]
  have hskb' := iterate_look_skb hd hskb n
  obtain ⟨htail, hend⟩ := iterate_look_tail skb (c.peekLen p) n
  rw [peekSafe_of_skb hd' hskb', isReady_of_skb hd' hskb', peekLen_iterate, htail, hend]
  push_cast
  rw [Int.add_mul, Int.one_mul, ← Int.add_assoc]
  simp only [Bool.and_eq_true, decide_eq_true_eq, Bool.not_eq_true', Bool.and_eq_false_iff,
    decide_eq_false_iff_not, ge_iff_le, BitVec.not_le, Int.not_lt]
  cases RxSkb.isEcat _ <;> simp

end Found

end Stmmac
