import Stmmac.Rx.InitSpec
import Stmmac.Rx.PeekLooks

/-!
# Receive side: when peeking ends

The walk of `stmmac_peek_packet` looks at the slot at `cur_rx` once and then at the one after it
until the count reaches the limit. A frame that is not counted brings the count no nearer, and the
walk does not go on to the frames behind it.
-/

namespace Stmmac

open Library

/-- The slot at `cur_rx`. -/
def RxState.peekFirst (c : Conf) (s : RxState) : RxSlot := s.ring (c.rxEntry s.curRx)

/-- The slot after it. -/
def RxState.peekSecond (c : Conf) (s : RxState) : RxSlot := s.ring (c.rxEntry (s.curRx + 1))

/-- The buffer has room for some looks, fewer than `n`, that find at least `k` headers. -/
def RxSkb.Shows (skb : RxSkb) (len : Int) (n k : Nat) : Prop :=
  ∃ j < n, skb.tail + j * len ≤ skb.end_ ∧ skb.len.toNat + j * len < 2 ^ 32 ∧
    k ≤ skb.headers len j

instance (skb : RxSkb) (len : Int) (n k : Nat) : Decidable (skb.Shows len n k) :=
  inferInstanceAs (Decidable (∃ j < n, _ ∧ _ ∧ _))

/-- A walk that stays at the slot, with `count` frames counted so far, ends within `n` rounds: the
DMA owns the slot, its buffer is missing, or no more are needed; or the buffer shows the headers
that are still needed, and is not too short for the copy. -/
def Conf.StayEnds (c : Conf) (length limit : BitVec 32) (q : RxSlot) (count n : Nat) : Prop :=
  c.rxOwned q = true ∨ c.peekBroken q = true ∨ (0 < n ∧ limit.toNat ≤ count) ∨
    (c.rxVerdict q ≠ .discardFrame ∧ 0 ≤ c.peekLen q ∧
      (ethHlen ≤ c.peekLen q ∨ length < BitVec.ofInt 32 (c.peekLen q - ethHlen)) ∧
      ∃ skb ∈ q.skb, skb.Shows (c.peekLen q) n (limit.toNat - count))

/-- The first slot ends the walk, or is looked at and the second one ends it. A second slot that is
the first one over again is met from the start. -/
def PeekEnds (c : Conf) (length limit : BitVec 32) (n : Nat) (s : RxState) : Prop :=
  if c.rxEntry (s.curRx + 1) = c.rxEntry s.curRx then
    c.StayEnds length limit (s.peekFirst c) 0 (n + 1)
  else c.rxOwned (s.peekFirst c) = true ∨ c.peekBroken (s.peekFirst c) = true ∨
    c.peekSafe length (s.peekFirst c) = true ∧
      c.StayEnds length limit (s.peekSecond c) (c.isReady (s.peekFirst c)).toNat n

instance (c : Conf) (length limit : BitVec 32) (q : RxSlot) (count n : Nat) :
    Decidable (c.StayEnds length limit q count n) :=
  inferInstanceAs (Decidable (_ ∨ _ ∨ _ ∨ _ ∧ _ ∧ _ ∧ ∃ skb ∈ q.skb, _))

instance (c : Conf) (length limit : BitVec 32) (n : Nat) (s : RxState) :
    Decidable (PeekEnds c length limit n s) :=
  inferInstanceAs (Decidable (if c.rxEntry (s.curRx + 1) = c.rxEntry s.curRx then _
    else _ ∨ _ ∨ _ ∧ _))

/-- A good frame has a length, and `skb->len` does not wrap while there is room in the buffer. -/
def Conf.PlainFrame (c : Conf) (q : RxSlot) : Prop :=
  c.rxVerdict q ≠ .discardFrame → ∀ skb ∈ q.skb,
    0 ≤ c.peekLen q ∧ skb.len.toNat + (skb.end_ - skb.tail) < 2 ^ 32

/-- How a walk that stays at the slot ends, by what its looks meet. -/
def Conf.LooksEnd (c : Conf) (length limit : BitVec 32) (q : RxSlot) (count n : Nat) : Prop :=
  c.rxOwned q = true ∨ c.peekBroken q = true ∨
    ∃ j < n, c.SafeLooks length q j ∧ limit.toNat ≤ count + c.hits q j

/-- The second slot, once the first one has been looked at: in a ring of one it is the same. -/
def RxState.peekNext (c : Conf) (s : RxState) : RxSlot :=
  Function.update s.ring (c.rxEntry s.curRx) (c.look (s.peekFirst c)) (c.rxEntry (s.curRx + 1))

/-- How the whole walk ends. -/
def WalkEnds (c : Conf) (length limit : BitVec 32) (n : Nat) (s : RxState) : Prop :=
  c.rxOwned (s.peekFirst c) = true ∨ c.peekBroken (s.peekFirst c) = true ∨
    c.peekSafe length (s.peekFirst c) = true ∧
      c.LooksEnd length limit (s.peekNext c) (c.isReady (s.peekFirst c)).toNat n

variable {c : Conf} {s s' : RxState} {p q : RxSlot} {length limit : BitVec 32} {e n count : Nat}

/-- A look that returns and is followed by others. -/
theorem looksEnd_look (hlim : count < limit.toNat) (hown : c.rxOwned q = false)
    (hbroken : c.peekBroken q = false) :
    c.LooksEnd length limit q count (n + 1) ↔ c.peekSafe length q = true ∧
      c.LooksEnd length limit (c.look q) (count + (c.isReady q).toNat) n := by
  simp only [Conf.LooksEnd, rxOwned_look, peekBroken_look, hown, hbroken, Bool.false_eq_true,
    false_or]
  constructor
  · rintro ⟨j, hj, hsafe, hreach⟩
    cases j with
    | zero => exact absurd hreach (Nat.not_le.mpr hlim)
    | succ j =>
      obtain ⟨hfirst, hrest⟩ := (safeLooks_succ j).mp hsafe
      refine ⟨hfirst, j, Nat.lt_of_succ_lt_succ hj, hrest, ?_⟩
      rw [Conf.hits] at hreach
      omega
  · rintro ⟨hfirst, j, hj, hrest, hreach⟩
    refine ⟨j + 1, Nat.succ_lt_succ hj, (safeLooks_succ j).mpr ⟨hfirst, hrest⟩, ?_⟩
    rw [Conf.hits]
    omega

theorem looksEnd_of_le (hn : 0 < n) (h : limit.toNat ≤ count) :
    c.LooksEnd length limit q count n :=
  .inr (.inr ⟨0, hn, safeLooks_zero, h⟩)

/-- The walk at the second slot, by induction on the rounds that are left. -/
theorem peekLoop_isSome_iff (ops : c.desc.Lawful) (hn : 0 < n) (he : c.rxEntry (s.curRx + 1) = e)
    (hq : s.ring e = q) : (peekLoop c length limit n e count s).isSome ↔
      c.LooksEnd length limit q count n := by
  induction n generalizing count s q with
  | zero => exact absurd hn (Nat.lt_irrefl 0)
  | succ n ih =>
    by_cases hlim : count < limit.toNat
    · cases hown : c.rxOwned q with
      | true =>
        rw [peekLoop_succ_done hq (.inr hown)]
        simp [Conf.LooksEnd, hown]
      | false =>
        obtain ⟨st, hstep⟩ := peekLoop_succ ops length n hq hlim hown
        rw [hstep]
        cases hbroken : c.peekBroken q with
        | true => simp [Conf.LooksEnd, hbroken]
        | false =>
          rw [looksEnd_look hlim hown hbroken]
          cases hsafe : c.peekSafe length q with
          | false => simp
          | true =>
            simp only [Bool.false_eq_true, if_false, if_true, true_and, he]
            cases n with
            | zero => simp [peekLoop, Conf.LooksEnd, hown, hbroken]
            | succ n => exact ih (Nat.succ_pos n) he (Function.update_self _ _ _)
    · have hdone : c.LooksEnd length limit q count (n + 1) :=
        looksEnd_of_le hn (Nat.le_of_not_lt hlim)
      rw [peekLoop_succ_done hq (.inl hlim)]
      simp [hdone]

/-- With a bound of `n` rounds and the exit test behind them. -/
theorem stmmacPeekPacket_isSome_iff (ops : c.desc.Lawful) (hlimit : limit ≠ 0) (hn : 0 < n) :
    (stmmacPeekPacket c length limit (n + 1) s).isSome ↔ WalkEnds c length limit n s := by
  have hlim := BitVec.toNat_pos_of_ne_zero hlimit
  unfold stmmacPeekPacket WalkEnds
  generalize hp : s.peekFirst c = p
  cases hown : c.rxOwned p with
  | true =>
    rw [peekLoop_succ_done hp (.inr hown)]
    simp
  | false =>
    obtain ⟨st, hstep⟩ := peekLoop_succ ops length n hp hlim hown
    rw [hstep]
    cases c.peekBroken p with
    | true => simp
    | false =>
      cases c.peekSafe length p with
      | false => simp
      | true =>
        simp only [Bool.false_eq_true, if_false, if_true, false_or, true_and, Nat.zero_add]
        exact peekLoop_isSome_iff ops hn rfl (by rw [RxState.peekNext, hp])

/-! ## The ring as it is found -/

/-- The looks at a buffer that return, and what they count. -/
theorem looks_iff {skb : RxSkb} {j : Nat} (hd : c.rxVerdict q ≠ .discardFrame)
    (hskb : q.skb = some skb) (hlow : 0 ≤ c.peekLen q)
    (hwrap : skb.len.toNat + j * c.peekLen q < 2 ^ 32) (hlim : count < limit.toNat) :
    (c.SafeLooks length q j ∧ limit.toNat ≤ count + c.hits q j) ↔
      skb.tail + j * c.peekLen q ≤ skb.end_ ∧
        (ethHlen ≤ c.peekLen q ∨ length < BitVec.ofInt 32 (c.peekLen q - ethHlen)) ∧
        limit.toNat ≤ count + skb.headers (c.peekLen q) j := by
  have hsafe : c.SafeLooks length q j ↔ ∀ i < j,
      skb.tail + (i + 1 : Nat) * c.peekLen q ≤ skb.end_ ∧ (c.isReady (c.look^[i] q) = true →
        ethHlen ≤ c.peekLen q ∨ length < BitVec.ofInt 32 (c.peekLen q - ethHlen)) :=
    forall₂_congr fun i _ => peekSafe_iterate hd hskb i
  rw [hsafe, ← hits_eq_headers hd hskb hlow hwrap]
  constructor
  · rintro ⟨hlooks, hreach⟩
    obtain ⟨i, hi, hready⟩ := exists_ready_of_hits (c := c) q (n := j) (by omega)
    obtain ⟨m, rfl⟩ := Nat.exists_eq_add_one_of_ne_zero (Nat.ne_zero_of_lt hi)
    exact ⟨(hlooks m (Nat.lt_succ_self m)).1, (hlooks i hi).2 hready, hreach⟩
  · rintro ⟨hroom, hcopy, hreach⟩
    refine ⟨fun i hi => ⟨?_, fun _ => hcopy⟩, hreach⟩
    have hle := Int.mul_le_mul_of_nonneg_right (Int.ofNat_le.mpr (Nat.succ_le_of_lt hi)) hlow
    exact Int.le_trans (Int.add_le_add_left hle _) hroom

theorem StayEnds.looksEnd (h : c.StayEnds length limit q count n) :
    c.LooksEnd length limit q count n := by
  rcases Nat.lt_or_ge count limit.toNat with hlim | hge
  · refine h.imp_right (Or.imp_right fun hlook => ?_)
    obtain ⟨hd, hlow, hcopy, skb, hskb, j, hj, hroom, hwrap, hreach⟩ :=
      hlook.resolve_left fun hdone => Nat.not_lt.mpr hdone.2 hlim
    exact ⟨j, hj, (looks_iff hd hskb hlow hwrap hlim).mpr ⟨hroom, hcopy, by omega⟩⟩
  · rcases h with hown | hbroken | ⟨hn, -⟩ | ⟨-, -, -, -, -, j, hj, -⟩
    · exact .inl hown
    · exact .inr (.inl hbroken)
    · exact looksEnd_of_le hn hge
    · exact looksEnd_of_le (Nat.zero_lt_of_lt hj) hge

/-- The other way round for a plain frame, whose looks stop before the length wraps. -/
theorem LooksEnd.stayEnds (hplain : c.PlainFrame q) (h : c.LooksEnd length limit q count n) :
    c.StayEnds length limit q count n := by
  rcases h with hown | hbroken | ⟨j, hj, hsafe, hreach⟩
  · exact .inl hown
  · exact .inr (.inl hbroken)
  rcases Nat.lt_or_ge count limit.toNat with hlim | hge
  · obtain ⟨i, hi, -⟩ := exists_ready_of_hits (c := c) q (n := j) (by omega)
    obtain ⟨m, rfl⟩ := Nat.exists_eq_add_one_of_ne_zero (Nat.ne_zero_of_lt hi)
    have hd : c.rxVerdict q ≠ .discardFrame := fun hdisc => by
      rw [hits_of_discard hdisc] at hreach
      omega
    cases hskb : q.skb with
    | none => exact .inr (.inl (peekBroken_iff.mpr ⟨hd, hskb⟩))
    | some skb =>
      obtain ⟨hlow, hwrap⟩ := hplain hd skb hskb
      have hroom := ((peekSafe_iterate hd hskb m).mp (hsafe m (Nat.lt_succ_self m))).1
      have hwrap' : skb.len.toNat + (m + 1 : Nat) * c.peekLen q < 2 ^ 32 := by omega
      obtain ⟨-, hcopy, hfound⟩ := (looks_iff hd hskb hlow hwrap' hlim).mp ⟨hsafe, hreach⟩
      exact .inr (.inr (.inr
        ⟨hd, hlow, hcopy, skb, hskb, m + 1, hj, hroom, hwrap', by omega⟩))
  · exact .inr (.inr (.inl ⟨Nat.zero_lt_of_lt hj, hge⟩))

/-- A walk over two slots, or over one. -/
theorem walkEnds_iff (hlim : 0 < limit.toNat) : WalkEnds c length limit n s ↔
    if c.rxEntry (s.curRx + 1) = c.rxEntry s.curRx then
      c.LooksEnd length limit (s.peekFirst c) 0 (n + 1)
    else c.rxOwned (s.peekFirst c) = true ∨ c.peekBroken (s.peekFirst c) = true ∨
      c.peekSafe length (s.peekFirst c) = true ∧
        c.LooksEnd length limit (s.peekSecond c) (c.isReady (s.peekFirst c)).toNat n := by
  unfold WalkEnds RxState.peekNext
  split_ifs with he
  · rw [he, Function.update_self]
    generalize s.peekFirst c = p
    cases hown : c.rxOwned p with
    | true => simp [Conf.LooksEnd, hown]
    | false =>
      cases hbroken : c.peekBroken p with
      | true => simp [Conf.LooksEnd, hbroken]
      | false => simp [looksEnd_look hlim hown hbroken]
  · rw [Function.update_of_ne he]
    rfl

/-- A frame of 64 bytes that is looked for. -/
def RxWrite.ecat : RxWrite :=
  .frame ([1, 1, 1, 1, 1, 1, 2, 0, 0, 0, 0, 0, 0x88, 0xa4] ++ .replicate 50 1)

/-- Two discarded frames are looked at for ever. -/
theorem peek_discarded (ops : c.desc.Lawful) (hlimit : limit ≠ 0)
    (hown : c.rxOwned (s.peekFirst c) = false)
    (hd : c.rxVerdict (s.peekFirst c) = .discardFrame)
    (hown' : c.rxOwned (s.ring (c.rxEntry (s.curRx + 1))) = false)
    (hd' : c.rxVerdict (s.ring (c.rxEntry (s.curRx + 1))) = .discardFrame) (fuel : Nat) :
    stmmacPeekPacket c length limit fuel s = none := by
  have hlim := BitVec.toNat_pos_of_ne_zero hlimit
  have hnext : s.peekNext c = s.ring (c.rxEntry (s.curRx + 1)) := by
    rw [RxState.peekNext, look_of_discard hd, RxState.peekFirst, Function.update_eq_self]
  have hbroken : c.peekBroken (s.peekFirst c) = false := by simp [Conf.peekBroken, hd]
  rcases fuel with _ | _ | n
  · rfl
  · obtain ⟨st, hstep⟩ := peekLoop_succ (p := s.peekFirst c) ops length 0 rfl hlim hown
    rw [stmmacPeekPacket, hstep, hbroken]
    simp [peekLoop]
  · have hends : ¬ WalkEnds c length limit (n + 1) s := by
      unfold WalkEnds Conf.LooksEnd
      rw [hnext]
      generalize s.ring (c.rxEntry (s.curRx + 1)) = q at hown' hd'
      have hnone : c.isReady (s.peekFirst c) = false := by simp [Conf.isReady, hd]
      have hno : c.peekBroken q = false := by simp [Conf.peekBroken, hd']
      simp [hown, hbroken, hnone, hown', hno, hits_of_discard hd', hlim.ne']
    simpa using (stmmacPeekPacket_isSome_iff ops hlimit (Nat.succ_pos n)).not.mpr hends

/-- A frame of 64 bytes with an error. -/
def RxWrite.bad : RxWrite where
  des01 := ⟨BitVec.ofNat 32 (64 * 65536 + 32768 + 768), 0x003fffff⟩
  stamp := none
  bytes := .replicate 64 1

end Stmmac
