import Stmmac.Rx.ReceiveSpec

/-!
# Receive side: the slots that a call examines

`stmmac_rx` goes from `cur_rx` on until it meets a descriptor the DMA owns, a slot at which it
stops, or its limit. What a call does badly, it does at one of these slots; a state in which none of
them is bad stays so from round to round.
-/

namespace Stmmac

open Library

/-- The slot `i` places after that of `cur_rx`. -/
def RxState.ahead (c : Conf) (s : RxState) (i : Nat) : RxSlot :=
  s.ring (c.rxEntry (s.curRx + BitVec.ofNat 32 i))

/-- The slot `i` places ahead is that of `cur_rx`, met again. -/
def RxState.MeetsAgain (c : Conf) (s : RxState) (i : Nat) : Prop :=
  c.rxEntry (s.curRx + BitVec.ofNat 32 i) = c.rxEntry s.curRx

instance (c : Conf) (s : RxState) (i : Nat) : Decidable (s.MeetsAgain c i) :=
  inferInstanceAs (Decidable (_ = _))

/-- The DMA owns no descriptor up to the one `j` places ahead, and the loop stops at none before
it. -/
def Examines (c : Conf) (s : RxState) (j : Nat) : Prop :=
  (∀ i ≤ j, c.rxOwned (s.ahead c i) = false) ∧ ∀ i < j, c.rxStops (s.ahead c i) = false

/-- No slot that `stmmac_rx` examines in at most `n` rounds is bad. -/
def ExaminesNone (c : Conf) (s : RxState) (n : Nat) (bad : Nat → Prop) : Prop :=
  ∀ j < n, Examines c s j → ¬ bad j

instance (c : Conf) (s : RxState) (j : Nat) : Decidable (Examines c s j) :=
  inferInstanceAs (Decidable ((∀ i ≤ j, _ = _) ∧ ∀ i < j, _ = _))

instance (c : Conf) (s : RxState) (n : Nat) (bad : Nat → Prop) [DecidablePred bad] :
    Decidable (ExaminesNone c s n bad) :=
  inferInstanceAs (Decidable (∀ j < n, _ → _))

variable {c : Conf} {s : RxState}

@[simp] theorem ahead_zero : s.ahead c 0 = s.ring (c.rxEntry s.curRx) := by simp [RxState.ahead]

theorem ahead_of_meetsAgain {i : Nat} (h : s.MeetsAgain c i) :
    s.ahead c i = s.ring (c.rxEntry s.curRx) := by
  rw [RxState.ahead, h]

/-- After a round the slots ahead are those from the next on, the first one consumed. -/
theorem ahead_rxBody (ops : c.desc.Lawful) (i : Nat) :
    (rxBody c s).1.ahead c i =
      if s.MeetsAgain c (i + 1) then c.consumed (s.ahead c (i + 1)) else s.ahead c (i + 1) := by
  have hcur : s.curRx + 1 + BitVec.ofNat 32 i = s.curRx + BitVec.ofNat 32 (i + 1) := by
    rw [Ring.ofNat_succ, BitVec.add_assoc, BitVec.add_comm 1]
  rw [RxState.ahead, rxBody_ring ops, rxBody_curRx ops, hcur]
  by_cases he : s.MeetsAgain c (i + 1)
  · have hsame : c.rxEntry (s.curRx + BitVec.ofNat 32 (i + 1)) = c.rxEntry s.curRx := he
    rw [if_pos he, ahead_of_meetsAgain he, hsame, Function.update_self]
  · rw [if_neg he, Function.update_of_ne he]
    rfl

theorem examines_zero (hown : c.rxOwned (s.ring (c.rxEntry s.curRx)) = false) :
    Examines c s 0 := by
  refine ⟨fun i hi => ?_, fun i hi => absurd hi (Nat.not_lt_zero i)⟩
  obtain rfl : i = 0 := by omega
  rwa [ahead_zero]

/-- After a round that goes on, what the loop examines it would have examined before. -/
theorem Examines.of_rxBody (ops : c.desc.Lawful) {j : Nat}
    (hown : c.rxOwned (s.ring (c.rxEntry s.curRx)) = false)
    (hgo : c.rxStops (s.ring (c.rxEntry s.curRx)) = false)
    (h : Examines c (rxBody c s).1 j) : Examines c s (j + 1) := by
  constructor
  · intro i hi
    cases i with
    | zero => rwa [ahead_zero]
    | succ i =>
      have hrest := h.1 i (by omega)
      rw [ahead_rxBody ops] at hrest
      split_ifs at hrest with he
      · rwa [ahead_of_meetsAgain he]
      · exact hrest
  · intro i hi
    cases i with
    | zero => rwa [ahead_zero]
    | succ i =>
      have hrest := h.2 i (by omega)
      rw [ahead_rxBody ops] at hrest
      split_ifs at hrest with he
      · rwa [ahead_of_meetsAgain he]
      · exact hrest

/-- What a round keeps at a slot that is not bad, the loop keeps if it examines no bad slot. -/
theorem rxLoop_examines {I : RxState → Prop} {P : RxState → Nat → Prop} (ops : c.desc.Lawful)
    (hround : ∀ {s : RxState}, I s → c.rxOwned (s.ring (c.rxEntry s.curRx)) = false →
      ¬ P s 0 → I (rxBody c s).1)
    (hnext : ∀ {s : RxState} {j : Nat}, P (rxBody c s).1 j → P s (j + 1))
    {n : Nat} (count : Nat) (hs : I s) (hnone : ExaminesNone c s n (P s)) :
    I (rxLoop c n s count).1 := by
  induction n generalizing s count with
  | zero => exact hs
  | succ n ih =>
    unfold rxLoop
    split
    · exact hs
    · next hown =>
      rw [Bool.not_eq_true] at hown
      have hkeep : I (rxBody c s).1 :=
        hround hs hown (hnone 0 (Nat.succ_pos n) (examines_zero hown))
      have hstops := rxBody_stops (s := s) ops
      have hrest : c.rxStops (s.ring (c.rxEntry s.curRx)) = false →
          ExaminesNone c (rxBody c s).1 n (P (rxBody c s).1) := fun hgo j hj hex hbad =>
        hnone (j + 1) (by omega) (hex.of_rxBody ops hown hgo) (hnext hbad)
      generalize rxBody c s = r at hkeep hstops hrest
      obtain ⟨s', stop⟩ := r
      cases stop with
      | true => exact hkeep
      | false => exact ih (count + 1) hkeep (hrest hstops.symm)

end Stmmac
