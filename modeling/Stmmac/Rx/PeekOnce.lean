import Mathlib.Data.List.Nodup
import Mathlib.Data.List.TakeWhile
import Stmmac.Rx.PeekEnds
import Stmmac.Rx.Window

/-!
# Receive side: what peeking reports

`stmmac_peek_packet` should report the frames that wait behind `cur_rx`, each once, and hand out the
payload of one of them. Since the walk stays at the second slot, it counts that slot as often as its
buffer shows a header there, and does not see the frames further on.
-/

namespace Stmmac

open Library

/-! ## What waits in the ring -/

/-- The slots from `cur_rx` on, in ring order, up to the first that the DMA owns. -/
def RxState.pending (c : Conf) (s : RxState) : List Nat :=
  ((List.range c.dmaRxSize.toNat).map fun i =>
    (c.rxEntry s.curRx + i) % c.dmaRxSize.toNat).takeWhile fun e => !c.rxOwned (s.ring e)

/-- Those of them with a frame to report. -/
def RxState.readySlots (c : Conf) (s : RxState) : List Nat :=
  (s.pending c).filter fun e => c.isReady (s.ring e)

/-- The frame behind its header. -/
def Conf.payload (c : Conf) (p : RxSlot) : List (BitVec 8) :=
  match p.skb with
  | none => []
  | some skb =>
    (List.range (c.peekLen p - ethHlen).toNat).map fun i => skb.buf (skb.data + ethHlen + i)

/-- If some frame to report fits, the caller's buffer starts with the payload of such a frame. -/
def RxState.HoldsReady (c : Conf) (length : BitVec 32) (s : RxState) (pb : List (BitVec 8)) :
    Prop :=
  (∃ e ∈ s.readySlots c, c.fits length (s.ring e) = true) →
    ∃ e ∈ s.readySlots c, c.fits length (s.ring e) = true ∧ c.payload (s.ring e) <+: pb

/-! ## The caller's buffer -/

/-- Bytes written to the start of the buffer. -/
def writeFront (bytes pb : List (BitVec 8)) : List (BitVec 8) := bytes ++ pb.drop bytes.length

def RxCall.toPbData (pb : List (BitVec 8)) : RxCall → List (BitVec 8)
  | .memcpy bytes => writeFront bytes pb
  | _ => pb

/-- `pbData` after the calls. -/
def pbData (pb : List (BitVec 8)) (calls : List RxCall) : List (BitVec 8) :=
  calls.foldl RxCall.toPbData pb

/-- The buffer after a look at the slot. -/
def Conf.copyOver (c : Conf) (length : BitVec 32) (p : RxSlot) (pb : List (BitVec 8)) :
    List (BitVec 8) :=
  if c.isReady p && c.fits length p then writeFront (c.lookBytes p) pb else pb

/-! ## What is reported -/

/-- The count is that of the frames to report, up to the limit, and one that fits is handed out. -/
structure PeekReports (c : Conf) (length limit : BitVec 32) (pb : List (BitVec 8)) (s s' : RxState)
    (n : Nat) : Prop where
  count : n = min limit.toNat (s.readySlots c).length
  data : s.HoldsReady c length (pbData pb (s'.trace.drop s.trace.length))

/-- The first slot is looked at and brings the count short of the limit. -/
def PeekPasses (c : Conf) (limit : BitVec 32) (s : RxState) : Prop :=
  c.rxOwned (s.peekFirst c) = false ∧ c.peekBroken (s.peekFirst c) = false ∧
    (c.isReady (s.peekFirst c)).toNat < limit.toNat

/-- When the count is right: what the walk does not see has nothing to report, and what it counts
are no more frames than the ring has. -/
structure PeekCounts (c : Conf) (limit : BitVec 32) (s : RxState) : Prop where
  broken : limit ≠ 0 → c.rxOwned (s.peekFirst c) = false → c.peekBroken (s.peekFirst c) = true →
    s.readySlots c = []
  stopped : PeekPasses c limit s →
    c.rxOwned (s.peekSecond c) = true ∨ c.peekBroken (s.peekSecond c) = true →
    ∀ e ∈ s.readySlots c, e = c.rxEntry s.curRx
  enough : PeekPasses c limit s →
    c.rxOwned (s.peekSecond c) = false → c.peekBroken (s.peekSecond c) = false →
    limit.toNat ≤ (s.readySlots c).length

/-- With the frame put, the buffer is long enough for the header to be pulled. -/
def Conf.pulls (c : Conf) (p : RxSlot) : Bool :=
  p.skb.all fun skb => decide (ethHlen ≤ (skb.len + BitVec.ofInt 32 (c.peekLen p)).toNat)

/-- A frame to report that fits, and is copied from behind its header by the first look at it. -/
def RxState.Copies (c : Conf) (length : BitVec 32) (s : RxState) (e : Nat) : Prop :=
  e ∈ s.readySlots c ∧ c.fits length (s.ring e) = true ∧ c.pulls (s.ring e) = true

/-- When a payload is handed out for certain: no frame fits; or the last copy is that of the first
slot, or that of the first look at the second one. -/
def PeekHands (c : Conf) (length limit : BitVec 32) (s : RxState) : Prop :=
  (∀ e ∈ s.readySlots c, c.fits length (s.ring e) = false) ∨
  (limit ≠ 0 ∧ s.Copies c length (c.rxEntry s.curRx) ∧
    (limit = 1 ∨ c.rxOwned (s.peekSecond c) = true ∨ c.peekBroken (s.peekSecond c) = true ∨
      c.fits length (s.peekSecond c) = false)) ∨
  (c.peekBroken (s.peekFirst c) = false ∧ c.rxEntry (s.curRx + 1) ≠ c.rxEntry s.curRx ∧
    s.Copies c length (c.rxEntry (s.curRx + 1)) ∧
    limit.toNat = (c.isReady (s.peekFirst c)).toNat + 1)

instance (c : Conf) (length : BitVec 32) (s : RxState) (e : Nat) :
    Decidable (s.Copies c length e) :=
  inferInstanceAs (Decidable (_ ∧ _ ∧ _))

instance (c : Conf) (length limit : BitVec 32) (s : RxState) :
    Decidable (PeekHands c length limit s) :=
  inferInstanceAs (Decidable ((∀ e ∈ s.readySlots c, _) ∨ _ ∧ _ ∧ _ ∨ _ ∧ _ ∧ _ ∧ _))

variable {c : Conf} {s s' : RxState} {p q : RxSlot} {length limit : BitVec 32}
  {pb bytes bytes' : List (BitVec 8)} {calls : List RxCall} {e n count i fuel : Nat}

/-! ## Copies -/

theorem writeFront_writeFront (h : bytes.length = bytes'.length) :
    writeFront bytes (writeFront bytes' pb) = writeFront bytes pb := by
  simp [writeFront, h]

theorem pbData_append (calls calls' : List RxCall) :
    pbData pb (calls ++ calls') = pbData (pbData pb calls) calls' :=
  List.foldl_append

theorem pbData_lookCalls (entry : Nat) (p : RxSlot) :
    pbData pb (c.lookCalls length entry p) = c.copyOver length p pb := by
  unfold Conf.lookCalls Conf.copyOver
  by_cases hno : c.rxVerdict p = .discardFrame ∨ p.skb = none
  · have hready : c.isReady p = false := by
      rcases hno with hd | hskb
      · simp [Conf.isReady, hd]
      · simp [Conf.isReady, hskb]
    rw [if_pos hno, hready]
    rfl
  · rw [if_neg hno]
    cases c.isReady p && c.fits length p <;> rfl

theorem copyOver_of_not_ready (h : c.isReady p = false) : c.copyOver length p pb = pb := by
  simp [Conf.copyOver, h]

theorem isReady_skb (h : c.isReady p = true) :
    c.rxVerdict p ≠ .discardFrame ∧ ∃ skb, p.skb = some skb := by
  unfold Conf.isReady at h
  cases hskb : p.skb with
  | none => simp [hskb] at h
  | some skb =>
    simp only [Bool.and_eq_true, bne_iff_ne] at h
    exact ⟨h.1, skb, rfl⟩

theorem isReady_of_broken (h : c.peekBroken p = true) : c.isReady p = false := by
  simp only [Conf.peekBroken, Bool.and_eq_true, Option.isNone_iff_eq_none] at h
  simp [Conf.isReady, h.2]

theorem lookBytes_length (h : c.isReady p = true) :
    (c.lookBytes p).length = (c.peekLen p - ethHlen).toNat := by
  obtain ⟨hd, skb, hskb⟩ := isReady_skb h
  rw [lookBytes_of_skb hd hskb, List.length_map, List.length_range]

theorem fits_iterate (p : RxSlot) (i : Nat) :
    c.fits length (c.look^[i] p) = c.fits length p := by
  simp [Conf.fits, peekLen_iterate]

/-- A later copy from the same slot covers an earlier one. -/
theorem copyOver_copyOver (h : c.isReady (c.look^[i] q) = true) :
    c.copyOver length (c.look^[i] q) (c.copyOver length q pb) =
      c.copyOver length (c.look^[i] q) pb := by
  unfold Conf.copyOver
  rw [fits_iterate, h]
  cases hfirst : c.isReady q with
  | false => simp
  | true =>
    cases c.fits length q with
    | false => simp
    | true =>
      simp only [Bool.and_self, if_true]
      refine writeFront_writeFront ?_
      rw [lookBytes_length h, lookBytes_length hfirst, peekLen_iterate]

/-! ## The walk at the second slot -/

/-- What a walk that stays at the slot returns, and the calls that it makes. -/
inductive PeekStays (c : Conf) (length limit : BitVec 32) (q : RxSlot) (count : Nat) :
    Nat → List RxCall → Prop where
  | ended {calls : List RxCall} :
      limit.toNat ≤ count ∨ c.rxOwned q = true ∨ c.peekBroken q = true →
      (∀ pb, pbData pb calls = pb) → PeekStays c length limit q count count calls
  | counted {calls : List RxCall} {i : Nat} :
      count < limit.toNat → c.rxOwned q = false → c.peekBroken q = false →
      c.isReady (c.look^[i] q) = true → count + c.hits q i + 1 = limit.toNat →
      (∀ pb, pbData pb calls = c.copyOver length (c.look^[i] q) pb) →
      PeekStays c length limit q count limit.toNat calls

/-- One look, and then the rest of the walk. -/
theorem PeekStays.look {entry : Nat} (hlim : count < limit.toNat) (hown : c.rxOwned q = false)
    (hbroken : c.peekBroken q = false)
    (h : PeekStays c length limit (c.look q) (count + (c.isReady q).toNat) n calls) :
    PeekStays c length limit q count n (c.lookCalls length entry q ++ calls) := by
  cases h with
  | ended hend hcalls =>
    rw [rxOwned_look, peekBroken_look, hown, hbroken] at hend
    cases hready : c.isReady q with
    | false =>
      simp [hready] at hend
      omega
    | true =>
      -- this look has brought the count to the limit
      have hsum : count + 1 = limit.toNat := by
        simp [hready] at hend
        omega
      rw [Bool.toNat_true, hsum]
      refine .counted (i := 0) hlim hown hbroken hready hsum fun pb => ?_
      rw [pbData_append, pbData_lookCalls, hcalls]
      rfl
  | @counted _ i _ _ _ hready hsum hcalls =>
    rw [← Function.iterate_succ_apply] at hready
    refine .counted (i := i + 1) hlim hown hbroken hready ?_ fun pb => ?_
    · rw [Conf.hits]
      omega
    · rw [pbData_append, pbData_lookCalls, hcalls, ← Function.iterate_succ_apply,
        copyOver_copyOver hready]

theorem peekLoop_stays (ops : c.desc.Lawful)
    (h : peekLoop c length limit fuel e count s = some (s', n))
    (he : c.rxEntry (s.curRx + 1) = e) (hq : s.ring e = q) :
    ∃ calls, s'.trace = s.trace ++ calls ∧ PeekStays c length limit q count n calls := by
  induction fuel generalizing count s q with
  | zero => cases h
  | succ fuel ih =>
    by_cases hend : ¬ count < limit.toNat ∨ c.rxOwned q = true
    · rw [peekLoop_succ_done hq hend] at h
      cases h
      exact ⟨[], (List.append_nil _).symm,
        .ended (hend.imp Nat.le_of_not_lt .inl) fun _ => rfl⟩
    · obtain ⟨hlim, hown⟩ := not_or.mp hend
      obtain ⟨st, hstep⟩ := peekLoop_succ ops length fuel hq
        (not_not.mp hlim) (Bool.eq_false_iff.mpr hown)
      rw [hstep] at h
      split at h
      · next hbroken =>
        cases h
        refine ⟨_, rfl, .ended (.inr (.inr hbroken)) fun pb => ?_⟩
        rw [pbData_lookCalls, copyOver_of_not_ready (isReady_of_broken hbroken)]
      · next hbroken =>
        split at h
        · rw [he] at h
          obtain ⟨calls, htrace, hstays⟩ := ih h he (Function.update_self _ _ _)
          refine ⟨c.lookCalls length e q ++ calls, ?_, hstays.look (not_not.mp hlim)
            (Bool.eq_false_iff.mpr hown) (Bool.eq_false_iff.mpr hbroken)⟩
          rw [htrace, List.append_assoc]
        · cases h

/-! ## The whole call -/

/-- What a call returns, and the calls that it makes. -/
inductive PeekOutcome (c : Conf) (length limit : BitVec 32) (s : RxState) :
    Nat → List RxCall → Prop where
  | idle : limit = 0 ∨ c.rxOwned (s.peekFirst c) = true → PeekOutcome c length limit s 0 []
  | broken {calls : List RxCall} :
      limit ≠ 0 → c.rxOwned (s.peekFirst c) = false → c.peekBroken (s.peekFirst c) = true →
      (∀ pb, pbData pb calls = pb) → PeekOutcome c length limit s 0 calls
  | looked {n : Nat} {calls : List RxCall} :
      limit ≠ 0 → c.rxOwned (s.peekFirst c) = false → c.peekBroken (s.peekFirst c) = false →
      PeekStays c length limit (s.peekNext c) (c.isReady (s.peekFirst c)).toNat n calls →
      PeekOutcome c length limit s n
        (c.lookCalls length (c.rxEntry s.curRx) (s.peekFirst c) ++ calls)

theorem stmmacPeekPacket_outcome (ops : c.desc.Lawful)
    (h : stmmacPeekPacket c length limit fuel s = some (s', n)) :
    ∃ calls, s'.trace = s.trace ++ calls ∧ PeekOutcome c length limit s n calls := by
  have hp : s.ring (c.rxEntry s.curRx) = s.peekFirst c := rfl
  unfold stmmacPeekPacket at h
  cases fuel with
  | zero => cases h
  | succ fuel =>
    by_cases hend : limit = 0 ∨ c.rxOwned (s.peekFirst c) = true
    · rw [peekLoop_succ_done hp (hend.imp_left fun hzero => by simp [hzero])] at h
      cases h
      exact ⟨[], (List.append_nil _).symm, .idle hend⟩
    · obtain ⟨hlimit, hown⟩ := not_or.mp hend
      obtain ⟨st, hstep⟩ := peekLoop_succ ops length fuel hp
        (BitVec.toNat_pos_of_ne_zero hlimit) (Bool.eq_false_iff.mpr hown)
      rw [hstep] at h
      split at h
      · next hbroken =>
        cases h
        refine ⟨_, rfl, .broken hlimit (Bool.eq_false_iff.mpr hown) hbroken fun pb => ?_⟩
        rw [pbData_lookCalls, copyOver_of_not_ready (isReady_of_broken hbroken)]
      · next hbroken =>
        split at h
        · rw [Nat.zero_add] at h
          obtain ⟨calls, htrace, hstays⟩ := peekLoop_stays ops h rfl rfl
          refine ⟨_, ?_, .looked hlimit (Bool.eq_false_iff.mpr hown)
            (Bool.eq_false_iff.mpr hbroken) hstays⟩
          rw [htrace, List.append_assoc]
        · cases h

/-! ## What waits, against the first slot -/

theorem pending_nodup : (s.pending c).Nodup := by
  refine List.Nodup.sublist (List.takeWhile_sublist _) (List.nodup_range.map_on ?_)
  intro i hi j hj he
  rw [List.mem_range] at hi hj
  by_contra hne
  exact Ring.mod_ne_of_window (c.rxEntry s.curRx) (by omega) he

/-- Nothing waits, or the first slot comes first. -/
theorem pending_eq (hsize : 0 < c.dmaRxSize.toNat) : ∃ es, s.pending c =
    if c.rxOwned (s.peekFirst c) then [] else c.rxEntry s.curRx :: es := by
  obtain ⟨n, hn⟩ : ∃ n, c.dmaRxSize.toNat = n + 1 := Nat.exists_eq_add_one.mpr hsize
  have hfirst : (c.rxEntry s.curRx + 0) % c.dmaRxSize.toNat = c.rxEntry s.curRx :=
    Nat.mod_eq_of_lt (rxEntry_lt hsize s.curRx)
  unfold RxState.pending
  rw [hn] at hfirst ⊢
  rw [List.range_succ_eq_map, List.map_cons, hfirst, List.takeWhile_cons, RxState.peekFirst]
  cases c.rxOwned (s.ring (c.rxEntry s.curRx)) with
  | true => exact ⟨[], rfl⟩
  | false => exact ⟨_, rfl⟩

theorem readySlots_of_owned (hsize : 0 < c.dmaRxSize.toNat)
    (hown : c.rxOwned (s.peekFirst c) = true) : s.readySlots c = [] := by
  obtain ⟨es, hpending⟩ := pending_eq (s := s) hsize
  rw [RxState.readySlots, hpending, if_pos hown]
  rfl

theorem first_mem_readySlots (hsize : 0 < c.dmaRxSize.toNat)
    (hown : c.rxOwned (s.peekFirst c) = false) :
    c.rxEntry s.curRx ∈ s.readySlots c ↔ c.isReady (s.peekFirst c) = true := by
  obtain ⟨es, hpending⟩ := pending_eq (s := s) hsize
  rw [RxState.readySlots, hpending, hown, List.mem_filter]
  simp [RxState.peekFirst]

/-- Nothing but the first slot has a frame to report. -/
theorem length_readySlots_eq_iff (hsize : 0 < c.dmaRxSize.toNat)
    (hown : c.rxOwned (s.peekFirst c) = false) :
    (s.readySlots c).length = (c.isReady (s.peekFirst c)).toNat ↔
      ∀ e ∈ s.readySlots c, e = c.rxEntry s.curRx := by
  have hmem := first_mem_readySlots hsize hown
  have hnodup : (s.readySlots c).Nodup := pending_nodup.filter _
  cases hready : c.isReady (s.peekFirst c) with
  | true =>
    have hfirst := hmem.mpr hready
    rw [Bool.toNat_true]
    refine ⟨fun hlen e he => ?_, fun hall => ?_⟩
    · obtain ⟨e₀, he₀⟩ := List.length_eq_one_iff.mp hlen
      rw [he₀, List.mem_singleton] at he hfirst
      exact he.trans hfirst.symm
    · have hsub : s.readySlots c ⊆ [c.rxEntry s.curRx] := fun e he =>
        List.mem_singleton.mpr (hall e he)
      have hle := (List.subperm_of_subset hnodup hsub).length_le
      exact Nat.le_antisymm hle (List.length_pos_of_mem hfirst)
  | false =>
    rw [Bool.toNat_false, List.length_eq_zero_iff]
    refine ⟨fun hnil e he => ?_, fun hall => ?_⟩
    · rw [hnil] at he
      cases he
    · refine List.eq_nil_iff_forall_not_mem.mpr fun e he => ?_
      have hfirst := hmem.mp (hall e he ▸ he)
      rw [hready] at hfirst
      cases hfirst

/-! ## The second slot -/

theorem rxOwned_peekNext : c.rxOwned (s.peekNext c) = c.rxOwned (s.peekSecond c) := by
  unfold RxState.peekNext RxState.peekSecond
  by_cases he : c.rxEntry (s.curRx + 1) = c.rxEntry s.curRx
  · rw [he, Function.update_self, rxOwned_look, RxState.peekFirst]
  · rw [Function.update_of_ne he]

theorem peekBroken_peekNext : c.peekBroken (s.peekNext c) = c.peekBroken (s.peekSecond c) := by
  unfold RxState.peekNext RxState.peekSecond
  by_cases he : c.rxEntry (s.curRx + 1) = c.rxEntry s.curRx
  · rw [he, Function.update_self, peekBroken_look, RxState.peekFirst]
  · rw [Function.update_of_ne he]

theorem fits_peekNext : c.fits length (s.peekNext c) = c.fits length (s.peekSecond c) := by
  unfold RxState.peekNext RxState.peekSecond
  by_cases he : c.rxEntry (s.curRx + 1) = c.rxEntry s.curRx
  · rw [he, Function.update_self, RxState.peekFirst]
    simp [Conf.fits]
  · rw [Function.update_of_ne he]

theorem peekNext_of_ne (h : c.rxEntry (s.curRx + 1) ≠ c.rxEntry s.curRx) :
    s.peekNext c = s.ring (c.rxEntry (s.curRx + 1)) :=
  Function.update_of_ne h _ _

/-! ## When the count is right -/

theorem not_peekPasses_of_zero (h : limit = 0) : ¬ PeekPasses c limit s := by
  rintro ⟨-, -, hlt⟩
  simp [h] at hlt

/-- Where the walk does not get past the first slot. -/
theorem PeekCounts.of_not_passes (hno : ¬ PeekPasses c limit s)
    (hbroken : limit ≠ 0 → c.rxOwned (s.peekFirst c) = false →
      c.peekBroken (s.peekFirst c) = true → s.readySlots c = []) : PeekCounts c limit s where
  broken := hbroken
  stopped hpass := absurd hpass hno
  enough hpass := absurd hpass hno

section Count

variable (hsize : 0 < c.dmaRxSize.toNat)

include hsize in
theorem idle_iff (hend : limit = 0 ∨ c.rxOwned (s.peekFirst c) = true) :
    0 = min limit.toNat (s.readySlots c).length ↔ PeekCounts c limit s := by
  rcases hend with hzero | hown
  · refine ⟨fun _ => .of_not_passes (not_peekPasses_of_zero hzero) fun hne => absurd hzero hne,
      fun _ => by simp [hzero]⟩
  · have hnil := readySlots_of_owned hsize hown
    have hno : ¬ PeekPasses c limit s := fun hpass => absurd (hown.symm.trans hpass.1) (by decide)
    exact ⟨fun _ => .of_not_passes hno fun _ _ _ => hnil, fun _ => by simp [hnil]⟩

theorem broken_iff (hlimit : limit ≠ 0) (hown : c.rxOwned (s.peekFirst c) = false)
    (hbroken : c.peekBroken (s.peekFirst c) = true) :
    0 = min limit.toNat (s.readySlots c).length ↔ PeekCounts c limit s := by
  have hlim := BitVec.toNat_pos_of_ne_zero hlimit
  have hno : ¬ PeekPasses c limit s := fun hpass =>
    absurd (hbroken.symm.trans hpass.2.1) (by decide)
  constructor
  · intro hcount
    have hnil : s.readySlots c = [] := List.length_eq_zero_iff.mp (by omega)
    exact .of_not_passes hno fun _ _ _ => hnil
  · intro h
    simp [h.broken hlimit hown hbroken]

include hsize in
/-- The first look brings the count to the limit, which is 1. -/
theorem first_counts (hlimit : limit ≠ 0) (hown : c.rxOwned (s.peekFirst c) = false)
    (hbroken : c.peekBroken (s.peekFirst c) = false)
    (hle : limit.toNat ≤ (c.isReady (s.peekFirst c)).toNat) :
    (c.isReady (s.peekFirst c)).toNat = min limit.toNat (s.readySlots c).length ∧
      PeekCounts c limit s := by
  have hlim := BitVec.toNat_pos_of_ne_zero hlimit
  have hno : ¬ PeekPasses c limit s := fun hpass => Nat.not_lt.mpr hle hpass.2.2
  have hready : c.isReady (s.peekFirst c) = true := by
    by_contra hnot
    rw [Bool.eq_false_iff.mpr hnot, Bool.toNat_false] at hle
    omega
  have hpos := List.length_pos_of_mem ((first_mem_readySlots hsize hown).mpr hready)
  refine ⟨?_, .of_not_passes hno fun _ _ hb => absurd (hb.symm.trans hbroken) (by decide)⟩
  rw [hready, Bool.toNat_true] at hle ⊢
  omega

include hsize in
theorem stopped_iff (hpass : PeekPasses c limit s)
    (hend : c.rxOwned (s.peekSecond c) = true ∨ c.peekBroken (s.peekSecond c) = true) :
    (c.isReady (s.peekFirst c)).toNat = min limit.toNat (s.readySlots c).length ↔
      PeekCounts c limit s := by
  have hlength := length_readySlots_eq_iff hsize hpass.1
  have hlt := hpass.2.2
  constructor
  · intro hcount
    exact
      { broken := fun _ _ hb => absurd (hb.symm.trans hpass.2.1) (by decide)
        stopped := fun _ _ => hlength.mp (by omega)
        enough := fun _ hown hbroken => by simp [hown, hbroken] at hend }
  · intro h
    have hcount := hlength.mpr (h.stopped hpass hend)
    omega

theorem counted_iff (hpass : PeekPasses c limit s) (hown : c.rxOwned (s.peekSecond c) = false)
    (hbroken : c.peekBroken (s.peekSecond c) = false) :
    limit.toNat = min limit.toNat (s.readySlots c).length ↔ PeekCounts c limit s := by
  constructor
  · intro hcount
    exact
      { broken := fun _ _ hb => absurd (hb.symm.trans hpass.2.1) (by decide)
        stopped := fun _ hend => by simp [hown, hbroken] at hend
        enough := fun _ _ _ => by omega }
  · intro h
    have hle := h.enough hpass hown hbroken
    omega

end Count

/-- What a call returns is the number of frames to report exactly under `PeekCounts`. -/
theorem PeekOutcome.count_iff (hsize : 0 < c.dmaRxSize.toNat)
    (hout : PeekOutcome c length limit s n calls) :
    n = min limit.toNat (s.readySlots c).length ↔ PeekCounts c limit s := by
  cases hout with
  | idle hend => exact idle_iff hsize hend
  | broken hlimit hown hbroken _ => exact broken_iff hlimit hown hbroken
  | looked hlimit hown hbroken hstays =>
    cases hstays with
    | ended hend _ =>
      rw [rxOwned_peekNext, peekBroken_peekNext] at hend
      rcases Nat.lt_or_ge (c.isReady (s.peekFirst c)).toNat limit.toNat with hlt | hle
      · exact stopped_iff hsize ⟨hown, hbroken, hlt⟩ (hend.resolve_left (Nat.not_le.mpr hlt))
      · obtain ⟨hcount, hcounts⟩ := first_counts hsize hlimit hown hbroken hle
        exact iff_of_true hcount hcounts
    | counted hlt hown' hbroken' _ _ _ =>
      rw [rxOwned_peekNext] at hown'
      rw [peekBroken_peekNext] at hbroken'
      exact counted_iff ⟨hown, hbroken, hlt⟩ hown' hbroken'

/-! ## When a payload is handed out -/

theorem lookBytes_eq_payload (hready : c.isReady p = true) (hpull : c.pulls p = true) :
    c.lookBytes p = c.payload p := by
  obtain ⟨hd, skb, hskb⟩ := isReady_skb hready
  have hlen : ethHlen ≤ (skb.len + BitVec.ofInt 32 (c.peekLen p)).toNat := by
    simpa [Conf.pulls, hskb] using hpull
  have hdata : (skb.look (c.peekLen p)).data = skb.data + ethHlen := by
    rw [RxSkb.look, ethTypeTrans_data, skbPullInline, if_neg (Nat.not_lt.mpr hlen)]
  have hbuf : (skb.look (c.peekLen p)).buf = skb.buf := by rw [RxSkb.look, ethTypeTrans_buf]
  rw [lookBytes_of_skb hd hskb, hdata, hbuf, Conf.payload, hskb]

theorem RxState.Copies.isReady (h : s.Copies c length e) : c.isReady (s.ring e) = true :=
  (List.mem_filter.mp h.1).2

theorem RxState.Copies.rxOwned (h : s.Copies c length e) : c.rxOwned (s.ring e) = false := by
  have hpending := (List.mem_filter.mp h.1).1
  simpa using List.mem_takeWhile_imp hpending

/-- The first copy from a frame that is reported and fits is its payload. -/
theorem holdsReady_copyOver (h : s.Copies c length e) (pb : List (BitVec 8)) :
    s.HoldsReady c length (c.copyOver length (s.ring e) pb) := by
  refine fun _ => ⟨e, h.1, h.2.1, ?_⟩
  rw [Conf.copyOver, h.isReady, h.2.1, lookBytes_eq_payload h.isReady h.2.2]
  exact List.prefix_append _ _

theorem copyOver_of_not_fits (h : c.fits length p = false) : c.copyOver length p pb = pb := by
  simp [Conf.copyOver, h]

/-- A slot that is looked at until it is counted once is counted at the first look. -/
theorem iterate_eq_zero (hready : c.isReady q = true) (h : c.hits q i = 0) : i = 0 := by
  cases i with
  | zero => rfl
  | succ i =>
    rw [Conf.hits, hready, Bool.toNat_true] at h
    omega

theorem PeekOutcome.holds (hsize : 0 < c.dmaRxSize.toNat)
    (hout : PeekOutcome c length limit s n calls) (h : PeekHands c length limit s)
    (pb : List (BitVec 8)) : s.HoldsReady c length (pbData pb calls) := by
  rcases h with hnone | ⟨hlimit, hfirst, hlast⟩ | ⟨hbroken, hne, hsecond, hlim⟩
  · rintro ⟨e, he, hfits⟩
    exact absurd ((hnone e he).symm.trans hfits) (by decide)
  · -- the copy of the first slot is not written over
    have hready : c.isReady (s.peekFirst c) = true := hfirst.isReady
    have hcopied := holdsReady_copyOver hfirst pb
    cases hout with
    | idle hend =>
      exact absurd (hfirst.rxOwned.symm.trans (hend.resolve_left hlimit)) (by decide)
    | broken _ _ hbroken _ =>
      exact absurd (hready.symm.trans (isReady_of_broken hbroken)) (by decide)
    | looked _ _ _ hstays =>
      rw [pbData_append, pbData_lookCalls]
      cases hstays with
      | ended _ hcalls => rwa [hcalls]
      | counted hlt hown' hbroken' _ _ hcalls =>
        rw [rxOwned_peekNext] at hown'
        rw [peekBroken_peekNext] at hbroken'
        have hunfit : c.fits length (s.peekSecond c) = false := by
          rcases hlast with rfl | hown | hbroken | hfits
          · rw [hready] at hlt
            exact absurd hlt (by decide)
          · exact absurd (hown'.symm.trans hown) (by decide)
          · exact absurd (hbroken'.symm.trans hbroken) (by decide)
          · exact hfits
        rw [← fits_peekNext] at hunfit
        rw [hcalls, copyOver_of_not_fits (by rwa [fits_iterate])]
        exact hcopied
  · -- the second slot is looked at until it is counted, and that is at once
    have hready := hsecond.isReady
    cases hout with
    | idle hend =>
      rcases hend with rfl | hown
      · exact absurd hlim (Nat.succ_ne_zero _).symm
      · have hmem := hsecond.1
        rw [readySlots_of_owned hsize hown] at hmem
        cases hmem
    | broken _ _ hbroken' _ => exact absurd (hbroken.symm.trans hbroken') (by decide)
    | looked _ _ _ hstays =>
      rw [pbData_append, pbData_lookCalls]
      rw [peekNext_of_ne hne] at hstays
      cases hstays with
      | ended hend _ =>
        rcases hend with hle | hown | hbroken'
        · omega
        · exact absurd (hsecond.rxOwned.symm.trans hown) (by decide)
        · exact absurd (hready.symm.trans (isReady_of_broken hbroken')) (by decide)
      | @counted _ i _ _ _ _ hsum hcalls =>
        obtain rfl : i = 0 := iterate_eq_zero hready (by omega)
        rw [hcalls]
        exact holdsReady_copyOver hsecond _

/-- A frame that is looked for and shows a second header behind its own. -/
def RxWrite.ecatTwice : RxWrite :=
  .frame ([1, 1, 1, 1, 1, 1, 2, 0, 0, 0, 0, 0, 0x88, 0xa4] ++
    [1, 1, 1, 1, 1, 1, 2, 0, 0, 0, 0, 0, 0x88, 0xa4] ++ .replicate 36 1)

end Stmmac
