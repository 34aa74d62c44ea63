import Stmmac.Rx.Backed
import Stmmac.Rx.Walk

/-!
# Receive side: lengths of the mappings

`stmmac_open` rounds the parameter `buf_sz` into `dma_buf_sz`, and `init_dma_desc_rings` maps the
buffers with that length; only then does it store the length that the MTU asks for, in both. All
later calls unmap with the stored length. They undo the mappings as these were made when the two
lengths are the same. Where there are time stamps, the mapping of a discarded frame is also undone
if the slot has none.
-/

namespace Stmmac

open Library
open Library.Ledger

/-- The part of `stmmac_verify_args` on `buf_sz`. -/
def stmmacVerifyArgs (bufSz : BitVec 32) : BitVec 32 :=
  if bufSz.slt dmaBufferSize || bufSize16KiB.slt bufSz then dmaBufferSize else bufSz

/-- The values that `stmmac_change_mtu` accepts. -/
def stmmacChangeMtu (maxMtu newMtu : BitVec 32) : Bool := !(newMtu.slt 46 || maxMtu.slt newMtu)

/-- The length of the buffers for an MTU. -/
def Conf.bufferFor (c : Conf) (mtu : BitVec 32) : BitVec 32 :=
  if mtu < 2048 then 2048
  else if mtu < 4096 then 4096
  else if mtu < 8192 ∨ c.mode = .chain then 8192
  else 16384

/-- What `set_16kib_bfsize` does with the MTUs that are accepted. -/
def Conf.Asks16KiB (c : Conf) (maxMtu : BitVec 32) : Prop :=
  ∀ mtu, stmmacChangeMtu maxMtu mtu = true →
    c.ring.set16kibBfsize mtu = if 8192 ≤ mtu then 16384 else 0

/-! ## The system -/

/-- The receive side with the module parameter `buf_sz`, over any number of openings. -/
structure RxNic where
  hw : RxHw
  bufSz : BitVec 32
  isOpen : Bool

inductive RxNicAct where
  /-- `left` is what the arrays contain when they have been allocated. -/
  | ndoOpen (mtu : BitVec 32) (alloc : Nat → Option RxBuf) (left : Nat → RxSlot)
  | run (a : RxAct)
  | ndoStop

/-- The driver as it is loaded with a value of `buf_sz`. -/
def RxNic.loaded (bufSz : BitVec 32) : RxNic where
  hw := { rx := .blank, pos := 0, received := [] }
  bufSz := stmmacVerifyArgs bufSz
  isOpen := false

/-- The state that `init_dma_desc_rings` finds. -/
def RxNic.allocated (line : BitVec 32) (s : RxNic) (left : Nat → RxSlot) : RxState :=
  { s.hw.rx with ring := left, dmaBufSz := stmmacAlign line s.bufSz }

def rxNicStep (c : Conf) (line maxMtu : BitVec 32) (s : RxNic) : RxNicAct → Option RxNic
  | .ndoOpen mtu alloc left =>
    if s.isOpen = false ∧ stmmacChangeMtu maxMtu mtu = true then
      let hw := RxHw.opened c alloc mtu (s.allocated line left)
      some { hw := hw, bufSz := hw.rx.dmaBufSz, isOpen := true }
    else none
  | .run a =>
    if s.isOpen then (rxStep c s.hw a).map fun hw => { s with hw := hw } else none
  | .ndoStop =>
    if s.isOpen = true ∧ s.hw.rx.halted = false then
      some { s with hw := { s.hw with rx := dmaFreeRxSkbufs c s.hw.rx }, isOpen := false }
    else none

/-! ## What is claimed of the calls -/

/-- The mappings made and undone, with their lengths. -/
def rxLengthEvents (trace : List RxCall) : List (Event (BitVec 32 × BitVec 32)) :=
  trace.filterMap fun
    | .dmaMapSingle _ addr len => some (.acquire (addr, len))
    | .dmaUnmapSingle addr len => some (.release (addr, len))
    | _ => none

/-- Every mapping comes right after the allocation of its skb and is no longer than it. -/
def MapsFit (trace : List RxCall) : Prop :=
  ∀ l₁ l₂ id addr len, trace = l₁ ++ .dmaMapSingle id addr len :: l₂ →
    ∃ l len', l₁ = l ++ [.netdevAllocSkb id len'] ∧ len ≤ len'

/-- The mapping of a slot, made with a given length. -/
def RxSlot.mapping (bufSz : BitVec 32) (p : RxSlot) : Multiset (BitVec 32 × BitVec 32) :=
  p.skb.elim 0 fun _ => {(p.dma, bufSz)}

/-- The calls so far fit, and what they hold are the mappings of the slots, unless the kernel
stopped. -/
def LengthsHold (c : Conf) (s : RxState) : Prop :=
  MapsFit s.trace ∧ ∃ lost, replay 0 (rxLengthEvents s.trace) =
    some (∑ i ∈ Finset.range c.dmaRxSize.toNat, (s.ring i).mapping s.dmaBufSz + lost) ∧
      (s.halted = false → lost = 0)

/-! ## The condition -/

/-- The slots that the initialisation does not reach hold no buffer. -/
def LeftEmpty (c : Conf) (alloc : Nat → Option RxBuf) (left : Nat → RxSlot) : Prop :=
  ∀ i < c.dmaRxSize.toNat, (∃ j ≤ i, alloc j = none) → (left i).skb = none

/-- Where there are time stamps, a frame to discard `j` places ahead, in a slot without a buffer or
met before. -/
def UnmapsAgain (c : Conf) (s : RxState) (j : Nat) : Prop :=
  c.stampsRx = true ∧ c.rxVerdict (s.ahead c j) = .discardFrame ∧
    ((s.ahead c j).skb = none ∨ ∃ i < j,
      c.rxEntry (s.curRx + BitVec.ofNat 32 i) = c.rxEntry (s.curRx + BitVec.ofNat 32 j))

/-- The buffers are mapped with the length for the MTU, if any is, and no mapping is undone that
is not there. -/
def KeepsLengths (c : Conf) (line : BitVec 32) (s : RxNic) : RxNicAct → Prop
  | .ndoOpen mtu alloc left =>
    (stmmacAlign line s.bufSz = c.bufferFor mtu ∨ alloc 0 = none) ∧ LeftEmpty c alloc left
  | .run (.rx _ limit) => ExaminesNone c s.hw.rx limit.toNat (UnmapsAgain c s.hw.rx)
  | .run _ | .ndoStop => True

section Decidable

variable (c : Conf)

instance (alloc : Nat → Option RxBuf) (left : Nat → RxSlot) : Decidable (LeftEmpty c alloc left) :=
  inferInstanceAs (Decidable (∀ i < _, _ → _))

instance (s : RxState) (j : Nat) : Decidable (UnmapsAgain c s j) :=
  inferInstanceAs (Decidable (_ ∧ _ ∧ (_ ∨ ∃ i < j, _ = _)))

instance (line : BitVec 32) (s : RxNic) : ∀ a, Decidable (KeepsLengths c line s a)
  | .ndoOpen _ alloc left =>
    inferInstanceAs (Decidable ((_ ∨ alloc 0 = none) ∧ LeftEmpty c alloc left))
  | .run (.rx _ limit) =>
    inferInstanceAs (Decidable (ExaminesNone c s.hw.rx limit.toNat (UnmapsAgain c s.hw.rx)))
  | .run (.receive _) | .run (.refill _) | .run .suspend | .run .resume | .ndoStop =>
    inferInstanceAs (Decidable True)

end Decidable

variable {c : Conf} {s s' : RxState} {q q' : RxSlot} {calls l₁ l₂ : List RxCall}

/-! ## Calls that fit -/

theorem mapsFit_of_none (h : ∀ id addr len, .dmaMapSingle id addr len ∉ calls) : MapsFit calls := by
  intro l₁ l₂ id addr len heq
  exact absurd (by simp [heq]) (h id addr len)

theorem mapsFit_alloc (id : Nat) (addr len : BitVec 32) :
    MapsFit [.netdevAllocSkb id len, .dmaMapSingle id addr len] := by
  intro l₁ l₂ id' addr' len' heq
  rcases l₁ with _ | ⟨x, _ | ⟨y, l₁⟩⟩
  · simp at heq
  · obtain ⟨rfl, ⟨rfl, rfl, rfl⟩, rfl⟩ := by simpa using heq
    exact ⟨[], len, rfl, BitVec.le_refl _⟩
  · simp at heq

theorem MapsFit.append (h : MapsFit l₁) (h' : MapsFit l₂) : MapsFit (l₁ ++ l₂) := by
  intro k₁ k₂ id addr len heq
  rcases List.append_eq_append_iff.mp heq with ⟨k, rfl, hl₂⟩ | ⟨k, rfl, hl₂⟩
  · obtain ⟨l, len', rfl, hle⟩ := h' k k₂ id addr len hl₂
    exact ⟨l₁ ++ l, len', by simp, hle⟩
  · cases k with
    | nil =>
      obtain ⟨l, len', hnil, -⟩ := h' [] k₂ id addr len hl₂.symm
      simp at hnil
    | cons x k =>
      obtain ⟨rfl, -⟩ := List.cons_eq_cons.mp hl₂
      exact h k₁ k id addr len rfl

theorem rxLengthEvents_append :
    rxLengthEvents (l₁ ++ l₂) = rxLengthEvents l₁ ++ rxLengthEvents l₂ :=
  List.filterMap_append

/-! ## The calls on a slot -/

/-- `stmmac_rx` makes no mapping. -/
theorem rxCalls_not_map (bufSz : BitVec 32) (entry : Nat) (q : RxSlot) (id : Nat)
    (addr len : BitVec 32) : .dmaMapSingle id addr len ∉ c.rxCalls bufSz entry q := by
  unfold Conf.rxCalls
  split_ifs <;> cases c.upSkb q <;> simp

theorem mapsFit_refillCalls (bufSz : BitVec 32) (b : Option RxBuf) (q : RxSlot) :
    MapsFit (Conf.refillCalls bufSz b q) := by
  unfold Conf.refillCalls
  split
  · exact mapsFit_alloc _ _ _
  · exact mapsFit_of_none (by simp)

/-- A round of `stmmac_rx` undoes the mapping of the buffer it takes, unless the kernel stops. -/
theorem replay_rxCalls_length (bufSz : BitVec 32) (entry : Nat)
    (hbuf : c.stampsRx = true → c.rxVerdict q = .discardFrame → q.skb ≠ none) :
    ∃ lost, replay (q.mapping bufSz) (rxLengthEvents (c.rxCalls bufSz entry q)) =
      some ((c.consumed q).mapping bufSz + lost) ∧ (c.rxPanics q = false → lost = 0) := by
  by_cases hd : c.rxVerdict q = .discardFrame
  · refine ⟨0, ?_, fun _ => rfl⟩
    cases hts : c.stampsRx
    · simp [Conf.rxCalls, Conf.consumed, hd, hts, rxLengthEvents]
    · obtain ⟨skb, hskb⟩ := Option.ne_none_iff_exists'.mp (hbuf hts hd)
      simp [Conf.rxCalls, Conf.consumed, hd, hts, hskb, rxLengthEvents, RxSlot.mapping, replay]
  · cases hskb : q.skb with
    | none =>
      rw [rxCalls_of_none hd hskb]
      exact ⟨0, by simp [Conf.consumed, hd, hskb, rxLengthEvents, RxSlot.mapping], fun _ => rfl⟩
    | some skb =>
      cases hput : c.putSkb q with
      | none =>
        refine ⟨q.mapping bufSz, ?_, fun hrun => ?_⟩
        · rw [rxCalls_of_stops hd (by simp [Conf.upSkb, hput])]
          split <;> simp [Conf.consumed, hd, hskb, rxLengthEvents, RxSlot.mapping]
        · simp [Conf.rxPanics, hd, hskb, hput] at hrun
      | some put =>
        have hup : c.upSkb q = some (c.finishSkb put) := by simp [Conf.upSkb, hd, hput]
        refine ⟨0, ?_, fun _ => rfl⟩
        rw [rxCalls_of_upSkb hup]
        simp [Conf.consumed, hd, hskb, rxLengthEvents, RxSlot.mapping, replay]

theorem replay_refillCalls_length (bufSz : BitVec 32) (b : Option RxBuf) (q : RxSlot) :
    replay (q.mapping bufSz) (rxLengthEvents (Conf.refillCalls bufSz b q)) =
      some ((c.refilled b q).mapping bufSz) := by
  cases hskb : q.skb <;> cases b <;> simp [Conf.refillCalls, Conf.refilled, hskb, rxLengthEvents,
    RxSlot.mapping, RxSlot.mapDes, Conf.allocSlot, replay]

theorem replay_freeCalls_length (bufSz : BitVec 32) (q : RxSlot) :
    replay (q.mapping bufSz) (rxLengthEvents (q.freeCalls bufSz)) = some 0 := by
  cases hskb : q.skb <;> simp [RxSlot.freeCalls, hskb, rxLengthEvents, RxSlot.mapping, replay]

/-! ## What each step keeps -/

namespace LengthsHold

theorem congr (h : LengthsHold c s)
    (hslots : ∀ i < c.dmaRxSize.toNat,
      (s'.ring i).mapping s.dmaBufSz = (s.ring i).mapping s.dmaBufSz)
    (htrace : s'.trace = s.trace) (hsz : s'.dmaBufSz = s.dmaBufSz)
    (hhalted : s'.halted = s.halted) : LengthsHold c s' := by
  have hsum : ∑ i ∈ Finset.range c.dmaRxSize.toNat, (s'.ring i).mapping s.dmaBufSz =
      ∑ i ∈ Finset.range c.dmaRxSize.toNat, (s.ring i).mapping s.dmaBufSz :=
    Finset.sum_congr rfl fun i hi => hslots i (Finset.mem_range.mp hi)
  unfold LengthsHold
  rw [htrace, hsz, hhalted, hsum]
  exact h

/-- A write to one slot whose calls undo what it held and make what it holds. -/
theorem write {e : Nat} (h : LengthsHold c s) (he : e < c.dmaRxSize.toNat)
    (hring : s'.ring = Function.update s.ring e q) (htrace : s'.trace = s.trace ++ calls)
    (hsz : s'.dmaBufSz = s.dmaBufSz) (hfit : MapsFit calls)
    (hq : ∃ lost, replay ((s.ring e).mapping s.dmaBufSz) (rxLengthEvents calls) =
      some (q.mapping s.dmaBufSz + lost) ∧
        (s'.halted = false → s.halted = false ∧ lost = 0)) : LengthsHold c s' := by
  obtain ⟨hmaps, extra, hheld, hextra⟩ := h
  obtain ⟨lost, hreplay, hlost⟩ := hq
  unfold LengthsHold
  rw [hring, htrace, hsz, rxLengthEvents_append]
  refine ⟨hmaps.append hfit, lost + extra, replay_write hheld he hreplay, fun hlive => ?_⟩
  obtain ⟨hlive, rfl⟩ := hlost hlive
  rw [hextra hlive, add_zero]

theorem consume (ops : c.desc.Lawful) (hpos : 0 < c.dmaRxSize.toNat) (h : LengthsHold c s)
    (hgood : ¬ UnmapsAgain c s 0) : LengthsHold c (rxBody c s).1 := by
  have hbuf : c.stampsRx = true → c.rxVerdict (s.ring (c.rxEntry s.curRx)) = .discardFrame →
      (s.ring (c.rxEntry s.curRx)).skb ≠ none := fun hts hd hskb =>
    hgood ⟨hts, by rwa [ahead_zero], .inl (by rwa [ahead_zero])⟩
  obtain ⟨lost, hreplay, hlost⟩ := replay_rxCalls_length s.dmaBufSz (c.rxEntry s.curRx) hbuf
  refine h.write (rxEntry_lt hpos s.curRx) (rxBody_ring ops) (rxBody_trace ops)
    (rxBody_dmaBufSz ops) (mapsFit_of_none (rxCalls_not_map _ _ _))
    ⟨lost, hreplay, fun hlive => ?_⟩
  rw [rxBody_halted ops, Bool.or_eq_false_iff] at hlive
  exact ⟨hlive.1, hlost hlive.2⟩

theorem refill {alloc : BitVec 32 → Option RxBuf} (hpos : 0 < c.dmaRxSize.toNat)
    (h : LengthsHold c s) : LengthsHold c (rxRefillBody c alloc s) := by
  rw [rxRefillBody_eq]
  refine h.write (rxEntry_lt hpos s.dirtyRx) rfl rfl rfl (mapsFit_refillCalls _ _ _) ⟨0, ?_, ?_⟩
  · rw [replay_refillCalls_length, add_zero]
  · exact fun hlive => ⟨hlive, rfl⟩

theorem refills (hpos : 0 < c.dmaRxSize.toNat) (alloc : BitVec 32 → Option RxBuf)
    (h : LengthsHold c s) : LengthsHold c (stmmacRxRefill c alloc s) :=
  stmmacRxRefill_invariant (fun h _ => h.refill hpos) h

/-- A reception writes into the buffer and leaves the mapping. -/
theorem receive (h : LengthsHold c s) (e : Nat) (w : RxWrite) :
    LengthsHold c (s.modify e (·.write w)) := by
  refine h.congr (fun i _ => ?_) rfl rfl rfl
  have hkeep : ((s.ring e).write w).mapping s.dmaBufSz = (s.ring e).mapping s.dmaBufSz := by
    unfold RxSlot.mapping RxSlot.write
    dsimp only
    split_ifs
    · cases (s.ring e).skb <;> rfl
    · rfl
  rw [RxState.modify_ring, Function.update_apply]
  split
  · next he => rw [hkeep, he]
  · rfl

theorem clear (h : LengthsHold c s) : LengthsHold c (stmmacClearDescriptors c s) :=
  h.congr (fun i hi => by rw [stmmacClearDescriptors_slot hi]; rfl) rfl rfl rfl

/-- `dma_free_rx_skbufs` undoes all that is held. -/
theorem free (h : LengthsHold c s) (hlive : s.halted = false) :
    MapsFit (dmaFreeRxSkbufs c s).trace ∧
      replay 0 (rxLengthEvents (dmaFreeRxSkbufs c s).trace) = some 0 := by
  obtain ⟨hfit, lost, hheld, hlost⟩ := h
  obtain rfl := hlost hlive
  rw [add_zero] at hheld
  have hevents : ∀ n, rxLengthEvents ((List.range n).flatMap fun i =>
      (s.ring i).freeCalls s.dmaBufSz) =
        (List.range n).flatMap fun i => rxLengthEvents ((s.ring i).freeCalls s.dmaBufSz) := by
    intro n
    induction n with
    | zero => rfl
    | succ n ih => simp [List.range_succ, List.flatMap_append, rxLengthEvents_append, ih]
  rw [dmaFreeRxSkbufs_eq]
  constructor
  · refine hfit.append (mapsFit_of_none fun id addr len hmem => ?_)
    obtain ⟨i, -, hi⟩ := List.mem_flatMap.mp hmem
    unfold RxSlot.freeCalls at hi
    split at hi <;> simp at hi
  · rw [rxLengthEvents_append, replay_append_of hheld, hevents]
    exact replay_releases _ _ _ fun i _ => replay_freeCalls_length _ _

end LengthsHold

/-! ## The loop of `stmmac_rx` -/

/-- A frame that would undo a mapping again after a round would have done so before it. -/
theorem unmapsAgain_rxBody (ops : c.desc.Lawful) {j : Nat}
    (h : UnmapsAgain c (rxBody c s).1 j) : UnmapsAgain c s (j + 1) := by
  obtain ⟨hts, hd, hagain⟩ := h
  rw [ahead_rxBody ops] at hd hagain
  have hnext : ∀ i, (rxBody c s).1.curRx + BitVec.ofNat 32 i =
      s.curRx + BitVec.ofNat 32 (i + 1) := fun i => by
    rw [rxBody_curRx ops, Ring.ofNat_succ, BitVec.add_assoc, BitVec.add_comm 1]
  split_ifs at hd hagain with he
  · refine ⟨hts, ?_, .inr ⟨0, by omega, ?_⟩⟩
    · rwa [Conf.rxVerdict, consumed_desc] at hd
    · have hsame : c.rxEntry (s.curRx + BitVec.ofNat 32 (j + 1)) = c.rxEntry s.curRx := he
      simpa using hsame.symm
  · refine ⟨hts, hd, hagain.imp id ?_⟩
    rintro ⟨i, hi, hsame⟩
    exact ⟨i + 1, by omega, by rwa [hnext, hnext] at hsame⟩

namespace LengthsHold

theorem stmmacRx (ops : c.desc.Lawful) (hpos : 0 < c.dmaRxSize.toNat)
    {alloc : BitVec 32 → Option RxBuf} {limit : BitVec 32} (h : LengthsHold c s)
    (hnone : ExaminesNone c s limit.toNat (UnmapsAgain c s)) :
    LengthsHold c (stmmacRx c alloc s limit).1 := by
  have hloop : LengthsHold c (rxLoop c limit.toNat s 0).1 :=
    rxLoop_examines (P := UnmapsAgain c) ops (fun h _ hgood => h.consume ops hpos hgood)
      (unmapsAgain_rxBody ops) 0 h hnone
  obtain ⟨st, heq⟩ := stmmacRx_eq c s alloc limit
  rw [heq]
  split
  · exact hloop
  · exact (hloop.refills hpos alloc).congr (fun _ _ => rfl) rfl rfl rfl

theorem step (ops : c.desc.Lawful) (hpos : 0 < c.dmaRxSize.toNat) {f f' : RxHw} {a : RxAct}
    {line : BitVec 32} {n : RxNic} (h : LengthsHold c f.rx) (hn : n.hw = f)
    (hok : KeepsLengths c line n (.run a)) (hs : rxStep c f a = some f') :
    LengthsHold c f'.rx := by
  subst hn
  unfold rxStep at hs
  split at hs
  · cases hs
  cases a with
  | receive w =>
    obtain ⟨-, -, -, rfl⟩ := rxReceive_eq hs
    exact h.receive _ w
  | rx alloc limit =>
    obtain rfl := Option.some.inj hs
    exact h.stmmacRx ops hpos hok
  | refill alloc =>
    obtain rfl := Option.some.inj hs
    exact h.refills hpos alloc
  | suspend =>
    obtain rfl := Option.some.inj hs
    exact h.clear
  | resume =>
    obtain rfl := Option.some.inj hs
    exact h

end LengthsHold

/-! ## Opening -/

section Opening

variable {alloc : Nat → Option RxBuf} {left : Nat → RxSlot} {mtu maxMtu line : BitVec 32}

theorem initBuffers_of_none (h : alloc 0 = none) : c.initBuffers alloc s = s := by
  unfold Conf.initBuffers
  cases c.dmaRxSize.toNat <;> simp [initRxLoop, h]

/-- An MTU that is accepted is the same number with and without a sign. -/
theorem toInt_of_changeMtu (h : stmmacChangeMtu maxMtu mtu = true) :
    mtu.toInt = (mtu.toNat : Int) := by
  have hle : 46 ≤ mtu.toInt := by
    have hslt := (Bool.or_eq_false_iff.mp (Bool.not_eq_true' _ ▸ h)).1
    simpa [BitVec.slt] using hslt
  have hcond := BitVec.toInt_eq_toNat_cond mtu
  split at hcond <;> omega

/-- The length stored by `init_dma_desc_rings` is the one for the MTU. -/
theorem initDmaDescRings_dmaBufSz (hring : c.Asks16KiB maxMtu)
    (hmtu : stmmacChangeMtu maxMtu mtu = true) :
    (initDmaDescRings c alloc mtu s).dmaBufSz = c.bufferFor mtu := by
  have hint := toInt_of_changeMtu hmtu
  have hset : stmmacSetBfsize mtu =
      if mtu < 2048 then 2048 else if mtu < 4096 then 4096 else 8192 := by
    unfold stmmacSetBfsize bufSize4KiB dmaBufferSize bufSize8KiB
    rw [hint]
    simp only [BitVec.lt_def]
    split_ifs <;> simp_all <;> omega
  unfold initDmaDescRings stmmacClearDescriptors Conf.bufferFor
  dsimp only
  cases hmode : c.mode with
  | chain => simp [hset, bufSize16KiB]
  | ring =>
    by_cases hbig : 8192#32 ≤ mtu
    · have h2 : ¬ mtu < 2048#32 := by bv_omega
      have h4 : ¬ mtu < 4096#32 := by bv_omega
      have h8 : ¬ mtu < 8192#32 := by bv_omega
      simp [hring mtu hmtu, hbig, h2, h4, h8, bufSize16KiB]
    · have h8 : mtu < 8192#32 := by bv_omega
      simp [hring mtu hmtu, hset, hbig, h8, bufSize16KiB]

/-- The buffers of the slots that the loop reaches are mapped, those of the others are absent. -/
theorem initBuffers_lengths (hleft : LeftEmpty c alloc s.ring) (hfit : MapsFit s.trace)
    (hheld : replay 0 (rxLengthEvents s.trace) = some 0) :
    let t := c.initBuffers alloc s
    MapsFit t.trace ∧
      replay 0 (rxLengthEvents t.trace) =
        some (∑ i ∈ Finset.range c.dmaRxSize.toNat, (t.ring i).mapping s.dmaBufSz) := by
  obtain ⟨m, hm, ⟨hmaps, hsz, hrest, hreplay⟩, -, hstop⟩ :=
    initRxLoop_reaches (c := c) (s := s) (i := 0) (n := c.dmaRxSize.toNat)
      (I := fun n t => MapsFit t.trace ∧ t.dmaBufSz = s.dmaBufSz ∧
        (∀ i, n ≤ i → t.ring i = s.ring i) ∧ replay 0 (rxLengthEvents t.trace) =
          some (∑ i ∈ Finset.range n, (t.ring i).mapping s.dmaBufSz + 0))
      (fun {n t b} ⟨hmaps, hsz, hrest, hreplay⟩ (_ : alloc n = some b) => by
        rw [stmmacInitRxBuffers_eq, hsz]
        refine ⟨hmaps.append (mapsFit_alloc _ _ _), rfl, fun i hi => ?_, ?_⟩
        · dsimp only
          rw [Function.update_of_ne (by omega), hrest i (by omega)]
        · have hnew : replay 0 (rxLengthEvents [.netdevAllocSkb b.id s.dmaBufSz,
              .dmaMapSingle b.id b.dma s.dmaBufSz]) =
                some ((c.initSlot s.dmaBufSz b (t.ring n)).mapping s.dmaBufSz + 0) := by
            simp [rxLengthEvents, replay, Conf.initSlot, RxSlot.mapping]
          rw [rxLengthEvents_append]
          exact replay_extend hreplay hnew)
      ⟨hfit, rfl, fun _ _ => rfl, by simpa using hheld⟩
  rw [Nat.zero_add] at hrest hreplay hstop
  refine ⟨hmaps, ?_⟩
  have hsum : ∑ i ∈ Finset.range m, ((c.initBuffers alloc s).ring i).mapping s.dmaBufSz =
      ∑ i ∈ Finset.range c.dmaRxSize.toNat,
        ((c.initBuffers alloc s).ring i).mapping s.dmaBufSz := by
    refine Finset.sum_subset (Finset.range_mono hm) fun i hi hni => ?_
    rw [Finset.mem_range] at hi hni
    have hskb : (s.ring i).skb = none := hleft i hi ⟨m, by omega, hstop (by omega)⟩
    rw [Conf.initBuffers, hrest i (by omega), RxSlot.mapping, hskb]
    rfl
  rw [Conf.initBuffers] at hsum ⊢
  rw [hreplay, add_zero, hsum]

/-- The ring as it is opened holds its mappings with the length that is stored then. -/
theorem LengthsHold.opened {n : RxNic} (hring : c.Asks16KiB maxMtu)
    (hmtu : stmmacChangeMtu maxMtu mtu = true)
    (hok : KeepsLengths c line n (.ndoOpen mtu alloc left)) (hfit : MapsFit n.hw.rx.trace)
    (hheld : replay 0 (rxLengthEvents n.hw.rx.trace) = some 0) :
    LengthsHold c (initDmaDescRings c alloc mtu (n.allocated line left)) := by
  obtain ⟨hsz, hleft⟩ := hok
  obtain ⟨hmaps, hreplay⟩ :=
    initBuffers_lengths (s := n.allocated line left) hleft hfit hheld
  have hsum : ∀ i < c.dmaRxSize.toNat,
      ((initDmaDescRings c alloc mtu (n.allocated line left)).ring i).mapping (c.bufferFor mtu) =
        ((c.initBuffers alloc (n.allocated line left)).ring i).mapping
          (stmmacAlign line n.bufSz) := by
    intro i hi
    obtain ⟨hskb, hdma, -⟩ := initDmaDescRings_slot (s := n.allocated line left) alloc mtu hi
    rw [RxSlot.mapping, hskb, hdma]
    rcases hsz with hsz | hnone
    · rw [← hsz, RxSlot.mapping]
    · have hskb : (left i).skb = none := hleft i hi ⟨0, Nat.zero_le i, hnone⟩
      rw [initBuffers_of_none hnone, RxSlot.mapping]
      simp [RxNic.allocated, hskb]
  unfold LengthsHold
  rw [initDmaDescRings_trace, initDmaDescRings_halted, initDmaDescRings_dmaBufSz hring hmtu,
    Finset.sum_congr rfl fun i hi => hsum i (Finset.mem_range.mp hi)]
  exact ⟨hmaps, 0, by rw [hreplay, add_zero]; rfl, fun _ => rfl⟩

end Opening

/-! ## Runs -/

/-- What holds of the interface: nothing is held while it is closed. -/
def RxNic.LengthsKept (c : Conf) (n : RxNic) : Prop :=
  if n.isOpen then LengthsHold c n.hw.rx
  else n.hw.rx.halted = false ∧ MapsFit n.hw.rx.trace ∧
    replay 0 (rxLengthEvents n.hw.rx.trace) = some 0

theorem RxNic.LengthsKept.step (ops : c.desc.Lawful) (hpos : 0 < c.dmaRxSize.toNat)
    {line maxMtu : BitVec 32} (hring : c.Asks16KiB maxMtu) {n n' : RxNic} {a : RxNicAct}
    (h : n.LengthsKept c) (hok : KeepsLengths c line n a)
    (hs : rxNicStep c line maxMtu n a = some n') : n'.LengthsKept c := by
  unfold RxNic.LengthsKept at h ⊢
  cases a with
  | ndoOpen mtu alloc left =>
    obtain ⟨⟨hclosed, hmtu⟩, rfl⟩ := by simpa [rxNicStep] using hs
    rw [hclosed] at h
    exact .opened hring hmtu hok h.2.1 h.2.2
  | run a =>
    obtain ⟨hopen, f, hf, rfl⟩ : n.isOpen = true ∧ ∃ f, rxStep c n.hw a = some f ∧
        { n with hw := f } = n' := by
      simpa [rxNicStep] using hs
    rw [hopen, if_pos rfl] at h
    dsimp only
    rw [hopen, if_pos rfl]
    exact h.step ops hpos rfl hok hf
  | ndoStop =>
    obtain ⟨⟨hopen, hlive⟩, rfl⟩ := by simpa [rxNicStep] using hs
    rw [hopen, if_pos rfl] at h
    have hhalted : (dmaFreeRxSkbufs c n.hw.rx).halted = false := by
      rw [dmaFreeRxSkbufs_eq]
      exact hlive
    exact ⟨hhalted, h.free hlive⟩

/-- In every run over any number of openings in which the buffers are mapped with the length for
the MTU, and no call undoes a mapping that is not there, each mapping is undone at most once, with
its length; once the interface is closed every one was. -/
theorem rx_lengths_match {line maxMtu bufSz : BitVec 32} {as : List RxNicAct} {n : RxNic}
    (ops : c.desc.Lawful) (hpos : 0 < c.dmaRxSize.toNat) (hring : c.Asks16KiB maxMtu)
    (run : Run (rxNicStep c line maxMtu) (KeepsLengths c line) (.loaded bufSz) as n) :
    MapsFit n.hw.rx.trace ∧
      (∃ held, replay 0 (rxLengthEvents n.hw.rx.trace) = some held) ∧
      (n.isOpen = false → replay 0 (rxLengthEvents n.hw.rx.trace) = some 0) := by
  have h := run.invariant (I := RxNic.LengthsKept c)
    (fun h hok hs => h.step ops hpos hring hok hs)
    ⟨rfl, mapsFit_of_none (by simp [RxNic.loaded, RxState.blank]), rfl⟩
  unfold RxNic.LengthsKept at h
  cases hopen : n.isOpen with
  | true =>
    rw [hopen, if_pos rfl] at h
    obtain ⟨hfit, lost, hheld, -⟩ := h
    exact ⟨hfit, ⟨_, hheld⟩, fun h => by cases h⟩
  | false =>
    rw [hopen] at h
    obtain ⟨-, hfit, hheld⟩ := h
    exact ⟨hfit, ⟨0, hheld⟩, fun _ => hheld⟩

/-- Two openings of a driver loaded with the default `buf_sz`, with an allocation that fails in
each. -/
theorem rx_lengths_match_twice :
    ∃ n, Run (rxNicStep (.normal 64) 64 3680) (KeepsLengths (.normal 64) 64) (.loaded 2048)
        [.ndoOpen 1500 (fun i => some (.page i)) RxState.blank.ring,
          .run (.receive (.frame (.replicate 64 1))), .run (.rx (fun _ => none) 4),
          .run (.refill fun n => some (.page (64 + n.toNat))), .ndoStop,
          .ndoOpen 1500 (fun i => if i < 8 then some (.page i) else none) RxState.blank.ring,
          .run (.refill fun n => some (.page n.toNat)), .ndoStop] n ∧
      replay 0 (rxLengthEvents n.hw.rx.trace) = some 0 :=
  (exec_reaches (P := fun n => n.isOpen = false) (by decide +kernel)).imp
    fun _ ⟨run, hclosed⟩ => ⟨run, (rx_lengths_match (c := .normal 64) ndescOps_lawful (by decide)
      (fun _ _ => rfl) run).2.2 hclosed⟩

/-- With an MTU of 3000 the buffers are mapped with 2048 bytes and unmapped with 4096. -/
theorem mapped_2048_unmapped_4096 :
    ∃ n, Run (rxNicStep (.normal 64) 64 3680) (fun _ _ => True) (.loaded 2048)
        [.ndoOpen 3000 (fun i => some (.page i)) RxState.blank.ring, .ndoStop] n ∧
      replay 0 (rxLengthEvents n.hw.rx.trace) = none :=
  exec_reaches (by decide +kernel)

end Stmmac
