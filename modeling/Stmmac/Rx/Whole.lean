import Stmmac.Rx.Backed
import Stmmac.Rx.InStep

/-!
# Receive side: whole frames

The device spreads a frame over as many descriptors as it needs and marks the first and the last
one; the last carries the length of the whole frame. `ndesc_get_rx_status` discards what is not a
last descriptor but does not look at `first_descriptor`, so the tail of a long frame passes for a
frame, and no length is too short for it. Both have to be caught by an error bit.
-/

namespace Stmmac

open Library

/-- What a descriptor holds: a part of `frame`, which is all of it if it is first and last. -/
structure RxPart where
  frame : List (BitVec 8)
  first : Bool
  last : Bool
  deriving DecidableEq

def RxPart.Whole (x : RxPart) : Prop := x.first = true ∧ x.last = true

/-- The device with the frame it is writing, what is left of it, and the parts it has written. -/
structure RxFrameHw where
  hw : RxHw
  writing : Option (List (BitVec 8) × List (BitVec 8))
  part : Nat → Option RxPart

/-- `receive frame n des01 stamp` fills a descriptor with up to `n` bytes of the frame being
written, which is `frame` if there is none. -/
inductive RxFrameAct where
  | receive (frame : List (BitVec 8)) (n : Nat) (des01 : Des01)
      (stamp : Option (BitVec 32 × BitVec 32))
  | rx (alloc : BitVec 32 → Option RxBuf) (limit : BitVec 32)

namespace RxFrameHw

/-- The whole frame and what is left of it. -/
def source (s : RxFrameHw) (frame : List (BitVec 8)) : List (BitVec 8) × List (BitVec 8) :=
  s.writing.getD (frame, frame)

/-- The part that the next descriptor holds. -/
def next (s : RxFrameHw) (frame : List (BitVec 8)) (n : Nat) : RxPart where
  frame := (s.source frame).1
  first := s.writing.isNone
  last := (s.source frame).2.length ≤ n

end RxFrameHw

/-- The first and last bits are those of the part, and the last descriptor has the length. -/
def Des01.Describes (p : Des01) (x : RxPart) : Prop :=
  p.test Rx.firstDescriptor = x.first ∧ p.test Rx.lastDescriptor = x.last ∧
    (x.last = true → (p.get Rx.frameLength).toNat = x.frame.length)

instance (p : Des01) (x : RxPart) : Decidable (p.Describes x) :=
  inferInstanceAs (Decidable (_ ∧ _ ∧ (_ → _)))

/-- The status word of a descriptor, with the sizes of the two buffers behind it. -/
def Des01.rxDone (first last error : Bool) (len : Nat) : Des01 :=
  ⟨BitVec.ofNat 32 (len * 65536 + error.toNat * 32768 + first.toNat * 512 + last.toNat * 256),
    0x003fffff⟩

def rxFrameStep (c : Conf) (s : RxFrameHw) : RxFrameAct → Option RxFrameHw
  | .receive frame n des01 stamp =>
    let x := s.next frame n
    let rest := (s.source frame).2
    if n ≤ s.hw.rx.dmaBufSz.toNat ∧ des01.Describes x then
      (rxStep c s.hw (.receive ⟨des01, stamp, rest.take n⟩)).map fun hw =>
        { hw := hw
          writing := if x.last then none else some (x.frame, rest.drop n)
          part := Function.update s.part s.hw.pos (some x) }
    else none
  | .rx alloc limit => (rxStep c s.hw (.rx alloc limit)).map ({ s with hw := · })

/-- The bits on which `ndesc_get_rx_status` discards a last descriptor. -/
def Des01.rxErrors (p : Des01) : Bool :=
  p.test Rx.errorSummary || p.test Rx.lengthError || p.test Rx.miiError

/-- What is taken off the length of a frame: the FCS and, for a type 1 engine, its checksum. -/
def Conf.trailer (c : Conf) : Nat := if c.rxCoe = .type1 then 6 else 4

/-- A frame whose last descriptor has no error bit is in a single one and long enough; where there
are time stamps, `stmmac_rx` stays within the lap. -/
def SingleOrBad (c : Conf) (s : RxFrameHw) : RxFrameAct → Prop
  | .receive frame n des01 _ => (s.next frame n).last = true → des01.rxErrors = false →
      (s.next frame n).first = true ∧ c.trailer ≤ (s.next frame n).frame.length
  | .rx _ limit => c.stampsRx = true → RoundsFit c s.hw.rx limit.toNat

instance (c : Conf) (s : RxFrameHw) : ∀ a, Decidable (SingleOrBad c s a)
  | .receive _ _ _ _ => inferInstanceAs (Decidable (_ → _ → _ ∧ _ ≤ _))
  | .rx _ limit => inferInstanceAs (Decidable (_ → RoundsFit c s.hw.rx limit.toNat))

/-- The lengths given to `skb_put`, with the slots. -/
def skbPuts (trace : List RxCall) : List (Nat × Int) :=
  trace.filterMap fun
    | .skbPut entry len => some (entry, len)
    | _ => none

/-- Each buffer handed up holds one whole frame that was in one descriptor, its length is within
bounds, and the descriptors of all other frames are discarded. -/
structure WholeFrames (c : Conf) (bufSz : BitVec 32) (part : Nat → Option RxPart)
    (calls : List RxCall) : Prop where
  put : ∀ x ∈ skbPuts calls, 0 ≤ x.2 ∧ x.2 ≤ bufSz.toNat ∧
    ∃ frame, part x.1 = some ⟨frame, true, true⟩ ∧ x.2 = frame.length - c.trailer
  up : ∀ skb ∈ delivered calls, ∃ x ∈ skbPuts calls, ∃ frame,
    part x.1 = some ⟨frame, true, true⟩ ∧ skb.bytes = frame.take x.2.toNat
  discarded : ∀ x ∈ examined calls, ∀ y, part x.1 = some y → ¬ y.Whole →
    (c.desc.rxStatus {} x.2.des01).2 = .discardFrame

/-- What a slot holds, in terms of the part written to it: a buffer not used yet and, if the
descriptor would pass, a whole frame. -/
structure Conf.SlotFrame (c : Conf) (bufSz : BitVec 32) (x : Option RxPart) (p : RxSlot) :
    Prop where
  fresh : ∀ skb, p.skb = some skb → skb.data = 0 ∧ skb.len = 0
  passes : c.rxOwned p = false → c.rxVerdict p ≠ .discardFrame → ∀ skb, p.skb = some skb →
    ∃ frame, x = some ⟨frame, true, true⟩ ∧ frame.length ≤ bufSz.toNat ∧
      c.trailer ≤ frame.length ∧ (p.desc.des01.get Rx.frameLength).toNat = frame.length ∧
      ∀ i (hi : i < frame.length), skb.buf i = frame[i]
  fails : c.rxOwned p = false → ∀ y, x = some y → ¬ y.Whole → c.rxVerdict p = .discardFrame

variable {c : Conf} {s s' : RxState} {f f' : RxFrameHw} {a : RxFrameAct} {q : RxSlot}
  {part : Nat → Option RxPart} {bufSz : BitVec 32}

/-! ## Verdicts and lengths of normal descriptors -/

section Normal

variable (hd : c.desc = ndescOps)

include hd in
theorem rxVerdict_ndesc (q : RxSlot) :
    c.rxVerdict q = if q.desc.des01.test Rx.lastDescriptor && !q.desc.des01.rxErrors
      then .goodFrame else .discardFrame := by
  have h := ndescGetRxStatus_snd {} q.desc.des01
  rw [Conf.rxVerdict, hd]
  simpa [ndescOps, Des01.rxErrors, Bool.and_assoc] using h

include hd in
theorem rxFrameLen_ndesc (h : c.rxVerdict q ≠ .discardFrame) :
    c.rxFrameLen q (c.rxVerdict q) =
      ((q.desc.des01.get Rx.frameLength).toNat : Int) - c.trailer := by
  have hgood : c.rxVerdict q = .goodFrame := by
    rw [rxVerdict_ndesc hd] at h ⊢
    split at h
    · next hpass => rw [if_pos hpass]
    · exact absurd rfl h
  rw [hgood]
  unfold Conf.rxFrameLen Conf.trailer
  cases c.rxCoe <;> simp [hd, ndescOps, ndescGetRxFrameLen, ethFcsLen]
  omega

end Normal

/-! ## The buffer handed up -/

theorem finishSkb_bytes (skb : RxSkb) : (c.finishSkb skb).bytes = skb.bytes := by
  have h : (ethTypeTrans skb).bytes = skb.bytes := by
    rw [RxSkb.bytes, ethTypeTrans_end, ethTypeTrans_buf, RxSkb.bytes]
  unfold Conf.finishSkb
  split_ifs
  · exact h
  · exact h

/-- An unused buffer is handed up with as many bytes as `skb_put` was given. -/
theorem upSkb_bytes {skb skb' : RxSkb} {n : Nat} (hskb : q.skb = some skb)
    (hfresh : skb.data = 0 ∧ skb.len = 0) (hup : c.upSkb q = some skb')
    (hlen : c.rxFrameLen q (c.rxVerdict q) = n) (hn : n < 2 ^ 32) :
    skb'.bytes = (List.range n).map skb.buf := by
  unfold Conf.upSkb at hup
  split at hup
  · cases hup
  obtain ⟨put, hput, rfl⟩ := Option.map_eq_some_iff.mp hup
  obtain ⟨ts, -, hput⟩ := putSkb_some hskb hput
  have hmod : n % 4294967296 = n := Nat.mod_eq_of_lt hn
  rw [finishSkb_bytes, skbPut_eq hput, RxSkb.bytes]
  simp [hfresh, hlen, hmod]

/-! ## Events of the calls -/

theorem skbPuts_append (l₁ l₂ : List RxCall) : skbPuts (l₁ ++ l₂) = skbPuts l₁ ++ skbPuts l₂ :=
  List.filterMap_append

theorem skbPuts_rxCalls (entry : Nat) (q : RxSlot) :
    skbPuts (c.rxCalls bufSz entry q) =
      if c.rxVerdict q ≠ .discardFrame ∧ (c.stampedRxSkb q).isSome = true then
        [(entry, c.rxFrameLen q (c.rxVerdict q))] else [] := by
  by_cases hdisc : c.rxVerdict q = .discardFrame
  · cases hts : c.stampsRx <;> simp [Conf.rxCalls, hdisc, hts, skbPuts]
  · cases hskb : c.stampedRxSkb q with
    | none => simp [Conf.rxCalls, hdisc, hskb, skbPuts]
    | some skb => cases hup : c.upSkb q <;> simp [Conf.rxCalls, hdisc, hskb, hup, skbPuts]

theorem skbPuts_refillCalls (b : Option RxBuf) (q : RxSlot) :
    skbPuts (Conf.refillCalls bufSz b q) = [] := by
  unfold Conf.refillCalls
  split <;> rfl

theorem WholeFrames.append {l₁ l₂ : List RxCall} (h₁ : WholeFrames c bufSz part l₁)
    (h₂ : WholeFrames c bufSz part l₂) : WholeFrames c bufSz part (l₁ ++ l₂) := by
  refine ⟨fun x hx => ?_, fun skb hskb => ?_, fun x hx => ?_⟩
  · rw [skbPuts_append, List.mem_append] at hx
    exact hx.elim (h₁.put x) (h₂.put x)
  · rw [delivered_append, List.mem_append] at hskb
    rcases hskb with hskb | hskb
    · obtain ⟨x, hx, hframe⟩ := h₁.up skb hskb
      exact ⟨x, by rw [skbPuts_append]; exact List.mem_append_left _ hx, hframe⟩
    · obtain ⟨x, hx, hframe⟩ := h₂.up skb hskb
      exact ⟨x, by rw [skbPuts_append]; exact List.mem_append_right _ hx, hframe⟩
  · rw [examined_append, List.mem_append] at hx
    exact hx.elim (h₁.discarded x) (h₂.discarded x)

theorem WholeFrames.of_silent {calls : List RxCall} (hput : skbPuts calls = [])
    (hup : delivered calls = []) (hex : examined calls = []) :
    WholeFrames c bufSz part calls := by
  refine ⟨fun x hx => ?_, fun skb hskb => ?_, fun x hx => ?_⟩
  · rw [hput] at hx
    cases hx
  · rw [hup] at hskb
    cases hskb
  · rw [hex] at hx
    cases hx

/-- The refill hands nothing up. -/
theorem WholeFrames.refillCalls (unmapSz : BitVec 32) (b : Option RxBuf) (q : RxSlot) :
    WholeFrames c bufSz part (Conf.refillCalls unmapSz b q) :=
  .of_silent (skbPuts_refillCalls b q) (delivered_refillCalls _ b q) (examined_refillCalls _ b q)

section Passing

variable (hd : c.desc = ndescOps) {x : Option RxPart} (h : c.SlotFrame bufSz x q)
  (hown : c.rxOwned q = false) (hpass : c.rxVerdict q ≠ .discardFrame) {skb : RxSkb}
  (hskb : q.skb = some skb)

include hd h hown hpass hskb

/-- What passes is a whole frame in its buffer, and `skb_put` is called with its length. -/
theorem Conf.SlotFrame.put : ∃ frame, x = some ⟨frame, true, true⟩ ∧
    frame.length ≤ bufSz.toNat ∧ c.trailer ≤ frame.length ∧
    c.rxFrameLen q (c.rxVerdict q) = frame.length - c.trailer ∧
    ∀ i (hi : i < frame.length), skb.buf i = frame[i] := by
  obtain ⟨frame, hpart, hsize, hmin, hlen, hbuf⟩ := h.passes hown hpass skb hskb
  have hput := rxFrameLen_ndesc hd hpass
  rw [hlen] at hput
  exact ⟨frame, hpart, hsize, hmin, hput, hbuf⟩

/-- The buffer handed up holds the frame without its trailer. -/
theorem Conf.SlotFrame.up {skb' : RxSkb} (hup : c.upSkb q = some skb') :
    ∃ frame, x = some ⟨frame, true, true⟩ ∧
      skb'.bytes = frame.take (c.rxFrameLen q (c.rxVerdict q)).toNat := by
  obtain ⟨frame, hpart, hsize, hmin, hput, hbuf⟩ := h.put hd hown hpass hskb
  have hlt := bufSz.isLt
  have hnat : c.rxFrameLen q (c.rxVerdict q) = ((frame.length - c.trailer : Nat) : Int) := by
    omega
  refine ⟨frame, hpart, ?_⟩
  rw [upSkb_bytes hskb (h.fresh skb hskb) hup hnat (by omega), hnat, Int.toNat_natCast]
  refine List.ext_getElem (by simp) fun i hi _ => ?_
  have hi : i < frame.length := by
    simp at hi
    omega
  simp [hbuf i hi]

end Passing

/-- A round on a slot the device has written. -/
theorem Conf.SlotFrame.wholeFrames (hd : c.desc = ndescOps) {entry : Nat}
    (h : c.SlotFrame bufSz (part entry) q) (unmapSz : BitVec 32) (hown : c.rxOwned q = false) :
    WholeFrames c bufSz part (c.rxCalls unmapSz entry q) := by
  refine ⟨fun x hx => ?_, fun skb' hup => ?_, fun x hx y hy hwhole => ?_⟩
  · rw [skbPuts_rxCalls] at hx
    split at hx
    · next hpass =>
      obtain rfl := List.mem_singleton.mp hx
      obtain ⟨_, hstamped⟩ := Option.isSome_iff_exists.mp hpass.2
      obtain ⟨skb, hskb, -⟩ := Option.bind_eq_some_iff.mp hstamped
      obtain ⟨frame, hpart, hsize, hmin, hput, -⟩ := h.put hd hown hpass.1 hskb
      refine ⟨?_, ?_, frame, hpart, hput⟩
      · dsimp only
        omega
      · dsimp only
        omega
    · cases hx
  · rw [delivered_rxCalls, Option.mem_toList] at hup
    have hpass : c.rxVerdict q ≠ .discardFrame := by
      intro hdisc
      simp [Conf.upSkb, hdisc] at hup
    cases hskb : q.skb with
    | none => simp [upSkb_none hskb] at hup
    | some skb =>
      obtain ⟨frame, hpart, hbytes⟩ := h.up hd hown hpass hskb (by simpa using hup)
      refine ⟨(entry, c.rxFrameLen q (c.rxVerdict q)), ?_, frame, hpart, hbytes⟩
      rw [skbPuts_rxCalls, if_pos ⟨hpass, stampedRxSkb_of_upSkb (by simpa using hup)⟩]
      exact List.mem_singleton_self _
  · rw [examined_rxCalls, List.mem_singleton] at hx
    subst hx
    exact h.fails hown y hy hwhole

/-! ## What each step keeps -/

theorem Conf.SlotFrame.consumed {x : Option RxPart} (h : c.SlotFrame bufSz x q) :
    c.SlotFrame bufSz x (c.consumed q) := by
  have hown : c.rxOwned (c.consumed q) = c.rxOwned q := by
    rw [Conf.rxOwned, consumed_desc, Conf.rxOwned]
  have hver : c.rxVerdict (c.consumed q) = c.rxVerdict q := by
    rw [Conf.rxVerdict, consumed_desc, Conf.rxVerdict]
  have hskb : ∀ skb, (c.consumed q).skb = some skb → q.skb = some skb := by
    intro skb hskb
    unfold Conf.consumed at hskb
    split at hskb
    · exact hskb
    · cases hskb
  refine ⟨fun skb hs => h.fresh skb (hskb skb hs), fun ho hv skb hs => ?_, fun ho => ?_⟩
  · rw [hown] at ho
    rw [hver] at hv
    rw [consumed_desc]
    exact h.passes ho hv skb (hskb skb hs)
  · rw [hown] at ho
    rw [hver]
    exact h.fails ho

/-- A slot given back holds nothing yet. -/
theorem Conf.SlotFrame.refilled (ops : c.desc.Lawful) {x : Option RxPart}
    (h : c.SlotFrame bufSz x q) (b : Option RxBuf) : c.SlotFrame bufSz x (c.refilled b q) := by
  have hown := refilled_owned ops b q
  refine ⟨fun skb hs => ?_, fun ho => by simp [hown] at ho, fun ho => by simp [hown] at ho⟩
  cases hskb : q.skb with
  | some skb' =>
    obtain rfl : skb' = skb := by simpa [Conf.refilled, hskb, RxSlot.mapDes] using hs
    exact h.fresh _ hskb
  | none =>
    cases b with
    | none => simp [Conf.refilled, hskb, RxSlot.mapDes] at hs
    | some b =>
      obtain rfl : b.skb = skb := by
        simpa [Conf.refilled, hskb, RxSlot.mapDes, Conf.allocSlot] using hs
      exact ⟨rfl, rfl⟩

/-- A descriptor written by the device, where the errors flag what is not a whole frame. -/
theorem Conf.SlotFrame.write (hd : c.desc = ndescOps) {x : Option RxPart} {y : RxPart}
    {w : RxWrite} (h : c.SlotFrame bufSz x q) (hplace : q.desc.des2 = q.dma)
    (hdes : w.des01.Describes y) (hbytes : y.first = true → y.last = true → w.bytes = y.frame)
    (hsize : y.first = true → y.last = true → y.frame.length ≤ bufSz.toNat)
    (hgood : y.last = true → w.des01.rxErrors = false →
      y.first = true ∧ c.trailer ≤ y.frame.length) :
    c.SlotFrame bufSz (some y) (q.write w) := by
  obtain ⟨-, hlast, hlen⟩ := hdes
  have hskb : ∀ skb, (q.write w).skb = some skb → ∃ old, q.skb = some old ∧
      old.fill w.bytes = skb := by
    intro skb hs
    simpa [RxSlot.write, hplace] using hs
  have hpass : c.rxVerdict (q.write w) ≠ .discardFrame →
      y.last = true ∧ w.des01.rxErrors = false := by
    rw [rxVerdict_ndesc hd]
    change (if w.des01.test Rx.lastDescriptor && !w.des01.rxErrors then RxFrameStatus.goodFrame
      else .discardFrame) ≠ .discardFrame → _
    rw [hlast]
    cases y.last <;> cases w.des01.rxErrors <;> simp
  refine ⟨fun skb hs => ?_, fun _ hv skb hs => ?_, fun _ y' hy hwhole => ?_⟩
  · obtain ⟨old, hold, rfl⟩ := hskb skb hs
    exact h.fresh old hold
  · obtain ⟨old, hold, rfl⟩ := hskb skb hs
    obtain ⟨hl, herr⟩ := hpass hv
    obtain ⟨hf, hmin⟩ := hgood hl herr
    obtain ⟨frame, first, last⟩ := y
    obtain rfl : first = true := hf
    obtain rfl : last = true := hl
    refine ⟨frame, rfl, hsize rfl rfl, hmin, hlen rfl, fun i hi => ?_⟩
    have hw : w.bytes = frame := hbytes rfl rfl
    simp [RxSkb.fill, hw, hi]
  · obtain rfl := Option.some.inj hy
    by_contra hv
    obtain ⟨hl, herr⟩ := hpass hv
    exact hwhole ⟨(hgood hl herr).1, hl⟩

/-- Every slot of the ring holds what the device wrote to it. -/
def SlotFrames (c : Conf) (s : RxState) (part : Nat → Option RxPart) : Prop :=
  ∀ i < c.dmaRxSize.toNat, c.SlotFrame s.dmaBufSz (part i) (s.ring i)

theorem SlotFrames.update (h : SlotFrames c s part) {e : Nat} (hring :
    s'.ring = Function.update s.ring e q) (hsz : s'.dmaBufSz = s.dmaBufSz)
    (hq : e < c.dmaRxSize.toNat → c.SlotFrame s.dmaBufSz (part e) q) : SlotFrames c s' part := by
  intro i hi
  rw [hring, hsz, Function.update_apply]
  split_ifs with he
  · subst he
    exact hq hi
  · exact h i hi

/-- A call of `stmmac_rx` hands up whole frames and leaves the slots as they should be. -/
theorem SlotFrames.stmmacRx (hd : c.desc = ndescOps) (hpos : 0 < c.dmaRxSize.toNat)
    (alloc : BitVec 32 → Option RxBuf) (limit : BitVec 32) (h : SlotFrames c s part) :
    let s' := (Stmmac.stmmacRx c alloc s limit).1
    SlotFrames c s' part ∧ s'.dmaBufSz = s.dmaBufSz ∧
      ∃ calls, s'.trace = s.trace ++ calls ∧ WholeFrames c s.dmaBufSz part calls := by
  have ops : c.desc.Lawful := hd ▸ ndescOps_lawful
  let I (t : RxState) : Prop := SlotFrames c t part ∧ t.dmaBufSz = s.dmaBufSz ∧
    ∃ calls, t.trace = s.trace ++ calls ∧ WholeFrames c s.dmaBufSz part calls
  have hstart : I s := ⟨h, rfl, [], (List.append_nil _).symm, .of_silent rfl rfl rfl⟩
  have hbody : ∀ {t : RxState}, I t → c.rxOwned (t.ring (c.rxEntry t.curRx)) = false →
      I (rxBody c t).1 := by
    rintro t ⟨ht, hsz, calls, htrace, hwhole⟩ hown
    have hslot := ht _ (rxEntry_lt hpos t.curRx)
    have hnew := rxBody_trace (s := t) ops
    rw [htrace, List.append_assoc] at hnew
    refine ⟨ht.update (rxBody_ring ops) (rxBody_dmaBufSz ops) fun _ => hslot.consumed,
      (rxBody_dmaBufSz ops).trans hsz, _, hnew, hwhole.append ?_⟩
    rw [hsz] at hslot
    exact hslot.wholeFrames hd _ hown
  have hrefill : ∀ {t : RxState}, I t → rxRefillGuard c alloc t = true →
      I (rxRefillBody c alloc t) := by
    rintro t ⟨ht, hsz, calls, htrace, hwhole⟩ -
    have hslot := ht _ (rxEntry_lt hpos t.dirtyRx)
    rw [rxRefillBody_eq, htrace, List.append_assoc]
    exact ⟨ht.update rfl rfl fun _ => hslot.refilled ops _, hsz, _, rfl,
      hwhole.append (.refillCalls _ _ _)⟩
  have hrounds : ∃ _ : Nat, I (rxLoop c limit.toNat s 0).1 :=
    rxLoop_invariant (I := fun _ => I) hbody hstart
  obtain ⟨-, hloop⟩ := hrounds
  obtain ⟨st, heq⟩ := stmmacRx_eq c s alloc limit
  dsimp only
  rw [heq]
  split
  · exact hloop
  · exact stmmacRxRefill_invariant hrefill hloop

/-! ## Runs -/

/-- The interface as it is opened, no frame being written. -/
def RxFrameHw.opened (c : Conf) (alloc : Nat → Option RxBuf) (mtu : BitVec 32) (s : RxState) :
    RxFrameHw where
  hw := .opened c alloc mtu s
  writing := none
  part _ := none

/-- The buffers are in place, and the slots hold what the device wrote. -/
structure RxFrameInv (c : Conf) (f : RxFrameHw) : Prop where
  holds : RxHolds c f.hw.rx
  pos : f.hw.pos < c.dmaRxSize.toNat
  slots : SlotFrames c f.hw.rx f.part

theorem RxFrameHw.next_whole {frame : List (BitVec 8)} {n : Nat}
    (hfirst : (f.next frame n).first = true) (hlast : (f.next frame n).last = true) :
    (f.source frame).2.take n = (f.next frame n).frame ∧ (f.next frame n).frame.length ≤ n := by
  unfold RxFrameHw.next RxFrameHw.source at *
  cases hw : f.writing with
  | some _ => simp [hw] at hfirst
  | none =>
    simp only [hw, Option.getD_none, decide_eq_true_eq] at hlast ⊢
    exact ⟨List.take_of_length_le hlast, hlast⟩

section Runs

variable (hd : c.desc = ndescOps) (hpos : 0 < c.dmaRxSize.toNat)
  (hp : c.stampsRx = true → IsPow2 c.dmaRxSize)

include hd hpos hp in
theorem RxFrameInv.step (inv : RxFrameInv c f) (hok : SingleOrBad c f a)
    (hs : rxFrameStep c f a = some f') : RxFrameInv c f' := by
  have ops : c.desc.Lawful := hd ▸ ndescOps_lawful
  cases a with
  | receive frame n des01 stamp =>
    simp only [rxFrameStep] at hs
    split at hs
    · next hfits =>
      obtain ⟨hsize, hdes⟩ := hfits
      obtain ⟨hw, hstep, rfl⟩ := Option.map_eq_some_iff.mp hs
      obtain ⟨hholds, hpos'⟩ :=
        inv.holds.step (a := .receive _) ops hpos hp inv.pos trivial hstep
      unfold rxStep at hstep
      split at hstep
      · cases hstep
      obtain ⟨hown, -, -, rfl⟩ := rxReceive_eq hstep
      refine ⟨hholds, hpos', fun i hi => ?_⟩
      dsimp only
      rw [RxState.modify_ring, Function.update_apply, Function.update_apply]
      split_ifs with he
      · -- the slot the device has just written
        have hplace := ((inv.holds.backed.slots _ inv.pos).owned hown).2
        refine (inv.slots _ inv.pos).write hd hplace hdes (fun hf hl => ?_) (fun hf hl => ?_) hok
        · exact (RxFrameHw.next_whole hf hl).1
        · exact (RxFrameHw.next_whole hf hl).2.trans hsize
      · exact inv.slots i hi
    · cases hs
  | rx alloc limit =>
    obtain ⟨hw, hstep, rfl⟩ := Option.map_eq_some_iff.mp hs
    obtain ⟨hholds, hpos'⟩ := inv.holds.step (a := .rx alloc limit) ops hpos hp inv.pos hok hstep
    unfold rxStep at hstep
    split at hstep
    · cases hstep
    obtain rfl := Option.some.inj hstep
    exact ⟨hholds, hpos', (inv.slots.stmmacRx hd hpos alloc limit).1⟩

include hd hpos hp in
/-- In every run in which the frames without errors are single and long enough, `stmmac_rx` hands
up whole frames only. -/
theorem whole_frames_up {alloc : Nat → Option RxBuf} {mtu : BitVec 32} {as : List RxFrameAct}
    (halloc : ∀ i < c.dmaRxSize.toNat, (alloc i).isSome = true) (htrace : s.trace = [])
    (run : Run (rxFrameStep c) (SingleOrBad c) (.opened c alloc mtu s) as f)
    (allocRefill : BitVec 32 → Option RxBuf) (limit : BitVec 32) :
    ∃ calls, (stmmacRx c allocRefill f.hw.rx limit).1.trace = f.hw.rx.trace ++ calls ∧
      WholeFrames c f.hw.rx.dmaBufSz f.part calls := by
  have ops : c.desc.Lawful := hd ▸ ndescOps_lawful
  have hinit : RxFrameInv c (.opened c alloc mtu s) := by
    refine ⟨.opened halloc hpos htrace, hpos, fun i hi => ?_⟩
    have hown : c.rxOwned ((initDmaDescRings c alloc mtu s).ring i) = true :=
      initDmaDescRings_owned ops hi
    obtain ⟨b, -, hskb, -⟩ := initBuffers_slot (s := s) halloc hi
    refine ⟨fun skb hs => ?_, fun ho => ?_, fun ho => ?_⟩
    · have hs : ((initDmaDescRings c alloc mtu s).ring i).skb = some skb := hs
      rw [(initDmaDescRings_slot alloc mtu hi).1, hskb] at hs
      obtain rfl := Option.some.inj hs
      exact ⟨rfl, rfl⟩
    · exact absurd (hown.symm.trans ho) (by decide)
    · exact absurd (hown.symm.trans ho) (by decide)
  have inv := run.invariant (I := RxFrameInv c) (fun inv hok hs => inv.step hd hpos hp hok hs) hinit
  exact (inv.slots.stmmacRx hd hpos allocRefill limit).2.2

end Runs

/-- A good frame, one over two descriptors with an error in the second, and a runt with one. -/
theorem whole_frames_up_three_frames :
    ∃ f, Run (rxFrameStep (.normal 64)) (SingleOrBad (.normal 64))
        (.opened (.normal 64) (fun i => some (.page i)) 1500 .blank)
        [.receive (.replicate 64 1) 2048 (.rxDone true true false 64) none,
          .receive (.replicate 2100 2) 2048 (.rxDone true false false 0) none,
          .rx (fun _ => none) 1,
          .receive [] 2048 (.rxDone false true true 2100) none,
          .receive [3, 3] 2048 (.rxDone true true true 2) none] f ∧
      ∃ calls, (stmmacRx (.normal 64) (fun _ => none) f.hw.rx 64).1.trace =
          f.hw.rx.trace ++ calls ∧
        WholeFrames (.normal 64) f.hw.rx.dmaBufSz f.part calls :=
  exec_exists (by decide +kernel) fun _ run =>
    whole_frames_up (c := .normal 64) rfl (by decide) (fun _ => ⟨6, rfl⟩) (fun _ _ => rfl) rfl run
      (fun _ => none) 64

theorem not_wholeFrames {before after : List RxCall} {x : Nat × Int} (hx : skbPuts after = [x])
    (hbefore : skbPuts before = []) (hout : x.2 < 0 ∨ bufSz.toNat < x.2) :
    ¬ ∃ calls, after = before ++ calls ∧ WholeFrames c bufSz part calls := by
  rintro ⟨calls, rfl, h⟩
  rw [skbPuts_append, hbefore, List.nil_append] at hx
  obtain ⟨hlow, hhigh, -⟩ := h.put x (by rw [hx]; exact List.mem_singleton_self x)
  omega

/-- The second descriptor of a frame of 2100 bytes is taken for a frame of that length, and a frame
of two bytes for one of length -2. -/
theorem part_taken_for_frame :
    (∃ f, Run (rxFrameStep (.normal 64)) (fun _ _ => True)
        (.opened (.normal 64) (fun i => some (.page i)) 1500 .blank)
        [.receive (.replicate 2100 2) 2048 (.rxDone true false false 0) none,
          .receive [] 2048 (.rxDone false true false 2100) none] f ∧
      ¬ ∃ calls, (stmmacRx (.normal 64) (fun _ => none) f.hw.rx 64).1.trace =
          f.hw.rx.trace ++ calls ∧
        WholeFrames (.normal 64) f.hw.rx.dmaBufSz f.part calls) ∧
    ∃ f, Run (rxFrameStep (.normal 64)) (fun _ _ => True)
        (.opened (.normal 64) (fun i => some (.page i)) 1500 .blank)
        [.receive [3, 3] 2048 (.rxDone true true false 2) none] f ∧
      ¬ ∃ calls, (stmmacRx (.normal 64) (fun _ => none) f.hw.rx 64).1.trace =
          f.hw.rx.trace ++ calls ∧
        WholeFrames (.normal 64) f.hw.rx.dmaBufSz f.part calls := by
  constructor
  · have hreach : ∃ f, Run (rxFrameStep (.normal 64)) (fun _ _ => True)
        (.opened (.normal 64) (fun i => some (.page i)) 1500 .blank)
        [.receive (.replicate 2100 2) 2048 (.rxDone true false false 0) none,
          .receive [] 2048 (.rxDone false true false 2100) none] f ∧
        skbPuts (stmmacRx (.normal 64) (fun _ => none) f.hw.rx 64).1.trace = [(1, 2096)] ∧
        skbPuts f.hw.rx.trace = [] ∧ f.hw.rx.dmaBufSz = 2048 := exec_reaches (by decide +kernel)
    obtain ⟨f, run, hput, hbefore, hsz⟩ := hreach
    exact ⟨f, run, not_wholeFrames hput hbefore (.inr (by rw [hsz]; decide))⟩
  · have hreach : ∃ f, Run (rxFrameStep (.normal 64)) (fun _ _ => True)
        (.opened (.normal 64) (fun i => some (.page i)) 1500 .blank)
        [.receive [3, 3] 2048 (.rxDone true true false 2) none] f ∧
        skbPuts (stmmacRx (.normal 64) (fun _ => none) f.hw.rx 64).1.trace = [(0, -2)] ∧
        skbPuts f.hw.rx.trace = [] := exec_reaches (by decide +kernel)
    obtain ⟨f, run, hput, hbefore⟩ := hreach
    exact ⟨f, run, not_wholeFrames hput hbefore (.inl (by decide))⟩

end Stmmac
