import Stmmac.Conf
import Stmmac.Library.Ring
import Stmmac.Library.Runs

/-!
# Ring-end and chain markers

In ring mode the last descriptor of a ring carries `end_ring`, in chain mode every descriptor
carries `second_address_chained`. The markers share a word with the fields that the operations of
`norm_desc.c` set, clear and zero; no sequence of these operations, on any slots and mixed with
status write-backs of the device, loses or adds one.
-/

namespace Stmmac

open Library

/-- The unions `des01` of the two rings. -/
structure DescRings where
  tx : Nat → Des01
  rx : Nat → Des01

/-- What happens to a descriptor of the TX ring. -/
inductive TxDescOp where
  | prepareTxDesc (isFs : Bool) (len : BitVec 32) (csumFlag : Bool)
  | closeTxDesc
  | clearTxIc
  | setTxOwner
  | enableTxTimestamp
  | releaseTxDesc
  | initTxDesc
  | writeBack (des0 : BitVec 32)

/-- What happens to a descriptor of the RX ring. -/
inductive RxDescOp where
  | initRxDesc
  | setRxOwner
  | writeBack (des0 : BitVec 32)

inductive DescAct where
  | tx (i : Nat) (op : TxDescOp)
  | rx (i : Nat) (op : RxDescOp)

/-- `stmmac_clear_descriptors` and `stmmac_tx_err` call the initialisation with the same flag. -/
def TxDescOp.apply (c : Conf) (i : Nat) (p : Des01) : TxDescOp → Des01
  | .prepareTxDesc isFs len csumFlag => ndescPrepareTxDesc p isFs len csumFlag c.mode
  | .closeTxDesc => ndescCloseTxDesc p
  | .clearTxIc => ndescClearTxIc p
  | .setTxOwner => ndescSetTxOwner p
  | .enableTxTimestamp => ndescEnableTxTimestamp p
  | .releaseTxDesc => ndescReleaseTxDesc p c.mode
  | .initTxDesc => ndescInitTxDesc p c.mode (i == c.dmaTxSize.toNat - 1)
  | .writeBack des0 => { p with des0 := des0 }

def RxDescOp.apply (c : Conf) (i : Nat) (p : Des01) : RxDescOp → Des01
  | .initRxDesc => ndescInitRxDesc p c.useRiwt c.mode (i == c.dmaRxSize.toNat - 1)
  | .setRxOwner => ndescSetRxOwner p
  | .writeBack des0 => { p with des0 := des0 }

def descStep (c : Conf) (s : DescRings) : DescAct → Option DescRings
  | .tx i op => some { s with tx := Function.update s.tx i (op.apply c i (s.tx i)) }
  | .rx i op => some { s with rx := Function.update s.rx i (op.apply c i (s.rx i)) }

/-- A segment is no longer than a buffer. -/
def SegmentFits (_ : DescRings) : DescAct → Prop
  | .tx _ (.prepareTxDesc _ len _) => len.toNat ≤ 2047
  | _ => True

instance (s : DescRings) : ∀ a, Decidable (SegmentFits s a)
  | .tx _ (.prepareTxDesc _ _ _) => inferInstanceAs (Decidable (_ ≤ _))
  | .tx _ .closeTxDesc | .tx _ .clearTxIc | .tx _ .setTxOwner | .tx _ .enableTxTimestamp
  | .tx _ .releaseTxDesc | .tx _ .initTxDesc | .tx _ (.writeBack _) | .rx _ _ =>
    inferInstanceAs (Decidable True)

/-- Rings in zeroed memory. -/
def DescRings.zero : DescRings where
  tx _ := ⟨0, 0⟩
  rx _ := ⟨0, 0⟩

/-- `stmmac_clear_descriptors`. -/
def DescRings.clear (c : Conf) (s : DescRings) : DescRings where
  rx := Ring.mapBelow c.dmaRxSize.toNat
    (fun i p => ndescInitRxDesc p c.useRiwt c.mode (i == c.dmaRxSize.toNat - 1)) s.rx
  tx := Ring.mapBelow c.dmaTxSize.toNat
    (fun i p => ndescInitTxDesc p c.mode (i == c.dmaTxSize.toNat - 1)) s.tx

/-- The markers of a descriptor, `last` telling whether it closes the ring. -/
def Marked (mode : Mode) (endRing chained : Field) (last : Bool) (p : Des01) : Prop :=
  match mode with
  | .ring => p.get endRing = (if last then 1 else 0) ∧ p.get chained = 0
  | .chain => p.get chained = 1

def TxMarked (mode : Mode) (last : Bool) (p : Des01) : Prop :=
  Marked mode Tx.endRing Tx.secondAddressChained last p

def RxMarked (mode : Mode) (last : Bool) (p : Des01) : Prop :=
  Marked mode Rx.endRing Rx.secondAddressChained last p

/-- Every descriptor of both rings has the markers of its slot. -/
structure MarkersIntact (c : Conf) (s : DescRings) : Prop where
  tx : ∀ i < c.dmaTxSize.toNat, TxMarked c.mode (i == c.dmaTxSize.toNat - 1) (s.tx i)
  rx : ∀ i < c.dmaRxSize.toNat, RxMarked c.mode (i == c.dmaRxSize.toNat - 1) (s.rx i)

variable {c : Conf} {s s' : DescRings} {a : DescAct} {mode : Mode} {last : Bool} {p q : Des01}

/-! ## One operation -/

section Fields

variable {endRing chained f : Field}

/-- A write to a field on other bits keeps the markers. -/
theorem Marked.set (h : Marked mode endRing chained last p) (he : f.Disjoint endRing)
    (hc : f.Disjoint chained) (v : BitVec f.len) :
    Marked mode endRing chained last (p.set f v) := by
  unfold Marked at h ⊢
  rwa [Des01.get_set_of_disjoint p f endRing v he, Des01.get_set_of_disjoint p f chained v hc]

/-- The markers depend on the second word only. -/
theorem Marked.of_des1 (h : Marked mode endRing chained last p) (he : endRing.word = .des1)
    (hc : chained.word = .des1) (hq : q.des1 = p.des1) : Marked mode endRing chained last q := by
  have hget : ∀ g : Field, g.word = .des1 → q.get g = p.get g := by
    intro g hg
    simp [Des01.get, hg, Des01.word, hq]
  unfold Marked at h ⊢
  rwa [hget endRing he, hget chained hc]

/-- No marker is set that the slot does not have. -/
def Unmarked (endRing chained : Field) (last : Bool) (p : Des01) : Prop :=
  p.get chained = 0 ∧ (last = false → p.get endRing = 0)

theorem Unmarked.set (h : Unmarked endRing chained last p) (he : f.Disjoint endRing)
    (hc : f.Disjoint chained) (v : BitVec f.len) :
    Unmarked endRing chained last (p.set f v) := by
  unfold Unmarked at h ⊢
  rwa [Des01.get_set_of_disjoint p f endRing v he, Des01.get_set_of_disjoint p f chained v hc]

theorem unmarked_of (h : Marked .ring endRing chained last p ∨ p = ⟨0, 0⟩) :
    Unmarked endRing chained last p := by
  rcases h with ⟨hend, hchained⟩ | rfl
  · exact ⟨hchained, fun hlast => by simpa [hlast] using hend⟩
  · exact ⟨Des01.get_zero _, fun _ => Des01.get_zero _⟩

theorem Unmarked.mark (h : Unmarked endRing chained last p) (hfit : endRing.Fits)
    (hd : endRing.Disjoint chained) :
    Marked .ring endRing chained last (if last then p.set endRing 1 else p) := by
  cases last with
  | true =>
    exact ⟨Des01.get_set_self p endRing 1 hfit,
      (Des01.get_set_of_disjoint p endRing chained 1 hd).trans h.1⟩
  | false => exact ⟨h.2 rfl, h.1⟩

theorem marked_chain (hfit : chained.Fits) :
    Marked .chain endRing chained last (p.set chained 1) :=
  Des01.get_set_self p chained 1 hfit

end Fields

theorem txMarked_prepare (h : TxMarked mode last p) (isFs : Bool) {len : BitVec 32}
    (hlen : len.toNat ≤ 2047) (csumFlag : Bool) :
    TxMarked mode last (ndescPrepareTxDesc p isFs len csumFlag mode) := by
  have hsize := (h.set (f := Tx.firstSegment) (by decide) (by decide)
    (if isFs then 1 else 0)).set (f := Tx.buffer1Size) (by decide) (by decide) (len.setWidth 11)
  rw [ndescPrepareTxDesc_of_le p isFs (by omega) csumFlag mode]
  cases csumFlag with
  | false => exact hsize
  | true => exact hsize.set (f := Tx.checksumInsertion) (by decide) (by decide) 3

/-- Releasing zeroes both words and puts the marker of its mode back. -/
theorem txMarked_release (h : TxMarked mode last p) :
    TxMarked mode last (ndescReleaseTxDesc p mode) := by
  cases mode with
  | ring =>
    refine ⟨?_, ?_⟩
    · rw [← h.1]
      exact Des01.get_set_self _ _ _ (by decide)
    · exact (Des01.get_set_of_disjoint _ _ _ _ (by decide)).trans (Des01.get_zero _)
  | chain => exact marked_chain (by decide)

/-- The initialisation sets the marker of its slot and clears none. -/
theorem txMarked_init (h : TxMarked mode last p ∨ p = ⟨0, 0⟩) :
    TxMarked mode last (ndescInitTxDesc p mode last) := by
  cases mode with
  | ring =>
    have hun := (unmarked_of h).set (f := Tx.own) (by decide) (by decide) 0
    exact hun.mark (by decide) (by decide)
  | chain => exact marked_chain (by decide)

theorem rxMarked_init (h : RxMarked mode last p ∨ p = ⟨0, 0⟩) (disableRxIc : Bool) :
    RxMarked mode last (ndescInitRxDesc p disableRxIc mode last) := by
  have hmark : RxMarked mode last (ndescInitRxDesc p false mode last) := by
    cases mode with
    | ring =>
      have hun := (((unmarked_of h).set (f := Rx.own) (by decide) (by decide) 1).set
        (f := Rx.buffer1Size) (by decide) (by decide) 2047).set
        (f := Rx.buffer2Size) (by decide) (by decide) 2047
      exact hun.mark (by decide) (by decide)
    | chain => exact marked_chain (by decide)
  cases disableRxIc with
  | false => exact hmark
  | true => exact hmark.set (f := Rx.disableIc) (by decide) (by decide) 1

theorem TxDescOp.marked {i : Nat} (op : TxDescOp) (hfit : SegmentFits s (.tx i op))
    (h : TxMarked c.mode (i == c.dmaTxSize.toNat - 1) p) :
    TxMarked c.mode (i == c.dmaTxSize.toNat - 1) (op.apply c i p) := by
  cases op with
  | prepareTxDesc isFs len csumFlag => exact txMarked_prepare h isFs hfit csumFlag
  | closeTxDesc =>
    exact (h.set (f := Tx.lastSegment) (by decide) (by decide) 1).set
      (f := Tx.interrupt) (by decide) (by decide) 1
  | clearTxIc => exact h.set (f := Tx.interrupt) (by decide) (by decide) 0
  | setTxOwner => exact h.set (f := Tx.own) (by decide) (by decide) 1
  | enableTxTimestamp => exact h.set (f := Tx.timeStampEnable) (by decide) (by decide) 1
  | releaseTxDesc => exact txMarked_release h
  | initTxDesc => exact txMarked_init (.inl h)
  | writeBack des0 => exact h.of_des1 rfl rfl rfl

theorem RxDescOp.marked {i : Nat} (op : RxDescOp)
    (h : RxMarked c.mode (i == c.dmaRxSize.toNat - 1) p) :
    RxMarked c.mode (i == c.dmaRxSize.toNat - 1) (op.apply c i p) := by
  cases op with
  | initRxDesc => exact rxMarked_init (.inl h) _
  | setRxOwner => exact h.set (f := Rx.own) (by decide) (by decide) 1
  | writeBack des0 => exact h.of_des1 rfl rfl rfl

/-! ## Histories -/

theorem descStep_markers (h : MarkersIntact c s) (hfit : SegmentFits s a)
    (hs : descStep c s a = some s') : MarkersIntact c s' := by
  cases a with
  | tx i op =>
    obtain rfl := Option.some.inj hs
    refine ⟨fun j hj => ?_, h.rx⟩
    by_cases hji : j = i
    · subst hji
      simpa using op.marked hfit (h.tx j hj)
    · simpa [hji] using h.tx j hj
  | rx i op =>
    obtain rfl := Option.some.inj hs
    refine ⟨h.tx, fun j hj => ?_⟩
    by_cases hji : j = i
    · subst hji
      simpa using op.marked (h.rx j hj)
    · simpa [hji] using h.rx j hj

theorem markersIntact_clear : MarkersIntact c (DescRings.zero.clear c) where
  tx i hi := by
    simp only [DescRings.clear, Ring.mapBelow_of_lt hi]
    exact txMarked_init (.inr rfl)
  rx i hi := by
    simp only [DescRings.clear, Ring.mapBelow_of_lt hi]
    exact rxMarked_init (.inr rfl) _

/-- The markers over every history of the two rings. -/
theorem markers_survive {as : List DescAct}
    (run : Run (descStep c) SegmentFits (DescRings.zero.clear c) as s) : MarkersIntact c s :=
  run.invariant (I := MarkersIntact c) (fun h hfit hs => descStep_markers h hfit hs)
    markersIntact_clear

theorem markers_survive_release :
    ∃ s, Run (descStep (.normal 64)) SegmentFits (DescRings.zero.clear (.normal 64))
        [.tx 63 (.prepareTxDesc true 1500 true), .tx 63 .closeTxDesc, .tx 63 .setTxOwner,
          .tx 63 (.writeBack 0), .tx 63 .releaseTxDesc, .rx 63 (.writeBack 0x00400300),
          .rx 63 .setRxOwner] s ∧ MarkersIntact (.normal 64) s :=
  exec_exists (by decide) fun _ run => markers_survive run

end Stmmac
