import Stmmac.Library.Ring
import Stmmac.Rx.State
import Stmmac.Tx.State

/-!
# Ring positions across the wrap of the counters

`stmmac_open` rounds the ring sizes up to multiples of a cache line, which need not be powers of
two. The slots follow the 32-bit counters around the ring exactly when the size is one.
-/

namespace Stmmac

open Library

/-- The slots of both rings follow their counters, those of the descriptors in flight among them. -/
structure PositionsContinuous (c : Conf) : Prop where
  tx : Ring.Continuous c.txEntry c.dmaTxSize.toNat
  rx : Ring.Continuous c.rxEntry c.dmaRxSize.toNat
  flight_next : ∀ (s : TxState) (k : Nat),
    s.flightSlot c (k + 1) = (s.flightSlot c k + 1) % c.dmaTxSize.toNat
  flight_distinct : ∀ s : TxState, s.inFlight ≤ c.dmaTxSize.toNat - 1 →
    ∀ j < s.inFlight, ∀ k < s.inFlight, j ≠ k → s.flightSlot c j ≠ s.flightSlot c k

variable {c : Conf}

theorem txEntry_continuous_iff (hpos : 0 < c.dmaTxSize.toNat) :
    Ring.Continuous c.txEntry c.dmaTxSize.toNat ↔ IsPow2 c.dmaTxSize :=
  (Ring.continuous_iff hpos).trans isPow2_iff_dvd.symm

theorem rxEntry_continuous_iff (hpos : 0 < c.dmaRxSize.toNat) :
    Ring.Continuous c.rxEntry c.dmaRxSize.toNat ↔ IsPow2 c.dmaRxSize :=
  (Ring.continuous_iff hpos).trans isPow2_iff_dvd.symm

theorem flightSlot_succ (h : Ring.Continuous c.txEntry c.dmaTxSize.toNat) (s : TxState) (k : Nat) :
    s.flightSlot c (k + 1) = (s.flightSlot c k + 1) % c.dmaTxSize.toNat := by
  rw [TxState.flightSlot, Ring.ofNat_succ, ← BitVec.add_assoc, h.succ, TxState.flightSlot]

/-- Fewer descriptors in flight than slots never share one. -/
theorem flightSlot_distinct (h : Ring.Continuous c.txEntry c.dmaTxSize.toNat) {s : TxState}
    (hlt : s.inFlight ≤ c.dmaTxSize.toNat - 1) {j k : Nat} (hjk : j < k) (hk : k < s.inFlight) :
    s.flightSlot c j ≠ s.flightSlot c k := by
  have hflight : s.inFlight < 2 ^ 32 := (s.curTx - s.dirtyTx).isLt
  have hdiff : (s.dirtyTx + BitVec.ofNat 32 k - (s.dirtyTx + BitVec.ofNat 32 j)).toNat = k - j := by
    rw [← Ring.toNat_ofNat_sub hjk.le (by omega : k - j < 2 ^ 32)]
    congr 1
    grind
  refine h.distinct _ _ (fun he => ?_) (by omega)
  rw [he, BitVec.sub_self] at hdiff
  simp at hdiff
  omega

/-- Ring positions are continuous exactly for sizes that are powers of two. -/
theorem positions_continuous_iff (htx : 0 < c.dmaTxSize.toNat) (hrx : 0 < c.dmaRxSize.toNat) :
    PositionsContinuous c ↔ IsPow2 c.dmaTxSize ∧ IsPow2 c.dmaRxSize := by
  constructor
  · intro h
    exact ⟨(txEntry_continuous_iff htx).mp h.tx, (rxEntry_continuous_iff hrx).mp h.rx⟩
  · rintro ⟨hptx, hprx⟩
    have htx' := (txEntry_continuous_iff htx).mpr hptx
    refine ⟨htx', (rxEntry_continuous_iff hrx).mpr hprx, flightSlot_succ htx', ?_⟩
    intro s hlt j hj k hk hne
    rcases Nat.lt_or_gt_of_ne hne with hjk | hkj
    · exact flightSlot_distinct htx' hlt hjk hk
    · exact (flightSlot_distinct htx' hlt hkj hj).symm

theorem positions_continuous_iff_64 :
    PositionsContinuous (.normal (stmmacAlign 64 5)) :=
  (positions_continuous_iff (by decide) (by decide)).mpr ⟨⟨6, rfl⟩, ⟨6, rfl⟩⟩

/-- Three cache lines of slots: slot 63 is followed by slot 0 when the counter wraps. -/
theorem positions_192_wrap :
    ¬ Conf.txEntry (.normal (stmmacAlign 64 192)) (4294967295 + 1) =
      (Conf.txEntry (.normal (stmmacAlign 64 192)) 4294967295 + 1) % 192 := by
  decide

end Stmmac
