import Stmmac.Library.Ring
import Stmmac.Tx.State

/-!
# Transmit side: the window in flight

`cur_tx` and `dirty_tx` abbreviate unbounded counters. `TxWindow c s t h` says that `t` and `h`
are the counters they abbreviate and that fewer than `N` descriptors lie between them, `N` being
the ring size. In such a state `stmmac_tx_avail` is exact.
-/

namespace Stmmac

open Library

structure TxWindow (c : Conf) (s : TxState) (t h : Nat) : Prop where
  dirty : s.dirtyTx = BitVec.ofNat 32 t
  cur : s.curTx = BitVec.ofNat 32 h
  le : t ≤ h
  lt : h < t + c.dmaTxSize.toNat

variable {c : Conf} {s s' : TxState} {t h : Nat}

theorem txEntry_ofNat (hp : IsPow2 c.dmaTxSize) (n : Nat) :
    c.txEntry (BitVec.ofNat 32 n) = n % c.dmaTxSize.toNat :=
  Ring.slot_ofNat hp.dvd n

theorem txEntry_lt (hp : IsPow2 c.dmaTxSize) (cur : BitVec 32) :
    c.txEntry cur < c.dmaTxSize.toNat := by
  have := hp.pos
  rw [Conf.txEntry, BitVec.toNat_umod]
  exact Nat.mod_lt _ this

namespace TxWindow

theorem sub_lt (w : TxWindow c s t h) : h - t < 2 ^ 32 := by
  have := w.lt
  have := c.dmaTxSize.isLt
  omega

theorem inFlight (w : TxWindow c s t h) : s.inFlight = h - t := by
  rw [TxState.inFlight, w.cur, w.dirty, Ring.toNat_ofNat_sub w.le w.sub_lt]

theorem entry_dirty (hp : IsPow2 c.dmaTxSize) (w : TxWindow c s t h) :
    c.txEntry s.dirtyTx = t % c.dmaTxSize.toNat := by
  rw [w.dirty, txEntry_ofNat hp]

theorem flightSlot (hp : IsPow2 c.dmaTxSize) (w : TxWindow c s t h) (k : Nat) :
    s.flightSlot c k = (t + k) % c.dmaTxSize.toNat := by
  rw [TxState.flightSlot, w.dirty, ← BitVec.ofNat_add, txEntry_ofNat hp]

/-- One slot always stays unused, and the difference does not wrap. -/
theorem avail (w : TxWindow c s t h) :
    (stmmacTxAvail c s).toNat + (h - t) + 1 = c.dmaTxSize.toNat := by
  have hd : s.curTx - s.dirtyTx = BitVec.ofNat 32 (h - t) := by
    apply BitVec.eq_of_toNat_eq
    rw [w.cur, w.dirty, Ring.toNat_ofNat_sub w.le w.sub_lt, BitVec.toNat_ofNat,
      Nat.mod_eq_of_lt w.sub_lt]
  have ha : stmmacTxAvail c s = c.dmaTxSize - (s.curTx - s.dirtyTx) - 1#32 := by
    unfold stmmacTxAvail
    grind
  have hle := w.le
  have hlt := w.lt
  have hN := c.dmaTxSize.isLt
  rw [ha, hd]
  simp only [BitVec.toNat_sub, BitVec.toNat_ofNat]
  omega

theorem dirty_eq_cur_iff (w : TxWindow c s t h) : s.dirtyTx = s.curTx ↔ t = h := by
  rw [w.dirty, w.cur, Ring.ofNat_eq_iff w.le w.sub_lt]

/-- A step that leaves the counters alone keeps the window. -/
theorem congr (w : TxWindow c s t h) (hd : s'.dirtyTx = s.dirtyTx) (hc : s'.curTx = s.curTx) :
    TxWindow c s' t h :=
  ⟨hd.trans w.dirty, hc.trans w.cur, w.le, w.lt⟩

end TxWindow

/-- Fewer descriptors in flight than slots form a window. -/
theorem TxWindow.of_inFlight (h : s.inFlight < c.dmaTxSize.toNat) :
    TxWindow c s s.dirtyTx.toNat (s.dirtyTx.toNat + s.inFlight) where
  dirty := by rw [BitVec.ofNat_toNat, BitVec.setWidth_eq]
  cur := by
    rw [BitVec.ofNat_add, TxState.inFlight, BitVec.ofNat_toNat, BitVec.ofNat_toNat,
      BitVec.setWidth_eq, BitVec.setWidth_eq]
    grind
  le := Nat.le_add_right _ _
  lt := Nat.add_lt_add_left h _

/-- With both counters equal nothing is in flight, whatever value they have. -/
theorem TxWindow.of_eq (hp : IsPow2 c.dmaTxSize) (h : s.curTx = s.dirtyTx) :
    TxWindow c s s.curTx.toNat s.curTx.toNat where
  dirty := by rw [h, BitVec.ofNat_toNat, BitVec.setWidth_eq]
  cur := by rw [BitVec.ofNat_toNat, BitVec.setWidth_eq]
  le := Nat.le_refl _
  lt := by have := hp.pos; omega

end Stmmac
