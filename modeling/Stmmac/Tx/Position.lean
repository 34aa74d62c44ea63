import Stmmac.Library.Runs
import Stmmac.Tx.Step

/-!
# Transmit side: the position of the DMA

The DMA keeps the position of its current descriptor. It advances by processing descriptors in
ring order and is reset by a write to `DMA_TX_BASE_ADDR`, which `stmmac_open` does and
`stmmac_tx_err` does not: `stmmac_dma_stop_tx` and `stmmac_dma_start_tx` only clear and set
`DMA_CONTROL_ST`. Driver and DMA stay in step as long as `stmmac_tx_err` is taken at slot 0.
-/

namespace Stmmac

open Library

structure DmaTxState where
  tx : TxState
  /-- The slot of the current descriptor of the DMA. -/
  pos : Nat

/-- The DMA completes the descriptor at its position and no other. `rtl8211_xmit` is left out. -/
def dmaTxStep (c : Conf) (s : DmaTxState) : TxAct → Option DmaTxState
  | .rtl8211Xmit _ _ => none
  | .complete entry desc =>
    if entry = s.pos then
      (txComplete c s.tx entry desc).map (⟨·, (s.pos + 1) % c.dmaTxSize.toNat⟩)
    else none
  | .xmit skb dma => some ⟨(stmmacXmit c s.tx skb dma).1, s.pos⟩
  | .txClean => some ⟨stmmacTxClean c s.tx, s.pos⟩
  | .txErr => some ⟨stmmacTxErr c s.tx, s.pos⟩

/-- `stmmac_tx_err` finds the DMA at slot 0. -/
def ErrAtBase (s : DmaTxState) : TxAct → Prop
  | .txErr => s.pos = 0
  | _ => True

instance (s : DmaTxState) : ∀ a, Decidable (ErrAtBase s a)
  | .txErr => inferInstanceAs (Decidable (_ = _))
  | .xmit _ _ | .rtl8211Xmit _ _ | .txClean | .complete _ _ => inferInstanceAs (Decidable True)

/-- The position is that of a descriptor in flight, or of the next free one, and the DMA owns
every descriptor from there on. -/
def InStep (c : Conf) (s : DmaTxState) : Prop :=
  ∃ k ≤ s.tx.inFlight, s.pos = s.tx.flightSlot c k ∧
    ∀ j, k ≤ j → j < s.tx.inFlight → c.txOwned (s.tx.ring (s.tx.flightSlot c j)) = true

/-- The DMA is at counter `p` of the window; it owns the descriptors from there to `h`, and none
outside the window. -/
structure PosInv (c : Conf) (s : TxState) (pos t p h : Nat) : Prop where
  window : TxWindow c s t h
  pos_eq : pos = p % c.dmaTxSize.toNat
  le : t ≤ p
  le' : p ≤ h
  queued : ∀ k, p ≤ k → k < h → c.txOwned (s.ring (k % c.dmaTxSize.toNat)) = true
  free : FreeSlots c s t h fun p => c.txOwned p = false

variable {c : Conf} {s s' : TxState} {d d' : DmaTxState} {a : TxAct} {pos t p h : Nat}

theorem PosInv.inStep (hp : IsPow2 c.dmaTxSize) (inv : PosInv c d.tx d.pos t p h) :
    InStep c d := by
  have w := inv.window
  have hle := inv.le
  have hle' := inv.le'
  refine ⟨p - t, by rw [w.inFlight]; omega, ?_, fun j hj hj' => ?_⟩
  · rw [w.flightSlot hp, show t + (p - t) = p by omega]
    exact inv.pos_eq
  · rw [w.inFlight] at hj'
    rw [w.flightSlot hp]
    exact inv.queued _ (by omega) (by omega)

theorem PosInv.congr (inv : PosInv c s pos t p h) (hsame : SameRing s s') :
    PosInv c s' pos t p h := by
  refine ⟨inv.window.congr hsame.dirtyTx hsame.curTx, inv.pos_eq, inv.le, inv.le', ?_, ?_⟩
  · rw [hsame.ring]; exact inv.queued
  · intro k hk hk'
    rw [hsame.ring]
    exact inv.free k hk hk'

/-- The reclaimer stops at the position of the DMA. -/
theorem PosInv.clean (ops : c.desc.Lawful) (hp : IsPow2 c.dmaTxSize)
    (inv : PosInv c s pos t p h) (hg : txCleanGuard c s = true) :
    PosInv c (txCleanBody c s) pos (t + 1) p h := by
  have w := inv.window
  have hlt := w.lt_of_guard hg
  have hN := w.lt
  have hle := inv.le
  have hentry := w.entry_dirty hp
  have htp : t ≠ p := by
    rintro rfl
    have hown := (txCleanGuard_iff.mp hg).2
    rw [hentry, inv.queued t (Nat.le_refl t) hlt] at hown
    cases hown
  refine ⟨w.clean hg, inv.pos_eq, by omega, inv.le', fun k hk hk' => ?_,
    inv.free.clean hp w hg (reclaimSlot_owned ops)⟩
  rw [w.clean_kept hp (by omega) (by omega)]
  exact inv.queued k hk hk'

theorem PosInv.filled {n : Nat} {fill : Nat → TxSlot → TxSlot} (inv : PosInv c s pos t p h)
    (hfill : TxFilled c s s' h n fill) (hroom : h + n < t + c.dmaTxSize.toNat)
    (hown : ∀ i < n, ∀ q, c.txOwned (fill i q) = true) : PosInv c s' pos t p (h + n) := by
  have hle := inv.le
  have hle' := inv.le'
  refine ⟨hfill.window inv.window hroom, inv.pos_eq, hle, by omega, fun k hk hk' => ?_,
    inv.free.filled inv.window hfill hroom⟩
  rcases Nat.lt_or_ge k h with hkh | hkh
  · rw [hfill.kept (t := t) (by omega) (by omega) hkh]
    exact inv.queued k hk hkh
  · obtain ⟨i, rfl⟩ := Nat.exists_eq_add_of_le hkh
    rw [hfill.slot i (by omega)]
    exact hown i (by omega) _

/-- The DMA completes the descriptor at its position and moves on. -/
theorem PosInv.complete (inv : PosInv c s pos t p h) {desc : DmaDesc}
    (hs : txComplete c s pos desc = some s') :
    PosInv c s' ((pos + 1) % c.dmaTxSize.toNat) t (p + 1) h := by
  obtain ⟨hown, hgive, rfl⟩ := txComplete_eq hs
  have w := inv.window
  have hN := w.lt
  have hle := inv.le
  have hle' := inv.le'
  have hph : p ≠ h := by
    rintro rfl
    rw [inv.pos_eq, inv.free p (Nat.le_refl p) hN] at hown
    cases hown
  have hother : ∀ k, t ≤ k → k < t + c.dmaTxSize.toNat → k ≠ p →
      (s.modify pos ({ · with desc := desc })).ring (k % c.dmaTxSize.toNat) =
        s.ring (k % c.dmaTxSize.toNat) := by
    intro k hk hk' hkp
    rw [TxState.modify_ring, inv.pos_eq]
    apply Function.update_of_ne
    exact Ring.mod_ne_of_window t ⟨hk, hk', hle, by omega, hkp⟩
  refine ⟨w.congr rfl rfl, ?_, by omega, by omega, fun k hk hk' => ?_, fun k hk hk' => ?_⟩
  · rw [inv.pos_eq, Nat.mod_add_mod]
  · rw [hother k (by omega) (by omega) (by omega)]
    exact inv.queued k (by omega) hk'
  · rw [hother k (by omega) hk' (by omega)]
    exact inv.free k hk hk'

theorem PosInv.step (ops : c.desc.Lawful) (hp : IsPow2 c.dmaTxSize)
    (inv : PosInv c d.tx d.pos t p h) (hok : ErrAtBase d a) (hs : dmaTxStep c d a = some d') :
    ∃ t' p' h', PosInv c d'.tx d'.pos t' p' h' := by
  have w := inv.window
  cases a with
  | xmit skb dma =>
    obtain rfl := Option.some.inj hs
    by_cases hfit : XmitFits c d.tx skb
    · exact ⟨t, p, _, inv.filled (stmmacXmit_filled dma hp w hfit) (hfit.room w)
        fun i _ => xmitSlot_owned ops i⟩
    · exact ⟨t, p, h, inv.congr (stmmacXmit_same hfit)⟩
  | rtl8211Xmit length addr => cases hs
  | txClean =>
    obtain rfl := Option.some.inj hs
    obtain ⟨t', inv'⟩ := stmmacTxClean_invariant (I := fun t s => PosInv c s d.pos t p h)
      (fun inv hsame => inv.congr hsame) (fun inv hg => inv.clean ops hp hg) inv
    exact ⟨t', p, h, inv'⟩
  | txErr =>
    obtain rfl := Option.some.inj hs
    have hpos : d.pos = 0 := hok
    refine ⟨0, 0, 0, .err hp, by simp [hpos], Nat.le_refl 0, Nat.le_refl 0,
      fun k _ hk => absurd hk (Nat.not_lt_zero k), .of_forall hp fun i hi => ?_⟩
    rw [stmmacTxErr_ring, Ring.mapBelow_of_lt hi]
    exact errSlot_owned ops i _
  | complete entry desc =>
    simp only [dmaTxStep] at hs
    split at hs
    · next he =>
      subst he
      obtain ⟨s', hs', rfl⟩ := Option.map_eq_some_iff.mp hs
      exact ⟨t, p + 1, h, inv.complete hs'⟩
    · cases hs

/-- An empty ring, the DMA at its first slot. -/
theorem PosInv.start (hp : IsPow2 c.dmaTxSize) (hpos : pos = 0) (hcur : s.curTx = 0)
    (hdirty : s.dirtyTx = 0) (hfree : ∀ i < c.dmaTxSize.toNat, c.txOwned (s.ring i) = false) :
    PosInv c s pos 0 0 0 where
  window := ⟨hdirty, hcur, Nat.le_refl 0, by simpa using hp.pos⟩
  pos_eq := by simp [hpos]
  le := Nat.le_refl 0
  le' := Nat.le_refl 0
  queued k _ hk := absurd hk (Nat.not_lt_zero k)
  free := .of_forall hp hfree

section Run

variable {as : List TxAct} (ops : c.desc.Lawful) (hp : IsPow2 c.dmaTxSize)
  (hpos : d.pos = 0) (hcur : d.tx.curTx = 0) (hdirty : d.tx.dirtyTx = 0)
  (hfree : ∀ i < c.dmaTxSize.toNat, c.txOwned (d.tx.ring i) = false)

include ops hp hpos hcur hdirty hfree

theorem PosInv.run (run : Run (dmaTxStep c) ErrAtBase d as d') :
    ∃ t p h, PosInv c d'.tx d'.pos t p h :=
  run.invariant (I := fun d => ∃ t p h, PosInv c d.tx d.pos t p h)
    (fun ⟨_, _, _, inv⟩ hok hs => inv.step ops hp hok hs)
    ⟨0, 0, 0, .start hp hpos hcur hdirty hfree⟩

/-- The driver and the DMA stay in step in every run in which `stmmac_tx_err` finds the DMA at
slot 0. -/
theorem dma_in_step (run : Run (dmaTxStep c) ErrAtBase d as d') : InStep c d' := by
  obtain ⟨t, p, h, inv⟩ := PosInv.run ops hp hpos hcur hdirty hfree run
  exact inv.inStep hp

end Run

theorem idle_owned (size : BitVec 32) (i : Nat) :
    (Conf.normal size).txOwned ((TxState.idle (.normal size)).ring i) = false := by
  simp [Conf.txOwned, TxState.idle, ndescOps_lawful.txOwner_init, Conf.normal]

theorem dma_in_step_two_frames :
    ∃ d, Run (dmaTxStep (.normal 64)) ErrAtBase ⟨.idle (.normal 64), 0⟩
        [.xmit (.plain 7 60 [100]) fun i => 4096 + BitVec.ofNat 32 i, .txErr,
          .xmit (.plain 8 60 []) fun _ => 8192, .complete 0 ⟨⟨0, 0⟩, 8192, 0⟩, .txClean] d ∧
      InStep (.normal 64) d :=
  exec_exists (by decide +kernel) fun _ run =>
    dma_in_step (c := .normal 64) (d := ⟨.idle (.normal 64), 0⟩) ndescOps_lawful ⟨6, rfl⟩ rfl rfl
      rfl (fun i _ => idle_owned 64 i) run

/-- One frame sent, then a timeout: the driver starts again at slot 0, the DMA waits at slot 1. -/
theorem dma_out_of_step :
    ∃ d, Run (dmaTxStep (.normal 64)) (fun _ _ => True) ⟨.idle (.normal 64), 0⟩
        [.xmit (.plain 7 60 []) fun _ => 4096, .complete 0 ⟨⟨0, 0⟩, 4096, 0⟩, .txErr] d ∧
      ¬ InStep (.normal 64) d := by
  have hrun : ∃ d, Run (dmaTxStep (.normal 64)) (fun _ _ => True) ⟨.idle (.normal 64), 0⟩
        [.xmit (.plain 7 60 []) fun _ => 4096, .complete 0 ⟨⟨0, 0⟩, 4096, 0⟩, .txErr] d ∧
      d.tx.inFlight = 0 ∧ d.pos ≠ d.tx.flightSlot (.normal 64) 0 := exec_reaches (by decide +kernel)
  obtain ⟨d, run, hzero, hpos⟩ := hrun
  refine ⟨d, run, ?_⟩
  rintro ⟨k, hk, he, -⟩
  obtain rfl : k = 0 := by omega
  exact hpos he

end Stmmac
