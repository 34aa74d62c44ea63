import Stmmac.Rx.InStep
import Stmmac.Tx.Position

/-!
# Suspend and resume

`stmmac_suspend` clears the ownership of all descriptors of both rings and leaves the four counters
as they are; the DMA keeps its positions. After `stmmac_resume` driver and DMA agree on where they
are exactly when they were at the same slot of each ring before.
-/

namespace Stmmac

open Library

/-- Both rings of an interface, each with the position of the DMA in it. -/
structure NicState where
  tx : DmaTxState
  rx : RxHw

/-- The transmit half of `stmmac_clear_descriptors`. -/
def stmmacClearTxDescriptors (c : Conf) (s : TxState) : TxState :=
  let n := c.dmaTxSize.toNat
  let init (i : Nat) : TxSlot → TxSlot := .mapDes (c.desc.initTxDesc · c.mode (i == n - 1))
  { s with ring := Ring.mapBelow n init s.ring }

/-- The transmit half of `stmmac_suspend`. -/
def stmmacSuspendTx (c : Conf) (s : TxState) : TxState :=
  stmmacClearTxDescriptors c ({ s with queueStopped := true }.call .stopTx)

/-- The transmit half of `stmmac_resume`. -/
def stmmacResumeTx (s : TxState) : TxState := { s.call .startTx with queueStopped := false }

/-- `stmmac_suspend` and then `stmmac_resume`, between which the DMA stands still. -/
def NicState.suspendResume (c : Conf) (s : NicState) : NicState where
  tx := { s.tx with tx := stmmacResumeTx (stmmacSuspendTx c s.tx.tx) }
  rx := { s.rx with rx := stmmacResume (stmmacSuspend c s.rx.rx) }

/-- A received frame waits in the slot. -/
def Conf.rxWaiting (c : Conf) (p : RxSlot) : Prop := c.rxOwned p = false ∧ p.skb.isSome = true

instance (c : Conf) (p : RxSlot) : Decidable (c.rxWaiting p) :=
  inferInstanceAs (Decidable (_ ∧ _))

/-- `cur_tx` names the first slot with no queued frame, going on from the DMA, and `cur_rx` the
slot of the oldest frame waiting or, with none, the slot the DMA fills next. -/
structure SlotsInStep (c : Conf) (s : NicState) : Prop where
  tx : Ring.FirstFrom c.dmaTxSize.toNat (fun i => c.txOwned (s.tx.tx.ring i) = false) s.tx.pos
    (c.txEntry s.tx.tx.curTx)
  rx : Ring.FirstFrom c.dmaRxSize.toNat (fun i => c.rxWaiting (s.rx.rx.ring i)) s.rx.pos
      (c.rxEntry s.rx.rx.curRx) ∨
    (∀ i < c.dmaRxSize.toNat, ¬ c.rxWaiting (s.rx.rx.ring i)) ∧
      c.rxEntry s.rx.rx.curRx = s.rx.pos

/-- The positions of the DMA are the slots of `cur_tx` and `cur_rx`. -/
def PositionsAgree (c : Conf) (s : NicState) : Prop :=
  s.tx.pos = c.txEntry s.tx.tx.curTx ∧ s.rx.pos = c.rxEntry s.rx.rx.curRx

variable {c : Conf} {s : NicState}

theorem stmmacSuspendTx_owned (ops : c.desc.Lawful) (s : TxState) {i : Nat}
    (hi : i < c.dmaTxSize.toNat) :
    c.txOwned ((stmmacResumeTx (stmmacSuspendTx c s)).ring i) = false := by
  simp only [stmmacResumeTx, stmmacSuspendTx, stmmacClearTxDescriptors, TxState.call_ring,
    Ring.mapBelow_of_lt hi]
  exact ops.txOwner_init _ _ _

/-- The DMA owns no TX descriptor and every RX descriptor, so both searches end at once. -/
theorem slotsInStep_suspendResume_iff (ops : c.desc.Lawful)
    (htx : s.tx.pos < c.dmaTxSize.toNat) (hrx : s.rx.pos < c.dmaRxSize.toNat) :
    SlotsInStep c (s.suspendResume c) ↔ PositionsAgree c s := by
  have hfree : ∀ i < c.dmaTxSize.toNat,
      c.txOwned ((s.suspendResume c).tx.tx.ring i) = false :=
    fun i hi => stmmacSuspendTx_owned ops s.tx.tx hi
  have hnone : ∀ i < c.dmaRxSize.toNat, ¬ c.rxWaiting ((s.suspendResume c).rx.rx.ring i) := by
    intro i hi hwait
    have hown : c.rxOwned ((s.suspendResume c).rx.rx.ring i) = true :=
      stmmacClearDescriptors_owned ops hi
    rw [hwait.1] at hown
    cases hown
  constructor
  · intro h
    refine ⟨((Ring.firstFrom_of_all htx hfree).mp h.tx).symm, ?_⟩
    rcases h.rx with ⟨j, -, -, hwait, -⟩ | ⟨-, he⟩
    · exact absurd hwait (hnone _ (rxEntry_lt (by omega) _))
    · exact he.symm
  · rintro ⟨hposTx, hposRx⟩
    exact ⟨(Ring.firstFrom_of_all htx hfree).mpr hposTx.symm, .inr ⟨hnone, hposRx.symm⟩⟩

/-! ## Running interfaces -/

/-- While driver and DMA are in step, the TX positions agree when nothing is left to send. -/
theorem PosInv.pos_eq_entry_iff {tx : TxState} {pos t p h : Nat} (hp : IsPow2 c.dmaTxSize)
    (inv : PosInv c tx pos t p h) : pos = c.txEntry tx.curTx ↔ p = h := by
  have hle := inv.le
  have hle' := inv.le'
  have hlt := inv.window.lt
  rw [inv.window.cur, txEntry_ofNat hp, inv.pos_eq]
  exact ⟨fun he => Ring.eq_of_mod_eq hle' (by omega) he, fun he => by rw [he]⟩

/-- The RX positions agree when no frame waits, or one in every slot. -/
theorem RxWindow.pos_eq_entry_iff {rx : RxState} {pos d k p : Nat} (hp : IsPow2 c.dmaRxSize)
    (w : RxWindow c rx pos d k p) :
    pos = c.rxEntry rx.curRx ↔ p = k ∨ p = k + c.dmaRxSize.toNat := by
  have hle := w.le
  have hle' := w.le'
  have hlt := w.lt
  rw [w.entry_cur hp, w.pos_eq]
  constructor
  · intro he
    rcases Nat.lt_or_ge p (k + c.dmaRxSize.toNat) with hpk | hpk
    · exact .inl (Ring.eq_of_mod_eq hle' hpk he.symm).symm
    · exact .inr (by omega)
  · rintro (rfl | rfl)
    · rfl
    · rw [Nat.add_mod_right]

/-- Suspend and resume keep the rings in step exactly when the positions agreed before. While an
interface runs they do when no TX descriptor waits to be sent, and no received frame, or a whole
ring of them, waits to be consumed. -/
theorem suspend_resume_in_step_iff (ops : c.desc.Lawful) (htx : s.tx.pos < c.dmaTxSize.toNat)
    (hrx : s.rx.pos < c.dmaRxSize.toNat) :
    (SlotsInStep c (s.suspendResume c) ↔ PositionsAgree c s) ∧
      ∀ t p h d k q, IsPow2 c.dmaTxSize → IsPow2 c.dmaRxSize →
        PosInv c s.tx.tx s.tx.pos t p h → RxWindow c s.rx.rx s.rx.pos d k q →
        (PositionsAgree c s ↔ p = h ∧ (q = k ∨ q = k + c.dmaRxSize.toNat)) := by
  refine ⟨slotsInStep_suspendResume_iff ops htx hrx, ?_⟩
  intro t p h d k q hptx hprx inv w
  exact and_congr (inv.pos_eq_entry_iff hptx) (w.pos_eq_entry_iff hprx)

/-- An interface as it is opened. -/
def NicState.opened (c : Conf) : NicState where
  tx := ⟨.idle c, 0⟩
  rx := .opened c (fun i => some (.page i)) 1500 .blank

/-- One frame has been sent, one received has been consumed, and then all 16 slots were filled. -/
theorem suspend_resume_in_step_traffic :
    ∃ d, Run (dmaTxStep (.normal 16)) ErrAtBase ⟨.idle (.normal 16), 0⟩
        [.xmit (.plain 7 60 []) fun _ => 4096, .complete 0 ⟨⟨0, 0⟩, 4096, 0⟩, .txClean] d ∧
      ∃ f, Run (rxStep (.normal 16)) (WithinLap (.normal 16))
          (.opened (.normal 16) (fun i => some (.page i)) 1500 .blank)
          (.receive (.frame (.replicate 64 1)) :: .rx (fun n => some (.page (16 + n.toNat))) 1 ::
            .replicate 16 (.receive (.frame (.replicate 64 2)))) f ∧
        (d.pos = 1 ∧ f.pos = 1 ∧ ∀ i < 16, Conf.rxWaiting (.normal 16) (f.rx.ring i)) ∧
        SlotsInStep (.normal 16) (NicState.suspendResume (.normal 16) ⟨d, f⟩) ∧
        ∃ t p h e k q, PosInv (.normal 16) d.tx d.pos t p h ∧
          RxWindow (.normal 16) f.rx f.pos e k q ∧ p = h ∧ (q = k ∨ q = k + 16) := by
  have hsent : ∃ d, Run (dmaTxStep (.normal 16)) ErrAtBase ⟨.idle (.normal 16), 0⟩
      [.xmit (.plain 7 60 []) fun _ => 4096, .complete 0 ⟨⟨0, 0⟩, 4096, 0⟩, .txClean] d ∧
      d.pos = 1 ∧ d.pos = Conf.txEntry (.normal 16) d.tx.curTx := exec_reaches (by decide +kernel)
  have hfilled : ∃ f, Run (rxStep (.normal 16)) (WithinLap (.normal 16))
      (.opened (.normal 16) (fun i => some (.page i)) 1500 .blank)
      (.receive (.frame (.replicate 64 1)) :: .rx (fun n => some (.page (16 + n.toNat))) 1 ::
        .replicate 16 (.receive (.frame (.replicate 64 2)))) f ∧
      (f.pos = 1 ∧ f.pos = Conf.rxEntry (.normal 16) f.rx.curRx) ∧
        ∀ i < 16, Conf.rxWaiting (.normal 16) (f.rx.ring i) := exec_reaches (by decide +kernel)
  obtain ⟨d, run, hposTx, hentryTx⟩ := hsent
  obtain ⟨f, run', ⟨hposRx, hentryRx⟩, hwait⟩ := hfilled
  obtain ⟨t, p, h, inv⟩ := PosInv.run (c := .normal 16) (d := ⟨.idle (.normal 16), 0⟩)
    ndescOps_lawful ⟨4, rfl⟩ rfl rfl rfl (fun i _ => idle_owned 16 i) run
  obtain ⟨e, k, q, inv'⟩ := RxInv.run (c := .normal 16) (s := .blank) ndescOps_lawful ⟨4, rfl⟩
    (fun _ _ => rfl) rfl run'
  obtain ⟨hiff, hrunning⟩ := suspend_resume_in_step_iff (c := .normal 16) (s := ⟨d, f⟩)
    ndescOps_lawful (hposTx.trans_lt (by decide)) (hposRx.trans_lt (by decide))
  have hagree : PositionsAgree (.normal 16) ⟨d, f⟩ := ⟨hentryTx, hentryRx⟩
  exact ⟨d, run, f, run', ⟨hposTx, hposRx, hwait⟩, hiff.mpr hagree, t, p, h, e, k, q, inv,
    inv'.window, (hrunning t p h e k q ⟨4, rfl⟩ ⟨4, rfl⟩ inv inv'.window).mp hagree⟩

/-- With one frame not yet sent, the next goes to slot 1 while the DMA waits at slot 0. -/
theorem suspend_loses_queued_frame :
    ∃ d, Run (dmaTxStep (.normal 64)) ErrAtBase ⟨.idle (.normal 64), 0⟩
        [.xmit (.plain 7 60 []) fun _ => 4096] d ∧
      ¬ SlotsInStep (.normal 64)
        (({ NicState.opened (.normal 64) with tx := d }).suspendResume (.normal 64)) :=
  (exec_reaches (P := fun d => d.pos = 0 ∧ d.pos ≠ Conf.txEntry (.normal 64) d.tx.curTx)
      (by decide +kernel)).imp fun d ⟨run, hpos, hne⟩ => ⟨run, fun h => hne
    ((slotsInStep_suspendResume_iff (c := .normal 64)
      (s := { NicState.opened (.normal 64) with tx := d }) ndescOps_lawful
      (hpos ▸ (by decide : 0 < 64)) (by decide : 0 < 64)).mp h).1⟩

end Stmmac
