import Mathlib.Order.Interval.Finset.Nat
import Stmmac.Dma.Control
import Stmmac.Rx.InStep
import Stmmac.Tx.Step

/-!
# The direct interrupt path

`stmmac_direct_dma_interrupt` as a machine that can be interrupted by receptions between its steps.
It acknowledges the interrupt first, so a frame that arrives later raises a new one; the frames
that were there are consumed with a budget of 64 and the number consumed is not looked at. Nothing
is left behind as long as the budget covers what waits.
-/

namespace Stmmac

open Library

/-- The next step of the handler, with the value that `dma_interrupt` returned. -/
inductive HandlerPc where
  | idle
  | acknowledge (intrStatus ret : BitVec 32)
  | disableIrq (ret : BitVec 32)
  | txClean (ret : BitVec 32)
  | rx (ret : BitVec 32)
  | enableIrq (ret : BitVec 32)
  | errors (ret : BitVec 32)
  deriving DecidableEq

structure DirectIrq where
  hw : RxHw
  tx : TxState
  status : BitVec 32
  intrEna : BitVec 32
  xstats : IrqStats
  tc : Int
  pc : HandlerPc

/-- The end of the handler: the threshold is raised, or the transmitter restarted. -/
def stmmacDirectErrors (c : Conf) (ret : BitVec 32) (s : DirectIrq) : DirectIrq :=
  if hasBit ret txHardErrorBumpTc then
    if s.tc ≠ sfDmaMode ∧ s.tc ≤ 256 then
      { s with tc := s.tc + 64, xstats := { s.xstats with threshold := s.tc + 64 } }
    else s
  else if ret = txHardError then { s with tx := stmmacTxErr c s.tx }
  else s

/-- One step of `stmmac_direct_dma_interrupt`; `alloc` is that of the refill. -/
def stmmacDirectDmaInterrupt (c : Conf) (alloc : BitVec 32 → RxBuf) (s : DirectIrq) : DirectIrq :=
  match s.pc with
  | .idle =>
    let (xstats, ret) := dwmacDmaInterrupt s.status s.intrEna s.xstats
    { s with xstats := xstats, pc := .acknowledge s.status ret }
  | .acknowledge intrStatus ret =>
    let s := { s with status := dwmacAckStatus s.status intrStatus }
    if hasBit ret handleRx || hasBit ret handleTx then { s with pc := .disableIrq ret }
    else { s with pc := .errors ret }
  | .disableIrq ret => { s with intrEna := 0, pc := .txClean ret }
  | .txClean ret => { s with tx := stmmacTxClean c s.tx, pc := .rx ret }
  | .rx ret =>
    { s with
      hw := { s.hw with rx := (stmmacRx c (fun n => some (alloc n)) s.hw.rx 64).1 }
      pc := .enableIrq ret }
  | .enableIrq ret => { s with intrEna := DmaIntrEna.defaultMask, pc := .errors ret }
  | .errors ret => { stmmacDirectErrors c ret s with pc := .idle }

inductive IrqAct where
  | receive (w : RxWrite)
  | handler (alloc : BitVec 32 → RxBuf)

/-- A reception sets `NIS` and `RI`. No step is taken once the kernel has stopped. -/
def directStep (c : Conf) (s : DirectIrq) : IrqAct → Option DirectIrq
  | .receive w =>
    (rxStep c s.hw (.receive w)).map fun hw =>
      { s with hw := hw, status := s.status ||| DmaStatus.received }
  | .handler alloc =>
    if s.hw.rx.halted then none else some (stmmacDirectDmaInterrupt c alloc s)

/-- The descriptors that the DMA does not own. -/
def completed (c : Conf) (s : RxState) : Finset Nat :=
  (Finset.range c.dmaRxSize.toNat).filter fun i => c.rxOwned (s.ring i) = false

/-- At the call of `stmmac_rx` no more than 64 descriptors are completed, and not all of them on a
ring smaller than that. -/
def BudgetCovers (c : Conf) (s : RxState) : HandlerPc → Prop
  | .rx _ => (completed c s).card ≤ 64 ∧
      ((completed c s).card < c.dmaRxSize.toNat ∨ 64 ≤ c.dmaRxSize.toNat)
  | .idle | .acknowledge _ _ | .disableIrq _ | .txClean _ | .enableIrq _ | .errors _ => True

def WithinBudget (c : Conf) (s : DirectIrq) : IrqAct → Prop
  | .receive _ => True
  | .handler _ => BudgetCovers c s.hw.rx s.pc

instance (c : Conf) (s : RxState) : ∀ pc, Decidable (BudgetCovers c s pc)
  | .rx _ => inferInstanceAs (Decidable (_ ≤ 64 ∧ (_ < _ ∨ 64 ≤ _)))
  | .idle | .acknowledge _ _ | .disableIrq _ | .txClean _ | .enableIrq _ | .errors _ =>
    inferInstanceAs (Decidable True)

instance (c : Conf) (s : DirectIrq) : ∀ a, Decidable (WithinBudget c s a)
  | .receive _ => inferInstanceAs (Decidable True)
  | .handler _ => inferInstanceAs (Decidable (BudgetCovers c s.hw.rx s.pc))

/-- Every frame received has been consumed and its descriptor given back. -/
structure AllConsumed (c : Conf) (s : RxHw) : Prop where
  examined : examined s.rx.trace = s.received.map fun r => (r.1, r.2.desc)
  owned : ∀ i < c.dmaRxSize.toNat, c.rxOwned (s.rx.ring i) = true

namespace HandlerPc

/-- The handler has acknowledged a reception and not yet called `stmmac_rx`. -/
def Committed : HandlerPc → Prop
  | disableIrq _ | txClean _ | rx _ => True
  | idle | acknowledge _ _ | enableIrq _ | errors _ => False

/-- Interrupts are disabled. -/
def Masked : HandlerPc → Prop
  | txClean _ | rx _ | enableIrq _ => True
  | idle | acknowledge _ _ | disableIrq _ | errors _ => False

end HandlerPc

/-- While frames wait, a reception is pending or the handler is about to call `stmmac_rx`. -/
structure IrqInv (c : Conf) (s : DirectIrq) (k p : Nat) : Prop where
  rx : RxInv c s.hw.rx s.hw.pos s.hw.received k k p
  status : s.status = 0 ∨ s.status = DmaStatus.received
  enabled : ¬ s.pc.Masked → s.intrEna = DmaIntrEna.defaultMask
  read : ∀ intrStatus ret, s.pc = .acknowledge intrStatus ret →
    intrStatus = 0 ∧ ret = 0 ∨ intrStatus = DmaStatus.received ∧ ret = handleRx
  pending : k < p → s.status = DmaStatus.received ∨ s.pc.Committed

/-- The device at the first slot, the handler not running. -/
def DirectIrq.opened (c : Conf) (alloc : Nat → Option RxBuf) (mtu : BitVec 32) (s : RxState)
    (tx : TxState) : DirectIrq where
  hw := .opened c alloc mtu s
  tx := tx
  status := 0
  intrEna := DmaIntrEna.defaultMask
  xstats := {}
  tc := 64
  pc := .idle

variable {c : Conf} {s s' : DirectIrq} {r : RxState} {a : IrqAct} {pos k p : Nat}

/-! ## The budget -/

theorem le_completed_card (w : RxWindow c r pos k k p) : p - k ≤ (completed c r).card := by
  have hN := w.lt
  rw [← Nat.card_Ico]
  refine Finset.card_le_card_of_injOn (· % c.dmaRxSize.toNat) (fun j hj => ?_) ?_
  · obtain ⟨hj, hj'⟩ := Finset.mem_Ico.mp hj
    have hpos : 0 < c.dmaRxSize.toNat := by omega
    exact Finset.mem_filter.mpr
      ⟨Finset.mem_range.mpr (Nat.mod_lt j hpos), w.taken j hj hj'⟩
  · intro i hi j hj he
    obtain ⟨hi, hi'⟩ := Finset.mem_Ico.mp hi
    obtain ⟨hj, hj'⟩ := Finset.mem_Ico.mp hj
    by_contra hne
    exact Ring.mod_ne_of_window k (by omega) he

/-- With fewer completed than there are slots, one is left to the DMA. -/
theorem exists_owned (h : (completed c r).card < c.dmaRxSize.toNat) :
    ∃ i < c.dmaRxSize.toNat, c.rxOwned (r.ring i) = true := by
  by_contra hnone
  have hall : completed c r = Finset.range c.dmaRxSize.toNat := by
    refine Finset.filter_true_of_mem fun i hi => ?_
    by_contra hown
    exact hnone ⟨i, Finset.mem_range.mp hi, by simpa using hown⟩
  rw [hall, Finset.card_range] at h
  exact Nat.lt_irrefl _ h

theorem roundsFit_of_budget (w : RxWindow c r pos k k p)
    (h : (completed c r).card < c.dmaRxSize.toNat ∨ 64 ≤ c.dmaRxSize.toNat) :
    RoundsFit c r 64 := by
  refine h.imp exists_owned fun hsize => ?_
  rw [w.toNat_sub]
  omega

/-! ## What each step keeps -/

theorem stmmacDirectErrors_hw (ret : BitVec 32) : (stmmacDirectErrors c ret s).hw = s.hw := by
  unfold stmmacDirectErrors
  split_ifs <;> rfl

theorem stmmacDirectErrors_status (ret : BitVec 32) :
    (stmmacDirectErrors c ret s).status = s.status := by
  unfold stmmacDirectErrors
  split_ifs <;> rfl

theorem stmmacDirectErrors_intrEna (ret : BitVec 32) :
    (stmmacDirectErrors c ret s).intrEna = s.intrEna := by
  unfold stmmacDirectErrors
  split_ifs <;> rfl

namespace IrqInv

theorem receive (hp : IsPow2 c.dmaRxSize) {w : RxWrite} (inv : IrqInv c s k p)
    (hs : directStep c s (.receive w) = some s') : IrqInv c s' k (p + 1) := by
  obtain ⟨hw, hstep, rfl⟩ := Option.map_eq_some_iff.mp hs
  have hrx : rxReceive c s.hw w = some hw := by
    unfold rxStep at hstep
    split at hstep
    · cases hstep
    · exact hstep
  have hstatus : s.status ||| DmaStatus.received = DmaStatus.received := by
    rcases inv.status with h | h <;> rw [h] <;> rfl
  exact
    { rx := inv.rx.receive hp hrx
      status := .inr hstatus
      enabled := inv.enabled
      read := inv.read
      pending := fun _ => .inl hstatus }

/-- The call of `stmmac_rx` leaves nothing waiting, unless the kernel stops in it. -/
theorem drain (ops : c.desc.Lawful) (hp : IsPow2 c.dmaRxSize) {alloc : BitVec 32 → RxBuf}
    {ret : BitVec 32} (inv : IrqInv c s k p) (hpc : s.pc = .rx ret)
    (hcard : (completed c s.hw.rx).card ≤ 64)
    (hsize : (completed c s.hw.rx).card < c.dmaRxSize.toNat ∨ 64 ≤ c.dmaRxSize.toNat) :
    (stmmacDirectDmaInterrupt c alloc s).hw.rx.halted = true ∨
      IrqInv c (stmmacDirectDmaInterrupt c alloc s) p p := by
  have w := inv.rx.window
  have hstep : stmmacDirectDmaInterrupt c alloc s =
      { s with
        hw := { s.hw with rx := (stmmacRx c (fun n => some (alloc n)) s.hw.rx 64).1 }
        pc := .enableIrq ret } := by
    unfold stmmacDirectDmaInterrupt
    rw [hpc]
  rw [hstep]
  have hfit : RoundsFit c s.hw.rx (64 : BitVec 32).toNat := roundsFit_of_budget w hsize
  rcases inv.rx.stmmacRx_all ops hp alloc hfit with hhalt | ⟨k', hrx, hend⟩
  · exact .inl hhalt
  · have hwait := le_completed_card w
    have hle' := hrx.window.le'
    obtain rfl : k' = p := by
      rcases hend with h | h
      · exact h
      · have : (64 : BitVec 32).toNat = 64 := rfl
        omega
    exact .inr
      { rx := hrx
        status := inv.status
        enabled := fun h => absurd trivial h
        read := fun _ _ h => by cases h
        pending := fun h => absurd h (Nat.lt_irrefl _) }

/-- The steps that do not touch the receive ring. -/
theorem handler {alloc : BitVec 32 → RxBuf} (inv : IrqInv c s k p)
    (hpc : ∀ ret, s.pc ≠ .rx ret) : IrqInv c (stmmacDirectDmaInterrupt c alloc s) k p := by
  obtain ⟨hrx, hstatus, hena, hread, hpend⟩ := inv
  obtain ⟨hw, tx, status, intrEna, xstats, tc, pc⟩ := s
  cases pc with
  | idle =>
    refine ⟨hrx, hstatus, fun _ => hena id, fun intr ret he => ?_, fun hlt => .inl ?_⟩
    · obtain ⟨rfl, rfl⟩ : status = intr ∧ (dwmacDmaInterrupt status intrEna xstats).2 = ret := by
        simpa [stmmacDirectDmaInterrupt] using he
      obtain rfl : intrEna = DmaIntrEna.defaultMask := hena id
      rcases hstatus with rfl | rfl
      · exact .inl ⟨rfl, dwmacDmaInterrupt_zero _ _⟩
      · exact .inr ⟨rfl, dwmacDmaInterrupt_received _⟩
    · exact (hpend hlt).resolve_right id
  | acknowledge intr ret =>
    obtain ⟨rfl, rfl⟩ | ⟨rfl, rfl⟩ := hread intr ret rfl
    · -- nothing was read, nothing is acknowledged
      have hack : dwmacAckStatus status 0 = status := by
        rcases hstatus with rfl | rfl <;> rfl
      exact ⟨hrx, hstatus.imp hack.trans hack.trans, fun _ => hena id,
        (fun _ _ h => by cases h), fun hlt => .inl (hack.trans ((hpend hlt).resolve_right id))⟩
    · have hack : dwmacAckStatus status DmaStatus.received = 0 := by
        rcases hstatus with rfl | rfl <;> rfl
      exact ⟨hrx, .inl hack, fun _ => hena id, (fun _ _ h => by cases h), fun _ => .inr trivial⟩
  | disableIrq ret =>
    exact ⟨hrx, hstatus, fun h => absurd trivial h, (fun _ _ h => by cases h),
      fun _ => .inr trivial⟩
  | txClean ret =>
    exact ⟨hrx, hstatus, fun h => absurd trivial h, (fun _ _ h => by cases h),
      fun _ => .inr trivial⟩
  | rx ret => exact absurd rfl (hpc ret)
  | enableIrq ret =>
    exact ⟨hrx, hstatus, fun _ => rfl, (fun _ _ h => by cases h),
      fun hlt => .inl ((hpend hlt).resolve_right id)⟩
  | errors ret =>
    refine ⟨?_, ?_, fun _ => ?_, (fun _ _ h => by cases h), fun hlt => .inl ?_⟩
    · simpa [stmmacDirectDmaInterrupt, stmmacDirectErrors_hw] using hrx
    · simpa [stmmacDirectDmaInterrupt, stmmacDirectErrors_status] using hstatus
    · simpa [stmmacDirectDmaInterrupt, stmmacDirectErrors_intrEna] using hena id
    · simpa [stmmacDirectDmaInterrupt, stmmacDirectErrors_status] using
        (hpend hlt).resolve_right id

theorem step (ops : c.desc.Lawful) (hp : IsPow2 c.dmaRxSize) (inv : IrqInv c s k p)
    (hok : WithinBudget c s a) (hs : directStep c s a = some s') :
    s'.hw.rx.halted = true ∧ s'.pc ≠ .idle ∨ ∃ k' p', IrqInv c s' k' p' := by
  cases a with
  | receive w => exact .inr ⟨k, p + 1, inv.receive hp hs⟩
  | handler alloc =>
    simp only [directStep] at hs
    split at hs
    · cases hs
    obtain rfl := Option.some.inj hs
    cases hpc : s.pc with
    | rx ret =>
      simp only [WithinBudget, BudgetCovers, hpc] at hok
      refine (inv.drain ops hp hpc hok.1 hok.2).imp (fun h => ⟨h, ?_⟩) fun h => ⟨p, p, h⟩
      simp [stmmacDirectDmaInterrupt, hpc]
    | idle | acknowledge _ _ | disableIrq _ | txClean _ | enableIrq _ | errors _ =>
      exact .inr ⟨k, p, inv.handler fun ret => by simp [hpc]⟩

/-- With no handler running and no reception pending, nothing waits. -/
theorem allConsumed (inv : IrqInv c s k p) (hpc : s.pc = .idle)
    (hri : s.status &&& DmaStatus.ri = 0) : AllConsumed c s.hw := by
  have hlen := inv.rx.length
  have hle' := inv.rx.window.le'
  obtain rfl : k = p := by
    by_contra hne
    rcases inv.pending (by omega) with hst | hcom
    · rw [hst] at hri
      cases hri
    · rw [hpc] at hcom
      exact hcom
  refine ⟨?_, fun i hi => ?_⟩
  · rw [inv.rx.examined, ← hlen, List.take_length]
  · obtain ⟨j, hj, hj', rfl⟩ := Ring.exists_mod_eq k hi
    exact inv.rx.window.owned j hj hj'

end IrqInv

/-- No frame is left behind in any run in which the budget of `stmmac_rx` covers what waits. -/
theorem no_frame_stranded {alloc : Nat → Option RxBuf} {mtu : BitVec 32} {r : RxState}
    {tx : TxState} {as : List IrqAct} (ops : c.desc.Lawful) (hp : IsPow2 c.dmaRxSize)
    (halloc : ∀ i < c.dmaRxSize.toNat, (alloc i).isSome = true) (htrace : r.trace = [])
    (run : Run (directStep c) (WithinBudget c) (.opened c alloc mtu r tx) as s)
    (hpc : s.pc = .idle) (hri : s.status &&& DmaStatus.ri = 0) : AllConsumed c s.hw := by
  have hinit : IrqInv c (.opened c alloc mtu r tx) 0 0 :=
    { rx := .opened ops hp halloc htrace
      status := .inl rfl
      enabled := fun _ => rfl
      read := fun _ _ h => by cases h
      pending := fun h => absurd h (Nat.lt_irrefl 0) }
  have hend := run.invariant
    (I := fun s => s.hw.rx.halted = true ∧ s.pc ≠ .idle ∨ ∃ k p, IrqInv c s k p)
    (fun {s s' a} h hok hs => by
      rcases h with ⟨hhalt, -⟩ | ⟨k, p, inv⟩
      · -- no step is taken once the kernel has stopped
        cases a <;> simp [directStep, rxStep, hhalt] at hs
      · exact inv.step ops hp hok hs) (.inr ⟨0, 0, hinit⟩)
  rcases hend with ⟨-, hne⟩ | ⟨k, p, inv⟩
  · exact absurd hpc hne
  · exact inv.allConsumed hpc hri

/-- One frame before the handler, another after it has acknowledged the first. -/
theorem no_frame_stranded_two_frames :
    ∃ s, Run (directStep (.normal 64)) (WithinBudget (.normal 64))
        (.opened (.normal 64) (fun i => some (.page i)) 1500 .blank (.idle (.normal 64)))
        ([.receive (.frame (.replicate 64 1))] ++
          .replicate 2 (.handler fun n => .page (64 + n.toNat)) ++
          [.receive (.frame (.replicate 64 2))] ++
          .replicate 12 (.handler fun n => .page (64 + n.toNat))) s ∧
      AllConsumed (.normal 64) s.hw := by
  have hreach : ∃ s, Run (directStep (.normal 64)) (WithinBudget (.normal 64))
      (.opened (.normal 64) (fun i => some (.page i)) 1500 .blank (.idle (.normal 64)))
      ([.receive (.frame (.replicate 64 1))] ++
        .replicate 2 (.handler fun n => .page (64 + n.toNat)) ++
        [.receive (.frame (.replicate 64 2))] ++
        .replicate 12 (.handler fun n => .page (64 + n.toNat))) s ∧
      s.pc = .idle ∧ s.status &&& DmaStatus.ri = 0 := exec_reaches (by decide +kernel)
  obtain ⟨s, run, hpc, hri⟩ := hreach
  exact ⟨s, run, no_frame_stranded (c := .normal 64) ndescOps_lawful ⟨6, rfl⟩ (fun _ _ => rfl) rfl
    run hpc hri⟩

/-- A burst of 65 frames, all there when the handler starts: the last one is left in its slot. -/
theorem frame_stranded :
    ∃ s, Run (directStep (.normal 128)) (fun _ _ => True)
        (.opened (.normal 128) (fun i => some (.page i)) 1500 .blank (.idle (.normal 128)))
        (.replicate 65 (.receive (.frame (.replicate 64 1))) ++
          .replicate 7 (.handler fun n => .page (128 + n.toNat))) s ∧
      s.pc = .idle ∧ s.status &&& DmaStatus.ri = 0 ∧ ¬ AllConsumed (.normal 128) s.hw := by
  have hreach : ∃ s, Run (directStep (.normal 128)) (fun _ _ => True)
      (.opened (.normal 128) (fun i => some (.page i)) 1500 .blank (.idle (.normal 128)))
      (.replicate 65 (.receive (.frame (.replicate 64 1))) ++
        .replicate 7 (.handler fun n => .page (128 + n.toNat))) s ∧
      s.pc = .idle ∧ s.status &&& DmaStatus.ri = 0 ∧
      (Conf.normal 128).rxOwned (s.hw.rx.ring 64) = false := exec_reaches (by decide +kernel)
  obtain ⟨s, run, hpc, hri, hown⟩ := hreach
  refine ⟨s, run, hpc, hri, fun h => ?_⟩
  rw [h.owned 64 (by decide)] at hown
  cases hown

end Stmmac
