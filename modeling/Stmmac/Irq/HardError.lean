import Mathlib.Logic.Function.Iterate
import Stmmac.Irq.Direct

/-!
# Recovery from hard transmit errors

What the two handlers of a DMA interrupt do on the value that `dma_interrupt` returned, as the
calls they make. The bits for reception and completion are added to that value, but it is compared
as a whole with `tx_hard_error`: a hard error is recovered from only if nothing else is reported
with it.
-/

namespace Stmmac

/-- The calls of the handlers after `dma_interrupt`; `bumpTc` is the branch that raises `tc`. -/
inductive IrqCall where
  | disableDmaIrq | txClean | rx | enableDmaIrq | napiSchedule | bumpTc | txErr
  deriving DecidableEq

/-- The end of both handlers. -/
def errorCalls (ret : BitVec 32) : List IrqCall :=
  if hasBit ret txHardErrorBumpTc then [.bumpTc]
  else if ret = txHardError then [.txErr]
  else []

/-- `stmmac_direct_dma_interrupt`. -/
def directCalls (ret : BitVec 32) : List IrqCall :=
  (if hasBit ret handleRx || hasBit ret handleTx then
      [.disableDmaIrq, .txClean, .rx, .enableDmaIrq]
    else []) ++ errorCalls ret

/-- `stmmac_dma_interrupt`; `prep` is what `napi_schedule_prep` returns. -/
def napiCalls (prep : Bool) (ret : BitVec 32) : List IrqCall :=
  (if hasBit ret handleRx || hasBit ret handleTx then
      if prep then [.disableDmaIrq, .napiSchedule] else []
    else []) ++ errorCalls ret

/-- The handler that is installed. -/
inductive DmaIrqHandler where
  | direct
  | napi (prep : Bool)

def DmaIrqHandler.calls : DmaIrqHandler → BitVec 32 → List IrqCall
  | direct => directCalls
  | napi prep => napiCalls prep

/-! ## Events of a status word -/

namespace DmaStatus

/-- The transmit process stopped, or a bus error was fatal. -/
def HardError (intrStatus : BitVec 32) : Prop :=
  hasBit intrStatus ais = true ∧ (hasBit intrStatus tps = true ∨ hasBit intrStatus fbi = true)

/-- A transmit underflow and no hard error. -/
def Underflow (intrStatus : BitVec 32) : Prop :=
  hasBit intrStatus ais = true ∧ hasBit intrStatus unf = true ∧
    hasBit intrStatus tps = false ∧ hasBit intrStatus fbi = false

/-- A reception that is enabled, or a completed transmission. -/
def Normal (intrStatus intrEna : BitVec 32) : Prop :=
  hasBit intrStatus nis = true ∧
    ((hasBit intrStatus ri = true ∧ hasBit intrEna DmaIntrEna.rie = true) ∨
      hasBit intrStatus ti = true)

end DmaStatus

/-- A hard error restarts the transmitter, an underflow takes the branch that raises `tc`. -/
structure HardErrorRecovered (intrStatus : BitVec 32) (calls : List IrqCall) : Prop where
  hardError : DmaStatus.HardError intrStatus → .txErr ∈ calls
  underflow : DmaStatus.Underflow intrStatus → .bumpTc ∈ calls

variable {intrStatus intrEna ret : BitVec 32} {x : IrqStats} {c : Conf}
  {alloc : BitVec 32 → RxBuf} {s : DirectIrq}

/-! ## The value that `dma_interrupt` returns -/

/-- The abnormal part of the value. -/
def abnormalRet (intrStatus : BitVec 32) : BitVec 32 :=
  if hasBit intrStatus DmaStatus.ais then
    if hasBit intrStatus DmaStatus.tps || hasBit intrStatus DmaStatus.fbi then txHardError
    else if hasBit intrStatus DmaStatus.unf then txHardErrorBumpTc else 0
  else 0

/-- The normal part of the value. -/
def normalRet (intrStatus intrEna : BitVec 32) : BitVec 32 :=
  if hasBit intrStatus DmaStatus.nis then
    (if hasBit intrStatus DmaStatus.ri && hasBit intrEna DmaIntrEna.rie then handleRx else 0) |||
      (if hasBit intrStatus DmaStatus.ti then handleTx else 0)
  else 0

theorem dwmacAbnormalIrq_ret : (dwmacAbnormalIrq intrStatus x).2 = abnormalRet intrStatus := by
  unfold dwmacAbnormalIrq abnormalRet
  cases hasBit intrStatus DmaStatus.ais
  · rfl
  · cases hasBit intrStatus DmaStatus.fbi
    · cases hasBit intrStatus DmaStatus.tps <;> rfl
    · cases hasBit intrStatus DmaStatus.tps <;> rfl

theorem dwmacDmaInterrupt_ret :
    (dwmacDmaInterrupt intrStatus intrEna x).2 =
      abnormalRet intrStatus ||| normalRet intrStatus intrEna := by
  rw [← dwmacAbnormalIrq_ret (x := x)]
  unfold dwmacDmaInterrupt normalRet
  cases hasBit intrStatus DmaStatus.nis
  · simp
  · cases hasBit intrStatus DmaStatus.ri && hasBit intrEna DmaIntrEna.rie <;>
      cases hasBit intrStatus DmaStatus.ti <;> simp [BitVec.or_assoc]

theorem abnormalRet_of_hardError (h : DmaStatus.HardError intrStatus) :
    abnormalRet intrStatus = txHardError := by
  obtain ⟨hais, hor⟩ := h
  simp [abnormalRet, hais, hor]

theorem abnormalRet_of_underflow (h : DmaStatus.Underflow intrStatus) :
    abnormalRet intrStatus = txHardErrorBumpTc := by
  obtain ⟨hais, hunf, htps, hfbi⟩ := h
  simp [abnormalRet, hais, hunf, htps, hfbi]

/-- The normal part is one of four values, and is zero without a normal event. -/
theorem normalRet_cases (intrStatus intrEna : BitVec 32) :
    (¬ DmaStatus.Normal intrStatus intrEna ∧ normalRet intrStatus intrEna = 0) ∨
      (DmaStatus.Normal intrStatus intrEna ∧
        (normalRet intrStatus intrEna = handleRx ∨ normalRet intrStatus intrEna = handleTx ∨
          normalRet intrStatus intrEna = handleRx ||| handleTx)) := by
  unfold normalRet DmaStatus.Normal
  cases hasBit intrStatus DmaStatus.nis
  · simp
  · cases hasBit intrStatus DmaStatus.ri <;> cases hasBit intrEna DmaIntrEna.rie <;>
      cases hasBit intrStatus DmaStatus.ti <;> simp

/-! ## The branch that the handlers take -/

/-- What comes before the end of a handler is not about errors. -/
theorem DmaIrqHandler.exists_calls_eq (handler : DmaIrqHandler) (ret : BitVec 32) :
    ∃ front, .bumpTc ∉ front ∧ .txErr ∉ front ∧ handler.calls ret = front ++ errorCalls ret := by
  cases handler with
  | direct => exact ⟨_, by split_ifs <;> decide, by split_ifs <;> decide, rfl⟩
  | napi prep => exact ⟨_, by split_ifs <;> decide, by split_ifs <;> decide, rfl⟩

/-- An underflow raises `tc` whatever is reported with it. -/
theorem bumpTc_mem_errorCalls (h : DmaStatus.Underflow intrStatus) :
    .bumpTc ∈ errorCalls (dwmacDmaInterrupt intrStatus intrEna x).2 := by
  rw [dwmacDmaInterrupt_ret, abnormalRet_of_underflow h]
  obtain ⟨-, he⟩ | ⟨-, he | he | he⟩ := normalRet_cases intrStatus intrEna <;>
    rw [he] <;> decide

/-- A hard error restarts the transmitter unless something normal is reported with it. -/
theorem txErr_mem_errorCalls_iff (h : DmaStatus.HardError intrStatus) :
    .txErr ∈ errorCalls (dwmacDmaInterrupt intrStatus intrEna x).2 ↔
      ¬ DmaStatus.Normal intrStatus intrEna := by
  rw [dwmacDmaInterrupt_ret, abnormalRet_of_hardError h]
  obtain ⟨hn, he⟩ | ⟨hn, he⟩ := normalRet_cases intrStatus intrEna
  · rw [he]
    exact iff_of_true (by decide) hn
  · refine iff_of_false ?_ (not_not_intro hn)
    obtain he | he | he := he <;> rw [he] <;> decide

/-- Both handlers recover from a hard error exactly when the status word reports no reception and
no completed transmission with it. -/
theorem hard_error_recovered_iff (handler : DmaIrqHandler) (intrStatus intrEna : BitVec 32)
    (x : IrqStats) :
    HardErrorRecovered intrStatus (handler.calls (dwmacDmaInterrupt intrStatus intrEna x).2) ↔
      ¬ (DmaStatus.HardError intrStatus ∧ DmaStatus.Normal intrStatus intrEna) := by
  obtain ⟨front, hbump, herr, hcalls⟩ :=
    handler.exists_calls_eq (dwmacDmaInterrupt intrStatus intrEna x).2
  rw [hcalls]
  refine ⟨fun hrec hboth => ?_, fun hnot => ⟨fun hhard => ?_, fun hunf => ?_⟩⟩
  · obtain ⟨hhard, hnormal⟩ := hboth
    have hmem := (List.mem_append.mp (hrec.hardError hhard)).resolve_left herr
    exact (txErr_mem_errorCalls_iff hhard).mp hmem hnormal
  · refine List.mem_append_right _ ((txErr_mem_errorCalls_iff hhard).mpr fun hnormal => ?_)
    exact hnot ⟨hhard, hnormal⟩
  · exact List.mem_append_right _ (bumpTc_mem_errorCalls hunf)

/-- A bus error and a completed transmission in one word: the transmitter is not restarted. -/
theorem hard_error_missed :
    let intrStatus := DmaStatus.ais ||| DmaStatus.fbi ||| DmaStatus.nis ||| DmaStatus.ti
    let ret := (dwmacDmaInterrupt intrStatus DmaIntrEna.defaultMask {}).2
    ¬ HardErrorRecovered intrStatus (DmaIrqHandler.direct.calls ret) ∧
      ¬ HardErrorRecovered intrStatus ((DmaIrqHandler.napi true).calls ret) :=
  ⟨fun h => absurd (h.hardError ⟨rfl, .inr rfl⟩) (by decide),
    fun h => absurd (h.hardError ⟨rfl, .inr rfl⟩) (by decide)⟩

/-! ## The calls as the steps of the handler -/

/-- The effect of a call of the direct path. -/
def DirectIrq.call (c : Conf) (alloc : BitVec 32 → RxBuf) (s : DirectIrq) : IrqCall → DirectIrq
  | .disableDmaIrq => { s with intrEna := 0 }
  | .txClean => { s with tx := stmmacTxClean c s.tx }
  | .rx =>
    { s with
      hw := { s.hw with rx := (stmmacRx c (fun n => some (alloc n)) s.hw.rx 64).1 } }
  | .enableDmaIrq => { s with intrEna := DmaIntrEna.defaultMask }
  | .napiSchedule => s
  | .bumpTc =>
    if s.tc ≠ sfDmaMode ∧ s.tc ≤ 256 then
      { s with tc := s.tc + 64, xstats := { s.xstats with threshold := s.tc + 64 } }
    else s
  | .txErr => { s with tx := stmmacTxErr c s.tx }

theorem foldl_errorCalls : (errorCalls ret).foldl (DirectIrq.call c alloc) s =
    stmmacDirectErrors c ret s := by
  unfold errorCalls stmmacDirectErrors
  split_ifs <;> simp_all [DirectIrq.call]

/-- The last step of the handler, which does not look at the program counter. -/
theorem stmmacDirectDmaInterrupt_errors {t : DirectIrq} (h : s = { t with pc := .errors ret }) :
    stmmacDirectDmaInterrupt c alloc s =
      { (errorCalls ret).foldl (DirectIrq.call c alloc) t with pc := .idle } := by
  subst h
  rw [foldl_errorCalls]
  simp only [stmmacDirectDmaInterrupt]
  unfold stmmacDirectErrors
  split_ifs <;> rfl

/-- A run of the handler that nothing interrupts makes these calls after `dma_interrupt`. -/
theorem exists_iterate_stmmacDirectDmaInterrupt (hpc : s.pc = .idle) :
    let r := dwmacDmaInterrupt s.status s.intrEna s.xstats
    ∃ n, (stmmacDirectDmaInterrupt c alloc)^[n] s =
      { (directCalls r.2).foldl (DirectIrq.call c alloc)
          { s with xstats := r.1, status := dwmacAckStatus s.status s.status } with
        pc := .idle } := by
  intro r
  have hstart : stmmacDirectDmaInterrupt c alloc s =
      { s with xstats := r.1, pc := .acknowledge s.status r.2 } := by
    unfold stmmacDirectDmaInterrupt
    rw [hpc]
  unfold directCalls
  by_cases hret : (hasBit r.2 handleRx || hasBit r.2 handleTx) = true
  · refine ⟨7, ?_⟩
    rw [Function.iterate_succ_apply, hstart, if_pos hret, List.foldl_append,
      Function.iterate_succ_apply']
    refine stmmacDirectDmaInterrupt_errors ?_
    simp [stmmacDirectDmaInterrupt, hret, DirectIrq.call]
  · refine ⟨3, ?_⟩
    rw [Function.iterate_succ_apply, hstart, if_neg hret, List.nil_append,
      Function.iterate_succ_apply']
    refine stmmacDirectDmaInterrupt_errors ?_
    simp [stmmacDirectDmaInterrupt, hret]

end Stmmac
