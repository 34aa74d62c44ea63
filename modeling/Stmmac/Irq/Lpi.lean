import Stmmac.Irq.Direct
import Stmmac.Library.History
import Stmmac.Mac.Regs
import Stmmac.Tx.Timers

/-!
# Low power idle interrupts

`dwmac1000_irq_status` of `dwmac1000_core.c` and `stmmac_interrupt`. The core reports the entry
and the exit of low power idle in bits 0 to 3 of `LPI_CTRL_STATUS`, which the first returns as
read; the second tests the value with flags of its own, one bit further up. The driver's
`tx_path_in_lpi_mode` then follows the transmitter only where the two happen to agree.
-/

namespace Stmmac

open Library

/-! ## Registers (`dwmac1000.h`) -/

namespace IntStatus

def lpiisIrq : BitVec 32 := 0x400
def mmcRxCsumOffloadIrq : BitVec 32 := 0x0080
def mmcTxIrq : BitVec 32 := 0x0040
def mmcRxIrq : BitVec 32 := 0x0020
def pmtIrq : BitVec 32 := 0x0008
def pcsAneIrq : BitVec 32 := 0x0004
def pcsLinkIrq : BitVec 32 := 0x0002
def rgmiiIrq : BitVec 32 := 0x0001

end IntStatus

namespace LpiCtrlStatus

def rlpiex : BitVec 32 := 0x00000008
def rlpien : BitVec 32 := 0x00000004
def tlpiex : BitVec 32 := 0x00000002
def tlpien : BitVec 32 := 0x00000001

end LpiCtrlStatus

def gmacSRGmiiLink : BitVec 32 := 0x8
def gmacSRGmiiSpeed : BitVec 32 := 0x5
def gmacSRGmiiSpeedShift : Nat := 1
def gmacSRGmiiMode : BitVec 32 := 0x1
def gmacSRGmiiSpeed125 : BitVec 32 := 2
def gmacSRGmiiSpeed25 : BitVec 32 := 1

/-! ## Flags of `common.h` -/

def coreIrqTxPathInLpiMode : BitVec 32 := 1 <<< 1
def coreIrqTxPathExitLpiMode : BitVec 32 := 1 <<< 2

/-- The fields of `struct stmmac_extra_stats` that `dwmac1000_irq_status` writes. -/
structure CoreStats where
  irqReceivePmtIrqN : Nat := 0
  mmcTxIrqN : Nat := 0
  mmcRxIrqN : Nat := 0
  mmcRxCsumOffloadIrqN : Nat := 0
  irqTxPathInLpiModeN : Nat := 0
  irqTxPathExitLpiModeN : Nat := 0
  irqRxPathInLpiModeN : Nat := 0
  irqRxPathExitLpiModeN : Nat := 0
  irqPcsAneN : Nat := 0
  irqRgmiiN : Nat := 0
  pcsLink : Nat := 0
  pcsDuplex : Nat := 0
  pcsSpeed : Nat := 0
  deriving DecidableEq, Repr

/-- The counters after the LPI events in a value of `LPI_CTRL_STATUS`. -/
def lpiStats (lpi : BitVec 32) (x : CoreStats) : CoreStats :=
  let x := if hasBit lpi LpiCtrlStatus.tlpien then
    { x with irqTxPathInLpiModeN := x.irqTxPathInLpiModeN + 1 } else x
  let x := if hasBit lpi LpiCtrlStatus.tlpiex then
    { x with irqTxPathExitLpiModeN := x.irqTxPathExitLpiModeN + 1 } else x
  let x := if hasBit lpi LpiCtrlStatus.rlpien then
    { x with irqRxPathInLpiModeN := x.irqRxPathInLpiModeN + 1 } else x
  if hasBit lpi LpiCtrlStatus.rlpiex then
    { x with irqRxPathExitLpiModeN := x.irqRxPathExitLpiModeN + 1 } else x

/-- The link status that an RGMII interrupt saves. -/
def rgmiiStats (status : BitVec 32) (x : CoreStats) : CoreStats :=
  if hasBit status gmacSRGmiiLink then
    let speedValue := (status &&& gmacSRGmiiSpeed) >>> gmacSRGmiiSpeedShift
    { x with
      pcsDuplex := (status &&& gmacSRGmiiMode).toNat
      pcsSpeed := if speedValue = gmacSRGmiiSpeed125 then 1000
        else if speedValue = gmacSRGmiiSpeed25 then 100 else 10
      pcsLink := 1 }
  else { x with pcsLink := 0 }

/-- The registers read once each; the value returned is `LPI_CTRL_STATUS` itself. -/
def dwmac1000IrqStatus (regs : Regs) (x : CoreStats) : CoreStats × BitVec 32 :=
  let intrStatus := readl regs gmacIntStatus
  let x := if hasBit intrStatus IntStatus.mmcTxIrq then
    { x with mmcTxIrqN := x.mmcTxIrqN + 1 } else x
  let x := if hasBit intrStatus IntStatus.mmcRxIrq then
    { x with mmcRxIrqN := x.mmcRxIrqN + 1 } else x
  let x := if hasBit intrStatus IntStatus.mmcRxCsumOffloadIrq then
    { x with mmcRxCsumOffloadIrqN := x.mmcRxCsumOffloadIrqN + 1 } else x
  let x := if hasBit intrStatus IntStatus.pmtIrq then
    { x with irqReceivePmtIrqN := x.irqReceivePmtIrqN + 1 } else x
  let (x, ret) := if hasBit intrStatus IntStatus.lpiisIrq then
      (lpiStats (readl regs lpiCtrlStatus) x, readl regs lpiCtrlStatus)
    else (x, 0)
  let x := if hasBit intrStatus IntStatus.pcsAneIrq || hasBit intrStatus IntStatus.pcsLinkIrq then
    { x with irqPcsAneN := x.irqPcsAneN + 1 } else x
  let x := if hasBit intrStatus IntStatus.rgmiiIrq then
    rgmiiStats (readl regs gmacSRGmii) { x with irqRgmiiN := x.irqRgmiiN + 1 } else x
  (x, ret)

structure MainIrq where
  direct : DirectIrq
  core : CoreStats

def MainIrq.txPathInLpiMode (s : MainIrq) : Bool := s.direct.tx.txPathInLpiMode

namespace HandlerPc

/-- The steps left until the handler returns. -/
def left : HandlerPc → Nat
  | idle => 0
  | acknowledge _ _ => 6
  | disableIrq _ => 5
  | txClean _ => 4
  | rx _ => 3
  | enableIrq _ => 2
  | errors _ => 1

/-- The handler is still to call `stmmac_tx_clean`. -/
def WillClean : HandlerPc → Bool
  | acknowledge _ ret => hasBit ret handleRx || hasBit ret handleTx
  | disableIrq _ | txClean _ => true
  | idle | rx _ | enableIrq _ | errors _ => false

end HandlerPc

/-- The interrupts pending make the handler call `stmmac_tx_clean`. -/
def DirectIrq.CleansTx (s : DirectIrq) : Bool :=
  let ret := (dwmacDmaInterrupt s.status s.intrEna s.xstats).2
  hasBit ret handleRx || hasBit ret handleTx

/-- `stmmac_direct_dma_interrupt` from its entry to its return. -/
def directDmaInterrupt (c : Conf) (alloc : BitVec 32 → RxBuf) (s : DirectIrq) : DirectIrq :=
  iterate (fun s => decide (s.pc ≠ .idle)) (stmmacDirectDmaInterrupt c alloc) 6
    (stmmacDirectDmaInterrupt c alloc s)

/-- The flag after `stmmac_interrupt` has looked at the value of `host_irq_status`. -/
def saveTxStatus (status : BitVec 32) (inLpi : Bool) : Bool :=
  let inLpi := if hasBit status coreIrqTxPathInLpiMode then true else inLpi
  if hasBit status coreIrqTxPathExitLpiMode then false else inLpi

def stmmacInterrupt (c : Conf) (hasGmac : Bool) (regs : Regs) (alloc : BitVec 32 → RxBuf)
    (s : MainIrq) : MainIrq :=
  let s := if hasGmac then
      let (core, status) := dwmac1000IrqStatus regs s.core
      let inLpi := if status ≠ 0 then saveTxStatus status s.txPathInLpiMode
        else s.txPathInLpiMode
      { core := core
        direct := { s.direct with tx := { s.direct.tx with txPathInLpiMode := inLpi } } }
    else s
  { s with direct := directDmaInterrupt c alloc s.direct }

/-- An interrupt finds any values in the registers. Between two interrupts the driver and the
device may do anything short of `stmmac_disable_eee_mode`. -/
inductive MainAct where
  | interrupt (regs : Regs) (alloc : BitVec 32 → RxBuf)
  | meanwhile (d : DirectIrq)

def mainStep (c : Conf) (s : MainIrq) : MainAct → MainIrq
  | .interrupt regs alloc => stmmacInterrupt c true regs alloc s
  | .meanwhile d =>
    { s with direct := { d with tx := { d.tx with txPathInLpiMode := s.txPathInLpiMode } } }

/-! ## The handler keeps the flag -/

section Keeps

variable (c : Conf) (alloc : BitVec 32 → RxBuf)

/-- Only the call of `stmmac_tx_clean` touches the timers. -/
theorem stmmacDirectDmaInterrupt_timers (s : DirectIrq) :
    (stmmacDirectDmaInterrupt c alloc s).tx.timers =
      match s.pc with
      | .txClean _ => s.tx.timers.afterClean
      | _ => s.tx.timers := by
  have herr : ∀ ret s, (stmmacDirectErrors c ret s).tx.timers = s.tx.timers := by
    intro ret s
    unfold stmmacDirectErrors
    split_ifs
    · rfl
    · rfl
    · exact stmmacTxErr_timers c s.tx
    · rfl
  obtain ⟨hw, tx, status, intrEna, xstats, tc, pc⟩ := s
  cases pc with
  | acknowledge intrStatus ret =>
    unfold stmmacDirectDmaInterrupt
    dsimp only
    split_ifs <;> rfl
  | txClean ret => exact stmmacTxClean_timers c tx
  | errors ret => exact herr ret _
  | idle | disableIrq _ | rx _ | enableIrq _ => rfl

theorem stmmacDirectDmaInterrupt_txPathInLpiMode (s : DirectIrq) :
    (stmmacDirectDmaInterrupt c alloc s).tx.txPathInLpiMode = s.tx.txPathInLpiMode := by
  have h := congrArg TxTimers.txPathInLpiMode (stmmacDirectDmaInterrupt_timers c alloc s)
  refine Eq.trans h ?_
  split <;> rfl

theorem directDmaInterrupt_txPathInLpiMode (s : DirectIrq) :
    (directDmaInterrupt c alloc s).tx.txPathInLpiMode = s.tx.txPathInLpiMode := by
  unfold directDmaInterrupt
  refine iterate_invariant
    (I := fun t : DirectIrq => t.tx.txPathInLpiMode = s.tx.txPathInLpiMode) ?_
    (stmmacDirectDmaInterrupt_txPathInLpiMode c alloc s)
  intro t ht _
  rw [stmmacDirectDmaInterrupt_txPathInLpiMode, ht]

/-- Each step of a running handler brings it nearer to its return. -/
theorem handler_step {s : DirectIrq} (hpc : s.pc ≠ .idle) :
    (stmmacDirectDmaInterrupt c alloc s).pc.left < s.pc.left ∧
      (if (stmmacDirectDmaInterrupt c alloc s).pc.WillClean
        then (stmmacDirectDmaInterrupt c alloc s).tx.timers.afterClean
        else (stmmacDirectDmaInterrupt c alloc s).tx.timers) =
        if s.pc.WillClean then s.tx.timers.afterClean else s.tx.timers := by
  have htimers := stmmacDirectDmaInterrupt_timers c alloc s
  obtain ⟨hw, tx, status, intrEna, xstats, tc, pc⟩ := s
  cases pc with
  | idle => exact absurd rfl hpc
  | acknowledge intrStatus ret =>
    rw [htimers]
    by_cases hret : (hasBit ret handleRx || hasBit ret handleTx) = true
    · have hnext : (stmmacDirectDmaInterrupt c alloc
          ⟨hw, tx, status, intrEna, xstats, tc, .acknowledge intrStatus ret⟩).pc =
          .disableIrq ret := by
        simp only [stmmacDirectDmaInterrupt, if_pos hret]
      rw [hnext]
      exact ⟨Nat.lt_succ_self _, by simp [HandlerPc.WillClean, hret]⟩
    · have hnext : (stmmacDirectDmaInterrupt c alloc
          ⟨hw, tx, status, intrEna, xstats, tc, .acknowledge intrStatus ret⟩).pc =
          .errors ret := by
        simp only [stmmacDirectDmaInterrupt, if_neg hret]
      rw [hnext]
      exact ⟨by simp [HandlerPc.left], by simp [HandlerPc.WillClean, hret]⟩
  | disableIrq ret | txClean ret | rx ret | enableIrq ret | errors ret =>
    rw [htimers]
    exact ⟨Nat.lt_succ_self _, rfl⟩

/-- From any step on, the handler returns, having called `stmmac_tx_clean` if it was to. -/
theorem iterate_handler : ∀ (n : Nat) (s : DirectIrq), s.pc.left ≤ n →
    let t := iterate (fun s => decide (s.pc ≠ .idle)) (stmmacDirectDmaInterrupt c alloc) n s
    t.pc = .idle ∧
      t.tx.timers = if s.pc.WillClean then s.tx.timers.afterClean else s.tx.timers
  | 0, s, hn => by
    have hidle : s.pc = .idle := by
      cases hpc : s.pc <;> simp [hpc, HandlerPc.left] at hn
      rfl
    simp [iterate, hidle, HandlerPc.WillClean]
  | n + 1, s, hn => by
    by_cases hidle : s.pc = .idle
    · simp [iterate, hidle, HandlerPc.WillClean]
    · obtain ⟨hlt, htimers⟩ := handler_step c alloc hidle
      rw [← htimers]
      unfold iterate
      rw [if_pos (by simpa using hidle)]
      exact iterate_handler n _ (by omega)

/-- Six further steps bring the handler back to where it started. -/
theorem directDmaInterrupt_idle {s : DirectIrq} (hpc : s.pc = .idle) :
    (directDmaInterrupt c alloc s).pc = .idle ∧
      (directDmaInterrupt c alloc s).tx.timers =
        if s.CleansTx then s.tx.timers.afterClean else s.tx.timers := by
  have hfirst : (stmmacDirectDmaInterrupt c alloc s).pc =
      .acknowledge s.status (dwmacDmaInterrupt s.status s.intrEna s.xstats).2 := by
    unfold stmmacDirectDmaInterrupt
    rw [hpc]
  have htimers := stmmacDirectDmaInterrupt_timers c alloc s
  rw [hpc] at htimers
  have h := iterate_handler c alloc 6 (stmmacDirectDmaInterrupt c alloc s)
    (by rw [hfirst]; exact Nat.le_refl 6)
  rw [hfirst, htimers] at h
  exact h

end Keeps

/-! ## The flag and the events -/

/-- The transmit event that an interrupt reports: entry, exit or none. -/
def txLpiEvent (regs : Regs) : Option Bool :=
  if hasBit (readl regs gmacIntStatus) IntStatus.lpiisIrq then
    if hasBit (readl regs lpiCtrlStatus) LpiCtrlStatus.tlpien then some true
    else if hasBit (readl regs lpiCtrlStatus) LpiCtrlStatus.tlpiex then some false
    else none
  else none

/-- Entry and exit of the transmitter are never reported together. -/
def ExclusiveEvents (regs : Regs) : Prop :=
  hasBit (readl regs gmacIntStatus) IntStatus.lpiisIrq →
    ¬ (hasBit (readl regs lpiCtrlStatus) LpiCtrlStatus.tlpien ∧
      hasBit (readl regs lpiCtrlStatus) LpiCtrlStatus.tlpiex)

/-- The driver, testing the exit of the transmitter and the entry of the receiver for the entry
and the exit of the transmitter, still ends with the right flag. -/
def ShiftedFlagsAgree (regs : Regs) (inLpi : Bool) : Prop :=
  hasBit (readl regs gmacIntStatus) IntStatus.lpiisIrq →
    let rlpien := hasBit (readl regs lpiCtrlStatus) LpiCtrlStatus.rlpien
    match txLpiEvent regs with
    | some true => inLpi = true ∧ rlpien = false
    | some false => rlpien = true
    | none => rlpien = true → inLpi = false

namespace MainAct

def txEvent : MainAct → Option Bool
  | interrupt regs _ => txLpiEvent regs
  | meanwhile _ => none

def Exclusive : MainAct → Prop
  | interrupt regs _ => ExclusiveEvents regs
  | meanwhile _ => True

def FlagsAgree (inLpi : Bool) : MainAct → Prop
  | interrupt regs _ => ShiftedFlagsAgree regs inLpi
  | meanwhile _ => True

end MainAct

variable {c : Conf} {regs : Regs} {alloc : BitVec 32 → RxBuf} {s : MainIrq} {a : MainAct}

theorem dwmac1000IrqStatus_snd (x : CoreStats) :
    (dwmac1000IrqStatus regs x).2 =
      if hasBit (readl regs gmacIntStatus) IntStatus.lpiisIrq then readl regs lpiCtrlStatus
      else 0 := by
  unfold dwmac1000IrqStatus
  dsimp only
  split_ifs <;> rfl

/-- The flag after the core's part of an interrupt. -/
def flagSaved (regs : Regs) (inLpi : Bool) : Bool :=
  if hasBit (readl regs gmacIntStatus) IntStatus.lpiisIrq then
    if hasBit (readl regs lpiCtrlStatus) LpiCtrlStatus.rlpien then false
    else hasBit (readl regs lpiCtrlStatus) LpiCtrlStatus.tlpiex || inLpi
  else inLpi

theorem flagSaved_eq (x : CoreStats) (inLpi : Bool) :
    (if (dwmac1000IrqStatus regs x).2 ≠ 0 then saveTxStatus (dwmac1000IrqStatus regs x).2 inLpi
      else inLpi) = flagSaved regs inLpi := by
  have hin : coreIrqTxPathInLpiMode = LpiCtrlStatus.tlpiex := by decide
  have hexit : coreIrqTxPathExitLpiMode = LpiCtrlStatus.rlpien := by decide
  rw [dwmac1000IrqStatus_snd]
  unfold saveTxStatus flagSaved
  rw [hin, hexit]
  by_cases hirq : hasBit (readl regs gmacIntStatus) IntStatus.lpiisIrq
  · rw [if_pos hirq, if_pos hirq]
    by_cases hzero : readl regs lpiCtrlStatus = 0
    · rw [hzero]
      simp [hasBit]
    · rw [if_pos hzero]
      dsimp only
      cases hasBit (readl regs lpiCtrlStatus) LpiCtrlStatus.rlpien
      · cases hasBit (readl regs lpiCtrlStatus) LpiCtrlStatus.tlpiex <;> rfl
      · rfl
  · simp [hirq]

/-- What an interrupt makes of the flag. -/
theorem stmmacInterrupt_txPathInLpiMode :
    (stmmacInterrupt c true regs alloc s).txPathInLpiMode =
      flagSaved regs s.txPathInLpiMode := by
  rw [← flagSaved_eq s.core]
  exact directDmaInterrupt_txPathInLpiMode c alloc _

/-- What an interrupt makes of the timers, the handler not running before. -/
theorem stmmacInterrupt_timers (hasGmac : Bool) (regs : Regs) (alloc : BitVec 32 → RxBuf)
    (hpc : s.direct.pc = .idle) :
    let t := { s.direct.tx.timers with
      txPathInLpiMode := if hasGmac then flagSaved regs s.txPathInLpiMode
        else s.txPathInLpiMode }
    (stmmacInterrupt c hasGmac regs alloc s).direct.pc = .idle ∧
      (stmmacInterrupt c hasGmac regs alloc s).direct.tx.timers =
        if s.direct.CleansTx then t.afterClean else t := by
  cases hasGmac with
  | false => exact directDmaInterrupt_idle c alloc hpc
  | true =>
    dsimp only
    rw [if_pos rfl, ← flagSaved_eq s.core]
    let tx := { s.direct.tx with
      txPathInLpiMode := if (dwmac1000IrqStatus regs s.core).2 ≠ 0
        then saveTxStatus (dwmac1000IrqStatus regs s.core).2 s.txPathInLpiMode
        else s.txPathInLpiMode }
    exact directDmaInterrupt_idle c alloc (s := { s.direct with tx := tx }) hpc

/-- One step is right exactly when the flags agree. -/
theorem mainStep_follows_iff (hexcl : a.Exclusive) :
    (mainStep c s a).txPathInLpiMode = a.txEvent.getD s.txPathInLpiMode ↔
      a.FlagsAgree s.txPathInLpiMode := by
  cases a with
  | meanwhile d => exact iff_of_true rfl trivial
  | interrupt regs alloc =>
    have hstep : (mainStep c s (.interrupt regs alloc)).txPathInLpiMode = _ :=
      stmmacInterrupt_txPathInLpiMode
    rw [hstep]
    simp only [MainAct.txEvent, MainAct.FlagsAgree, MainAct.Exclusive, ShiftedFlagsAgree,
      ExclusiveEvents, txLpiEvent, flagSaved] at hexcl ⊢
    generalize hasBit (readl regs gmacIntStatus) IntStatus.lpiisIrq = irq at hexcl ⊢
    generalize hasBit (readl regs lpiCtrlStatus) LpiCtrlStatus.tlpien = tlpien at hexcl ⊢
    generalize hasBit (readl regs lpiCtrlStatus) LpiCtrlStatus.tlpiex = tlpiex at hexcl ⊢
    generalize hasBit (readl regs lpiCtrlStatus) LpiCtrlStatus.rlpien = rlpien
    generalize s.txPathInLpiMode = inLpi
    cases irq
    · simp
    · cases tlpien <;> cases tlpiex <;> cases rlpien <;> simp_all

/-- The flag follows the transmitter through a whole history exactly when the flags agree at each
of its interrupts. -/
theorem lpi_follows_iff (c : Conf) (s : MainIrq) (as : List MainAct)
    (hexcl : ∀ a ∈ as, a.Exclusive) :
    (∀ bs, bs <+: as → (bs.foldl (mainStep c) s).txPathInLpiMode =
      (latest MainAct.txEvent bs).getD s.txPathInLpiMode) ↔
    ∀ bs a, bs ++ [a] <+: as → a.FlagsAgree (bs.foldl (mainStep c) s).txPathInLpiMode := by
  rw [foldl_latest_iff MainIrq.txPathInLpiMode]
  refine forall₃_congr fun bs a hpre => mainStep_follows_iff ?_
  exact hexcl a (hpre.subset (by simp))

/-- `GMAC_INT_STATUS` and `LPI_CTRL_STATUS`, the other registers being zero. -/
def lpiRegs (intrStatus lpi : BitVec 32) : Regs :=
  writel (writel (fun _ => 0) intrStatus gmacIntStatus) lpi lpiCtrlStatus

/-- The handler idle, the transmitter in low power mode or not. -/
def MainIrq.quiet (inLpi : Bool) : MainIrq where
  direct := .opened (.normal 64) (fun i => some (.page i)) 1500 .blank
    { TxState.idle (.normal 64) with txPathInLpiMode := inLpi }
  core := {}

/-- The transmitter leaves low power mode while the receiver enters it. -/
theorem lpi_follows_exit :
    let exit := MainAct.interrupt
      (lpiRegs IntStatus.lpiisIrq (LpiCtrlStatus.tlpiex ||| LpiCtrlStatus.rlpien))
      fun n => .page n.toNat
    ([exit].foldl (mainStep (.normal 64)) (.quiet true)).txPathInLpiMode =
      (latest MainAct.txEvent [exit]).getD true := by
  intro exit
  have hexcl : ∀ a ∈ [exit], a.Exclusive := by
    intro a ha
    obtain rfl : a = exit := List.mem_singleton.mp ha
    exact fun _ h => absurd h.1 (by decide)
  refine (lpi_follows_iff (.normal 64) (.quiet true) [exit] hexcl).mpr ?_ [exit] List.prefix_rfl
  intro bs a hpre
  obtain rfl : bs = [] := List.length_eq_zero_iff.mp (by simpa using hpre.length_le)
  obtain rfl : a = exit := by simpa using hpre
  exact fun _ => (by decide : hasBit (LpiCtrlStatus.tlpiex ||| LpiCtrlStatus.rlpien)
    LpiCtrlStatus.rlpien = true)

/-- The transmitter enters low power mode, and the driver does not notice. -/
theorem lpi_entry_missed :
    let entry := MainAct.interrupt (lpiRegs IntStatus.lpiisIrq LpiCtrlStatus.tlpien)
      fun n => .page n.toNat
    (∀ a ∈ [entry], a.Exclusive) ∧ latest MainAct.txEvent [entry] = some true ∧
      ([entry].foldl (mainStep (.normal 64)) (.quiet false)).txPathInLpiMode = false := by
  intro entry
  refine ⟨fun a ha => ?_, by decide, ?_⟩
  · obtain rfl : a = entry := List.mem_singleton.mp ha
    exact fun _ h => absurd h.2 (by decide)
  · rw [List.foldl_cons, List.foldl_nil]
    simp only [entry, mainStep]
    rw [stmmacInterrupt_txPathInLpiMode]
    rfl

end Stmmac
