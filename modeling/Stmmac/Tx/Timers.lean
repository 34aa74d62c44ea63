import Stmmac.Tx.Clean

/-!
# Transmit side: timers

The two timers of the driver and the flags that decide about `eee_ctrl_timer`, apart from the
ring. Reclaiming ends by arming `eee_ctrl_timer` for a link that may enter low power mode; nothing
else in it, and nothing in the error recovery, touches them.
-/

namespace Stmmac

open Library

structure TxTimers where
  txtimer : Bool
  txPathInLpiMode : Bool
  eeeEnabled : Bool
  eeeCtrlTimer : Bool
  deriving DecidableEq, Repr

def TxState.timers (s : TxState) : TxTimers :=
  ⟨s.txtimer, s.txPathInLpiMode, s.eeeEnabled, s.eeeCtrlTimer⟩

/-- `stmmac_tx_clean` arms `eee_ctrl_timer`. -/
def TxTimers.CleanArms (t : TxTimers) : Bool := t.eeeEnabled && !t.txPathInLpiMode

def TxTimers.afterClean (t : TxTimers) : TxTimers :=
  { t with eeeCtrlTimer := t.eeeCtrlTimer || t.CleanArms }

variable (c : Conf) (s : TxState)

theorem txCleanBody_timers : (txCleanBody c s).timers = s.timers := by
  unfold txCleanBody stmmacGetTxHwtstamp
  dsimp only
  split_ifs <;> repeat (first | rfl | split)

theorem txCleanTail_timers : (txCleanTail c s).timers = s.timers.afterClean := by
  unfold txCleanTail stmmacEnableEeeMode TxTimers.afterClean TxTimers.CleanArms
  cases harm : s.eeeEnabled && !s.txPathInLpiMode
  · dsimp only [TxState.timers]
    split_ifs <;> simp_all
  · dsimp only [TxState.timers]
    split_ifs <;> simp_all [TxState.call]

theorem stmmacTxClean_timers : (stmmacTxClean c s).timers = s.timers.afterClean := by
  unfold stmmacTxClean
  rw [txCleanTail_timers]
  congr 1
  refine iterate_invariant (I := fun t : TxState => t.timers = s.timers) (fun {t} ht _ => ?_) rfl
  rw [txCleanBody_timers, ht]

theorem dmaFreeTxSkbufs_timers : (dmaFreeTxSkbufs c s).timers = s.timers := by
  unfold dmaFreeTxSkbufs
  induction List.range c.dmaTxSize.toNat generalizing s with
  | nil => rfl
  | cons i is ih =>
    rw [List.foldl_cons, ih]
    unfold freeTxSkbuf
    dsimp only
    split
    · rfl
    · split_ifs <;> rfl

theorem stmmacTxErr_timers : (stmmacTxErr c s).timers = s.timers :=
  dmaFreeTxSkbufs_timers c (TxState.call { s with queueStopped := true } .stopTx)

end Stmmac
