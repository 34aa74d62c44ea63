import Stmmac.Net.Open
import Stmmac.Rx.Receive
import Stmmac.Tx.Clean
import Stmmac.Tx.Xmit

/-!
# Uses of the tables

Which functions of the tables the data path calls, function by function, along the same branches
and loops as the functions themselves. Only `clean_desc3` and `refill_desc3` are called through
`hw->ring` without a look at the mode, and only `stmmac_hwtstamp_ioctl` calls through `hw->ptp`.
-/

namespace Stmmac

open Library

variable (c : Conf)

/-! ## Transmit side -/

def getTxHwtstampUses (p : TxSlot) : List OpsUse :=
  if c.hwtsTxEn then
    match p.skb with
    | none => []
    | some skb =>
      if skb.inProgress then
        .desc .getTxTimestampStatus ::
          if c.stampRing && c.desc.getTxTimestampStatus p.desc.des01 then [.desc .getTimestamp]
          else []
      else []
  else []

/-- One round of the loop of `stmmac_tx_clean`. -/
def txCleanBodyUses (s : TxState) : List OpsUse :=
  let p := s.ring (c.txEntry s.dirtyTx)
  [.desc .getTxOwner, .desc .getTxLs] ++
    (if c.desc.getTxLs p.desc.des01 then .desc .txStatus :: getTxHwtstampUses c p else []) ++
    (if p.dma ≠ 0 then [.desc .getTxLen] else []) ++
    [.ring .cleanDesc3, .desc .releaseTxDesc]

/-- The look at a descriptor the DMA still owns, and the end of `stmmac_tx_clean`. -/
def txCleanTailUses (s : TxState) : List OpsUse :=
  (if s.dirtyTx ≠ s.curTx then [.desc .getTxOwner] else []) ++
    if s.eeeEnabled && !s.txPathInLpiMode && s.dirtyTx == s.curTx then [.mac .setEeeMode] else []

def stmmacTxCleanUses (s : TxState) : List OpsUse :=
  iterateLog (txCleanGuard c) (txCleanBody c) (txCleanBodyUses c) s.inFlight s ++
    txCleanTailUses (iterate (txCleanGuard c) (txCleanBody c) s.inFlight s)

/-- By `is_jumbo_frm`, and by `jumbo_frm` for a jumbo frame. -/
def jumboUses (jumbo : Bool) : List OpsUse :=
  match c.mode with
  | .ring => .ring .isJumboFrm :: if jumbo then [.ring .jumboFrm] else []
  | .chain => .chain .isJumboFrm :: if jumbo then [.chain .jumboFrm] else []

def coalesceUses (s : TxState) (n : BitVec 32) : List OpsUse :=
  if c.txCoalFrames > s.txCountFrames + n then [.desc .clearTxIc] else []

def stmmacXmitUses (jumbo : Bool) (s : TxState) (skb : TxSkb) : List OpsUse :=
  let nfrags := skb.frags.length
  if (stmmacTxAvail c s).toNat < nfrags + 1 then []
  else
    (if s.txPathInLpiMode then [.mac .resetEeeMode] else []) ++ jumboUses c jumbo ++
      (if jumbo then [] else [.desc .prepareTxDesc]) ++
      skb.frags.flatMap (fun _ => [.desc .prepareTxDesc, .desc .setTxOwner]) ++
      [.desc .closeTxDesc] ++ coalesceUses c s (BitVec.ofNat 32 (nfrags + 1)) ++
      [.desc .setTxOwner] ++
      (if skb.hwTstamp && c.hwtsTxEn then [.desc .enableTxTimestamp] else []) ++
      [.dma .enableDmaTransmission]

def rtl8211XmitUses (jumbo : Bool) (s : TxState) : List OpsUse :=
  jumboUses c jumbo ++ (if jumbo then [] else [.desc .prepareTxDesc]) ++
    [.desc .closeTxDesc] ++ coalesceUses c s 1 ++
    [.desc .setTxOwner, .dma .enableDmaTransmission]

def dmaFreeTxSkbufsUses (s : TxState) : List OpsUse :=
  (List.range c.dmaTxSize.toNat).flatMap fun i =>
    if (s.ring i).skb.isSome ∧ (s.ring i).dma ≠ 0 then [.desc .getTxLen] else []

def clearTxUses : List OpsUse := .replicate c.dmaTxSize.toNat (.desc .initTxDesc)

def stmmacTxErrUses (s : TxState) : List OpsUse :=
  [.dma .stopTx] ++ dmaFreeTxSkbufsUses c s ++ clearTxUses c ++ [.dma .startTx]

/-! ## Receive side -/

def getRxHwtstampUses (p : RxSlot) : List OpsUse :=
  if c.hwtsRxEn then
    .desc .getRxTimestampStatus ::
      if c.stampRing && c.desc.getRxTimestampStatus p.desc c.advTs then [.desc .getTimestamp]
      else []
  else []

/-- One round of the loop of `stmmac_rx`; `rx_extended_status` is called only if it is there. -/
def rxBodyUses (s : RxState) : List OpsUse :=
  let p := s.ring (c.rxEntry s.curRx)
  .desc .rxStatus :: (if c.extendDesc then [.testDesc] else []) ++
    if (c.readRxStatus s.stats p).2 = .discardFrame then []
    else .desc .getRxFrameLen :: if p.skb.isSome then getRxHwtstampUses c p else []

def rxLoopUses : Nat → RxState → List OpsUse
  | 0, _ => []
  | n + 1, s =>
    .desc .getRxOwner ::
      if c.rxOwned (s.ring (c.rxEntry s.curRx)) then []
      else rxBodyUses c s ++
        match rxBody c s with
        | (_, true) => []
        | (s, false) => rxLoopUses n s

/-- One round of the loop of `stmmac_rx_refill`. -/
def rxRefillBodyUses (alloc : BitVec 32 → Option RxBuf) (s : RxState) : List OpsUse :=
  (if (s.ring (c.rxEntry s.dirtyRx)).skb = none ∧ (alloc s.dirtyRx).isSome then
    [.ring .refillDesc3] else []) ++ [.desc .setRxOwner]

def stmmacRxRefillUses (alloc : BitVec 32 → Option RxBuf) (s : RxState) : List OpsUse :=
  iterateLog (rxRefillGuard c alloc) (rxRefillBody c alloc) (rxRefillBodyUses c alloc)
    (s.curRx - s.dirtyRx).toNat s

/-! ## Suspend, resume and release -/

def stmmacSuspendUses (mayWakeup : Bool) : List OpsUse :=
  [.dma .stopTx, .dma .stopRx] ++ .replicate c.dmaRxSize.toNat (.desc .initRxDesc) ++
    clearTxUses c ++ if mayWakeup then [.mac .pmt] else []

def stmmacResumeUses (mayWakeup : Bool) : List OpsUse :=
  (if mayWakeup then [.mac .pmt] else []) ++ [.dma .startTx, .dma .startRx]

def stmmacReleaseUses (s : TxState) : List OpsUse :=
  [.dma .stopTx, .dma .stopRx] ++ dmaFreeTxSkbufsUses c s

/-! ## Time stamping -/

/-- What `stmmac_hwtstamp_ioctl` reads: whether the request can be copied in and out, and
`struct hwtstamp_config`. -/
structure HwtstampReq where
  copyFrom : Bool
  copyTo : Bool
  flags : BitVec 32
  txType : BitVec 32
  rxFilter : BitVec 32

def hwtstampTxOff : BitVec 32 := 0
def hwtstampTxOn : BitVec 32 := 1
def hwtstampFilterNone : BitVec 32 := 0
def hwtstampFilterAll : BitVec 32 := 1

/-- `HWTSTAMP_FILTER_PTP_V1_L4_EVENT` to `HWTSTAMP_FILTER_PTP_V2_L4_DELAY_REQ`, and
`HWTSTAMP_FILTER_PTP_V2_EVENT` to `HWTSTAMP_FILTER_PTP_V2_DELAY_REQ`. -/
def hwtstampPtpFilters : List (BitVec 32) := [3, 4, 5, 6, 7, 8, 12, 13, 14]

/-- `hwts_tx_en` and `hwts_rx_en` afterwards, the uses and the result. -/
structure HwtstampRes where
  txEn : Bool
  rxEn : Bool
  uses : List OpsUse
  ret : Int

/-- The flags passed in are those before the call. -/
def stmmacHwtstampIoctl (timeStamp advTs : Bool) (req : HwtstampReq) (txEn rxEn : Bool) :
    HwtstampRes :=
  if !(timeStamp || advTs) then ⟨false, false, [], -95⟩
  else if !req.copyFrom then ⟨txEn, rxEn, [], -14⟩
  else if req.flags ≠ 0 then ⟨txEn, rxEn, [], -22⟩
  else if req.txType ≠ hwtstampTxOff ∧ req.txType ≠ hwtstampTxOn then ⟨txEn, rxEn, [], -34⟩
  else
    let txEn := req.txType == hwtstampTxOn
    if advTs ∧ req.rxFilter ≠ hwtstampFilterNone ∧ req.rxFilter ≠ hwtstampFilterAll ∧
        req.rxFilter ∉ hwtstampPtpFilters then ⟨txEn, rxEn, [], -34⟩
    else
      let rxEn := req.rxFilter != hwtstampFilterNone
      let uses := if !txEn && !rxEn then [.ptp .configHwTstamping] else
        [.ptp .configHwTstamping, .ptp .configSubSecondIncrement, .ptp .configAddend,
          .ptp .initSystime]
      ⟨txEn, rxEn, uses, if req.copyTo then 0 else -14⟩

/-- The request gets as far as the time stamping unit of a core without advanced time stamps. -/
def HwtstampReq.Accepted (timeStamp : Bool) (req : HwtstampReq) : Prop :=
  timeStamp ∧ req.copyFrom ∧ req.flags = 0 ∧
    (req.txType = hwtstampTxOff ∨ req.txType = hwtstampTxOn)

instance (timeStamp : Bool) (req : HwtstampReq) : Decidable (req.Accepted timeStamp) :=
  inferInstanceAs (Decidable (_ ∧ _))

end Stmmac
