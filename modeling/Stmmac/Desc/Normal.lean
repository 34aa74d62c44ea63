import Mathlib.Tactic.SplitIfs
import Stmmac.Desc.Ops

/-!
# Normal descriptors

The functions of `norm_desc.c` and the normal-descriptor helpers of `descs_com.h`, collected in
`ndescOps`. A C `int` length arrives as a 32-bit word and is compared as a signed number; the
assignment to a bit field keeps its low bits.
-/

namespace Stmmac

def bufSize2KiB : Int := 2048

/-! ## Ring and chain helpers (`descs_com.h`) -/

def ndescRxSetOnRing (p : Des01) (end_ : Bool) : Des01 :=
  let p := p.set Rx.buffer2Size 2047
  if end_ then p.set Rx.endRing 1 else p

def ndescTxSetOnRing (p : Des01) (end_ : Bool) : Des01 :=
  if end_ then p.set Tx.endRing 1 else p

def ndescEndTxDescOnRing (p : Des01) (ter : BitVec 1) : Des01 := p.set Tx.endRing ter

/-- Lengths above 2 KiB go through the enhanced layout, whose size fields are wider. -/
def normSetTxDescLenOnRing (p : Des01) (len : BitVec 32) : Des01 :=
  if len.toInt > bufSize2KiB then
    let p := p.set Etx.buffer1Size 2047
    p.set Etx.buffer2Size ((len - (p.get Etx.buffer1Size).setWidth 32).setWidth 13)
  else
    p.set Tx.buffer1Size (len.setWidth 11)

def ndescRxSetOnChain (p : Des01) : Des01 := p.set Rx.secondAddressChained 1

def ndescTxSetOnChain (p : Des01) : Des01 := p.set Tx.secondAddressChained 1

def ndescEndTxDescOnChain (p : Des01) : Des01 := p.set Tx.secondAddressChained 1

def normSetTxDescLenOnChain (p : Des01) (len : BitVec 32) : Des01 :=
  p.set Tx.buffer1Size (len.setWidth 11)

/-! ## Operations (`norm_desc.c`) -/

def ndescGetTxStatus (s : Stats) (p : Des01) : Stats × Bool :=
  let err := p.test Tx.errorSummary
  let s := if err then
      let s := if p.test Tx.underflowError then
          { dev := { s.dev with txFifoErrors := s.dev.txFifoErrors + 1 }
            xstats := { s.xstats with txUnderflow := s.xstats.txUnderflow + 1 } }
        else s
      let s := if p.test Tx.noCarrier then
          { dev := { s.dev with txCarrierErrors := s.dev.txCarrierErrors + 1 }
            xstats := { s.xstats with txCarrier := s.xstats.txCarrier + 1 } }
        else s
      let s := if p.test Tx.lossCarrier then
          { dev := { s.dev with txCarrierErrors := s.dev.txCarrierErrors + 1 }
            xstats := { s.xstats with txLosscarrier := s.xstats.txLosscarrier + 1 } }
        else s
      if p.test Tx.excessiveDeferral || p.test Tx.excessiveCollisions ||
          p.test Tx.lateCollision then
        { s with dev := { s.dev with
            collisions := s.dev.collisions + (p.get Tx.collisionCount).toNat } }
      else s
    else s
  let s := if p.test Etx.vlanFrame then
      { s with xstats := { s.xstats with txVlan := s.xstats.txVlan + 1 } }
    else s
  let s := if p.test Tx.deferred then
      { s with xstats := { s.xstats with txDeferred := s.xstats.txDeferred + 1 } }
    else s
  (s, err)

def ndescGetTxLen (p : Des01) : BitVec 32 := (p.get Tx.buffer1Size).setWidth 32

/-- The counters an erroneous frame adds to, `rx.error_summary` being set. -/
def ndescRxErrorStats (s : Stats) (p : Des01) : Stats :=
  let bump (s : Stats) (f : Field) (up : StmmacExtraStats → StmmacExtraStats) : Stats :=
    if p.test f then { s with xstats := up s.xstats } else s
  let s := bump s Rx.descriptorError fun x => { x with rxDesc := x.rxDesc + 1 }
  let s := bump s Rx.saFilterFail fun x => { x with saFilterFail := x.saFilterFail + 1 }
  let s := bump s Rx.overflowError fun x => { x with overflowError := x.overflowError + 1 }
  let s := bump s Rx.ipcCsumError fun x => { x with ipcCsumError := x.ipcCsumError + 1 }
  let s := if p.test Rx.collision then
      { dev := { s.dev with collisions := s.dev.collisions + 1 }
        xstats := { s.xstats with rxCollision := s.xstats.rxCollision + 1 } }
    else s
  if p.test Rx.crcError then
    { dev := { s.dev with rxCrcErrors := s.dev.rxCrcErrors + 1 }
      xstats := { s.xstats with rxCrc := s.xstats.rxCrc + 1 } }
  else s

def ndescGetRxStatus (s : Stats) (p : Des01) : Stats × RxFrameStatus :=
  if !p.test Rx.lastDescriptor then
    -- oversized frame spanned multiple buffers
    ({ s with dev := { s.dev with rxLengthErrors := s.dev.rxLengthErrors + 1 } }, .discardFrame)
  else
    let ret := RxFrameStatus.goodFrame
    let (s, ret) := if p.test Rx.errorSummary then (ndescRxErrorStats s p, .discardFrame)
      else (s, ret)
    let s := if p.test Rx.dribbling then
        { s with xstats := { s.xstats with dribblingBit := s.xstats.dribblingBit + 1 } }
      else s
    let (s, ret) := if p.test Rx.lengthError then
        ({ s with xstats := { s.xstats with rxLength := s.xstats.rxLength + 1 } },
          RxFrameStatus.discardFrame)
      else (s, ret)
    let (s, ret) := if p.test Rx.miiError then
        ({ s with xstats := { s.xstats with rxMii := s.xstats.rxMii + 1 } },
          RxFrameStatus.discardFrame)
      else (s, ret)
    -- `STMMAC_VLAN_TAG_USED` is defined
    let s := if p.test Rx.vlanTag then
        { s with xstats := { s.xstats with vlanTag := s.xstats.vlanTag + 1 } }
      else s
    (s, ret)

def ndescInitRxDesc (p : Des01) (disableRxIc : Bool) (mode : Mode) (end_ : Bool) : Des01 :=
  let p := p.set Rx.own 1
  let p := p.set Rx.buffer1Size 2047
  let p := match mode with
    | .chain => ndescRxSetOnChain p
    | .ring => ndescRxSetOnRing p end_
  if disableRxIc then p.set Rx.disableIc 1 else p

def ndescInitTxDesc (p : Des01) (mode : Mode) (end_ : Bool) : Des01 :=
  let p := p.set Tx.own 0
  match mode with
  | .chain => ndescTxSetOnChain p
  | .ring => ndescTxSetOnRing p end_

def ndescGetTxOwner (p : Des01) : Bool := p.test Tx.own

def ndescGetRxOwner (p : Des01) : Bool := p.test Rx.own

def ndescSetTxOwner (p : Des01) : Des01 := p.set Tx.own 1

def ndescSetRxOwner (p : Des01) : Des01 := p.set Rx.own 1

def ndescGetTxLs (p : Des01) : Bool := p.test Tx.lastSegment

def ndescReleaseTxDesc (p : Des01) (mode : Mode) : Des01 :=
  let ter := p.get Tx.endRing
  -- `memset` up to `des2`
  let p : Des01 := ⟨0#32, 0#32⟩
  match mode with
  | .chain => ndescEndTxDescOnChain p
  | .ring => ndescEndTxDescOnRing p ter

def ndescPrepareTxDesc (p : Des01) (isFs : Bool) (len : BitVec 32) (csumFlag : Bool)
    (mode : Mode) : Des01 :=
  let p := p.set Tx.firstSegment (if isFs then 1 else 0)
  let p := match mode with
    | .chain => normSetTxDescLenOnChain p len
    | .ring => normSetTxDescLenOnRing p len
  -- `cic_full`
  if csumFlag then p.set Tx.checksumInsertion 3 else p

def ndescClearTxIc (p : Des01) : Des01 := p.set Tx.interrupt 0

def ndescCloseTxDesc (p : Des01) : Des01 := (p.set Tx.lastSegment 1).set Tx.interrupt 1

def ndescGetRxFrameLen (p : Des01) (rxCoeType : RxCoe) : Int :=
  match rxCoeType with
  | .type1 => (p.get Rx.frameLength).toNat - 2
  | _ => (p.get Rx.frameLength).toNat

def ndescEnableTxTimestamp (p : Des01) : Des01 := p.set Tx.timeStampEnable 1

def ndescGetTxTimestampStatus (p : Des01) : Bool := p.test Tx.timeStampStatus

def ndescGetTimestamp (p : DmaDesc) (_ats : Bool) : BitVec 64 :=
  p.des2.setWidth 64 + p.des3.setWidth 64 * 1000000000#64

def ndescGetRxTimestampStatus (p : DmaDesc) (_ats : Bool) : Bool :=
  !(p.des2 == 0xffffffff#32 && p.des3 == 0xffffffff#32)

def ndescOps : StmmacDescOps where
  txStatus := ndescGetTxStatus
  rxStatus := ndescGetRxStatus
  getTxLen := ndescGetTxLen
  initRxDesc := ndescInitRxDesc
  initTxDesc := ndescInitTxDesc
  getTxOwner := ndescGetTxOwner
  getRxOwner := ndescGetRxOwner
  releaseTxDesc := ndescReleaseTxDesc
  prepareTxDesc := ndescPrepareTxDesc
  clearTxIc := ndescClearTxIc
  closeTxDesc := ndescCloseTxDesc
  getTxLs := ndescGetTxLs
  setTxOwner := ndescSetTxOwner
  setRxOwner := ndescSetRxOwner
  getRxFrameLen := ndescGetRxFrameLen
  rxExtendedStatus := none
  enableTxTimestamp := ndescEnableTxTimestamp
  getTxTimestampStatus := ndescGetTxTimestampStatus
  getTimestamp := ndescGetTimestamp
  getRxTimestampStatus := ndescGetRxTimestampStatus

/-! ## Ownership -/

theorem txOwner_ndescPrepareTxDesc (p : Des01) (isFs : Bool) (len : BitVec 32) (csumFlag : Bool)
    (mode : Mode) :
    ndescGetTxOwner (ndescPrepareTxDesc p isFs len csumFlag mode) = ndescGetTxOwner p := by
  unfold ndescPrepareTxDesc ndescGetTxOwner normSetTxDescLenOnRing normSetTxDescLenOnChain
  cases mode <;> cases csumFlag <;> dsimp only <;> split_ifs <;>
    simp (disch := decide) only [Des01.test_set_of_disjoint]

/-- The verdict of `ndesc_get_rx_status`. -/
theorem ndescGetRxStatus_snd (s : Stats) (p : Des01) :
    (ndescGetRxStatus s p).2 =
      if p.test Rx.lastDescriptor && !p.test Rx.errorSummary && !p.test Rx.lengthError &&
        !p.test Rx.miiError then .goodFrame else .discardFrame := by
  unfold ndescGetRxStatus
  cases p.test Rx.lastDescriptor <;> cases p.test Rx.errorSummary <;>
    cases p.test Rx.lengthError <;> cases p.test Rx.miiError <;> rfl

theorem ndescOps_lawful : ndescOps.Lawful where
  txOwner_init p m e := by
    cases m <;> cases e <;> simp (disch := decide) [ndescOps, ndescGetTxOwner, ndescInitTxDesc,
      ndescTxSetOnRing, ndescTxSetOnChain]
  txOwner_prepare := txOwner_ndescPrepareTxDesc
  txOwner_set p := by simp (disch := decide) [ndescOps, ndescGetTxOwner, ndescSetTxOwner]
  txOwner_close p := by simp (disch := decide) [ndescOps, ndescGetTxOwner, ndescCloseTxDesc]
  txOwner_release p m := by
    cases m <;> simp (disch := decide) [ndescOps, ndescGetTxOwner, ndescReleaseTxDesc,
      ndescEndTxDescOnRing, ndescEndTxDescOnChain]
  txOwner_clearIc p := by simp (disch := decide) [ndescOps, ndescGetTxOwner, ndescClearTxIc]
  txOwner_timestamp p := by
    simp (disch := decide) [ndescOps, ndescGetTxOwner, ndescEnableTxTimestamp]
  rxOwner_init p ic m e := by
    cases m <;> cases e <;> cases ic <;> simp (disch := decide) [ndescOps, ndescGetRxOwner,
      ndescInitRxDesc, ndescRxSetOnRing, ndescRxSetOnChain]
  rxOwner_set p := by simp (disch := decide) [ndescOps, ndescGetRxOwner, ndescSetRxOwner]
  rxStatus_stats s s' p := by simp only [ndescOps, ndescGetRxStatus_snd]
  rxFrameLen_int p coe := by
    have hlen : (p.get Rx.frameLength).toNat < 2 ^ 14 := (p.get Rx.frameLength).isLt
    cases coe <;> simp only [ndescOps, ndescGetRxFrameLen] <;> omega

/-! ## Control bits -/

/-- For a segment that fits one buffer, `prepareTxDesc` writes three fields. -/
theorem ndescPrepareTxDesc_of_le (p : Des01) (isFs : Bool) {len : BitVec 32}
    (hlen : len.toNat ≤ 2048) (csumFlag : Bool) (mode : Mode) :
    ndescPrepareTxDesc p isFs len csumFlag mode =
      let q := (p.set Tx.firstSegment (if isFs then 1 else 0)).set Tx.buffer1Size (len.setWidth 11)
      if csumFlag then q.set Tx.checksumInsertion 3 else q := by
  have hint : ¬ len.toInt > bufSize2KiB := by
    simp only [BitVec.toInt_eq_toNat_cond, bufSize2KiB]
    split <;> omega
  cases mode <;> simp [ndescPrepareTxDesc, normSetTxDescLenOnChain, normSetTxDescLenOnRing, hint]

end Stmmac
