import Stmmac.Desc.Layout

/-!
# Descriptor operations

`StmmacDescOps` is the table `struct stmmac_desc_ops` through which the driver handles its
descriptors. All entries but the two that read a time stamp work on the union `des01` alone.
The table for enhanced descriptors is not part of the repository, so results about the rings are
stated for any table that treats ownership as documented in `common.h` (`Lawful`).
-/

namespace Stmmac

/-- `STMMAC_CHAIN_MODE` and `STMMAC_RING_MODE`. -/
inductive Mode where
  | chain | ring
  deriving DecidableEq, Repr

/-- `enum rx_frame_status`. -/
inductive RxFrameStatus where
  | goodFrame | discardFrame | csumNone | llcSnap
  deriving DecidableEq, Repr

/-- The receive checksum engine of the platform data, `rx_coe`. -/
inductive RxCoe where
  | none | type1 | type2
  deriving DecidableEq, Repr

/-- The counters of `struct net_device_stats` that the driver updates. -/
structure NetDeviceStats where
  rxPackets : Nat := 0
  txPackets : Nat := 0
  rxBytes : Int := 0
  txBytes : Nat := 0
  rxErrors : Nat := 0
  txErrors : Nat := 0
  rxDropped : Nat := 0
  collisions : Nat := 0
  rxLengthErrors : Nat := 0
  rxCrcErrors : Nat := 0
  txFifoErrors : Nat := 0
  txCarrierErrors : Nat := 0
  deriving DecidableEq, Repr

/-- The counters of `struct stmmac_extra_stats` that the modelled functions update. -/
structure StmmacExtraStats where
  txUnderflow : Nat := 0
  txCarrier : Nat := 0
  txLosscarrier : Nat := 0
  vlanTag : Nat := 0
  txDeferred : Nat := 0
  txVlan : Nat := 0
  rxDesc : Nat := 0
  saFilterFail : Nat := 0
  overflowError : Nat := 0
  ipcCsumError : Nat := 0
  rxCollision : Nat := 0
  rxCrc : Nat := 0
  dribblingBit : Nat := 0
  rxLength : Nat := 0
  rxMii : Nat := 0
  txPktN : Nat := 0
  rxPktN : Nat := 0
  txClean : Nat := 0
  txResetIcBit : Nat := 0
  deriving DecidableEq, Repr

structure Stats where
  dev : NetDeviceStats := {}
  xstats : StmmacExtraStats := {}
  deriving DecidableEq, Repr

/-- `struct stmmac_desc_ops`. The status entries return the updated counters; the flag of
`txStatus` is set where the source returns a non-zero value. -/
structure StmmacDescOps where
  initRxDesc : Des01 → Bool → Mode → Bool → Des01
  initTxDesc : Des01 → Mode → Bool → Des01
  prepareTxDesc : Des01 → Bool → BitVec 32 → Bool → Mode → Des01
  setTxOwner : Des01 → Des01
  getTxOwner : Des01 → Bool
  closeTxDesc : Des01 → Des01
  releaseTxDesc : Des01 → Mode → Des01
  clearTxIc : Des01 → Des01
  getTxLs : Des01 → Bool
  txStatus : Stats → Des01 → Stats × Bool
  getTxLen : Des01 → BitVec 32
  getRxOwner : Des01 → Bool
  setRxOwner : Des01 → Des01
  getRxFrameLen : Des01 → RxCoe → Int
  rxStatus : Stats → Des01 → Stats × RxFrameStatus
  rxExtendedStatus : Option (Stats → DmaDesc → Stats)
  enableTxTimestamp : Des01 → Des01
  getTxTimestampStatus : Des01 → Bool
  getTimestamp : DmaDesc → Bool → BitVec 64
  getRxTimestampStatus : DmaDesc → Bool → Bool

/-- What the driver relies on: only the owner entries, the release and the two initialisations
move the ownership of a descriptor, the verdict on a frame is read off its descriptor, and its
length is an `int` that the FCS can be taken off. -/
structure StmmacDescOps.Lawful (ops : StmmacDescOps) : Prop where
  txOwner_init : ∀ p m e, ops.getTxOwner (ops.initTxDesc p m e) = false
  txOwner_prepare : ∀ p fs len cs m,
    ops.getTxOwner (ops.prepareTxDesc p fs len cs m) = ops.getTxOwner p
  txOwner_set : ∀ p, ops.getTxOwner (ops.setTxOwner p) = true
  txOwner_close : ∀ p, ops.getTxOwner (ops.closeTxDesc p) = ops.getTxOwner p
  txOwner_release : ∀ p m, ops.getTxOwner (ops.releaseTxDesc p m) = false
  txOwner_clearIc : ∀ p, ops.getTxOwner (ops.clearTxIc p) = ops.getTxOwner p
  txOwner_timestamp : ∀ p, ops.getTxOwner (ops.enableTxTimestamp p) = ops.getTxOwner p
  rxOwner_init : ∀ p ic m e, ops.getRxOwner (ops.initRxDesc p ic m e) = true
  rxOwner_set : ∀ p, ops.getRxOwner (ops.setRxOwner p) = true
  rxStatus_stats : ∀ s s' p, (ops.rxStatus s p).2 = (ops.rxStatus s' p).2
  rxFrameLen_int : ∀ p coe, -2147483644 ≤ ops.getRxFrameLen p coe ∧
    ops.getRxFrameLen p coe < 2147483648

end Stmmac
