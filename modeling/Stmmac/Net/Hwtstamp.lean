import Stmmac.Library.History
import Stmmac.Library.Runs
import Stmmac.Net.Uses

/-!
# Time-stamping requests

`stmmac_hwtstamp_ioctl` checks a request and commits it in turns: it stores the transmit side before
it looks at the filter, and the whole of a request before it copies the answer out. A request that
fails at one of these two ends is refused with some of it in place.

The operations of `hw->ptp` act on registers of any kind.
-/

namespace Stmmac

open Library

/-! ## The request -/

def hwtstampFilterPtpV1L4Event : BitVec 32 := 3
def hwtstampFilterPtpV1L4Sync : BitVec 32 := 4
def hwtstampFilterPtpV1L4DelayReq : BitVec 32 := 5
def hwtstampFilterPtpV2L4Event : BitVec 32 := 6
def hwtstampFilterPtpV2L4Sync : BitVec 32 := 7
def hwtstampFilterPtpV2L4DelayReq : BitVec 32 := 8
def hwtstampFilterPtpV2Event : BitVec 32 := 12
def hwtstampFilterPtpV2Sync : BitVec 32 := 13
def hwtstampFilterPtpV2DelayReq : BitVec 32 := 14

/-- A request and what `getnstimeofday` says at the time. -/
structure HwtstampCall extends HwtstampReq where
  tvSec : BitVec 32
  tvNsec : BitVec 32

/-- `dma_cap.time_stamp` and `adv_ts`. -/
structure TsCap where
  timeStamp : BitVec 32
  advTs : BitVec 32

/-- The core can time stamp. -/
def TsCap.Capable (cap : TsCap) : Prop := cap.timeStamp ≠ 0 ∨ cap.advTs ≠ 0

instance (cap : TsCap) : Decidable cap.Capable := inferInstanceAs (Decidable (_ ∨ _))

/-- `struct stmmac_hwtimestamp`, the bits of the control register and `STMMAC_SYSCLOCK`. -/
structure PtpHw (P : Type*) where
  tsena : BitVec 32
  tscfupdt : BitVec 32
  tsctrlssr : BitVec 32
  tsenall : BitVec 32
  tsver2ena : BitVec 32
  tsipena : BitVec 32
  tsipv6ena : BitVec 32
  tsipv4ena : BitVec 32
  tsevntena : BitVec 32
  tsmstrena : BitVec 32
  snaptypsel1 : BitVec 32
  sysclock : BitVec 32
  configHwTstamping : P → BitVec 32 → P
  configSubSecondIncrement : P → P
  configAddend : P → BitVec 32 → P
  initSystime : P → BitVec 32 → BitVec 32 → P

/-- What a request may change. -/
@[ext] structure TsState (P : Type*) where
  hwtsTxEn : BitVec 32
  hwtsRxEn : BitVec 32
  defaultAddend : BitVec 32
  ptp : P
  deriving DecidableEq

/-- The variables that `stmmac_hwtstamp_ioctl` collects the bits of the filter in. -/
structure TsBits where
  ptpV2 : BitVec 32 := 0
  tstampAll : BitVec 32 := 0
  ptpOverIpv4Udp : BitVec 32 := 0
  ptpOverIpv6Udp : BitVec 32 := 0
  ptpOverEthernet : BitVec 32 := 0
  snapTypeSel : BitVec 32 := 0
  tsMasterEn : BitVec 32 := 0
  tsEventEn : BitVec 32 := 0

/-- The state, `config.rx_filter` as copied to the user and the result. -/
structure TsResult (P : Type*) where
  state : TsState P
  rxFilter : Option (BitVec 32)
  ret : Int

variable {P : Type*} (hw : PtpHw P) (cap : TsCap)

namespace PtpHw

/-- The filter that is set and its bits; `none` for a filter the driver does not know. -/
def advRxFilter (rxFilter : BitVec 32) : Option (BitVec 32 × TsBits) :=
  let udp : TsBits := { ptpOverIpv4Udp := hw.tsipv4ena, ptpOverIpv6Udp := hw.tsipv6ena }
  let anyLayer : TsBits := { udp with ptpV2 := hw.tsver2ena, ptpOverEthernet := hw.tsipena }
  if rxFilter = hwtstampFilterNone then some (hwtstampFilterNone, {})
  else if rxFilter = hwtstampFilterPtpV1L4Event then
    some (hwtstampFilterPtpV1L4Event, { udp with snapTypeSel := hw.snaptypsel1 })
  else if rxFilter = hwtstampFilterPtpV1L4Sync then
    some (hwtstampFilterPtpV1L4Sync, { udp with tsEventEn := hw.tsevntena })
  else if rxFilter = hwtstampFilterPtpV1L4DelayReq then
    some (hwtstampFilterPtpV1L4DelayReq,
      { udp with tsMasterEn := hw.tsmstrena, tsEventEn := hw.tsevntena })
  else if rxFilter = hwtstampFilterPtpV2L4Event then
    some (hwtstampFilterPtpV2L4Event,
      { udp with ptpV2 := hw.tsver2ena, snapTypeSel := hw.snaptypsel1 })
  else if rxFilter = hwtstampFilterPtpV2L4Sync then
    some (hwtstampFilterPtpV2L4Sync,
      { udp with ptpV2 := hw.tsver2ena, tsEventEn := hw.tsevntena })
  else if rxFilter = hwtstampFilterPtpV2L4DelayReq then
    some (hwtstampFilterPtpV2L4DelayReq,
      { udp with ptpV2 := hw.tsver2ena, tsMasterEn := hw.tsmstrena, tsEventEn := hw.tsevntena })
  else if rxFilter = hwtstampFilterPtpV2Event then
    some (hwtstampFilterPtpV2Event, { anyLayer with snapTypeSel := hw.snaptypsel1 })
  else if rxFilter = hwtstampFilterPtpV2Sync then
    some (hwtstampFilterPtpV2Sync, { anyLayer with tsEventEn := hw.tsevntena })
  else if rxFilter = hwtstampFilterPtpV2DelayReq then
    some (hwtstampFilterPtpV2DelayReq,
      { anyLayer with tsMasterEn := hw.tsmstrena, tsEventEn := hw.tsevntena })
  else if rxFilter = hwtstampFilterAll then
    some (hwtstampFilterAll, { tstampAll := hw.tsenall })
  else none

/-- Without advanced time stamps every filter but the first means PTP version 1. -/
def basicRxFilter (rxFilter : BitVec 32) : BitVec 32 × TsBits :=
  if rxFilter = hwtstampFilterNone then (hwtstampFilterNone, {})
  else (hwtstampFilterPtpV1L4Event, {})

def rxFilter (filter : BitVec 32) : Option (BitVec 32 × TsBits) :=
  if cap.advTs ≠ 0 then hw.advRxFilter filter else some (basicRxFilter filter)

/-- The control word of a filter. -/
def value (bits : TsBits) : BitVec 32 :=
  hw.tsena ||| hw.tscfupdt ||| hw.tsctrlssr ||| bits.tstampAll ||| bits.ptpV2 |||
    bits.ptpOverEthernet ||| bits.ptpOverIpv6Udp ||| bits.ptpOverIpv4Udp ||| bits.tsEventEn |||
    bits.tsMasterEn ||| bits.snapTypeSel

/-- `2^32 * 50 MHz / STMMAC_SYSCLOCK`, stored in 32 bits. -/
def addend : BitVec 32 :=
  ((50000000#64 <<< 32) / hw.sysclock.setWidth 64).setWidth 32

/-- The registers after a request that turns something on. -/
def turnOn (ptp : P) (bits : TsBits) (tvSec tvNsec : BitVec 32) : P :=
  let ptp := hw.configHwTstamping ptp (hw.value bits)
  let ptp := hw.configSubSecondIncrement ptp
  let ptp := hw.configAddend ptp hw.addend
  hw.initSystime ptp tvSec tvNsec

/-- The end of `stmmac_hwtstamp_ioctl`, before the answer is copied. -/
def program (s : TsState P) (bits : TsBits) (tvSec tvNsec : BitVec 32) : TsState P :=
  if s.hwtsTxEn = 0 ∧ s.hwtsRxEn = 0 then { s with ptp := hw.configHwTstamping s.ptp 0 }
  else { s with defaultAddend := hw.addend, ptp := hw.turnOn s.ptp bits tvSec tvNsec }

def stmmacHwtstampIoctl (s : TsState P) (call : HwtstampCall) : TsResult P :=
  if ¬ cap.Capable then
    ⟨{ s with hwtsTxEn := 0, hwtsRxEn := 0 }, none, -95⟩
  else if call.copyFrom = false then ⟨s, none, -14⟩
  else if call.flags ≠ 0 then ⟨s, none, -22⟩
  else if call.txType ≠ hwtstampTxOff ∧ call.txType ≠ hwtstampTxOn then ⟨s, none, -34⟩
  else
    -- committed before the filter is looked at
    let s := { s with hwtsTxEn := if call.txType = hwtstampTxOff then 0 else 1 }
    match hw.rxFilter cap call.rxFilter with
    | none => ⟨s, none, -34⟩
    | some (rxFilter, bits) =>
      let s := { s with hwtsRxEn := if rxFilter = hwtstampFilterNone then 0 else 1 }
      let s := hw.program s bits call.tvSec call.tvNsec
      if call.copyTo then ⟨s, some rxFilter, 0⟩ else ⟨s, none, -14⟩

end PtpHw

/-! ## What it asks for -/

/-- The checks before anything is stored. -/
def HwtstampCall.Valid (call : HwtstampCall) : Prop :=
  call.copyFrom = true ∧ call.flags = 0 ∧
    (call.txType = hwtstampTxOff ∨ call.txType = hwtstampTxOn)

instance (call : HwtstampCall) : Decidable call.Valid := inferInstanceAs (Decidable (_ ∧ _))

theorem HwtstampCall.Valid.txType_known {call : HwtstampCall} (h : call.Valid) :
    ¬ (call.txType ≠ hwtstampTxOff ∧ call.txType ≠ hwtstampTxOn) := by
  obtain ⟨-, -, htype⟩ := h
  tauto

def HwtstampCall.txEn (call : HwtstampCall) : BitVec 32 :=
  if call.txType = hwtstampTxOff then 0 else 1

/-- With advanced time stamps only some filters are known. -/
def TsCap.Knows (rxFilter : BitVec 32) : Prop :=
  cap.advTs ≠ 0 →
    rxFilter = hwtstampFilterNone ∨ rxFilter = hwtstampFilterAll ∨ rxFilter ∈ hwtstampPtpFilters

instance (rxFilter : BitVec 32) : Decidable (cap.Knows rxFilter) :=
  inferInstanceAs (Decidable (_ → _))

/-- What a request asks for. -/
structure TsSetting where
  txEn : BitVec 32
  rxEn : BitVec 32
  bits : TsBits
  tvSec : BitVec 32
  tvNsec : BitVec 32

/-- Neither side is to be time stamped. -/
def TsSetting.Off (a : TsSetting) : Prop := a.txEn = 0 ∧ a.rxEn = 0

instance (a : TsSetting) : Decidable a.Off := inferInstanceAs (Decidable (_ ∧ _))

/-- A request for an unknown filter, which fails after the transmit side was stored, asks for the
one that is there; and the answer to a request for a known filter, which is all stored by then, can
be copied out. -/
structure TsCap.Clean (s : TsState P) (call : HwtstampCall) : Prop where
  unknown : call.Valid → ¬ cap.Knows call.rxFilter → s.hwtsTxEn = call.txEn
  copied : call.Valid → cap.Knows call.rxFilter → call.copyTo = true

instance (s : TsState P) (call : HwtstampCall) : Decidable (cap.Clean s call) :=
  decidable_of_iff ((call.Valid → ¬ cap.Knows call.rxFilter → s.hwtsTxEn = call.txEn) ∧
      (call.Valid → cap.Knows call.rxFilter → call.copyTo = true))
    ⟨fun h => ⟨h.1, h.2⟩, fun h => ⟨h.unknown, h.copied⟩⟩

namespace PtpHw

def asked (call : HwtstampCall) : Option TsSetting :=
  if call.Valid then
    (hw.rxFilter cap call.rxFilter).map fun found =>
      { txEn := call.txEn
        rxEn := if found.1 = hwtstampFilterNone then 0 else 1
        bits := found.2
        tvSec := call.tvSec
        tvNsec := call.tvNsec }
  else none

/-- The settings of the requests that return 0. -/
def accepted (call : HwtstampCall) : Option TsSetting :=
  if call.copyTo then hw.asked cap call else none

def put (s : TsState P) (a : TsSetting) : TsState P :=
  hw.program { s with hwtsTxEn := a.txEn, hwtsRxEn := a.rxEn } a.bits a.tvSec a.tvNsec

/-- `t` shows a setting that was put on top of the registers `ptp`. -/
def Shows (ptp : P) (a : TsSetting) (t : TsState P) : Prop :=
  t.hwtsTxEn = a.txEn ∧ t.hwtsRxEn = a.rxEn ∧
    if a.Off then t.ptp = hw.configHwTstamping ptp 0
    else t.defaultAddend = hw.addend ∧ t.ptp = hw.turnOn ptp a.bits a.tvSec a.tvNsec

instance [DecidableEq P] (ptp : P) (a : TsSetting) (t : TsState P) :
    Decidable (hw.Shows ptp a t) :=
  inferInstanceAs (Decidable (_ = _ ∧ _ = _ ∧ ite _ _ _))

def hwtstampStep (s : TsState P) (call : HwtstampCall) : Option (TsState P) :=
  some (hw.stmmacHwtstampIoctl cap s call).state

/-- The requests that are not accepted have left no trace in `t`, which shows the last that is. -/
structure ReflectsLast (s : TsState P) (calls : List HwtstampCall) (t : TsState P) : Prop where
  eq_foldl : t = (calls.filterMap (hw.accepted cap)).foldl hw.put s
  last : ∀ a ∈ (calls.filterMap (hw.accepted cap)).getLast?, ∃ ptp, hw.Shows ptp a t

/-! ## One request -/

variable {hw cap} {s t : TsState P} {call : HwtstampCall} {calls : List HwtstampCall}

theorem advRxFilter_eq_none_iff {rxFilter : BitVec 32} : hw.advRxFilter rxFilter = none ↔
    ¬ (rxFilter = hwtstampFilterNone ∨ rxFilter = hwtstampFilterAll ∨
      rxFilter ∈ hwtstampPtpFilters) := by
  have hite : ∀ (p : Prop) [Decidable p] (found : BitVec 32 × TsBits)
      (rest : Option (BitVec 32 × TsBits)),
      (if p then some found else rest) = none ↔ ¬ p ∧ rest = none := by
    intro p _ found rest
    by_cases h : p <;> simp [h]
  unfold advRxFilter
  dsimp only
  simp only [hite, and_true, hwtstampPtpFilters, List.mem_cons, List.not_mem_nil, or_false]
  unfold hwtstampFilterPtpV1L4Event hwtstampFilterPtpV1L4Sync hwtstampFilterPtpV1L4DelayReq
    hwtstampFilterPtpV2L4Event hwtstampFilterPtpV2L4Sync hwtstampFilterPtpV2L4DelayReq
    hwtstampFilterPtpV2Event hwtstampFilterPtpV2Sync hwtstampFilterPtpV2DelayReq
  tauto

theorem rxFilter_eq_none_iff {rxFilter : BitVec 32} :
    hw.rxFilter cap rxFilter = none ↔ ¬ cap.Knows rxFilter := by
  unfold PtpHw.rxFilter TsCap.Knows
  by_cases hadv : cap.advTs = 0#32
  · simp [hadv]
  · have hadv' : cap.advTs ≠ 0 := hadv
    rw [if_pos hadv', advRxFilter_eq_none_iff]
    simp [hadv]

/-- A request asks for something if it passes every check. -/
theorem asked_isSome_iff :
    (hw.asked cap call).isSome ↔ call.Valid ∧ cap.Knows call.rxFilter := by
  have hknows : hw.rxFilter cap call.rxFilter ≠ none ↔ cap.Knows call.rxFilter :=
    rxFilter_eq_none_iff.not_left
  unfold asked
  by_cases hvalid : call.Valid
  · simpa [hvalid, Option.isSome_iff_ne_none] using hknows
  · simp [hvalid]

theorem not_knows_of_not_asked (h : hw.asked cap call = none) (hvalid : call.Valid) :
    ¬ cap.Knows call.rxFilter := by
  intro hknows
  have hsome : (hw.asked cap call).isSome := asked_isSome_iff.mpr ⟨hvalid, hknows⟩
  rw [h] at hsome
  cases hsome

theorem put_of_off (s : TsState P) {a : TsSetting} (h : a.Off) : hw.put s a =
    { s with
      hwtsTxEn := a.txEn, hwtsRxEn := a.rxEn, ptp := hw.configHwTstamping s.ptp 0 } :=
  if_pos h

theorem put_of_on (s : TsState P) {a : TsSetting} (h : ¬ a.Off) : hw.put s a =
    { hwtsTxEn := a.txEn
      hwtsRxEn := a.rxEn
      defaultAddend := hw.addend
      ptp := hw.turnOn s.ptp a.bits a.tvSec a.tvNsec } :=
  if_neg h

theorem shows_put (s : TsState P) (a : TsSetting) : hw.Shows s.ptp a (hw.put s a) := by
  unfold Shows
  by_cases hoff : a.Off
  · rw [if_pos hoff, put_of_off s hoff]
    exact ⟨rfl, rfl, rfl⟩
  · rw [if_neg hoff, put_of_on s hoff]
    exact ⟨rfl, rfl, rfl, rfl⟩

/-- A setting that changes nothing asks for the enables that are there. -/
theorem enables_of_put_eq_self {a : TsSetting} (h : hw.put s a = s) :
    s.hwtsTxEn = a.txEn ∧ s.hwtsRxEn = a.rxEn := by
  obtain ⟨htx, hrx, -⟩ := hw.shows_put s a
  rw [h] at htx hrx
  exact ⟨htx, hrx⟩

section Capable

variable (hcap : cap.Capable)
include hcap

/-- A request that fails a check is refused as it stands. -/
theorem ioctl_of_not_valid (h : ¬ call.Valid) :
    (hw.stmmacHwtstampIoctl cap s call).state = s ∧
      (hw.stmmacHwtstampIoctl cap s call).ret < 0 := by
  unfold stmmacHwtstampIoctl
  rw [if_neg (not_not.mpr hcap)]
  unfold HwtstampCall.Valid at h
  split_ifs with hcopy hflags htype <;> simp_all

theorem ioctl_of_unknown (h : call.Valid) (hknows : ¬ cap.Knows call.rxFilter) :
    hw.stmmacHwtstampIoctl cap s call = ⟨{ s with hwtsTxEn := call.txEn }, none, -34⟩ := by
  have htype := h.txType_known
  obtain ⟨hcopy, hflags, -⟩ := h
  simp [stmmacHwtstampIoctl, hcap, hcopy, hflags, htype, rxFilter_eq_none_iff.mpr hknows,
    HwtstampCall.txEn]

theorem ioctl_of_asked {a : TsSetting} (h : hw.asked cap call = some a) :
    (hw.stmmacHwtstampIoctl cap s call).state = hw.put s a ∧
      (hw.stmmacHwtstampIoctl cap s call).ret = if call.copyTo then 0 else -14 := by
  unfold asked at h
  split_ifs at h with hvalid
  obtain ⟨found, hfound, rfl⟩ := Option.map_eq_some_iff.mp h
  have htype := hvalid.txType_known
  obtain ⟨hcopy, hflags, -⟩ := hvalid
  cases hto : call.copyTo <;>
    simp [stmmacHwtstampIoctl, hcap, hcopy, hflags, htype, hfound, hto, HwtstampCall.txEn, put]

theorem ioctl_of_not_asked (h : hw.asked cap call = none) :
    (hw.stmmacHwtstampIoctl cap s call).ret < 0 ∧
      ((hw.stmmacHwtstampIoctl cap s call).state = s ↔
        (call.Valid → ¬ cap.Knows call.rxFilter → s.hwtsTxEn = call.txEn)) := by
  by_cases hvalid : call.Valid
  · have hknows := not_knows_of_not_asked h hvalid
    rw [ioctl_of_unknown hcap hvalid hknows]
    refine ⟨by simp, ?_⟩
    simp [TsState.ext_iff, hvalid, hknows, eq_comm]
  · obtain ⟨hstate, hret⟩ := @ioctl_of_not_valid P hw cap s call hcap hvalid
    exact ⟨hret, fun _ hvalid' => absurd hvalid' hvalid, fun _ => hstate⟩

/-- A clean request that is refused changes nothing. -/
theorem unchanged_of_clean (h : cap.Clean s call)
    (hneg : (hw.stmmacHwtstampIoctl cap s call).ret < 0) :
    (hw.stmmacHwtstampIoctl cap s call).state = s := by
  cases ha : hw.asked cap call with
  | none => exact (ioctl_of_not_asked hcap ha).2.mpr h.unknown
  | some a =>
    obtain ⟨hvalid, hknows⟩ := asked_isSome_iff.mp (Option.isSome_of_eq_some ha)
    rw [(ioctl_of_asked hcap ha).2, if_pos (h.copied hvalid hknows)] at hneg
    exact absurd hneg (lt_irrefl 0)

/-- Nor is any other left as it was, unless its answer cannot be copied out. -/
theorem clean_of_unchanged (hcopied : call.Valid → cap.Knows call.rxFilter → call.copyTo = true)
    (h : (hw.stmmacHwtstampIoctl cap s call).ret < 0 →
      (hw.stmmacHwtstampIoctl cap s call).state = s) : cap.Clean s call := by
  refine ⟨fun hvalid hunknown => ?_, hcopied⟩
  rw [ioctl_of_unknown hcap hvalid hunknown] at h
  exact (congrArg TsState.hwtsTxEn (h (by simp))).symm

/-- The requests that return 0 are those that are accepted. -/
theorem ret_eq_zero_iff :
    (hw.stmmacHwtstampIoctl cap s call).ret = 0 ↔ (hw.accepted cap call).isSome := by
  unfold accepted
  cases ha : hw.asked cap call with
  | none =>
    have hret := (ioctl_of_not_asked (s := s) hcap ha).1
    simpa using hret.ne
  | some a =>
    rw [(ioctl_of_asked hcap ha).2]
    cases call.copyTo <;> simp

/-- A clean request puts its setting if it is accepted, and else changes nothing. -/
theorem state_of_clean (h : cap.Clean s call) :
    (hw.stmmacHwtstampIoctl cap s call).state = (hw.accepted cap call).elim s (hw.put s) := by
  unfold accepted
  cases ha : hw.asked cap call with
  | none =>
    rw [(ioctl_of_not_asked hcap ha).2.mpr h.unknown, ite_self]
    rfl
  | some a =>
    obtain ⟨hvalid, hknows⟩ := asked_isSome_iff.mp (Option.isSome_of_eq_some ha)
    rw [(ioctl_of_asked hcap ha).1, if_pos (h.copied hvalid hknows)]
    rfl

end Capable

/-! ## Sequences of requests -/

/-- A run of clean requests puts the settings of those that are accepted, one after the other. -/
theorem run_eq_foldl (hcap : cap.Capable)
    (run : Run (hw.hwtstampStep cap) cap.Clean s calls t) :
    t = (calls.filterMap (hw.accepted cap)).foldl hw.put s := by
  induction run with
  | nil => rfl
  | cons hclean hstep _ ih =>
    obtain rfl := Option.some.inj hstep
    rw [ih, state_of_clean hcap hclean, List.filterMap_cons]
    cases hw.accepted cap _ <;> rfl

theorem run_reflectsLast (hcap : cap.Capable)
    (run : Run (hw.hwtstampStep cap) cap.Clean s calls t) :
    hw.ReflectsLast cap s calls t := by
  have hfold := run_eq_foldl hcap run
  refine ⟨hfold, fun a ha => ?_⟩
  obtain ⟨before, hbefore⟩ := List.getLast?_eq_some_iff.mp ha
  rw [hbefore, List.foldl_append] at hfold
  rw [hfold]
  exact ⟨_, hw.shows_put _ a⟩

/-! ## The flags -/

theorem fst_advRxFilter {rxFilter : BitVec 32} : ∀ found ∈ hw.advRxFilter rxFilter,
    found.1 = rxFilter := by
  have hite : ∀ (filter : BitVec 32) (bits : TsBits) (rest : Option (BitVec 32 × TsBits)),
      (∀ found ∈ rest, found.1 = rxFilter) →
        ∀ found ∈ (if rxFilter = filter then some (filter, bits) else rest),
          found.1 = rxFilter := by
    intro filter bits rest hrest found hfound
    split_ifs at hfound with h
    · obtain rfl := Option.some.inj hfound
      exact h.symm
    · exact hrest found hfound
  unfold advRxFilter
  dsimp only
  iterate 11 refine hite _ _ _ ?_
  simp

theorem rxFilter_off_iff {rxFilter : BitVec 32} {found : BitVec 32 × TsBits}
    (h : hw.rxFilter cap rxFilter = some found) :
    found.1 = hwtstampFilterNone ↔ rxFilter = hwtstampFilterNone := by
  unfold PtpHw.rxFilter at h
  split_ifs at h with hadv
  · rw [fst_advRxFilter found h]
  · obtain rfl := Option.some.inj h
    unfold basicRxFilter
    by_cases hnone : rxFilter = hwtstampFilterNone
    · simp [hnone]
    · rw [if_neg hnone]
      exact iff_of_false (by decide) hnone

/-- The two enables that are asked for. -/
theorem enables_of_asked {a : TsSetting} (h : hw.asked cap call = some a) :
    (a.txEn != 0) = (call.txType == hwtstampTxOn) ∧
      (a.rxEn != 0) = (call.rxFilter != hwtstampFilterNone) := by
  obtain ⟨⟨-, -, htype⟩, -⟩ := asked_isSome_iff.mp (Option.isSome_of_eq_some h)
  unfold asked at h
  split_ifs at h
  obtain ⟨found, hfound, rfl⟩ := Option.map_eq_some_iff.mp h
  constructor
  · unfold HwtstampCall.txEn
    rcases htype with htype | htype <;> rw [htype] <;> rfl
  · have hoff := rxFilter_off_iff hfound
    by_cases hnone : call.rxFilter = hwtstampFilterNone <;> simp [hoff, hnone]

theorem not_capable_iff : (!(cap.timeStamp != 0 || cap.advTs != 0)) = true ↔ ¬ cap.Capable := by
  simp [TsCap.Capable]

theorem not_knows_iff {rxFilter : BitVec 32} :
    ((cap.advTs != 0) = true ∧ rxFilter ≠ hwtstampFilterNone ∧ rxFilter ≠ hwtstampFilterAll ∧
      rxFilter ∉ hwtstampPtpFilters) ↔ ¬ cap.Knows rxFilter := by
  unfold TsCap.Knows
  rw [bne_iff_ne]
  tauto

/-- The flags and the result are those that the model of the calls through the tables goes by. -/
theorem ioctl_flags (s : TsState P) (call : HwtstampCall) :
    let res := Stmmac.stmmacHwtstampIoctl (cap.timeStamp != 0) (cap.advTs != 0) call.toHwtstampReq
      (s.hwtsTxEn != 0) (s.hwtsRxEn != 0)
    let res' := hw.stmmacHwtstampIoctl cap s call
    res.ret = res'.ret ∧ res.txEn = (res'.state.hwtsTxEn != 0) ∧
      res.rxEn = (res'.state.hwtsRxEn != 0) := by
  intro res res'
  unfold res res' Stmmac.stmmacHwtstampIoctl
  simp only [not_capable_iff, not_knows_iff]
  by_cases hcapable : cap.Capable
  · by_cases hvalid : call.Valid
    · obtain ⟨hcopy, hflags, htype⟩ := id hvalid
      have hcopy' : ¬ (!call.copyFrom) = true := by simp [hcopy]
      rw [if_neg (not_not.mpr hcapable), if_neg hcopy', if_neg (not_not.mpr hflags),
        if_neg hvalid.txType_known]
      cases ha : hw.asked cap call with
      | some a =>
        obtain ⟨-, hk⟩ := asked_isSome_iff.mp (Option.isSome_of_eq_some ha)
        obtain ⟨hstate, hret⟩ := ioctl_of_asked (s := s) hcapable ha
        obtain ⟨htx, hrx, -⟩ := hw.shows_put s a
        obtain ⟨htx', hrx'⟩ := enables_of_asked ha
        rw [if_neg (not_not.mpr hk), hstate, hret, htx, hrx, htx', hrx']
        exact ⟨rfl, rfl, rfl⟩
      | none =>
        have hk := not_knows_of_not_asked ha hvalid
        rw [if_pos hk, ioctl_of_unknown hcapable hvalid hk]
        unfold HwtstampCall.txEn
        rcases htype with htype | htype <;> rw [htype] <;> exact ⟨rfl, rfl, rfl⟩
    · unfold stmmacHwtstampIoctl
      unfold HwtstampCall.Valid at hvalid
      split_ifs <;> simp_all
  · unfold stmmacHwtstampIoctl
    rw [if_pos hcapable, if_pos hcapable]
    exact ⟨rfl, rfl, rfl⟩

end PtpHw

open PtpHw

/-- A refused request changes nothing if it is clean, and only then where its answer can be copied
out; where it cannot, it was all stored, and changes nothing only if its enables were there. The
accepted requests are those that return 0, and in a run of clean requests every state reflects the
last of them. -/
theorem hwtstamp_refused_iff (hw : PtpHw P) {cap : TsCap} (hcap : cap.Capable) :
    (∀ s call, cap.Clean s call → (hw.stmmacHwtstampIoctl cap s call).ret < 0 →
      (hw.stmmacHwtstampIoctl cap s call).state = s) ∧
    (∀ s call, (call.Valid → cap.Knows call.rxFilter → call.copyTo = true) →
      ((hw.stmmacHwtstampIoctl cap s call).ret < 0 →
        (hw.stmmacHwtstampIoctl cap s call).state = s) → cap.Clean s call) ∧
    (∀ s call, ∀ a ∈ hw.asked cap call, (hw.stmmacHwtstampIoctl cap s call).state = s →
      s.hwtsTxEn = a.txEn ∧ s.hwtsRxEn = a.rxEn) ∧
    (∀ s call, (hw.stmmacHwtstampIoctl cap s call).ret = 0 ↔
      (hw.accepted cap call).isSome) ∧
    ∀ s calls t, Run (hw.hwtstampStep cap) cap.Clean s calls t →
      hw.ReflectsLast cap s calls t := by
  refine ⟨fun _ _ => unchanged_of_clean hcap, fun _ _ => clean_of_unchanged hcap, ?_,
    fun _ _ => ret_eq_zero_iff hcap, fun _ _ _ run => run_reflectsLast hcap run⟩
  intro s call a ha h
  rw [(ioctl_of_asked hcap ha).1] at h
  exact enables_of_put_eq_self h

/-- The registers that the operations write, without the bits that clear themselves. -/
structure PtpRegs where
  tcr : BitVec 32
  ssir : BitVec 32
  tar : BitVec 32
  stsur : BitVec 32
  stnsur : BitVec 32
  deriving DecidableEq

/-- A unit with a clock of 62.5 MHz. -/
def ptpRegsHw : PtpHw PtpRegs where
  tsena := 0x00000001
  tscfupdt := 0x00000002
  tsctrlssr := 0x00000200
  tsenall := 0x00000100
  tsver2ena := 0x00000400
  tsipena := 0x00000800
  tsipv6ena := 0x00001000
  tsipv4ena := 0x00002000
  tsevntena := 0x00004000
  tsmstrena := 0x00008000
  snaptypsel1 := 0x00010000
  sysclock := 62500000
  configHwTstamping ptp data := { ptp with tcr := data }
  configSubSecondIncrement ptp := { ptp with ssir := 20 }
  configAddend ptp addend := { ptp with tar := addend }
  initSystime ptp sec nsec := { ptp with stsur := sec, stnsur := nsec }

/-- Nothing is time stamped. -/
def TsState.idle : TsState PtpRegs := ⟨0, 0, 0, ⟨0, 0, 0, 0, 0⟩⟩

/-- A request that can be copied both ways. -/
def HwtstampCall.of (flags txType rxFilter : BitVec 32) : HwtstampCall :=
  ⟨⟨true, true, flags, txType, rxFilter⟩, 1000, 0⟩

/-- Time stamps are turned on, a request has flags and another a filter the driver does not know,
and event packets are chosen. -/
theorem hwtstamp_refused_four :
    ((ptpRegsHw.stmmacHwtstampIoctl ⟨1, 1⟩ .idle (.of 1 1 0)).ret < 0 →
        (ptpRegsHw.stmmacHwtstampIoctl ⟨1, 1⟩ .idle (.of 1 1 0)).state = .idle) ∧
    ∃ t, Run (ptpRegsHw.hwtstampStep ⟨1, 1⟩) (TsCap.Clean ⟨1, 1⟩) .idle
        [.of 0 1 1, .of 2 0 0, .of 0 1 9, .of 0 1 12] t ∧
      ptpRegsHw.ReflectsLast ⟨1, 1⟩ .idle [.of 0 1 1, .of 2 0 0, .of 0 1 9, .of 0 1 12] t := by
  have hcap : TsCap.Capable ⟨1, 1⟩ := by decide
  obtain ⟨hclean, -, -, -, hruns⟩ := hwtstamp_refused_iff ptpRegsHw hcap
  exact ⟨hclean _ _ (by decide), exec_exists (by decide) fun t run => hruns _ _ t run⟩

/-- The filter 9 is refused, and the packets that are sent are time stamped from now on. -/
theorem refused_turns_tx_on :
    (ptpRegsHw.stmmacHwtstampIoctl ⟨0, 1⟩ .idle (.of 0 1 9)).ret = -34 ∧
      (ptpRegsHw.stmmacHwtstampIoctl ⟨0, 1⟩ .idle (.of 0 1 9)).state ≠ .idle := by
  have hcap : TsCap.Capable ⟨0, 1⟩ := by decide
  have hvalid : (HwtstampCall.of 0 1 9).Valid := by decide
  have hknows : ¬ TsCap.Knows ⟨0, 1⟩ 9 := by decide
  rw [ioctl_of_unknown hcap hvalid hknows]
  decide

end Stmmac
