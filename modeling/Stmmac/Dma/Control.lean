import Stmmac.Library.History
import Stmmac.Mac.Regs

/-!
# The DMA control register

`DMA_CONTROL` is shared by six read-modify-write operations: starting and stopping each side of
the DMA (`dwmac_lib.c`) and choosing the mode of both (`dwmac1000_dma.c`). Each side of the register
holds either store-and-forward or a threshold. The operations compose: each part of the register
shows the last operation on it, whatever the others did.
-/

namespace Stmmac

open Library

/-- `SF_DMA_MODE`. -/
def sfDmaMode : Int := 1

def dmaControl : Nat := 0x1018

namespace DmaControl

def st : BitVec 32 := 0x00002000
def sr : BitVec 32 := 0x00000002
def tsf : BitVec 32 := 0x00200000
def osf : BitVec 32 := 0x00000004
def rsf : BitVec 32 := 0x02000000

def ttc64 : BitVec 32 := 0x00000000
def ttc128 : BitVec 32 := 0x00004000
def ttc192 : BitVec 32 := 0x00008000
def ttc256 : BitVec 32 := 0x0000c000
def ttc40 : BitVec 32 := 0x00010000
def ttc32 : BitVec 32 := 0x00014000
def ttc24 : BitVec 32 := 0x00018000
def tcTxMask : BitVec 32 := 0xfffe3fff

def rtc64 : BitVec 32 := 0x00000000
def rtc32 : BitVec 32 := 0x00000008
def rtc96 : BitVec 32 := 0x00000010
def rtc128 : BitVec 32 := 0x00000018
def tcRxMask : BitVec 32 := 0xffffffe7

end DmaControl

open DmaControl

/-! ## The operations -/

def dwmacDmaStartTx (regs : Regs) : Regs :=
  writel regs (readl regs dmaControl ||| st) dmaControl

def dwmacDmaStopTx (regs : Regs) : Regs :=
  writel regs (readl regs dmaControl &&& ~~~st) dmaControl

def dwmacDmaStartRx (regs : Regs) : Regs :=
  writel regs (readl regs dmaControl ||| sr) dmaControl

def dwmacDmaStopRx (regs : Regs) : Regs :=
  writel regs (readl regs dmaControl &&& ~~~sr) dmaControl

/-- The transmit half of `dwmac1000_dma_operation_mode`. -/
def csr6TxMode (txmode : Int) (csr6 : BitVec 32) : BitVec 32 :=
  if txmode = sfDmaMode then (csr6 ||| tsf) ||| osf
  else
    let csr6 := (csr6 &&& ~~~tsf) &&& tcTxMask
    if txmode ≤ 32 then csr6 ||| ttc32
    else if txmode ≤ 64 then csr6 ||| ttc64
    else if txmode ≤ 128 then csr6 ||| ttc128
    else if txmode ≤ 192 then csr6 ||| ttc192
    else csr6 ||| ttc256

/-- The receive half of `dwmac1000_dma_operation_mode`. -/
def csr6RxMode (rxmode : Int) (csr6 : BitVec 32) : BitVec 32 :=
  if rxmode = sfDmaMode then csr6 ||| rsf
  else
    let csr6 := (csr6 &&& ~~~rsf) &&& tcRxMask
    if rxmode ≤ 32 then csr6 ||| rtc32
    else if rxmode ≤ 64 then csr6 ||| rtc64
    else if rxmode ≤ 96 then csr6 ||| rtc96
    else csr6 ||| rtc128

def dwmac1000DmaOperationMode (regs : Regs) (txmode rxmode : Int) : Regs :=
  let csr6 := readl regs dmaControl
  let csr6 := csr6TxMode txmode csr6
  let csr6 := csr6RxMode rxmode csr6
  writel regs csr6 dmaControl

inductive DmaOp where
  | startTx | stopTx | startRx | stopRx
  | operationMode (txmode rxmode : Int)
  deriving DecidableEq

def dmaOp (regs : Regs) : DmaOp → Regs
  | .startTx => dwmacDmaStartTx regs
  | .stopTx => dwmacDmaStopTx regs
  | .startRx => dwmacDmaStartRx regs
  | .stopRx => dwmacDmaStopRx regs
  | .operationMode txmode rxmode => dwmac1000DmaOperationMode regs txmode rxmode

/-! ## What the register says -/

namespace DmaControl

/-- The bits of `enum ttc_control`. -/
def ttcField : BitVec 32 := 0x0001c000

/-- The bits of `enum rtc_control`. -/
def rtcField : BitVec 32 := 0x00000018

/-- What the operations write. -/
def written : BitVec 32 := st ||| sr ||| tsf ||| osf ||| rsf ||| ttcField ||| rtcField

/-- The transmit threshold that the TTC field encodes. -/
def ttcThreshold (csr6 : BitVec 32) : Nat :=
  let ttc := csr6 &&& ttcField
  if ttc = ttc64 then 64 else if ttc = ttc128 then 128 else if ttc = ttc192 then 192
  else if ttc = ttc256 then 256 else if ttc = ttc40 then 40 else if ttc = ttc32 then 32
  else if ttc = ttc24 then 24 else 16

/-- The receive threshold that the RTC field encodes. -/
def rtcThreshold (csr6 : BitVec 32) : Nat :=
  let rtc := csr6 &&& rtcField
  if rtc = rtc64 then 64 else if rtc = rtc32 then 32 else if rtc = rtc96 then 96 else 128

/-- The mode of the transmit side: store-and-forward (`none`) or a threshold. -/
def txMode (csr6 : BitVec 32) : Option Nat :=
  if hasBit csr6 tsf then none else some (ttcThreshold csr6)

/-- The mode of the receive side. -/
def rxMode (csr6 : BitVec 32) : Option Nat :=
  if hasBit csr6 rsf then none else some (rtcThreshold csr6)

end DmaControl

/-- The smallest of `levels` that is at least `mode`, the largest of them if none is. -/
structure IsThreshold (levels : List Nat) (mode : Int) (t : Nat) : Prop where
  mem : t ∈ levels
  least : ∀ u ∈ levels, mode ≤ u → mode ≤ t ∧ t ≤ u
  greatest : (∀ u ∈ levels, (u : Int) < mode) → ∀ u ∈ levels, u ≤ t

def txLevels : List Nat := [32, 64, 128, 192, 256]
def rxLevels : List Nat := [32, 64, 96, 128]

namespace DmaOp

/-- What an operation makes of the transmit side: started or stopped. -/
def startsTx : DmaOp → Option Bool
  | startTx => some true
  | stopTx => some false
  | startRx | stopRx | operationMode _ _ => none

def startsRx : DmaOp → Option Bool
  | startRx => some true
  | stopRx => some false
  | startTx | stopTx | operationMode _ _ => none

/-- The arguments of a mode call. -/
def mode : DmaOp → Option (Int × Int)
  | operationMode txmode rxmode => some (txmode, rxmode)
  | startTx | stopTx | startRx | stopRx => none

end DmaOp

variable {regs : Regs} {csr6 csr6' bits field : BitVec 32} {txmode rxmode mode : Int}
  {levels : List Nat} {t t' : Nat} {ops : List DmaOp}

/-! ## Thresholds -/

/-- A higher mode has no lower threshold. -/
theorem IsThreshold.mono {mode' : Int} (h : IsThreshold levels mode t)
    (h' : IsThreshold levels mode' t') (hle : mode ≤ mode') : t ≤ t' := by
  by_cases hex : ∃ u ∈ levels, mode' ≤ u
  · obtain ⟨u, hu, hu'⟩ := hex
    have ht' := (h'.least u hu hu').1
    exact (h.least t' h'.mem (by omega)).2
  · refine h'.greatest (fun u hu => ?_) t h.mem
    by_contra hlt
    exact hex ⟨u, hu, by omega⟩

/-- The transmit threshold of a mode, as the code picks it. -/
def txThreshold (txmode : Int) : Nat :=
  if txmode ≤ 32 then 32 else if txmode ≤ 64 then 64 else if txmode ≤ 128 then 128
  else if txmode ≤ 192 then 192 else 256

def rxThreshold (rxmode : Int) : Nat :=
  if rxmode ≤ 32 then 32 else if rxmode ≤ 64 then 64 else if rxmode ≤ 96 then 96 else 128

theorem isThreshold_txThreshold (txmode : Int) :
    IsThreshold txLevels txmode (txThreshold txmode) := by
  unfold txThreshold
  constructor <;> simp only [txLevels, List.mem_cons, List.not_mem_nil, or_false] <;> grind

theorem isThreshold_rxThreshold (rxmode : Int) :
    IsThreshold rxLevels rxmode (rxThreshold rxmode) := by
  unfold rxThreshold
  constructor <;> simp only [rxLevels, List.mem_cons, List.not_mem_nil, or_false] <;> grind

/-! ## The halves of the mode call -/

namespace DmaControl

/-- The bits that the transmit half of a mode call writes. -/
def txField : BitVec 32 := tsf ||| osf ||| ttcField

/-- The bits that the receive half of a mode call writes. -/
def rxField : BitVec 32 := rsf ||| rtcField

theorem disjoint_of_and_eq (hsub : bits &&& csr6 = bits) (h : csr6 &&& field = 0#32) :
    bits &&& field = 0#32 := by
  rw [← hsub, BitVec.and_assoc, h, BitVec.and_zero]

theorem ttcThreshold_congr (h : csr6 &&& ttcField = csr6' &&& ttcField) :
    ttcThreshold csr6 = ttcThreshold csr6' := by
  unfold ttcThreshold
  rw [h]

theorem txMode_congr (h : csr6 &&& (tsf ||| ttcField) = csr6' &&& (tsf ||| ttcField)) :
    txMode csr6 = txMode csr6' := by
  unfold txMode
  rw [hasBit_congr (Bits.and_congr_of_subset rfl h),
    ttcThreshold_congr (Bits.and_congr_of_subset rfl h)]

theorem rxMode_congr (h : csr6 &&& (rsf ||| rtcField) = csr6' &&& (rsf ||| rtcField)) :
    rxMode csr6 = rxMode csr6' := by
  have hrtc : csr6 &&& rtcField = csr6' &&& rtcField := Bits.and_congr_of_subset rfl h
  unfold rxMode rtcThreshold
  rw [hasBit_congr (Bits.and_congr_of_subset rfl h), hrtc]

end DmaControl

/-- The transmit half leaves all but its own bits alone. -/
theorem csr6TxMode_and (h : txField &&& field = 0#32) :
    csr6TxMode txmode csr6 &&& field = csr6 &&& field := by
  have hor : ∀ bits, bits &&& txField = bits → ∀ w : BitVec 32,
      (w ||| bits) &&& field = w &&& field :=
    fun bits hsub w => Bits.or_and_of_disjoint (disjoint_of_and_eq hsub h)
  have hnot : ∀ bits, bits &&& txField = bits → ∀ w : BitVec 32,
      (w &&& ~~~bits) &&& field = w &&& field :=
    fun bits hsub w => Bits.andNot_and_of_disjoint (disjoint_of_and_eq hsub h)
  have hclear : ((csr6 &&& ~~~tsf) &&& tcTxMask) &&& field = csr6 &&& field :=
    (hnot ttcField rfl _).trans (hnot tsf rfl _)
  unfold csr6TxMode
  split_ifs
  · rw [hor osf rfl, hor tsf rfl]
  · exact (hor ttc32 rfl _).trans hclear
  · exact (hor ttc64 rfl _).trans hclear
  · exact (hor ttc128 rfl _).trans hclear
  · exact (hor ttc192 rfl _).trans hclear
  · exact (hor ttc256 rfl _).trans hclear

/-- The receive half leaves all but its own bits alone. -/
theorem csr6RxMode_and (h : rxField &&& field = 0#32) :
    csr6RxMode rxmode csr6 &&& field = csr6 &&& field := by
  have hor : ∀ bits, bits &&& rxField = bits → ∀ w : BitVec 32,
      (w ||| bits) &&& field = w &&& field :=
    fun bits hsub w => Bits.or_and_of_disjoint (disjoint_of_and_eq hsub h)
  have hnot : ∀ bits, bits &&& rxField = bits → ∀ w : BitVec 32,
      (w &&& ~~~bits) &&& field = w &&& field :=
    fun bits hsub w => Bits.andNot_and_of_disjoint (disjoint_of_and_eq hsub h)
  have hclear : ((csr6 &&& ~~~rsf) &&& tcRxMask) &&& field = csr6 &&& field :=
    (hnot rtcField rfl _).trans (hnot rsf rfl _)
  unfold csr6RxMode
  split_ifs
  · exact hor rsf rfl _
  · exact (hor rtc32 rfl _).trans hclear
  · exact (hor rtc64 rfl _).trans hclear
  · exact (hor rtc96 rfl _).trans hclear
  · exact (hor rtc128 rfl _).trans hclear

/-- The mode of a side that was asked for. -/
def modeOf (threshold : Int → Nat) (mode : Int) : Option Nat :=
  if mode = sfDmaMode then none else some (threshold mode)

theorem txMode_csr6TxMode : txMode (csr6TxMode txmode csr6) = modeOf txThreshold txmode := by
  have hwrite : ∀ bits, bits &&& (tsf ||| ttcField) = bits →
      txMode (((csr6 &&& ~~~tsf) &&& tcTxMask) ||| bits) = txMode bits := by
    intro bits hsub
    have hclear : ((csr6 &&& ~~~tsf) &&& tcTxMask) &&& (tsf ||| ttcField) = 0#32 := by
      have hboth : ~~~tsf &&& tcTxMask = ~~~(tsf ||| ttcField) := rfl
      rw [BitVec.and_assoc csr6, hboth]
      exact Bits.andNot_and_self
    exact txMode_congr ((Bits.or_and_of_clear hclear hsub).trans hsub.symm)
  unfold csr6TxMode modeOf
  by_cases hsf : txmode = sfDmaMode
  · rw [if_pos hsf, if_pos hsf]
    have htsf : hasBit ((csr6 ||| tsf) ||| osf) tsf = true :=
      (hasBit_congr (Bits.or_and_of_disjoint rfl)).trans (hasBit_or_self (by decide))
    exact if_pos htsf
  · rw [if_neg hsf, if_neg hsf, txThreshold]
    split_ifs <;> exact hwrite _ rfl

theorem rxMode_csr6RxMode : rxMode (csr6RxMode rxmode csr6) = modeOf rxThreshold rxmode := by
  have hwrite : ∀ bits, bits &&& (rsf ||| rtcField) = bits →
      rxMode (((csr6 &&& ~~~rsf) &&& tcRxMask) ||| bits) = rxMode bits := by
    intro bits hsub
    have hclear : ((csr6 &&& ~~~rsf) &&& tcRxMask) &&& (rsf ||| rtcField) = 0#32 := by
      have hboth : ~~~rsf &&& tcRxMask = ~~~(rsf ||| rtcField) := rfl
      rw [BitVec.and_assoc csr6, hboth]
      exact Bits.andNot_and_self
    exact rxMode_congr ((Bits.or_and_of_clear hclear hsub).trans hsub.symm)
  unfold csr6RxMode modeOf
  by_cases hsf : rxmode = sfDmaMode
  · rw [if_pos hsf, if_pos hsf]
    exact if_pos (hasBit_or_self (by decide))
  · rw [if_neg hsf, if_neg hsf, rxThreshold]
    split_ifs <;> exact hwrite _ rfl

/-! ## One operation -/

/-- The bits that an operation writes. -/
def DmaOp.writes : DmaOp → BitVec 32
  | startTx | stopTx => st
  | startRx | stopRx => sr
  | operationMode _ _ => txField ||| rxField

/-- An operation leaves all but its own bits alone. -/
theorem readl_dmaOp_and (a : DmaOp) (h : a.writes &&& field = 0#32) :
    readl (dmaOp regs a) dmaControl &&& field = readl regs dmaControl &&& field := by
  cases a with
  | startTx =>
    rw [dmaOp, dwmacDmaStartTx, readl_writel_self]
    exact Bits.or_and_of_disjoint h
  | stopTx =>
    rw [dmaOp, dwmacDmaStopTx, readl_writel_self]
    exact Bits.andNot_and_of_disjoint h
  | startRx =>
    rw [dmaOp, dwmacDmaStartRx, readl_writel_self]
    exact Bits.or_and_of_disjoint h
  | stopRx =>
    rw [dmaOp, dwmacDmaStopRx, readl_writel_self]
    exact Bits.andNot_and_of_disjoint h
  | operationMode txmode rxmode =>
    rw [dmaOp, dwmac1000DmaOperationMode, readl_writel_self]
    have h' : (txField ||| rxField) &&& field = 0#32 := h
    have htx : txField &&& field = 0#32 := disjoint_of_and_eq rfl h'
    have hrx : rxField &&& field = 0#32 := disjoint_of_and_eq rfl h'
    exact (csr6RxMode_and hrx).trans (csr6TxMode_and htx)

/-- `ST` shows whether an operation started or stopped the transmit side. -/
theorem hasBit_st_dmaOp (a : DmaOp) :
    hasBit (readl (dmaOp regs a) dmaControl) st =
      a.startsTx.getD (hasBit (readl regs dmaControl) st) := by
  cases a with
  | startTx =>
    rw [dmaOp, dwmacDmaStartTx, readl_writel_self]
    exact hasBit_or_self (by decide)
  | stopTx =>
    rw [dmaOp, dwmacDmaStopTx, readl_writel_self]
    exact hasBit_andNot_self
  | startRx | stopRx => exact hasBit_congr (readl_dmaOp_and _ rfl)
  | operationMode txmode rxmode =>
    exact hasBit_congr (readl_dmaOp_and _ (show (txField ||| rxField) &&& st = 0#32 from rfl))

/-- `SR` shows whether an operation started or stopped the receive side. -/
theorem hasBit_sr_dmaOp (a : DmaOp) :
    hasBit (readl (dmaOp regs a) dmaControl) sr =
      a.startsRx.getD (hasBit (readl regs dmaControl) sr) := by
  cases a with
  | startRx =>
    rw [dmaOp, dwmacDmaStartRx, readl_writel_self]
    exact hasBit_or_self (by decide)
  | stopRx =>
    rw [dmaOp, dwmacDmaStopRx, readl_writel_self]
    exact hasBit_andNot_self
  | startTx | stopTx => exact hasBit_congr (readl_dmaOp_and _ rfl)
  | operationMode txmode rxmode =>
    exact hasBit_congr (readl_dmaOp_and _ (show (txField ||| rxField) &&& sr = 0#32 from rfl))

/-- A mode call sets the mode of the transmit side, the others keep it. -/
theorem txMode_dmaOp (a : DmaOp) :
    txMode (readl (dmaOp regs a) dmaControl) =
      (a.mode.map fun m => modeOf txThreshold m.1).getD (txMode (readl regs dmaControl)) := by
  cases a with
  | operationMode txmode rxmode =>
    rw [dmaOp, dwmac1000DmaOperationMode, readl_writel_self]
    exact (txMode_congr (csr6RxMode_and rfl)).trans txMode_csr6TxMode
  | startTx | stopTx | startRx | stopRx => exact txMode_congr (readl_dmaOp_and _ rfl)

/-- A mode call sets the mode of the receive side, the others keep it. -/
theorem rxMode_dmaOp (a : DmaOp) :
    rxMode (readl (dmaOp regs a) dmaControl) =
      (a.mode.map fun m => modeOf rxThreshold m.2).getD (rxMode (readl regs dmaControl)) := by
  cases a with
  | operationMode txmode rxmode =>
    rw [dmaOp, dwmac1000DmaOperationMode, readl_writel_self]
    exact rxMode_csr6RxMode
  | startTx | stopTx | startRx | stopRx => exact rxMode_congr (readl_dmaOp_and _ rfl)

/-! ## Sequences of operations -/

/-- What a mode call asks for is what its side of the register says. -/
theorem txMode_eq_modeOf (h : txMode csr6 = modeOf txThreshold txmode) :
    (hasBit csr6 tsf = true ↔ txmode = sfDmaMode) ∧
      (txmode ≠ sfDmaMode → IsThreshold txLevels txmode (ttcThreshold csr6)) := by
  unfold txMode modeOf at h
  have hlevel := isThreshold_txThreshold txmode
  grind

theorem rxMode_eq_modeOf (h : rxMode csr6 = modeOf rxThreshold rxmode) :
    (hasBit csr6 rsf = true ↔ rxmode = sfDmaMode) ∧
      (rxmode ≠ sfDmaMode → IsThreshold rxLevels rxmode (rtcThreshold csr6)) := by
  unfold rxMode modeOf at h
  have hlevel := isThreshold_rxThreshold rxmode
  grind

theorem DmaOp.writes_and_compl (a : DmaOp) : a.writes &&& ~~~written = 0#32 := by
  cases a with
  | startTx | stopTx | startRx | stopRx => rfl
  | operationMode _ _ => exact (show (txField ||| rxField) &&& ~~~written = 0#32 from rfl)

/-- No operation touches the other bits. -/
theorem readl_foldl_dmaOp_and_compl (ops : List DmaOp) :
    readl (ops.foldl dmaOp regs) dmaControl &&& ~~~written =
      readl regs dmaControl &&& ~~~written := by
  induction ops generalizing regs with
  | nil => rfl
  | cons a ops ih => exact ih.trans (readl_dmaOp_and a a.writes_and_compl)

/-- The operations compose: `ST` and `SR` show the last start or stop of their side, the modes are
those of the last mode call, and the other bits are never touched. -/
theorem dmaOps_compose (regs : Regs) (ops : List DmaOp) :
    let csr6 := readl regs dmaControl
    let csr6' := readl (ops.foldl dmaOp regs) dmaControl
    hasBit csr6' st = (latest DmaOp.startsTx ops).getD (hasBit csr6 st) ∧
      hasBit csr6' sr = (latest DmaOp.startsRx ops).getD (hasBit csr6 sr) ∧
      (∀ txmode rxmode, latest DmaOp.mode ops = some (txmode, rxmode) →
        (hasBit csr6' tsf = true ↔ txmode = sfDmaMode) ∧
        (txmode ≠ sfDmaMode → IsThreshold txLevels txmode (ttcThreshold csr6')) ∧
        (hasBit csr6' rsf = true ↔ rxmode = sfDmaMode) ∧
        (rxmode ≠ sfDmaMode → IsThreshold rxLevels rxmode (rtcThreshold csr6'))) ∧
      csr6' &&& ~~~written = csr6 &&& ~~~written := by
  intro csr6 csr6'
  refine ⟨?_, ?_, fun txmode rxmode hmode => ?_, ?_⟩
  · exact foldl_latest (fun regs => hasBit (readl regs dmaControl) st)
      fun regs a _ => hasBit_st_dmaOp a
  · exact foldl_latest (fun regs => hasBit (readl regs dmaControl) sr)
      fun regs a _ => hasBit_sr_dmaOp a
  · have htx : txMode csr6' = _ :=
      foldl_latest (fun regs => txMode (readl regs dmaControl)) fun regs a _ => txMode_dmaOp a
    have hrx : rxMode csr6' = _ :=
      foldl_latest (fun regs => rxMode (readl regs dmaControl)) fun regs a _ => rxMode_dmaOp a
    rw [latest_map, hmode] at htx hrx
    obtain ⟨htsf, httc⟩ := txMode_eq_modeOf htx
    obtain ⟨hrsf, hrtc⟩ := rxMode_eq_modeOf hrx
    exact ⟨htsf, httc, hrsf, hrtc⟩
  · exact readl_foldl_dmaOp_and_compl ops

end Stmmac
