import Stmmac.Library.Bits

/-!
# RGMII set-up of the GRF registers

A write to a GRF register takes its data from the low half of the word and the bits to replace from
the high half. `SET_RGMII` shifts the delays into such words without cutting them off at their seven
bits. The bits beyond reach the high half and open other fields of the register for the data bits
that happen to be there.
-/

namespace Stmmac

open Library

inductive GrfReg where
  | socCon1
  | socCon3
  deriving DecidableEq

abbrev Grf := GrfReg → BitVec 32

/-- The content of a register after a write of `w`. -/
def grfWrite (content w : BitVec 32) : BitVec 32 := Bits.merge content w (w >>> 16)

def grfWritel (v : BitVec 32) (offset : GrfReg) (grf : Grf) : Grf :=
  Function.update grf offset (grfWrite (grf offset) v)

def gmacPhyIntfSelRgmii : BitVec 32 := 0x01C0#32 <<< 16 ||| 0x0040
def gmacRmiiModeClr : BitVec 32 := 0x4000#32 <<< 16 ||| 0x0000
def gmacTxclkDlyEnable : BitVec 32 := 0x4000#32 <<< 16 ||| 0x4000
def gmacRxclkDlyEnable : BitVec 32 := 0x8000#32 <<< 16 ||| 0x8000
def gmacClkRxDlCfg (val : BitVec 32) : BitVec 32 := 0x3F80#32 <<< 16 ||| val <<< 7
def gmacClkTxDlCfg (val : BitVec 32) : BitVec 32 := 0x007F#32 <<< 16 ||| val

/-- `SET_RGMII`. -/
def setRgmii (txDelay rxDelay : BitVec 32) (grf : Grf) : Grf :=
  let grf := grfWritel gmacPhyIntfSelRgmii .socCon1 grf
  let grf := grfWritel gmacRmiiModeClr .socCon1 grf
  let grf := grfWritel gmacRxclkDlyEnable .socCon3 grf
  let grf := grfWritel gmacTxclkDlyEnable .socCon3 grf
  let grf := grfWritel (gmacClkRxDlCfg rxDelay) .socCon3 grf
  grfWritel (gmacClkTxDlCfg txDelay) .socCon3 grf

/-- The delays are enabled and in their fields, and beside them only the choice of the interface
has changed. -/
structure RgmiiSet (txDelay rxDelay : BitVec 32) (before after : Grf) : Prop where
  enabled : (after .socCon3).getLsbD 15 = true ∧ (after .socCon3).getLsbD 14 = true
  rx_field : ∀ j < 7, (after .socCon3).getLsbD (7 + j) = rxDelay.getLsbD j
  tx_field : ∀ j < 7, (after .socCon3).getLsbD j = txDelay.getLsbD j
  con1_frame : ∀ j < 16, ¬ (6 ≤ j ∧ j ≤ 8) → j ≠ 14 →
    (after .socCon1).getLsbD j = (before .socCon1).getLsbD j

/-- Where a delay opens another field, the data bits that it brings are those the field has. -/
structure DelaysFit (txDelay rxDelay : BitVec 32) : Prop where
  rx_field : ∀ j < 7, txDelay.getLsbD (23 + j) = true → txDelay.getLsbD (7 + j) = rxDelay.getLsbD j
  tx_enable : if txDelay.getLsbD 30 then txDelay.getLsbD 14 = true
    else rxDelay.getLsbD 23 = true → rxDelay.getLsbD 7 = true
  rx_enable : if txDelay.getLsbD 31 then txDelay.getLsbD 15 = true
    else rxDelay.getLsbD 24 = true → rxDelay.getLsbD 8 = true

/-! ## The writes -/

section Writes

variable (content w txDelay rxDelay : BitVec 32) {j : Nat}

theorem getLsbD_grfWrite (j : Nat) : (grfWrite content w).getLsbD j =
    if w.getLsbD (16 + j) then w.getLsbD j else content.getLsbD j := by
  rw [grfWrite, Bits.getLsbD_merge, BitVec.getLsbD_ushiftRight]

theorem getLsbD_rxDlCfg {i : Nat} (hi : i < 32) : (gmacClkRxDlCfg rxDelay).getLsbD i =
    (decide (23 ≤ i ∧ i < 30) || decide (7 ≤ i) && rxDelay.getLsbD (i - 7)) := by
  have hmask : ∀ i < 32, (0x3F80#32 <<< 16).getLsbD i = decide (23 ≤ i ∧ i < 30) := by
    decide
  have hseven : (!decide (i < 7)) = decide (7 ≤ i) := by grind
  rw [gmacClkRxDlCfg, BitVec.getLsbD_or, hmask i hi, BitVec.getLsbD_shiftLeft, decide_eq_true hi,
    Bool.true_and, hseven]

theorem getLsbD_txDlCfg {i : Nat} (hi : i < 32) : (gmacClkTxDlCfg txDelay).getLsbD i =
    (decide (16 ≤ i ∧ i < 23) || txDelay.getLsbD i) := by
  have hmask : ∀ i < 32, (0x007F#32 <<< 16).getLsbD i = decide (16 ≤ i ∧ i < 23) := by
    decide
  rw [gmacClkTxDlCfg, BitVec.getLsbD_or, hmask i hi]

/-- `SOC_CON3` after the two delays. -/
def withDelays : BitVec 32 :=
  grfWrite (grfWrite content (gmacClkRxDlCfg rxDelay)) (gmacClkTxDlCfg txDelay)

theorem withDelays_tx (hj : j < 7) :
    (withDelays content txDelay rxDelay).getLsbD j = txDelay.getLsbD j := by
  rw [withDelays, getLsbD_grfWrite, getLsbD_txDlCfg _ (by omega),
    getLsbD_txDlCfg _ (by omega)]
  grind

theorem withDelays_rx (hj : j < 7) : (withDelays content txDelay rxDelay).getLsbD (7 + j) =
    if txDelay.getLsbD (23 + j) then txDelay.getLsbD (7 + j) else rxDelay.getLsbD j := by
  rw [withDelays, getLsbD_grfWrite, getLsbD_grfWrite,
    getLsbD_txDlCfg _ (by omega), getLsbD_txDlCfg _ (by omega), getLsbD_rxDlCfg _ (by omega),
    getLsbD_rxDlCfg _ (by omega)]
  grind

/-- The two bits that enable the delays. -/
theorem withDelays_enable (hj : 14 ≤ j ∧ j < 16) :
    (withDelays content txDelay rxDelay).getLsbD j =
      if txDelay.getLsbD (16 + j) then txDelay.getLsbD j
      else if rxDelay.getLsbD (9 + j) then rxDelay.getLsbD (j - 7) else content.getLsbD j := by
  rw [withDelays, getLsbD_grfWrite, getLsbD_grfWrite,
    getLsbD_txDlCfg _ (by omega), getLsbD_txDlCfg _ (by omega), getLsbD_rxDlCfg _ (by omega),
    getLsbD_rxDlCfg _ (by omega)]
  grind

end Writes

/-! ## The set-up -/

section Setup

variable (txDelay rxDelay : BitVec 32) (grf : Grf)

theorem setRgmii_con1 : setRgmii txDelay rxDelay grf .socCon1 =
    grfWrite (grfWrite (grf .socCon1) gmacPhyIntfSelRgmii) gmacRmiiModeClr := by
  simp [setRgmii, grfWritel]

theorem setRgmii_con3 : setRgmii txDelay rxDelay grf .socCon3 =
    withDelays (grfWrite (grfWrite (grf .socCon3) gmacRxclkDlyEnable) gmacTxclkDlyEnable) txDelay
      rxDelay := by
  simp [setRgmii, grfWritel, withDelays]

/-- Both delays are enabled before they are written. -/
theorem enabled_con3 (content : BitVec 32) {j : Nat} (hj : j = 14 ∨ j = 15) :
    (grfWrite (grfWrite content gmacRxclkDlyEnable) gmacTxclkDlyEnable).getLsbD j = true := by
  rcases hj with rfl | rfl <;>
    rw [getLsbD_grfWrite, getLsbD_grfWrite] <;> rfl

theorem con1_frame {j : Nat} (hj : j < 16) (hsel : ¬ (6 ≤ j ∧ j ≤ 8)) (hmode : j ≠ 14) :
    (setRgmii txDelay rxDelay grf .socCon1).getLsbD j = (grf .socCon1).getLsbD j := by
  have hmask : ∀ j < 16, ¬ (6 ≤ j ∧ j ≤ 8) → j ≠ 14 →
      gmacPhyIntfSelRgmii.getLsbD (16 + j) = false ∧ gmacRmiiModeClr.getLsbD (16 + j) = false := by
    decide
  obtain ⟨hsel, hmode⟩ := hmask j hj hsel hmode
  rw [setRgmii_con1, getLsbD_grfWrite, getLsbD_grfWrite, hsel, hmode]
  rfl

/-- The bits that enable the delays after the set-up. -/
theorem setRgmii_enable {j : Nat} (hj : j = 14 ∨ j = 15) :
    (setRgmii txDelay rxDelay grf .socCon3).getLsbD j = true ↔
      if txDelay.getLsbD (16 + j) then txDelay.getLsbD j = true
      else rxDelay.getLsbD (9 + j) = true → rxDelay.getLsbD (j - 7) = true := by
  rw [setRgmii_con3, withDelays_enable _ _ _ (by omega), enabled_con3 _ hj]
  cases txDelay.getLsbD (16 + j) <;> cases rxDelay.getLsbD (9 + j) <;> simp

/-- The set-up touches only its own fields exactly if the delays fit. -/
theorem rgmiiSet_iff :
    RgmiiSet txDelay rxDelay grf (setRgmii txDelay rxDelay grf) ↔ DelaysFit txDelay rxDelay := by
  have hrx : (∀ j < 7, (setRgmii txDelay rxDelay grf .socCon3).getLsbD (7 + j) =
      rxDelay.getLsbD j) ↔
        ∀ j < 7, txDelay.getLsbD (23 + j) = true → txDelay.getLsbD (7 + j) = rxDelay.getLsbD j := by
    refine forall₂_congr fun j hj => ?_
    rw [setRgmii_con3, withDelays_rx _ _ _ hj]
    cases txDelay.getLsbD (23 + j) <;> simp
  have hrxEnable := setRgmii_enable txDelay rxDelay grf (.inr rfl)
  have htxEnable := setRgmii_enable txDelay rxDelay grf (.inl rfl)
  constructor
  · intro h
    exact ⟨hrx.mp h.rx_field, htxEnable.mp h.enabled.2, hrxEnable.mp h.enabled.1⟩
  · intro h
    refine ⟨⟨hrxEnable.mpr h.rx_enable, htxEnable.mpr h.tx_enable⟩, hrx.mpr h.rx_field,
      fun j hj => ?_, fun j hj => con1_frame txDelay rxDelay grf hj⟩
    rw [setRgmii_con3, withDelays_tx _ _ _ hj]

/-- A cell with bit 30 set: the write of the TX delay clears the bit that enables it. -/
theorem rgmii_txDelay_disabled :
    ¬ RgmiiSet 0x40000030 0x10 (fun _ => 0) (setRgmii 0x40000030 0x10 fun _ => 0) := by
  intro h
  have henabled := h.enabled.2
  revert henabled
  decide

end Setup

end Stmmac
