import Stmmac.Dma.Control

/-!
# The threshold of the 10/100 core

The 10/100 core has its transmit threshold in bits 14, 15 and 22 of `DMA_CONTROL`. Its mode call
only sets bits there, so the field collects the bits of all the thresholds ever asked for and of
what it held at first. It shows the last one when the others have no bits of their own.
-/

namespace Stmmac

open Library

namespace Dma100Control

def ttcDefault : BitVec 32 := 0x00000000
def ttc64 : BitVec 32 := 0x00004000
def ttc128 : BitVec 32 := 0x00008000
def ttc256 : BitVec 32 := 0x0000c000
def ttc18 : BitVec 32 := 0x00400000
def ttc24 : BitVec 32 := 0x00404000
def ttc32 : BitVec 32 := 0x00408000
def ttc40 : BitVec 32 := 0x0040c000

/-- The bits of `enum ttc_control` that choose the threshold. -/
def ttcField : BitVec 32 := 0x0040c000

/-- The threshold that a value of the field encodes. -/
def encoded (ttc : BitVec 32) : Nat :=
  if ttc = ttcDefault then 32 else if ttc = ttc64 then 64 else if ttc = ttc128 then 128
  else if ttc = ttc256 then 256 else if ttc = ttc18 then 18 else if ttc = ttc24 then 24
  else if ttc = ttc32 then 32 else 40

def threshold (csr6 : BitVec 32) : Nat := encoded (csr6 &&& ttcField)

end Dma100Control

open Dma100Control

/-- The second argument is not used. -/
def dwmac100DmaOperationMode (regs : Regs) (txmode _rxmode : Int) : Regs :=
  let csr6 := readl regs dmaControl
  let csr6 :=
    if txmode ≤ 32 then csr6 ||| ttc32
    else if txmode ≤ 64 then csr6 ||| ttc64
    else csr6 ||| ttc128
  writel regs csr6 dmaControl

/-- Starting and stopping is the same on both cores. -/
def dma100Op (regs : Regs) : DmaOp → Regs
  | .startTx => dwmacDmaStartTx regs
  | .stopTx => dwmacDmaStopTx regs
  | .startRx => dwmacDmaStartRx regs
  | .stopRx => dwmacDmaStopRx regs
  | .operationMode txmode rxmode => dwmac100DmaOperationMode regs txmode rxmode

/-- The bits of a mode. -/
def ttcBits (txmode : Int) : BitVec 32 :=
  if txmode ≤ 32 then ttc32 else if txmode ≤ 64 then ttc64 else ttc128

/-- The threshold that a mode asks for. -/
def ttcLevel (txmode : Int) : Nat := if txmode ≤ 32 then 32 else if txmode ≤ 64 then 64 else 128

/-- The bits that an operation adds to the field. -/
def DmaOp.ttc : DmaOp → BitVec 32
  | operationMode txmode _ => ttcBits txmode
  | startTx | stopTx | startRx | stopRx => 0

/-- After the operations the field encodes the threshold of `txmode`, and the bits beside it and
beside `ST` and `SR` are those of before. -/
structure LastWins (regs : Regs) (ops : List DmaOp) (txmode : Int) : Prop where
  threshold_eq : threshold (readl (ops.foldl dma100Op regs) dmaControl) = ttcLevel txmode
  others_eq : readl (ops.foldl dma100Op regs) dmaControl &&&
      ~~~(ttcField ||| DmaControl.st ||| DmaControl.sr) =
    readl regs dmaControl &&& ~~~(ttcField ||| DmaControl.st ||| DmaControl.sr)

/-- No bits of the field but those of `txmode` are set at first or asked for. -/
structure NoOtherBits (csr6 : BitVec 32) (ops : List DmaOp) (txmode : Int) : Prop where
  initial : (csr6 &&& ttcField) &&& ttcBits txmode = csr6 &&& ttcField
  asked : ∀ mode ∈ ops.filterMap DmaOp.mode, ttcBits mode.1 &&& ttcBits txmode = ttcBits mode.1

instance (csr6 : BitVec 32) (ops : List DmaOp) (txmode : Int) :
    Decidable (NoOtherBits csr6 ops txmode) :=
  decidable_of_iff
    ((csr6 &&& ttcField) &&& ttcBits txmode = csr6 &&& ttcField ∧
      ∀ mode ∈ ops.filterMap DmaOp.mode, ttcBits mode.1 &&& ttcBits txmode = ttcBits mode.1)
    ⟨fun h => ⟨h.1, h.2⟩, fun h => ⟨h.initial, h.asked⟩⟩

variable {regs : Regs} {csr6 field : BitVec 32} {ops : List DmaOp} {txmode rxmode : Int}

/-! ## One operation -/

theorem dma100Op_eq {a : DmaOp} (h : a.mode = none) : dma100Op regs a = dmaOp regs a := by
  cases a with
  | operationMode _ _ => cases h
  | startTx | stopTx | startRx | stopRx => rfl

theorem operationMode100_eq : readl (dwmac100DmaOperationMode regs txmode rxmode) dmaControl =
    readl regs dmaControl ||| ttcBits txmode := by
  unfold dwmac100DmaOperationMode ttcBits
  dsimp only
  rw [readl_writel_self]
  split_ifs <;> rfl

theorem ttcBits_and_field (txmode : Int) : ttcBits txmode &&& ttcField = ttcBits txmode := by
  unfold ttcBits
  split_ifs <;> rfl

/-- An operation adds its bits to the field. -/
theorem readl_dma100Op_field (a : DmaOp) :
    readl (dma100Op regs a) dmaControl &&& ttcField =
      readl regs dmaControl &&& ttcField ||| a.ttc := by
  cases a with
  | operationMode txmode rxmode =>
    rw [dma100Op, operationMode100_eq, DmaOp.ttc, BitVec.and_comm, BitVec.and_or_distrib_left,
      BitVec.and_comm ttcField, BitVec.and_comm ttcField, ttcBits_and_field]
  | startTx | stopTx | startRx | stopRx =>
    rw [dma100Op_eq rfl, readl_dmaOp_and _ rfl]
    exact BitVec.or_zero.symm

/-- An operation keeps the bits that are not of the field, `ST` or `SR`. -/
theorem readl_dma100Op_others (a : DmaOp) :
    readl (dma100Op regs a) dmaControl &&& ~~~(ttcField ||| DmaControl.st ||| DmaControl.sr) =
      readl regs dmaControl &&& ~~~(ttcField ||| DmaControl.st ||| DmaControl.sr) := by
  cases a with
  | operationMode txmode rxmode =>
    have hdisjoint :
        ttcBits txmode &&& ~~~(ttcField ||| DmaControl.st ||| DmaControl.sr) = 0#32 := by
      unfold ttcBits
      split_ifs <;> rfl
    rw [dma100Op, operationMode100_eq, Bits.or_and_of_disjoint hdisjoint]
  | startTx | stopTx | startRx | stopRx => rw [dma100Op_eq rfl, readl_dmaOp_and _ rfl]

/-! ## Sequences -/

theorem foldl_dma100Op_field (ops : List DmaOp) :
    readl (ops.foldl dma100Op regs) dmaControl &&& ttcField =
      ops.foldl (fun w a => w ||| a.ttc) (readl regs dmaControl &&& ttcField) := by
  induction ops generalizing regs with
  | nil => rfl
  | cons a ops ih => rw [List.foldl_cons, ih, readl_dma100Op_field, List.foldl_cons]

theorem foldl_dma100Op_others (ops : List DmaOp) :
    readl (ops.foldl dma100Op regs) dmaControl &&&
        ~~~(ttcField ||| DmaControl.st ||| DmaControl.sr) =
      readl regs dmaControl &&& ~~~(ttcField ||| DmaControl.st ||| DmaControl.sr) := by
  induction ops generalizing regs with
  | nil => rfl
  | cons a ops ih => exact ih.trans (readl_dma100Op_others a)

theorem encoded_eq_32 {ttc : BitVec 32} : encoded ttc = 32 ↔ ttc = ttcDefault ∨ ttc = ttc32 := by
  unfold encoded
  constructor
  · intro h
    split_ifs at h <;> simp_all
  · rintro (rfl | rfl) <;> rfl

theorem encoded_eq_64 {ttc : BitVec 32} : encoded ttc = 64 ↔ ttc = ttc64 := by
  unfold encoded
  constructor
  · intro h
    split_ifs at h <;> simp_all
  · rintro rfl
    rfl

theorem encoded_eq_128 {ttc : BitVec 32} : encoded ttc = 128 ↔ ttc = ttc128 := by
  unfold encoded
  constructor
  · intro h
    split_ifs at h <;> simp_all
  · rintro rfl
    rfl

/-- A field with the bits of a mode encodes its threshold only if it has no others. -/
theorem encoded_eq_iff {ttc : BitVec 32} (h : ttcBits txmode &&& ttc = ttcBits txmode) :
    encoded ttc = ttcLevel txmode ↔ ttc = ttcBits txmode := by
  unfold ttcBits ttcLevel at *
  split_ifs at h ⊢
  · rw [encoded_eq_32]
    refine or_iff_right ?_
    rintro rfl
    revert h
    decide
  · exact encoded_eq_64
  · exact encoded_eq_128

/-- The bits of the field are among those of a mode exactly if no others are set or asked for. -/
theorem noOtherBits_iff : NoOtherBits (readl regs dmaControl) ops txmode ↔
    (readl (ops.foldl dma100Op regs) dmaControl &&& ttcField) &&& ttcBits txmode =
      readl (ops.foldl dma100Op regs) dmaControl &&& ttcField := by
  have hask : (∀ mode ∈ ops.filterMap DmaOp.mode,
      ttcBits mode.1 &&& ttcBits txmode = ttcBits mode.1) ↔
        ∀ a ∈ ops, a.ttc &&& ttcBits txmode = a.ttc := by
    rw [List.forall_mem_filterMap]
    refine forall₂_congr fun a _ => ?_
    cases a with
    | operationMode mode _ => simp [DmaOp.mode, DmaOp.ttc]
    | startTx | stopTx | startRx | stopRx => simp [DmaOp.mode, DmaOp.ttc]
  rw [foldl_dma100Op_field, Bits.foldl_or_subset_iff, ← hask]
  exact ⟨fun h => ⟨h.initial, h.asked⟩, fun h => ⟨h.1, h.2⟩⟩

theorem ttc_eq_of_mode {a : DmaOp} (h : a.mode = some (txmode, rxmode)) :
    a.ttc = ttcBits txmode := by
  cases a with
  | operationMode mode _ =>
    obtain ⟨rfl, -⟩ := Prod.mk.inj (Option.some.inj h)
    rfl
  | startTx | stopTx | startRx | stopRx => cases h

/-- The bits that some call asked for are in the field. -/
theorem ttc_subset_field {a : DmaOp} (ha : a ∈ ops) :
    a.ttc &&& (readl (ops.foldl dma100Op regs) dmaControl &&& ttcField) = a.ttc := by
  rw [foldl_dma100Op_field]
  exact (Bits.foldl_or_subset_iff.mp (BitVec.and_self)).2 a ha

/-- The last mode call wins exactly if the field had no bits of its own and no earlier call asked
for others. -/
theorem lastWins_iff (hlast : latest DmaOp.mode ops = some (txmode, rxmode)) :
    LastWins regs ops txmode ↔ NoOtherBits (readl regs dmaControl) ops txmode := by
  obtain ⟨a, ha, hmode⟩ := exists_of_latest hlast
  have hsub : a.ttc &&& (readl (ops.foldl dma100Op regs) dmaControl &&& ttcField) = a.ttc :=
    ttc_subset_field ha
  rw [ttc_eq_of_mode hmode] at hsub
  rw [noOtherBits_iff]
  constructor
  · rintro ⟨hthreshold, -⟩
    rw [(encoded_eq_iff hsub).mp hthreshold, BitVec.and_self]
  · intro hother
    exact ⟨(encoded_eq_iff hsub).mpr (Bits.eq_of_subset hother hsub), foldl_dma100Op_others ops⟩

/-- The threshold 256 and then, with the transmit side started in between, 200. -/
theorem lastWins_200 :
    LastWins (fun _ => 0) [.operationMode 256 1, .startTx, .operationMode 200 1] 200 ↔
      NoOtherBits 0 [.operationMode 256 1, .startTx, .operationMode 200 1] 200 := by
  have hlast : latest DmaOp.mode [.operationMode 256 1, .startTx, .operationMode 200 1] =
      some (200, 1) := rfl
  exact lastWins_iff hlast

/-- The threshold 64 of a device that is opened, and its first bump to 128: the field says 256. -/
theorem bump_to_256 :
    ¬ LastWins (fun _ => 0) [.operationMode 64 1, .startTx, .operationMode 128 1] 128 := by
  intro h
  have hlevel := h.threshold_eq
  revert hlevel
  decide

end Stmmac
