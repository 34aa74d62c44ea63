import Stmmac.Desc.Ops
import Stmmac.Dma.Control

/-!
# Initialisation of the DMA

`stmmac_init_dma_engine` and the `init` operations of both cores. A software reset gives every
register its reset value, so what is programmed after it does not depend on what was there. The
loop looks ten times at the bit that the core clears at the end of the reset.
-/

namespace Stmmac

open Library

/-! ## Registers -/

def dmaBusMode : Nat := 0x1000
def dmaXmtPollDemand : Nat := 0x1004
def dmaRcvBaseAddr : Nat := 0x100c
def dmaTxBaseAddr : Nat := 0x1010
def dmaStatus : Nat := 0x1014
def dmaIntrEna : Nat := 0x101c
def dmaRxWatchdog : Nat := 0x1024
def dmaAxiBusMode : Nat := 0x1028

namespace DmaBusMode

def sftReset : BitVec 32 := 0x00000001
def atds : BitVec 32 := 0x00000080
def pblMask : BitVec 32 := 0x00003f00
def fb : BitVec 32 := 0x00010000
def mb : BitVec 32 := 0x04000000
def rpblMask : BitVec 32 := 0x003e0000
def pbl : BitVec 32 := 0x01000000

/-- `DMA_BUS_MODE_DEFAULT` of `dwmac100.h`. -/
def dwmac100Default : BitVec 32 := 0x00000000

end DmaBusMode

/-! ## The functions -/

def ebusy : Int := 16

/-- The arguments of `init`. -/
structure DmaInitArgs where
  pbl : BitVec 32
  fb : BitVec 32
  mb : BitVec 32
  burstLen : BitVec 32
  dmaTx : BitVec 32
  dmaRx : BitVec 32
  atds : BitVec 32

/-- The core during a reset: the number of reads at which it is still going on, and the register
file after it. -/
structure ResetHw where
  busy : Nat
  regs : Regs

/-- `while (limit--)` around the test of `DMA_BUS_MODE_SFT_RESET`; what is left in `limit`. -/
def resetWait : Nat → Nat → Int
  | 0, _ => -1
  | limit + 1, 0 => limit
  | limit + 1, busy + 1 => resetWait limit busy

/-- The reset, up to the test of `limit`. -/
def dmaReset (hw : ResetHw) (regs : Regs) : Regs × Bool :=
  let value := readl regs dmaBusMode
  let value := value ||| DmaBusMode.sftReset
  let regs := writel regs value dmaBusMode
  let limit := resetWait 10 hw.busy
  if limit < 0 then (regs, false) else (hw.regs, true)

/-- The word for `DMA_BUS_MODE`. `CONFIG_GMAC_DA` is not set. -/
def dwmac1000BusMode (a : DmaInitArgs) : BitVec 32 :=
  let value := DmaBusMode.pbl ||| (a.pbl <<< 8 ||| a.pbl <<< 17)
  let value := if a.fb ≠ 0 then value ||| DmaBusMode.fb else value
  let value := if a.mb ≠ 0 then value ||| DmaBusMode.mb else value
  if a.atds ≠ 0 then value ||| DmaBusMode.atds else value

def dwmac1000DmaInit (hw : ResetHw) (a : DmaInitArgs) (regs : Regs) : Regs × Int :=
  match dmaReset hw regs with
  | (regs, false) => (regs, -ebusy)
  | (regs, true) =>
    let regs := writel regs (dwmac1000BusMode a) dmaBusMode
    let regs := writel regs a.burstLen dmaAxiBusMode
    let regs := writel regs DmaIntrEna.defaultMask dmaIntrEna
    let regs := writel regs a.dmaTx dmaTxBaseAddr
    (writel regs a.dmaRx dmaRcvBaseAddr, 0)

def dwmac100BusMode (a : DmaInitArgs) : BitVec 32 := DmaBusMode.dwmac100Default ||| a.pbl <<< 8

def dwmac100DmaInit (hw : ResetHw) (a : DmaInitArgs) (regs : Regs) : Regs × Int :=
  match dmaReset hw regs with
  | (regs, false) => (regs, -ebusy)
  | (regs, true) =>
    let regs := writel regs (dwmac100BusMode a) dmaBusMode
    let regs := writel regs DmaIntrEna.defaultMask dmaIntrEna
    let regs := writel regs a.dmaTx dmaTxBaseAddr
    (writel regs a.dmaRx dmaRcvBaseAddr, 0)

/-- `struct stmmac_dma_cfg`. -/
structure StmmacDmaCfg where
  pbl : BitVec 32
  fixedBurst : BitVec 32
  mixedBurst : BitVec 32
  burstLen : BitVec 32

/-- What `stmmac_init_dma_engine` reads. -/
structure DmaEngineConf where
  hasGmac : Bool
  dmaCfg : Option StmmacDmaCfg
  extendDesc : Bool
  mode : Mode

/-- `DEFAULT_DMA_PBL`. -/
def defaultDmaPbl : BitVec 32 := 8

def DmaEngineConf.args (c : DmaEngineConf) (dmaTxPhy dmaRxPhy : BitVec 32) : DmaInitArgs :=
  let cfg := c.dmaCfg.getD ⟨defaultDmaPbl, 0, 0, 0⟩
  let atds : BitVec 32 := if c.extendDesc && c.mode = .ring then 1 else 0
  ⟨cfg.pbl, cfg.fixedBurst, cfg.mixedBurst, cfg.burstLen, dmaTxPhy, dmaRxPhy, atds⟩

def stmmacInitDmaEngine (c : DmaEngineConf) (hw : ResetHw) (dmaTxPhy dmaRxPhy : BitVec 32)
    (regs : Regs) : Regs × Int :=
  if c.hasGmac then dwmac1000DmaInit hw (c.args dmaTxPhy dmaRxPhy) regs
  else dwmac100DmaInit hw (c.args dmaTxPhy dmaRxPhy) regs

/-! ## What the bus mode says -/

/-- The word, read through the masks of `dwmac1000.h`, says what was asked for, and nothing else. -/
structure BusModeSays (word : BitVec 32) (a : DmaInitArgs) : Prop where
  tx : (word &&& DmaBusMode.pblMask) >>> 8 = a.pbl
  rx : (word &&& DmaBusMode.rpblMask) >>> 17 = a.pbl
  fb : hasBit word DmaBusMode.fb = true ↔ a.fb ≠ 0
  mb : hasBit word DmaBusMode.mb = true ↔ a.mb ≠ 0
  atds : hasBit word DmaBusMode.atds = true ↔ a.atds ≠ 0
  rest : word &&& ~~~(DmaBusMode.pblMask ||| DmaBusMode.rpblMask ||| DmaBusMode.fb |||
    DmaBusMode.mb ||| DmaBusMode.atds) = DmaBusMode.pbl

/-- The word of the 10/100 core, which knows only one burst length. -/
structure BusMode100Says (word : BitVec 32) (a : DmaInitArgs) : Prop where
  tx : (word &&& DmaBusMode.pblMask) >>> 8 = a.pbl
  rest : word &&& ~~~DmaBusMode.pblMask = DmaBusMode.dwmac100Default

/-- The word for a burst length and three switches. -/
def busModeWord (pbl : BitVec 32) (fb mb atds : Bool) : BitVec 32 :=
  let value := DmaBusMode.pbl ||| (pbl <<< 8 ||| pbl <<< 17)
  let value := if fb then value ||| DmaBusMode.fb else value
  let value := if mb then value ||| DmaBusMode.mb else value
  if atds then value ||| DmaBusMode.atds else value

variable {a : DmaInitArgs} {hw : ResetHw} {regs : Regs} {limit busy off : Nat}

theorem dwmac1000BusMode_eq :
    dwmac1000BusMode a = busModeWord a.pbl (a.fb != 0) (a.mb != 0) (a.atds != 0) := by
  simp only [dwmac1000BusMode, busModeWord, bne_iff_ne]

/-- Every burst length of five bits, with all switches. -/
theorem busModeWord_says (k : Fin 32) (fb mb atds : Bool) :
    let word := busModeWord (BitVec.ofNat 32 k) fb mb atds
    ((word &&& DmaBusMode.pblMask) >>> 8 = BitVec.ofNat 32 k ∧
      (word &&& DmaBusMode.rpblMask) >>> 17 = BitVec.ofNat 32 k) ∧
    (hasBit word DmaBusMode.fb = fb ∧ hasBit word DmaBusMode.mb = mb ∧
      hasBit word DmaBusMode.atds = atds) ∧
    word &&& ~~~(DmaBusMode.pblMask ||| DmaBusMode.rpblMask ||| DmaBusMode.fb |||
      DmaBusMode.mb ||| DmaBusMode.atds) = DmaBusMode.pbl := by
  revert k fb mb atds
  decide +kernel

/-- The word says what was asked for exactly if the burst length fits the narrower field. -/
theorem busMode_says_iff : BusModeSays (dwmac1000BusMode a) a ↔ a.pbl.toNat < 32 := by
  constructor
  · intro h
    have hlt : ((dwmac1000BusMode a &&& DmaBusMode.rpblMask) >>> 17).toNat < 32 := by
      have hand : (dwmac1000BusMode a &&& DmaBusMode.rpblMask).toNat ≤ 0x003e0000 := by
        rw [BitVec.toNat_and]
        exact Nat.and_le_right
      rw [BitVec.toNat_ushiftRight, Nat.shiftRight_eq_div_pow]
      omega
    rwa [h.rx] at hlt
  · intro h
    have hpbl : BitVec.ofNat 32 (⟨a.pbl.toNat, h⟩ : Fin 32) = a.pbl := BitVec.ofNat_toNat 32 a.pbl
    obtain ⟨⟨htx, hrx⟩, ⟨hfb, hmb, hatds⟩, hrest⟩ :=
      busModeWord_says ⟨a.pbl.toNat, h⟩ (a.fb != 0) (a.mb != 0) (a.atds != 0)
    rw [hpbl, ← dwmac1000BusMode_eq] at htx hrx hfb hmb hatds hrest
    exact ⟨htx, hrx, by simp [hfb], by simp [hmb], by simp [hatds], hrest⟩

theorem busMode100_says_iff : BusMode100Says (dwmac100BusMode a) a ↔ a.pbl.toNat < 64 := by
  constructor
  · intro h
    have hlt : ((dwmac100BusMode a &&& DmaBusMode.pblMask) >>> 8).toNat < 64 := by
      have hand : (dwmac100BusMode a &&& DmaBusMode.pblMask).toNat ≤ 0x00003f00 := by
        rw [BitVec.toNat_and]
        exact Nat.and_le_right
      rw [BitVec.toNat_ushiftRight, Nat.shiftRight_eq_div_pow]
      omega
    rwa [h.tx] at hlt
  · intro h
    have hall : ∀ k : Fin 64,
        ((BitVec.ofNat 32 k <<< 8 &&& DmaBusMode.pblMask) >>> 8 = BitVec.ofNat 32 k) ∧
          BitVec.ofNat 32 k <<< 8 &&& ~~~DmaBusMode.pblMask = DmaBusMode.dwmac100Default := by
      decide +kernel
    have hword : dwmac100BusMode a = a.pbl <<< 8 := BitVec.zero_or
    have hpbl : BitVec.ofNat 32 (⟨a.pbl.toNat, h⟩ : Fin 64) = a.pbl := BitVec.ofNat_toNat 32 a.pbl
    have hread := hall ⟨a.pbl.toNat, h⟩
    rw [hpbl, ← hword] at hread
    exact ⟨hread.1, hread.2⟩

/-! ## The reset -/

/-- The loop ends with a negative `limit` exactly if it never saw the bit clear. -/
theorem resetWait_neg_iff : resetWait limit busy < 0 ↔ limit ≤ busy := by
  induction limit generalizing busy with
  | zero => simp [resetWait]
  | succ limit ih =>
    cases busy with
    | zero => simp [resetWait]
    | succ busy => simpa [resetWait] using ih

theorem dmaReset_of_lt (h : hw.busy < 10) : dmaReset hw regs = (hw.regs, true) := by
  have hlimit : ¬ resetWait 10 hw.busy < 0 := by
    rw [resetWait_neg_iff]
    omega
  simp [dmaReset, hlimit]

theorem dmaReset_of_le (h : 10 ≤ hw.busy) :
    dmaReset hw regs =
      (writel regs (readl regs dmaBusMode ||| DmaBusMode.sftReset) dmaBusMode, false) := by
  have hlimit : resetWait 10 hw.busy < 0 := resetWait_neg_iff.mpr h
  simp [dmaReset, hlimit]

/-! ## What is programmed -/

/-- The registers that `init` writes after the reset, with their values. -/
def DmaEngineConf.program (c : DmaEngineConf) (dmaTxPhy dmaRxPhy : BitVec 32) :
    List (Nat × BitVec 32) :=
  let a := c.args dmaTxPhy dmaRxPhy
  (if c.hasGmac then [(dmaBusMode, dwmac1000BusMode a), (dmaAxiBusMode, a.burstLen)]
    else [(dmaBusMode, dwmac100BusMode a)]) ++
  [(dmaIntrEna, DmaIntrEna.defaultMask), (dmaTxBaseAddr, dmaTxPhy), (dmaRcvBaseAddr, dmaRxPhy)]

/-- Registers written one after the other. -/
def writels (regs : Regs) (words : List (Nat × BitVec 32)) : Regs :=
  words.foldl (fun regs p => writel regs p.2 p.1) regs

/-- The burst length fits its fields. -/
def DmaEngineConf.PblFits (c : DmaEngineConf) : Prop :=
  ∀ cfg, c.dmaCfg = some cfg → cfg.pbl.toNat < if c.hasGmac then 32 else 64

/-- What the bus mode should say, for either core. -/
def DmaEngineConf.BusSays (c : DmaEngineConf) (word : BitVec 32) (a : DmaInitArgs) : Prop :=
  if c.hasGmac then BusModeSays word a else BusMode100Says word a

/-- The outcome of `stmmac_init_dma_engine`. -/
structure EngineOutcome (c : DmaEngineConf) (hw : ResetHw) (dmaTxPhy dmaRxPhy : BitVec 32)
    (before after : Regs) (ret : Int) : Prop where
  /-- Ten looks at the bit. -/
  ret_eq : ret = if hw.busy < 10 then 0 else -ebusy
  /-- A reset that does not end leaves all but its bit. -/
  busy : ret ≠ 0 →
    after = writel before (readl before dmaBusMode ||| DmaBusMode.sftReset) dmaBusMode
  /-- What is written, and nothing else, differs from the reset values. -/
  written : ret = 0 → ∀ p ∈ c.program dmaTxPhy dmaRxPhy, readl after p.1 = p.2
  others : ret = 0 → ∀ off, off ∉ (c.program dmaTxPhy dmaRxPhy).map Prod.fst →
    readl after off = readl hw.regs off
  says_iff : ret = 0 →
    (c.BusSays (readl after dmaBusMode) (c.args dmaTxPhy dmaRxPhy) ↔ c.PblFits)

variable {c : DmaEngineConf} {dmaTxPhy dmaRxPhy : BitVec 32}

theorem pblFits_iff : c.PblFits ↔
    (c.args dmaTxPhy dmaRxPhy).pbl.toNat < if c.hasGmac then 32 else 64 := by
  unfold DmaEngineConf.PblFits DmaEngineConf.args
  cases c.dmaCfg with
  | none =>
    -- the default is within both bounds
    have hdefault : defaultDmaPbl.toNat < if c.hasGmac then 32 else 64 := by
      split <;> decide
    simpa using hdefault
  | some cfg => simp

section

variable {words : List (Nat × BitVec 32)} {p : Nat × BitVec 32}

theorem readl_writels_of_notMem (h : off ∉ words.map Prod.fst) :
    readl (writels regs words) off = readl regs off := by
  induction words generalizing regs with
  | nil => rfl
  | cons q words ih =>
    rw [List.map_cons, List.mem_cons, not_or] at h
    exact (ih h.2).trans (readl_writel_of_ne _ _ h.1)

/-- Where no register is written twice, each keeps its word. -/
theorem readl_writels_of_mem (hnodup : (words.map Prod.fst).Nodup) (h : p ∈ words) :
    readl (writels regs words) p.1 = p.2 := by
  induction words generalizing regs with
  | nil => cases h
  | cons q words ih =>
    rw [List.map_cons, List.nodup_cons] at hnodup
    rcases List.mem_cons.mp h with rfl | h
    · exact (readl_writels_of_notMem hnodup.1).trans (readl_writel_self _ _)
    · exact ih hnodup.2 h

end

theorem DmaEngineConf.program_nodup : ((c.program dmaTxPhy dmaRxPhy).map Prod.fst).Nodup := by
  unfold DmaEngineConf.program
  cases c.hasGmac <;> simp [dmaBusMode, dmaAxiBusMode, dmaIntrEna, dmaTxBaseAddr, dmaRcvBaseAddr]

/-- After a reset that ends in time the registers are those after the reset, but for the words of
the program. -/
theorem stmmacInitDmaEngine_of_lt (h : hw.busy < 10) :
    stmmacInitDmaEngine c hw dmaTxPhy dmaRxPhy regs =
      (writels hw.regs (c.program dmaTxPhy dmaRxPhy), 0) := by
  unfold stmmacInitDmaEngine dwmac1000DmaInit dwmac100DmaInit DmaEngineConf.program
  rw [dmaReset_of_lt h]
  cases c.hasGmac <;> rfl

theorem stmmacInitDmaEngine_of_le (h : 10 ≤ hw.busy) :
    stmmacInitDmaEngine c hw dmaTxPhy dmaRxPhy regs =
      (writel regs (readl regs dmaBusMode ||| DmaBusMode.sftReset) dmaBusMode, -ebusy) := by
  unfold stmmacInitDmaEngine dwmac1000DmaInit dwmac100DmaInit
  rw [dmaReset_of_le h]
  cases c.hasGmac <;> rfl

/-- For every core, reset and register file: the call fails exactly if ten looks saw the reset
going on, and then leaves the registers but for the bit. Otherwise nothing of the old contents is
left, and the bus mode says what was asked for exactly if the burst length fits its field. -/
theorem init_dma_engine_outcome (c : DmaEngineConf) (hw : ResetHw) (dmaTxPhy dmaRxPhy : BitVec 32)
    (regs : Regs) :
    EngineOutcome c hw dmaTxPhy dmaRxPhy regs (stmmacInitDmaEngine c hw dmaTxPhy dmaRxPhy regs).1
      (stmmacInitDmaEngine c hw dmaTxPhy dmaRxPhy regs).2 := by
  rcases Nat.lt_or_ge hw.busy 10 with h | h
  · rw [stmmacInitDmaEngine_of_lt h]
    have hwritten : ∀ p ∈ c.program dmaTxPhy dmaRxPhy,
        readl (writels hw.regs (c.program dmaTxPhy dmaRxPhy)) p.1 = p.2 :=
      fun p hp => readl_writels_of_mem c.program_nodup hp
    refine ⟨by simp [h], fun hret => absurd rfl hret, fun _ => hwritten,
      fun _ off hoff => readl_writels_of_notMem hoff, fun _ => ?_⟩
    rw [pblFits_iff]
    unfold DmaEngineConf.BusSays
    cases hgmac : c.hasGmac with
    | true =>
      have hbus := hwritten (dmaBusMode, dwmac1000BusMode (c.args dmaTxPhy dmaRxPhy))
        (by simp [DmaEngineConf.program, hgmac])
      rw [hbus]
      exact busMode_says_iff
    | false =>
      have hbus := hwritten (dmaBusMode, dwmac100BusMode (c.args dmaTxPhy dmaRxPhy))
        (by simp [DmaEngineConf.program, hgmac])
      rw [hbus]
      exact busMode100_says_iff
  · rw [stmmacInitDmaEngine_of_le h]
    have hret : (-ebusy : Int) ≠ 0 := by decide
    exact ⟨by simp [Nat.not_lt.mpr h], fun _ => rfl, fun h => absurd h hret,
      fun h => absurd h hret, fun h => absurd h hret⟩

end Stmmac
