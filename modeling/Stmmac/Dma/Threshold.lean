import Mathlib.Data.List.Induction
import Stmmac.Irq.HardError

/-!
# The transmit threshold

The module parameter `tc` is the transmit threshold. Each underflow raises it by 64 and writes the
mode anew. The parameter is not checked: a negative one may meet `SF_DMA_MODE`, which is 1, on its
way up, and a bump then switches the transmit side to store-and-forward.
-/

namespace Stmmac

/-- What `stmmac_dma_operation_mode` looks at. -/
structure DmaModeConf where
  forceSfDmaMode : Bool
  txCoe : Bool
  noCsumInsertion : Bool

/-- The DMA of a GMAC core, with the arguments of the calls of `dma_mode`. -/
structure DmaMode where
  regs : Regs
  tc : Int
  xstats : IrqStats
  dmaModes : List (Int × Int)

namespace DmaMode

/-- `DMA_CONTROL`. -/
def csr6 (s : DmaMode) : BitVec 32 := readl s.regs dmaControl

/-- `priv->hw->dma->dma_mode`. -/
def dmaMode (s : DmaMode) (txmode rxmode : Int) : DmaMode :=
  { s with
    regs := dwmac1000DmaOperationMode s.regs txmode rxmode
    dmaModes := s.dmaModes ++ [(txmode, rxmode)] }

end DmaMode

def DmaModeConf.storeForward (p : DmaModeConf) : Bool :=
  p.forceSfDmaMode || (p.txCoe && !p.noCsumInsertion)

def stmmacDmaOperationMode (p : DmaModeConf) (s : DmaMode) : DmaMode :=
  if p.storeForward then { s.dmaMode sfDmaMode sfDmaMode with tc := sfDmaMode }
  else s.dmaMode s.tc sfDmaMode

/-- The branch of the handlers for `tx_hard_error_bump_tc`. -/
def stmmacBumpTc (s : DmaMode) : DmaMode :=
  if s.tc ≠ sfDmaMode ∧ s.tc ≤ 256 then
    let s := { s with tc := s.tc + 64 }
    let s := s.dmaMode s.tc sfDmaMode
    { s with xstats := { s.xstats with threshold := s.tc } }
  else s

/-- The effect of a call of a handler; `stmmac_tx_err` stops and starts the transmit side. -/
def DmaMode.call (s : DmaMode) : IrqCall → DmaMode
  | .bumpTc => stmmacBumpTc s
  | .txErr => { s with regs := dwmacDmaStartTx (dwmacDmaStopTx s.regs) }
  | .disableDmaIrq | .txClean | .rx | .enableDmaIrq | .napiSchedule => s

/-- An interrupt: the handler that serves it and the words read from `DMA_STATUS` and
`DMA_INTR_ENA`. -/
structure DmaIrq where
  handler : DmaIrqHandler
  intrStatus : BitVec 32
  intrEna : BitVec 32

def dmaIrqStep (s : DmaMode) (i : DmaIrq) : DmaMode :=
  let r := dwmacDmaInterrupt i.intrStatus i.intrEna s.xstats
  (i.handler.calls r.2).foldl DmaMode.call { s with xstats := r.1 }

/-- What an interrupt may do to the threshold. -/
structure OnlyRaises (s s' : DmaMode) : Prop where
  threshold : DmaControl.ttcThreshold s.csr6 ≤ DmaControl.ttcThreshold s'.csr6
  tsf : hasBit s'.csr6 DmaControl.tsf = true → hasBit s.csr6 DmaControl.tsf = true
  stats : s'.dmaModes ≠ s.dmaModes → s'.xstats.threshold = s'.tc
  int : -2 ^ 31 ≤ s'.tc ∧ s'.tc < 2 ^ 31

/-- Every interrupt only raises the threshold, after any others, and `dma_mode` is called for no
more than five of them if `tc` is not negative. -/
structure BumpsOnlyRaise (s : DmaMode) : Prop where
  raises : ∀ is i, OnlyRaises (is.foldl dmaIrqStep s) ((is ++ [i]).foldl dmaIrqStep s)
  calls : 0 ≤ s.tc → ∀ is : List DmaIrq,
    (is.foldl dmaIrqStep s).dmaModes.length ≤ s.dmaModes.length + 5

variable {p : DmaModeConf} {s s' : DmaMode} {i : DmaIrq} {is : List DmaIrq} {ret : BitVec 32}

/-! ## One interrupt -/

/-- Two states with the same threshold, mode and calls so far. -/
structure SameMode (s s' : DmaMode) : Prop where
  tsf : hasBit s'.csr6 DmaControl.tsf = hasBit s.csr6 DmaControl.tsf
  ttc : DmaControl.ttcThreshold s'.csr6 = DmaControl.ttcThreshold s.csr6
  tc : s'.tc = s.tc
  dmaModes : s'.dmaModes = s.dmaModes

/-- One bump. -/
structure Bumped (s s' : DmaMode) : Prop where
  ne : s.tc ≠ sfDmaMode
  le : s.tc ≤ 256
  tc : s'.tc = s.tc + 64
  dmaModes : s'.dmaModes = s.dmaModes ++ [(s'.tc, sfDmaMode)]
  mode : DmaControl.txMode s'.csr6 = modeOf txThreshold s'.tc
  stats : s'.xstats.threshold = s'.tc

theorem txMode_dmaMode (txmode rxmode : Int) :
    DmaControl.txMode (s.dmaMode txmode rxmode).csr6 = modeOf txThreshold txmode :=
  @txMode_dmaOp s.regs (.operationMode txmode rxmode)

theorem stmmacBumpTc_cases (s : DmaMode) :
    SameMode s (stmmacBumpTc s) ∨ Bumped s (stmmacBumpTc s) := by
  unfold stmmacBumpTc
  split_ifs with h
  · exact .inr ⟨h.1, h.2, rfl, rfl, txMode_dmaMode (s := { s with tc := s.tc + 64 }) _ _, rfl⟩
  · exact .inl ⟨rfl, rfl, rfl, rfl⟩

/-- `stmmac_tx_err` leaves the mode alone. -/
theorem txErr_csr6_and {field : BitVec 32} (h : DmaControl.st &&& field = 0#32) :
    (s.call .txErr).csr6 &&& field = s.csr6 &&& field :=
  (@readl_dmaOp_and (dwmacDmaStopTx s.regs) field .startTx h).trans
    (@readl_dmaOp_and s.regs field .stopTx h)

theorem call_cases (s : DmaMode) (a : IrqCall) : SameMode s (s.call a) ∨ Bumped s (s.call a) := by
  cases a with
  | bumpTc => exact stmmacBumpTc_cases s
  | txErr =>
    exact .inl ⟨hasBit_congr (txErr_csr6_and rfl),
      DmaControl.ttcThreshold_congr (txErr_csr6_and rfl), rfl, rfl⟩
  | disableDmaIrq | txClean | rx | enableDmaIrq | napiSchedule => exact .inl ⟨rfl, rfl, rfl, rfl⟩

/-- Only the end of a handler matters to the threshold. -/
theorem foldl_call_front {front : List IrqCall} (hbump : .bumpTc ∉ front) (herr : .txErr ∉ front) :
    front.foldl DmaMode.call s = s := by
  induction front with
  | nil => rfl
  | cons a front ih =>
    have ha : s.call a = s := by
      cases a <;> simp_all [DmaMode.call]
    rw [List.foldl_cons, ha]
    exact ih (fun h => hbump (List.mem_cons_of_mem a h)) fun h => herr (List.mem_cons_of_mem a h)

theorem foldl_call_cases {front : List IrqCall} (hbump : .bumpTc ∉ front) (herr : .txErr ∉ front) :
    SameMode s ((front ++ errorCalls ret).foldl DmaMode.call s) ∨
      Bumped s ((front ++ errorCalls ret).foldl DmaMode.call s) := by
  rw [List.foldl_append, foldl_call_front hbump herr]
  unfold errorCalls
  split_ifs
  · exact call_cases s .bumpTc
  · exact call_cases s .txErr
  · exact .inl ⟨rfl, rfl, rfl, rfl⟩

/-- An interrupt leaves the threshold alone or bumps it once. -/
theorem dmaIrqStep_cases (s : DmaMode) (i : DmaIrq) :
    SameMode s (dmaIrqStep s i) ∨ Bumped s (dmaIrqStep s i) := by
  have hstats : ∀ x s', SameMode { s with xstats := x } s' ∨ Bumped { s with xstats := x } s' →
      SameMode s s' ∨ Bumped s s' := by
    rintro x s' (⟨htsf, httc, htc, hmodes⟩ | ⟨hne, hle, htc, hmodes, hmode, hstats⟩)
    · exact .inl ⟨htsf, httc, htc, hmodes⟩
    · exact .inr ⟨hne, hle, htc, hmodes, hmode, hstats⟩
  unfold dmaIrqStep
  obtain ⟨front, hbump, herr, hcalls⟩ :=
    i.handler.exists_calls_eq (dwmacDmaInterrupt i.intrStatus i.intrEna s.xstats).2
  dsimp only
  rw [hcalls]
  exact hstats _ _ (foldl_call_cases hbump herr)

/-- The calls treat `tc` and the counters as those of the direct interrupt path do. -/
theorem foldl_call_agrees {c : Conf} {alloc : BitVec 32 → RxBuf} {d : DirectIrq}
    (htc : d.tc = s.tc) (hx : d.xstats = s.xstats) (as : List IrqCall) :
    (as.foldl (DirectIrq.call c alloc) d).tc = (as.foldl DmaMode.call s).tc ∧
      (as.foldl (DirectIrq.call c alloc) d).xstats = (as.foldl DmaMode.call s).xstats := by
  induction as generalizing d s with
  | nil => exact ⟨htc, hx⟩
  | cons a as ih =>
    have hstep : (d.call c alloc a).tc = (s.call a).tc ∧
        (d.call c alloc a).xstats = (s.call a).xstats := by
      cases a with
      | bumpTc =>
        unfold DirectIrq.call DmaMode.call stmmacBumpTc DmaMode.dmaMode
        rw [htc, hx]
        split_ifs
        · exact ⟨rfl, rfl⟩
        · exact ⟨htc, hx⟩
      | disableDmaIrq | txClean | rx | enableDmaIrq | napiSchedule | txErr => exact ⟨htc, hx⟩
    exact ih hstep.1 hstep.2

/-! ## Runs -/

/-- After `k` bumps. -/
structure AfterBumps (s₀ : DmaMode) (k : Nat) (s : DmaMode) : Prop where
  tc : s.tc = s₀.tc + 64 * k
  bounded : s.tc ≤ max s₀.tc 320
  dmaModes : s.dmaModes.length = s₀.dmaModes.length + k
  mode : DmaControl.txMode s.csr6 = modeOf txThreshold s.tc

namespace AfterBumps

variable {s₀ : DmaMode} {k : Nat}

theorem step (h : AfterBumps s₀ k s) (i : DmaIrq) :
    (SameMode s (dmaIrqStep s i) ∧ AfterBumps s₀ k (dmaIrqStep s i)) ∨
      (Bumped s (dmaIrqStep s i) ∧ AfterBumps s₀ (k + 1) (dmaIrqStep s i)) := by
  obtain hsame | hbump := dmaIrqStep_cases s i
  · refine .inl ⟨hsame, ?_, ?_, ?_, ?_⟩
    · rw [hsame.tc, h.tc]
    · rw [hsame.tc]
      exact h.bounded
    · rw [hsame.dmaModes, h.dmaModes]
    · rw [hsame.tc, ← h.mode]
      unfold DmaControl.txMode
      rw [hsame.tsf, hsame.ttc]
  · have hle := hbump.le
    refine .inr ⟨hbump, ?_, ?_, ?_, hbump.mode⟩
    · rw [hbump.tc, h.tc]
      push_cast
      omega
    · rw [hbump.tc]
      omega
    · rw [hbump.dmaModes, List.length_append, h.dmaModes]
      rfl

theorem run (hmode : DmaControl.txMode s.csr6 = modeOf txThreshold s.tc) (is : List DmaIrq) :
    ∃ k, AfterBumps s k (is.foldl dmaIrqStep s) := by
  induction is using List.reverseRecOn with
  | nil => exact ⟨0, by simp, le_max_left _ _, rfl, hmode⟩
  | append_singleton is i ih =>
    obtain ⟨k, hk⟩ := ih
    rw [List.foldl_append, List.foldl_cons, List.foldl_nil]
    obtain ⟨-, h⟩ | ⟨-, h⟩ := hk.step i
    · exact ⟨k, h⟩
    · exact ⟨k + 1, h⟩

/-- As long as `tc` is not `SF_DMA_MODE`, the threshold is the one of `tc`. -/
theorem of_ne (h : AfterBumps s₀ k s) (hne : s.tc ≠ sfDmaMode) :
    hasBit s.csr6 DmaControl.tsf = false ∧ DmaControl.ttcThreshold s.csr6 = txThreshold s.tc := by
  have hmode := h.mode
  unfold DmaControl.txMode modeOf at hmode
  grind

/-- No more than five bumps raise a `tc` that is not negative. -/
theorem le_five (h : AfterBumps s₀ k s) (hnonneg : 0 ≤ s₀.tc) : k ≤ 5 := by
  have htc := h.tc
  have hbounded := h.bounded
  omega

end AfterBumps

/-! ## The exact condition -/

/-- The threshold of a higher `tc` is not lower. -/
theorem txThreshold_mono {tc tc' : Int} (h : tc ≤ tc') : txThreshold tc ≤ txThreshold tc' :=
  (isThreshold_txThreshold tc).mono (isThreshold_txThreshold tc') h

/-- An underflow and nothing else. -/
def DmaIrq.underflow : DmaIrq := ⟨.direct, DmaStatus.ais ||| DmaStatus.unf, 0⟩

theorem dmaIrqStep_underflow_tc (hne : s.tc ≠ sfDmaMode) (hle : s.tc ≤ 256) :
    (dmaIrqStep s .underflow).tc = s.tc + 64 := by
  have hcalls : ∀ x, directCalls (dwmacDmaInterrupt (DmaStatus.ais ||| DmaStatus.unf) 0 x).2 =
      [.bumpTc] := fun x => by
    rw [dwmacDmaInterrupt_ret]
    rfl
  have hstep : dmaIrqStep s .underflow = stmmacBumpTc { s with
      xstats := (dwmacDmaInterrupt (DmaStatus.ais ||| DmaStatus.unf) 0 s.xstats).1 } := by
    unfold dmaIrqStep
    dsimp only [DmaIrq.underflow, DmaIrqHandler.calls]
    rw [hcalls]
    rfl
  rw [hstep, stmmacBumpTc, if_pos ⟨hne, hle⟩]
  rfl

theorem tc_underflows {n : Nat}
    (h : ∀ j < n, s.tc + 64 * j ≠ sfDmaMode ∧ s.tc + 64 * j ≤ 256) :
    ((List.replicate n DmaIrq.underflow).foldl dmaIrqStep s).tc = s.tc + 64 * n := by
  induction n with
  | zero => simp
  | succ n ih =>
    have htc := ih fun j hj => h j (by omega)
    obtain ⟨hne, hle⟩ := h n (by omega)
    rw [List.replicate_succ', List.foldl_append, List.foldl_cons, List.foldl_nil,
      dmaIrqStep_underflow_tc (by rwa [htc]) (by rwa [htc]), htc]
    push_cast
    omega

/-- The values from which `tc` never meets `SF_DMA_MODE`. -/
def NeverSf (tc : Int) : Prop := ¬ (tc < 0 ∧ tc % 64 = 1)

instance (tc : Int) : Decidable (NeverSf tc) := inferInstanceAs (Decidable (¬ (_ ∧ _)))

theorem AfterBumps.ne {s₀ : DmaMode} {k : Nat} (h : AfterBumps s₀ k s) (hne : s₀.tc ≠ sfDmaMode)
    (hnever : NeverSf s₀.tc) : s.tc ≠ sfDmaMode := by
  have htc := h.tc
  unfold NeverSf at hnever
  unfold sfDmaMode at hne ⊢
  omega

/-- Store-and-forward stays off if no interrupt switches it on. -/
theorem BumpsOnlyRaise.tsf_eq_false (h : BumpsOnlyRaise s)
    (htsf : hasBit s.csr6 DmaControl.tsf = false) (is : List DmaIrq) :
    hasBit (is.foldl dmaIrqStep s).csr6 DmaControl.tsf = false := by
  induction is using List.reverseRecOn with
  | nil => exact htsf
  | append_singleton is i ih =>
    by_contra hset
    have hbefore := (h.raises is i).tsf (by simpa using hset)
    rw [ih] at hbefore
    cases hbefore

namespace AfterBumps

variable {s₀ : DmaMode} {k : Nat}

theorem int (h : AfterBumps s₀ k s) (hint : -2 ^ 31 ≤ s₀.tc ∧ s₀.tc < 2 ^ 31) :
    -2 ^ 31 ≤ s.tc ∧ s.tc < 2 ^ 31 := by
  have htc := h.tc
  have hbounded := h.bounded
  omega

/-- The next interrupt only raises the threshold. -/
theorem onlyRaises (h : AfterBumps s₀ k s) (hint : -2 ^ 31 ≤ s₀.tc ∧ s₀.tc < 2 ^ 31)
    (hne : s₀.tc ≠ sfDmaMode) (hnever : NeverSf s₀.tc) (i : DmaIrq) :
    OnlyRaises s (dmaIrqStep s i) := by
  obtain ⟨hsame, h'⟩ | ⟨hbump, h'⟩ := h.step i
  · exact ⟨hsame.ttc.ge, fun htsf => hsame.tsf ▸ htsf, fun hmodes => absurd hsame.dmaModes hmodes,
      h'.int hint⟩
  · obtain ⟨-, hbefore⟩ := h.of_ne (h.ne hne hnever)
    obtain ⟨hoff, hafter⟩ := h'.of_ne (h'.ne hne hnever)
    refine ⟨?_, fun htsf => ?_, fun _ => hbump.stats, h'.int hint⟩
    · rw [hbefore, hafter]
      exact txThreshold_mono (by rw [hbump.tc]; omega)
    · rw [hoff] at htsf
      cases htsf

end AfterBumps

/-- Underflows raise `tc` to `SF_DMA_MODE` where it can meet it. -/
theorem not_bumpsOnlyRaise (hmode : DmaControl.txMode s.csr6 = modeOf txThreshold s.tc)
    (hneg : s.tc < 0) (hmod : s.tc % 64 = 1) : ¬ BumpsOnlyRaise s := by
  intro h
  obtain ⟨n, hn⟩ : ∃ n : Nat, s.tc + 64 * n = sfDmaMode :=
    ⟨((1 - s.tc) / 64).toNat, by unfold sfDmaMode; omega⟩
  obtain ⟨k, hk⟩ := AfterBumps.run hmode (List.replicate n .underflow)
  obtain ⟨k₀, hstart⟩ := AfterBumps.run hmode []
  have htc := tc_underflows (n := n) (s := s) fun j hj => by
    unfold sfDmaMode at hn ⊢
    omega
  have hsf := hk.mode
  have hne : s.tc ≠ sfDmaMode := by
    unfold sfDmaMode
    omega
  have hoff := h.tsf_eq_false (hstart.of_ne hne).1 (List.replicate n .underflow)
  rw [htc.trans hn] at hsf
  simp [DmaControl.txMode, modeOf, hoff] at hsf

/-- Bumps only raise the threshold exactly when `tc` does not start negative and congruent to 1
modulo 64. -/
theorem bumps_only_raise_iff (hmode : p.storeForward = false)
    (hint : -2 ^ 31 ≤ s.tc ∧ s.tc < 2 ^ 31) (hne : s.tc ≠ sfDmaMode) :
    BumpsOnlyRaise (stmmacDmaOperationMode p s) ↔ NeverSf s.tc := by
  have hstart : stmmacDmaOperationMode p s = s.dmaMode s.tc sfDmaMode := by
    simp [stmmacDmaOperationMode, hmode]
  rw [hstart]
  have htx := txMode_dmaMode (s := s) s.tc sfDmaMode
  refine ⟨fun h => ?_, fun hnever => ⟨fun is i => ?_, fun hnonneg is => ?_⟩⟩
  · rintro ⟨hneg, hmod⟩
    exact not_bumpsOnlyRaise htx hneg hmod h
  · rw [List.foldl_append, List.foldl_cons, List.foldl_nil]
    obtain ⟨k, hk⟩ := AfterBumps.run htx is
    exact hk.onlyRaises hint hne hnever i
  · obtain ⟨k, hk⟩ := AfterBumps.run htx is
    have hfive := hk.le_five hnonneg
    rw [hk.dmaModes]
    omega

theorem bumps_only_raise_default :
    BumpsOnlyRaise (stmmacDmaOperationMode ⟨false, false, false⟩ ⟨fun _ => 0, 64, {}, []⟩) :=
  (bumps_only_raise_iff rfl (by decide) (by decide)).mpr (by decide)

/-- One underflow with `tc` at -63 switches the transmit side to store-and-forward. -/
theorem bump_to_storeForward :
    ¬ BumpsOnlyRaise (stmmacDmaOperationMode ⟨false, false, false⟩ ⟨fun _ => 0, -63, {}, []⟩) :=
  fun h => absurd ((h.raises [] .underflow).tsf (by decide +kernel)) (by decide +kernel)

end Stmmac
