import Stmmac.Dma.Init
import Stmmac.Dma.Threshold
import Stmmac.Library.Runs
import Stmmac.Mac.Filter
import Stmmac.Mac.HwInit
import Stmmac.Mac.Link

/-!
# The registers over the life of an interface

What `stmmac_open` programs after the software reset, and what every later entry point does to the
register file of a GMAC core: link changes, filters, interrupts, suspend and resume. The registers
of the set-up keep their words, control register and DMA control say whether MAC and DMA run, and
nothing else is written.
-/

namespace Stmmac

open Library

/-! ## Operations of the core not modelled elsewhere -/

def wakeUcast : BitVec 32 := 0x2
def wakeMagic : BitVec 32 := 0x20

def dwmac1000Pmt (regs : Regs) (mode : BitVec 32) : Regs :=
  let pmt : BitVec 32 := 0
  let pmt := if hasBit mode wakeMagic then pmt ||| (0x1 ||| 0x2) else pmt
  let pmt := if hasBit mode wakeUcast then pmt ||| 0x200 else pmt
  writel regs pmt gmacPmt

def dwmac1000RxIpcEnable (regs : Regs) : Regs :=
  writel regs (readl regs gmacControl ||| HwInit.gmacControlIpc) gmacControl

/-- `GMAC_AN_CTRL_ANE | GMAC_AN_CTRL_ELE`; the value read is not used. -/
def anCtrlEnable : BitVec 32 := 0x1000 ||| 0x4000

/-- With `restart` false. -/
def dwmac1000CtrlAne (regs : Regs) : Regs := writel regs anCtrlEnable gmacAnCtrl

/-- `LPI_CTRL_STATUS_LPIEN | LPI_CTRL_STATUS_LPITXA`. -/
def lpiEnable : BitVec 32 := 0x00010000 ||| 0x00080000

def dwmac1000SetEeeMode (regs : Regs) : Regs :=
  writel regs (readl regs lpiCtrlStatus ||| lpiEnable) lpiCtrlStatus

def dwmac1000ResetEeeMode (regs : Regs) : Regs :=
  writel regs (readl regs lpiCtrlStatus &&& ~~~lpiEnable) lpiCtrlStatus

/-- `MAX_DMA_RIWT`. -/
def maxDmaRiwt : BitVec 32 := 0xff

/-! ## States and steps -/

/-- The register file is the same but for some registers. -/
def SameBut (offs : List Nat) (regs regs' : Regs) : Prop :=
  ∀ off, off ∉ offs → readl regs' off = readl regs off

/-- The block of the management counters. -/
def mmcRegs : List Nat := (List.range 0x200).map (0x100 + ·)

/-- `stmmac_mmc_setup`, whose operations are not part of the repository: they write registers of
the management counters. -/
structure MmcSetup where
  run : Regs → Regs
  sameBut : ∀ regs, SameBut mmcRegs regs (run regs)

/-- What the registers of a GMAC core depend on. -/
structure NicConf where
  flowCtrl : BitVec 32
  pause : BitVec 32
  eee : EeeConf
  dmaCfg : Option StmmacDmaCfg
  extendDesc : Bool
  ringMode : Mode
  mode : DmaModeConf
  useRiwt : Bool
  mmc : MmcSetup

namespace NicConf

def link (c : NicConf) : LinkConf := ⟨true, c.flowCtrl, c.pause, c.eee⟩

def engine (c : NicConf) : DmaEngineConf := ⟨true, c.dmaCfg, c.extendDesc, c.ringMode⟩

/-- The PHY is on the MDIO bus. -/
def usesPhy (c : NicConf) : Bool :=
  c.eee.pcs != stmmacPcsSgmii && c.eee.pcs != stmmacPcsTbi && c.eee.pcs != stmmacPcsRtbi

end NicConf

/-- What a call of `stmmac_open` meets. -/
structure OpenCall where
  /-- Registration of the MDIO bus and `stmmac_init_phy` succeed. -/
  attached : Bool
  hw : ResetHw
  devAddr : MacAddr
  dmaTxPhy : BitVec 32
  dmaRxPhy : BitVec 32
  /-- Every `request_irq` succeeds. -/
  irqs : Bool
  phyInitEee : Int
  phyLink : Bool

inductive IfPhase where
  | closed
  | running (o : OpenCall)
  | suspended (o : OpenCall) (wakeup : Bool)

def IfPhase.isClosed : IfPhase → Bool
  | closed => true
  | running _ | suspended _ _ => false

def IfPhase.isSuspended : IfPhase → Bool
  | suspended _ _ => true
  | closed | running _ => false

/-- The register file with the link caches, the parameter `tc` and the counters of the interrupts;
the phase keeps the call that opened the interface. -/
structure NicRegs where
  link : LinkState
  tc : Int
  xstats : IrqStats
  phase : IfPhase

namespace NicRegs

def regs (s : NicRegs) : Regs := s.link.regs

def setRegs (s : NicRegs) (regs : Regs) : NicRegs := { s with link := { s.link with regs := regs } }

/-- An operation on the DMA mode. -/
def onDma (s : NicRegs) (f : DmaMode → DmaMode) : NicRegs :=
  let d := f ⟨s.regs, s.tc, s.xstats, []⟩
  { s.setRegs d.regs with tc := d.tc, xstats := d.xstats }

end NicRegs

/-- `stmmac_open` from where MAC and DMA are enabled, up to `stmmac_eee_init`. -/
def openEnable (c : NicConf) (o : OpenCall) (s : NicRegs) : NicRegs :=
  let s := s.setRegs (stmmacSetMac s.regs true)
  let s := s.onDma (stmmacDmaOperationMode c.mode)
  let s := { s with xstats := { threshold := s.tc } }
  let s := s.setRegs (c.mmc.run s.regs)
  let s := s.setRegs (dwmacDmaStartRx (dwmacDmaStartTx s.regs))
  let out := stmmacEeeInit c.eee o.phyInitEee o.phyLink s.regs s.link.eee
  { s with link := { s.link with regs := out.1, eee := out.2.1, eeeEnabled := out.2.2 } }

/-- The rest of `stmmac_open`. -/
def openRun (c : NicConf) (o : OpenCall) (s : NicRegs) : NicRegs :=
  let s := openEnable c o s
  let s := if c.useRiwt then s.setRegs (writel s.regs maxDmaRiwt dmaRxWatchdog) else s
  let s := if c.eee.pcs ≠ 0 then s.setRegs (dwmac1000CtrlAne s.regs) else s
  { s with phase := .running o }

def stmmacOpenRegs (c : NicConf) (o : OpenCall) (s : NicRegs) : NicRegs :=
  if c.usesPhy && !o.attached then s
  else
    let s := if c.usesPhy then { s with link := stmmacInitPhyCaches s.link } else s
    let out := stmmacInitDmaEngine c.engine o.hw o.dmaTxPhy o.dmaRxPhy s.regs
    let s := s.setRegs out.1
    if out.2 < 0 then s
    else
      let s := s.setRegs (dwmac1000SetUmacAddr s.regs o.devAddr 0)
      let s := s.setRegs (dwmac1000CoreInit s.regs)
      if o.irqs then openRun c o s else s

def stmmacReleaseRegs (s : NicRegs) : NicRegs :=
  let s := s.setRegs (dwmacDmaStopRx (dwmacDmaStopTx s.regs))
  { s.setRegs (stmmacSetMac s.regs false) with phase := .closed }

/-- `wakeup` is what `device_may_wakeup` returns. -/
def stmmacSuspendRegs (o : OpenCall) (wakeup : Bool) (wolopts : BitVec 32) (s : NicRegs) :
    NicRegs :=
  let s := s.setRegs (dwmacDmaStopRx (dwmacDmaStopTx s.regs))
  let s := s.setRegs
    (if wakeup then dwmac1000Pmt s.regs wolopts else stmmacSetMac s.regs false)
  { s with phase := .suspended o wakeup }

def stmmacResumeRegs (o : OpenCall) (wakeup : Bool) (s : NicRegs) : NicRegs :=
  let s := if wakeup then s.setRegs (dwmac1000Pmt s.regs 0) else s
  let s := s.setRegs (stmmacSetMac s.regs true)
  let s := s.setRegs (dwmacDmaStartRx (dwmacDmaStartTx s.regs))
  { s with phase := .running o }

/-- A call of `stmmac_direct_dma_interrupt`. -/
def NicRegs.irqCall (s : NicRegs) : IrqCall → NicRegs
  | .disableDmaIrq => s.setRegs (writel s.regs 0 dmaIntrEna)
  | .enableDmaIrq => s.setRegs (writel s.regs DmaIntrEna.defaultMask dmaIntrEna)
  | a => s.onDma (·.call a)

/-- `stmmac_interrupt`, with the word read from `DMA_STATUS`. The core's own interrupts only read
registers. -/
def stmmacInterruptRegs (intrStatus : BitVec 32) (s : NicRegs) : NicRegs :=
  let r := dwmacDmaInterrupt intrStatus (readl s.regs dmaIntrEna) s.xstats
  let s := { s with xstats := r.1 }
  let s := s.setRegs (writel s.regs (intrStatus &&& 0x1ffff) dmaStatus)
  (directCalls r.2).foldl NicRegs.irqCall s

/-- The entry points that reach a register. -/
inductive NicAct where
  /-- `stmmac_hw_init`, as far as it writes one. -/
  | probe
  | ndoOpen (o : OpenCall)
  | release
  | suspend (wakeup : Bool) (wolopts : BitVec 32)
  | resume (wakeup : Bool)
  | adjustLink (phydev : Option PhyDevice) (phyInitEee : Int)
  | setRxMode (dev : FilterCall)
  | interrupt (intrStatus : BitVec 32)
  | txTimeout
  /-- `dwmac_enable_dma_transmission`. -/
  | transmit
  | lpi (enter : Bool)
  | mdio (addr data : BitVec 32)
  /-- A write to the parameter `tc` through sysfs. -/
  | setTc (tc : Int)

/-- The kernel calls each entry point only in the phases given here, but for the timers:
`stmmac_suspend` stops none, and one that `stmmac_open` armed anew can outlive `stmmac_release`, so
that LPI is entered in every phase. It is left by `stmmac_xmit`. -/
def nicStep (c : NicConf) (s : NicRegs) (a : NicAct) : Option NicRegs :=
  match s.phase, a with
  | .closed, .probe => some (s.setRegs (dwmac1000RxIpcEnable s.regs))
  | .closed, .ndoOpen o => some (stmmacOpenRegs c o s)
  | .running _, .release => some (stmmacReleaseRegs s)
  | .running o, .suspend wakeup wolopts => some (stmmacSuspendRegs o wakeup wolopts s)
  | .suspended o _, .resume wakeup => some (stmmacResumeRegs o wakeup s)
  | .running _, .adjustLink phydev phyInitEee =>
    some { s with link := stmmacAdjustLink c.link phydev phyInitEee s.link }
  | .running _, .setRxMode dev => some (s.setRegs (dwmac1000SetFilter s.regs dev))
  | .running _, .interrupt intrStatus => some (stmmacInterruptRegs intrStatus s)
  | .suspended _ _, .interrupt intrStatus => some (stmmacInterruptRegs intrStatus s)
  | .running _, .txTimeout => some (s.irqCall .txErr)
  | .running _, .transmit => some (s.setRegs (writel s.regs 1 dmaXmtPollDemand))
  | _, .lpi true => some (s.setRegs (dwmac1000SetEeeMode s.regs))
  | .running _, .lpi false => some (s.setRegs (dwmac1000ResetEeeMode s.regs))
  | _, .mdio addr data =>
    some (s.setRegs (writel (writel s.regs data gmacMiiData) addr gmacMiiAddr))
  | _, .setTc tc => some { s with tc := tc }
  | _, _ => none

/-! ## What the registers should say -/

/-- The bits of the control register that enable transmitter and receiver. -/
def macBits : BitVec 32 := macRnableRx ||| macEnableTx

/-- The bits of `GMAC_CORE_INIT` that link changes leave alone. -/
def coreBits : BitVec 32 := GmacControl.coreInit &&& ~~~phyBits

/-- The bits of the control register that the driver writes once the reset is over. -/
def controlBits : BitVec 32 := macBits ||| GmacControl.coreInit ||| phyBits

/-- The registers of the filter: address registers 1 to 32 among them. -/
def filterRegs : List Nat :=
  [gmacFrameFilter, gmacHashHigh, gmacHashLow] ++
    (List.range 32).flatMap fun n => [gmacAddrHigh (n + 1), gmacAddrLow (n + 1)]

/-- The registers that an interface writes while it is up. -/
def sharedRegs : List Nat :=
  [gmacControl, gmacMiiAddr, gmacMiiData, gmacFlowCtrl, gmacPmt, lpiCtrlStatus, lpiTimerCtrl,
    dmaXmtPollDemand, dmaStatus, dmaControl, dmaIntrEna] ++ filterRegs

namespace NicConf

/-- The registers that are set up once for each time the interface is opened, after DMA and MAC are
enabled. -/
def startWords (c : NicConf) : List (Nat × BitVec 32) :=
  (if c.useRiwt then [(dmaRxWatchdog, maxDmaRiwt)] else []) ++
    (if c.eee.pcs ≠ 0 then [(gmacAnCtrl, anCtrlEnable)] else [])

/-- Those that are set up before, but for the address. -/
def baseWords (c : NicConf) (o : OpenCall) : List (Nat × BitVec 32) :=
  let a := c.engine.args o.dmaTxPhy o.dmaRxPhy
  [(dmaBusMode, dwmac1000BusMode a), (dmaAxiBusMode, a.burstLen), (dmaTxBaseAddr, o.dmaTxPhy),
    (dmaRcvBaseAddr, o.dmaRxPhy), (gmacIntMask, 0x207)]

def setUpWords (c : NicConf) (o : OpenCall) : List (Nat × BitVec 32) :=
  c.baseWords o ++ c.startWords

end NicConf

/-- The set-up of `stmmac_open`: its registers hold what was written, the rest the reset values. -/
structure SetUp (c : NicConf) (o : OpenCall) (regs : Regs) : Prop where
  addr : addrPair regs 0 = (o.devAddr, true)
  words : ∀ p ∈ c.setUpWords o, readl regs p.1 = p.2
  others : ∀ off, off ∉ sharedRegs → off ∉ [gmacAddrHigh 0, gmacAddrLow 0] →
    off ∉ (c.setUpWords o).map Prod.fst → off ∉ mmcRegs → readl regs off = readl o.hw.regs off

/-- The control word of a core whose reset value was `reset`. -/
structure ControlSays (reset : BitVec 32) (enabled : Bool) (w : BitVec 32) : Prop where
  enable : w &&& macBits = if enabled then macBits else 0#32
  coreInit : w &&& coreBits = coreBits
  rest : w &&& ~~~controlBits = reset &&& ~~~controlBits

/-- The word of `DMA_CONTROL`, but for the bits that start and stop. The receive side stores and
forwards. -/
structure DmaModeSays (reset : BitVec 32) (tc : Int) (w : BitVec 32) : Prop where
  tx : DmaControl.txMode w = modeOf txThreshold tc
  rx : DmaControl.rxMode w = none
  rest : w &&& ~~~DmaControl.written = reset &&& ~~~DmaControl.written

structure DmaSays (reset : BitVec 32) (started : Bool) (tc : Int) (w : BitVec 32) : Prop
    extends DmaModeSays reset tc w where
  st : hasBit w DmaControl.st = started
  sr : hasBit w DmaControl.sr = started

/-- All but the interrupt mask of an interface that `o` opened. -/
structure CoreHeld (c : NicConf) (o : OpenCall) (enabled started : Bool) (s : NicRegs) : Prop where
  setUp : SetUp c o s.regs
  control : ControlSays (readl o.hw.regs gmacControl) enabled (readl s.regs gmacControl)
  dma : DmaSays (readl o.hw.regs dmaControl) started s.tc (readl s.regs dmaControl)
  storeForward : c.mode.storeForward = true → s.tc = sfDmaMode

structure Programmed (c : NicConf) (o : OpenCall) (enabled started : Bool) (s : NicRegs) : Prop
    extends CoreHeld c o enabled started s where
  intrEna : readl s.regs dmaIntrEna = DmaIntrEna.defaultMask

/-- Neither MAC nor DMA is enabled. -/
structure Stopped (regs : Regs) : Prop where
  mac : readl regs gmacControl &&& macBits = 0#32
  st : hasBit (readl regs dmaControl) DmaControl.st = false
  sr : hasBit (readl regs dmaControl) DmaControl.sr = false

instance (regs : Regs) : Decidable (Stopped regs) :=
  decidable_of_iff (_ ∧ _ ∧ _)
    ⟨fun h => ⟨h.1, h.2.1, h.2.2⟩, fun h => ⟨h.mac, h.st, h.sr⟩⟩

/-- MAC and DMA run exactly while the interface is up; a suspended one that may be woken up keeps
the MAC enabled. -/
def NicInv (c : NicConf) (s : NicRegs) : Prop :=
  match s.phase with
  | .closed => Stopped s.regs
  | .running o => Programmed c o true true s
  | .suspended o wakeup => Programmed c o wakeup false s

/-- A reset leaves MAC and DMA disabled, a stopped DMA reports no error, and `tc` is not written
through sysfs while the interface is open. -/
def Regular (s : NicRegs) : NicAct → Prop
  | .ndoOpen o => Stopped o.hw.regs
  | .interrupt intrStatus =>
    s.phase.isSuspended = true → hasBit intrStatus DmaStatus.ais = false
  | .setTc _ => s.phase.isClosed = true
  | _ => True

instance (s : NicRegs) : ∀ a, Decidable (Regular s a)
  | .ndoOpen o => inferInstanceAs (Decidable (Stopped o.hw.regs))
  | .interrupt _ => inferInstanceAs (Decidable (_ → _))
  | .setTc _ => inferInstanceAs (Decidable (_ = _))
  | .probe | .release | .suspend _ _ | .resume _ | .adjustLink _ _ | .setRxMode _ | .txTimeout
  | .transmit | .lpi _ | .mdio _ _ => .isTrue trivial

/-! ## Registers that stay the same -/

namespace SameBut

variable {offs offs' : List Nat} {regs regs' regs'' : Regs} {off : Nat} {value : BitVec 32}

theorem refl (offs : List Nat) (regs : Regs) : SameBut offs regs regs := fun _ _ => rfl

theorem trans (h : SameBut offs regs regs') (h' : SameBut offs regs' regs'') :
    SameBut offs regs regs'' :=
  fun off hoff => (h' off hoff).trans (h off hoff)

theorem mono (h : SameBut offs regs regs') (hsub : offs ⊆ offs') : SameBut offs' regs regs' :=
  fun off hoff => h off fun hmem => hoff (hsub hmem)

theorem writel (h : off ∈ offs) : SameBut offs regs (Stmmac.writel regs value off) :=
  fun _ hoff => readl_writel_of_ne _ _ fun he => hoff (he ▸ h)

theorem writel_self : SameBut [off] regs (Stmmac.writel regs value off) :=
  writel List.mem_cons_self

end SameBut

section Frames

variable (regs : Regs)

theorem stmmacSetMac_sameBut (enable : Bool) :
    SameBut [gmacControl] regs (stmmacSetMac regs enable) :=
  .writel List.mem_cons_self

theorem dmaOp_sameBut (a : DmaOp) : SameBut [dmaControl] regs (dmaOp regs a) := by
  cases a <;> exact .writel List.mem_cons_self

theorem setUmac_sameBut (addr : MacAddr) (n : Nat) :
    SameBut [gmacAddrHigh n, gmacAddrLow n] regs (dwmac1000SetUmacAddr regs addr n) := by
  intro off hoff
  simp only [List.mem_cons, List.not_mem_nil, or_false, not_or] at hoff
  exact readl_setUmac_of_ne regs addr hoff.1 hoff.2

theorem stmmacEeeInit_sameBut {c : EeeConf} {phyInitEee : Int} {link : Bool} {e : Eee} :
    SameBut [lpiCtrlStatus, lpiTimerCtrl] regs (stmmacEeeInit c phyInitEee link regs e).1 := by
  intro off hoff
  simp only [List.mem_cons, List.not_mem_nil, or_false, not_or] at hoff
  exact readl_stmmacEeeInit hoff.1 hoff.2

/-- The hash table. -/
theorem setMulticast_sameBut (dev : FilterCall) :
    SameBut [gmacHashHigh, gmacHashLow] regs (setMulticast regs dev).2 := by
  have hhigh : gmacHashHigh ∈ [gmacHashHigh, gmacHashLow] := by decide
  have hlow : gmacHashLow ∈ [gmacHashHigh, gmacHashLow] := by decide
  unfold setMulticast
  split_ifs
  · exact .refl _ _
  · exact (SameBut.writel hhigh).trans (.writel hlow)
  · exact (SameBut.writel hlow).trans (.writel hhigh)
  · exact .refl _ _

/-- The loop over the unicast list writes as many address registers as it has addresses. -/
theorem readl_setUcAddrs {uc : List MacAddr} {reg off : Nat}
    (hoff : ∀ n, reg ≤ n → n < reg + uc.length → off ≠ gmacAddrHigh n ∧ off ≠ gmacAddrLow n) :
    readl (setUcAddrs regs uc reg) off = readl regs off := by
  induction uc generalizing regs reg with
  | nil => rfl
  | cons ha uc ih =>
    rw [List.length_cons] at hoff
    have hne := hoff reg (Nat.le_refl reg) (by omega)
    exact (ih _ fun n hn hlt => hoff n (by omega) (by omega)).trans
      (readl_setUmac_of_ne _ _ hne.1 hne.2)

theorem setFilter_sameBut (dev : FilterCall) :
    SameBut filterRegs regs (dwmac1000SetFilter regs dev) := by
  have hmulti : SameBut filterRegs regs (setMulticast regs dev).2 :=
    (setMulticast_sameBut regs dev).mono (by decide)
  have hvalue : ∀ value regs, SameBut filterRegs regs (writel regs value gmacFrameFilter) :=
    fun value regs => .writel (by decide)
  unfold dwmac1000SetFilter
  dsimp only
  split
  · exact hmulti.trans (hvalue _ _)
  · next hfew =>
    refine (hmulti.trans fun off hoff => readl_setUcAddrs _ fun n hn hlt => ?_).trans (hvalue _ _)
    have hnumber : perfectAddrNumber dev.id ≤ 32 := by
      unfold perfectAddrNumber
      split <;> decide
    have hmem : ∀ n < 32, gmacAddrHigh (n + 1) ∈ filterRegs ∧ gmacAddrLow (n + 1) ∈ filterRegs := by
      decide
    obtain ⟨m, rfl⟩ : ∃ m, n = m + 1 := ⟨n - 1, by omega⟩
    have hfilter := hmem m (by omega)
    exact ⟨fun he => hoff (he ▸ hfilter.1), fun he => hoff (he ▸ hfilter.2)⟩

/-- With the link up or down, with or without pause frames. -/
theorem stmmacAdjustLink_sameBut (c : NicConf) (phydev : Option PhyDevice) (phyInitEee : Int)
    (s : LinkState) :
    SameBut [gmacControl, gmacFlowCtrl, lpiCtrlStatus, lpiTimerCtrl] s.regs
      (stmmacAdjustLink c.link phydev phyInitEee s).regs := by
  cases phydev with
  | none => exact .refl _ _
  | some phydev =>
    have hmac : SameBut [gmacControl, gmacFlowCtrl] s.regs (adjustMac c.link phydev s).regs := by
      have hflow : ∀ value, SameBut [gmacControl, gmacFlowCtrl] s.regs
          (writel s.regs value gmacFlowCtrl) := fun value => .writel (by decide)
      have hctrl : ∀ regs value, SameBut [gmacControl, gmacFlowCtrl] regs
          (writel regs value gmacControl) := fun regs value => .writel (by decide)
      unfold adjustMac
      split
      · dsimp only [NicConf.link]
        split
        · exact (hflow _).trans (hctrl _ _)
        · exact hctrl _ _
      · split <;> exact .refl _ _
    exact (hmac.mono (by decide)).trans ((stmmacEeeInit_sameBut _).mono (by decide))

end Frames

/-! ## The control words -/

section Words

variable {reset w w' : BitVec 32} {enabled enabled' started : Bool} {tc txmode : Int} {regs : Regs}

theorem setMac_macBits (enable : Bool) :
    readl (stmmacSetMac regs enable) gmacControl &&& macBits =
      if enable then macBits else 0#32 := by
  unfold stmmacSetMac
  rw [readl_writel_self]
  cases enable with
  | true => exact Bits.or_and_self
  | false => exact Bits.andNot_and_self

theorem setMac_others (enable : Bool) :
    readl (stmmacSetMac regs enable) gmacControl &&& ~~~macBits =
      readl regs gmacControl &&& ~~~macBits := by
  unfold stmmacSetMac
  rw [readl_writel_self]
  cases enable with
  | true => exact Bits.or_and_of_disjoint (by decide)
  | false => exact Bits.andNot_and_of_disjoint (by decide)

/-- Enabling and disabling leave the rest of the word alone. -/
theorem ControlSays.setMac (h : ControlSays reset enabled (readl regs gmacControl))
    (enable : Bool) :
    ControlSays reset enable (readl (stmmacSetMac regs enable) gmacControl) :=
  ⟨setMac_macBits enable,
    (Bits.and_congr_of_subset rfl (setMac_others enable)).trans h.coreInit,
    (Bits.and_congr_of_subset rfl (setMac_others enable)).trans h.rest⟩

/-- A change of link leaves all but its own bits alone. -/
theorem ControlSays.adjust (h : ControlSays reset enabled w)
    (hothers : w' &&& ~~~phyBits = w &&& ~~~phyBits) : ControlSays reset enabled w' :=
  ⟨(Bits.and_congr_of_subset rfl hothers).trans h.enable,
    (Bits.and_congr_of_subset rfl hothers).trans h.coreInit,
    (Bits.and_congr_of_subset rfl hothers).trans h.rest⟩

/-- After the reset, `core_init` and the call that enables the MAC. -/
theorem controlSays_opened (h : readl regs gmacControl = reset ||| GmacControl.coreInit) :
    ControlSays reset true (readl (stmmacSetMac regs true) gmacControl) := by
  refine ⟨setMac_macBits true, ?_, ?_⟩
  · rw [Bits.and_congr_of_subset rfl (setMac_others true), h]
    have hset : (reset ||| GmacControl.coreInit) &&& GmacControl.coreInit =
        GmacControl.coreInit &&& GmacControl.coreInit :=
      Bits.or_and_self.trans BitVec.and_self.symm
    exact Bits.and_congr_of_subset rfl hset
  · rw [Bits.and_congr_of_subset rfl (setMac_others true), h]
    exact Bits.or_and_of_disjoint (by decide)

namespace DmaModeSays

/-- Starting and stopping keep the mode. -/
theorem op (h : DmaModeSays reset tc (readl regs dmaControl)) {a : DmaOp} (ha : a.mode = none) :
    DmaModeSays reset tc (readl (dmaOp regs a) dmaControl) where
  tx := by
    rw [txMode_dmaOp, ha]
    exact h.tx
  rx := by
    rw [rxMode_dmaOp, ha]
    exact h.rx
  rest := (readl_dmaOp_and a a.writes_and_compl).trans h.rest

/-- A call of `dma_mode` as the driver makes them sets the mode, whatever it was. -/
theorem mode (h : readl regs dmaControl &&& ~~~DmaControl.written =
    reset &&& ~~~DmaControl.written) :
    DmaModeSays reset txmode (readl (dmaOp regs (.operationMode txmode sfDmaMode)) dmaControl) where
  tx := txMode_dmaOp _
  rx := rxMode_dmaOp _
  rest := (readl_dmaOp_and _ (DmaOp.writes_and_compl _)).trans h

theorem start (h : DmaModeSays reset tc (readl regs dmaControl)) :
    DmaSays reset true tc (readl (dwmacDmaStartRx (dwmacDmaStartTx regs)) dmaControl) where
  toDmaModeSays := (h.op (a := .startTx) rfl).op (a := .startRx) rfl
  st := (hasBit_st_dmaOp .startRx).trans (hasBit_st_dmaOp .startTx)
  sr := hasBit_sr_dmaOp .startRx

theorem stop (h : DmaModeSays reset tc (readl regs dmaControl)) :
    DmaSays reset false tc (readl (dwmacDmaStopRx (dwmacDmaStopTx regs)) dmaControl) where
  toDmaModeSays := (h.op (a := .stopTx) rfl).op (a := .stopRx) rfl
  st := (hasBit_st_dmaOp .stopRx).trans (hasBit_st_dmaOp .stopTx)
  sr := hasBit_sr_dmaOp .stopRx

end DmaModeSays

namespace DmaSays

/-- `stmmac_tx_err` stops and starts the transmit side of a DMA that runs. -/
theorem txErr (h : DmaSays reset true tc (readl regs dmaControl)) :
    DmaSays reset true tc (readl (dwmacDmaStartTx (dwmacDmaStopTx regs)) dmaControl) where
  toDmaModeSays := (h.toDmaModeSays.op (a := .stopTx) rfl).op (a := .startTx) rfl
  st := hasBit_st_dmaOp .startTx
  sr := ((hasBit_sr_dmaOp .startTx).trans (hasBit_sr_dmaOp .stopTx)).trans h.sr

/-- A bump writes the mode of a DMA that runs. -/
theorem bump (h : DmaSays reset started tc (readl regs dmaControl)) :
    DmaSays reset started txmode
      (readl (dwmac1000DmaOperationMode regs txmode sfDmaMode) dmaControl) where
  toDmaModeSays := .mode h.rest
  st := (hasBit_st_dmaOp (.operationMode txmode sfDmaMode)).trans h.st
  sr := (hasBit_sr_dmaOp (.operationMode txmode sfDmaMode)).trans h.sr

end DmaSays

end Words

/-! ## Opening -/

section Open

variable {c : NicConf} {o : OpenCall} {s : NicRegs} {regs : Regs}

/-- The mode that `stmmac_dma_operation_mode` chooses. -/
def NicConf.openTc (c : NicConf) (tc : Int) : Int :=
  if c.mode.storeForward then sfDmaMode else tc

theorem operationMode_regs (c : NicConf) (s : NicRegs) :
    (s.onDma (stmmacDmaOperationMode c.mode)).regs =
        dmaOp s.regs (.operationMode (c.openTc s.tc) sfDmaMode) ∧
      (s.onDma (stmmacDmaOperationMode c.mode)).tc = c.openTc s.tc := by
  unfold NicRegs.onDma stmmacDmaOperationMode NicConf.openTc
  cases c.mode.storeForward <;> exact ⟨rfl, rfl⟩

/-- MAC and DMA are enabled after the mode is set; the other operations write other registers. -/
theorem openEnable_regs (c : NicConf) (o : OpenCall) (s : NicRegs) :
    (∃ regs, SameBut mmcRegs
          (dmaOp (stmmacSetMac s.regs true) (.operationMode (c.openTc s.tc) sfDmaMode)) regs ∧
        SameBut [lpiCtrlStatus, lpiTimerCtrl] (dwmacDmaStartRx (dwmacDmaStartTx regs))
          (openEnable c o s).regs) ∧
      (openEnable c o s).tc = c.openTc s.tc := by
  obtain ⟨hregs, htc⟩ := operationMode_regs c (s.setRegs (stmmacSetMac s.regs true))
  refine ⟨⟨_, fun off hoff => ?_, stmmacEeeInit_sameBut _⟩, htc⟩
  exact (c.mmc.sameBut _ off hoff).trans (congrArg (readl · off) hregs)

theorem openRun_eq (c : NicConf) (o : OpenCall) (s : NicRegs) :
    (openRun c o s).regs = writels (openEnable c o s).regs c.startWords ∧
      (openRun c o s).tc = (openEnable c o s).tc ∧ (openRun c o s).phase = .running o := by
  unfold openRun NicConf.startWords
  generalize openEnable c o s = t
  dsimp only
  split_ifs <;> exact ⟨rfl, rfl, rfl⟩

/-- The registers after reset, `set_umac_addr` and `core_init`. -/
def NicConf.baseRegs (c : NicConf) (o : OpenCall) : Regs :=
  dwmac1000CoreInit (dwmac1000SetUmacAddr
    (writels o.hw.regs (c.engine.program o.dmaTxPhy o.dmaRxPhy)) o.devAddr 0)

theorem mem_mmcRegs {off : Nat} : off ∈ mmcRegs ↔ 0x100 ≤ off ∧ off < 0x300 := by
  simp only [mmcRegs, List.mem_map, List.mem_range]
  constructor
  · rintro ⟨n, hn, rfl⟩
    omega
  · intro h
    exact ⟨off - 0x100, by omega, by omega⟩

theorem startWords_keys (c : NicConf) :
    c.startWords.map Prod.fst ⊆ [dmaRxWatchdog, gmacAnCtrl] ∧
      (c.startWords.map Prod.fst).Nodup := by
  unfold NicConf.startWords
  split_ifs <;> decide

theorem program_eq (c : NicConf) (o : OpenCall) :
    c.engine.program o.dmaTxPhy o.dmaRxPhy =
      [(dmaBusMode, dwmac1000BusMode (c.engine.args o.dmaTxPhy o.dmaRxPhy)),
        (dmaAxiBusMode, (c.engine.args o.dmaTxPhy o.dmaRxPhy).burstLen),
        (dmaIntrEna, DmaIntrEna.defaultMask), (dmaTxBaseAddr, o.dmaTxPhy),
        (dmaRcvBaseAddr, o.dmaRxPhy)] := rfl

/-- The registers that `dwmac1000_dma_init` writes after the reset. -/
def dmaInitRegs : List Nat := [dmaBusMode, dmaAxiBusMode, dmaIntrEna, dmaTxBaseAddr, dmaRcvBaseAddr]

theorem program_keys (c : NicConf) (o : OpenCall) :
    (c.engine.program o.dmaTxPhy o.dmaRxPhy).map Prod.fst = dmaInitRegs := rfl

/-- The registers of `baseWords`. -/
def baseKeys : List Nat := [dmaBusMode, dmaAxiBusMode, dmaTxBaseAddr, dmaRcvBaseAddr, gmacIntMask]

/-- `set_umac_addr` and `core_init` write four registers. -/
theorem baseRegs_sameBut (c : NicConf) (o : OpenCall) :
    SameBut [gmacAddrHigh 0, gmacAddrLow 0, gmacControl, gmacIntMask]
      (writels o.hw.regs (c.engine.program o.dmaTxPhy o.dmaRxPhy)) (c.baseRegs o) := by
  refine ((setUmac_sameBut _ o.devAddr 0).mono (by decide)).trans ?_
  exact (SameBut.writel_self.mono (by decide)).trans (SameBut.writel_self.mono (by decide))

theorem baseRegs_of_notMem {off : Nat} (hinit : off ∉ dmaInitRegs)
    (hoff : off ∉ [gmacAddrHigh 0, gmacAddrLow 0, gmacControl, gmacIntMask]) :
    readl (c.baseRegs o) off = readl o.hw.regs off :=
  (baseRegs_sameBut c o off hoff).trans (readl_writels_of_notMem hinit)

theorem baseRegs_dma : readl (c.baseRegs o) dmaControl = readl o.hw.regs dmaControl :=
  baseRegs_of_notMem (by decide) (by decide)

theorem baseRegs_program {p : Nat × BitVec 32}
    (hp : p ∈ c.engine.program o.dmaTxPhy o.dmaRxPhy) : readl (c.baseRegs o) p.1 = p.2 := by
  have hkey : p.1 ∈ dmaInitRegs := program_keys c o ▸ List.mem_map_of_mem hp
  have hdisjoint : ∀ off ∈ dmaInitRegs,
      off ∉ [gmacAddrHigh 0, gmacAddrLow 0, gmacControl, gmacIntMask] := by decide
  exact (baseRegs_sameBut c o p.1 (hdisjoint p.1 hkey)).trans
    (readl_writels_of_mem DmaEngineConf.program_nodup hp)

theorem baseRegs_words : ∀ p ∈ c.baseWords o, readl (c.baseRegs o) p.1 = p.2 := by
  have hprogram := fun p => baseRegs_program (c := c) (o := o) (p := p)
  simp only [program_eq, List.forall_mem_cons] at hprogram
  obtain ⟨hbus, haxi, -, htx, hrx, -⟩ := hprogram
  simp only [NicConf.baseWords, List.forall_mem_cons]
  exact ⟨hbus, haxi, htx, hrx, readl_writel_self _ _, nofun⟩

theorem baseRegs_control :
    readl (c.baseRegs o) gmacControl = readl o.hw.regs gmacControl ||| GmacControl.coreInit := by
  have hreset : readl (dwmac1000SetUmacAddr
      (writels o.hw.regs (c.engine.program o.dmaTxPhy o.dmaRxPhy)) o.devAddr 0) gmacControl =
      readl o.hw.regs gmacControl :=
    (setUmac_sameBut _ o.devAddr 0 _ (by decide)).trans
      (readl_writels_of_notMem (show gmacControl ∉ dmaInitRegs by decide))
  unfold NicConf.baseRegs dwmac1000CoreInit
  rw [readl_writel_of_ne _ _ (by decide), readl_writel_self, hreset]

theorem baseRegs_addr : addrPair (c.baseRegs o) 0 = (o.devAddr, true) := by
  unfold NicConf.baseRegs dwmac1000CoreInit
  rw [addrPair_writel _ _ (by decide), addrPair_writel _ _ (by decide), addrPair_setUmac]
  rfl

/-- What the start of MAC and DMA leaves as the set-up wrote it. -/
theorem openRun_sameBut (c : NicConf) (o : OpenCall) (s : NicRegs) :
    SameBut ([gmacControl, dmaControl, lpiCtrlStatus, lpiTimerCtrl] ++ mmcRegs ++
      c.startWords.map Prod.fst) s.regs (openRun c o s).regs := by
  obtain ⟨⟨regs, hmmc, heee⟩, -⟩ := openEnable_regs c o s
  intro off hoff
  simp only [List.mem_append, not_or] at hoff
  obtain ⟨⟨hnamed, hcounters⟩, hkeys⟩ := hoff
  simp only [List.mem_cons, List.not_mem_nil, or_false, not_or] at hnamed
  obtain ⟨hctrl, hdma, hlpi, htimer⟩ := hnamed
  rw [(openRun_eq c o s).1, readl_writels_of_notMem hkeys,
    heee off (by simp [hlpi, htimer])]
  have hstart : SameBut [dmaControl] regs (dwmacDmaStartRx (dwmacDmaStartTx regs)) :=
    (dmaOp_sameBut regs .startTx).trans (dmaOp_sameBut _ .startRx)
  rw [hstart off (by simp [hdma]), hmmc off hcounters, dmaOp_sameBut _ _ off (by simp [hdma]),
    stmmacSetMac_sameBut _ true off (by simp [hctrl])]

/-- The control register is written by the call that enables the MAC only. -/
theorem openRun_control (c : NicConf) (o : OpenCall) (s : NicRegs) :
    readl (openRun c o s).regs gmacControl =
      readl (stmmacSetMac s.regs true) gmacControl := by
  obtain ⟨⟨regs, hmmc, heee⟩, -⟩ := openEnable_regs c o s
  have hkeys : gmacControl ∉ c.startWords.map Prod.fst :=
    fun h => absurd ((startWords_keys c).1 h) (by decide)
  have hstart : SameBut [dmaControl] regs (dwmacDmaStartRx (dwmacDmaStartTx regs)) :=
    (dmaOp_sameBut regs .startTx).trans (dmaOp_sameBut _ .startRx)
  rw [(openRun_eq c o s).1, readl_writels_of_notMem hkeys, heee _ (by decide),
    hstart _ (by decide), hmmc _ (fun h => absurd (mem_mmcRegs.mp h) (by decide)),
    dmaOp_sameBut _ _ _ (by decide)]

theorem openRun_dma {reset : BitVec 32} (c : NicConf) (o : OpenCall) (s : NicRegs)
    (hreset : readl s.regs dmaControl = reset) :
    DmaSays reset true (openRun c o s).tc (readl (openRun c o s).regs dmaControl) := by
  obtain ⟨⟨regs, hmmc, heee⟩, htc⟩ := openEnable_regs c o s
  obtain ⟨hregs, htc', -⟩ := openRun_eq c o s
  have hkeys : dmaControl ∉ c.startWords.map Prod.fst :=
    fun h => absurd ((startWords_keys c).1 h) (by decide)
  have hmode : DmaModeSays reset (c.openTc s.tc) (readl regs dmaControl) := by
    rw [hmmc _ fun h => absurd (mem_mmcRegs.mp h) (by decide)]
    refine .mode ?_
    rw [stmmacSetMac_sameBut _ true _ (by decide), hreset]
  rw [htc', htc, hregs, readl_writels_of_notMem hkeys, heee _ (by decide)]
  exact hmode.start

/-- A successful start on the registers of the set-up. -/
theorem openRun_programmed (hregs : s.regs = c.baseRegs o) :
    Programmed c o true true (openRun c o s) := by
  have hsame := openRun_sameBut c o s
  rw [hregs] at hsame
  have hkeys := (startWords_keys c).1
  -- the registers of the set-up that nothing writes from here on
  have hkept : ∀ off ∈ baseKeys ++ [dmaIntrEna, gmacAddrHigh 0, gmacAddrLow 0],
      readl (openRun c o s).regs off = readl (c.baseRegs o) off := by
    intro off hoff
    refine hsame off fun hmem => ?_
    have hnamed : ∀ off ∈ baseKeys ++ [dmaIntrEna, gmacAddrHigh 0, gmacAddrLow 0],
        off ∉ [gmacControl, dmaControl, lpiCtrlStatus, lpiTimerCtrl] ∧
          ¬ (0x100 ≤ off ∧ off < 0x300) ∧ off ∉ [dmaRxWatchdog, gmacAnCtrl] := by decide
    obtain ⟨hctrl, hcounters, hstart⟩ := hnamed off hoff
    rcases List.mem_append.mp hmem with hmem | hmem
    · rcases List.mem_append.mp hmem with hmem | hmem
      · exact hctrl hmem
      · exact hcounters (mem_mmcRegs.mp hmem)
    · exact hstart (hkeys hmem)
  have hintr : readl (c.baseRegs o) dmaIntrEna = DmaIntrEna.defaultMask :=
    baseRegs_program (p := (dmaIntrEna, DmaIntrEna.defaultMask)) (by simp [DmaEngineConf.program])
  refine ⟨⟨⟨?_, ?_, ?_⟩, ?_, ?_, ?_⟩, ?_⟩
  · rw [addrPair_congr (hkept _ (by decide)) (hkept _ (by decide))]
    exact baseRegs_addr
  · intro p hp
    rcases List.mem_append.mp hp with hp | hp
    · have hkey : p.1 ∈ (c.baseWords o).map Prod.fst := List.mem_map_of_mem hp
      rw [hkept p.1 (List.mem_append_left _ hkey), baseRegs_words p hp]
    · rw [(openRun_eq c o s).1]
      exact readl_writels_of_mem (startWords_keys c).2 hp
  · intro off hshared haddr hwords hmmc
    rw [NicConf.setUpWords, List.map_append, List.mem_append, not_or] at hwords
    have hbase : off ∉ baseKeys := hwords.1
    have hinit : off ∉ dmaInitRegs := fun h => by
      have hsub : dmaInitRegs ⊆ baseKeys ++ sharedRegs := by decide
      exact (List.mem_append.mp (hsub h)).elim hbase hshared
    have hnot : ∀ {offs : List Nat}, offs ⊆ sharedRegs → off ∉ offs :=
      fun hsub h => hshared (hsub h)
    rw [hsame off ?_, baseRegs_of_notMem hinit]
    · intro h
      have hsub : [gmacAddrHigh 0, gmacAddrLow 0, gmacControl, gmacIntMask] ⊆
        [gmacAddrHigh 0, gmacAddrLow 0] ++ ([gmacIntMask] ++ sharedRegs) := by decide
      rcases List.mem_append.mp (hsub h) with h | h
      · exact haddr h
      · rcases List.mem_append.mp h with h | h
        · exact hbase (List.mem_singleton.mp h ▸ by decide)
        · exact hshared h
    · simp only [List.mem_append, not_or]
      exact ⟨⟨hnot (by decide), hmmc⟩, hwords.2⟩
  · rw [openRun_control, hregs]
    exact controlSays_opened baseRegs_control
  · exact openRun_dma c o s (hregs ▸ baseRegs_dma)
  · intro hsf
    rw [(openRun_eq c o s).2.1, (openEnable_regs c o s).2, NicConf.openTc, if_pos hsf]
  · rw [hkept _ (by decide), hintr]

end Open

end Stmmac
