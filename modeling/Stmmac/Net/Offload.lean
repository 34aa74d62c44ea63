import Stmmac.Library.History
import Stmmac.Net.Resume

/-!
# Checksum offload

What the driver promises the network stack about checksums, and what the registers say in every
state of every run. Insertion is offered only where the transmit side stores and forwards. The
receive engine is enabled when the core is detected, before the reset of `stmmac_open`, and by
nothing after it.
-/

namespace Stmmac

open Library

/-! ## Transmission -/

/-- The bits of `netdev_features_t` that the driver looks at, those of `NETIF_F_ALL_CSUM` among
them. -/
inductive NetifF where
  | sg | ipCsum | hwCsum | ipv6Csum | rxCsum | other (bit : Nat)
  deriving DecidableEq

/-- The member is in `NETIF_F_ALL_CSUM`. -/
def NetifF.isTxCsum : NetifF → Bool
  | ipCsum | hwCsum | ipv6Csum => true
  | sg | rxCsum | other _ => false

/-- `ETH_DATA_LEN`. -/
def ethDataLen : Int := 1500

/-- What `stmmac_fix_features` looks at. -/
structure FeatureConf where
  rxCoe : RxCoe
  txCoe : Bool
  buggedJumbo : Bool
  mtu : Int

/-- `features &= ~mask`. -/
def clearFeatures (features mask : NetifF → Bool) : NetifF → Bool := fun f => features f && !mask f

/-- The part of `stmmac_fix_features` that looks at the receive engine. -/
def fixRxFeatures (rxCoe : RxCoe) (features : NetifF → Bool) : NetifF → Bool :=
  match rxCoe with
  | .none => clearFeatures features (· == .rxCsum)
  | .type1 => clearFeatures features (· == .ipv6Csum)
  | .type2 => features

def stmmacFixFeatures (p : FeatureConf) (features : NetifF → Bool) : NetifF → Bool :=
  let features := fixRxFeatures p.rxCoe features
  let features := if p.txCoe then features else clearFeatures features NetifF.isTxCsum
  if p.buggedJumbo && p.mtu > ethDataLen then clearFeatures features NetifF.isTxCsum else features

section Features

variable {p : FeatureConf} {features mask : NetifF → Bool} {f : NetifF}

theorem clearFeatures_iff : clearFeatures features mask f = true ↔
    features f = true ∧ mask f = false := by
  simp [clearFeatures]

theorem fixRxFeatures_le {rxCoe : RxCoe} (h : fixRxFeatures rxCoe features f = true) :
    features f = true := by
  unfold fixRxFeatures at h
  cases rxCoe with
  | none | type1 => exact (clearFeatures_iff.mp h).1
  | type2 => exact h

/-- A feature that is left was asked for; one for transmission needs the engine, and frames that a
bugged core can take. -/
theorem stmmacFixFeatures_le (h : stmmacFixFeatures p features f = true) :
    features f = true ∧ (f.isTxCsum = true →
      p.txCoe = true ∧ ¬ (p.buggedJumbo = true ∧ p.mtu > ethDataLen)) := by
  have hcoe : ∀ g : NetifF → Bool,
      (if p.txCoe then g else clearFeatures g NetifF.isTxCsum) f = true →
        g f = true ∧ (f.isTxCsum = true → p.txCoe = true) := by
    intro g hg
    split at hg
    · next htx => exact ⟨hg, fun _ => htx⟩
    · obtain ⟨hleft, hmask⟩ := clearFeatures_iff.mp hg
      exact ⟨hleft, fun hf => absurd hf (by simp [hmask])⟩
  unfold stmmacFixFeatures at h
  split at h
  · obtain ⟨hleft, hmask⟩ := clearFeatures_iff.mp h
    exact ⟨fixRxFeatures_le (hcoe _ hleft).1, fun hf => absurd hf (by simp [hmask])⟩
  · next hjumbo =>
    obtain ⟨hleft, htx⟩ := hcoe _ h
    exact ⟨fixRxFeatures_le hleft, fun hf => ⟨htx hf, by simpa using hjumbo⟩⟩

end Features

/-- In every state of every run in which the interface is up: if `stmmac_fix_features` leaves a
feature of checksum insertion, whatever was asked for and whatever the MTU, the transmit side stores
and forwards. -/
theorem csum_needs_store_forward {c : NicConf} {s₀ s : NicRegs} {as : List NicAct} {o : OpenCall}
    (hclosed : s₀.phase = .closed) (hstopped : Stopped s₀.regs)
    (run : Run (nicStep c) Regular s₀ as s) (hphase : s.phase = .running o)
    (hinsert : c.mode.noCsumInsertion = false) (p : FeatureConf) (hcoe : p.txCoe = c.mode.txCoe)
    (features : NetifF → Bool) (f : NetifF) (hf : f.isTxCsum = true)
    (hleft : stmmacFixFeatures p features f = true) :
    hasBit (readl s.regs dmaControl) DmaControl.tsf = true ∧ s.tc = sfDmaMode := by
  have hinv : NicInv c s := run.invariant (fun inv hok hs => inv.step hok hs)
    ((nicInv_closed hclosed).mpr hstopped)
  have inv := (nicInv_running hphase).mp hinv
  have hcoe' : c.mode.txCoe = true := hcoe ▸ ((stmmacFixFeatures_le hleft).2 hf).1
  have htc : s.tc = sfDmaMode := inv.storeForward (by
    simp [DmaModeConf.storeForward, hcoe', hinsert])
  exact ⟨(txMode_eq_modeOf inv.dma.tx).1.mpr htc, htc⟩

/-- A core with the engine, after an underflow. -/
theorem csum_needs_store_forward_opened :
    ∃ s, Run (nicStep { NicConf.plain with mode := ⟨false, true, false⟩ }) Regular (.probed 64)
        [.ndoOpen .plain, .interrupt (DmaStatus.ais ||| DmaStatus.unf)] s ∧
      hasBit (readl s.regs dmaControl) DmaControl.tsf = true ∧ s.tc = sfDmaMode := by
  let c : NicConf := { NicConf.plain with mode := ⟨false, true, false⟩ }
  have run : Run (nicStep c) Regular (.probed 64)
      [.ndoOpen .plain, .interrupt (DmaStatus.ais ||| DmaStatus.unf)]
      (stmmacInterruptRegs (DmaStatus.ais ||| DmaStatus.unf)
        (stmmacOpenRegs c .plain (.probed 64))) :=
    .cons (by decide) rfl (.cons (by decide) rfl (.nil _))
  exact ⟨_, run, csum_needs_store_forward rfl (by decide) run (stmmacInterruptRegs_phase _ _) rfl
    ⟨.type2, true, true, 1500⟩ rfl (fun _ => true) .ipCsum rfl rfl⟩

/-! ## Reception -/

/-- The bit of the receive engine. -/
def ipcSet (regs : Regs) : Bool := hasBit (readl regs gmacControl) HwInit.gmacControlIpc

/-- What an entry point makes of the bit of the receive engine: `rx_ipc` sets it, and a reset that
ends in time gives it its reset value. -/
def ipcEvent (c : NicConf) : NicAct → Option Bool
  | .probe => some true
  | .ndoOpen o => if c.resets o then some (ipcSet o.hw.regs) else none
  | _ => none

section Reception

variable {c : NicConf} {s s' : NicRegs} {regs regs' : Regs} {a : NicAct} {o : OpenCall}
  {offs : List Nat}

theorem ipcSet_congr (hsame : SameBut offs regs regs') (hoffs : gmacControl ∉ offs) :
    ipcSet regs' = ipcSet regs := by
  unfold ipcSet
  rw [hsame _ hoffs]

theorem ipcSet_setMac (regs : Regs) (enable : Bool) :
    ipcSet (stmmacSetMac regs enable) = ipcSet regs :=
  hasBit_congr (Bits.and_congr_of_subset rfl (setMac_others enable))

/-- `stmmac_open` after a reset that ended in time. -/
theorem ipcSet_baseRegs : ipcSet (c.baseRegs o) = ipcSet o.hw.regs := by
  unfold ipcSet
  rw [baseRegs_control]
  exact hasBit_congr (Bits.or_and_of_disjoint (by decide))

theorem ipcSet_openRegs :
    ipcSet (stmmacOpenRegs c o s).regs = (ipcEvent c (.ndoOpen o)).getD (ipcSet s.regs) := by
  unfold ipcEvent
  rcases stmmacOpenRegs_cases c o s with ⟨hreset, -, hsame⟩ | ⟨hreset, -, hbase⟩ |
    ⟨hreset, t, he, hbase⟩
  · simp only [hreset, Bool.false_eq_true, if_false, Option.getD_none]
    exact ipcSet_congr hsame (by decide)
  · simp only [hreset, if_true, Option.getD_some, hbase]
    exact ipcSet_baseRegs
  · simp only [hreset, if_true, Option.getD_some, he]
    unfold ipcSet
    rw [openRun_control, hbase]
    exact (ipcSet_setMac (c.baseRegs o) true).trans ipcSet_baseRegs

/-- The handler writes DMA registers only. -/
theorem interrupt_sameBut_dma (s : NicRegs) (intrStatus : BitVec 32) :
    SameBut [dmaStatus, dmaControl, dmaIntrEna] s.regs
      (stmmacInterruptRegs intrStatus s).regs := by
  have hcall : ∀ (t : NicRegs) (a : IrqCall),
      SameBut [dmaStatus, dmaControl, dmaIntrEna] t.regs (t.irqCall a).regs := by
    intro t a
    cases a with
    | disableDmaIrq | enableDmaIrq => exact .writel (by decide)
    | bumpTc =>
      change SameBut _ t.regs (t.onDma stmmacBumpTc).regs
      unfold NicRegs.onDma stmmacBumpTc
      split
      · exact (dmaOp_sameBut t.regs (.operationMode (t.tc + 64) sfDmaMode)).mono (by decide)
      · exact .refl _ _
    | txErr =>
      exact ((dmaOp_sameBut t.regs .stopTx).trans (dmaOp_sameBut _ .startTx)).mono (by decide)
    | txClean | rx | napiSchedule => exact .refl _ _
  have hcalls : ∀ (calls : List IrqCall) (t : NicRegs),
      SameBut [dmaStatus, dmaControl, dmaIntrEna] t.regs (calls.foldl NicRegs.irqCall t).regs := by
    intro calls
    induction calls with
    | nil => exact fun t => .refl _ _
    | cons a calls ih => exact fun t => (hcall t a).trans (ih _)
  exact (SameBut.writel (by decide)).trans (hcalls _ _)

theorem ipcSet_release (s : NicRegs) : ipcSet (stmmacReleaseRegs s).regs = ipcSet s.regs :=
  (ipcSet_setMac _ false).trans (ipcSet_congr
    ((dmaOp_sameBut s.regs .stopTx).trans (dmaOp_sameBut _ .stopRx)) (by decide))

theorem ipcSet_adjustLink (s : LinkState) (phydev : Option PhyDevice) (phyInitEee : Int) :
    ipcSet (stmmacAdjustLink c.link phydev phyInitEee s).regs = ipcSet s.regs := by
  cases phydev with
  | none => rfl
  | some phydev =>
    unfold ipcSet
    rw [stmmacAdjustLink_ctrl]
    exact hasBit_congr (Bits.and_congr_of_subset rfl (adjustMac_others rfl phydev))

/-- Every step sets the bit as its event says, or leaves it. -/
theorem ipcSet_step (hs : nicStep c s a = some s') :
    ipcSet s'.regs = (ipcEvent c a).getD (ipcSet s.regs) := by
  cases nicStep_move hs with
  | probe =>
    exact (congrArg (hasBit · _) (readl_writel_self _ _)).trans (hasBit_or_self (by decide))
  | ndoOpen o => exact ipcSet_openRegs
  | release => exact ipcSet_release s
  | suspend wakeup wolopts =>
    exact hasBit_congr (Bits.and_congr_of_subset rfl suspend_control_others)
  | resume wakeup => exact hasBit_congr (Bits.and_congr_of_subset rfl resume_control_others)
  | adjustLink phydev phyInitEee => exact ipcSet_adjustLink s.link phydev phyInitEee
  | setRxMode dev => exact ipcSet_congr (setFilter_sameBut _ dev) (by decide)
  | interrupt intrStatus => exact ipcSet_congr (interrupt_sameBut_dma s intrStatus) (by decide)
  | txTimeout =>
    exact ipcSet_congr ((dmaOp_sameBut s.regs .stopTx).trans (dmaOp_sameBut _ .startTx))
      (by decide)
  | transmit | lpi enter value => exact ipcSet_congr SameBut.writel_self (by decide)
  | mdio addr data => exact ipcSet_congr (mdio_sameBut _ addr data) (by decide)
  | setTc tc => rfl

end Reception

/-- In every run the receive engine is as the last probe or reset left it: a probe enables it, and
after the first reset of `stmmac_open` nothing does, so that it is on only if the reset value of the
control register has it on. `rx_coe`, by which `stmmac_rx` calls a frame checked, keeps what the
probe found. -/
theorem ipc_follows_reset {c : NicConf} {s s' : NicRegs} {as : List NicAct}
    {ok : NicRegs → NicAct → Prop} (run : Run (nicStep c) ok s as s') :
    ipcSet s'.regs = (latest (ipcEvent c) as).getD (ipcSet s.regs) := by
  induction run with
  | nil s => rfl
  | cons hok hs run ih =>
    rw [ih, latest_cons, ipcSet_step hs]
    cases latest (ipcEvent c) _ <;> rfl

/-- The bit is lost with the first time the interface is opened. -/
theorem ipc_follows_reset_opened :
    ∃ s, Run (nicStep .plain) Regular (.probed 64)
        [.probe, .ndoOpen .plain, .release, .ndoOpen .plain] s ∧ ipcSet s.regs = false :=
  exec_exists (by decide +kernel) fun _ run => ipc_follows_reset run

end Stmmac
