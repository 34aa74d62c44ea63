import Stmmac.Net.OpenUses
import Stmmac.Net.Uses
import Stmmac.Rx.Init
import Stmmac.Suspend
import Stmmac.Tx.Timers

/-!
# Every table used is present

The system of the functions that call through the tables, from `stmmac_hw_init` on. It records
every use. Chain mode has no ring functions, and no mode has time stamping functions, so a run is
free of `NULL` pointers exactly when in chain mode nothing is reclaimed and no receive buffer is
replaced, and no time stamping request is accepted.
-/

namespace Stmmac

open Library

/-- What `stmmac_hw_init` was given, with the rest of the configuration. -/
structure OpsConf where
  hw : HwConf
  data : Conf
  openConf : OpenConf

structure OpsState where
  tx : TxState
  rx : RxState
  /-- What `stmmac_open` and `stmmac_release` keep track of. -/
  iface : OpenState
  running : Bool
  dead : Bool
  hwtsTxEn : Bool
  hwtsRxEn : Bool
  uses : List OpsUse

inductive OpsAct where
  /-- The new arrays contain `ring`, and `bufs` are the buffers that can be allocated. -/
  | open (e : OpenEnv) (mtu : BitVec 32) (ring : Nat → RxSlot) (bufs : Nat → RxBuf)
  | release
  | xmit (skb : TxSkb) (dma : Nat → BitVec 32)
  /-- `jumbo_frm` is not part of the repository: it may do anything to the ring. -/
  | xmitJumbo (skb : TxSkb) (after : TxState)
  | rtl8211Xmit (length addr : BitVec 32)
  | txClean
  | txErr
  /-- `stmmac_rx` up to `stmmac_rx_refill`, which it calls at its end. -/
  | rx (limit : BitVec 32)
  | rxRefill (alloc : BitVec 32 → Option RxBuf)
  | suspend (mayWakeup : Bool)
  | resume (mayWakeup : Bool)
  | hwtstampIoctl (req : HwtstampReq)
  /-- The device writes descriptors and receive buffers. -/
  | device (txDesc rxDesc : Nat → DmaDesc) (bytes : Nat → Nat → BitVec 8)
  /-- The core reports whether the transmitter is in low power mode. -/
  | coreIrq (inLpi : Bool)

namespace OpsConf

/-- The configuration of the data path, with the time stamping flags as they are. -/
def conf (k : OpsConf) (s : OpsState) : Conf :=
  { k.data with mode := k.hw.mode, hwtsTxEn := s.hwtsTxEn, hwtsRxEn := s.hwtsRxEn }

/-- The configuration that `stmmac_open` sees. -/
def ofOpen (k : OpsConf) : OpenConf :=
  { k.openConf with
    mode := k.hw.mode
    extendDesc := k.data.extendDesc
    useRiwt := k.data.useRiwt
    rxSize := k.data.dmaRxSize.toNat
    txSize := k.data.dmaTxSize.toNat
    eee := { k.openConf.eee with dmaCapEee := (stmmacGetHwFeatures k.hw).eee } }

end OpsConf

variable (k : OpsConf)

/-- The uses of one step. `adv_ts` would be set by `stmmac_init_ptp`. -/
def OpsAct.uses (s : OpsState) : OpsAct → List OpsUse
  | .open e _ _ _ => (stmmacOpen k.ofOpen e s.iface.fresh).state.uses
  | .release => stmmacReleaseUses (k.conf s) s.tx
  | .xmit skb _ => stmmacXmitUses (k.conf s) false s.tx skb
  | .xmitJumbo skb _ => stmmacXmitUses (k.conf s) true s.tx skb
  | .rtl8211Xmit _ _ => rtl8211XmitUses (k.conf s) false s.tx
  | .txClean => stmmacTxCleanUses (k.conf s) s.tx
  | .txErr => stmmacTxErrUses (k.conf s) s.tx
  | .rx limit => rxLoopUses (k.conf s) limit.toNat s.rx
  | .rxRefill alloc => stmmacRxRefillUses (k.conf s) alloc s.rx
  | .suspend mayWakeup => stmmacSuspendUses (k.conf s) mayWakeup
  | .resume mayWakeup => stmmacResumeUses mayWakeup
  | .hwtstampIoctl req =>
    (stmmacHwtstampIoctl (stmmacGetHwFeatures k.hw).timeStamp false req s.hwtsTxEn s.hwtsRxEn).uses
  | .device .. => []
  | .coreIrq _ => []

/-- The rings of an interface that has been opened. -/
def OpsState.opened (s : OpsState) (iface : OpenState) (mtu : BitVec 32) (ring : Nat → RxSlot)
    (alloc : Nat → Option RxBuf) : OpsState :=
  { s with
    tx := { TxState.idle (k.conf s) with
      txPathInLpiMode := s.tx.txPathInLpiMode
      eeeEnabled := iface.eeeEnabled
      stats := s.tx.stats }
    rx := initDmaDescRings (k.conf s) alloc mtu { s.rx with ring := ring }
    iface := iface
    running := true }

/-- What one step does, apart from its uses. -/
def OpsAct.apply (s : OpsState) : OpsAct → OpsState
  | .open e mtu ring bufs =>
    match stmmacOpen k.ofOpen e s.iface.fresh with
    | .crashed iface => { s with iface := iface, dead := true }
    | .returned ret iface =>
      if ret ≠ 0 then { s with iface := iface }
      else s.opened k iface mtu ring fun i => if e.rxSkb i then some (bufs i) else none
  | .release => { s with iface := stmmacRelease k.ofOpen s.iface, running := false }
  | .xmit skb dma => { s with tx := (stmmacXmit (k.conf s) s.tx skb dma).1 }
  | .xmitJumbo skb after =>
    if (stmmacTxAvail (k.conf s) s.tx).toNat < skb.frags.length + 1 then
      { s with tx := { s.tx with queueStopped := true } }
    else { s with tx := { after with txPathInLpiMode := false, eeeEnabled := s.tx.eeeEnabled } }
  | .rtl8211Xmit length addr => { s with tx := (Stmmac.rtl8211Xmit (k.conf s) s.tx length addr).1 }
  | .txClean => { s with tx := stmmacTxClean (k.conf s) s.tx }
  | .txErr => { s with tx := stmmacTxErr (k.conf s) s.tx }
  | .rx limit =>
    let rx := (rxLoop (k.conf s) limit.toNat s.rx 0).1
    { s with rx := rx, dead := rx.halted }
  | .rxRefill alloc => { s with rx := stmmacRxRefill (k.conf s) alloc s.rx }
  | .suspend _ =>
    { s with tx := stmmacSuspendTx (k.conf s) s.tx, rx := stmmacSuspend (k.conf s) s.rx }
  | .resume _ => { s with tx := stmmacResumeTx s.tx, rx := stmmacResume s.rx }
  | .hwtstampIoctl req =>
    let res := stmmacHwtstampIoctl (stmmacGetHwFeatures k.hw).timeStamp false req
      s.hwtsTxEn s.hwtsRxEn
    { s with hwtsTxEn := res.txEn, hwtsRxEn := res.rxEn }
  | .device txDesc rxDesc bytes =>
    { s with
      tx := { s.tx with ring := fun i => { s.tx.ring i with desc := txDesc i } }
      rx := { s.rx with ring := fun i => { s.rx.ring i with
        desc := rxDesc i
        skb := (s.rx.ring i).skb.map ({ · with buf := bytes i }) } } }
  | .coreIrq inLpi => { s with tx := { s.tx with txPathInLpiMode := inLpi } }

/-- An interface is opened when it is down and used while it is up; only a GMAC reports low power
mode. -/
def OpsAct.Enabled (s : OpsState) : OpsAct → Prop
  | .open .. => s.running = false
  | .coreIrq _ => s.running = true ∧ k.hw.hasGmac = true
  | _ => s.running = true

instance (s : OpsState) : (a : OpsAct) → Decidable (a.Enabled k s)
  | .open .. => inferInstanceAs (Decidable (_ = _))
  | .coreIrq _ => inferInstanceAs (Decidable (_ ∧ _))
  | .release | .xmit .. | .xmitJumbo .. | .rtl8211Xmit .. | .txClean | .txErr | .rx _
  | .rxRefill _ | .suspend _ | .resume _ | .hwtstampIoctl _ | .device .. =>
    inferInstanceAs (Decidable (s.running = true))

def opsStep (s : OpsState) (a : OpsAct) : Option OpsState :=
  if s.dead = false ∧ a.Enabled k s then
    some { a.apply k s with uses := s.uses ++ a.uses k s }
  else none

/-- After `stmmac_dvr_probe`. -/
def OpsState.probed : OpsState where
  tx := .idle k.data
  rx := ⟨fun _ => ⟨⟨⟨0, 0⟩, 0, 0⟩, none, 0⟩, 0, 0, 0, false, {}, []⟩
  iface := .probed
  running := false
  dead := false
  hwtsTxEn := false
  hwtsRxEn := false
  uses := []

/-- `stmmac_rx_refill` comes to an empty slot and has a buffer for it. -/
def ReplacesBuffer (c : Conf) (alloc : BitVec 32 → Option RxBuf) (s : RxState) : Prop :=
  ∃ n < (s.curRx - s.dirtyRx).toNat,
    (∀ m < n, (s.ring (c.rxEntry (s.dirtyRx + BitVec.ofNat 32 m))).skb.isSome = true) ∧
      (s.ring (c.rxEntry (s.dirtyRx + BitVec.ofNat 32 n))).skb = none ∧
      (alloc (s.dirtyRx + BitVec.ofNat 32 n)).isSome = true

instance (c : Conf) (alloc : BitVec 32 → Option RxBuf) (s : RxState) :
    Decidable (ReplacesBuffer c alloc s) :=
  inferInstanceAs (Decidable (∃ n < _, _))

/-- The condition on one step. -/
def TablesOk (s : OpsState) : OpsAct → Prop
  | .txClean => k.hw.chainMode = false ∨ txCleanGuard (k.conf s) s.tx = false
  | .rxRefill alloc => k.hw.chainMode = false ∨ ¬ ReplacesBuffer (k.conf s) alloc s.rx
  | .hwtstampIoctl req => ¬ req.Accepted (stmmacGetHwFeatures k.hw).timeStamp
  | _ => True

/-! ## Uses of one step -/

section Uses

variable {ext : ExternOps} {h : HwConf} {c : Conf}

theorem getTxHwtstampUses_present (hext : ext.Complete) (p : TxSlot) :
    AllPresent (stmmacHwInit ext h) (getTxHwtstampUses c p) := by
  unfold getTxHwtstampUses
  cases p.skb with
  | none => simp
  | some skb => simp [present_desc hext]

/-- A round of reclaiming needs the ring functions. -/
theorem txCleanBodyUses_present (hext : ext.Complete) (s : TxState) :
    AllPresent (stmmacHwInit ext h) (txCleanBodyUses c s) ↔ h.chainMode = false := by
  have htstamp := getTxHwtstampUses_present (h := h) (c := c) hext
    (s.ring (c.txEntry s.dirtyTx))
  simp [txCleanBodyUses, present_desc hext, present_ring hext, htstamp]

theorem txCleanTailUses_present (hext : ext.Complete) (s : TxState)
    (hgmac : s.eeeEnabled = true → h.hasGmac = true) :
    AllPresent (stmmacHwInit ext h) (txCleanTailUses s) := by
  unfold txCleanTailUses
  simp only [allPresent_append, allPresent_ite, allPresent_cons, allPresent_nil, and_true,
    implies_true, present_desc hext (f := .getTxOwner) (by simp), true_and]
  intro h
  simp only [Bool.and_eq_true] at h
  exact present_mac_gmac (hgmac h.1.1) _

theorem jumboUses_present (hext : ext.Complete) (hmode : c.mode = h.mode) (jumbo : Bool) :
    AllPresent (stmmacHwInit ext h) (jumboUses c jumbo) := by
  unfold jumboUses
  cases hm : c.mode with
  | ring => simp [present_ring hext, HwConf.mode_eq_ring.mp (hmode.symm.trans hm)]
  | chain => simp [present_chain hext, HwConf.mode_eq_chain.mp (hmode.symm.trans hm)]

theorem coalesceUses_present (hext : ext.Complete) (s : TxState) (n : BitVec 32) :
    AllPresent (stmmacHwInit ext h) (coalesceUses c s n) := by
  simp [coalesceUses, present_desc hext]

theorem present_enableDmaTransmission :
    (stmmacHwInit ext h).Present (.dma .enableDmaTransmission) = true := present_dma (by simp)

theorem stmmacXmitUses_present (hext : ext.Complete) (hmode : c.mode = h.mode) (jumbo : Bool)
    (s : TxState) (skb : TxSkb) (hgmac : s.txPathInLpiMode = true → h.hasGmac = true) :
    AllPresent (stmmacHwInit ext h) (stmmacXmitUses c jumbo s skb) := by
  have hlpi : s.txPathInLpiMode = true →
      (stmmacHwInit ext h).Present (.mac .resetEeeMode) = true :=
    fun hlpi => present_mac_gmac (hgmac hlpi) _
  have hfrags : AllPresent (stmmacHwInit ext h)
      (skb.frags.flatMap fun _ => [.desc .prepareTxDesc, .desc .setTxOwner]) :=
    allPresent_flatMap fun _ _ => by simp [present_desc hext]
  unfold stmmacXmitUses
  simpa [jumboUses_present hext hmode, coalesceUses_present hext, present_desc hext, hfrags,
    present_enableDmaTransmission] using fun _ => hlpi

theorem rtl8211XmitUses_present (hext : ext.Complete) (hmode : c.mode = h.mode) (s : TxState) :
    AllPresent (stmmacHwInit ext h) (rtl8211XmitUses c false s) := by
  simp [rtl8211XmitUses, jumboUses_present hext hmode, coalesceUses_present hext,
    present_desc hext, present_enableDmaTransmission]

theorem dmaFreeTxSkbufsUses_present (hext : ext.Complete) (s : TxState) :
    AllPresent (stmmacHwInit ext h) (dmaFreeTxSkbufsUses c s) :=
  allPresent_flatMap fun _ _ => by simp [present_desc hext]

theorem clearTxUses_present (hext : ext.Complete) :
    AllPresent (stmmacHwInit ext h) (clearTxUses c) :=
  allPresent_replicate _ (present_desc hext (by simp))

theorem present_stop_start :
    (stmmacHwInit ext h).Present (.dma .stopTx) = true ∧
      (stmmacHwInit ext h).Present (.dma .stopRx) = true ∧
      (stmmacHwInit ext h).Present (.dma .startTx) = true ∧
      (stmmacHwInit ext h).Present (.dma .startRx) = true :=
  ⟨present_dma (by simp), present_dma (by simp), present_dma (by simp), present_dma (by simp)⟩

theorem stmmacTxErrUses_present (hext : ext.Complete) (s : TxState) :
    AllPresent (stmmacHwInit ext h) (stmmacTxErrUses c s) := by
  simp [stmmacTxErrUses, dmaFreeTxSkbufsUses_present hext, clearTxUses_present hext,
    present_stop_start]

theorem stmmacReleaseUses_present (hext : ext.Complete) (s : TxState) :
    AllPresent (stmmacHwInit ext h) (stmmacReleaseUses c s) := by
  simp [stmmacReleaseUses, dmaFreeTxSkbufsUses_present hext, present_stop_start]

theorem stmmacSuspendUses_present (hext : ext.Complete) (mayWakeup : Bool) :
    AllPresent (stmmacHwInit ext h) (stmmacSuspendUses c mayWakeup) := by
  have hrx : AllPresent (stmmacHwInit ext h)
      (.replicate c.dmaRxSize.toNat (.desc .initRxDesc)) :=
    allPresent_replicate _ (present_desc hext (by simp))
  have hpmt : (stmmacHwInit ext h).Present (.mac .pmt) = true := present_mac rfl
  simp [stmmacSuspendUses, clearTxUses_present hext, present_stop_start, hrx, hpmt]

theorem stmmacResumeUses_present (mayWakeup : Bool) :
    AllPresent (stmmacHwInit ext h) (stmmacResumeUses mayWakeup) := by
  have hpmt : (stmmacHwInit ext h).Present (.mac .pmt) = true := present_mac rfl
  simp [stmmacResumeUses, present_stop_start, hpmt]

theorem rxBodyUses_present (hext : ext.Complete) (s : RxState) :
    AllPresent (stmmacHwInit ext h) (rxBodyUses c s) := by
  simp [rxBodyUses, getRxHwtstampUses, present_desc hext]

theorem rxLoopUses_present (hext : ext.Complete) (n : Nat) (s : RxState) :
    AllPresent (stmmacHwInit ext h) (rxLoopUses c n s) := by
  induction n generalizing s with
  | zero => exact allPresent_nil
  | succ n ih =>
    unfold rxLoopUses
    rw [allPresent_cons, allPresent_ite]
    refine ⟨present_desc hext (by simp), fun _ => allPresent_nil, fun _ => ?_⟩
    rw [allPresent_append]
    refine ⟨rxBodyUses_present hext s, ?_⟩
    obtain ⟨t, stop⟩ := rxBody c s
    cases stop with
    | true => exact allPresent_nil
    | false => exact ih t

theorem stmmacHwtstampIoctl_accepted {timeStamp : Bool} {req : HwtstampReq}
    (hacc : req.Accepted timeStamp) (txEn rxEn : Bool) :
    .ptp .configHwTstamping ∈ (stmmacHwtstampIoctl timeStamp false req txEn rxEn).uses := by
  obtain ⟨hcap, hcopy, hflags, htype⟩ := hacc
  have htype' : ¬ (req.txType ≠ hwtstampTxOff ∧ req.txType ≠ hwtstampTxOn) := by tauto
  simp only [stmmacHwtstampIoctl, hcap, hcopy, hflags, if_neg htype', Bool.or_false,
    Bool.not_true, Bool.false_eq_true, ne_eq, not_true_eq_false, false_and, if_false]
  split <;> exact List.mem_cons_self

theorem stmmacHwtstampIoctl_refused {timeStamp : Bool} {req : HwtstampReq}
    (hacc : ¬ req.Accepted timeStamp) (txEn rxEn : Bool) :
    (stmmacHwtstampIoctl timeStamp false req txEn rxEn).uses = [] := by
  unfold stmmacHwtstampIoctl
  split
  · rfl
  split
  · rfl
  split
  · rfl
  split
  · rfl
  next hcap hcopy hflags htype =>
  refine absurd ⟨by simpa using hcap, by simpa using hcopy, not_not.mp hflags, ?_⟩ hacc
  by_contra hno
  exact htype (not_or.mp hno)

/-- Only a request that is accepted reaches the time stamping functions. -/
theorem stmmacHwtstampIoctl_present (timeStamp : Bool) (req : HwtstampReq) (txEn rxEn : Bool) :
    AllPresent (stmmacHwInit ext h) (stmmacHwtstampIoctl timeStamp false req txEn rxEn).uses ↔
      ¬ req.Accepted timeStamp := by
  constructor
  · intro hall hacc
    have hptp := hall _ (stmmacHwtstampIoctl_accepted hacc txEn rxEn)
    rw [present_ptp] at hptp
    cases hptp
  · intro hacc
    rw [stmmacHwtstampIoctl_refused hacc]
    exact allPresent_nil

/-! ## The two loops -/

/-- Reclaiming uses the ring functions in each round, and the first round is made when the guard
holds. -/
theorem stmmacTxCleanUses_present (hext : ext.Complete) (s : TxState)
    (hgmac : s.eeeEnabled = true → h.hasGmac = true) :
    AllPresent (stmmacHwInit ext h) (stmmacTxCleanUses c s) ↔
      h.chainMode = false ∨ txCleanGuard c s = false := by
  have htail : AllPresent (stmmacHwInit ext h)
      (txCleanTailUses (iterate (txCleanGuard c) (txCleanBody c) s.inFlight s)) := by
    refine txCleanTailUses_present hext _ fun heee => hgmac ?_
    rw [← heee]
    have hkeep : (iterate (txCleanGuard c) (txCleanBody c) s.inFlight s).timers = s.timers := by
      refine iterate_invariant (I := fun t : TxState => t.timers = s.timers) ?_ rfl
      intro t ht _
      rw [txCleanBody_timers, ht]
    exact (congrArg TxTimers.eeeEnabled hkeep).symm
  unfold stmmacTxCleanUses
  rw [allPresent_append, and_iff_left htail]
  cases hg : txCleanGuard c s with
  | false =>
    have hnil : iterateLog (txCleanGuard c) (txCleanBody c) (txCleanBodyUses c) s.inFlight s =
        [] := by
      unfold iterateLog
      cases s.inFlight <;> simp [hg]
    rw [hnil]
    exact iff_of_true allPresent_nil (.inr rfl)
  | true =>
    rw [or_iff_left (by simp)]
    constructor
    · intro hall
      have hpos : s.inFlight ≠ 0 := by
        have hne := (txCleanGuard_iff.mp hg).1
        rw [TxState.inFlight]
        bv_omega
      obtain ⟨n, hn⟩ := Nat.exists_eq_succ_of_ne_zero hpos
      rw [hn, iterateLog, if_pos hg, allPresent_append] at hall
      exact (txCleanBodyUses_present hext s).mp hall.1
    · intro hring u hu
      exact iterateLog_forall (fun t _ => (txCleanBodyUses_present hext t).mpr hring) _ _ u hu

/-- Empty slots are looked for from `dirty_rx` on. -/
theorem replacesBuffer_cases {alloc : BitVec 32 → Option RxBuf} {s : RxState}
    (hne : s.curRx ≠ s.dirtyRx) :
    ReplacesBuffer c alloc s ↔
      (s.ring (c.rxEntry s.dirtyRx)).skb = none ∧ (alloc s.dirtyRx).isSome = true ∨
        (s.ring (c.rxEntry s.dirtyRx)).skb.isSome = true ∧
          ReplacesBuffer c alloc { s with dirtyRx := s.dirtyRx + 1 } := by
  have hlen : (s.curRx - s.dirtyRx).toNat = (s.curRx - (s.dirtyRx + 1)).toNat + 1 := by bv_omega
  have hzero : s.dirtyRx + BitVec.ofNat 32 0 = s.dirtyRx := by simp
  have hsucc : ∀ m, s.dirtyRx + BitVec.ofNat 32 (m + 1) = s.dirtyRx + 1 + BitVec.ofNat 32 m := by
    intro m
    rw [BitVec.ofNat_add]
    ac_rfl
  unfold ReplacesBuffer
  constructor
  · rintro ⟨n, hn, hfull, hempty, halloc⟩
    cases n with
    | zero => exact .inl ⟨hzero ▸ hempty, hzero ▸ halloc⟩
    | succ n =>
      refine .inr ⟨hzero ▸ hfull 0 (by omega), n, by simp only; omega, fun m hm => ?_, ?_, ?_⟩
      · rw [← hsucc]
        exact hfull (m + 1) (by omega)
      · rw [← hsucc]
        exact hempty
      · rw [← hsucc]
        exact halloc
  · rintro (⟨hempty, halloc⟩ | ⟨hhead, n, hn, hfull, hempty, halloc⟩)
    · refine ⟨0, by omega, fun m hm => absurd hm (Nat.not_lt_zero m), ?_, ?_⟩
      · rw [hzero]
        exact hempty
      · rw [hzero]
        exact halloc
    · refine ⟨n + 1, by simp only at hn; omega, fun m hm => ?_, ?_, ?_⟩
      · cases m with
        | zero =>
          rw [hzero]
          exact hhead
        | succ m =>
          rw [hsucc]
          exact hfull m (by omega)
      · rw [hsucc]
        exact hempty
      · rw [hsucc]
        exact halloc

theorem ReplacesBuffer.congr {alloc : BitVec 32 → Option RxBuf} {s s' : RxState}
    (hcur : s'.curRx = s.curRx) (hdirty : s'.dirtyRx = s.dirtyRx)
    (hring : ∀ i, (s'.ring i).skb = (s.ring i).skb) :
    ReplacesBuffer c alloc s' ↔ ReplacesBuffer c alloc s := by
  unfold ReplacesBuffer
  simp only [hcur, hdirty, hring]

theorem refilled_of_some {b : Option RxBuf} {p : RxSlot} {skb : RxSkb} (h : p.skb = some skb) :
    (c.refilled b p).skb = some skb := by
  unfold Conf.refilled
  cases b <;> simp [h, RxSlot.mapDes]

/-- The first slot that gets a buffer is the first use of the ring functions. -/
theorem refillDesc3_mem_iff (alloc : BitVec 32 → Option RxBuf) (n : Nat) (s : RxState)
    (hn : (s.curRx - s.dirtyRx).toNat = n) :
    .ring .refillDesc3 ∈ iterateLog (rxRefillGuard c alloc) (rxRefillBody c alloc)
      (rxRefillBodyUses c alloc) n s ↔ ReplacesBuffer c alloc s := by
  induction n generalizing s with
  | zero => exact iff_of_false List.not_mem_nil fun ⟨m, hm, _⟩ => by omega
  | succ n ih =>
    have hne : s.curRx ≠ s.dirtyRx := by bv_omega
    have hnext : (s.curRx - (s.dirtyRx + 1)).toNat = n := by bv_omega
    rw [replacesBuffer_cases hne, iterateLog]
    cases hslot : (s.ring (c.rxEntry s.dirtyRx)).skb with
    | some skb =>
      have hg : rxRefillGuard c alloc s = true :=
        rxRefillGuard_iff.mpr ⟨hne, .inl (by rw [hslot]; rfl)⟩
      have hbody : rxRefillBody c alloc s = _ := rxRefillBody_eq
      have hsame : ReplacesBuffer c alloc (rxRefillBody c alloc s) ↔
          ReplacesBuffer c alloc { s with dirtyRx := s.dirtyRx + 1 } := by
        refine ReplacesBuffer.congr (by rw [hbody]) (by rw [hbody]) fun i => ?_
        rw [hbody]
        dsimp only
        rcases eq_or_ne i (c.rxEntry s.dirtyRx) with rfl | hi
        · rw [Function.update_self, refilled_of_some hslot, hslot]
        · rw [Function.update_of_ne hi]
      rw [if_pos hg, List.mem_append, ih _ (by rw [hbody]; exact hnext), hsame]
      simp [rxRefillBodyUses, hslot]
    | none =>
      cases halloc : alloc s.dirtyRx with
      | none =>
        have hg : ¬ rxRefillGuard c alloc s = true := by
          rw [rxRefillGuard_iff, hslot, halloc]
          simp
        rw [if_neg hg]
        simp
      | some b =>
        have hg : rxRefillGuard c alloc s = true :=
          rxRefillGuard_iff.mpr ⟨hne, .inr (by rw [halloc]; rfl)⟩
        rw [if_pos hg]
        simp [rxRefillBodyUses, hslot, halloc]

theorem stmmacRxRefillUses_present (hext : ext.Complete) (alloc : BitVec 32 → Option RxBuf)
    (s : RxState) :
    AllPresent (stmmacHwInit ext h) (stmmacRxRefillUses c alloc s) ↔
      h.chainMode = false ∨ ¬ ReplacesBuffer c alloc s := by
  have hmem := refillDesc3_mem_iff (c := c) alloc _ s rfl
  have hround : ∀ t : RxState, ∀ u ∈ rxRefillBodyUses c alloc t,
      u = .ring .refillDesc3 ∨ (stmmacHwInit ext h).Present u = true := by
    intro t u hu
    have howner := present_desc (h := h) hext (f := .setRxOwner) (by simp)
    simp only [rxRefillBodyUses, List.mem_append, List.mem_ite_nil_right, List.mem_singleton] at hu
    rcases hu with ⟨-, rfl⟩ | rfl
    · exact .inl rfl
    · exact .inr howner
  have hring := present_ring (h := h) hext .refillDesc3
  constructor
  · intro hall
    by_contra hno
    obtain ⟨hchain, hreplaces⟩ := not_or.mp hno
    have := hall _ (hmem.mpr (not_not.mp hreplaces))
    rw [hring] at this
    simp_all
  · intro hok u hu
    rcases iterateLog_forall (fun t _ => hround t) _ _ u hu with rfl | hu
    · rw [hring, hok.resolve_right fun hno => hno (hmem.mp hu)]
      rfl
    · exact hu

end Uses

/-! ## Flags -/

section Flags

variable {c : Conf} {s : TxState}

/-- `tx_path_in_lpi_mode` and `eee_enabled`. -/
def TxState.lpiFlags (s : TxState) : Bool × Bool := (s.txPathInLpiMode, s.eeeEnabled)

theorem TxState.lpiFlags_eq {s t : TxState} (h : s.timers = t.timers) :
    s.lpiFlags = t.lpiFlags := by
  simp only [TxState.timers, TxTimers.mk.injEq] at h
  rw [TxState.lpiFlags, TxState.lpiFlags, h.2.1, h.2.2.1]

theorem stmmacTxClean_lpiFlags : (stmmacTxClean c s).lpiFlags = s.lpiFlags := by
  have h := stmmacTxClean_timers c s
  simp only [TxState.timers, TxTimers.afterClean, TxTimers.mk.injEq] at h
  rw [TxState.lpiFlags, TxState.lpiFlags, h.2.1, h.2.2.1]

theorem stmmacTxErr_lpiFlags : (stmmacTxErr c s).lpiFlags = s.lpiFlags :=
  TxState.lpiFlags_eq (stmmacTxErr_timers c s)

theorem txCoalesce_lpiFlags (entry : Nat) (n : BitVec 32) :
    (txCoalesce c entry n s).lpiFlags = s.lpiFlags := by
  unfold txCoalesce
  dsimp only
  split <;> rfl

theorem xmitFrags_lpiFlags (csum : Bool) (segs : List (BitVec 32 × BitVec 32)) :
    (xmitFrags c csum segs s).lpiFlags = s.lpiFlags := by
  induction segs generalizing s with
  | nil => rfl
  | cons seg segs ih => exact ih

theorem xmitStopQueue_lpiFlags : (xmitStopQueue c s).lpiFlags = s.lpiFlags := by
  unfold xmitStopQueue
  split <;> rfl

theorem xmitTimestamp_lpiFlags (skb : TxSkb) (first : Nat) :
    (xmitTimestamp c skb first s).lpiFlags = s.lpiFlags := by
  unfold xmitTimestamp
  dsimp only
  split_ifs <;> rfl

theorem rtl8211Xmit_lpiFlags (length addr : BitVec 32) :
    (rtl8211Xmit c s length addr).1.lpiFlags = s.lpiFlags := by
  unfold rtl8211Xmit
  dsimp only
  exact txCoalesce_lpiFlags ..

theorem xmitExitLpi_lpiFlags : (xmitExitLpi s).lpiFlags = (false, s.eeeEnabled) := by
  unfold xmitExitLpi
  cases hlpi : s.txPathInLpiMode with
  | true => rfl
  | false => simp [TxState.lpiFlags, hlpi]

/-- Transmitting never puts the path into low power mode. -/
theorem stmmacXmit_lpiFlags (skb : TxSkb) (dma : Nat → BitVec 32) :
    (stmmacXmit c s skb dma).1.lpiFlags = s.lpiFlags ∨
      (stmmacXmit c s skb dma).1.lpiFlags = (false, s.eeeEnabled) := by
  have hmodify : ∀ (s : TxState) entry f, (s.modify entry f).lpiFlags = s.lpiFlags :=
    fun _ _ _ => rfl
  have hcall : ∀ (s : TxState) x, (s.call x).lpiFlags = s.lpiFlags := fun _ _ => rfl
  have hbytes : ∀ (s : TxState) len, (s.addTxBytes len).lpiFlags = s.lpiFlags := fun _ _ => rfl
  have hcur : ∀ (s : TxState) x, TxState.lpiFlags { s with curTx := x } = s.lpiFlags :=
    fun _ _ => rfl
  unfold stmmacXmit
  dsimp only
  split
  · exact .inl rfl
  · refine .inr ?_
    simp only [hcall, xmitTimestamp_lpiFlags, hbytes, xmitStopQueue_lpiFlags, hcur, hmodify,
      txCoalesce_lpiFlags, xmitFrags_lpiFlags, xmitExitLpi_lpiFlags]

end Flags

/-! ## Runs -/

variable {k} {s s' : OpsState} {a : OpsAct} {ext : ExternOps}

/-- The flags that call for EEE functions are set on a GMAC only. -/
structure OpsInv (k : OpsConf) (s : OpsState) : Prop where
  lpi : s.tx.txPathInLpiMode = true → k.hw.hasGmac = true
  eee : s.tx.eeeEnabled = true → k.hw.hasGmac = true

theorem OpsInv.of_flags (inv : OpsInv k s)
    (h : s'.tx.lpiFlags = s.tx.lpiFlags ∨ s'.tx.lpiFlags = (false, s.tx.eeeEnabled)) :
    OpsInv k s' := by
  simp only [TxState.lpiFlags, Prod.mk.injEq] at h
  constructor
  · intro hlpi
    rcases h with h | h
    · exact inv.lpi (h.1 ▸ hlpi)
    · rw [h.1] at hlpi
      cases hlpi
  · intro heee
    rcases h with h | h
    · exact inv.eee (h.2 ▸ heee)
    · exact inv.eee (h.2 ▸ heee)

theorem hasGmac_of_eee (h : (stmmacGetHwFeatures k.hw).eee = true) : k.hw.hasGmac = true := by
  unfold stmmacGetHwFeatures at h
  split at h
  · assumption
  · cases h

theorem OpsInv.apply (inv : OpsInv k s) (hen : a.Enabled k s) : OpsInv k (a.apply k s) := by
  cases a with
  | «open» e mtu ring bufs =>
    simp only [OpsAct.apply]
    cases hopen : stmmacOpen k.ofOpen e s.iface.fresh with
    | crashed iface => exact ⟨inv.lpi, inv.eee⟩
    | returned ret iface =>
      dsimp only
      split
      · exact ⟨inv.lpi, inv.eee⟩
      · next hret =>
        obtain rfl := not_not.mp hret
        exact ⟨inv.lpi, fun heee => hasGmac_of_eee (stmmacOpen_eeeEnabled hopen heee)⟩
  | release => exact ⟨inv.lpi, inv.eee⟩
  | xmit skb dma => exact inv.of_flags (stmmacXmit_lpiFlags skb dma)
  | xmitJumbo skb after =>
    simp only [OpsAct.apply]
    split
    · exact ⟨inv.lpi, inv.eee⟩
    · exact inv.of_flags (.inr rfl)
  | rtl8211Xmit length addr => exact inv.of_flags (.inl (rtl8211Xmit_lpiFlags length addr))
  | txClean => exact inv.of_flags (.inl stmmacTxClean_lpiFlags)
  | txErr => exact inv.of_flags (.inl stmmacTxErr_lpiFlags)
  | rx limit => exact ⟨inv.lpi, inv.eee⟩
  | rxRefill alloc => exact ⟨inv.lpi, inv.eee⟩
  | suspend mayWakeup => exact ⟨inv.lpi, inv.eee⟩
  | resume mayWakeup => exact ⟨inv.lpi, inv.eee⟩
  | hwtstampIoctl req => exact ⟨inv.lpi, inv.eee⟩
  | device txDesc rxDesc bytes => exact ⟨inv.lpi, inv.eee⟩
  | coreIrq inLpi => exact ⟨fun _ => hen.2, inv.eee⟩

/-- One step uses only what is there exactly under its condition. -/
theorem OpsInv.uses_present_iff (hext : ext.Complete) (inv : OpsInv k s) (a : OpsAct) :
    AllPresent (stmmacHwInit ext k.hw) (a.uses k s) ↔ TablesOk k s a := by
  cases a with
  | «open» e mtu ring bufs =>
    refine iff_of_true ?_ trivial
    exact UsesOk.stmmacOpen hext rfl hasGmac_of_eee (s := s.iface.fresh) allPresent_nil
  | release => exact iff_of_true (stmmacReleaseUses_present hext _) trivial
  | xmit skb dma => exact iff_of_true (stmmacXmitUses_present hext rfl _ _ _ inv.lpi) trivial
  | xmitJumbo skb after =>
    exact iff_of_true (stmmacXmitUses_present hext rfl _ _ _ inv.lpi) trivial
  | rtl8211Xmit length addr => exact iff_of_true (rtl8211XmitUses_present hext rfl _) trivial
  | txClean => exact stmmacTxCleanUses_present hext _ inv.eee
  | txErr => exact iff_of_true (stmmacTxErrUses_present hext _) trivial
  | rx limit => exact iff_of_true (rxLoopUses_present hext _ _) trivial
  | rxRefill alloc => exact stmmacRxRefillUses_present hext alloc _
  | suspend mayWakeup => exact iff_of_true (stmmacSuspendUses_present hext _) trivial
  | resume mayWakeup => exact iff_of_true (stmmacResumeUses_present _) trivial
  | hwtstampIoctl req => exact stmmacHwtstampIoctl_present _ req _ _
  | device txDesc rxDesc bytes => exact iff_of_true allPresent_nil trivial
  | coreIrq inLpi => exact iff_of_true allPresent_nil trivial

theorem opsStep_eq (hs : opsStep k s a = some s') :
    a.Enabled k s ∧ s' = { a.apply k s with uses := s.uses ++ a.uses k s } := by
  unfold opsStep at hs
  obtain ⟨hen, hs⟩ := Option.ite_none_right_eq_some.mp hs
  exact ⟨hen.2, (Option.some.inj hs).symm⟩

theorem OpsInv.step (inv : OpsInv k s) (hs : opsStep k s a = some s') : OpsInv k s' := by
  obtain ⟨hen, rfl⟩ := opsStep_eq hs
  exact ⟨(inv.apply hen).lpi, (inv.apply hen).eee⟩

/-- Uses are only added. -/
theorem run_keeps_uses {ok : OpsState → OpsAct → Prop} {as : List OpsAct}
    (run : Run (opsStep k) ok s as s') : s.uses <+: s'.uses := by
  induction run with
  | nil s => exact List.prefix_rfl
  | cons _ hs _ ih =>
    obtain ⟨-, rfl⟩ := opsStep_eq hs
    exact (List.prefix_append _ _).trans ih

/-- What a run has used is there exactly when every step met its condition. -/
theorem OpsInv.run_present_iff (hext : ext.Complete) {as : List OpsAct} (inv : OpsInv k s)
    (hstart : AllPresent (stmmacHwInit ext k.hw) s.uses)
    (run : Run (opsStep k) (fun _ _ => True) s as s') :
    AllPresent (stmmacHwInit ext k.hw) s'.uses ↔ Run (opsStep k) (TablesOk k) s as s' := by
  induction run with
  | nil s => exact iff_of_true hstart (.nil s)
  | @cons s t u a as _ hs run ih =>
    have hnext : AllPresent (stmmacHwInit ext k.hw) t.uses ↔ TablesOk k s a := by
      rw [← inv.uses_present_iff hext a]
      obtain ⟨-, rfl⟩ := opsStep_eq hs
      rw [allPresent_append, and_iff_right hstart]
    constructor
    · intro hall
      have ht : AllPresent (stmmacHwInit ext k.hw) t.uses := by
        intro u hu
        exact hall u ((run_keeps_uses run).subset hu)
      exact .cons (hnext.mp ht) hs ((ih (inv.step hs) ht).mp hall)
    · intro hok
      cases hok with
      | cons hstep hs' run' =>
        obtain rfl := Option.some.inj (hs.symm.trans hs')
        exact (ih (inv.step hs) (hnext.mpr hstep)).mpr run'

/-- From `stmmac_hw_init` on, a run uses only tables and functions that are there exactly when in
chain mode it reclaims no descriptor and replaces no receive buffer, and no time stamping request
is accepted. -/
theorem tables_present_iff (hext : ext.Complete) (k : OpsConf) {as : List OpsAct} {s : OpsState}
    (run : Run (opsStep k) (fun _ _ => True) (.probed k) as s) :
    (∀ u ∈ s.uses, (stmmacHwInit ext k.hw).Present u = true) ↔
      Run (opsStep k) (TablesOk k) (.probed k) as s := by
  have inv : OpsInv k (.probed k) := by
    constructor
    · intro h
      cases h
    · intro h
      cases h
  exact inv.run_present_iff hext allPresent_nil run

/-- All functions of the tables defined elsewhere. -/
def ExternOps.full : ExternOps := ⟨fun _ => true, fun _ => true, fun _ => true⟩

theorem ExternOps.full_complete : ExternOps.full.Complete :=
  ⟨fun _ => rfl, fun _ => rfl, fun _ => rfl⟩

/-- A GMAC with time stamps and EEE and rings of 64 normal descriptors. -/
def OpsConf.gmac (chainMode : Bool) : OpsConf where
  hw := ⟨true, chainMode, false, 0x5000⟩
  data := .normal 64
  openConf := .board

/-- A frame is sent and reclaimed. -/
def sendOne : List OpsAct :=
  [.open .granted 1500 (fun _ => ⟨⟨⟨0, 0⟩, 0, 0⟩, none, 0⟩) fun i => .page i,
    .xmit (.plain 1 60 []) fun _ => 4096,
    .device (fun _ => ⟨⟨0, 0⟩, 0, 0⟩) (fun _ => ⟨⟨0, 0⟩, 0, 0⟩) fun _ _ => 0,
    .txClean]

theorem tables_present_iff_ring :
    ∃ s, Run (opsStep (.gmac false)) (fun _ _ => True) (.probed (.gmac false)) sendOne s ∧
      ((∀ u ∈ s.uses, (stmmacHwInit .full (OpsConf.gmac false).hw).Present u = true) ↔
        Run (opsStep (.gmac false)) (TablesOk (.gmac false)) (.probed (.gmac false)) sendOne s) :=
  exec_exists (by decide +kernel) fun _ run => tables_present_iff ExternOps.full_complete _ run

/-- In chain mode `hw->ring` is `NULL` when the frame is reclaimed. -/
theorem chain_mode_uses_ring :
    ∃ s, Run (opsStep (.gmac true)) (fun _ _ => True) (.probed (.gmac true)) sendOne s ∧
      ¬ ∀ u ∈ s.uses, (stmmacHwInit .full (OpsConf.gmac true).hw).Present u = true :=
  exec_reaches (by decide +kernel)

end Stmmac
