import Stmmac.Irq.Direct

/-!
# The NAPI interrupt path

`stmmac_dma_interrupt` and `stmmac_poll`, which the driver keeps beside its direct path, as two
threads over the same device. Neither is in use: the call of `netif_napi_add` is commented out, so
that `stmmac_poll` is never registered, and `stmmac_interrupt` calls `stmmac_direct_dma_interrupt`
instead of `stmmac_dma_interrupt`, which nothing calls. The handler acknowledges, disables the DMA
interrupts and schedules the poll; the poll consumes frames until a call falls short of its budget
and only then enables the interrupts again. A frame that the last call did not see has set `RI`
behind the mask, so any number of frames is consumed as long as nobody acknowledges it there.
-/

namespace Stmmac

open Library

/-- The next step of `stmmac_dma_interrupt`, with the value that `dma_interrupt` returned. -/
inductive IsrPc where
  | idle
  | acknowledge (intrStatus ret : BitVec 32)
  | schedulePrep (ret : BitVec 32)
  | disableIrq (ret : BitVec 32)
  | napiSchedule (ret : BitVec 32)
  | errors (ret : BitVec 32)
  deriving DecidableEq

/-- The next step of `stmmac_poll`. -/
inductive PollPc where
  | idle
  | rx
  | napiComplete
  | enableIrq
  deriving DecidableEq

/-- `sched` is `NAPI_STATE_SCHED`; `listed` is set while the kernel has the instance on its list and
calls `stmmac_poll`. -/
structure NapiIrq where
  hw : RxHw
  tx : TxState
  status : BitVec 32
  intrEna : BitVec 32
  xstats : IrqStats
  napiPoll : Nat
  tc : Int
  sched : Bool
  listed : Bool
  isr : IsrPc
  poll : PollPc

/-- The end of `stmmac_dma_interrupt`. -/
def stmmacDmaErrors (c : Conf) (ret : BitVec 32) (s : NapiIrq) : NapiIrq :=
  if hasBit ret txHardErrorBumpTc then
    if s.tc ≠ sfDmaMode ∧ s.tc ≤ 256 then
      { s with tc := s.tc + 64, xstats := { s.xstats with threshold := s.tc + 64 } }
    else s
  else if ret = txHardError then { s with tx := stmmacTxErr c s.tx }
  else s

/-- One step of `stmmac_dma_interrupt`. -/
def stmmacDmaInterrupt (c : Conf) (s : NapiIrq) : NapiIrq :=
  match s.isr with
  | .idle =>
    let (xstats, ret) := dwmacDmaInterrupt s.status s.intrEna s.xstats
    { s with xstats := xstats, isr := .acknowledge s.status ret }
  | .acknowledge intrStatus ret =>
    let s := { s with status := dwmacAckStatus s.status intrStatus }
    if hasBit ret handleRx || hasBit ret handleTx then { s with isr := .schedulePrep ret }
    else { s with isr := .errors ret }
  | .schedulePrep ret =>
    if s.sched then { s with isr := .errors ret }
    else { s with sched := true, isr := .disableIrq ret }
  | .disableIrq ret => { s with intrEna := 0, isr := .napiSchedule ret }
  | .napiSchedule ret => { s with listed := true, isr := .errors ret }
  | .errors ret => { stmmacDmaErrors c ret s with isr := .idle }

/-- `work_done < budget`, both of them `int`. -/
def workDoneLt (workDone : Nat) (budget : BitVec 32) : Bool :=
  (BitVec.ofNat 32 workDone).slt budget

/-- One step of `stmmac_poll`. -/
def stmmacPoll (c : Conf) (alloc : BitVec 32 → Option RxBuf) (budget : BitVec 32) (s : NapiIrq) :
    NapiIrq :=
  match s.poll with
  | .idle => { s with napiPoll := s.napiPoll + 1, tx := stmmacTxClean c s.tx, poll := .rx }
  | .rx =>
    let (rx, workDone) := stmmacRx c alloc s.hw.rx budget
    let s := { s with hw := { s.hw with rx := rx } }
    -- the kernel calls again after a call that used up its budget
    if workDoneLt workDone budget then { s with poll := .napiComplete }
    else { s with poll := .idle }
  | .napiComplete => { s with sched := false, listed := false, poll := .enableIrq }
  | .enableIrq => { s with intrEna := DmaIntrEna.defaultMask, poll := .idle }

inductive NapiAct where
  | receive (w : RxWrite)
  | interrupt
  | poll (alloc : BitVec 32 → Option RxBuf) (budget : BitVec 32)

/-- The kernel calls `stmmac_poll` while the instance is on its list. -/
def napiStep (c : Conf) (s : NapiIrq) : NapiAct → Option NapiIrq
  | .receive w =>
    (rxStep c s.hw (.receive w)).map fun hw =>
      { s with hw := hw, status := s.status ||| DmaStatus.received }
  | .interrupt => if s.hw.rx.halted then none else some (stmmacDmaInterrupt c s)
  | .poll alloc budget =>
    if s.hw.rx.halted ∨ (s.poll = .idle ∧ s.listed = false) then none
    else some (stmmacPoll c alloc budget s)

/-- The status is not read with a reception in it while the interrupts are disabled, as another
source on the line can bring about, and `stmmac_rx` does not go round the ring. -/
def MaskRespected (c : Conf) (s : NapiIrq) : NapiAct → Prop
  | .receive _ => True
  | .interrupt => s.isr = .idle → hasBit s.status DmaStatus.ri = true →
      s.intrEna = DmaIntrEna.defaultMask
  | .poll _ budget => s.poll = .rx → RoundsFit c s.hw.rx budget.toNat

instance (c : Conf) (s : NapiIrq) : ∀ a, Decidable (MaskRespected c s a)
  | .receive _ => inferInstanceAs (Decidable True)
  | .interrupt => inferInstanceAs (Decidable (_ = _ → _ = _ → _ = _))
  | .poll _ _ => inferInstanceAs (Decidable (_ = _ → RoundsFit _ _ _))

/-- Nothing runs, nothing is scheduled and no reception is pending. -/
structure NapiIrq.Quiet (s : NapiIrq) : Prop where
  isr : s.isr = .idle
  poll : s.poll = .idle
  sched : s.sched = false
  pending : hasBit s.status DmaStatus.ri = false

namespace IsrPc

/-- A reception has been acknowledged, or is about to be, and the poll is not yet on the list. -/
def Committed : IsrPc → Prop
  | acknowledge intrStatus _ => intrStatus ≠ 0
  | schedulePrep _ | disableIrq _ | napiSchedule _ => True
  | idle | errors _ => False

/-- `NAPI_STATE_SCHED` has been taken and the poll is not yet on the list. -/
def Taken : IsrPc → Prop
  | disableIrq _ | napiSchedule _ => True
  | idle | acknowledge _ _ | schedulePrep _ | errors _ => False

/-- The handler has disabled the interrupts and not yet put the poll on the list. -/
def Disabled : IsrPc → Prop
  | napiSchedule _ => True
  | idle | acknowledge _ _ | schedulePrep _ | disableIrq _ | errors _ => False

theorem Taken.committed {pc : IsrPc} (h : pc.Taken) : pc.Committed := by
  cases pc with
  | disableIrq _ | napiSchedule _ => trivial
  | idle | acknowledge _ _ | schedulePrep _ | errors _ => exact h.elim

theorem Disabled.committed {pc : IsrPc} (h : pc.Disabled) : pc.Committed := by
  cases pc with
  | napiSchedule _ => trivial
  | idle | acknowledge _ _ | schedulePrep _ | disableIrq _ | errors _ => exact h.elim

end IsrPc

/-- Interrupts are disabled. -/
def NapiIrq.Masked (s : NapiIrq) : Prop :=
  s.listed = true ∨ s.poll = .enableIrq ∨ s.isr.Disabled

/-- While frames wait, a reception is pending, the handler is about to schedule the poll, or the
poll is going to look. -/
structure NapiInv (c : Conf) (s : NapiIrq) (d k p : Nat) : Prop where
  rx : RxInv c s.hw.rx s.hw.pos s.hw.received d k p
  status : s.status = 0 ∨ s.status = DmaStatus.received
  read : ∀ intrStatus ret, s.isr = .acknowledge intrStatus ret →
    intrStatus = 0 ∧ ret = 0 ∨ intrStatus = DmaStatus.received ∧ ret = handleRx
  enabled : ¬ s.Masked → s.intrEna = DmaIntrEna.defaultMask
  masked : s.Masked → s.intrEna = 0
  sched : s.sched = true ↔ s.listed = true ∨ s.isr.Taken
  exclusive : s.isr.Committed → s.listed = false ∧ s.poll = .idle
  running : s.poll = .rx ∨ s.poll = .napiComplete → s.listed = true
  finishing : s.poll = .enableIrq → s.listed = false
  pending : k < p → s.status = DmaStatus.received ∨ s.isr.Committed ∨
    (s.listed = true ∧ s.poll ≠ .napiComplete)

/-- The device at the first slot, nothing scheduled. -/
def NapiIrq.opened (c : Conf) (alloc : Nat → Option RxBuf) (mtu : BitVec 32) (s : RxState)
    (tx : TxState) : NapiIrq where
  hw := .opened c alloc mtu s
  tx := tx
  status := 0
  intrEna := DmaIntrEna.defaultMask
  xstats := {}
  napiPoll := 0
  tc := 64
  sched := false
  listed := false
  isr := .idle
  poll := .idle

variable {c : Conf} {s s' : NapiIrq} {r : RxState} {a : NapiAct} {pos d k p : Nat}
  {received : List (Nat × RxSlot)}

/-! ## The number of frames consumed -/

/-- The loop returns the number of its rounds, each of which moved `cur_rx` by one. -/
theorem rxLoop_rounds (ops : c.desc.Lawful) (r : RxState) (n count : Nat) :
    ∃ m ≤ n, (rxLoop c n r count).2 = count + m ∧
      (rxLoop c n r count).1.curRx = r.curRx + BitVec.ofNat 32 m := by
  induction n generalizing r count with
  | zero => exact ⟨0, Nat.le_refl 0, rfl, by simp [rxLoop]⟩
  | succ n ih =>
    unfold rxLoop
    split
    · exact ⟨0, Nat.zero_le _, rfl, by simp⟩
    · have hcur := rxBody_curRx (s := r) ops
      generalize rxBody c r = q at hcur
      obtain ⟨r', stop⟩ := q
      cases stop with
      | true => exact ⟨1, by omega, rfl, hcur⟩
      | false =>
        obtain ⟨m, hm, hcount, hend⟩ := ih r' (count + 1)
        refine ⟨m + 1, by omega, by dsimp only; omega, ?_⟩
        dsimp only at hcur ⊢
        rw [hend, hcur, Ring.ofNat_succ]
        bv_omega

theorem workDoneLt_of_lt {m : Nat} {budget : BitVec 32} (hm : m ≤ budget.toNat)
    (h : workDoneLt m budget = true) : m < budget.toNat := by
  refine Nat.lt_of_le_of_ne hm fun he => ?_
  rw [workDoneLt, he] at h
  simp [BitVec.slt] at h

theorem toNat_pos_of_toInt {budget : BitVec 32} (h : 0 < budget.toInt) : 0 < budget.toNat := by
  refine Nat.pos_of_ne_zero fun he => ?_
  rw [BitVec.toInt_eq_toNat_cond, he] at h
  simp at h

/-- A call with a positive budget that does not fall short of it has used it up. -/
theorem eq_budget_of_not_lt {m : Nat} {budget : BitVec 32} (hbudget : 0 < budget.toInt)
    (hm : m ≤ budget.toNat) (h : ¬ workDoneLt m budget = true) : m = budget.toNat := by
  refine Nat.le_antisymm hm (Nat.le_of_not_lt fun hlt => h ?_)
  have hpos : 2 * budget.toNat < 2 ^ 32 := by
    by_contra hge
    rw [BitVec.toInt_eq_toNat_cond, if_neg hge] at hbudget
    have := budget.isLt
    omega
  have hnat : (BitVec.ofNat 32 m).toNat = m := Nat.mod_eq_of_lt (by omega)
  unfold workDoneLt
  rw [BitVec.slt_iff_toInt_lt, BitVec.toInt_eq_toNat_cond, BitVec.toInt_eq_toNat_cond, hnat,
    if_pos hpos, if_pos (by omega)]
  omega

/-- A call of `stmmac_rx` that the kernel survives returns the number of frames it has consumed: all
that waited, or as many as it is allowed. -/
theorem RxInv.stmmacRx_work (ops : c.desc.Lawful) (hp : IsPow2 c.dmaRxSize)
    (alloc : BitVec 32 → Option RxBuf) {limit : BitVec 32} (inv : RxInv c r pos received d k p)
    (hfit : RoundsFit c r limit.toNat) :
    let out := Stmmac.stmmacRx c alloc r limit
    out.1.halted = true ∨ ∃ d', RxInv c out.1 pos received d' (k + out.2) p ∧
      out.2 ≤ limit.toNat ∧ (k + out.2 = p ∨ out.2 = limit.toNat) := by
  obtain ⟨k', inv', hend⟩ := inv.loop ops hp 0 hfit
  obtain ⟨m, hm, hcount, hcur⟩ := rxLoop_rounds ops r limit.toNat 0
  have hw := inv.window
  have hw' := inv'.window
  have hN := c.dmaRxSize.isLt
  have hlimit := limit.isLt
  obtain ⟨st, heq⟩ := stmmacRx_eq c r alloc limit
  have hwork : (Stmmac.stmmacRx c alloc r limit).2 = m := by
    unfold Stmmac.stmmacRx
    dsimp only
    split
    · simpa using hcount
    · simpa using hcount
  dsimp only
  rw [heq, hwork]
  clear heq hwork
  split
  · next hhalt => exact .inl hhalt
  · next hrun =>
    have hend' := hend.imp_right fun h => h.resolve_right hrun
    obtain ⟨d', inv''⟩ := inv'.refills ops hp alloc
    have hd := hw.le
    have hp' := hw.le'
    have hlap := hw'.le'.trans hw'.lt
    have hsub : BitVec.ofNat 32 k' - BitVec.ofNat 32 k = BitVec.ofNat 32 m := by
      rw [← hw'.cur, hcur, ← hw.cur]
      bv_omega
    have hdiff := @Ring.toNat_ofNat_sub 32 k k' (by omega) (by omega)
    rw [hsub, BitVec.toNat_ofNat, Nat.mod_eq_of_lt (by omega)] at hdiff
    obtain rfl : k' = k + m := by omega
    exact .inr ⟨d', inv''.congr rfl rfl rfl rfl rfl, hm, by omega⟩

/-! ## What each step keeps -/

theorem stmmacDmaErrors_eq (ret : BitVec 32) :
    ∃ tx xstats tc, stmmacDmaErrors c ret s = { s with tx := tx, xstats := xstats, tc := tc } := by
  unfold stmmacDmaErrors
  split_ifs <;> exact ⟨_, _, _, rfl⟩

theorem stmmacPoll_rx {alloc : BitVec 32 → Option RxBuf} {budget : BitVec 32}
    (hpc : s.poll = .rx) :
    let out := stmmacRx c alloc s.hw.rx budget
    stmmacPoll c alloc budget s =
      { s with
        hw := { s.hw with rx := out.1 }
        poll := if workDoneLt out.2 budget then .napiComplete else .idle } := by
  unfold stmmacPoll
  rw [hpc]
  dsimp only
  split_ifs <;> rfl

theorem hasBit_ri_iff (h : s.status = 0 ∨ s.status = DmaStatus.received) :
    hasBit s.status DmaStatus.ri = true ↔ s.status = DmaStatus.received := by
  rcases h with h | h <;> rw [h] <;> decide

namespace NapiInv

theorem receive (hp : IsPow2 c.dmaRxSize) {w : RxWrite} (inv : NapiInv c s d k p)
    (hs : napiStep c s (.receive w) = some s') : NapiInv c s' d k (p + 1) := by
  obtain ⟨hw, hstep, rfl⟩ := Option.map_eq_some_iff.mp hs
  have hrx : rxReceive c s.hw w = some hw := by
    unfold rxStep at hstep
    split at hstep
    · cases hstep
    · exact hstep
  have hstatus : s.status ||| DmaStatus.received = DmaStatus.received := by
    rcases inv.status with h | h <;> rw [h] <;> rfl
  exact
    { inv with
      rx := inv.rx.receive hp hrx
      status := .inr hstatus
      pending := fun _ => .inl hstatus }

/-- The handler reads the status: with a reception in it the interrupts are enabled, so that the
poll is not at work. -/
theorem interrupt_idle (inv : NapiInv c s d k p) (hpc : s.isr = .idle)
    (hok : MaskRespected c s .interrupt) : NapiInv c (stmmacDmaInterrupt c s) d k p := by
  have hstep : stmmacDmaInterrupt c s =
      { s with
        xstats := (dwmacDmaInterrupt s.status s.intrEna s.xstats).1
        isr := .acknowledge s.status (dwmacDmaInterrupt s.status s.intrEna s.xstats).2 } := by
    unfold stmmacDmaInterrupt
    rw [hpc]
  have hunmasked : s.status = DmaStatus.received → ¬ s.Masked := fun hst hm => by
    have hena := hok hpc ((hasBit_ri_iff inv.status).mpr hst)
    rw [inv.masked hm] at hena
    exact absurd hena (by decide)
  have hsched := inv.sched
  have hpend := inv.pending
  rw [hpc] at hsched hpend
  rw [hstep]
  refine ⟨inv.rx, inv.status, fun intr ret he => ?_, fun h => inv.enabled fun hm => h ?_,
    fun h => inv.masked ?_, hsched, fun hcom => ?_, inv.running, inv.finishing, fun hlt => ?_⟩
  · obtain ⟨rfl, rfl⟩ := IsrPc.acknowledge.inj he
    rcases inv.status with hst | hst
    · rw [hst]
      exact .inl ⟨rfl, dwmacDmaInterrupt_zero _ _⟩
    · rw [inv.enabled (hunmasked hst), hst]
      exact .inr ⟨rfl, dwmacDmaInterrupt_received _⟩
  · exact hm.imp_right fun h => h.imp_right fun hdis => by rw [hpc] at hdis; exact hdis.elim
  · exact h.imp_right fun h => h.imp_right fun hdis => hdis.elim
  · have hun := hunmasked (inv.status.resolve_left hcom)
    have hlisted : s.listed = false := Bool.eq_false_iff.mpr fun h => hun (.inl h)
    refine ⟨hlisted, ?_⟩
    cases hpoll : s.poll with
    | idle => rfl
    | enableIrq => exact absurd (.inr (.inl hpoll)) hun
    | rx => rw [inv.running (.inl hpoll)] at hlisted; cases hlisted
    | napiComplete => rw [inv.running (.inr hpoll)] at hlisted; cases hlisted
  · exact (hpend hlt).imp_right fun h => .inr (h.resolve_left id)

/-- The other steps of the handler. -/
theorem interrupt (inv : NapiInv c s d k p) (hok : MaskRespected c s .interrupt) :
    NapiInv c (stmmacDmaInterrupt c s) d k p := by
  cases hpc : s.isr with
  | idle => exact inv.interrupt_idle hpc hok
  | acknowledge intr ret =>
    obtain ⟨hw, tx, status, intrEna, xstats, napiPoll, tc, sched, listed, isr, poll⟩ := s
    obtain rfl : isr = .acknowledge intr ret := hpc
    obtain ⟨hrx, hstatus, hread, hena, hmask, hsched, hexcl, hrun, hfin, hpend⟩ := inv
    obtain ⟨rfl, rfl⟩ | ⟨rfl, rfl⟩ := hread intr ret rfl
    · -- nothing was read, nothing is acknowledged
      have hack : dwmacAckStatus status 0 = status := by
        rcases hstatus with rfl | rfl <;> rfl
      refine ⟨hrx, hstatus.imp hack.trans hack.trans, (fun _ _ h => by cases h), hena, hmask,
        hsched, fun h => h.elim, hrun, hfin, fun hlt => ?_⟩
      rcases hpend hlt with h | h | h
      · exact .inl (hack.trans h)
      · exact absurd rfl h
      · exact .inr (.inr h)
    · have hack : dwmacAckStatus status DmaStatus.received = 0 := by
        rcases hstatus with rfl | rfl <;> rfl
      exact ⟨hrx, .inl hack, (fun _ _ h => by cases h), hena, hmask, hsched,
        fun _ => hexcl (show DmaStatus.received ≠ 0 by decide), hrun, hfin,
        fun _ => .inr (.inl trivial)⟩
  | schedulePrep ret =>
    obtain ⟨hw, tx, status, intrEna, xstats, napiPoll, tc, sched, listed, isr, poll⟩ := s
    obtain rfl : isr = .schedulePrep ret := hpc
    obtain ⟨hrx, hstatus, hread, hena, hmask, hsched, hexcl, hrun, hfin, hpend⟩ := inv
    obtain ⟨rfl, rfl⟩ : listed = false ∧ poll = .idle := hexcl trivial
    obtain rfl : sched = false := by
      simpa [IsrPc.Taken] using hsched
    exact ⟨hrx, hstatus, (fun _ _ h => by cases h), hena, hmask,
      by simp [stmmacDmaInterrupt, IsrPc.Taken], fun _ => ⟨rfl, rfl⟩, hrun, hfin,
      fun _ => .inr (.inl trivial)⟩
  | disableIrq ret =>
    obtain ⟨hw, tx, status, intrEna, xstats, napiPoll, tc, sched, listed, isr, poll⟩ := s
    obtain rfl : isr = .disableIrq ret := hpc
    obtain ⟨hrx, hstatus, hread, hena, hmask, hsched, hexcl, hrun, hfin, hpend⟩ := inv
    exact ⟨hrx, hstatus, (fun _ _ h => by cases h), fun h => absurd (.inr (.inr trivial)) h,
      fun _ => rfl, hsched, hexcl, hrun, hfin, fun _ => .inr (.inl trivial)⟩
  | napiSchedule ret =>
    obtain ⟨hw, tx, status, intrEna, xstats, napiPoll, tc, sched, listed, isr, poll⟩ := s
    obtain rfl : isr = .napiSchedule ret := hpc
    obtain ⟨hrx, hstatus, hread, hena, hmask, hsched, hexcl, hrun, hfin, hpend⟩ := inv
    obtain ⟨rfl, rfl⟩ : listed = false ∧ poll = .idle := hexcl trivial
    obtain rfl : sched = true := hsched.mpr (.inr trivial)
    exact ⟨hrx, hstatus, (fun _ _ h => by cases h), fun h => absurd (.inl rfl) h,
      fun _ => hmask (.inr (.inr trivial)), by simp [stmmacDmaInterrupt], fun h => h.elim,
      fun _ => rfl, (fun h => by cases h), fun _ => .inr (.inr ⟨rfl, by simp [stmmacDmaInterrupt]⟩)⟩
  | errors ret =>
    obtain ⟨tx, xstats, tc, herr⟩ := stmmacDmaErrors_eq (c := c) (s := s) ret
    have hstep : stmmacDmaInterrupt c s =
        { s with tx := tx, xstats := xstats, tc := tc, isr := .idle } := by
      unfold stmmacDmaInterrupt
      rw [hpc]
      dsimp only
      rw [herr]
    obtain ⟨hrx, hstatus, hread, hena, hmask, hsched, hexcl, hrun, hfin, hpend⟩ := inv
    rw [hstep]
    simp only [NapiIrq.Masked, hpc] at hena hmask hsched hpend
    exact ⟨hrx, hstatus, (fun _ _ h => by cases h), hena, hmask, hsched, fun h => h.elim, hrun,
      hfin, hpend⟩

/-- While the poll is at work the handler has nothing acknowledged. -/
theorem not_committed (inv : NapiInv c s d k p) (h : s.listed = true ∨ s.poll ≠ .idle) :
    ¬ s.isr.Committed := fun hcom => by
  obtain ⟨hlisted, hpoll⟩ := inv.exclusive hcom
  rcases h with h | h
  · rw [hlisted] at h
    cases h
  · exact h hpoll

/-- `stmmac_rx` in the poll: a call that falls short of the budget leaves nothing waiting. -/
theorem poll_rx (ops : c.desc.Lawful) (hp : IsPow2 c.dmaRxSize) (alloc : BitVec 32 → Option RxBuf)
    {budget : BitVec 32} (inv : NapiInv c s d k p) (hpc : s.poll = .rx)
    (hfit : RoundsFit c s.hw.rx budget.toNat) :
    let work := (stmmacRx c alloc s.hw.rx budget).2
    (stmmacPoll c alloc budget s).hw.rx.halted = true ∨
      ∃ d', NapiInv c (stmmacPoll c alloc budget s) d' (k + work) p := by
  have hlisted := inv.running (.inl hpc)
  have hcom := inv.not_committed (.inl hlisted)
  have hmask := inv.masked (.inl hlisted)
  have hend := inv.rx.stmmacRx_work ops hp alloc hfit
  rw [stmmacPoll_rx hpc]
  dsimp only at hend ⊢
  generalize stmmacRx c alloc s.hw.rx budget = out at hend
  refine hend.imp id ?_
  rintro ⟨d', hrx, hle, hwork⟩
  refine ⟨d', hrx, inv.status, inv.read, fun h => absurd (.inl hlisted) h, fun _ => hmask,
    inv.sched, fun h => absurd h hcom, fun _ => hlisted, fun h => ?_, fun hlt => ?_⟩
  · dsimp only at h
    split at h <;> cases h
  · refine .inr (.inr ⟨hlisted, ?_⟩)
    dsimp only
    split
    · next hshort =>
      have := workDoneLt_of_lt hle hshort
      omega
    · exact PollPc.noConfusion

/-- The steps of the poll that do not touch the receive ring. -/
theorem poll {alloc : BitVec 32 → Option RxBuf} {budget : BitVec 32} (inv : NapiInv c s d k p)
    (hcalled : s.poll = .idle → s.listed = true) (hpc : s.poll ≠ .rx) :
    NapiInv c (stmmacPoll c alloc budget s) d k p := by
  have hcom : ¬ s.isr.Committed := by
    refine inv.not_committed ?_
    by_cases h : s.poll = .idle
    · exact .inl (hcalled h)
    · exact .inr h
  obtain ⟨hw, tx, status, intrEna, xstats, napiPoll, tc, sched, listed, isr, poll⟩ := s
  obtain ⟨hrx, hstatus, hread, hena, hmask, hsched, hexcl, hrun, hfin, hpend⟩ := inv
  dsimp only at hcom
  cases poll with
  | idle =>
    obtain rfl : listed = true := hcalled rfl
    exact ⟨hrx, hstatus, hread, fun h => absurd (.inl rfl) h, fun _ => hmask (.inl rfl), hsched,
      fun h => absurd h hcom, fun _ => rfl, (fun h => by cases h),
      fun _ => .inr (.inr ⟨rfl, by simp [stmmacPoll]⟩)⟩
  | rx => exact absurd rfl hpc
  | napiComplete =>
    obtain rfl : listed = true := hrun (.inr rfl)
    refine ⟨hrx, hstatus, hread, fun h => absurd (.inr (.inl rfl)) h, fun _ => hmask (.inl rfl), ?_,
      fun h => absurd h hcom, fun h => by simp [stmmacPoll] at h, fun _ => rfl, fun hlt => .inl ?_⟩
    · have htaken : ¬ isr.Taken := fun h => hcom h.committed
      simpa [stmmacPoll] using htaken
    · rcases hpend hlt with h | h | h
      · exact h
      · exact absurd h hcom
      · exact absurd rfl h.2
  | enableIrq =>
    obtain rfl : listed = false := hfin rfl
    refine ⟨hrx, hstatus, hread, fun _ => rfl, fun h => ?_, hsched, fun h => absurd h hcom,
      fun h => by simp [stmmacPoll] at h, fun _ => rfl, fun hlt => .inl ?_⟩
    · rcases h with h | h | h
      · cases h
      · cases h
      · exact absurd h.committed hcom
    · rcases hpend hlt with h | h | h
      · exact h
      · exact absurd h hcom
      · cases h.1

theorem step (ops : c.desc.Lawful) (hp : IsPow2 c.dmaRxSize) (inv : NapiInv c s d k p)
    (hok : MaskRespected c s a) (hs : napiStep c s a = some s') :
    s'.hw.rx.halted = true ∧ s'.sched = true ∨ ∃ d' k' p', NapiInv c s' d' k' p' := by
  cases a with
  | receive w => exact .inr ⟨d, k, p + 1, inv.receive hp hs⟩
  | interrupt =>
    simp only [napiStep] at hs
    split at hs
    · cases hs
    obtain rfl := Option.some.inj hs
    exact .inr ⟨d, k, p, inv.interrupt hok⟩
  | poll alloc budget =>
    simp only [napiStep] at hs
    split at hs
    · cases hs
    next hgo =>
    obtain rfl := Option.some.inj hs
    by_cases hpc : s.poll = .rx
    · refine (inv.poll_rx ops hp alloc hpc (hok hpc)).imp (fun h => ⟨h, ?_⟩)
        fun h => h.elim fun d' h => ⟨d', _, p, h⟩
      have hsched := inv.sched.mpr (.inl (inv.running (.inl hpc)))
      unfold stmmacPoll
      rw [hpc]
      dsimp only
      split_ifs <;> exact hsched
    · refine .inr ⟨d, k, p, inv.poll (fun hidle => ?_) hpc⟩
      by_contra hlisted
      exact hgo (.inr ⟨hidle, by simpa using hlisted⟩)

/-- Where nothing waits, every frame has been consumed. -/
theorem consumed (hp : IsPow2 c.dmaRxSize) (inv : NapiInv c s d k p) (h : k = p) :
    RxInStep c s.hw s.hw.received.length := by
  subst h
  have hlen := inv.rx.length
  have hin := inv.rx.inStep hp
  rwa [inv.rx.examined, List.length_map, List.length_take, hlen, Nat.min_self, ← hlen] at hin

/-- With nothing scheduled and no reception pending, nothing waits. -/
theorem quiet (hp : IsPow2 c.dmaRxSize) (inv : NapiInv c s d k p) (hq : s.Quiet) :
    RxInStep c s.hw s.hw.received.length ∧ s.intrEna = DmaIntrEna.defaultMask := by
  obtain ⟨hisr, hpoll, hsched, hri⟩ := hq
  have hlisted : s.listed = false := by
    by_contra h
    rw [inv.sched.mpr (.inl (by simpa using h))] at hsched
    cases hsched
  have hcom : ¬ s.isr.Committed := by
    rw [hisr]
    exact id
  have hmasked : ¬ s.Masked := by
    rintro (h | h | h)
    · rw [hlisted] at h
      cases h
    · rw [hpoll] at h
      cases h
    · exact hcom h.committed
  refine ⟨inv.consumed hp ?_, inv.enabled hmasked⟩
  have hle' := inv.rx.window.le'
  by_contra hne
  rcases inv.pending (by omega) with h | h | h
  · rw [(hasBit_ri_iff inv.status).mpr h] at hri
    cases hri
  · exact hcom h
  · rw [hlisted] at h
    cases h.1

end NapiInv

theorem NapiInv.opened (ops : c.desc.Lawful) (hp : IsPow2 c.dmaRxSize)
    {alloc : Nat → Option RxBuf} {mtu : BitVec 32} {tx : TxState}
    (halloc : ∀ i < c.dmaRxSize.toNat, (alloc i).isSome = true) (htrace : r.trace = []) :
    NapiInv c (.opened c alloc mtu r tx) 0 0 0 where
  rx := .opened ops hp halloc htrace
  status := .inl rfl
  read := fun _ _ h => by cases h
  enabled := fun _ => rfl
  masked := fun h => by rcases h with h | h | h <;> cases h
  sched := by simp [NapiIrq.opened, IsrPc.Taken]
  exclusive := fun h => h.elim
  running := fun h => by rcases h with h | h <;> cases h
  finishing := fun _ => rfl
  pending := fun h => absurd h (Nat.lt_irrefl 0)

/-- The state reached satisfies the invariant, unless the kernel has stopped in the poll. -/
theorem napi_invariant {alloc : Nat → Option RxBuf} {mtu : BitVec 32} {tx : TxState}
    {as : List NapiAct} (ops : c.desc.Lawful) (hp : IsPow2 c.dmaRxSize)
    (halloc : ∀ i < c.dmaRxSize.toNat, (alloc i).isSome = true) (htrace : r.trace = [])
    (run : Run (napiStep c) (MaskRespected c) (.opened c alloc mtu r tx) as s) :
    s.hw.rx.halted = true ∧ s.sched = true ∨ ∃ d k p, NapiInv c s d k p :=
  run.invariant
    (I := fun s => s.hw.rx.halted = true ∧ s.sched = true ∨ ∃ d k p, NapiInv c s d k p)
    (fun {s s' a} h hok hs => by
      rcases h with ⟨hhalt, -⟩ | ⟨d, k, p, inv⟩
      · -- no step is taken once the kernel has stopped
        cases a <;> simp [napiStep, rxStep, hhalt] at hs
      · exact inv.step ops hp hok hs) (.inr ⟨0, 0, 0, .opened ops hp halloc htrace⟩)

/-- Every frame has been consumed whenever nothing is pending or scheduled, whatever the number of
frames that came at once and the budgets of the poll. -/
theorem napi_leaves_nothing {alloc : Nat → Option RxBuf} {mtu : BitVec 32} {tx : TxState}
    {as : List NapiAct} (ops : c.desc.Lawful) (hp : IsPow2 c.dmaRxSize)
    (halloc : ∀ i < c.dmaRxSize.toNat, (alloc i).isSome = true) (htrace : r.trace = [])
    (run : Run (napiStep c) (MaskRespected c) (.opened c alloc mtu r tx) as s) (hq : s.Quiet) :
    RxInStep c s.hw s.hw.received.length ∧ s.intrEna = DmaIntrEna.defaultMask := by
  rcases napi_invariant ops hp halloc htrace run with ⟨-, hsched⟩ | ⟨d, k, p, inv⟩
  · rw [hq.sched] at hsched
    cases hsched
  · exact inv.quiet hp hq

/-- A burst of 65 frames and a budget of 64, with one frame more behind the mask. -/
theorem napi_leaves_nothing_burst :
    ∃ s, Run (napiStep (.normal 128)) (MaskRespected (.normal 128))
        (.opened (.normal 128) (fun i => some (.page i)) 1500 .blank (.idle (.normal 128)))
        (.replicate 65 (.receive (.frame (.replicate 64 1))) ++ .replicate 6 .interrupt ++
          .replicate 4 (.poll (fun n => some (.page (128 + n.toNat))) 64) ++
          [.receive (.frame (.replicate 64 2))] ++
          .replicate 2 (.poll (fun n => some (.page (128 + n.toNat))) 64) ++
          .replicate 6 .interrupt ++
          .replicate 4 (.poll (fun n => some (.page (128 + n.toNat))) 64)) s ∧
      RxInStep (.normal 128) s.hw s.hw.received.length ∧ s.intrEna = DmaIntrEna.defaultMask := by
  have hreach : ∃ s, Run (napiStep (.normal 128)) (MaskRespected (.normal 128))
      (.opened (.normal 128) (fun i => some (.page i)) 1500 .blank (.idle (.normal 128)))
      (.replicate 65 (.receive (.frame (.replicate 64 1))) ++ .replicate 6 .interrupt ++
        .replicate 4 (.poll (fun n => some (.page (128 + n.toNat))) 64) ++
        [.receive (.frame (.replicate 64 2))] ++
        .replicate 2 (.poll (fun n => some (.page (128 + n.toNat))) 64) ++
        .replicate 6 .interrupt ++
        .replicate 4 (.poll (fun n => some (.page (128 + n.toNat))) 64)) s ∧
      s.isr = .idle ∧ s.poll = .idle ∧ s.sched = false ∧
      hasBit s.status DmaStatus.ri = false := exec_reaches (by decide +kernel)
  obtain ⟨s, run, hisr, hpoll, hsched, hri⟩ := hreach
  exact ⟨s, run, napi_leaves_nothing (c := .normal 128) ndescOps_lawful ⟨7, rfl⟩ (fun _ _ => rfl)
    rfl run ⟨hisr, hpoll, hsched, hri⟩⟩

/-! ## The work ends -/

/-- The line is asserted: a normal interrupt is pending and enabled. -/
def NapiIrq.asserted (s : NapiIrq) : Bool :=
  hasBit s.status DmaStatus.nis && hasBit s.intrEna DmaIntrEna.nie

/-- No frame comes in; the handler is called for the line, the poll with a positive budget. -/
def Driven (c : Conf) (s : NapiIrq) : NapiAct → Prop
  | .receive _ => False
  | .interrupt => s.isr = .idle → s.asserted = true
  | .poll _ budget => s.poll = .rx → 0 < budget.toInt ∧ RoundsFit c s.hw.rx budget.toNat

instance (c : Conf) (s : NapiIrq) : ∀ a, Decidable (Driven c s a)
  | .receive _ => inferInstanceAs (Decidable False)
  | .interrupt => inferInstanceAs (Decidable (_ = _ → _ = _))
  | .poll _ _ => inferInstanceAs (Decidable (_ = _ → 0 < _ ∧ RoundsFit _ _ _))

/-- Neither the handler nor the poll is at work or will be called. -/
structure NapiIrq.AtRest (s : NapiIrq) : Prop where
  isr : s.isr = .idle
  line : s.asserted = false
  poll : s.poll = .idle
  unlisted : s.listed = false

/-- The poll is about to look at a ring of which no descriptor has a buffer: every allocation failed
for a whole lap, and no call of `stmmac_rx` fits. -/
structure NapiIrq.Starved (c : Conf) (s : NapiIrq) : Prop where
  isr : s.isr = .idle
  poll : s.poll = .rx
  lap : s.hw.rx.curRx - s.hw.rx.dirtyRx = c.dmaRxSize

/-- No step is left but a reception. -/
def NapiIrq.Stuck (c : Conf) (s : NapiIrq) : Prop :=
  ∀ a t, Driven c s a → napiStep c s a ≠ some t

/-- The frames received and not yet consumed. -/
def RxHw.waiting (s : RxHw) : Nat := s.received.length - (examined s.rx.trace).length

/-- The steps left to the handler, and to the poll that it schedules. -/
def IsrPc.cost : IsrPc → Nat
  | idle => 0
  | acknowledge intrStatus _ => if intrStatus = 0 then 2 else 9
  | schedulePrep _ => 8
  | disableIrq _ => 7
  | napiSchedule _ => 6
  | errors _ => 1

/-- The handler is about to acknowledge a reception. -/
def IsrPc.readsReception : IsrPc → Bool
  | acknowledge intrStatus _ => intrStatus != 0
  | idle | schedulePrep _ | disableIrq _ | napiSchedule _ | errors _ => false

/-- The steps left to the poll besides those for the frames that wait. -/
def PollPc.cost (listed : Bool) : PollPc → Nat
  | idle => if listed then 4 else 0
  | rx => 3
  | napiComplete => 2
  | enableIrq => 1

/-- The steps left; a pending reception is worth a run of the handler and one of the poll. -/
def NapiIrq.cost (s : NapiIrq) : Nat :=
  2 * s.hw.waiting + s.isr.cost + s.poll.cost s.listed +
    if s.status = 0 ∨ s.isr.readsReception then 0 else 10

theorem NapiIrq.cost_le (s : NapiIrq) : s.cost ≤ 2 * s.hw.waiting + 23 := by
  have hisr : s.isr.cost ≤ 9 := by
    cases s.isr with
    | acknowledge =>
      simp only [IsrPc.cost]
      split <;> omega
    | _ => simp [IsrPc.cost]
  have hpoll : s.poll.cost s.listed ≤ 4 := by
    cases s.poll with
    | idle =>
      simp only [PollPc.cost]
      split <;> omega
    | _ => simp [PollPc.cost]
  unfold NapiIrq.cost
  split <;> omega

namespace NapiInv

theorem waiting (inv : NapiInv c s d k p) : s.hw.waiting = p - k := by
  have hle := inv.rx.window.le'
  rw [RxHw.waiting, inv.rx.examined, List.length_map, List.length_take, inv.rx.length]
  omega

theorem maskRespected (inv : NapiInv c s d k p) (hok : Driven c s a) : MaskRespected c s a := by
  cases a with
  | receive => exact trivial
  | poll => exact fun hpc => (hok hpc).2
  | interrupt =>
    intro hpc _
    have hline := hok hpc
    refine inv.enabled fun hm => ?_
    rw [NapiIrq.asserted, inv.masked hm, show hasBit 0 DmaIntrEna.nie = false from rfl,
      Bool.and_false] at hline
    cases hline

/-- Every step of the handler brings the end nearer. -/
theorem cost_interrupt (inv : NapiInv c s d k p) (hok : Driven c s .interrupt) :
    (stmmacDmaInterrupt c s).cost < s.cost := by
  cases hpc : s.isr with
  | idle =>
    have hstatus : s.status ≠ 0#32 := fun h => by
      have hline := hok hpc
      rw [NapiIrq.asserted, h, show hasBit 0#32 DmaStatus.nis = false from rfl,
        Bool.false_and] at hline
      cases hline
    unfold NapiIrq.cost stmmacDmaInterrupt
    simp only [hpc]
    simp [IsrPc.cost, IsrPc.readsReception, hstatus]
    omega
  | acknowledge intr ret =>
    obtain ⟨rfl, rfl⟩ | ⟨rfl, rfl⟩ := inv.read intr ret hpc
    · have hack : dwmacAckStatus s.status 0 = s.status := by
        rcases inv.status with h | h <;> rw [h] <;> rfl
      unfold NapiIrq.cost stmmacDmaInterrupt
      simp only [hpc, hack]
      simp [IsrPc.cost, IsrPc.readsReception, hasBit]
    · have hack : dwmacAckStatus s.status DmaStatus.received = 0 := by
        rcases inv.status with h | h <;> rw [h] <;> rfl
      unfold NapiIrq.cost stmmacDmaInterrupt
      simp only [hpc, hack]
      simp [IsrPc.cost, IsrPc.readsReception, hasBit, handleRx, DmaStatus.received, DmaStatus.nis]
  | schedulePrep ret =>
    unfold NapiIrq.cost stmmacDmaInterrupt
    simp only [hpc]
    cases s.sched <;> simp [IsrPc.cost, IsrPc.readsReception]
  | disableIrq ret =>
    unfold NapiIrq.cost stmmacDmaInterrupt
    simp only [hpc]
    simp [IsrPc.cost, IsrPc.readsReception]
  | napiSchedule ret =>
    obtain ⟨hlisted, hpoll⟩ := inv.exclusive (hpc ▸ trivial)
    unfold NapiIrq.cost stmmacDmaInterrupt
    simp only [hpc, hpoll, hlisted]
    simp [IsrPc.cost, IsrPc.readsReception, PollPc.cost]
  | errors ret =>
    obtain ⟨tx, xstats, tc, herr⟩ := stmmacDmaErrors_eq (c := c) (s := s) ret
    unfold NapiIrq.cost stmmacDmaInterrupt
    simp only [hpc, herr]
    simp [IsrPc.cost, IsrPc.readsReception]

/-- Every step of the poll brings the end nearer: a call that uses up its budget has consumed a
frame. -/
theorem cost_poll (ops : c.desc.Lawful) (hp : IsPow2 c.dmaRxSize)
    {alloc : BitVec 32 → Option RxBuf} {budget : BitVec 32} (inv : NapiInv c s d k p)
    (hcalled : s.poll = .idle → s.listed = true) (hok : Driven c s (.poll alloc budget)) :
    (stmmacPoll c alloc budget s).hw.rx.halted = true ∨
      (stmmacPoll c alloc budget s).cost < s.cost := by
  cases hpc : s.poll with
  | rx =>
    obtain ⟨hbudget, hfit⟩ := hok hpc
    have hlisted := inv.running (.inl hpc)
    have hwait := inv.waiting
    have hwork := inv.rx.stmmacRx_work ops hp alloc hfit
    have hnext := inv.poll_rx ops hp alloc hpc hfit
    rw [stmmacPoll_rx hpc] at hnext ⊢
    dsimp only at hwork hnext ⊢
    generalize stmmacRx c alloc s.hw.rx budget = out at *
    rcases hwork with hhalt | ⟨-, -, hle, hend⟩
    · exact .inl hhalt
    refine hnext.imp id ?_
    rintro ⟨d', inv'⟩
    have hwait' := inv'.waiting
    have hle' := inv'.rx.window.le'
    unfold NapiIrq.cost
    dsimp only at hwait' ⊢
    rw [hwait', hwait, hpc, hlisted]
    split
    · simp only [PollPc.cost]
      omega
    · next hfull =>
      have hused := eq_budget_of_not_lt hbudget hle hfull
      have hpos : 0 < budget.toNat := toNat_pos_of_toInt hbudget
      simp only [PollPc.cost, if_true]
      omega
  | idle =>
    refine .inr ?_
    unfold NapiIrq.cost stmmacPoll
    simp only [hpc, hcalled hpc]
    simp [PollPc.cost]
  | napiComplete =>
    refine .inr ?_
    unfold NapiIrq.cost stmmacPoll
    simp only [hpc]
    simp [PollPc.cost]
  | enableIrq =>
    refine .inr ?_
    unfold NapiIrq.cost stmmacPoll
    simp only [hpc, inv.finishing hpc]
    simp [PollPc.cost]

/-- No step is taken once the kernel has stopped. -/
theorem nil_of_halted {ok : NapiIrq → NapiAct → Prop} {bs : List NapiAct}
    (run : Run (napiStep c) ok s bs s') (h : s.hw.rx.halted = true) : bs = [] ∧ s' = s := by
  cases run with
  | nil => exact ⟨rfl, rfl⟩
  | @cons _ _ _ a _ _ hs _ => cases a <;> simp [napiStep, rxStep, h] at hs

theorem cost_step (ops : c.desc.Lawful) (hp : IsPow2 c.dmaRxSize) (inv : NapiInv c s d k p)
    (hok : Driven c s a) (hs : napiStep c s a = some s') :
    s'.hw.rx.halted = true ∨ s'.cost < s.cost := by
  cases a with
  | receive => exact hok.elim
  | interrupt =>
    simp only [napiStep] at hs
    split at hs
    · cases hs
    obtain rfl := Option.some.inj hs
    exact .inr (inv.cost_interrupt hok)
  | poll alloc budget =>
    simp only [napiStep] at hs
    split at hs
    · cases hs
    next hgo =>
    obtain rfl := Option.some.inj hs
    exact inv.cost_poll ops hp (fun h => by simp_all) hok

/-- The length of a run without receptions, and what holds where it ends. -/
theorem settles (ops : c.desc.Lawful) (hp : IsPow2 c.dmaRxSize) {bs : List NapiAct}
    (inv : NapiInv c s d k p) (run : Run (napiStep c) (Driven c) s bs s') :
    bs.length ≤ s.cost + 1 ∧ (s'.hw.rx.halted = true ∨ ∃ d' k' p', NapiInv c s' d' k' p') := by
  induction run generalizing d k p with
  | nil s => exact ⟨Nat.zero_le _, .inr ⟨d, k, p, inv⟩⟩
  | @cons s t u a bs hok hs run ih =>
    rcases inv.cost_step ops hp hok hs with hhalt | hcost
    · obtain ⟨rfl, rfl⟩ := nil_of_halted run hhalt
      exact ⟨by simp, .inl hhalt⟩
    · rcases inv.step ops hp (inv.maskRespected hok) hs with ⟨hhalt, -⟩ | ⟨d', k', p', inv'⟩
      · obtain ⟨rfl, rfl⟩ := nil_of_halted run hhalt
        exact ⟨by simp, .inl hhalt⟩
      · obtain ⟨hlen, hend⟩ := ih inv'
        exact ⟨by simp only [List.length_cons]; omega, hend⟩

theorem atRest (inv : NapiInv c s d k p) (h : s.AtRest) : s.Quiet := by
  have hsched : ¬ s.sched = true := fun hs => by
    rcases inv.sched.mp hs with hl | ht
    · rw [h.unlisted] at hl
      cases hl
    · rw [h.isr] at ht
      exact ht
  have hmasked : ¬ s.Masked := by
    rintro (hm | hm | hm)
    · rw [h.unlisted] at hm
      cases hm
    · rw [h.poll] at hm
      cases hm
    · rw [h.isr] at hm
      exact hm
  refine ⟨h.isr, h.poll, by simpa using hsched, ?_⟩
  have hline := h.line
  rw [NapiIrq.asserted, inv.enabled hmasked] at hline
  rcases inv.status with hst | hst
  · rw [hst]
    rfl
  · rw [hst] at hline
    exact absurd hline (by decide)

/-- A step that is possible is no longer left where nothing is. -/
theorem not_driven_of_stuck (h : s.Stuck c) (hs : napiStep c s a = some s') : ¬ Driven c s a :=
  fun hok => h a s' hok hs

/-- Where no step is left, the ring without a buffer apart, nothing is at work or will be called. -/
theorem rests_of_stuck (inv : NapiInv c s d k p) (hrun : s.hw.rx.halted = false)
    (h : s.Stuck c) : s.AtRest ∨ s.Starved c := by
  have hisr : s.isr = .idle ∧ s.asserted = false := by
    have hno : ¬ (s.isr = .idle → s.asserted = true) :=
      not_driven_of_stuck h (a := .interrupt) (by simp [napiStep, hrun]; rfl)
    rw [Classical.not_imp] at hno
    exact ⟨hno.1, by simpa using hno.2⟩
  have hpoll : ∀ budget, ¬ (s.poll = .idle ∧ s.listed = false) →
      ¬ Driven c s (.poll (fun _ => none) budget) := fun budget hcalled =>
    not_driven_of_stuck h (by simp only [napiStep, hrun]; rw [if_neg (by simpa using hcalled)])
  by_cases hpc : s.poll = .rx
  · -- a budget of one fits unless every slot of the lap waits for a buffer
    refine .inr ⟨hisr.1, hpc, ?_⟩
    have hno : ¬ (s.poll = .rx → 0 < (1 : BitVec 32).toInt ∧ RoundsFit c s.hw.rx 1) :=
      hpoll 1 (by simp [hpc])
    have hfit : ¬ RoundsFit c s.hw.rx 1 := fun hfit => hno fun _ => ⟨by decide, hfit⟩
    exact inv.rx.window.lap_of_not_roundsFit hfit
  · have hidle : s.poll = .idle ∧ s.listed = false := by
      by_contra hcalled
      exact hpoll 1 hcalled fun hrx => absurd hrx hpc
    exact .inl ⟨hisr.1, hisr.2, hidle.1, hidle.2⟩

theorem stuck_of_starved (inv : NapiInv c s d k p) (h : s.Starved c) : s.Stuck c := by
  intro a t hok hs
  cases a with
  | receive => exact hok
  | interrupt =>
    have hline := hok h.isr
    rw [NapiIrq.asserted, inv.masked (.inl (inv.running (.inl h.poll))),
      show hasBit 0 DmaIntrEna.nie = false from rfl, Bool.and_false] at hline
    cases hline
  | poll alloc budget =>
    obtain ⟨hbudget, hfit⟩ := hok h.poll
    have hpos : 0 < budget.toNat := toNat_pos_of_toInt hbudget
    exact inv.rx.window.not_roundsFit_of_lap h.lap hpos hfit

end NapiInv

theorem NapiIrq.AtRest.stuck (h : s.AtRest) : s.Stuck c := by
  intro a t hok hs
  cases a with
  | receive => exact hok
  | interrupt =>
    have hline := hok h.isr
    rw [h.line] at hline
    cases hline
  | poll alloc budget => simp [napiStep, h.poll, h.unlisted] at hs

/-- Once no more frames come in, handler and poll come to rest after a number of steps that the
frames waiting bound, however they are interleaved; then every frame has been consumed. -/
theorem napi_comes_to_rest {alloc : Nat → Option RxBuf} {mtu : BitVec 32} {tx : TxState}
    {as bs : List NapiAct} (ops : c.desc.Lawful) (hp : IsPow2 c.dmaRxSize)
    (halloc : ∀ i < c.dmaRxSize.toNat, (alloc i).isSome = true) (htrace : r.trace = [])
    (run : Run (napiStep c) (MaskRespected c) (.opened c alloc mtu r tx) as s)
    (run' : Run (napiStep c) (Driven c) s bs s') :
    bs.length ≤ 2 * s.hw.waiting + 24 ∧
      (s'.Stuck c ↔ s'.hw.rx.halted = true ∨ s'.AtRest ∨ s'.Starved c) ∧
      (s'.Stuck c → s'.hw.rx.halted = true ∨ RxInStep c s'.hw s'.hw.received.length) := by
  have hstop : ∀ t : NapiIrq, t.hw.rx.halted = true → t.Stuck c := by
    intro t hhalt a u hok hs
    have hnil := NapiInv.nil_of_halted (.cons hok hs (.nil u)) hhalt
    cases hnil.1
  rcases napi_invariant ops hp halloc htrace run with ⟨hhalt, -⟩ | ⟨d, k, p, inv⟩
  · obtain ⟨rfl, rfl⟩ := NapiInv.nil_of_halted run' hhalt
    exact ⟨Nat.zero_le _, iff_of_true (hstop _ hhalt) (.inl hhalt), fun _ => .inl hhalt⟩
  · obtain ⟨hlen, hend⟩ := inv.settles ops hp run'
    have hcost := s.cost_le
    refine ⟨by omega, ?_⟩
    rcases hend with hhalt | ⟨d', k', p', inv'⟩
    · exact ⟨iff_of_true (hstop _ hhalt) (.inl hhalt), fun _ => .inl hhalt⟩
    cases hrun : s'.hw.rx.halted with
    | true => exact ⟨iff_of_true (hstop _ hrun) (.inl rfl), fun _ => .inl rfl⟩
    | false =>
      have hrests := inv'.rests_of_stuck hrun
      refine ⟨⟨fun h => .inr (hrests h), ?_⟩, fun h => .inr ?_⟩
      · rintro (h | h | h)
        · cases h
        · exact h.stuck
        · exact inv'.stuck_of_starved h
      · rcases hrests h with hrest | hstarved
        · exact (inv'.quiet hp (inv'.atRest hrest)).1
        · exact inv'.consumed hp (inv'.rx.window.eq_of_lap hstarved.lap)

/-- Three frames that wait, consumed one in each call of the poll. -/
theorem napi_comes_to_rest_budget_one :
    ∃ s s' : NapiIrq, ∃ as bs : List NapiAct,
      Run (napiStep (.normal 64)) (MaskRespected (.normal 64))
        (.opened (.normal 64) (fun i => some (.page i)) 1500 .blank (.idle (.normal 64))) as s ∧
      Run (napiStep (.normal 64)) (Driven (.normal 64)) s bs s' ∧ s'.AtRest ∧
      (bs.length ≤ 2 * s.hw.waiting + 24 ∧
        (s'.Stuck (.normal 64) ↔
          s'.hw.rx.halted = true ∨ s'.AtRest ∨ s'.Starved (.normal 64)) ∧
        (s'.Stuck (.normal 64) →
          s'.hw.rx.halted = true ∨ RxInStep (.normal 64) s'.hw s'.hw.received.length)) := by
  have hreach : ∃ s, Run (napiStep (.normal 64)) (MaskRespected (.normal 64))
      (.opened (.normal 64) (fun i => some (.page i)) 1500 .blank (.idle (.normal 64)))
      (.replicate 3 (.receive (.frame (.replicate 64 1)))) s ∧
      (exec (napiStep (.normal 64)) (Driven (.normal 64)) s
        (.replicate 6 .interrupt ++ .replicate 10 (.poll (fun n => some (.page n.toNat)) 1))).any
        (fun s' => decide (s'.isr = .idle ∧ s'.asserted = false ∧ s'.poll = .idle ∧
          s'.listed = false)) = true := exec_reaches (by decide +kernel)
  obtain ⟨s, run, hrest⟩ := hreach
  obtain ⟨s', run', hisr, hline, hpoll, hlisted⟩ := exec_reaches hrest
  exact ⟨s, s', _, _, run, run', ⟨hisr, hline, hpoll, hlisted⟩,
    napi_comes_to_rest (c := .normal 64) ndescOps_lawful ⟨6, rfl⟩ (fun _ _ => rfl) rfl run run'⟩

end Stmmac
