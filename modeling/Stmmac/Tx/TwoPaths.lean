import Stmmac.Tx.CurTx
import Stmmac.Tx.Step

/-!
# Transmit side: the two transmit paths

`stmmac_xmit` and `rtl8211_xmit`, one access at a time, with the poll of the timer and of
`m_Tx_Lock`, the mask of IRQ 98 and `tx_lock`. What keeps the two apart is `disable_irq`: it
returns only when the handler, which alone calls `rtl8211_xmit`, has returned, and no handler
starts until `enable_irq`. Only the first read of `cur_tx`, in `stmmac_tx_avail`, comes earlier.
-/

namespace Stmmac

open Library
open Library.Ops

/-! ## The system -/

/-- The next access of `stmmac_xmit`. In `ring` it holds `tx_lock` and has `ops` left to do. -/
inductive XmitPc where
  | idle
  | txAvail (skb : TxSkb) (dma : Nat → BitVec 32)
  | readTimer (skb : TxSkb) (dma : Nat → BitVec 32)
  | readTxLock (skb : TxSkb) (dma : Nat → BitVec 32)
  | disableIrq (skb : TxSkb) (dma : Nat → BitVec 32)
  | synchronizeIrq (skb : TxSkb) (dma : Nat → BitVec 32)
  | spinLock (skb : TxSkb) (dma : Nat → BitVec 32)
  | ring (id : Nat) (regs : TxRegs) (ops : List TxOp)
  | enableIrq

/-- The handler of IRQ 98: not running, running, or in `rtl8211_xmit`. -/
inductive TimerIrqPc where
  | out
  | running
  | setTxLock (length : BitVec 32) (dma : Nat → BitVec 32)
  | ring (id : Nat) (regs : TxRegs) (ops : List TxOp)

/-- `timer` is what the timer register reads, `txLock` is `m_Tx_Lock`, `depth` the disable depth of
IRQ 98, and `spin` whether `tx_lock` is held. The calls that come to use the ring are numbered:
`taken` lists the values of `cur_tx` whose slots were taken, with the number of the call, and `used`
counts the descriptors of these calls. -/
structure TwoPaths where
  tx : TxState
  timer : BitVec 32
  txLock : Bool
  depth : Nat
  spin : Bool
  xmit : XmitPc
  handler : TimerIrqPc
  calls : Nat
  taken : List (Nat × BitVec 32)
  used : Nat

/-- `others` is anything else that happens to the transmit side but leaves `cur_tx` alone. -/
inductive TwoPathsAct where
  | xmit (skb : TxSkb) (dma : Nat → BitVec 32)
  | xmitStep
  | irq
  | rtl8211Xmit (length : BitVec 32) (dma : Nat → BitVec 32)
  | handlerStep
  | irqReturn
  | timer (value : BitVec 32)
  | others (tx : TxState) (spin : Bool)

def XmitPc.HoldsLock : XmitPc → Bool
  | .ring _ _ _ => true
  | _ => false

section Step

variable (c : Conf) (w : DescWrites) (j : JumboFrm) (timer0 : Bool)

/-- `timer0` says whether `regs_timer0` is mapped; if it is not, nothing is polled. -/
def xmitPathStep (s : TwoPaths) : Option TwoPaths :=
  match s.xmit with
  | .idle => none
  | .txAvail skb dma =>
    if XmitFits c s.tx skb then some { s with xmit := .readTimer skb dma }
    else some { s with tx := { s.tx with queueStopped := true }, xmit := .idle }
  | .readTimer skb dma =>
    if timer0 then if s.timer = 0 then some { s with xmit := .readTxLock skb dma } else some s
    else some { s with xmit := .disableIrq skb dma }
  | .readTxLock skb dma =>
    some { s with xmit := if s.txLock then .readTimer skb dma else .disableIrq skb dma }
  | .disableIrq skb dma => some { s with depth := s.depth + 1, xmit := .synchronizeIrq skb dma }
  | .synchronizeIrq skb dma =>
    match s.handler with
    | .out => some { s with xmit := .spinLock skb dma }
    | _ => none
  | .spinLock skb dma =>
    if s.spin then none
    else some { s with
      spin := true
      xmit := .ring s.calls ⟨0, 0, 0, false⟩ (lockedXmitOps c w j skb dma)
      calls := s.calls + 1
      used := s.used + (headDescs j skb.len skb.headlen skb.csumPartial dma + skb.frags.length) }
  | .ring _ _ [] => some { s with spin := false, xmit := .enableIrq }
  | .ring id r (op :: ops) =>
    let x := op.run c (r, s.tx)
    some { s with tx := x.2, xmit := .ring id x.1 ops, taken := s.taken ++ op.takes id r }
  | .enableIrq => some { s with depth := s.depth - 1, xmit := .idle }

def timerIrqStep (s : TwoPaths) : Option TwoPaths :=
  match s.handler with
  | .out | .running => none
  | .setTxLock length dma =>
    some { s with
      txLock := true
      handler := .ring s.calls ⟨0, 0, 0, false⟩ (lockedRtl8211Ops c w j length dma)
      calls := s.calls + 1
      used := s.used + headDescs j length length false dma }
  | .ring _ _ [] => some { s with txLock := false, handler := .running }
  | .ring id r (op :: ops) =>
    let x := op.run c (r, s.tx)
    some { s with tx := x.2, handler := .ring id x.1 ops, taken := s.taken ++ op.takes id r }

/-- The queue lock lets one `stmmac_xmit` in at a time; the handler is entered when it is not
running and its interrupt is enabled. -/
def twoPathsStep (s : TwoPaths) : TwoPathsAct → Option TwoPaths
  | .xmit skb dma =>
    match s.xmit with
    | .idle => some { s with xmit := .txAvail skb dma }
    | _ => none
  | .xmitStep => xmitPathStep c w j timer0 s
  | .irq =>
    match s.handler with
    | .out => if s.depth = 0 then some { s with handler := .running } else none
    | _ => none
  | .rtl8211Xmit length dma =>
    match s.handler with
    | .running => some { s with handler := .setTxLock length dma }
    | _ => none
  | .handlerStep => timerIrqStep c w j s
  | .irqReturn =>
    match s.handler with
    | .running => some { s with handler := .out }
    | _ => none
  | .timer value => some { s with timer := value }
  | .others tx spin =>
    if tx.curTx = s.tx.curTx ∧ (spin = s.spin ∨ s.xmit.HoldsLock = false) then
      some { s with tx := tx, spin := spin }
    else none

end Step

/-! ## The property -/

/-- The call has not made its last increment of `cur_tx`. -/
def XmitPc.Updating : XmitPc → Bool
  | .ring _ _ ops => ops.any TxOp.isStoreCur
  | _ => false

def TimerIrqPc.Updating : TimerIrqPc → Bool
  | .ring _ _ ops => ops.any TxOp.isStoreCur
  | _ => false

/-- The same, counted from the read of `cur_tx` in `stmmac_tx_avail`. -/
def XmitPc.SinceAvail : XmitPc → Bool
  | .idle | .txAvail _ _ | .enableIrq => false
  | .ring _ _ ops => ops.any TxOp.isStoreCur
  | _ => true

/-- The next access of call `id` writes to a slot that this call has taken. -/
def WritesTaken (c : Conf) (taken : List (Nat × BitVec 32)) (id : Nat) (r : TxRegs)
    (ops : List TxOp) : Prop :=
  ∀ op l e, ops = op :: l → op.writes r = some e → TakenBy c taken id e

/-- From `cur` on, the two paths take slots in turn. -/
structure NeverShare (c : Conf) (cur : BitVec 32) (s : TwoPaths) : Prop where
  exclusive : ¬ (s.xmit.Updating = true ∧ s.handler.Updating = true)
  consecutive : Consecutive cur s.taken
  xmitWrites : ∀ id r ops, s.xmit = .ring id r ops → WritesTaken c s.taken id r ops
  handlerWrites : ∀ id r ops, s.handler = .ring id r ops → WritesTaken c s.taken id r ops
  advance : s.xmit.Updating = false → s.handler.Updating = false →
    s.taken.length = s.used ∧ s.tx.curTx = cur + BitVec.ofNat 32 s.used
  enabled : s.xmit = .idle → s.depth = 0

def TwoPaths.start (tx : TxState) : TwoPaths where
  tx := tx
  timer := 0
  txLock := false
  depth := 0
  spin := false
  xmit := .idle
  handler := .out
  calls := 0
  taken := []
  used := 0

/-! ## The invariant -/

def XmitPc.depth : XmitPc → Nat
  | .synchronizeIrq _ _ | .spinLock _ _ | .ring _ _ _ | .enableIrq => 1
  | _ => 0

/-- `disable_irq` has returned and `enable_irq` is still to come. -/
def XmitPc.Excludes : XmitPc → Bool
  | .spinLock _ _ | .ring _ _ _ | .enableIrq => true
  | _ => false

theorem XmitPc.depth_of_excludes {x : XmitPc} (h : x.Excludes = true) : x.depth = 1 := by
  cases x with
  | spinLock | ring | enableIrq => rfl
  | _ => cases h

/-- A call that uses the ring, with the accesses it has left. -/
structure InRing (c : Conf) (cur : BitVec 32) (s : TwoPaths) (id : Nat) (r : TxRegs)
    (ops : List TxOp) : Prop where
  settles : Settles ops
  safe : Safe (TxOp.track c id) (TakeOk c cur id) (TakeDone cur s.used) ops
    (curView r s.tx s.taken)

def XmitPc.inRing : XmitPc → Option (Nat × TxRegs × List TxOp)
  | .ring id r ops => some (id, r, ops)
  | _ => none

def TimerIrqPc.inRing : TimerIrqPc → Option (Nat × TxRegs × List TxOp)
  | .ring id r ops => some (id, r, ops)
  | _ => none

structure TwoPathsInv (c : Conf) (cur : BitVec 32) (s : TwoPaths) : Prop where
  depth : s.depth = s.xmit.depth
  excludes : s.xmit.Excludes = true → s.handler = .out
  xmit : ∀ id r ops, s.xmit.inRing = some (id, r, ops) → InRing c cur s id r ops
  handler : ∀ id r ops, s.handler.inRing = some (id, r, ops) → InRing c cur s id r ops
  rest : s.xmit.inRing = none → s.handler.inRing = none →
    ∀ r, TakeDone cur s.used (curView r s.tx s.taken)

section Invariant

variable {c : Conf} {w : DescWrites} {j : JumboFrm} {timer0 : Bool} {s s' : TwoPaths}
  {a : TwoPathsAct} {cur : BitVec 32} {id : Nat} {r : TxRegs} {ops : List TxOp}

theorem InRing.consecutive (h : InRing c cur s id r ops) : Consecutive cur s.taken :=
  h.safe.now (A := fun v => Consecutive cur v.taken) (fun hP => hP.consecutive)
    fun hQ => hQ.consecutive

theorem InRing.writes (h : InRing c cur s id r ops) : WritesTaken c s.taken id r ops := by
  rintro op l e rfl hwrite
  refine h.safe.1.target e ?_
  rw [curView, target_coal]
  exact target_of_writes hwrite

theorem InRing.done (h : InRing c cur s id r ops) (hnone : ops.any TxOp.isStoreCur = false) :
    s.taken.length = s.used ∧ s.tx.curTx = cur + BitVec.ofNat 32 s.used :=
  have g := h.settles.done hnone h.safe
  ⟨g.length, g.curTx⟩

/-- One access of the call. -/
theorem InRing.step {op : TxOp} (h : InRing c cur s id r (op :: ops)) (hused : s'.used = s.used)
    (htx : s'.tx = (op.run c (r, s.tx)).2) (htaken : s'.taken = s.taken ++ op.takes id r) :
    InRing c cur s' id (op.run c (r, s.tx)).1 ops := by
  refine ⟨h.settles.tail, ?_⟩
  rw [hused, htx, htaken, curView_run h.safe.1.clean]
  exact h.safe.2

theorem XmitPc.updating_eq (x : XmitPc) :
    x.Updating = x.inRing.any fun (_, _, ops) => ops.any TxOp.isStoreCur := by
  cases x <;> rfl

theorem TimerIrqPc.updating_eq (x : TimerIrqPc) :
    x.Updating = x.inRing.any fun (_, _, ops) => ops.any TxOp.isStoreCur := by
  cases x <;> rfl

namespace TwoPathsInv

/-- Only one of the two uses the ring. -/
theorem handler_none (inv : TwoPathsInv c cur s) {x : Nat × TxRegs × List TxOp}
    (hx : s.xmit.inRing = some x) : s.handler.inRing = none := by
  have hexcl : s.xmit.Excludes = true := by
    cases hpc : s.xmit with
    | ring id r ops => rfl
    | _ => rw [hpc] at hx; cases hx
  rw [inv.excludes hexcl]
  rfl

theorem xmit_none (inv : TwoPathsInv c cur s) (hh : s.handler ≠ .out) :
    s.xmit.inRing = none := by
  cases hx : s.xmit with
  | ring id r ops => exact absurd (inv.excludes (by rw [hx]; rfl)) hh
  | _ => rfl

theorem neverShare (inv : TwoPathsInv c cur s) : NeverShare c cur s := by
  refine ⟨?_, ?_, fun id r ops hx => (inv.xmit id r ops (by rw [hx]; rfl)).writes,
    fun id r ops hh => (inv.handler id r ops (by rw [hh]; rfl)).writes, ?_, fun hidle => ?_⟩
  · rintro ⟨hx, hh⟩
    rw [XmitPc.updating_eq] at hx
    rw [TimerIrqPc.updating_eq] at hh
    obtain ⟨x, hsome, -⟩ := (Option.any_eq_true _ _).mp hx
    rw [inv.handler_none hsome] at hh
    cases hh
  · cases hx : s.xmit.inRing with
    | some x => exact (inv.xmit _ _ _ hx).consecutive
    | none =>
      cases hh : s.handler.inRing with
      | some y => exact (inv.handler _ _ _ hh).consecutive
      | none => exact (inv.rest hx hh ⟨0, 0, 0, false⟩).consecutive
  · intro hx' hh'
    rw [XmitPc.updating_eq] at hx'
    rw [TimerIrqPc.updating_eq] at hh'
    cases hx : s.xmit.inRing with
    | some x => exact (inv.xmit _ _ _ hx).done (by rwa [hx] at hx')
    | none =>
      cases hh : s.handler.inRing with
      | some y => exact (inv.handler _ _ _ hh).done (by rwa [hh] at hh')
      | none =>
        have g := inv.rest hx hh ⟨0, 0, 0, false⟩
        exact ⟨g.length, g.curTx⟩
  · rw [inv.depth, hidle]
    rfl

/-- A step that neither enters nor leaves the ring, nor uses it. -/
theorem congr (inv : TwoPathsInv c cur s) (hdepth : s'.depth = s'.xmit.depth)
    (hexcludes : s'.xmit.Excludes = true → s'.handler = .out)
    (hx : s'.xmit.inRing = s.xmit.inRing) (hh : s'.handler.inRing = s.handler.inRing)
    (hcur : s'.tx.curTx = s.tx.curTx) (htaken : s'.taken = s.taken) (hused : s'.used = s.used) :
    TwoPathsInv c cur s' := by
  have hview : ∀ r, curView r s'.tx s'.taken = curView r s.tx s.taken := by
    intro r
    rw [curView, hcur, htaken, curView]
  have hring : ∀ {id r ops}, InRing c cur s id r ops → InRing c cur s' id r ops := by
    intro id r ops h
    refine ⟨h.settles, ?_⟩
    rw [hused, hview]
    exact h.safe
  refine ⟨hdepth, hexcludes, fun id r ops h => hring (inv.xmit id r ops (hx ▸ h)),
    fun id r ops h => hring (inv.handler id r ops (hh ▸ h)), fun h h' r => ?_⟩
  rw [hused, hview]
  exact inv.rest (hx ▸ h) (hh ▸ h') r

/-- A step of `stmmac_xmit` before it masks the interrupt. -/
theorem before (inv : TwoPathsInv c cur s) {x : XmitPc} {tx : TxState}
    (hpc : s.xmit.depth = 0 ∧ s.xmit.inRing = none)
    (hx : x.depth = 0 ∧ x.Excludes = false ∧ x.inRing = none) (htx : tx.curTx = s.tx.curTx) :
    TwoPathsInv c cur { s with tx := tx, xmit := x } :=
  inv.congr (inv.depth.trans (hpc.1.trans hx.1.symm))
    (fun h => absurd (hx.2.1.symm.trans h) Bool.false_ne_true) (hx.2.2.trans hpc.2.symm) rfl htx rfl
    rfl

/-- The lock is taken: the interrupt is masked, so nobody else uses the ring. -/
theorem xmitEnter (hj : j.Lawful) (inv : TwoPathsInv c cur s) {skb : TxSkb} {dma : Nat → BitVec 32}
    (hpc : s.xmit = .spinLock skb dma) :
    TwoPathsInv c cur { s with
      spin := true
      xmit := .ring s.calls ⟨0, 0, 0, false⟩ (lockedXmitOps c w j skb dma)
      calls := s.calls + 1
      used := s.used +
        (headDescs j skb.len skb.headlen skb.csumPartial dma + skb.frags.length) } := by
  have hout : s.handler = .out := inv.excludes (by rw [hpc]; rfl)
  have hnone : s.handler.inRing = none := by rw [hout]; rfl
  have g := inv.rest (by rw [hpc]; rfl) hnone ⟨0, 0, 0, false⟩
  refine ⟨inv.depth.trans (by rw [hpc]; rfl), fun _ => hout, ?_, ?_, nofun⟩
  · rintro id r ops ⟨⟩
    exact ⟨lockedXmitOps_settles skb dma, lockedXmitOps_safe hj g⟩
  · intro id r ops h
    cases hnone.symm.trans h

theorem xmitAccess (inv : TwoPathsInv c cur s) {op : TxOp} (hpc : s.xmit = .ring id r (op :: ops)) :
    TwoPathsInv c cur { s with
      tx := (op.run c (r, s.tx)).2
      xmit := .ring id (op.run c (r, s.tx)).1 ops
      taken := s.taken ++ op.takes id r } := by
  have hin := inv.xmit id r (op :: ops) (by rw [hpc]; rfl)
  have hnone := inv.handler_none (x := (id, r, op :: ops)) (by rw [hpc]; rfl)
  refine ⟨inv.depth.trans (by rw [hpc]; rfl), fun _ => inv.excludes (by rw [hpc]; rfl), ?_, ?_,
    nofun⟩
  · rintro id' r' ops' ⟨⟩
    exact hin.step rfl rfl rfl
  · intro id' r' ops' h
    cases hnone.symm.trans h

theorem xmitLeave (inv : TwoPathsInv c cur s) (hpc : s.xmit = .ring id r []) :
    TwoPathsInv c cur { s with spin := false, xmit := .enableIrq } := by
  have g : TakeDone cur s.used (curView r s.tx s.taken) :=
    (inv.xmit id r [] (by rw [hpc]; rfl)).safe
  have hnone := inv.handler_none (x := (id, r, [])) (by rw [hpc]; rfl)
  refine ⟨inv.depth.trans (by rw [hpc]; rfl), fun _ => inv.excludes (by rw [hpc]; rfl), nofun, ?_,
    fun _ _ _ => ⟨g.consecutive, g.length, g.curTx⟩⟩
  intro id' r' ops' h
  cases hnone.symm.trans h

theorem xmitStep (hj : j.Lawful) (inv : TwoPathsInv c cur s)
    (hs : xmitPathStep c w j timer0 s = some s') : TwoPathsInv c cur s' := by
  have hdepth := inv.depth
  have hbefore : s.xmit.depth = 0 ∧ s.xmit.inRing = none →
      ∀ x : XmitPc, x.depth = 0 ∧ x.Excludes = false ∧ x.inRing = none →
        TwoPathsInv c cur { s with xmit := x } := fun hpc x hx => inv.before hpc hx rfl
  cases hpc : s.xmit with
  | idle => simp only [xmitPathStep, hpc] at hs; cases hs
  | txAvail skb dma =>
    simp only [xmitPathStep, hpc] at hs
    split at hs
    · obtain rfl := Option.some.inj hs
      exact hbefore (by rw [hpc]; exact ⟨rfl, rfl⟩) _ ⟨rfl, rfl, rfl⟩
    · obtain rfl := Option.some.inj hs
      exact inv.before (by rw [hpc]; exact ⟨rfl, rfl⟩) ⟨rfl, rfl, rfl⟩ rfl
  | readTimer skb dma =>
    simp only [xmitPathStep, hpc] at hs
    split at hs
    · split at hs
      · obtain rfl := Option.some.inj hs
        exact hbefore (by rw [hpc]; exact ⟨rfl, rfl⟩) _ ⟨rfl, rfl, rfl⟩
      · obtain rfl := Option.some.inj hs
        exact inv
    · obtain rfl := Option.some.inj hs
      exact hbefore (by rw [hpc]; exact ⟨rfl, rfl⟩) _ ⟨rfl, rfl, rfl⟩
  | readTxLock skb dma =>
    simp only [xmitPathStep, hpc] at hs
    obtain rfl := Option.some.inj hs
    refine hbefore (by rw [hpc]; exact ⟨rfl, rfl⟩) _ ?_
    split <;> exact ⟨rfl, rfl, rfl⟩
  | disableIrq skb dma =>
    simp only [xmitPathStep, hpc] at hs
    obtain rfl := Option.some.inj hs
    refine inv.congr ?_ nofun (by rw [hpc]; rfl) rfl rfl rfl rfl
    simp only [hdepth, hpc, XmitPc.depth]
  | synchronizeIrq skb dma =>
    simp only [xmitPathStep, hpc] at hs
    split at hs
    · next hout =>
      obtain rfl := Option.some.inj hs
      exact inv.congr (hdepth.trans (by rw [hpc]; rfl)) (fun _ => hout) (by rw [hpc]; rfl) rfl rfl
        rfl rfl
    · cases hs
  | spinLock skb dma =>
    simp only [xmitPathStep, hpc] at hs
    split at hs
    · cases hs
    · obtain rfl := Option.some.inj hs
      exact inv.xmitEnter hj hpc
  | ring id r ops =>
    simp only [xmitPathStep, hpc] at hs
    cases ops with
    | nil =>
      obtain rfl := Option.some.inj hs
      exact inv.xmitLeave hpc
    | cons op ops =>
      obtain rfl := Option.some.inj hs
      exact inv.xmitAccess hpc
  | enableIrq =>
    simp only [xmitPathStep, hpc] at hs
    obtain rfl := Option.some.inj hs
    refine inv.congr ?_ nofun (by rw [hpc]; rfl) rfl rfl rfl rfl
    simp only [hdepth, hpc, XmitPc.depth]

theorem handlerEnter (hj : j.Lawful) (inv : TwoPathsInv c cur s) {length : BitVec 32}
    {dma : Nat → BitVec 32} (hpc : s.handler = .setTxLock length dma) :
    TwoPathsInv c cur { s with
      txLock := true
      handler := .ring s.calls ⟨0, 0, 0, false⟩ (lockedRtl8211Ops c w j length dma)
      calls := s.calls + 1
      used := s.used + headDescs j length length false dma } := by
  have hne : s.handler ≠ .out := by rw [hpc]; exact nofun
  have hnone := inv.xmit_none hne
  have g := inv.rest hnone (by rw [hpc]; rfl) ⟨0, 0, 0, false⟩
  refine ⟨inv.depth, fun h => absurd (inv.excludes h) hne, ?_, ?_, nofun⟩
  · intro id r ops h
    cases hnone.symm.trans h
  · rintro id r ops ⟨⟩
    exact ⟨lockedRtl8211Ops_settles length dma, lockedRtl8211Ops_safe hj g⟩

theorem handlerAccess (inv : TwoPathsInv c cur s) {op : TxOp}
    (hpc : s.handler = .ring id r (op :: ops)) :
    TwoPathsInv c cur { s with
      tx := (op.run c (r, s.tx)).2
      handler := .ring id (op.run c (r, s.tx)).1 ops
      taken := s.taken ++ op.takes id r } := by
  have hne : s.handler ≠ .out := by rw [hpc]; exact nofun
  have hnone := inv.xmit_none hne
  have hin := inv.handler id r (op :: ops) (by rw [hpc]; rfl)
  refine ⟨inv.depth, fun h => absurd (inv.excludes h) hne, ?_, ?_, nofun⟩
  · intro id' r' ops' h
    cases hnone.symm.trans h
  · rintro id' r' ops' ⟨⟩
    exact hin.step rfl rfl rfl

theorem handlerLeave (inv : TwoPathsInv c cur s) (hpc : s.handler = .ring id r []) :
    TwoPathsInv c cur { s with txLock := false, handler := .running } := by
  have hne : s.handler ≠ .out := by rw [hpc]; exact nofun
  have hnone := inv.xmit_none hne
  have g : TakeDone cur s.used (curView r s.tx s.taken) :=
    (inv.handler id r [] (by rw [hpc]; rfl)).safe
  refine ⟨inv.depth, fun h => absurd (inv.excludes h) hne, ?_, nofun,
    fun _ _ _ => ⟨g.consecutive, g.length, g.curTx⟩⟩
  intro id' r' ops' h
  cases hnone.symm.trans h

theorem handlerStep (hj : j.Lawful) (inv : TwoPathsInv c cur s)
    (hs : timerIrqStep c w j s = some s') : TwoPathsInv c cur s' := by
  cases hpc : s.handler with
  | out => simp only [timerIrqStep, hpc] at hs; cases hs
  | running => simp only [timerIrqStep, hpc] at hs; cases hs
  | setTxLock length dma =>
    simp only [timerIrqStep, hpc] at hs
    obtain rfl := Option.some.inj hs
    exact inv.handlerEnter hj hpc
  | ring id r ops =>
    simp only [timerIrqStep, hpc] at hs
    cases ops with
    | nil =>
      obtain rfl := Option.some.inj hs
      exact inv.handlerLeave hpc
    | cons op ops =>
      obtain rfl := Option.some.inj hs
      exact inv.handlerAccess hpc

theorem step (hj : j.Lawful) (inv : TwoPathsInv c cur s)
    (hs : twoPathsStep c w j timer0 s a = some s') : TwoPathsInv c cur s' := by
  cases a with
  | xmit skb dma =>
    simp only [twoPathsStep] at hs
    split at hs
    · next hpc =>
      obtain rfl := Option.some.inj hs
      exact inv.before (by rw [hpc]; exact ⟨rfl, rfl⟩) ⟨rfl, rfl, rfl⟩ rfl
    · cases hs
  | xmitStep => exact inv.xmitStep hj hs
  | irq =>
    simp only [twoPathsStep] at hs
    split at hs
    · next hpc =>
      split at hs
      · next hzero =>
        obtain rfl := Option.some.inj hs
        -- the interrupt is enabled, so `disable_irq` has not been reached
        refine inv.congr inv.depth (fun h => ?_) rfl (by rw [hpc]; rfl) rfl rfl rfl
        cases hzero.symm.trans (inv.depth.trans (XmitPc.depth_of_excludes h))
      · cases hs
    · cases hs
  | rtl8211Xmit length dma =>
    simp only [twoPathsStep] at hs
    split at hs
    · next hpc =>
      obtain rfl := Option.some.inj hs
      exact inv.congr inv.depth (fun h => nomatch hpc.symm.trans (inv.excludes h)) rfl
        (by rw [hpc]; rfl) rfl rfl rfl
    · cases hs
  | handlerStep => exact inv.handlerStep hj hs
  | irqReturn =>
    simp only [twoPathsStep] at hs
    split at hs
    · next hpc =>
      obtain rfl := Option.some.inj hs
      exact inv.congr inv.depth (fun _ => rfl) rfl (by rw [hpc]; rfl) rfl rfl rfl
    · cases hs
  | timer value =>
    obtain rfl := Option.some.inj hs
    exact inv.congr inv.depth inv.excludes rfl rfl rfl rfl rfl
  | others tx spin =>
    simp only [twoPathsStep] at hs
    split at hs
    · next hok =>
      obtain rfl := Option.some.inj hs
      exact inv.congr inv.depth inv.excludes rfl rfl hok.1 rfl rfl
    · cases hs

end TwoPathsInv

/-- In every interleaving the two transmit paths take the slots of the ring in turn. -/
theorem two_paths_never_share {tx : TxState} {as : List TwoPathsAct} (hj : j.Lawful)
    (run : Run (twoPathsStep c w j timer0) (fun _ _ => True) (.start tx) as s) :
    NeverShare c tx.curTx s := by
  have hcur : tx.curTx = tx.curTx + BitVec.ofNat 32 0 := (BitVec.add_zero _).symm
  have hinit : TwoPathsInv c tx.curTx (.start tx) :=
    ⟨rfl, nofun, nofun, nofun, fun _ _ _ => ⟨nofun, rfl, hcur⟩⟩
  exact (run.invariant (I := TwoPathsInv c tx.curTx) (fun inv _ hs => inv.step hj hs)
    hinit).neverShare

end Invariant

/-- `is_jumbo_frm` on frames of the usual size. -/
def JumboFrm.never : JumboFrm where
  isJumboFrm _ := false
  first _ _ _ := []
  more _ _ _ := []

theorem JumboFrm.never_lawful : JumboFrm.never.Lawful where
  first_plain _ _ _ := nofun
  more_plain _ _ _ := nofun

/-- A frame finds room, `rtl8211_xmit` sends another before the interrupt is masked, and then the
first is sent. -/
theorem two_paths_in_turn :
    ∃ s, Run (twoPathsStep (.normal 64) ndescWrites .never true) (fun _ _ => True)
        (.start (.idle (.normal 64)))
        ([TwoPathsAct.xmit (.plain 7 60 [100]) fun i => 4096 + BitVec.ofNat 32 i, .xmitStep, .irq,
            .rtl8211Xmit 60 fun _ => 8192, .handlerStep, .xmitStep, .xmitStep] ++
          List.replicate 18 TwoPathsAct.handlerStep ++ [TwoPathsAct.irqReturn] ++
          List.replicate 38 TwoPathsAct.xmitStep) s ∧
      NeverShare (.normal 64) 0 s :=
  exec_exists (by decide +kernel) fun _ run => two_paths_never_share JumboFrm.never_lawful run

/-- `stmmac_tx_avail` has read `cur_tx` for a frame that is still to be sent when `rtl8211_xmit`
reads it. -/
theorem both_since_avail :
    ∃ s, Run (twoPathsStep (.normal 64) ndescWrites .never true) (fun _ _ => True)
        (.start (.idle (.normal 64)))
        [.xmit (.plain 7 60 []) fun _ => 4096, .xmitStep, .irq, .rtl8211Xmit 60 fun _ => 8192,
          .handlerStep, .handlerStep] s ∧
      s.xmit.SinceAvail = true ∧ s.handler.Updating = true :=
  exec_reaches (by decide +kernel)

end Stmmac
