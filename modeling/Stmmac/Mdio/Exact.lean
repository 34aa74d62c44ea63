import Stmmac.Mdio.Bus

/-!
# MDIO transactions are exact

Each request is performed at most once, and one that does not return `-EBUSY` exactly once. The
invariant follows the request through the driver: what it has written when, and that the block is
idle whenever the driver is about to write. An operation that outlives its request ends before the
next request writes anything.
-/

namespace Stmmac

open Library

/-- What the driver returns for a call whose register held `content`. -/
def MdioCall.result (content : BitVec 16) : MdioCall → BitVec 32
  | read _ => content.setWidth 32
  | write _ _ => 0

/-- The request was performed on its register, exactly once, and the result is the one for the
content of the register at that moment. -/
def PerformedOnce (phy : PhyReg → BitVec 16) (performed : List Performed) (req : MdioRequest)
    (result : BitVec 32) : Prop :=
  ∃ before after, performed = before ++ ⟨req.nr, req.call.reg, req.call.data⟩ :: after ∧
    (∀ p ∈ before ++ after, p.nr ≠ req.nr) ∧
    result = req.call.result (phyContent phy before req.call.reg)

/-- The request has not been performed. -/
def Unperformed (performed : List Performed) (req : MdioRequest) : Prop :=
  ∀ p ∈ performed, p.nr ≠ req.nr

def MdioPc.request : MdioPc → Option MdioRequest
  | idle => none
  | waitFree req | setData req _ | setAddress req | waitDone req | getData req => some req

section Lists

variable {phy : PhyReg → BitVec 16} {performed : List Performed} {req : MdioRequest}
  {result : BitVec 32}

theorem PerformedOnce.concat (h : PerformedOnce phy performed req result) {p : Performed}
    (hne : p.nr ≠ req.nr) : PerformedOnce phy (performed ++ [p]) req result := by
  obtain ⟨before, after, rfl, hother, hresult⟩ := h
  refine ⟨before, after ++ [p], by simp, fun q hq => ?_, hresult⟩
  rw [← List.append_assoc] at hq
  rcases List.mem_append.mp hq with hq | hq
  · exact hother q hq
  · exact List.mem_singleton.mp hq ▸ hne

theorem Unperformed.performedOnce (h : Unperformed performed req) :
    PerformedOnce phy (performed ++ [⟨req.nr, req.call.reg, req.call.data⟩]) req
      (req.call.result (phyContent phy performed req.call.reg)) :=
  ⟨performed, [], rfl, by simpa [Unperformed] using h, rfl⟩

theorem PerformedOnce.write {reg : PhyReg} {phydata : BitVec 16}
    (h : PerformedOnce phy performed req result) (hcall : req.call = .write reg phydata) :
    result = 0 := by
  obtain ⟨-, -, -, -, rfl⟩ := h
  rw [hcall]
  rfl

end Lists

/-! ## The invariant -/

/-- What the driver knows of an operation in progress. -/
structure OpInv (mii : MiiRegs) (s : Mdio) (req : MdioRequest) (word : BitVec 32) : Prop where
  word_eq : word = req.word
  nr_lt : req.nr < s.calls
  unperformed : Unperformed s.performed req
  data : ∀ phydata, req.call.data = some phydata →
    readl s.regs mii.data = phydata.setWidth 32

/-- The request is the latest one and has not written the address register. -/
structure Unstarted (s : Mdio) (req : MdioRequest) : Prop where
  latest : req.nr + 1 = s.calls
  unperformed : Unperformed s.performed req
  op : ∀ r word, s.op = some (r, word) → r.nr ≠ req.nr

/-- The operation of the request is over, and what it read is still there. -/
structure Finished (mii : MiiRegs) (phy : PhyReg → BitVec 16) (s : Mdio) (req : MdioRequest) :
    Prop where
  op : s.op = none
  once : ∃ result, PerformedOnce phy s.performed req result ∧
    ∀ reg, req.call = .read reg → result = readl s.regs mii.data

def PcInv (mii : MiiRegs) (phy : PhyReg → BitVec 16) (s : Mdio) : MdioPc → Prop
  | .idle => True
  | .waitFree req => Unstarted s req
  | .setData req phydata => Unstarted s req ∧ s.op = none ∧ req.call.data = some phydata
  | .setAddress req => Unstarted s req ∧ s.op = none ∧
      ∀ phydata, req.call.data = some phydata → readl s.regs mii.data = phydata.setWidth 32
  | .waitDone req => req.nr + 1 = s.calls ∧
      ((∃ word, s.op = some (req, word)) ∨ Finished mii phy s req)
  | .getData req => req.nr + 1 = s.calls ∧ (∃ reg, req.call = .read reg) ∧
      Finished mii phy s req

structure ReturnedInv (phy : PhyReg → BitVec 16) (s : Mdio) (req : MdioRequest)
    (result : BitVec 32) : Prop where
  nr_lt : req.nr < s.calls
  current : ∀ r, s.pc.request = some r → req.nr ≠ r.nr
  outcome : result = mdioEbusy ∨ PerformedOnce phy s.performed req result ∧
    ∀ r word, s.op = some (r, word) → r.nr ≠ req.nr

structure MdioInv (mii : MiiRegs) (phy : PhyReg → BitVec 16) (s : Mdio) : Prop where
  busy : hasBit (readl s.regs mii.addr) miiBusy = s.op.isSome
  phy_eq : s.phy = phyContent phy s.performed
  performed_lt : ∀ p ∈ s.performed, p.nr < s.calls
  op : ∀ req word, s.op = some (req, word) → OpInv mii s req word
  pc : PcInv mii phy s s.pc
  returned : ∀ x ∈ s.returned, ReturnedInv phy s x.1 x.2
  writes : ∀ w ∈ s.writes, w.inProgress = false ∧ (w.offset = mii.addr → w.value = w.req.word)

variable {mii : MiiRegs} {phy : PhyReg → BitVec 16} {s s' : Mdio} {req : MdioRequest}

/-! ## What the block does -/

/-- The operation of `req` is performed. -/
structure Completes (mii : MiiRegs) (phy : PhyReg → BitVec 16) (s s' : Mdio) (req : MdioRequest) :
    Prop where
  op_eq : s.op = some (req, req.word)
  op_eq' : s'.op = none
  pc : s'.pc = s.pc
  calls : s'.calls = s.calls
  returned : s'.returned = s.returned
  writes : s'.writes = s.writes
  performed : s'.performed = s.performed ++ [⟨req.nr, req.call.reg, req.call.data⟩]
  free : hasBit (readl s'.regs mii.addr) miiBusy = false
  phy_eq : s'.phy = phyContent phy s'.performed
  data : ∀ reg, req.call = .read reg →
    readl s'.regs mii.data = (phyContent phy s.performed reg).setWidth 32

theorem MdioInv.completes (inv : MdioInv mii phy s) (h : mdioComplete mii s = some s') :
    ∃ req, Completes mii phy s s' req := by
  obtain ⟨⟨req, word⟩, hop, rfl⟩ := Option.map_eq_some_iff.mp h
  obtain ⟨rfl, -, -, hdata⟩ := inv.op req word hop
  have hfree : hasBit (readl s.regs mii.addr &&& ~~~miiBusy) miiBusy = false := hasBit_andNot_self
  refine ⟨req, ?_⟩
  simp only [word_reg, word_write]
  cases hcall : req.call with
  | read reg =>
    exact
      { op_eq := hop
        op_eq' := rfl
        pc := rfl
        calls := rfl
        returned := rfl
        writes := rfl
        performed := by simp [hcall, MdioCall.data, MdioCall.reg]
        free := by simpa [MdioCall.data, mii.addr_ne_data] using hfree
        phy_eq := by
          funext reg'
          simp [MdioCall.data, MdioCall.reg, phyContent_concat, inv.phy_eq]
        data := fun reg' hreg => by
          obtain rfl : reg = reg' := by simpa [hcall] using hreg
          simp [MdioCall.data, MdioCall.reg, inv.phy_eq] }
  | write reg phydata =>
    have hvalue : (readl s.regs mii.data).setWidth 16 = phydata := by
      rw [hdata phydata (by rw [hcall]; rfl)]
      simp
    exact
      { op_eq := hop
        op_eq' := rfl
        pc := rfl
        calls := rfl
        returned := rfl
        writes := rfl
        performed := by simp [hcall, hvalue, MdioCall.data, MdioCall.reg]
        free := by simpa [MdioCall.data] using hfree
        phy_eq := by
          funext reg'
          simp only [MdioCall.data, MdioCall.reg, Option.isSome_some, if_true, hvalue,
            phyContent_concat, inv.phy_eq, Function.update_apply]
          simp only [eq_comm, Option.getD_some]
        data := fun reg' hreg => by simp [hcall] at hreg }

/-- A request other than the one performed stays as it is. -/
theorem Completes.unperformed (h : Completes mii phy s s' req) {r : MdioRequest}
    (hne : req.nr ≠ r.nr) (hr : Unperformed s.performed r) : Unperformed s'.performed r := by
  intro p hp
  rw [h.performed] at hp
  rcases List.mem_append.mp hp with hp | hp
  · exact hr p hp
  · exact List.mem_singleton.mp hp ▸ hne

theorem Completes.unstarted (h : Completes mii phy s s' req) {r : MdioRequest}
    (hr : Unstarted s r) : Unstarted s' r :=
  { latest := h.calls ▸ hr.latest
    unperformed := h.unperformed (hr.op _ _ h.op_eq) hr.unperformed
    op := fun _ _ hop => by rw [h.op_eq'] at hop; cases hop }

/-- The one performed is finished. -/
theorem Completes.finished (h : Completes mii phy s s' req) (hreq : Unperformed s.performed req) :
    Finished mii phy s' req := by
  refine ⟨h.op_eq', _, h.performed ▸ hreq.performedOnce, fun reg hread => ?_⟩
  rw [h.data reg hread, hread]
  rfl

theorem MdioInv.complete (inv : MdioInv mii phy s) (hs : mdioComplete mii s = some s') :
    MdioInv mii phy s' := by
  obtain ⟨req, h⟩ := inv.completes hs
  have hop := inv.op _ _ h.op_eq
  exact
    { busy := by rw [h.free, h.op_eq']; rfl
      phy_eq := h.phy_eq
      performed_lt := fun p hp => by
        rw [h.performed] at hp
        rw [h.calls]
        rcases List.mem_append.mp hp with hp | hp
        · exact inv.performed_lt p hp
        · exact List.mem_singleton.mp hp ▸ hop.nr_lt
      op := fun _ _ hop' => by rw [h.op_eq'] at hop'; cases hop'
      pc := by
        have hpc := inv.pc
        rw [h.pc]
        cases hcur : s.pc with
        | idle => trivial
        | waitFree r =>
          rw [hcur] at hpc
          exact h.unstarted hpc
        | setData r phydata | setAddress r =>
          -- the driver writes only while no operation is in progress
          rw [hcur] at hpc
          have := hpc.2.1
          simp [h.op_eq] at this
        | waitDone r =>
          rw [hcur] at hpc
          refine ⟨h.calls ▸ hpc.1, .inr ?_⟩
          rcases hpc.2 with ⟨word, hr⟩ | hfin
          · obtain rfl : req = r := by simpa [h.op_eq] using congrArg (Option.map Prod.fst) hr
            exact h.finished hop.unperformed
          · have := hfin.op
            simp [h.op_eq] at this
        | getData r =>
          rw [hcur] at hpc
          have := hpc.2.2.op
          simp [h.op_eq] at this
      returned := fun x hx => by
        rw [h.returned] at hx
        have hret := inv.returned x hx
        refine ⟨h.calls ▸ hret.nr_lt, h.pc ▸ hret.current, hret.outcome.imp_right fun hdone => ?_⟩
        refine ⟨?_, fun _ _ hop' => by rw [h.op_eq'] at hop'; cases hop'⟩
        rw [h.performed]
        exact hdone.1.concat (hdone.2 _ _ h.op_eq)
      writes := h.writes ▸ inv.writes }

/-! ## What the driver does -/

namespace MdioInv

/-- The driver goes on with the same request. -/
theorem advance {pc : MdioPc} (inv : MdioInv mii phy s) (hreq : pc.request = s.pc.request)
    (hpc : PcInv mii phy { s with pc := pc } pc) : MdioInv mii phy { s with pc := pc } :=
  { busy := inv.busy
    phy_eq := inv.phy_eq
    performed_lt := inv.performed_lt
    op := fun req word hop =>
      let h := inv.op req word hop
      ⟨h.word_eq, h.nr_lt, h.unperformed, h.data⟩
    pc := hpc
    returned := fun x hx =>
      let h := inv.returned x hx
      ⟨h.nr_lt, fun r hr => h.current r (hreq ▸ hr), h.outcome⟩
    writes := inv.writes }

theorem ret {result : BitVec 32} (inv : MdioInv mii phy s) (hlatest : req.nr + 1 = s.calls)
    (hresult : result = mdioEbusy ∨ s.op = none ∧ PerformedOnce phy s.performed req result) :
    MdioInv mii phy (mdioReturn req result s) :=
  { busy := inv.busy
    phy_eq := inv.phy_eq
    performed_lt := inv.performed_lt
    op := fun r word hop =>
      let h := inv.op r word hop
      ⟨h.word_eq, h.nr_lt, h.unperformed, h.data⟩
    pc := trivial
    returned := fun x hx => by
      rcases List.mem_append.mp hx with hx | hx
      · exact ⟨(inv.returned x hx).nr_lt, nofun, (inv.returned x hx).outcome⟩
      · obtain rfl := List.mem_singleton.mp hx
        refine ⟨hlatest ▸ Nat.lt_succ_self _, nofun, ?_⟩
        refine hresult.imp_right fun h => ⟨h.2, fun r word hop => ?_⟩
        have : s.op = some (r, word) := hop
        simp [h.1] at this
    writes := inv.writes }

theorem op_eq_none (inv : MdioInv mii phy s)
    (hfree : ¬ hasBit (readl s.regs mii.addr) miiBusy = true) : s.op = none := by
  rw [inv.busy] at hfree
  simpa using hfree

/-- A wait gives up, goes on waiting, or finds no operation in progress. -/
theorem busyWait {timeout : Bool} {next : Mdio} (inv : MdioInv mii phy s)
    (hlatest : req.nr + 1 = s.calls) (hnext : s.op = none → MdioInv mii phy next) :
    MdioInv mii phy (stmmacMdioBusyWait mii timeout req next s) := by
  unfold stmmacMdioBusyWait
  split_ifs with hbusy
  · exact inv.ret hlatest (.inl rfl)
  · exact inv
  · exact hnext (inv.op_eq_none hbusy)

theorem setData {phydata : BitVec 16} (inv : MdioInv mii phy s)
    (hpc : s.pc = .setData req phydata) :
    MdioInv mii phy
      { mdioWritel mii req (phydata.setWidth 32) mii.data s with pc := .setAddress req } := by
  have hcur := inv.pc
  rw [hpc] at hcur
  obtain ⟨hun, hop, hdata⟩ := hcur
  have hop' : (mdioWritel mii req (phydata.setWidth 32) mii.data s).op = none := by
    simp [mdioWritel, mii.addr_ne_data.symm, hop]
  exact
    { busy := by
        have hbusy := inv.busy
        simp only [hop, Option.isSome_none] at hbusy
        simp [mdioWritel, mii.addr_ne_data, mii.addr_ne_data.symm, hbusy, hop]
      phy_eq := inv.phy_eq
      performed_lt := inv.performed_lt
      op := fun r word h => by rw [hop'] at h; cases h
      pc := by
        refine ⟨⟨hun.latest, hun.unperformed, fun r word h => ?_⟩, hop', fun d hd => ?_⟩
        · rw [hop'] at h
          cases h
        · obtain rfl : phydata = d := by simpa [hdata] using hd
          simp [mdioWritel]
      returned := fun x hx =>
        let h := inv.returned x hx
        ⟨h.nr_lt, fun r hr => h.current r (by rw [hpc]; exact hr),
          h.outcome.imp_right fun hd => ⟨hd.1, fun r word h => by rw [hop'] at h; cases h⟩⟩
      writes := fun w hw => by
        rcases List.mem_append.mp hw with hw | hw
        · exact inv.writes w hw
        · obtain rfl := List.mem_singleton.mp hw
          exact ⟨by simp [hop], fun h => absurd h.symm mii.addr_ne_data⟩ }

theorem setAddress (inv : MdioInv mii phy s) (hpc : s.pc = .setAddress req) :
    MdioInv mii phy { mdioWritel mii req req.word mii.addr s with pc := .waitDone req } := by
  have hcur := inv.pc
  rw [hpc] at hcur
  obtain ⟨hun, hop, hdata⟩ := hcur
  have hop' : (mdioWritel mii req req.word mii.addr s).op = some (req, req.word) := by
    simp [mdioWritel, word_busy]
  have hstarted : ∀ r word, (mdioWritel mii req req.word mii.addr s).op = some (r, word) →
      r = req ∧ word = req.word := by
    intro r word h
    rw [hop'] at h
    simpa [eq_comm] using h
  exact
    { busy := by simp [mdioWritel, word_busy]
      phy_eq := inv.phy_eq
      performed_lt := inv.performed_lt
      op := fun r word h => by
        obtain ⟨rfl, rfl⟩ := hstarted r word h
        refine ⟨rfl, hun.latest ▸ Nat.lt_succ_self _, hun.unperformed, fun d hd => ?_⟩
        simpa [mdioWritel, mii.addr_ne_data.symm] using hdata d hd
      pc := ⟨hun.latest, .inl ⟨req.word, hop'⟩⟩
      returned := fun x hx =>
        let h := inv.returned x hx
        have hne : x.1.nr ≠ req.nr := h.current req (by rw [hpc]; rfl)
        ⟨h.nr_lt, fun r hr => by obtain rfl : req = r := by simpa [MdioPc.request] using hr
                                 exact hne,
          h.outcome.imp_right fun hd => ⟨hd.1, fun r word h => (hstarted r word h).1 ▸ hne.symm⟩⟩
      writes := fun w hw => by
        rcases List.mem_append.mp hw with hw | hw
        · exact inv.writes w hw
        · obtain rfl := List.mem_singleton.mp hw
          exact ⟨by simp [hop], fun _ => rfl⟩ }

theorem access {timeout : Bool} (inv : MdioInv mii phy s)
    (hs : mdioAccess mii timeout s = some s') : MdioInv mii phy s' := by
  have hcur := inv.pc
  unfold mdioAccess at hs
  cases hpc : s.pc with
  | idle => simp [hpc] at hs
  | waitFree req =>
    rw [hpc] at hcur hs
    obtain rfl := Option.some.inj hs
    refine inv.busyWait hcur.latest fun hop => ?_
    have hun : ∀ pc, Unstarted { s with pc := pc } req := fun _ =>
      ⟨hcur.latest, hcur.unperformed, hcur.op⟩
    cases hcall : req.call with
    | read reg =>
      refine inv.advance (by rw [hpc]; rfl) ⟨hun _, hop, fun d hd => ?_⟩
      simp [hcall, MdioCall.data] at hd
    | write reg phydata =>
      exact inv.advance (by rw [hpc]; rfl) ⟨hun _, hop, by rw [hcall]; rfl⟩
  | setData req phydata =>
    rw [hpc] at hs
    exact Option.some.inj hs ▸ inv.setData hpc
  | setAddress req =>
    rw [hpc] at hs
    exact Option.some.inj hs ▸ inv.setAddress hpc
  | waitDone req =>
    rw [hpc] at hcur hs
    obtain rfl := Option.some.inj hs
    refine inv.busyWait hcur.1 fun hop => ?_
    have hfin : Finished mii phy s req := by
      refine hcur.2.resolve_left fun h => ?_
      obtain ⟨word, h⟩ := h
      simp [hop] at h
    obtain ⟨result, honce, hread⟩ := hfin.once
    cases hcall : req.call with
    | read reg =>
      exact inv.advance (by rw [hpc]; rfl) ⟨hcur.1, ⟨reg, hcall⟩, hop, result, honce, hread⟩
    | write reg phydata =>
      exact inv.ret hcur.1 (.inr ⟨hop, honce.write hcall ▸ honce⟩)
  | getData req =>
    rw [hpc] at hcur hs
    obtain rfl := Option.some.inj hs
    obtain ⟨hlatest, ⟨reg, hcall⟩, hop, result, honce, hread⟩ := hcur
    exact inv.ret hlatest (.inr ⟨hop, hread reg hcall ▸ honce⟩)

theorem call {call : MdioCall} {clkCsr : BitVec 32} (inv : MdioInv mii phy s)
    (hs : mdioStep mii s (.call call clkCsr) = some s') : MdioInv mii phy s' := by
  simp only [mdioStep] at hs
  split at hs
  · obtain rfl := Option.some.inj hs
    exact
      { busy := inv.busy
        phy_eq := inv.phy_eq
        performed_lt := fun p hp => Nat.lt_succ_of_lt (inv.performed_lt p hp)
        op := fun req word hop =>
          let h := inv.op req word hop
          ⟨h.word_eq, Nat.lt_succ_of_lt h.nr_lt, h.unperformed, h.data⟩
        pc := ⟨rfl, fun p hp => Nat.ne_of_lt (inv.performed_lt p hp), fun r word hop =>
          Nat.ne_of_lt (inv.op r word hop).nr_lt⟩
        returned := fun x hx =>
          let h := inv.returned x hx
          ⟨Nat.lt_succ_of_lt h.nr_lt, fun r hr => by
            obtain rfl := Option.some.inj hr
            exact Nat.ne_of_lt h.nr_lt, h.outcome⟩
        writes := inv.writes }
  · cases hs

theorem step {a : MdioAct} (inv : MdioInv mii phy s) (hs : mdioStep mii s a = some s') :
    MdioInv mii phy s' := by
  cases a with
  | call call clkCsr => exact inv.call hs
  | access timeout => exact inv.access hs
  | complete => exact inv.complete hs

theorem start {regs : Regs} (hfree : hasBit (readl regs mii.addr) miiBusy = false) :
    MdioInv mii phy (.start regs phy) :=
  { busy := hfree
    phy_eq := rfl
    performed_lt := fun _ hp => by cases hp
    op := fun _ _ hop => by cases hop
    pc := trivial
    returned := fun _ hx => by cases hx
    writes := fun _ hw => by cases hw }

end MdioInv

/-- What a run has done: no register written during an operation, the clock field always right,
every request that did not fail performed once, and PHY registers that hold the last value
written. -/
structure MdioExact (mii : MiiRegs) (phy : PhyReg → BitVec 16) (s : Mdio) : Prop where
  exclusive : ∀ w ∈ s.writes, w.inProgress = false
  clock : ∀ w ∈ s.writes, w.offset = mii.addr →
    (w.value.extractLsb' 2 4).setWidth 32 = w.req.clkCsr &&& 0xF
  performed : ∀ x ∈ s.returned, x.2 ≠ mdioEbusy → PerformedOnce phy s.performed x.1 x.2
  content : s.phy = phyContent phy s.performed

theorem mdio_exact (mii : MiiRegs) (regs : Regs) (phy : PhyReg → BitVec 16)
    (hfree : hasBit (readl regs mii.addr) miiBusy = false) (as : List MdioAct) (s : Mdio)
    (run : Run (mdioStep mii) (fun _ _ => True) (.start regs phy) as s) : MdioExact mii phy s := by
  have inv : MdioInv mii phy s := run.invariant (fun h _ hs => h.step hs) (.start hfree)
  exact
    { exclusive := fun w hw => (inv.writes w hw).1
      clock := fun w hw hoff => (inv.writes w hw).2 hoff ▸ word_clk w.req
      performed := fun x hx hok => ((inv.returned x hx).outcome.resolve_left hok).1
      content := inv.phy_eq }

/-- A write gives up waiting and is performed while the next request, a read, waits for it. -/
theorem mdio_exact_late_write :
    ∃ s, Run (mdioStep ⟨gmacMiiAddr, gmacMiiData, by decide⟩) (fun _ _ => True)
        (.start (fun _ => 0) fun _ => 0)
        ([.call (.write (1, 4) 0x1234) 5] ++ .replicate 3 (.access false) ++
          [.access true, .call (.read (1, 4)) 5, .access false, .complete] ++
          .replicate 3 (.access false) ++ [.complete] ++ .replicate 2 (.access false)) s ∧
      MdioExact ⟨gmacMiiAddr, gmacMiiData, by decide⟩ (fun _ => 0) s :=
  exec_exists (by decide +kernel) fun s run =>
    mdio_exact ⟨gmacMiiAddr, gmacMiiData, by decide⟩ (fun _ => 0) (fun _ => 0) rfl _ s run

end Stmmac
