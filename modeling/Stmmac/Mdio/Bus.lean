import Stmmac.Library.History
import Stmmac.Library.Runs
import Stmmac.Mac.Regs

/-!
# The MDIO bus

`stmmac_mdio_read` and `stmmac_mdio_write` of `phy_ctrl.c` beside the MDIO block of the core. A
write of the address register with the busy bit starts an operation, which the block completes at
any later moment. The driver is a machine of its own that takes one register access a step; a wait
may give up whenever it has found the block busy. Which request started an operation, and the lists
of what has happened, are kept for the proofs only.
-/

namespace Stmmac

open Library

def miiBusy : BitVec 32 := 0x00000001
def miiWrite : BitVec 32 := 0x00000002

/-- `-EBUSY`. -/
def mdioEbusy : BitVec 32 := -16

/-- `struct mii_regs`: the offsets of the address and the data register. -/
structure MiiRegs where
  addr : Nat
  data : Nat
  addr_ne_data : addr ≠ data

/-- A register of a PHY, as `phyaddr` and `phyreg`. -/
abbrev PhyReg := BitVec 5 × BitVec 5

inductive MdioCall where
  | read (reg : PhyReg)
  | write (reg : PhyReg) (phydata : BitVec 16)

namespace MdioCall

def reg : MdioCall → PhyReg
  | read reg => reg
  | write reg _ => reg

def data : MdioCall → Option (BitVec 16)
  | read _ => none
  | write _ phydata => some phydata

end MdioCall

/-- A call, with its number and the `clk_csr` it finds. -/
structure MdioRequest where
  nr : Nat
  call : MdioCall
  clkCsr : BitVec 32

def mdioFields (phyaddr phyreg : BitVec 32) : BitVec 32 :=
  (phyaddr <<< 11 &&& 0x0000F800) ||| (phyreg <<< 6 &&& 0x000007C0)

/-- The 16 bits written to the address register. -/
def mdioWord (phyaddr phyreg clkCsr : BitVec 32) : MdioCall → BitVec 16
  | .read _ =>
    let regValue : BitVec 16 := (mdioFields phyaddr phyreg).setWidth 16
    (regValue.setWidth 32 ||| (miiBusy ||| (clkCsr &&& 0xF) <<< 2)).setWidth 16
  | .write _ _ =>
    let value : BitVec 16 := (mdioFields phyaddr phyreg ||| miiWrite).setWidth 16
    (value.setWidth 32 ||| (miiBusy ||| (clkCsr &&& 0xF) <<< 2)).setWidth 16

def MdioRequest.word (req : MdioRequest) : BitVec 32 :=
  (mdioWord (req.call.reg.1.setWidth 32) (req.call.reg.2.setWidth 32) req.clkCsr
    req.call).setWidth 32

/-- An operation that the block has performed. -/
structure Performed where
  nr : Nat
  reg : PhyReg
  wrote : Option (BitVec 16)

/-- A write to a register of the block. -/
structure MiiWrite where
  req : MdioRequest
  value : BitVec 32
  offset : Nat
  inProgress : Bool

/-- The next register access of the driver. -/
inductive MdioPc where
  | idle
  | waitFree (req : MdioRequest)
  | setData (req : MdioRequest) (phydata : BitVec 16)
  | setAddress (req : MdioRequest)
  | waitDone (req : MdioRequest)
  | getData (req : MdioRequest)

structure Mdio where
  regs : Regs
  phy : PhyReg → BitVec 16
  /-- The operation in progress, as the address word that started it. -/
  op : Option (MdioRequest × BitVec 32)
  pc : MdioPc
  calls : Nat
  writes : List MiiWrite
  performed : List Performed
  returned : List (MdioRequest × BitVec 32)

variable (mii : MiiRegs)

def mdioWritel (req : MdioRequest) (value : BitVec 32) (offset : Nat) (s : Mdio) : Mdio :=
  { s with
    regs := writel s.regs value offset
    op := if offset = mii.addr ∧ hasBit value miiBusy then some (req, value) else s.op
    writes := s.writes ++ [⟨req, value, offset, s.op.isSome⟩] }

/-- The block performs the operation in progress and clears its busy bit. -/
def mdioComplete (s : Mdio) : Option Mdio :=
  s.op.map fun (req, word) =>
    let reg : PhyReg := (word.extractLsb' 11 5, word.extractLsb' 6 5)
    let regs := writel s.regs (readl s.regs mii.addr &&& ~~~miiBusy) mii.addr
    if hasBit word miiWrite then
      let value := (readl s.regs mii.data).setWidth 16
      { s with
        regs := regs
        phy := Function.update s.phy reg value
        op := none
        performed := s.performed ++ [⟨req.nr, reg, some value⟩] }
    else
      { s with
        regs := writel regs ((s.phy reg).setWidth 32) mii.data
        op := none
        performed := s.performed ++ [⟨req.nr, reg, none⟩] }

def mdioReturn (req : MdioRequest) (result : BitVec 32) (s : Mdio) : Mdio :=
  { s with pc := .idle, returned := s.returned ++ [(req, result)] }

/-- One round of `stmmac_mdio_busy_wait` for a caller that returns `-EBUSY` if it fails. -/
def stmmacMdioBusyWait (timeout : Bool) (req : MdioRequest) (next : Mdio) (s : Mdio) : Mdio :=
  if hasBit (readl s.regs mii.addr) miiBusy then
    if timeout then mdioReturn req mdioEbusy s else s
  else next

/-- One register access of `stmmac_mdio_read` or `stmmac_mdio_write`. -/
def mdioAccess (timeout : Bool) (s : Mdio) : Option Mdio :=
  match s.pc with
  | .idle => none
  | .waitFree req =>
    let next := match req.call with
      | .read _ => .setAddress req
      | .write _ phydata => .setData req phydata
    some (stmmacMdioBusyWait mii timeout req { s with pc := next } s)
  | .setData req phydata =>
    some { mdioWritel mii req (phydata.setWidth 32) mii.data s with pc := .setAddress req }
  | .setAddress req => some { mdioWritel mii req req.word mii.addr s with pc := .waitDone req }
  | .waitDone req =>
    let next := match req.call with
      | .read _ => { s with pc := .getData req }
      | .write _ _ => mdioReturn req 0 s
    some (stmmacMdioBusyWait mii timeout req next s)
  | .getData req => some (mdioReturn req (readl s.regs mii.data) s)

inductive MdioAct where
  | call (call : MdioCall) (clkCsr : BitVec 32)
  | access (timeout : Bool)
  | complete

/-- Calls are made one after the other. -/
def mdioStep (s : Mdio) : MdioAct → Option Mdio
  | .call call clkCsr => match s.pc with
    | .idle => some { s with pc := .waitFree ⟨s.calls, call, clkCsr⟩, calls := s.calls + 1 }
    | _ => none
  | .access timeout => mdioAccess mii timeout s
  | .complete => mdioComplete mii s

/-- No call made yet, no operation in progress. -/
def Mdio.start (regs : Regs) (phy : PhyReg → BitVec 16) : Mdio where
  regs := regs
  phy := phy
  op := none
  pc := .idle
  calls := 0
  writes := []
  performed := []
  returned := []

/-- The content of a PHY register after operations: the value of the last write to it. -/
def phyContent (phy : PhyReg → BitVec 16) (performed : List Performed) (reg : PhyReg) :
    BitVec 16 :=
  (latest (fun p : Performed => if p.reg = reg then p.wrote else none) performed).getD (phy reg)

theorem phyContent_concat (phy : PhyReg → BitVec 16) (performed : List Performed) (nr : Nat)
    (reg reg' : PhyReg) (wrote : Option (BitVec 16)) :
    phyContent phy (performed ++ [⟨nr, reg', wrote⟩]) reg =
      if reg' = reg then wrote.getD (phyContent phy performed reg)
      else phyContent phy performed reg := by
  unfold phyContent
  rw [latest_concat]
  dsimp only
  split_ifs
  · cases wrote <;> rfl
  · rfl

/-! ## The address word -/

section Word

variable (req : MdioRequest)

theorem getLsbD_fields (phyaddr phyreg : BitVec 5) {i : Nat} (hi : i < 32) :
    (mdioFields (phyaddr.setWidth 32) (phyreg.setWidth 32)).getLsbD i =
      if i < 6 then false else if i < 11 then phyreg.getLsbD (i - 6)
      else phyaddr.getLsbD (i - 11) := by
  have hmask : ∀ i < 32, (0x0000F800 : BitVec 32).getLsbD i = decide (11 ≤ i ∧ i < 16) := by
    decide
  have hmask' : ∀ i < 32, (0x000007C0 : BitVec 32).getLsbD i = decide (6 ≤ i ∧ i < 11) := by
    decide
  have hsub : i - 11 < 32 ∧ i - 6 < 32 := by omega
  have hout : ∀ (x : BitVec 5) (j : Nat), 5 ≤ j → x.getLsbD j = false :=
    fun x j hj => BitVec.getLsbD_of_ge x j hj
  unfold mdioFields
  simp only [BitVec.getLsbD_or, BitVec.getLsbD_and, BitVec.getLsbD_shiftLeft,
    BitVec.getLsbD_setWidth, hmask' i hi, hi, hsub, decide_true, Bool.true_and]
  grind

/-- The five fields, bit by bit. -/
theorem getLsbD_word {i : Nat} (hi : i < 32) : req.word.getLsbD i =
    (decide (i < 16) && if i < 1 then true else if i < 2 then req.call.data.isSome
      else if i < 6 then req.clkCsr.getLsbD (i - 2)
      else if i < 11 then req.call.reg.2.getLsbD (i - 6)
      else req.call.reg.1.getLsbD (i - 11)) := by
  have hclk : ∀ i < 32, (0xF : BitVec 32).getLsbD i = decide (i < 4) := by decide
  have hbusy : ∀ i < 32, miiBusy.getLsbD i = decide (i < 1) := by decide
  have hwrite : ∀ i < 32, miiWrite.getLsbD i = decide (i = 1) := by decide
  have hsub : i - 2 < 32 := by omega
  obtain ⟨nr, call, clkCsr⟩ := req
  unfold MdioRequest.word mdioWord
  cases call <;>
  · simp only [MdioCall.reg, MdioCall.data, BitVec.getLsbD_or, BitVec.getLsbD_and,
      BitVec.getLsbD_shiftLeft, BitVec.getLsbD_setWidth, getLsbD_fields _ _ hi, hclk _ hsub,
      hbusy i hi, hwrite i hi, hi, decide_true, Bool.true_and]
    grind

/-- A test of the bit in position `k`. -/
theorem hasBit_eq_getLsbD {bit : BitVec 32} {k : Nat} (hk : k < 32)
    (hbit : ∀ i < 32, bit.getLsbD i = decide (i = k)) (w : BitVec 32) :
    hasBit w bit = w.getLsbD k := by
  unfold hasBit
  cases hw : w.getLsbD k with
  | true =>
    refine bne_iff_ne.mpr fun hzero => ?_
    have := congrArg (·.getLsbD k) hzero
    simp [hw, hbit k hk] at this
  | false =>
    rw [bne_eq_false_iff_eq]
    apply BitVec.eq_of_getLsbD_eq
    intro i hi
    rw [BitVec.getLsbD_and, hbit i hi]
    by_cases h : i = k
    · simp [h, hw]
    · simp [h]

theorem word_busy : hasBit req.word miiBusy = true := by
  rw [hasBit_eq_getLsbD (by decide) (by decide : ∀ i < 32, miiBusy.getLsbD i = decide (i = 0)),
    getLsbD_word req (by decide)]
  rfl

theorem word_write : hasBit req.word miiWrite = req.call.data.isSome := by
  rw [hasBit_eq_getLsbD (by decide) (by decide : ∀ i < 32, miiWrite.getLsbD i = decide (i = 1)),
    getLsbD_word req (by decide)]
  rfl

theorem word_reg : (req.word.extractLsb' 11 5, req.word.extractLsb' 6 5) = req.call.reg := by
  refine Prod.ext ?_ ?_ <;> apply BitVec.eq_of_getLsbD_eq <;> intro i hi
  · rw [BitVec.getLsbD_extractLsb', getLsbD_word req (by omega)]
    grind
  · rw [BitVec.getLsbD_extractLsb', getLsbD_word req (by omega)]
    grind

/-- The clock field is `clk_csr & 0xF`. -/
theorem word_clk : (req.word.extractLsb' 2 4).setWidth 32 = req.clkCsr &&& 0xF := by
  have hclk : ∀ i < 32, (0xF : BitVec 32).getLsbD i = decide (i < 4) := by decide
  apply BitVec.eq_of_getLsbD_eq
  intro i hi
  rw [BitVec.getLsbD_setWidth, BitVec.getLsbD_extractLsb', BitVec.getLsbD_and, hclk i hi]
  by_cases h : i < 4
  · rw [getLsbD_word req (by omega)]
    grind
  · simp [h]

end Word

end Stmmac
