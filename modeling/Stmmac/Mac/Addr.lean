import Stmmac.Library.History
import Stmmac.Mac.Regs

/-!
# MAC address registers

A MAC address occupies two registers, the bytes in ascending order from the least significant byte
of the low one; bit 31 of the high one enables it. Writing an address register overwrites the pair
of words and no other register, and reading it inverts the packing.
-/

namespace Stmmac

open Library

/-- `u8 addr[6]`. -/
abbrev MacAddr := Vector (BitVec 8) 6

/-- `GMAC_HI_REG_AE`, as an `unsigned long`. -/
def gmacHiRegAe : BitVec 64 := 0x80000000

/-- The bytes are promoted to `int`, shifted and combined there; the result is sign-extended to
`unsigned long` and cut off by `writel`. -/
def stmmacSetMacAddr (regs : Regs) (addr : MacAddr) (high low : Nat) : Regs :=
  let data : BitVec 64 := (addr[5].setWidth 32 <<< 8 ||| addr[4].setWidth 32).signExtend 64
  let regs := writel regs ((data ||| gmacHiRegAe).setWidth 32) high
  let data : BitVec 64 := (addr[3].setWidth 32 <<< 24 ||| addr[2].setWidth 32 <<< 16 |||
    addr[1].setWidth 32 <<< 8 ||| addr[0].setWidth 32).signExtend 64
  writel regs (data.setWidth 32) low

def stmmacGetMacAddr (regs : Regs) (high low : Nat) : MacAddr :=
  let hiAddr := readl regs high
  let loAddr := readl regs low
  #v[(loAddr &&& 0xff).setWidth 8, (loAddr >>> 8 &&& 0xff).setWidth 8,
    (loAddr >>> 16 &&& 0xff).setWidth 8, (loAddr >>> 24 &&& 0xff).setWidth 8,
    (hiAddr &&& 0xff).setWidth 8, (hiAddr >>> 8 &&& 0xff).setWidth 8]

def dwmac1000SetUmacAddr (regs : Regs) (addr : MacAddr) (regN : Nat) : Regs :=
  stmmacSetMacAddr regs addr (gmacAddrHigh regN) (gmacAddrLow regN)

def dwmac1000GetUmacAddr (regs : Regs) (regN : Nat) : MacAddr :=
  stmmacGetMacAddr regs (gmacAddrHigh regN) (gmacAddrLow regN)

/-- The enable bit of an address register. -/
def addrEnabled (regs : Regs) (regN : Nat) : Bool :=
  hasBit (readl regs (gmacAddrHigh regN)) (gmacHiRegAe.setWidth 32)

/-- What an address register holds: the address, and whether it is enabled. -/
def addrPair (regs : Regs) (regN : Nat) : MacAddr × Bool :=
  (dwmac1000GetUmacAddr regs regN, addrEnabled regs regN)

/-! ## Packing -/

section Packing

theorem getLsbD_byte (w : BitVec 32) (k : Nat) {i : Nat} (hi : i < 8) :
    ((w >>> k &&& 0xff).setWidth 8).getLsbD i = w.getLsbD (k + i) := by
  have hmask : ∀ i < 8, (0xff : BitVec 32).getLsbD i = true := by decide
  rw [BitVec.getLsbD_setWidth, BitVec.getLsbD_and, hmask i hi, BitVec.getLsbD_ushiftRight]
  simp [hi]

variable (a b c d : BitVec 8)

/-- A byte of a word, from its bits. -/
theorem byte_eq {w : BitVec 32} {k : Nat} {x : BitVec 8}
    (hx : ∀ i < 8, w.getLsbD (k + i) = x.getLsbD i) : (w >>> k &&& 0xff).setWidth 8 = x := by
  apply BitVec.eq_of_getLsbD_eq
  intro i hi
  rw [getLsbD_byte w k hi, hx i hi]

theorem lowByte_eq {w : BitVec 32} {x : BitVec 8} (hx : ∀ i < 8, w.getLsbD i = x.getLsbD i) :
    (w &&& 0xff).setWidth 8 = x := by
  have := byte_eq (w := w) (k := 0) (x := x) (by simpa using hx)
  simpa using this

/-- The low word, bit by bit. -/
theorem getLsbD_lowWord {i : Nat} (hi : i < 32) :
    (((a.setWidth 32 <<< 24 ||| b.setWidth 32 <<< 16 ||| c.setWidth 32 <<< 8 |||
      d.setWidth 32).signExtend 64).setWidth 32).getLsbD i =
      if i < 8 then d.getLsbD i else if i < 16 then c.getLsbD (i - 8)
      else if i < 24 then b.getLsbD (i - 16) else a.getLsbD (i - 24) := by
  have hsub : i - 24 < 32 ∧ i - 16 < 32 ∧ i - 8 < 32 := by omega
  have hout : ∀ (x : BitVec 8) (j : Nat), 8 ≤ j → x.getLsbD j = false :=
    fun x j hj => BitVec.getLsbD_of_ge x j hj
  simp only [BitVec.getLsbD_setWidth, BitVec.getLsbD_signExtend, BitVec.getLsbD_or,
    BitVec.getLsbD_shiftLeft, hi, decide_true, Bool.true_and, hsub, if_true]
  grind

/-- The bytes in the high word, and its enable bit. -/
theorem getLsbD_highWord {i : Nat} (hi : i < 32) :
    (((a.setWidth 32 <<< 8 ||| b.setWidth 32).signExtend 64 ||| gmacHiRegAe).setWidth 32).getLsbD
        i = if i < 8 then b.getLsbD i else if i < 16 then a.getLsbD (i - 8) else i == 31 := by
  have hsub : i - 8 < 32 := by omega
  have hout : ∀ (x : BitVec 8) (j : Nat), 8 ≤ j → x.getLsbD j = false :=
    fun x j hj => BitVec.getLsbD_of_ge x j hj
  have hae : ∀ i < 32, gmacHiRegAe.getLsbD i = (i == 31) := by decide
  simp only [BitVec.getLsbD_setWidth, BitVec.getLsbD_signExtend, BitVec.getLsbD_or,
    BitVec.getLsbD_shiftLeft, hi, decide_true, Bool.true_and, hsub, if_true, hae i hi]
  grind

end Packing

/-! ## One pair of registers -/

section Pair

variable (regs : Regs) (addr : MacAddr) {high low off : Nat}

theorem readl_set_of_ne (hhigh : off ≠ high) (hlow : off ≠ low) :
    readl (stmmacSetMacAddr regs addr high low) off = readl regs off := by
  simp [stmmacSetMacAddr, hhigh, hlow]

/-- Reading inverts the packing. -/
theorem get_set_macAddr (hne : high ≠ low) :
    stmmacGetMacAddr (stmmacSetMacAddr regs addr high low) high low = addr := by
  unfold stmmacGetMacAddr stmmacSetMacAddr
  simp only [readl_writel_self, readl_writel_of_ne _ _ hne]
  have hlo : ∀ i < 32, _ := fun i hi => getLsbD_lowWord addr[3] addr[2] addr[1] addr[0] hi
  have hhi : ∀ i < 32, _ := fun i hi => getLsbD_highWord addr[5] addr[4] hi
  apply Vector.ext
  intro i hi
  obtain rfl | rfl | rfl | rfl | rfl | rfl :
    i = 0 ∨ i = 1 ∨ i = 2 ∨ i = 3 ∨ i = 4 ∨ i = 5 := by omega
  · exact lowByte_eq (by grind)
  · exact byte_eq (by grind)
  · exact byte_eq (by grind)
  · exact byte_eq (by grind)
  · exact lowByte_eq (by grind)
  · exact byte_eq (by grind)

theorem enabled_set (hne : high ≠ low) :
    hasBit (readl (stmmacSetMacAddr regs addr high low) high) (gmacHiRegAe.setWidth 32) = true := by
  unfold stmmacSetMacAddr hasBit
  simp only [readl_writel_self, readl_writel_of_ne _ _ hne, bne_iff_ne]
  intro hzero
  have hbit := congrArg (·.getLsbD 31) hzero
  have hae : (gmacHiRegAe.setWidth 32).getLsbD 31 = true := by decide
  rw [BitVec.getLsbD_and, getLsbD_highWord _ _ (by decide : 31 < 32), hae] at hbit
  simp at hbit

end Pair

/-! ## All pairs -/

section Offsets

theorem addrHigh_ne_low (n m : Nat) : gmacAddrHigh n ≠ gmacAddrLow m := by
  unfold gmacAddrHigh gmacAddrLow
  split_ifs <;> omega

theorem addrHigh_inj {n m : Nat} : gmacAddrHigh n = gmacAddrHigh m ↔ n = m := by
  unfold gmacAddrHigh
  split_ifs <;> omega

theorem addrLow_inj {n m : Nat} : gmacAddrLow n = gmacAddrLow m ↔ n = m := by
  unfold gmacAddrLow
  split_ifs <;> omega

/-- No named register is an address register. -/
theorem named_ne_addr {off : Nat} (hoff : off ∈ gmacNamedRegs) (n : Nat) :
    off ≠ gmacAddrHigh n ∧ off ≠ gmacAddrLow n := by
  have hgap : ∀ off ∈ gmacNamedRegs, off < 0x40 ∨ 0xbc < off ∧ off < 0x880 := by decide
  have := hgap off hoff
  unfold gmacAddrHigh gmacAddrLow
  split_ifs <;> omega

end Offsets

section Umac

variable (regs : Regs) (addr : MacAddr) {n m off : Nat}

theorem readl_setUmac_of_ne (hhigh : off ≠ gmacAddrHigh n) (hlow : off ≠ gmacAddrLow n) :
    readl (dwmac1000SetUmacAddr regs addr n) off = readl regs off :=
  readl_set_of_ne regs addr hhigh hlow

/-- Registers that agree on a pair hold the same address there. -/
theorem addrPair_congr {regs regs' : Regs}
    (hhigh : readl regs' (gmacAddrHigh n) = readl regs (gmacAddrHigh n))
    (hlow : readl regs' (gmacAddrLow n) = readl regs (gmacAddrLow n)) :
    addrPair regs' n = addrPair regs n := by
  simp only [addrPair, dwmac1000GetUmacAddr, stmmacGetMacAddr, addrEnabled, hhigh, hlow]

/-- Writing an address register changes what that one holds. -/
theorem addrPair_setUmac :
    addrPair (dwmac1000SetUmacAddr regs addr m) n =
      if m = n then (addr, true) else addrPair regs n := by
  split
  · next hm =>
    subst hm
    exact Prod.ext (get_set_macAddr regs addr (addrHigh_ne_low m m))
      (enabled_set regs addr (addrHigh_ne_low m m))
  · next hm =>
    have hne : n ≠ m := Ne.symm hm
    exact addrPair_congr
      (readl_setUmac_of_ne _ _ (addrHigh_inj.not.mpr hne) (addrHigh_ne_low n m))
      (readl_setUmac_of_ne _ _ (addrHigh_ne_low m n).symm (addrLow_inj.not.mpr hne))

/-- Writes to named registers leave every pair alone. -/
theorem addrPair_writel (value : BitVec 32) (hoff : off ∈ gmacNamedRegs) (n : Nat) :
    addrPair (writel regs value off) n = addrPair regs n :=
  addrPair_congr
    (readl_writel_of_ne _ _ (named_ne_addr hoff n).1.symm)
    (readl_writel_of_ne _ _ (named_ne_addr hoff n).2.symm)

end Umac

/-! ## The calls -/

/-- The registers and `net_priv.macaddr`. -/
structure AddrState where
  regs : Regs
  macaddr : MacAddr

/-- `Isvalid` of `gmac_ctrl.c`, on a byte widened to `unsigned int`. -/
def isvalid (x : BitVec 32) : Int := if x ≤ 0xff then 0 else -1

/-- The loop of `setMacAddr` over the bytes not yet copied, with the value it returns from there. -/
def copyMacAddr (data : MacAddr) : List (Fin 6) → MacAddr → MacAddr × Int
  | [], macaddr => (macaddr, 0)
  | i :: is, macaddr =>
    if isvalid (data[i].setWidth 32) = 0 then copyMacAddr data is (macaddr.set i data[i])
    else (macaddr, -2)

/-- `none` is the `NULL` pointer. -/
def setMacAddr (s : AddrState) (data : Option MacAddr) : AddrState × Int :=
  match data with
  | none => (s, -1)
  | some data =>
    match copyMacAddr data (List.finRange 6) s.macaddr with
    | (macaddr, 0) =>
      ({ regs := dwmac1000SetUmacAddr s.regs macaddr 0, macaddr := macaddr }, 0)
    | (macaddr, ret) => ({ s with macaddr := macaddr }, ret)

/-- The buffer it fills, and the return value. -/
def getMacAddr (s : AddrState) : MacAddr × Int := (dwmac1000GetUmacAddr s.regs 0, 0)

inductive AddrCall where
  | setUmacAddr (addr : MacAddr) (regN : Fin 32)
  | setMacAddr (data : Option MacAddr)
  | coreInit
  | setMac (enable : Bool)

def addrCall (s : AddrState) : AddrCall → AddrState
  | .setUmacAddr addr regN => { s with regs := dwmac1000SetUmacAddr s.regs addr regN }
  | .setMacAddr data => (setMacAddr s data).1
  | .coreInit => { s with regs := dwmac1000CoreInit s.regs }
  | .setMac enable => { s with regs := stmmacSetMac s.regs enable }

/-- The address a call writes to register number `n`. -/
def wroteAddr (n : Fin 32) : AddrCall → Option MacAddr
  | .setUmacAddr addr regN => if regN = n then some addr else none
  | .setMacAddr data => if n = 0 then data else none
  | .coreInit => none
  | .setMac _ => none

theorem isvalid_byte (x : BitVec 8) : isvalid (x.setWidth 32) = 0 := by
  have hle : x.setWidth 32 ≤ 0xff#32 := by
    have := x.isLt
    bv_omega
  exact if_pos hle

/-- Every byte passes its check: the bytes at the indices of the loop are copied. -/
theorem copyMacAddr_spec (data : MacAddr) (is : List (Fin 6)) (macaddr : MacAddr) :
    (copyMacAddr data is macaddr).2 = 0 ∧
      (∀ j ∈ is, (copyMacAddr data is macaddr).1[j] = data[j]) ∧
      ∀ j ∉ is, (copyMacAddr data is macaddr).1[j] = macaddr[j] := by
  induction is generalizing macaddr with
  | nil => simp [copyMacAddr]
  | cons i is ih =>
    simp only [copyMacAddr, isvalid_byte, if_true]
    obtain ⟨hret, hcopy, hkeep⟩ := ih (macaddr.set i data[i])
    refine ⟨hret, fun j hj => ?_, fun j hj => ?_⟩
    · by_cases hrest : j ∈ is
      · exact hcopy j hrest
      · obtain rfl := (List.mem_cons.mp hj).resolve_right hrest
        rw [hkeep j hrest]
        simp
    · rw [List.mem_cons, not_or] at hj
      have hne : (i : Nat) ≠ j := fun he => hj.1 (Fin.ext he.symm)
      rw [hkeep j hj.2]
      simp [hne]

theorem copyMacAddr_eq (data macaddr : MacAddr) :
    copyMacAddr data (List.finRange 6) macaddr = (data, 0) := by
  obtain ⟨hret, hcopy, -⟩ := copyMacAddr_spec data (List.finRange 6) macaddr
  refine Prod.ext (Vector.ext fun i hi => ?_) hret
  exact hcopy ⟨i, hi⟩ (List.mem_finRange _)

theorem setMacAddr_eq (s : AddrState) (data : MacAddr) :
    setMacAddr s (some data) =
      ({ regs := dwmac1000SetUmacAddr s.regs data 0, macaddr := data }, 0) := by
  simp [setMacAddr, copyMacAddr_eq]

/-- An address register after a call. -/
theorem addrCall_pair (s : AddrState) (a : AddrCall) (n : Fin 32) :
    addrPair (addrCall s a).regs n =
      ((wroteAddr n a).map (·, true)).getD (addrPair s.regs n) := by
  cases a with
  | setUmacAddr addr regN =>
    simp only [addrCall, wroteAddr, addrPair_setUmac, ← Fin.ext_iff]
    split <;> rfl
  | setMacAddr data =>
    cases data with
    | none => simp [addrCall, setMacAddr, wroteAddr]
    | some data =>
      have hzero : (0 : Nat) = n ↔ n = 0 := by rw [Fin.ext_iff]; exact eq_comm
      simp only [addrCall, setMacAddr_eq, wroteAddr, addrPair_setUmac, hzero]
      split <;> rfl
  | coreInit =>
    simp only [addrCall, dwmac1000CoreInit, wroteAddr, Option.map_none, Option.getD_none]
    rw [addrPair_writel _ _ (by decide), addrPair_writel _ _ (by decide)]
  | setMac enable =>
    simp only [addrCall, stmmacSetMac, wroteAddr, Option.map_none, Option.getD_none]
    rw [addrPair_writel _ _ (by decide)]

/-- An address write leaves every register but its own two alone. -/
theorem addrCall_frame (s : AddrState) {a : AddrCall} {n : Fin 32} {off : Nat}
    (ha : (wroteAddr n a).isSome) (hhigh : off ≠ gmacAddrHigh n) (hlow : off ≠ gmacAddrLow n) :
    readl (addrCall s a).regs off = readl s.regs off := by
  cases a with
  | setUmacAddr addr regN =>
    obtain rfl : regN = n := by
      by_contra hne
      simp [wroteAddr, hne] at ha
    exact readl_setUmac_of_ne s.regs addr hhigh hlow
  | setMacAddr data =>
    cases data with
    | none => simp [wroteAddr] at ha
    | some data =>
      obtain rfl : n = 0 := by
        by_contra hne
        simp [wroteAddr, hne] at ha
      simp only [addrCall, setMacAddr_eq]
      exact readl_setUmac_of_ne s.regs data hhigh hlow
  | coreInit => simp [wroteAddr] at ha
  | setMac enable => simp [wroteAddr] at ha

/-- After every sequence of calls, each register number written holds the last address written to
it, enabled; and an address write changes no other register. -/
theorem mac_addr_round_trip (s : AddrState) (as : List AddrCall) :
    let t := as.foldl addrCall s
    (∀ (n : Fin 32) (addr : MacAddr), latest (wroteAddr n) as = some addr →
        dwmac1000GetUmacAddr t.regs n = addr ∧ addrEnabled t.regs n = true) ∧
      (∀ addr, latest (wroteAddr 0) as = some addr → getMacAddr t = (addr, 0)) ∧
      ∀ (a : AddrCall) (n : Fin 32), (wroteAddr n a).isSome → ∀ off,
        off ∈ gmacNamedRegs ∨ (off ≠ gmacAddrHigh n ∧ off ≠ gmacAddrLow n) →
          readl (addrCall t a).regs off = readl t.regs off := by
  intro t
  have hpair : ∀ (n : Fin 32) (addr : MacAddr), latest (wroteAddr n) as = some addr →
      dwmac1000GetUmacAddr t.regs n = addr ∧ addrEnabled t.regs n = true := by
    intro n addr hlast
    let read (s : AddrState) : MacAddr × Bool := addrPair s.regs n
    have hstep : ∀ s, ∀ a ∈ as, read (addrCall s a) =
        ((wroteAddr n a).map (·, true)).getD (read s) := fun s a _ => addrCall_pair s a n
    have hcell : read t = _ := foldl_latest read hstep
    rw [latest_map, hlast] at hcell
    exact Prod.mk.inj hcell
  refine ⟨hpair, fun addr hlast => ?_, fun a n ha off hoff => ?_⟩
  · exact congrArg (·, 0) (hpair 0 addr hlast).1
  · rcases hoff with hnamed | ⟨hhigh, hlow⟩
    · exact addrCall_frame t ha (named_ne_addr hnamed n).1 (named_ne_addr hnamed n).2
    · exact addrCall_frame t ha hhigh hlow

end Stmmac
