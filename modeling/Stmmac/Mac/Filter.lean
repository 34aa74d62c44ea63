import Mathlib.Data.Finset.Card
import Mathlib.Data.Finset.Range
import Stmmac.Mac.Addr

/-!
# The receive filter

`dwmac1000_set_filter` programs the filter register, the hash table and the address registers from
the flags and lists of the net device. The first two are rewritten whenever they matter. The
address registers are written from number 1 on, one for each unicast address, and none is ever
disabled: what a longer list left in the registers after the current one is accepted still. A core
has 32 address registers, or 16, and a write beyond them goes nowhere.
-/

namespace Stmmac

open Library

/-- What `dwmac1000_set_filter` is called with: the fields of the net device, and the core id. -/
structure FilterCall where
  flags : BitVec 32
  mc : List MacAddr
  uc : List MacAddr
  id : Int
  deriving DecidableEq

def iffPromisc : BitVec 32 := 0x100
def iffAllmulti : BitVec 32 := 0x200

def gmacFrameFilterPr : BitVec 32 := 0x1
def gmacFrameFilterHmc : BitVec 32 := 0x4
def gmacFrameFilterPm : BitVec 32 := 0x10

def hashTableSize : Nat := 64
def dwmacCore340 : Int := 0x34
def gmacMaxPerfectAddresses : Nat := 32

/-! ## The hash of an address -/

/-- One bit of `crc32_le`, with the polynomial of IEEE 802.3. -/
def crc32Bit (crc : BitVec 32) : BitVec 32 :=
  (crc >>> 1) ^^^ (if crc.getLsbD 0 then 0xedb88320 else 0)

def crc32Le (crc : BitVec 32) (p : List (BitVec 8)) : BitVec 32 :=
  p.foldl (fun crc byte => crc32Bit^[8] (crc ^^^ byte.setWidth 32)) crc

def bitrev32 (x : BitVec 32) : BitVec 32 := x.reverse

/-- `bit_nr`, the place of an address in the hash table. -/
def hashBitNr (addr : MacAddr) : Nat :=
  (bitrev32 (~~~ crc32Le (~~~ 0) addr.toList) >>> 26).toNat

/-- The array `mc_filter` after the loop over the multicast list. -/
def mcFilter (mc : List MacAddr) : Nat → BitVec 32 :=
  mc.foldl (fun filter ha =>
    let bitNr := hashBitNr ha
    Function.update filter (bitNr >>> 5) (filter (bitNr >>> 5) ||| 1#32 <<< (bitNr &&& 31)))
    fun _ => 0

/-- The check value of the CRC. -/
example : crc32Le (~~~ 0) [0x31, 0x32, 0x33, 0x34, 0x35, 0x36, 0x37, 0x38, 0x39] =
    ~~~ 0xcbf43926 := by decide +kernel

/-! ## Programming the filter -/

def perfectAddrNumber (id : Int) : Nat :=
  if id > dwmacCore340 then gmacMaxPerfectAddresses else gmacMaxPerfectAddresses / 2

/-- The number of address registers of a core. -/
def addrRegs (id : Int) : Nat := if id > dwmacCore340 then 32 else 16

/-- The loop over the unicast list, from register number `reg` on. -/
def setUcAddrs (regs : Regs) : List MacAddr → Nat → Regs
  | [], _ => regs
  | ha :: uc, reg => setUcAddrs (dwmac1000SetUmacAddr regs ha reg) uc (reg + 1)

/-- The first part: the mode, and the hash table where it is used. -/
def setMulticast (regs : Regs) (dev : FilterCall) : BitVec 32 × Regs :=
  if hasBit dev.flags iffPromisc then (gmacFrameFilterPr, regs)
  else if dev.mc.length > hashTableSize || hasBit dev.flags iffAllmulti then
    let regs := writel regs 0xffffffff gmacHashHigh
    (gmacFrameFilterPm, writel regs 0xffffffff gmacHashLow)
  else if dev.mc ≠ [] then
    let regs := writel regs (mcFilter dev.mc 0) gmacHashLow
    (gmacFrameFilterHmc, writel regs (mcFilter dev.mc 1) gmacHashHigh)
  else (0, regs)

def dwmac1000SetFilter (regs : Regs) (dev : FilterCall) : Regs :=
  let (value, regs) := setMulticast regs dev
  let (value, regs) :=
    if dev.uc.length > perfectAddrNumber dev.id then (value ||| gmacFrameFilterPr, regs)
    else (value, setUcAddrs regs dev.uc 1)
  writel regs value gmacFrameFilter

/-! ## What the filter accepts -/

def isMulticast (addr : MacAddr) : Bool := (addr.get 0).getLsbD 0

/-- The bit of an address in the hash registers. -/
def hashHit (regs : Regs) (addr : MacAddr) : Bool :=
  let bitNr := hashBitNr addr
  (readl regs (if bitNr >>> 5 = 0 then gmacHashLow else gmacHashHigh)).getLsbD (bitNr &&& 31)

/-- What the filter of a core lets through. -/
def Accepts (id : Int) (regs : Regs) (addr : MacAddr) : Prop :=
  let value := readl regs gmacFrameFilter
  hasBit value gmacFrameFilterPr ∨
    (isMulticast addr ∧
      (hasBit value gmacFrameFilterPm ∨ hasBit value gmacFrameFilterHmc ∧ hashHit regs addr)) ∨
    ∃ n < addrRegs id, addrPair regs n = (addr, true)

instance (id : Int) (regs : Regs) (addr : MacAddr) : Decidable (Accepts id regs addr) :=
  inferInstanceAs (Decidable (_ ∨ _ ∧ (_ ∨ _ ∧ _) ∨ ∃ n < _, _ = _))

/-- The registers after a history of calls. -/
def filterAfter (regs : Regs) (hist : List FilterCall) : Regs := hist.foldl dwmac1000SetFilter regs

/-- The filter lets everything through: asked for, or because there are too many addresses. -/
def FilterCall.Promiscuous (dev : FilterCall) : Prop :=
  hasBit dev.flags iffPromisc ∨ perfectAddrNumber dev.id < dev.uc.length

/-- All multicast addresses are let through. -/
def FilterCall.PassAll (dev : FilterCall) : Prop :=
  hashTableSize < dev.mc.length ∨ hasBit dev.flags iffAllmulti

/-- What a call lets through by itself, beside the address in register 0. The unicast addresses
are those for which there is a register. -/
def FilterCall.Lists (dev : FilterCall) (addr : MacAddr) : Prop :=
  isMulticast addr ∧ (dev.PassAll ∨ dev.mc ≠ [] ∧
    (mcFilter dev.mc (hashBitNr addr >>> 5)).getLsbD (hashBitNr addr &&& 31)) ∨
      addr ∈ dev.uc.take (addrRegs dev.id - 1)

/-- The address a call writes to register number `n`. -/
def wroteUc (n : Nat) (dev : FilterCall) : Option MacAddr :=
  if perfectAddrNumber dev.id < dev.uc.length ∨ n = 0 then none else dev.uc[n - 1]?

/-- Register `n` is enabled with the address, by the last call of the history that wrote it, or
from before. -/
def Left (regs : Regs) (hist : List FilterCall) (n : Nat) (addr : MacAddr) : Prop :=
  match latest (wroteUc n) hist with
  | some a => a = addr
  | none => addrPair regs n = (addr, true)

/-- The history left the address in a register beyond those that `dev` writes. -/
def LeftBeyond (regs : Regs) (hist : List FilterCall) (dev : FilterCall) (addr : MacAddr) : Prop :=
  ∃ n < addrRegs dev.id, dev.uc.length < n ∧ Left regs hist n addr

/-! ## One call -/

section Call

variable (regs : Regs) (dev : FilterCall)

theorem addrRegs_pos (id : Int) : 0 < addrRegs id := by
  unfold addrRegs
  split_ifs <;> decide

theorem perfectAddrNumber_eq (id : Int) : perfectAddrNumber id = addrRegs id := rfl

theorem hashBitNr_lt (addr : MacAddr) : hashBitNr addr < 64 := by
  unfold hashBitNr
  have := (bitrev32 (~~~ crc32Le (~~~ 0) addr.toList)).isLt
  rw [BitVec.toNat_ushiftRight, Nat.shiftRight_eq_div_pow]
  omega

theorem setUcAddrs_of_ne (uc : List MacAddr) (reg : Nat) {off : Nat}
    (hoff : ∀ n, reg ≤ n → off ≠ gmacAddrHigh n ∧ off ≠ gmacAddrLow n) :
    readl (setUcAddrs regs uc reg) off = readl regs off := by
  induction uc generalizing regs reg with
  | nil => rfl
  | cons ha uc ih =>
    have hne := hoff reg (Nat.le_refl reg)
    rw [setUcAddrs, ih _ _ fun n hn => hoff n (Nat.le_of_succ_le hn),
      readl_setUmac_of_ne _ _ hne.1 hne.2]

theorem setUcAddrs_named (uc : List MacAddr) (reg : Nat) {off : Nat} (hoff : off ∈ gmacNamedRegs) :
    readl (setUcAddrs regs uc reg) off = readl regs off :=
  setUcAddrs_of_ne regs uc reg fun n _ => named_ne_addr hoff n

/-- The loop writes one register for each address. -/
theorem setUcAddrs_pair (uc : List MacAddr) (reg n : Nat) :
    addrPair (setUcAddrs regs uc reg) n =
      ((if n < reg then none else uc[n - reg]?).map (·, true)).getD (addrPair regs n) := by
  induction uc generalizing regs reg with
  | nil => simp [setUcAddrs]
  | cons ha uc ih =>
    rw [setUcAddrs, ih, addrPair_setUmac]
    rcases Nat.lt_trichotomy n reg with hn | rfl | hn
    · simp [hn, Nat.lt_succ_of_lt hn, Nat.ne_of_gt hn]
    · simp
    · have hsub : n - reg = (n - (reg + 1)) + 1 := by omega
      simp [Nat.not_lt.mpr (Nat.le_of_lt hn), Nat.not_lt.mpr (Nat.succ_le_of_lt hn),
        Nat.ne_of_lt hn, hsub]

theorem setMulticast_pair (n : Nat) :
    addrPair (setMulticast regs dev).2 n = addrPair regs n := by
  have hnamed : gmacHashHigh ∈ gmacNamedRegs ∧ gmacHashLow ∈ gmacNamedRegs := by decide
  unfold setMulticast
  split_ifs <;> simp only [addrPair_writel _ _ hnamed.1, addrPair_writel _ _ hnamed.2]

/-- The mode depends on the call only. -/
theorem setMulticast_fst :
    (setMulticast regs dev).1 =
      if hasBit dev.flags iffPromisc then gmacFrameFilterPr
      else if dev.mc.length > hashTableSize || hasBit dev.flags iffAllmulti then gmacFrameFilterPm
      else if dev.mc ≠ [] then gmacFrameFilterHmc else 0 := by
  unfold setMulticast
  split_ifs <;> rfl

/-- The address registers after a call. -/
theorem setFilter_pair (n : Nat) :
    addrPair (dwmac1000SetFilter regs dev) n =
      ((wroteUc n dev).map (·, true)).getD (addrPair regs n) := by
  have hnamed : gmacFrameFilter ∈ gmacNamedRegs := by decide
  unfold dwmac1000SetFilter wroteUc
  dsimp only
  rw [addrPair_writel _ _ hnamed]
  by_cases hmany : perfectAddrNumber dev.id < dev.uc.length
  · simp [hmany, setMulticast_pair]
  · simp only [gt_iff_lt, hmany, if_false, false_or, setUcAddrs_pair, setMulticast_pair,
      Nat.lt_one_iff]

/-- The filter register after a call. -/
theorem setFilter_value :
    readl (dwmac1000SetFilter regs dev) gmacFrameFilter =
      if perfectAddrNumber dev.id < dev.uc.length then
        (setMulticast regs dev).1 ||| gmacFrameFilterPr else (setMulticast regs dev).1 := by
  unfold dwmac1000SetFilter
  dsimp only
  rw [readl_writel_self]
  split <;> rfl

/-- The hash registers after a call are those that its first part leaves. -/
theorem setFilter_hash (addr : MacAddr) :
    hashHit (dwmac1000SetFilter regs dev) addr = hashHit (setMulticast regs dev).2 addr := by
  have hkeep : ∀ off ∈ [gmacHashLow, gmacHashHigh],
      readl (dwmac1000SetFilter regs dev) off = readl (setMulticast regs dev).2 off := by
    intro off hoff
    have hnamed : ∀ off ∈ [gmacHashLow, gmacHashHigh],
        off ∈ gmacNamedRegs ∧ off ≠ gmacFrameFilter := by decide
    unfold dwmac1000SetFilter
    dsimp only
    rw [readl_writel_of_ne _ _ (hnamed off hoff).2]
    split
    · rfl
    · exact setUcAddrs_named _ _ _ (hnamed off hoff).1
  unfold hashHit
  dsimp only
  split
  · rw [hkeep _ (by simp)]
  · rw [hkeep _ (by simp)]

variable {regs dev} {addr : MacAddr}

theorem promiscuous_iff :
    hasBit (readl (dwmac1000SetFilter regs dev) gmacFrameFilter) gmacFrameFilterPr ↔
      dev.Promiscuous := by
  rw [setFilter_value, setMulticast_fst]
  unfold FilterCall.Promiscuous
  by_cases hmany : perfectAddrNumber dev.id < dev.uc.length
  · simp only [hmany, if_true, or_true, iff_true]
    split_ifs <;> decide
  · simp only [hmany, if_false, or_false]
    by_cases hflag : hasBit dev.flags iffPromisc
    · simp only [hflag, if_true]
      decide
    · simp only [hflag, Bool.false_eq_true, if_false, iff_false]
      split_ifs <;> decide

/-- The multicast addresses that a call lets through. -/
theorem multicast_iff (hpromisc : ¬ dev.Promiscuous) :
    (hasBit (readl (dwmac1000SetFilter regs dev) gmacFrameFilter) gmacFrameFilterPm ∨
        hasBit (readl (dwmac1000SetFilter regs dev) gmacFrameFilter) gmacFrameFilterHmc ∧
          hashHit (dwmac1000SetFilter regs dev) addr) ↔
      dev.PassAll ∨ dev.mc ≠ [] ∧
        (mcFilter dev.mc (hashBitNr addr >>> 5)).getLsbD (hashBitNr addr &&& 31) := by
  obtain ⟨hflag, hmany⟩ := not_or.mp hpromisc
  have hpm : hasBit gmacFrameFilterPm gmacFrameFilterPm = true := by decide
  have hhmc : hasBit gmacFrameFilterHmc gmacFrameFilterPm = false ∧
      hasBit gmacFrameFilterHmc gmacFrameFilterHmc = true := by decide
  have hnone : hasBit 0 gmacFrameFilterPm = false ∧ hasBit 0 gmacFrameFilterHmc = false := by
    decide
  rw [setFilter_value, setFilter_hash, if_neg hmany, setMulticast_fst, if_neg hflag]
  by_cases hall : dev.PassAll
  · have hpass :
        (decide (dev.mc.length > hashTableSize) || hasBit dev.flags iffAllmulti) = true := by
      simpa [FilterCall.PassAll] using hall
    rw [if_pos hpass, hpm]
    simp [hall]
  · have hpass :
        ¬ (decide (dev.mc.length > hashTableSize) || hasBit dev.flags iffAllmulti) = true := by
      simpa [FilterCall.PassAll] using hall
    rw [if_neg hpass]
    by_cases hmc : dev.mc = []
    · rw [if_neg (not_not.mpr hmc), hnone.1, hnone.2]
      simp [hall, hmc]
    · have hhit : hashHit (setMulticast regs dev).2 addr =
          (mcFilter dev.mc (hashBitNr addr >>> 5)).getLsbD (hashBitNr addr &&& 31) := by
        have hlt := hashBitNr_lt addr
        have hword : hashBitNr addr >>> 5 = 0 ∨ hashBitNr addr >>> 5 = 1 := by
          rw [Nat.shiftRight_eq_div_pow]
          omega
        have hne : gmacHashLow ≠ gmacHashHigh := by decide
        unfold hashHit setMulticast
        rw [if_neg hflag, if_neg hpass, if_pos hmc]
        rcases hword with h0 | h1
        · simp [h0, hne]
        · simp [h1]
      rw [if_pos hmc, hhit]
      simp [hall, hmc, hhmc]

/-- The addresses in the registers after a call. -/
theorem registers_iff (hpromisc : ¬ dev.Promiscuous) :
    (∃ n < addrRegs dev.id, addrPair (dwmac1000SetFilter regs dev) n = (addr, true)) ↔
      addr ∈ dev.uc.take (addrRegs dev.id - 1) ∨ ∃ n < addrRegs dev.id,
        (n = 0 ∨ dev.uc.length < n) ∧ addrPair regs n = (addr, true) := by
  obtain ⟨-, hmany⟩ := not_or.mp hpromisc
  simp only [setFilter_pair, wroteUc, hmany, false_or]
  constructor
  · rintro ⟨n, hn, hpair⟩
    by_cases hzero : n = 0
    · exact .inr ⟨n, hn, .inl hzero, by simpa [hzero] using hpair⟩
    · rcases Nat.lt_or_ge (n - 1) dev.uc.length with hlt | hge
      · refine .inl ?_
        rw [if_neg hzero, List.getElem?_eq_getElem hlt] at hpair
        have haddr : dev.uc[n - 1] = addr := by simpa using hpair
        exact List.mem_take_iff_getElem.mpr ⟨n - 1, by omega, haddr⟩
      · rw [if_neg hzero, List.getElem?_eq_none hge] at hpair
        exact .inr ⟨n, hn, .inr (by omega), by simpa using hpair⟩
  · rintro (hmem | ⟨n, hn, hout, hpair⟩)
    · obtain ⟨i, hi, rfl⟩ := List.mem_take_iff_getElem.mp hmem
      have hi' : i < dev.uc.length := by omega
      exact ⟨i + 1, by omega, by simp [hi']⟩
    · refine ⟨n, hn, ?_⟩
      rcases hout with hzero | hlt
      · simpa [hzero] using hpair
      · have hnone : dev.uc[n - 1]? = none := List.getElem?_eq_none (by omega)
        simpa [hnone, show n ≠ 0 by omega] using hpair

/-- What the filter accepts after a call: what the call asks for, what register 0 holds, and what
is in the registers that the call does not write. -/
theorem accepts_setFilter :
    Accepts dev.id (dwmac1000SetFilter regs dev) addr ↔
      dev.Promiscuous ∨ dev.Lists addr ∨ ∃ n < addrRegs dev.id,
        (n = 0 ∨ dev.uc.length < n) ∧ addrPair regs n = (addr, true) := by
  unfold Accepts FilterCall.Lists
  dsimp only
  rw [promiscuous_iff]
  by_cases hpromisc : dev.Promiscuous
  · simp [hpromisc]
  · rw [multicast_iff hpromisc, registers_iff hpromisc]
    simp only [hpromisc, false_or, or_assoc]

end Call

/-! ## Histories -/

section Histories

variable {regs : Regs} {hist hist₁ hist₂ : List FilterCall} {dev : FilterCall} {addr : MacAddr}

/-- An address register holds the address that was written to it last. -/
theorem filterAfter_pair (n : Nat) :
    addrPair (filterAfter regs hist) n =
      ((latest (wroteUc n) hist).map (·, true)).getD (addrPair regs n) := by
  rw [← latest_map]
  exact foldl_latest (fun regs => addrPair regs n) fun regs dev _ => setFilter_pair regs dev n

theorem left_iff (n : Nat) :
    addrPair (filterAfter regs hist) n = (addr, true) ↔ Left regs hist n addr := by
  rw [filterAfter_pair]
  unfold Left
  cases latest (wroteUc n) hist <;> simp

/-- No call writes register 0. -/
theorem left_zero : Left regs hist 0 addr ↔ addrPair regs 0 = (addr, true) := by
  have hnone : latest (wroteUc 0) hist = none := by
    induction hist using List.reverseRecOn with
    | nil => rfl
    | append_singleton hist dev ih => simp [ih, wroteUc]
  unfold Left
  rw [hnone]

/-- What the filter accepts after a history that ends with `dev`. -/
theorem accepts_filterAfter :
    Accepts dev.id (filterAfter regs (hist ++ [dev])) addr ↔
      dev.Promiscuous ∨ dev.Lists addr ∨ addrPair regs 0 = (addr, true) ∨
        LeftBeyond regs hist dev addr := by
  unfold filterAfter
  rw [List.foldl_append, List.foldl_cons, List.foldl_nil, accepts_setFilter]
  refine or_congr_right (or_congr_right ?_)
  have hleft : ∀ n, addrPair (hist.foldl dwmac1000SetFilter regs) n = (addr, true) ↔
      Left regs hist n addr := fun n => left_iff n
  simp only [hleft]
  constructor
  · rintro ⟨n, hn, rfl | hlt, hn'⟩
    · exact .inl (left_zero.mp hn')
    · exact .inr ⟨n, hn, hlt, hn'⟩
  · rintro (hzero | ⟨n, hn, hlt, hn'⟩)
    · exact ⟨0, addrRegs_pos dev.id, .inl rfl, left_zero.mpr hzero⟩
    · exact ⟨n, hn, .inr hlt, hn'⟩

/-- Two histories accept the same addresses. -/
def SameAccepted (regs : Regs) (hist₁ hist₂ : List FilterCall) (dev : FilterCall) : Prop :=
  ∀ addr, Accepts dev.id (filterAfter regs (hist₁ ++ [dev])) addr ↔
    Accepts dev.id (filterAfter regs (hist₂ ++ [dev])) addr

/-- The histories leave the same addresses beyond the registers that the last call writes, up to
those that are accepted anyway. -/
def SameLeft (regs : Regs) (hist₁ hist₂ : List FilterCall) (dev : FilterCall) : Prop :=
  ∀ addr, ¬ dev.Lists addr → addrPair regs 0 ≠ (addr, true) →
    (LeftBeyond regs hist₁ dev addr ↔ LeftBeyond regs hist₂ dev addr)

theorem sameAccepted_iff :
    SameAccepted regs hist₁ hist₂ dev ↔ dev.Promiscuous ∨ SameLeft regs hist₁ hist₂ dev := by
  unfold SameAccepted SameLeft
  simp only [accepts_filterAfter]
  by_cases hpromisc : dev.Promiscuous
  · simp [hpromisc]
  · simp only [hpromisc, false_or]
    refine forall_congr' fun addr => ?_
    by_cases hlists : dev.Lists addr <;> by_cases hzero : addrPair regs 0 = (addr, true) <;>
      simp [hlists, hzero]

/-- Some unicast address is not in a given short list. -/
theorem exists_unicast_not_mem (l : List MacAddr) (hl : l.length < 256) :
    ∃ addr, isMulticast addr = false ∧ addr ∉ l := by
  let bytes := (l.map fun addr => addr[5].toNat).toFinset
  have hcard : bytes.card < (Finset.range 256).card := by
    have hle : bytes.card ≤ l.length := by
      simpa [bytes] using List.toFinset_card_le (l.map fun addr => addr[5].toNat)
    rw [Finset.card_range]
    omega
  obtain ⟨k, hk, hfresh⟩ := Finset.exists_mem_notMem_of_card_lt_card hcard
  have hk' : k < 256 := Finset.mem_range.mp hk
  refine ⟨#v[0, 0, 0, 0, 0, BitVec.ofNat 8 k], by simp [isMulticast, Vector.get], ?_⟩
  refine fun hmem => hfresh ?_
  rw [List.mem_toFinset, List.mem_map]
  exact ⟨_, hmem, by simp [Nat.mod_eq_of_lt hk']⟩

/-- A call that leaves a register of its core unwritten lets an earlier list through: a list with
one address more tells two histories apart. -/
theorem exists_left (hshort : dev.uc.length + 1 < addrRegs dev.id) :
    ∃ hist, (∀ d ∈ hist, d.id = dev.id) ∧ ¬ SameLeft regs [] hist dev := by
  have hmax : addrRegs dev.id ≤ 32 := by
    unfold addrRegs
    split_ifs <;> decide
  let held := (List.range (addrRegs dev.id)).map (dwmac1000GetUmacAddr regs)
  have hlen : (held ++ dev.uc).length < 256 := by
    simp only [held, List.length_append, List.length_map, List.length_range]
    omega
  obtain ⟨addr, huni, hfresh⟩ := exists_unicast_not_mem (held ++ dev.uc) hlen
  have hheld : ∀ n < addrRegs dev.id, addrPair regs n ≠ (addr, true) := by
    intro n hn hpair
    refine hfresh (List.mem_append_left _ (List.mem_map.mpr ⟨n, List.mem_range.mpr hn, ?_⟩))
    exact congrArg Prod.fst hpair
  refine ⟨[{ flags := 0, mc := [], uc := dev.uc ++ [addr], id := dev.id }], by simp,
    fun hsame => ?_⟩
  have hlists : ¬ dev.Lists addr := by
    rintro (⟨hmulti, -⟩ | hmem)
    · simp [huni] at hmulti
    · exact hfresh (List.mem_append_right _ (List.mem_of_mem_take hmem))
  have hiff := hsame addr hlists (hheld 0 (addrRegs_pos dev.id))
  have hleft : LeftBeyond regs [{ flags := 0, mc := [], uc := dev.uc ++ [addr], id := dev.id }]
      dev addr := by
    refine ⟨dev.uc.length + 1, hshort, Nat.lt_succ_self _, ?_⟩
    have hfew : ¬ perfectAddrNumber dev.id < dev.uc.length + 1 := by
      rw [perfectAddrNumber_eq]
      omega
    have hwrote : latest (wroteUc (dev.uc.length + 1))
        [{ flags := 0, mc := [], uc := dev.uc ++ [addr], id := dev.id }] = some addr := by
      simp [latest, wroteUc, hfew]
    unfold Left
    rw [hwrote]
  obtain ⟨n, hn, -, hnone⟩ := hiff.mpr hleft
  exact hheld n hn hnone

/-- A list that leaves no register free leaves nothing behind it. -/
theorem not_leftBeyond (hfull : addrRegs dev.id ≤ dev.uc.length + 1) :
    ¬ LeftBeyond regs hist dev addr := by
  rintro ⟨n, hn, hlt, -⟩
  omega

/-- Two histories with the same last call accept the same addresses exactly when that call makes
the filter promiscuous or they left the same addresses in the registers beyond its list. On one
core this is so for all histories exactly when the last call is promiscuous or its list leaves no
address register free. -/
theorem filter_forgets_iff (regs : Regs) (dev : FilterCall) :
    (∀ hist₁ hist₂, SameAccepted regs hist₁ hist₂ dev ↔
      dev.Promiscuous ∨ SameLeft regs hist₁ hist₂ dev) ∧
    ((∀ hist₁ hist₂, (∀ d ∈ hist₁ ++ hist₂, d.id = dev.id) → SameAccepted regs hist₁ hist₂ dev) ↔
      dev.Promiscuous ∨ addrRegs dev.id ≤ dev.uc.length + 1) := by
  refine ⟨fun _ _ => sameAccepted_iff, fun hall => ?_, fun hfull hist₁ hist₂ _ => ?_⟩
  · by_contra hnot
    obtain ⟨hpromisc, hshort⟩ := not_or.mp hnot
    obtain ⟨hist, hid, hdiff⟩ := exists_left (Nat.lt_of_not_le hshort)
    rcases sameAccepted_iff.mp (hall [] hist (by simpa using hid)) with h | h
    · exact hpromisc h
    · exact hdiff h
  · refine sameAccepted_iff.mpr (hfull.imp id fun hfull addr _ _ => ?_)
    exact iff_of_false (not_leftBeyond hfull) (not_leftBeyond hfull)

/-- After a list with one address and then an empty one the address is still let through; after
the empty list alone it is not. -/
theorem unicast_address_stays :
    ¬ SameAccepted (fun _ => 0) [⟨0, [], [#v[2, 0, 0, 0, 0, 1]], 0x35⟩] [] ⟨0, [], [], 0x35⟩ := by
  intro hsame
  have hiff := hsame #v[2, 0, 0, 0, 0, 1]
  revert hiff
  decide +kernel

end Histories

end Stmmac
