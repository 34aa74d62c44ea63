import Mathlib.Data.Fintype.Card
import Mathlib.Order.Interval.Finset.Nat
import Stmmac.Mac.Filter

/-!
# The address registers and the unicast list

A core has 32 address registers, or 16, and register 0 holds the address of the device itself. The
unicast list is written to the registers from number 1 on, but the test of its length allows for
as many addresses as there are registers. A list of just that length is taken for one that fits,
and its last address goes to a register that does not exist.
-/

namespace Stmmac

/-- The addresses of a list are held by different registers of the core, and register 0 is as
before. -/
structure Stored (before after : Regs) (id : Int) (uc : List MacAddr) : Prop where
  own_high : readl after (gmacAddrHigh 0) = readl before (gmacAddrHigh 0)
  own_low : readl after (gmacAddrLow 0) = readl before (gmacAddrLow 0)
  held : ∃ idx : Fin uc.length → Nat, Function.Injective idx ∧
    ∀ i, 1 ≤ idx i ∧ idx i < addrRegs id ∧ addrPair after (idx i) = (uc.get i, true)

/-- No address of the unicast list is filtered out by a call. -/
def KeepsUnicast (regs : Regs) (dev : FilterCall) : Prop :=
  hasBit (readl (dwmac1000SetFilter regs dev) gmacFrameFilter) gmacFrameFilterPr ∨
    Stored regs (dwmac1000SetFilter regs dev) dev.id dev.uc

/-- There is a register less than needed for a list as long as there are registers. -/
theorem Stored.length_lt {before after : Regs} {id : Int} {uc : List MacAddr}
    (h : Stored before after id uc) : uc.length < addrRegs id := by
  obtain ⟨idx, hinj, hidx⟩ := h.held
  have hmaps : ∀ i ∈ Finset.univ, idx i ∈ Finset.Ico 1 (addrRegs id) := fun i _ =>
    Finset.mem_Ico.mpr ⟨(hidx i).1, (hidx i).2.1⟩
  have hcard := Finset.card_le_card_of_injOn idx hmaps hinj.injOn
  have hpos := addrRegs_pos id
  rw [Finset.card_univ, Fintype.card_fin, Nat.card_Ico] at hcard
  omega

section

variable (regs : Regs) (dev : FilterCall)

theorem setMulticast_of_ne {off : Nat} (hhigh : off ≠ gmacHashHigh) (hlow : off ≠ gmacHashLow) :
    readl (setMulticast regs dev).2 off = readl regs off := by
  unfold setMulticast
  split_ifs <;> simp [hhigh, hlow]

/-- Register 0 is not written. -/
theorem setFilter_own {off : Nat} (hoff : off = gmacAddrHigh 0 ∨ off = gmacAddrLow 0) :
    readl (dwmac1000SetFilter regs dev) off = readl regs off := by
  have hother : off ≠ gmacFrameFilter ∧ off ≠ gmacHashHigh ∧ off ≠ gmacHashLow := by
    rcases hoff with rfl | rfl <;> decide
  have hlater : ∀ n, 1 ≤ n → off ≠ gmacAddrHigh n ∧ off ≠ gmacAddrLow n := by
    intro n hn
    have hzero : 0 ≠ n := by omega
    rcases hoff with rfl | rfl
    · exact ⟨addrHigh_inj.not.mpr hzero, addrHigh_ne_low 0 n⟩
    · exact ⟨(addrHigh_ne_low n 0).symm, addrLow_inj.not.mpr hzero⟩
  unfold dwmac1000SetFilter
  dsimp only
  rw [readl_writel_of_ne _ _ hother.1]
  split
  · exact setMulticast_of_ne regs dev hother.2.1 hother.2.2
  · rw [setUcAddrs_of_ne _ _ _ hlater, setMulticast_of_ne regs dev hother.2.1 hother.2.2]

/-- A list with fewer addresses than the core has registers is stored. -/
theorem stored_of_lt (hlt : dev.uc.length < addrRegs dev.id) :
    Stored regs (dwmac1000SetFilter regs dev) dev.id dev.uc := by
  refine ⟨setFilter_own regs dev (.inl rfl), setFilter_own regs dev (.inr rfl),
    fun i => i + 1, fun i j hij => Fin.ext (Nat.succ.inj hij), fun i => ?_⟩
  have hmany : ¬ (perfectAddrNumber dev.id < dev.uc.length) := by
    rw [perfectAddrNumber_eq]
    omega
  have hwrote : wroteUc (i + 1) dev = some (dev.uc.get i) := by
    simp [wroteUc, hmany]
  have hi := i.isLt
  refine ⟨Nat.le_add_left 1 i, (by omega : i.val + 1 < addrRegs dev.id), ?_⟩
  change addrPair (dwmac1000SetFilter regs dev) (i + 1) = (dev.uc.get i, true)
  rw [setFilter_pair, hwrote]
  rfl

/-- No address of the unicast list is filtered out exactly if the device is promiscuous anyway or
the list is not just as long as there are address registers. -/
theorem keepsUnicast_iff : KeepsUnicast regs dev ↔
    hasBit dev.flags iffPromisc = true ∨ dev.uc.length ≠ addrRegs dev.id := by
  unfold KeepsUnicast
  rw [promiscuous_iff, FilterCall.Promiscuous, perfectAddrNumber_eq, or_assoc]
  refine or_congr_right ⟨?_, fun hne => ?_⟩
  · rintro (hmany | hstored)
    · exact Nat.ne_of_gt hmany
    · exact Nat.ne_of_lt hstored.length_lt
  · rcases Nat.lt_or_gt_of_ne hne with hlt | hgt
    · exact .inr (stored_of_lt regs dev hlt)
    · exact .inl hgt

end

/-- On a core newer than 3.40, 32 addresses go to registers 1 to 32. -/
theorem keepsUnicast_32 :
    ¬ KeepsUnicast (fun _ => 0)
      ⟨0, [], (List.range 32).map fun k => #v[2, 0, 0, 0, 0, BitVec.ofNat 8 k], 0x35⟩ := by
  rintro (hpromisc | hstored)
  · rw [promiscuous_iff] at hpromisc
    revert hpromisc
    unfold FilterCall.Promiscuous
    decide
  · have hlt := hstored.length_lt
    revert hlt
    decide

end Stmmac
