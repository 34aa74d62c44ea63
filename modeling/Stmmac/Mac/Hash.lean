import Stmmac.Mac.Dwmac100

/-!
# The multicast hash table

Both cores filter multicast addresses by a table of 64 bits in two registers, which is filled from
the list of the net device. The cores differ in the hash, in the registers and in where the mode
bits are; what their tables hold is the same function of the set of addresses.
-/

namespace Stmmac

open Library

def gmacFrameFilterHuc : BitVec 32 := 0x2
def gmacFrameFilterHpf : BitVec 32 := 0x400

/-- A core with a hash table. -/
structure HashCore where
  setFilter : Regs → FilterCall → Regs
  bitNr : MacAddr → Nat
  hashHigh : Nat
  hashLow : Nat
  /-- The register with the mode bits, its promiscuous, pass-all and hash bits, and the bit that
  has multicast addresses looked up in the table. -/
  modeReg : Nat
  modes : BitVec 32
  hashMode : BitVec 32

def dwmac1000Hash : HashCore where
  setFilter := dwmac1000SetFilter
  bitNr := hashBitNr
  hashHigh := gmacHashHigh
  hashLow := gmacHashLow
  modeReg := gmacFrameFilter
  modes := gmacFrameFilterPr ||| gmacFrameFilterPm ||| gmacFrameFilterHuc ||| gmacFrameFilterHmc |||
    gmacFrameFilterHpf
  hashMode := gmacFrameFilterHmc

def dwmac100Hash : HashCore where
  setFilter := dwmac100SetFilter
  bitNr := etherBitNr
  hashHigh := macHashHigh
  hashLow := macHashLow
  modeReg := macControl
  modes := macControlModes
  hashMode := macControlHp

/-- The multicast addresses are filtered by the table, and by nothing else. -/
structure HashOnly (dev : FilterCall) : Prop where
  not_promisc : hasBit dev.flags iffPromisc = false
  not_allmulti : hasBit dev.flags iffAllmulti = false
  mc_ne_nil : dev.mc ≠ []
  mc_length : dev.mc.length ≤ hashTableSize
  uc_eq_nil : dev.uc = []

section Core

variable (core : HashCore) (regs : Regs) (dev : FilterCall)

/-- `HASH_HIGH:HASH_LOW`. -/
def HashCore.table (regs : Regs) : BitVec 64 := readl regs core.hashHigh ++ readl regs core.hashLow

/-- The table holds the bits of the addresses in the list, only the hash mode is chosen, and
another list with the same addresses leads to the same table. -/
structure HashExact : Prop where
  bit_iff : ∀ b < 64, (core.table (core.setFilter regs dev)).getLsbD b = true ↔
    ∃ addr ∈ dev.mc, core.bitNr addr = b
  mode_eq : readl (core.setFilter regs dev) core.modeReg &&& core.modes = core.hashMode
  table_congr : ∀ regs' dev', HashOnly dev' → (∀ addr, addr ∈ dev'.mc ↔ addr ∈ dev.mc) →
    core.table (core.setFilter regs' dev') = core.table (core.setFilter regs dev)

/-- What `set_filter` leaves in the registers of a core. -/
structure WritesHash : Prop where
  table_eq : core.table (core.setFilter regs dev) =
    Bitmap.fill core.bitNr dev.mc (fun _ => 0) 1 ++ Bitmap.fill core.bitNr dev.mc (fun _ => 0) 0
  mode_eq : readl (core.setFilter regs dev) core.modeReg &&& core.modes = core.hashMode

variable {core}

theorem hashExact_of_writes (h : ∀ regs dev, HashOnly dev → WritesHash core regs dev)
    (hdev : HashOnly dev) : HashExact core regs dev := by
  refine ⟨fun b hb => ?_, (h regs dev hdev).mode_eq, fun regs' dev' hdev' hmem => ?_⟩
  · have hzero : Bitmap.testBit (fun _ => 0) b = false := BitVec.getLsbD_zero
    rw [(h regs dev hdev).table_eq, Bitmap.getLsbD_append _ hb, Bitmap.testBit_fill, hzero]
    simp
  · rw [(h regs' dev' hdev').table_eq, (h regs dev hdev).table_eq]
    exact Bitmap.append_fill_congr _ hmem

end Core

section Cores

variable (regs : Regs) {dev : FilterCall}

theorem HashOnly.not_passAll (h : HashOnly dev) :
    ¬ (decide (dev.mc.length > hashTableSize) || hasBit dev.flags iffAllmulti) = true := by
  have hlen := h.mc_length
  simp [h.not_allmulti]
  omega

theorem dwmac1000_writesHash (h : HashOnly dev) : WritesHash dwmac1000Hash regs dev := by
  have hne : gmacHashHigh ≠ gmacFrameFilter ∧ gmacHashLow ≠ gmacFrameFilter ∧
      gmacHashLow ≠ gmacHashHigh := by decide
  have hset : dwmac1000SetFilter regs dev =
      writel (writel (writel regs (mcFilter dev.mc 0) gmacHashLow) (mcFilter dev.mc 1) gmacHashHigh)
        gmacFrameFilterHmc gmacFrameFilter := by
    unfold dwmac1000SetFilter setMulticast
    simp [h.not_promisc, h.not_passAll, h.mc_ne_nil, h.uc_eq_nil, setUcAddrs]
  constructor
  · change readl (dwmac1000SetFilter regs dev) gmacHashHigh ++
      readl (dwmac1000SetFilter regs dev) gmacHashLow = mcFilter dev.mc 1 ++ mcFilter dev.mc 0
    rw [hset, readl_writel_of_ne _ _ hne.1, readl_writel_of_ne _ _ hne.2.1, readl_writel_self,
      readl_writel_of_ne _ _ hne.2.2, readl_writel_self]
  · change readl (dwmac1000SetFilter regs dev) gmacFrameFilter &&& _ = _
    rw [hset, readl_writel_self]
    decide

theorem dwmac100_writesHash (h : HashOnly dev) : WritesHash dwmac100Hash regs dev := by
  have hne : macHashHigh ≠ macControl ∧ macHashLow ≠ macControl ∧ macHashLow ≠ macHashHigh := by
    decide
  have hset : dwmac100SetMode regs dev (readl regs macControl) =
      ((readl regs macControl ||| macControlHp) &&&
        ~~~(macControlPm ||| macControlPr ||| macControlIf ||| macControlHo),
        writel (writel regs (Bitmap.fill etherBitNr dev.mc (fun _ => 0) 0) macHashLow)
          (Bitmap.fill etherBitNr dev.mc (fun _ => 0) 1) macHashHigh) := by
    unfold dwmac100SetMode
    simp [h.not_promisc, h.not_passAll, h.mc_ne_nil]
  constructor
  · change readl (dwmac100SetFilter regs dev) macHashHigh ++
        readl (dwmac100SetFilter regs dev) macHashLow =
      Bitmap.fill etherBitNr dev.mc (fun _ => 0) 1 ++ Bitmap.fill etherBitNr dev.mc (fun _ => 0) 0
    unfold dwmac100SetFilter
    rw [hset]
    dsimp only
    rw [readl_writel_of_ne _ _ hne.1, readl_writel_of_ne _ _ hne.2.1, readl_writel_self,
      readl_writel_of_ne _ _ hne.2.2, readl_writel_self]
  · -- of the mode bits, only the one just set is not cleared
    have hleft : ~~~(macControlPm ||| macControlPr ||| macControlIf ||| macControlHo) &&&
        macControlModes = macControlHp := by decide
    change readl (dwmac100SetFilter regs dev) macControl &&& macControlModes = macControlHp
    unfold dwmac100SetFilter
    rw [hset]
    dsimp only
    rw [readl_writel_self, BitVec.and_assoc, hleft, Bits.or_and_self]

/-- With a short list of multicast addresses and no unicast ones, the hash tables of both cores
are exact. -/
theorem multicast_hash_exact (h : HashOnly dev) :
    HashExact dwmac1000Hash regs dev ∧ HashExact dwmac100Hash regs dev :=
  ⟨hashExact_of_writes regs dev (fun regs _ => dwmac1000_writesHash regs) h,
    hashExact_of_writes regs dev (fun regs _ => dwmac100_writesHash regs) h⟩

/-- The broadcast address twice, on a device without other addresses. -/
theorem multicast_hash_exact_broadcast :
    HashExact dwmac1000Hash (fun _ => 0)
        ⟨0, [#v[255, 255, 255, 255, 255, 255], #v[255, 255, 255, 255, 255, 255]], [], 0x35⟩ ∧
      HashExact dwmac100Hash (fun _ => 0)
        ⟨0, [#v[255, 255, 255, 255, 255, 255], #v[255, 255, 255, 255, 255, 255]], [], 0x35⟩ :=
  multicast_hash_exact _ ⟨by decide, by decide, by decide, by decide, by decide⟩

end Cores

end Stmmac
