import Stmmac.Rx.Lengths

/-!
# Receive side: a buffer for a whole frame

The buffers have the first size from a ladder that the MTU does not reach, but what they must hold
is the MTU with the Ethernet header and the frame check sequence. Just below each step of the ladder
the frame is longer than the buffer. In chain mode the ladder ends at 8 KiB and goes no further with
the MTU; in ring mode it ends at 16 KiB.
-/

namespace Stmmac

/-- `JUMBO_LEN`. -/
def jumboLen : BitVec 32 := 9000

/-- The largest MTU that `stmmac_change_mtu` accepts; the kernel gives `SKB_MAX_HEAD`. -/
def mtuLimit (enhDesc : Bool) (skbMaxHead : BitVec 32) : BitVec 32 :=
  if enhDesc then jumboLen else skbMaxHead

/-- A frame of full length fits into a buffer. -/
def HoldsFrame (bufSz mtu : BitVec 32) : Prop :=
  (mtu.toNat : Int) + ethHlen + ethFcsLen ≤ bufSz.toNat

/-- The MTU leaves room for the framing below the next step, up to the last one. -/
def RoomBelowStep (c : Conf) (mtu : BitVec 32) : Prop :=
  mtu.toNat ≤ 2030 ∨ 2048 ≤ mtu.toNat ∧ mtu.toNat ≤ 4078 ∨ 4096 ≤ mtu.toNat ∧ mtu.toNat ≤ 8174 ∨
    c.mode = .ring ∧ 8192 ≤ mtu.toNat ∧ mtu.toNat ≤ 16366

variable {c : Conf} {mtu maxMtu : BitVec 32}

theorem bufferFor_holdsFrame_iff (c : Conf) (mtu : BitVec 32) :
    HoldsFrame (c.bufferFor mtu) mtu ↔ RoomBelowStep c mtu := by
  unfold HoldsFrame RoomBelowStep Conf.bufferFor ethHlen ethFcsLen
  have hlt : ∀ k : BitVec 32, mtu < k ↔ mtu.toNat < k.toNat := fun _ => BitVec.lt_def
  simp only [hlt]
  cases hmode : c.mode <;> split_ifs <;> simp_all <;> omega

/-- The buffers that are stored hold a frame of full length exactly if the MTU leaves room. -/
theorem dmaBufSz_holdsFrame_iff (enhDesc : Bool) (skbMaxHead : BitVec 32)
    (alloc : Nat → Option RxBuf) (s : RxState) (hring : c.Asks16KiB (mtuLimit enhDesc skbMaxHead))
    (hmtu : stmmacChangeMtu (mtuLimit enhDesc skbMaxHead) mtu = true) :
    HoldsFrame (initDmaDescRings c alloc mtu s).dmaBufSz mtu ↔ RoomBelowStep c mtu := by
  rw [initDmaDescRings_dmaBufSz hring hmtu]
  exact bufferFor_holdsFrame_iff c mtu

/-- The default MTU. -/
theorem dmaBufSz_holdsFrame_1500 :
    HoldsFrame (initDmaDescRings (.normal 64) (fun _ => none) 1500 .blank).dmaBufSz 1500 ↔
      RoomBelowStep (.normal 64) 1500 :=
  dmaBufSz_holdsFrame_iff true 0 _ _ (fun _ _ => rfl) (by decide)

/-- An MTU of 2040 is accepted, and the buffers have 2048 bytes. -/
theorem frame_2058_in_2048 :
    stmmacChangeMtu (mtuLimit true 0) 2040 = true ∧
      ¬ HoldsFrame (initDmaDescRings (.normal 4) (fun _ => none) 2040 .blank).dmaBufSz 2040 := by
  refine ⟨by decide, ?_⟩
  have hsize : (initDmaDescRings (.normal 4) (fun _ => none) 2040 .blank).dmaBufSz = 2048 := rfl
  rw [hsize]
  unfold HoldsFrame
  decide

end Stmmac
