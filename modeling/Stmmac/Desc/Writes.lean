import Stmmac.Desc.Normal

/-!
# Descriptor operations as single writes

The entries of `struct stmmac_desc_ops` that assign to several bit fields, one assignment at a
time. The other entries that write the union `des01` assign to one field only.
-/

namespace Stmmac

/-- One write after the other. -/
def writeAll (ws : List (Des01 → Des01)) (p : Des01) : Des01 := ws.foldl (fun p f => f p) p

@[simp] theorem writeAll_nil (p : Des01) : writeAll [] p = p := rfl

@[simp] theorem writeAll_cons (f : Des01 → Des01) (ws : List (Des01 → Des01)) (p : Des01) :
    writeAll (f :: ws) p = writeAll ws (f p) := rfl

/-- The writes of the three operations; `release_tx_desc` reads the descriptor first. -/
structure DescWrites where
  prepareTxDesc : Bool → BitVec 32 → Bool → Mode → List (Des01 → Des01)
  closeTxDesc : List (Des01 → Des01)
  releaseTxDesc : Des01 → Mode → List (Des01 → Des01)

/-- The writes make up the operations of a table; none of them gives the descriptor to the DMA, and
only those of the release may take it away. -/
structure DescWrites.Split (w : DescWrites) (ops : StmmacDescOps) : Prop where
  prepare_eq : ∀ p fs len cs m,
    writeAll (w.prepareTxDesc fs len cs m) p = ops.prepareTxDesc p fs len cs m
  close_eq : ∀ p, writeAll w.closeTxDesc p = ops.closeTxDesc p
  release_eq : ∀ p m, writeAll (w.releaseTxDesc p m) p = ops.releaseTxDesc p m
  prepare_owner : ∀ fs len cs m, ∀ f ∈ w.prepareTxDesc fs len cs m,
    ∀ p, ops.getTxOwner (f p) = ops.getTxOwner p
  close_owner : ∀ f ∈ w.closeTxDesc, ∀ p, ops.getTxOwner (f p) = ops.getTxOwner p
  release_owner : ∀ q m, ∀ f ∈ w.releaseTxDesc q m,
    ∀ p, ops.getTxOwner p = false → ops.getTxOwner (f p) = false

/-! ## Normal descriptors -/

def normSetTxDescLenOnRingWrites (len : BitVec 32) : List (Des01 → Des01) :=
  if len.toInt > bufSize2KiB then
    [fun p => p.set Etx.buffer1Size 2047,
      fun p => p.set Etx.buffer2Size ((len - (p.get Etx.buffer1Size).setWidth 32).setWidth 13)]
  else [fun p => p.set Tx.buffer1Size (len.setWidth 11)]

def ndescPrepareTxDescWrites (isFs : Bool) (len : BitVec 32) (csumFlag : Bool) (mode : Mode) :
    List (Des01 → Des01) :=
  let size : List (Des01 → Des01) := match mode with
    | .chain => [fun p => p.set Tx.buffer1Size (len.setWidth 11)]
    | .ring => normSetTxDescLenOnRingWrites len
  (fun p => p.set Tx.firstSegment (if isFs then 1 else 0)) :: size ++
    if csumFlag then [fun p => p.set Tx.checksumInsertion 3] else []

/-- `memset` clears the two words; the bit for the ring or chain is written last. -/
def ndescReleaseTxDescWrites (p : Des01) (mode : Mode) : List (Des01 → Des01) :=
  [fun q => { q with des0 := 0 }, fun q => { q with des1 := 0 },
    fun q => match mode with
      | .chain => ndescEndTxDescOnChain q
      | .ring => ndescEndTxDescOnRing q (p.get Tx.endRing)]

def ndescWrites : DescWrites where
  prepareTxDesc := ndescPrepareTxDescWrites
  closeTxDesc := [fun p => p.set Tx.lastSegment 1, fun p => p.set Tx.interrupt 1]
  releaseTxDesc := ndescReleaseTxDescWrites

theorem owner_normSetTxDescLenOnRingWrites {len : BitVec 32} {f : Des01 → Des01}
    (hf : f ∈ normSetTxDescLenOnRingWrites len) (p : Des01) :
    ndescGetTxOwner (f p) = ndescGetTxOwner p := by
  unfold normSetTxDescLenOnRingWrites at hf
  split at hf
  · obtain rfl | rfl := by simpa using hf
    all_goals simp (disch := decide) [ndescGetTxOwner]
  · obtain rfl := by simpa using hf
    simp (disch := decide) [ndescGetTxOwner]

theorem ndescWrites_split : ndescWrites.Split ndescOps where
  prepare_eq p fs len cs m := by
    cases m <;> cases cs <;> simp only [ndescWrites, ndescPrepareTxDescWrites, ndescOps,
      ndescPrepareTxDesc, normSetTxDescLenOnRing, normSetTxDescLenOnRingWrites,
      normSetTxDescLenOnChain] <;> split_ifs <;> simp_all
  close_eq _ := rfl
  release_eq p m := by cases m <;> rfl
  prepare_owner fs len cs m f hf p := by
    rcases List.mem_append.mp hf with hf | hf
    · rcases List.mem_cons.mp hf with rfl | hf
      · simp (disch := decide) [ndescOps, ndescGetTxOwner]
      · cases m with
        | chain =>
          obtain rfl := List.mem_singleton.mp hf
          simp (disch := decide) [ndescOps, ndescGetTxOwner]
        | ring => exact owner_normSetTxDescLenOnRingWrites hf p
    · cases cs with
      | false => cases hf
      | true =>
        obtain rfl := List.mem_singleton.mp hf
        simp (disch := decide) [ndescOps, ndescGetTxOwner]
  close_owner f hf p := by
    obtain rfl | rfl := by simpa [ndescWrites] using hf
    all_goals simp (disch := decide) [ndescOps, ndescGetTxOwner]
  release_owner q m f hf p hown := by
    obtain rfl | rfl | rfl := by simpa [ndescWrites, ndescReleaseTxDescWrites] using hf
    · simp [ndescOps, ndescGetTxOwner, Des01.test, Des01.get, Des01.word]
    · exact hown
    · cases m <;> simpa (disch := decide) [ndescOps, ndescGetTxOwner, ndescEndTxDescOnChain,
        ndescEndTxDescOnRing] using hown

end Stmmac
