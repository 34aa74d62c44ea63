import Stmmac.Desc.Length
import Stmmac.Library.Framing
import Stmmac.Tx.Mappings
import Stmmac.Tx.Position

/-!
# Transmit side: frames on the wire

The DMA reads the descriptors one after the other and puts frames together by their delimiters. Seen
from the wire the ring is a queue: the frames come out as `stmmac_xmit` and `rtl8211_xmit` accepted
them, in that order, each with the buffers and lengths it was mapped with, and once the DMA has read
every descriptor nothing is left behind.
-/

namespace Stmmac

open Library

/-! ## What the DMA reads -/

/-- The bytes of a buffer, by their bus addresses. -/
def busBytes (addr : BitVec 32) (n : Nat) : List (BitVec 32) :=
  (List.range n).map fun i => addr + BitVec.ofNat 32 i

/-- The bytes of a segment, and whether checksums are inserted. -/
structure TxSeg where
  bytes : List (BitVec 32)
  csum : Bool
  deriving DecidableEq, Repr

/-- The second buffer is read unless its address word is a link to the next descriptor. -/
def TxSlot.segBytes (p : TxSlot) : List (BitVec 32) :=
  busBytes p.desc.des2 (p.desc.des01.get Tx.buffer1Size).toNat ++
    if p.desc.des01.test Tx.secondAddressChained then []
    else busBytes p.desc.des3 (p.desc.des01.get Tx.buffer2Size).toNat

/-- A normal descriptor as the DMA reads it. -/
def TxSlot.marked (p : TxSlot) : FrameItem TxSeg where
  first := p.desc.des01.test Tx.firstSegment
  last := p.desc.des01.test Tx.lastSegment
  item := ⟨p.segBytes, p.desc.des01.test Tx.checksumInsertion⟩

/-- The frame that `stmmac_xmit` is given, with the addresses its segments are mapped to. -/
def TxSkb.wireFrame (skb : TxSkb) (dma : Nat → BitVec 32) : List TxSeg :=
  (skb.maps dma).map fun m => ⟨busBytes m.1 m.2.toNat, skb.csumPartial⟩

def rtl8211Frame (length addr : BitVec 32) : List TxSeg := [⟨busBytes addr length.toNat, false⟩]

/-! ## States and steps -/

structure WireState extends DmaTxState where
  /-- The frames on the wire, and the segments read since. -/
  reader : Reader TxSeg
  /-- The frames accepted so far. -/
  accepted : List (List TxSeg)

/-- The DMA reads the descriptor at its position when it completes it. -/
def wireStep (c : Conf) (s : WireState) : TxAct → Option WireState
  | .xmit skb dma =>
    some { s with
      tx := (stmmacXmit c s.tx skb dma).1
      accepted := s.accepted ++
        if (stmmacXmit c s.tx skb dma).2 = .ok then [skb.wireFrame dma] else [] }
  | .rtl8211Xmit length addr =>
    some { s with
      tx := (rtl8211Xmit c s.tx length addr).1
      accepted := s.accepted ++ [rtl8211Frame length addr] }
  | .txClean => some { s with tx := stmmacTxClean c s.tx }
  | .txErr => some { s with tx := stmmacTxErr c s.tx }
  | .complete entry desc =>
    if entry = s.pos then
      (txComplete c s.tx entry desc).map fun tx =>
        { s with
          tx := tx
          pos := (s.pos + 1) % c.dmaTxSize.toNat
          reader := s.reader.read (s.tx.ring entry).marked }
    else none

/-- Segments fit their descriptors, `rtl8211_xmit` finds a free slot, and `stmmac_tx_err` finds
nothing in flight and the DMA at slot 0. -/
def WireOk (c : Conf) (s : WireState) : TxAct → Prop
  | .xmit skb _ => skb.Short
  | .rtl8211Xmit length _ => length.toNat ≤ 2047 ∧ 1 ≤ (stmmacTxAvail c s.tx).toNat
  | .txClean | .complete _ _ => True
  | .txErr => s.tx.dirtyTx = s.tx.curTx ∧ s.pos = 0

instance (c : Conf) (s : WireState) : ∀ a, Decidable (WireOk c s a)
  | .xmit skb _ => inferInstanceAs (Decidable skb.Short)
  | .rtl8211Xmit _ _ | .txErr => inferInstanceAs (Decidable (_ ∧ _))
  | .txClean | .complete _ _ => inferInstanceAs (Decidable True)

/-- The control bits are clear, and the second buffer is empty. -/
structure TxSlot.Bare (p : TxSlot) : Prop where
  clear : p.Clear
  size2 : p.desc.des01.get Tx.buffer2Size = 0

/-- The descriptors from counter `p` up to `h`. -/
def TxState.marked (c : Conf) (s : TxState) (p h : Nat) : List (FrameItem TxSeg) :=
  (List.range' p (h - p)).map fun k => (s.ring (k % c.dmaTxSize.toNat)).marked

/-- If the DMA read on to the end, it would have put every accepted frame on the wire. -/
structure WireInv (c : Conf) (s : WireState) (t p h : Nat) : Prop
    extends PosInv c s.tx s.pos t p h where
  bare : FreeSlots c s.tx t h TxSlot.Bare
  rest : (s.tx.marked c p h).foldl Reader.read s.reader = ⟨[], s.accepted⟩

/-! ## One slot -/

section Slot

variable {c : Conf} {s : TxState} {skb : TxSkb} {p q : TxSlot} {len addr : BitVec 32} {i : Nat}

theorem wireFrame_getElem? (skb : TxSkb) (dma : Nat → BitVec 32) (hi : i ≤ skb.frags.length) :
    (skb.wireFrame dma)[i]? =
      some ⟨busBytes (dma i) (skb.segLen i).toNat, skb.csumPartial⟩ := by
  have hlt : i < skb.frags.length + 1 := Nat.lt_succ_of_le hi
  simp [TxSkb.wireFrame, maps_eq, hlt]

@[simp] theorem length_wireFrame (skb : TxSkb) (dma : Nat → BitVec 32) :
    (skb.wireFrame dma).length = skb.frags.length + 1 := by
  simp [TxSkb.wireFrame, TxSkb.maps, length_segments]

/-- `q` holds the address that `prepare_tx_desc` writes, and the second size that `p` held. -/
structure Prepared (addr : BitVec 32) (p q : DmaDesc) : Prop where
  des2 : q.des2 = addr
  size2 : q.des01.get Tx.buffer2Size = p.des01.get Tx.buffer2Size

/-- What else is written to a slot leaves both alone. -/
theorem Prepared.congr (h : Prepared addr p.desc q.desc) {f : Des01 → Des01}
    (hsize : ∀ d, (f d).get Tx.buffer2Size = d.get Tx.buffer2Size) :
    Prepared addr p.desc (q.mapDes f).desc :=
  ⟨h.des2, (hsize _).trans h.size2⟩

theorem Prepared.segBytes (h : Prepared addr p.desc q.desc)
    (hlen : ndescGetTxLen q.desc.des01 = len) (hbare : p.desc.des01.get Tx.buffer2Size = 0) :
    q.segBytes = busBytes addr len.toNat := by
  have hsize : (q.desc.des01.get Tx.buffer1Size).toNat = len.toNat := by
    rw [← hlen, ndescGetTxLen, BitVec.toNat_setWidth]
    exact (Nat.mod_eq_of_lt (Nat.lt_of_lt_of_le (BitVec.isLt _) (by decide))).symm
  have hzero : (q.desc.des01.get Tx.buffer2Size).toNat = 0 := by
    rw [h.size2, hbare]
    rfl
  simp [TxSlot.segBytes, h.des2, hsize, hzero, busBytes]

section

variable (hd : c.desc = ndescOps)

include hd in
theorem prepareSlot_des01 (isFs csum : Bool) (len addr : BitVec 32) (p : TxSlot) :
    (c.prepareSlot isFs len addr csum p).desc.des01 =
      ndescPrepareTxDesc p.desc.des01 isFs len csum c.mode := by
  simp [Conf.prepareSlot, hd, ndescOps]

include hd in
theorem prepareSlot_prepared (isFs csum : Bool) (hlen : len.toNat ≤ 2048) (p : TxSlot) :
    Prepared addr p.desc (c.prepareSlot isFs len addr csum p).desc := by
  refine ⟨rfl, ?_⟩
  rw [prepareSlot_des01 hd, ndescPrepareTxDesc_of_le _ _ hlen]
  cases csum <;> simp (disch := decide)

include hd in
theorem mapDes_prepared (h : Prepared addr p.desc q.desc) :
    Prepared addr p.desc (q.mapDes c.desc.closeTxDesc).desc ∧
      Prepared addr p.desc (q.mapDes c.desc.clearTxIc).desc ∧
      Prepared addr p.desc (q.mapDes c.desc.setTxOwner).desc ∧
      Prepared addr p.desc (q.mapDes c.desc.enableTxTimestamp).desc := by
  rw [hd]
  refine ⟨h.congr ?_, h.congr ?_, h.congr ?_, h.congr ?_⟩ <;> intro d <;>
    simp (disch := decide) [ndescOps, ndescCloseTxDesc, ndescClearTxIc, ndescSetTxOwner,
      ndescEnableTxTimestamp]

include hd in
theorem closeSlot_prepared (h : Prepared addr p.desc q.desc) (s : TxState) (n : BitVec 32) :
    Prepared addr p.desc (c.closeSlot s n q).desc := by
  have hclosed := (mapDes_prepared hd h).1
  unfold Conf.closeSlot
  dsimp only
  split
  · exact (mapDes_prepared hd hclosed).2.1
  · exact hclosed

include hd in
theorem firstSlot_prepared (h : Prepared addr p.desc q.desc) (skb : TxSkb) :
    Prepared addr p.desc (c.firstSlot skb q).desc := by
  have howned := (mapDes_prepared hd h).2.2.1
  unfold Conf.firstSlot Conf.stampSlot
  split
  · have hstamped := (mapDes_prepared hd howned).2.2.2
    exact ⟨hstamped.des2, hstamped.size2⟩
  · exact howned

include hd in
theorem segSlot_prepared (dma : Nat → BitVec 32) (hshort : skb.Short) (i : Nat) (p : TxSlot) :
    Prepared (dma i) p.desc (c.segSlot skb dma i p).desc := by
  have hlen := Nat.le_succ_of_le (hshort.segLen i)
  cases i with
  | zero => exact prepareSlot_prepared hd true skb.csumPartial hlen { p with skb := some skb }
  | succ i =>
    have hseg : Prepared (dma (i + 1)) p.desc
        (c.prepareSlot false (skb.segLen (i + 1)) (dma (i + 1)) skb.csumPartial
          { p with skb := none }).desc :=
      prepareSlot_prepared hd false skb.csumPartial hlen { p with skb := none }
    exact (mapDes_prepared hd hseg).2.2.1

include hd in
theorem xmitSlot_prepared (s : TxState) (dma : Nat → BitVec 32) (hshort : skb.Short) (i : Nat)
    (p : TxSlot) : Prepared (dma i) p.desc (c.xmitSlot s skb dma i p).desc := by
  have hseg := segSlot_prepared hd dma hshort i p
  unfold Conf.xmitSlot
  dsimp only
  split_ifs
  · exact firstSlot_prepared hd (closeSlot_prepared hd hseg s _) skb
  · exact firstSlot_prepared hd hseg skb
  · exact closeSlot_prepared hd hseg s _
  · exact hseg

include hd in
/-- Slot `i` of an accepted frame reads as segment `i`. -/
theorem xmitSlot_marked (s : TxState) (dma : Nat → BitVec 32) (hshort : skb.Short) (i : Nat)
    (hbare : p.Bare) :
    (c.xmitSlot s skb dma i p).marked =
      ⟨i == 0, i == skb.frags.length, busBytes (dma i) (skb.segLen i).toNat, skb.csumPartial⟩ := by
  have hdel : DelimitedAt skb.csumPartial skb.frags.length i
      (c.xmitSlot s skb dma i p).desc.des01 :=
    (xmitSlot_delimited_iff hd hshort i p).mpr (hbare.clear.noLeftOver _ _ _)
  have hlen : ndescGetTxLen (c.xmitSlot s skb dma i p).desc.des01 = skb.segLen i := by
    have hread : c.desc.getTxLen (c.xmitSlot s skb dma i p).desc.des01 = skb.segLen i :=
      xmitSlot_txLen hd hshort i p
    rwa [hd] at hread
  have hbytes := (xmitSlot_prepared hd s dma hshort i p).segBytes hlen hbare.size2
  unfold TxSlot.marked
  rw [hdel.first, hdel.last, hdel.checksum, hbytes]
  rfl

include hd in
theorem rtl8211Slot_prepared (s : TxState) (hlen : len.toNat ≤ 2047) (addr : BitVec 32)
    (p : TxSlot) : Prepared addr p.desc (c.rtl8211Slot s len addr p).desc := by
  have hprep : Prepared addr p.desc (c.prepareSlot true len addr false p).desc :=
    prepareSlot_prepared hd true false (Nat.le_succ_of_le hlen) p
  exact (mapDes_prepared hd (closeSlot_prepared hd hprep s 1)).2.2.1

include hd in
/-- The slot of a frame without an skb reads as the whole frame. -/
theorem rtl8211Slot_marked (s : TxState) (hlen : len.toNat ≤ 2047) (addr : BitVec 32)
    (hbare : p.Bare) :
    (c.rtl8211Slot s len addr p).marked = ⟨true, true, busBytes addr len.toNat, false⟩ := by
  have htxlen : ndescGetTxLen (c.rtl8211Slot s len addr p).desc.des01 = len := by
    have hread : c.desc.getTxLen (c.rtl8211Slot s len addr p).desc.des01 = len :=
      rtl8211Slot_txLen hd hlen p
    rwa [hd] at hread
  have hbytes := (rtl8211Slot_prepared hd s hlen addr p).segBytes htxlen hbare.size2
  obtain ⟨hfs, -, -, hcs⟩ := ndescPrepareTxDesc_bits p.desc.des01 true
    (Nat.le_succ_of_le hlen) false c.mode
  obtain ⟨hfs', hls', hcs'⟩ := closeSlot_bits (s := s) hd 1 (c.prepareSlot true len addr false p)
  have hkeep : ∀ f : Field, Tx.own.Disjoint f → (c.rtl8211Slot s len addr p).desc.des01.test f =
      (c.closeSlot s 1 (c.prepareSlot true len addr false p)).desc.des01.test f := by
    intro f hf
    simp [Conf.rtl8211Slot, hd, ndescOps, ndescSetTxOwner, hf]
  unfold TxSlot.marked
  rw [hbytes, hkeep _ (by decide), hkeep _ (by decide), hkeep _ (by decide), hfs', hls', hcs',
    prepareSlot_des01 hd, hfs, hcs, hbare.clear.2.2]
  rfl

end

end Slot

/-! ## The ring -/

section Ring

variable {c : Conf} {s s' : TxState} {p h k n : Nat}

/-- What the DMA reads does not depend on the slots it has read. -/
theorem marked_congr (hkept : ∀ k, p ≤ k → k < h →
    s'.ring (k % c.dmaTxSize.toNat) = s.ring (k % c.dmaTxSize.toNat)) :
    s'.marked c p h = s.marked c p h := by
  refine List.map_congr_left fun k hk => ?_
  obtain ⟨hk, hk'⟩ := List.mem_range'_1.mp hk
  rw [hkept k hk (by omega)]

theorem marked_cons (hlt : p < h) :
    s.marked c p h = (s.ring (p % c.dmaTxSize.toNat)).marked :: s.marked c (p + 1) h := by
  obtain ⟨n, rfl⟩ := Nat.exists_eq_add_of_lt hlt
  have hn : p + n + 1 - p = n + 1 := by omega
  have hn' : p + n + 1 - (p + 1) = n := by omega
  simp [TxState.marked, hn, hn', List.range'_succ]

theorem marked_append (hle : p ≤ h) (n : Nat) :
    s.marked c p (h + n) = s.marked c p h ++ s.marked c h (h + n) := by
  obtain ⟨m, rfl⟩ := Nat.exists_eq_add_of_le hle
  have hm : p + m + n - p = m + n := by omega
  have hm' : p + m - p = m := by omega
  have hn : p + m + n - (p + m) = n := by omega
  simp only [TxState.marked, hm, hm', hn, ← List.map_append]
  rw [List.range'_append_1]

/-- The slots of a frame read as the frame. -/
theorem marked_frame {segs : List TxSeg} (hlen : segs.length = n)
    (hslot : ∀ i < n, (frameItems segs)[i]? = some (s.ring ((h + i) % c.dmaTxSize.toNat)).marked) :
    s.marked c h (h + n) = frameItems segs := by
  apply List.ext_getElem?
  intro i
  have hn : h + n - h = n := by omega
  rcases Nat.lt_or_ge i n with hi | hi
  · rw [hslot i hi]
    simp [TxState.marked, hn, hi]
  · simp [TxState.marked, hn, hi, hlen]

end Ring

/-! ## The invariant -/

section Inv

variable {c : Conf} {s s' : WireState} {tx tx' : TxState} {a : TxAct} {t p h : Nat}

section

variable (hd : c.desc = ndescOps)

include hd in
theorem reclaimSlot_bare (q : TxSlot) : (c.reclaimSlot q).Bare where
  clear := reclaimSlot_clear hd q
  size2 := by
    unfold Conf.reclaimSlot
    cases c.mode <;> simp (disch := decide) [hd, ndescOps, ndescReleaseTxDesc,
      ndescEndTxDescOnRing, ndescEndTxDescOnChain]

include hd in
theorem errSlot_bare {q : TxSlot} (hbare : q.Bare) (i : Nat) : (c.errSlot i q).Bare where
  clear := (errSlot_clear_iff hd i q).mpr hbare.clear
  size2 := by
    have hsize := hbare.size2
    unfold Conf.errSlot
    cases c.mode <;> cases (i == c.dmaTxSize.toNat - 1) <;>
      simpa (disch := decide) [hd, ndescOps, ndescInitTxDesc, ndescTxSetOnRing,
        ndescTxSetOnChain] using hsize

end

namespace WireInv

theorem congr (inv : WireInv c { s with tx := tx } t p h) (hsame : SameRing tx tx') :
    WireInv c { s with tx := tx' } t p h where
  toPosInv := inv.toPosInv.congr hsame
  bare k hk hk' := by
    have hbare := inv.bare k hk hk'
    rwa [← hsame.ring] at hbare
  rest := by
    have hread : tx'.marked c p h = tx.marked c p h :=
      marked_congr fun k _ _ => by rw [hsame.ring]
    rw [hread]
    exact inv.rest

theorem clean (hd : c.desc = ndescOps) (hp : IsPow2 c.dmaTxSize)
    (inv : WireInv c { s with tx := tx } t p h) (hg : txCleanGuard c tx = true) :
    WireInv c { s with tx := txCleanBody c tx } (t + 1) p h where
  toPosInv := inv.toPosInv.clean (hd ▸ ndescOps_lawful) hp hg
  bare := inv.bare.clean hp inv.window hg (reclaimSlot_bare hd)
  rest := by
    have hlt := (inv.toPosInv.clean (hd ▸ ndescOps_lawful) hp hg).le
    have hN := inv.window.lt
    have hread : (txCleanBody c tx).marked c p h = tx.marked c p h :=
      marked_congr fun k hk hk' => inv.window.clean_kept hp (by omega) (by omega)
    rw [hread]
    exact inv.rest

/-- A frame is put behind those that wait. -/
theorem filled {n : Nat} {fill : Nat → TxSlot → TxSlot} {segs : List TxSeg}
    (inv : WireInv c s t p h) (hfill : TxFilled c s.tx tx h n fill)
    (hroom : h + n < t + c.dmaTxSize.toNat)
    (hown : ∀ i < n, ∀ q, c.txOwned (fill i q) = true) (hlen : segs.length = n)
    (hne : segs ≠ [])
    (hslot : ∀ i < n, ∀ q, q.Bare → (frameItems segs)[i]? = some (fill i q).marked) :
    WireInv c { s with tx := tx, accepted := s.accepted ++ [segs] } t p (h + n) where
  toPosInv := inv.toPosInv.filled hfill hroom hown
  bare := inv.bare.filled inv.window hfill hroom
  rest := by
    have hle := inv.le
    have hle' := inv.le'
    have hold : tx.marked c p h = s.tx.marked c p h := marked_congr fun k hk hk' =>
      hfill.kept (t := t) (by omega) (by omega) hk'
    have hnew : tx.marked c h (h + n) = frameItems segs := by
      refine marked_frame hlen fun i hi => ?_
      rw [hfill.slot i hi]
      exact hslot i hi _ (inv.bare _ (by omega) (by omega))
    have hrest := inv.rest
    rw [marked_append hle' n, List.foldl_append, hold, hnew, hrest, foldl_read_frameItems hne]

/-- The DMA reads on. -/
theorem complete (inv : WireInv c s t p h) {desc : DmaDesc}
    (hs : txComplete c s.tx s.pos desc = some tx) :
    WireInv c { s with
      tx := tx
      pos := (s.pos + 1) % c.dmaTxSize.toNat
      reader := s.reader.read (s.tx.ring s.pos).marked } t (p + 1) h := by
  have hnext := inv.toPosInv.complete hs
  obtain ⟨-, -, rfl⟩ := txComplete_eq hs
  have hlt := hnext.le'
  have hle := inv.le
  have hN := inv.window.lt
  refine ⟨hnext, fun k hk hk' => ?_, ?_⟩
  · have hne : k % c.dmaTxSize.toNat ≠ s.pos := by
      rw [inv.pos_eq]
      exact Ring.mod_ne_of_window t (by omega)
    have hbare := inv.bare k hk hk'
    rwa [← Function.update_of_ne hne ({ s.tx.ring s.pos with desc := desc }) s.tx.ring] at hbare
  · have hrest := inv.rest
    rw [marked_cons (by omega), List.foldl_cons, ← inv.pos_eq] at hrest
    rwa [← marked_congr fun k hk hk' => ?_] at hrest
    rw [TxState.modify_ring, inv.pos_eq]
    exact Function.update_of_ne (Ring.mod_ne_of_window t (by omega)) _ _

/-- With nothing in flight nothing is lost. -/
theorem err (hd : c.desc = ndescOps) (hp : IsPow2 c.dmaTxSize) (inv : WireInv c s t p h)
    (hidle : s.tx.dirtyTx = s.tx.curTx) (hpos : s.pos = 0) :
    WireInv c { s with tx := stmmacTxErr c s.tx } 0 0 0 := by
  have ops : c.desc.Lawful := hd ▸ ndescOps_lawful
  obtain rfl : t = h := inv.window.dirty_eq_cur_iff.mp hidle
  have hle := inv.le
  have hle' := inv.le'
  obtain rfl : t = p := by omega
  refine ⟨⟨.err hp, by simp [hpos], Nat.le_refl 0, Nat.le_refl 0,
    fun k _ hk => absurd hk (Nat.not_lt_zero k), .of_forall hp fun i hi => ?_⟩,
    .of_forall hp fun i hi => ?_, ?_⟩
  · rw [stmmacTxErr_ring, Ring.mapBelow_of_lt hi]
    exact errSlot_owned ops i _
  · rw [stmmacTxErr_ring, Ring.mapBelow_of_lt hi]
    exact errSlot_bare hd (inv.bare.all hi) i
  · have hrest := inv.rest
    simpa [TxState.marked] using hrest

theorem step (hd : c.desc = ndescOps) (hp : IsPow2 c.dmaTxSize) (inv : WireInv c s t p h)
    (hok : WireOk c s a) (hs : wireStep c s a = some s') :
    ∃ t' p' h', WireInv c s' t' p' h' := by
  have ops : c.desc.Lawful := hd ▸ ndescOps_lawful
  have w := inv.window
  cases a with
  | xmit skb dma =>
    obtain rfl := Option.some.inj hs
    have hshort : skb.Short := hok
    by_cases hfit : XmitFits c s.tx skb
    · have hres : (stmmacXmit c s.tx skb dma).2 = .ok := stmmacXmit_result dma hfit
      have hne : skb.wireFrame dma ≠ [] := by simp [← List.length_pos_iff_ne_nil]
      rw [if_pos hres]
      refine ⟨t, p, _, inv.filled (stmmacXmit_filled dma hp w hfit) (hfit.room w)
        (fun i _ => xmitSlot_owned ops i) (length_wireFrame skb dma) hne fun i hi q hbare => ?_⟩
      rw [getElem?_frameItems, wireFrame_getElem? skb dma (Nat.le_of_lt_succ hi),
        xmitSlot_marked hd s.tx dma hshort i hbare]
      simp
    · have hres : (stmmacXmit c s.tx skb dma).2 ≠ .ok := by
        rw [stmmacXmit_busy hfit]
        exact nofun
      rw [if_neg hres, List.append_nil]
      exact ⟨t, p, h, inv.congr (stmmacXmit_same hfit)⟩
  | rtl8211Xmit length addr =>
    obtain rfl := Option.some.inj hs
    obtain ⟨hlen, hroom⟩ := hok
    refine ⟨t, p, _, inv.filled (rtl8211Xmit_filled hp w.cur) (rtl8211_room w hroom)
      (fun i _ q => ops.txOwner_set _) rfl (by simp [rtl8211Frame]) fun i hi q hbare => ?_⟩
    obtain rfl : i = 0 := by omega
    rw [rtl8211Slot_marked hd s.tx hlen addr hbare]
    rfl
  | txClean =>
    obtain rfl := Option.some.inj hs
    obtain ⟨t', inv'⟩ := stmmacTxClean_invariant
      (I := fun t tx => WireInv c { s with tx := tx } t p h)
      (fun inv hsame => inv.congr hsame) (fun inv hg => inv.clean hd hp hg) inv
    exact ⟨t', p, h, inv'⟩
  | txErr =>
    obtain rfl := Option.some.inj hs
    exact ⟨0, 0, 0, inv.err hd hp hok.1 hok.2⟩
  | complete entry desc =>
    simp only [wireStep] at hs
    split at hs
    · next he =>
      subst he
      obtain ⟨tx, hs', rfl⟩ := Option.map_eq_some_iff.mp hs
      exact ⟨t, p + 1, h, inv.complete hs'⟩
    · cases hs

/-- The frames on the wire are the first of those accepted. -/
theorem onWire (inv : WireInv c s t p h) : s.reader.out <+: s.accepted := by
  have hread : s.reader.out <+: ((s.tx.marked c p h).foldl Reader.read s.reader).out :=
    prefix_foldl_read
  rwa [inv.rest] at hread

/-- With nothing left to read they are all of them. -/
theorem allRead (inv : WireInv c s t p p) : s.reader = ⟨[], s.accepted⟩ := by
  have hrest := inv.rest
  simpa [TxState.marked] using hrest

/-- The descriptor at the position of the DMA is owned unless everything has been read. -/
theorem waits (inv : WireInv c s t p h) (hfree : c.txOwned (s.tx.ring s.pos) = false) :
    p = h := by
  by_contra hne
  have hle' := inv.le'
  have hown := inv.queued p (Nat.le_refl p) (by omega)
  rw [← inv.pos_eq, hfree] at hown
  cases hown

/-- The DMA reads on as long as something is left to read. -/
theorem drains (hgive : ∃ desc : DmaDesc, c.desc.getTxOwner desc.des01 = false)
    (inv : WireInv c s t p h) :
    ∃ as s', Run (wireStep c) (WireOk c) s as s' ∧ as.length = h - p ∧
      (∀ a ∈ as, ∃ entry desc, a = .complete entry desc) ∧ s'.accepted = s.accepted ∧
      WireInv c s' t h h := by
  obtain ⟨desc, hdesc⟩ := hgive
  have hle' := inv.le'
  obtain ⟨n, hn⟩ := Nat.exists_eq_add_of_le hle'
  induction n generalizing s p with
  | zero =>
    obtain rfl : h = p := hn
    exact ⟨[], s, .nil s, by simp, by simp, rfl, inv⟩
  | succ n ih =>
    have hown : c.txOwned (s.tx.ring s.pos) = true := by
      rw [inv.pos_eq]
      exact inv.queued p (Nat.le_refl p) (by omega)
    have hs : txComplete c s.tx s.pos desc =
        some (s.tx.modify s.pos ({ · with desc := desc })) := if_pos ⟨hown, hdesc⟩
    obtain ⟨as, s', run, hlen, hall, hacc, inv'⟩ :=
      ih (inv.complete hs) (by omega) (by omega)
    refine ⟨.complete s.pos desc :: as, s', .cons trivial ?_ run, ?_, ?_, hacc, inv'⟩
    · simp [wireStep, hs]
    · simp only [List.length_cons, hlen]
      omega
    · intro a ha
      rcases List.mem_cons.mp ha with rfl | ha
      · exact ⟨s.pos, desc, rfl⟩
      · exact hall a ha

end WireInv

/-- Nothing is in the ring, and nothing has been accepted or read. -/
structure WireState.Empty (c : Conf) (s : WireState) : Prop where
  pos : s.pos = 0
  cur : s.tx.curTx = 0
  dirty : s.tx.dirtyTx = 0
  free : ∀ i < c.dmaTxSize.toNat, c.txOwned (s.tx.ring i) = false
  bare : ∀ i < c.dmaTxSize.toNat, (s.tx.ring i).Bare
  reader : s.reader = ⟨[], []⟩
  accepted : s.accepted = []

theorem WireInv.start (hp : IsPow2 c.dmaTxSize) (hempty : s.Empty c) : WireInv c s 0 0 0 where
  toPosInv := .start hp hempty.pos hempty.cur hempty.dirty hempty.free
  bare := .of_forall hp hempty.bare
  rest := by simp [TxState.marked, hempty.reader, hempty.accepted]

theorem WireInv.ofRun {as : List TxAct} (hd : c.desc = ndescOps) (hp : IsPow2 c.dmaTxSize)
    (hempty : s.Empty c) (run : Run (wireStep c) (WireOk c) s as s') :
    ∃ t p h, WireInv c s' t p h :=
  run.invariant (I := fun s => ∃ t p h, WireInv c s t p h)
    (fun ⟨_, _, _, inv⟩ hok hs => inv.step hd hp hok hs) ⟨0, 0, 0, .start hp hempty⟩

end Inv

/-! ## Main results -/

def WireState.start (c : Conf) : WireState := ⟨⟨.idle c, 0⟩, ⟨[], []⟩, []⟩

theorem WireState.Empty.start (size : BitVec 32) :
    (WireState.start (.normal size)).Empty (.normal size) where
  pos := rfl
  cur := rfl
  dirty := rfl
  free i _ := idle_owned size i
  bare i _ := ⟨idle_clear size i, by
    simp only [WireState.start, TxState.idle, Conf.normal, ndescOps, ndescInitTxDesc,
      ndescTxSetOnRing]
    split <;> simp (disch := decide)⟩
  reader := rfl
  accepted := rfl

section Main

variable {c : Conf} {s s' : WireState} {as : List TxAct}

/-- In every run from an empty ring the wire carries the accepted frames in order, each as it was
given, and when the DMA finds a descriptor that is not its own the wire has carried them all. -/
theorem wire_is_fifo (hd : c.desc = ndescOps) (hp : IsPow2 c.dmaTxSize) (hempty : s.Empty c)
    (run : Run (wireStep c) (WireOk c) s as s') :
    s'.reader.out <+: s'.accepted ∧
      (c.txOwned (s'.tx.ring s'.pos) = false → s'.reader = ⟨[], s'.accepted⟩) := by
  obtain ⟨t, p, h, inv⟩ := WireInv.ofRun hd hp hempty run
  refine ⟨inv.onWire, fun hfree => ?_⟩
  obtain rfl := inv.waits hfree
  exact inv.allRead

theorem wire_is_fifo_two_frames :
    ∃ s, Run (wireStep (.normal 64)) (WireOk (.normal 64)) (.start (.normal 64))
        [.xmit (.plain 7 60 [100]) fun i => 4096 + BitVec.ofNat 32 i,
          .complete 0 ⟨⟨0, 0⟩, 4096, 0⟩, .rtl8211Xmit 60 8192, .txClean,
          .complete 1 ⟨⟨0, 0⟩, 4097, 0⟩] s ∧
      s.reader.out <+: s.accepted ∧
      ((Conf.normal 64).txOwned (s.tx.ring s.pos) = false → s.reader = ⟨[], s.accepted⟩) :=
  exec_exists (by decide +kernel) fun _ run =>
    wire_is_fifo (c := .normal 64) rfl ⟨6, rfl⟩ (.start 64) run

/-- From every state of such a run the DMA can put what is left on the wire by itself, completing
at most as many descriptors as are in flight. -/
theorem wire_drains (hd : c.desc = ndescOps) (hp : IsPow2 c.dmaTxSize) (hempty : s.Empty c)
    (run : Run (wireStep c) (WireOk c) s as s') :
    ∃ bs s'', Run (wireStep c) (WireOk c) s' bs s'' ∧ bs.length ≤ s'.tx.inFlight ∧
      (∀ b ∈ bs, ∃ entry desc, b = .complete entry desc) ∧
      s''.accepted = s'.accepted ∧ s''.reader = ⟨[], s'.accepted⟩ := by
  obtain ⟨t, p, h, inv⟩ := WireInv.ofRun hd hp hempty run
  have hgive : ∃ desc : DmaDesc, c.desc.getTxOwner desc.des01 = false :=
    ⟨⟨⟨0, 0⟩, 0, 0⟩, by rw [hd]; decide⟩
  obtain ⟨bs, s'', run', hlen, hall, hacc, inv'⟩ := inv.drains hgive
  have hle := inv.le
  refine ⟨bs, s'', run', ?_, hall, hacc, hacc ▸ inv'.allRead⟩
  rw [inv.window.inFlight]
  omega

theorem wire_drains_one_frame :
    ∃ s, Run (wireStep (.normal 64)) (WireOk (.normal 64)) (.start (.normal 64))
        [.xmit (.plain 7 60 [100]) fun i => 4096 + BitVec.ofNat 32 i,
          .complete 0 ⟨⟨0, 0⟩, 4096, 0⟩] s ∧
      ∃ bs s', Run (wireStep (.normal 64)) (WireOk (.normal 64)) s bs s' ∧
        bs.length ≤ s.tx.inFlight ∧ (∀ b ∈ bs, ∃ entry desc, b = .complete entry desc) ∧
        s'.accepted = s.accepted ∧ s'.reader = ⟨[], s.accepted⟩ :=
  exec_exists (by decide +kernel) fun _ run =>
    wire_drains (c := .normal 64) rfl ⟨6, rfl⟩ (.start 64) run

end Main

end Stmmac
