import Stmmac.Tx.MicroSpec

/-!
# Transmit side: the hand-over of a frame

`stmmac_xmit` writes to the descriptors of its frame as long as the head is not handed over, and
hands over the fragments one by one meanwhile; once the head is handed over it writes nothing,
unless the frame asks for a hardware time stamp. A round of `stmmac_tx_clean` writes to its
descriptor only.
-/

namespace Stmmac

open Library
open Library.Ops

variable {c : Conf} {w : DescWrites} {t h n m j : Nat} {x y : TxRegs × TxState}

/-! ## Writing a frame -/

/-- The descriptor of counter `k` belongs to the DMA. -/
def ownedAt (c : Conf) (s : TxState) (k : Nat) : Bool :=
  c.txOwned (s.ring (k % c.dmaTxSize.toNat))

/-- The head is not handed over, and the operation writes to the frame only. -/
def FillOk (c : Conf) (h n : Nat) (x : TxRegs × TxState) (op : TxOp) : Prop :=
  ownedAt c x.2 h = false ∧
    ∀ e, op.target x.1 = some e → ∃ i < n, e = (h + i) % c.dmaTxSize.toNat

theorem FillOk.of_none {op : TxOp} (hhead : ownedAt c x.2 h = false)
    (hnone : op.target x.1 = none) : FillOk c h n x op :=
  ⟨hhead, fun _ he => nomatch hnone.symm.trans he⟩

/-- Segment `m` is being written; those before segment `j` are handed over, but for the head. -/
structure Filling (c : Conf) (t h m j : Nat) (x : TxRegs × TxState) : Prop where
  first : x.1.first = h % c.dmaTxSize.toNat
  entry : x.1.entry = (h + m) % c.dmaTxSize.toNat
  curTx : x.2.curTx = BitVec.ofNat 32 (h + m)
  dirtyTx : x.2.dirtyTx = BitVec.ofNat 32 t
  head : ownedAt c x.2 h = false
  rest : ∀ i, 1 ≤ i → i < j → ownedAt c x.2 (h + i) = true

namespace Filling

theorem kept (f : Filling c t h m j x) (k : Kept c Eq x y) : Filling c t h m j y := by
  have howned : ∀ k', ownedAt c y.2 k' = ownedAt c x.2 k' := fun _ => (k.owned _).symm
  exact ⟨k.first.trans f.first, k.entry.trans f.entry, k.curTx.trans f.curTx,
    k.dirtyTx.trans f.dirtyTx, (howned h).trans f.head,
    fun i hi hij => (howned _).trans (f.rest i hi hij)⟩

theorem ok (f : Filling c t h m j x) (hm : m < n) (op : TxOp) : FillOk c h n x op := by
  refine ⟨f.head, fun e he => ?_⟩
  rcases target_eq he with rfl | rfl
  · exact ⟨0, by omega, f.first⟩
  · exact ⟨m, hm, f.entry⟩

/-- Operations that keep the counters, the pointers and all ownership. -/
theorem safe_keeps (ops : c.desc.Lawful) {l : List TxOp} (hl : ∀ op ∈ l, op.Keeps c Eq)
    (hm : m < n) (f : Filling c t h m j x) :
    Safe (TxOp.run c) (FillOk c h n) (Filling c t h m j) l x :=
  .of_invariant f fun op hmem _ f => ⟨f.ok hm op, f.kept ((hl op hmem).run (fun _ => rfl) ops)⟩

end Filling

theorem keeps_des01s {ws : List (Des01 → Des01)} {p : TxPtr}
    (hws : ∀ f ∈ ws, ∀ d, c.desc.getTxOwner (f d) = c.desc.getTxOwner d) :
    ∀ op ∈ ws.map (TxOp.des01 p), op.Keeps c Eq := by
  intro op hop
  obtain ⟨f, hf, rfl⟩ := List.mem_map.mp hop
  exact fun d => (hws f hf d.des01).symm

theorem segmentOps_keeps (hw : w.Split c.desc) (p : TxPtr) (isFs : Bool) (len addr : BitVec 32)
    (csum : Bool) : ∀ op ∈ segmentOps c w p isFs len addr csum, op.Keeps c Eq := by
  unfold segmentOps
  simp only [List.forall_mem_append]
  refine ⟨⟨?_, ?_⟩, keeps_des01s (hw.prepare_owner isFs len csum c.mode)⟩
  · simp [TxOp.Keeps]
  · cases isFs <;> simp [TxOp.Keeps]

theorem closeOps_keeps (hw : w.Split c.desc) (k : BitVec 32) :
    ∀ op ∈ closeOps w k, op.Keeps c Eq := by
  unfold closeOps
  refine List.forall_mem_append.mpr ⟨keeps_des01s hw.close_owner, ?_⟩
  simp [TxOp.Keeps]

theorem ownedAt_setTxOwner (ops : c.desc.Lawful) {p : TxPtr} {k : Nat}
    (hk : x.1.slot p = k % c.dmaTxSize.toNat) :
    ownedAt c ((TxOp.des01 p c.desc.setTxOwner).run c x).2 k = true := by
  obtain ⟨r, s⟩ := x
  simp only [ownedAt, TxOp.des01, TxOp.run, TxState.modify_ring]
  rw [← hk, Function.update_self]
  exact ops.txOwner_set _

/-- Once the head is handed over the DMA owns the whole frame. -/
theorem Filling.handedOver (ops : c.desc.Lawful) (f : Filling c t h m (m + 1) x)
    (hn : m + 1 ≤ c.dmaTxSize.toNat) : ∀ i < m + 1,
      ownedAt c ((TxOp.des01 .first c.desc.setTxOwner).run c x).2 (h + i) = true := by
  intro i hi
  rcases Nat.eq_zero_or_pos i with rfl | hpos
  · exact ownedAt_setTxOwner ops f.first
  · refine (run_owned fun e he => ?_).trans (f.rest i hpos hi)
    obtain rfl := Option.some.inj he
    rw [TxRegs.slot, f.first]
    exact Ring.mod_ne_of_window h (by omega)

section Fill

variable (ops : c.desc.Lawful) (hp : IsPow2 c.dmaTxSize) (hw : w.Split c.desc)

include ops hp hw in
/-- A round of the fragment loop moves on by one segment and hands it over. -/
theorem fragOps_safe {csum : Bool} {len addr : BitVec 32} (hm : m + 1 < n)
    (hn : n ≤ c.dmaTxSize.toNat) (f : Filling c t h m (m + 1) x) :
    Safe (TxOp.run c) (FillOk c h n) (Filling c t h (m + 1) (m + 2))
      (fragOps c w csum len addr) x := by
  obtain ⟨r, s⟩ := x
  have hcur : s.curTx + 1 = BitVec.ofNat 32 (h + (m + 1)) := by
    rw [← Nat.add_assoc, Ring.ofNat_succ, f.curTx]
  have hnext : Filling c t h (m + 1) (m + 1) ({ r with
      cur := s.curTx + 1, entry := c.txEntry (s.curTx + 1) }, { s with curTx := s.curTx + 1 }) :=
    ⟨f.first, by rw [hcur, txEntry_ofNat hp], hcur, f.dirtyTx, f.head, f.rest⟩
  unfold fragOps
  rw [List.append_assoc]
  refine ⟨.of_none f.head rfl, .of_none f.head rfl, .of_none f.head rfl, ?_⟩
  refine (hnext.safe_keeps ops (segmentOps_keeps hw _ _ _ _ _) hm).append fun y g => ?_
  have hother : ∀ i, i ≤ m → ownedAt c ((TxOp.des01 .desc c.desc.setTxOwner).run c y).2 (h + i) =
      ownedAt c y.2 (h + i) := by
    intro i hi
    refine run_owned fun e he => ?_
    obtain rfl := Option.some.inj he
    rw [TxRegs.slot, g.entry]
    exact Ring.mod_ne_of_window h (by omega)
  refine ⟨g.ok hm _, g.first, g.entry, g.curTx, g.dirtyTx, (hother 0 (by omega)).trans g.head,
    fun i hi hij => ?_⟩
  by_cases him : i = m + 1
  · subst him
    exact ownedAt_setTxOwner ops g.entry
  · exact (hother i (by omega)).trans (g.rest i hi (by omega))

include ops hp hw in
theorem xmitFragsOps_safe (csum : Bool) (segs : List (BitVec 32 × BitVec 32))
    (hm : m + segs.length < n) (hn : n ≤ c.dmaTxSize.toNat) (f : Filling c t h m (m + 1) x) :
    Safe (TxOp.run c) (FillOk c h n) (Filling c t h (m + segs.length) (m + segs.length + 1))
      (xmitFragsOps c w csum segs) x :=
  Safe.flatMap (J := fun m => Filling c t h m (m + 1)) f fun _ _ _ _ _ hlt f =>
    fragOps_safe ops hp hw (by omega) hn f

include ops hp hw in
/-- Up to the hand-over of the head. -/
theorem xmitFillOps_safe {skb : TxSkb} (dma : Nat → BitVec 32)
    (hn : skb.frags.length + 1 ≤ c.dmaTxSize.toNat) (hcur : x.2.curTx = BitVec.ofNat 32 h)
    (hdirty : x.2.dirtyTx = BitVec.ofNat 32 t) (hhead : ownedAt c x.2 h = false) :
    Safe (TxOp.run c) (FillOk c h (skb.frags.length + 1))
      (Filling c t h skb.frags.length (skb.frags.length + 1)) (xmitFillOps c w skb dma) x := by
  obtain ⟨r, s⟩ := x
  have hhead' : ownedAt c (xmitExitLpi s) h = false := by
    rw [ownedAt, xmitExitLpi_ring]; exact hhead
  have hcur' : (xmitExitLpi s).curTx = BitVec.ofNat 32 h := by rw [xmitExitLpi_curTx]; exact hcur
  have hstart : Filling c t h 0 1 ({ r with
      cur := (xmitExitLpi s).curTx, first := c.txEntry (xmitExitLpi s).curTx,
      entry := c.txEntry (xmitExitLpi s).curTx }, xmitExitLpi s) :=
    ⟨by rw [hcur', txEntry_ofNat hp], by rw [hcur', txEntry_ofNat hp]; rfl, hcur',
      by rw [xmitExitLpi_dirtyTx]; exact hdirty, hhead', fun i hi hi' => by omega⟩
  have hskb : ∀ op ∈ [TxOp.skb .first (some skb)], op.Keeps c Eq := by simp [TxOp.Keeps]
  unfold xmitFillOps
  simp only [List.append_assoc]
  refine ⟨.of_none hhead rfl, .of_none hhead' rfl, .of_none hhead' rfl, ?_⟩
  refine (hstart.safe_keeps ops hskb (by omega)).append fun _ f => ?_
  refine (f.safe_keeps ops (segmentOps_keeps hw _ _ _ _ _) (by omega)).append fun _ f => ?_
  have hfrags := xmitFragsOps_safe ops hp hw skb.csumPartial (skb.segments dma) (m := 0)
    (by rw [length_segments]; omega) hn f
  rw [length_segments, Nat.zero_add] at hfrags
  exact hfrags.append fun _ f => f.safe_keeps ops (closeOps_keeps hw _) (by omega)

end Fill

/-- The operation writes a descriptor. -/
def TxOp.IsWrite : TxOp → Prop
  | .write _ _ | .clearIc => True
  | _ => False

theorem target_of_not_write {op : TxOp} (h : ¬ op.IsWrite) (r : TxRegs) : op.target r = none := by
  cases op with
  | write | clearIc => exact absurd trivial h
  | _ => rfl

/-- The frame asks for a hardware time stamp and the driver takes them. -/
def TxSkb.stamped (c : Conf) (skb : TxSkb) : Bool := skb.hwTstamp && c.hwtsTxEn

/-- The counters after a frame has been sent. -/
def SentDone (t h : Nat) (x : TxRegs × TxState) : Prop :=
  x.2.curTx = BitVec.ofNat 32 h ∧ x.2.dirtyTx = BitVec.ofNat 32 t

/-- Nothing is written after the hand-over, unless a time stamp is asked for. -/
theorem xmitAfterOps_safe (ops : c.desc.Lawful) {skb : TxSkb} (hstamp : skb.stamped c = false)
    (hcur : x.2.curTx = BitVec.ofNat 32 h) (hdirty : x.2.dirtyTx = BitVec.ofNat 32 t) :
    Safe (TxOp.run c) (fun _ op => ¬ op.IsWrite) (SentDone t (h + 1)) (xmitAfterOps c skb) x := by
  have hquiet : ∀ op ∈ [TxOp.quiet (.stopQueue c), .quiet (.addTxBytes skb.len)] ++
      stampOps c skb ++ [TxOp.quiet (.call .enableDmaTransmission)],
      ¬ op.IsWrite ∧ op.Keeps c Eq := by
    unfold stampOps
    rw [show (skb.hwTstamp && c.hwtsTxEn) = false from hstamp]
    cases c.hwtsTxEn <;> simp [TxOp.IsWrite, TxOp.Keeps]
  rw [xmitAfterOps_eq]
  refine ⟨id, id, .of_invariant ⟨?_, hdirty⟩ fun op hmem y hy => ?_⟩
  · rw [Ring.ofNat_succ, ← hcur]; rfl
  · obtain ⟨hwrite, hkeeps⟩ := hquiet op hmem
    have k := hkeeps.run (x := y) (fun _ => rfl) ops
    exact ⟨hwrite, k.curTx.trans hy.1, k.dirtyTx.trans hy.2⟩

/-! ## Reclaiming -/

/-- The operation writes at most to slot `t`, which the DMA does not own. -/
structure CleanOk (c : Conf) (t h : Nat) (x : TxRegs × TxState) (op : TxOp) : Prop where
  curTx : x.2.curTx = BitVec.ofNat 32 h
  dirtyTx : x.2.dirtyTx = BitVec.ofNat 32 t
  slot : ownedAt c x.2 t = false
  target : ∀ e, op.target x.1 = some e → e = t % c.dmaTxSize.toNat

structure CleanRound (c : Conf) (t h : Nat) (x : TxRegs × TxState) : Prop where
  entry : x.1.entry = t % c.dmaTxSize.toNat
  curTx : x.2.curTx = BitVec.ofNat 32 h
  dirtyTx : x.2.dirtyTx = BitVec.ofNat 32 t
  slot : ownedAt c x.2 t = false

structure CleanDone (c : Conf) (t h : Nat) (x : TxRegs × TxState) : Prop where
  curTx : x.2.curTx = BitVec.ofNat 32 h
  dirtyTx : x.2.dirtyTx = BitVec.ofNat 32 (t + 1)
  slot : ownedAt c x.2 t = false

/-- An operation of the reclaimer on its descriptor; one that is free stays free. -/
def TxOp.Reclaims (c : Conf) (op : TxOp) : Prop :=
  op.Keeps c (fun b b' => b = false → b' = false) ∧ ∀ r e, op.target r = some e → e = r.entry

theorem CleanRound.safe (ops : c.desc.Lawful) {l : List TxOp} (hl : ∀ op ∈ l, op.Reclaims c)
    (g : CleanRound c t h x) :
    Safe (TxOp.run c) (CleanOk c t h) (CleanRound c t h) l x := by
  refine .of_invariant g fun op hmem y g => ?_
  obtain ⟨hkeeps, htarget⟩ := hl op hmem
  have k := hkeeps.run (x := y) (fun _ => id) ops
  exact ⟨⟨g.curTx, g.dirtyTx, g.slot, fun e he => (htarget _ _ he).trans g.entry⟩,
    k.entry.trans g.entry, k.curTx.trans g.curTx, k.dirtyTx.trans g.dirtyTx, k.owned _ g.slot⟩

theorem TxOp.Reclaims.quiet (q : QuietStep) : (TxOp.quiet q).Reclaims c := ⟨trivial, nofun⟩

theorem TxOp.Reclaims.write {f : DmaDesc → DmaDesc}
    (hf : ∀ d, c.desc.getTxOwner d.des01 = false → c.desc.getTxOwner (f d).des01 = false) :
    (TxOp.write .desc f).Reclaims c :=
  ⟨hf, fun _ _ he => (Option.some.inj he).symm⟩

/-- A round of `stmmac_tx_clean`. -/
theorem cleanOps_safe (ops : c.desc.Lawful) (hp : IsPow2 c.dmaTxSize) (hw : w.Split c.desc)
    {r : TxRegs} {s : TxState} (hcur : s.curTx = BitVec.ofNat 32 h)
    (hdirty : s.dirtyTx = BitVec.ofNat 32 t) (hslot : ownedAt c s t = false) :
    Safe (TxOp.run c) (CleanOk c t h) (CleanDone c t h) (cleanOps c w s) (r, s) := by
  have hstart : CleanRound c t h ({ r with entry := c.txEntry s.dirtyTx }, s) :=
    ⟨by rw [hdirty, txEntry_ofNat hp], hcur, hdirty, hslot⟩
  unfold cleanOps
  refine ⟨⟨hcur, hdirty, hslot, nofun⟩, (hstart.safe ops ?_).append fun y g => ?_⟩
  · simp only [List.forall_mem_append, List.forall_mem_cons]
    refine ⟨⟨⟨⟨?_, ?_⟩, .write fun _ hd => hd, nofun⟩, ?_⟩, fun op hop => ?_⟩
    · split <;> simp [TxOp.Reclaims.quiet]
    · split <;> simp [TxOp.Reclaims, TxOp.Keeps, TxOp.target]
    · split <;> simp [TxOp.Reclaims, TxOp.Keeps, TxOp.target]
    · obtain ⟨f, hf, rfl⟩ := List.mem_map.mp hop
      exact .write fun d => hw.release_owner _ _ f hf d.des01
  · exact ⟨⟨g.curTx, g.dirtyTx, g.slot, nofun⟩, g.curTx,
      by simp only [TxOp.run]; rw [g.dirtyTx, Ring.ofNat_succ], g.slot⟩

end Stmmac
