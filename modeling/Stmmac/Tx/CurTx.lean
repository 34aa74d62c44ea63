import Stmmac.Tx.MicroSpec

/-!
# Transmit side: how the programs move `cur_tx`

A program of one of the two transmit paths takes the slots of consecutive values of `cur_tx`, from
the one it finds on, writes to these slots only, and leaves `cur_tx` behind them. Jumbo frames are
programmed by code that is not part of the repository; it is a parameter.
-/

namespace Stmmac

open Library
open Library.Ops

/-! ## Programs with jumbo frames -/

/-- `is_jumbo_frm`, and the accesses of `jumbo_frm`: those to the first descriptor, and those to
each further one, for which `cur_tx` is incremented. -/
structure JumboFrm where
  isJumboFrm : BitVec 32 → Bool
  first : BitVec 32 → Bool → (Nat → BitVec 32) → List TxOp
  more : BitVec 32 → Bool → (Nat → BitVec 32) → List (List TxOp)

/-- The operation leaves the counters and the pointers alone. -/
def TxOp.Plain : TxOp → Prop
  | .write _ _ | .skb _ _ | .dma _ _ | .count _ | .clearIc | .rearm | .quiet _ => True
  | .loadCur | .storeCur | .useFirst | .useEntry | .descFirst | .useDirty | .storeDirty => False

/-- Besides the increments `jumbo_frm` leaves `cur_tx` alone. -/
structure JumboFrm.Lawful (j : JumboFrm) : Prop where
  first_plain : ∀ len csum dma, ∀ op ∈ j.first len csum dma, op.Plain
  more_plain : ∀ len csum dma, ∀ l ∈ j.more len csum dma, ∀ op ∈ l, op.Plain

/-- The next descriptor is taken by an increment of `cur_tx`. -/
def takeOps (l : List TxOp) : List TxOp := [TxOp.loadCur, .storeCur, .useEntry] ++ l

section Programs

variable (c : Conf) (w : DescWrites) (j : JumboFrm)

/-- The head of a frame; afterwards `desc` is the first descriptor. -/
def headOps (len headlen : BitVec 32) (csum : Bool) (dma : Nat → BitVec 32) : List TxOp :=
  if j.isJumboFrm len then
    j.first headlen csum dma ++ (j.more headlen csum dma).flatMap takeOps ++ [TxOp.descFirst]
  else segmentOps c w .first true headlen (dma 0) csum

/-- The descriptors of a head. -/
def headDescs (len headlen : BitVec 32) (csum : Bool) (dma : Nat → BitVec 32) : Nat :=
  (if j.isJumboFrm len then (j.more headlen csum dma).length else 0) + 1

/-- `stmmac_xmit` between `spin_lock` and `spin_unlock`. -/
def lockedXmitOps (skb : TxSkb) (dma : Nat → BitVec 32) : List TxOp :=
  [TxOp.quiet .exitLpi] ++ [TxOp.loadCur, .useFirst] ++ [TxOp.skb .first (some skb)] ++
    headOps c w j skb.len skb.headlen skb.csumPartial dma ++
      xmitFragsOps c w skb.csumPartial (skb.segments dma) ++
        closeOps w (BitVec.ofNat 32 (skb.frags.length + 1)) ++
          [TxOp.des01 .first c.desc.setTxOwner] ++ xmitAfterOps c skb

/-- `rtl8211_xmit` between the two writes of `m_Tx_Lock`. -/
def lockedRtl8211Ops (length : BitVec 32) (dma : Nat → BitVec 32) : List TxOp :=
  [TxOp.loadCur, .useFirst] ++ headOps c w j length length false dma ++ closeOps w 1 ++
    [TxOp.des01 .first c.desc.setTxOwner] ++
      [TxOp.loadCur, .storeCur, .quiet (.addTxBytes length), .quiet (.call .enableDmaTransmission)]

variable {c w j}

theorem lockedXmitOps_eq {skb : TxSkb} (dma : Nat → BitVec 32) (h : j.isJumboFrm skb.len = false) :
    lockedXmitOps c w j skb dma = xmitOps c w skb dma := by
  simp [lockedXmitOps, headOps, h, xmitOps, xmitFillOps]

theorem lockedRtl8211Ops_eq {length : BitVec 32} (dma : Nat → BitVec 32)
    (h : j.isJumboFrm length = false) :
    lockedRtl8211Ops c w j length dma = rtl8211Ops c w length (dma 0) := by
  simp [lockedRtl8211Ops, headOps, h, rtl8211Ops]

/-- Run alone on a frame that is not jumbo, the program does what `stmmac_xmit` does. -/
theorem run_lockedXmitOps (hw : w.Split c.desc) {skb : TxSkb} {r : TxRegs} {s : TxState}
    (dma : Nat → BitVec 32) (hjumbo : j.isJumboFrm skb.len = false) (hfit : XmitFits c s skb) :
    ((lockedXmitOps c w j skb dma).foldl (TxOp.run c) (r, s)).2 = (stmmacXmit c s skb dma).1 := by
  rw [lockedXmitOps_eq dma hjumbo, run_xmitOps hw dma hfit]

theorem run_lockedRtl8211Ops (hw : w.Split c.desc) {length : BitVec 32} {r : TxRegs} {s : TxState}
    (dma : Nat → BitVec 32) (hjumbo : j.isJumboFrm length = false) :
    ((lockedRtl8211Ops c w j length dma).foldl (TxOp.run c) (r, s)).2 =
      (rtl8211Xmit c s length (dma 0)).1 := by
  rw [lockedRtl8211Ops_eq dma hjumbo, run_rtl8211Ops hw]

end Programs

/-! ## Slots taken -/

/-- The counter whose slot the operation takes. -/
def TxOp.takes (id : Nat) (r : TxRegs) : TxOp → List (Nat × BitVec 32)
  | .useFirst | .useEntry => [(id, r.cur)]
  | _ => []

/-- The counters taken so far are those from `cur` on. -/
def Consecutive (cur : BitVec 32) (taken : List (Nat × BitVec 32)) : Prop :=
  ∀ k id v, taken[k]? = some (id, v) → v = cur + BitVec.ofNat 32 k

/-- The slot was taken by call `id`. -/
def TakenBy (c : Conf) (taken : List (Nat × BitVec 32)) (id e : Nat) : Prop :=
  ∃ (k : Nat) (v : BitVec 32), taken[k]? = some (id, v) ∧ e = c.txEntry v

def TxOp.isStoreCur : TxOp → Bool
  | .storeCur => true
  | _ => false

/-! ## What a program does to `cur_tx` -/

/-- What the programs do with `cur_tx`, without the ring. -/
structure CurView where
  regs : TxRegs
  curTx : BitVec 32
  taken : List (Nat × BitVec 32)

def TxOp.track (c : Conf) (id : Nat) (v : CurView) : TxOp → CurView
  | .loadCur => { v with regs := { v.regs with cur := v.curTx } }
  | .storeCur => { v with regs := { v.regs with cur := v.regs.cur + 1 }, curTx := v.regs.cur + 1 }
  | .useFirst =>
    { v with
      regs := { v.regs with first := c.txEntry v.regs.cur, entry := c.txEntry v.regs.cur }
      taken := v.taken ++ [(id, v.regs.cur)] }
  | .useEntry =>
    { v with
      regs := { v.regs with entry := c.txEntry v.regs.cur }
      taken := v.taken ++ [(id, v.regs.cur)] }
  | .descFirst => { v with regs := { v.regs with entry := v.regs.first } }
  | _ => v

/-- The view leaves out whether the interrupt bit is to be cleared. -/
def curView (r : TxRegs) (s : TxState) (taken : List (Nat × BitVec 32)) : CurView where
  regs := { r with coal := false }
  curTx := s.curTx
  taken := taken

section Track

variable {c : Conf} {w : DescWrites} {j : JumboFrm} {op : TxOp} {r : TxRegs} {s : TxState}
  {taken : List (Nat × BitVec 32)} {id n u : Nat} {cur : BitVec 32} {v : CurView}

theorem target_coal (b : Bool) : op.target { r with coal := b } = op.target r := by
  cases op with
  | write t f => cases t <;> rfl
  | _ => rfl

/-- The view of a step is the step of the view. -/
theorem curView_run (h : op ≠ .useDirty) :
    curView (op.run c (r, s)).1 (op.run c (r, s)).2 (taken ++ op.takes id r) =
      op.track c id (curView r s taken) := by
  have hmodify : ∀ e (f : TxSlot → TxSlot), curView r (s.modify e f) (taken ++ []) =
      curView r s taken := fun e f => by rw [List.append_nil]; rfl
  cases op with
  | write t f => exact hmodify _ fun p => { p with desc := f p.desc }
  | skb t skb => exact hmodify _ ({ · with skb := skb })
  | dma t addr => exact hmodify _ ({ · with dma := addr })
  | clearIc | rearm =>
    simp only [TxOp.run, TxOp.takes, TxOp.track, List.append_nil]
    split <;> rfl
  | quiet q => simp only [TxOp.run, TxOp.takes, TxOp.track, List.append_nil, curView, q.curTx]
  | useDirty => exact absurd rfl h
  | _ => simp only [TxOp.run, TxOp.takes, TxOp.track, List.append_nil, curView]

theorem Consecutive.append (h : Consecutive cur taken) :
    Consecutive cur (taken ++ [(id, cur + BitVec.ofNat 32 taken.length)]) := by
  intro k id' v hk
  rw [List.getElem?_append] at hk
  split at hk
  · exact h k id' v hk
  · next hlen =>
    obtain ⟨hk, he⟩ := List.getElem?_eq_some_iff.mp hk
    have hzero : k = taken.length := by rw [List.length_singleton] at hk; omega
    subst hzero
    simp only [Nat.sub_self, List.getElem_cons_zero, Prod.mk.injEq] at he
    exact he.2.symm

theorem TakenBy.append {e : Nat} {l : List (Nat × BitVec 32)} (h : TakenBy c taken id e) :
    TakenBy c (taken ++ l) id e := by
  obtain ⟨k, v, hk, rfl⟩ := h
  have hlen := (List.getElem?_eq_some_iff.mp hk).1
  exact ⟨k, v, by rw [List.getElem?_append_left hlen]; exact hk, rfl⟩

theorem takenBy_last (v : BitVec 32) : TakenBy c (taken ++ [(id, v)]) id (c.txEntry v) :=
  ⟨taken.length, v, by simp, rfl⟩

/-- A write goes to a slot that the call has taken. -/
structure TakeOk (c : Conf) (cur : BitVec 32) (id : Nat) (v : CurView) (op : TxOp) : Prop where
  consecutive : Consecutive cur v.taken
  clean : op ≠ .useDirty
  target : ∀ e, op.target v.regs = some e → TakenBy c v.taken id e

/-- `cur_tx` stands behind the slots taken. -/
structure TakeDone (cur : BitVec 32) (u : Nat) (v : CurView) : Prop where
  consecutive : Consecutive cur v.taken
  length : v.taken.length = u
  curTx : v.curTx = cur + BitVec.ofNat 32 u

/-- `n` slots are taken, the last of them for the call, and `cur_tx` has advanced by `u`. -/
structure Taking (c : Conf) (cur : BitVec 32) (id n u : Nat) (v : CurView) : Prop where
  consecutive : Consecutive cur v.taken
  length : v.taken.length = n
  curTx : v.curTx = cur + BitVec.ofNat 32 u
  first : TakenBy c v.taken id v.regs.first
  entry : TakenBy c v.taken id v.regs.entry

theorem Taking.ok (g : Taking c cur id n u v) (h : op ≠ .useDirty) : TakeOk c cur id v op := by
  refine ⟨g.consecutive, h, fun e he => ?_⟩
  rcases target_eq he with rfl | rfl
  · exact g.first
  · exact g.entry

theorem TxOp.Plain.track (h : op.Plain) (v : CurView) : op.track c id v = v := by
  cases op with
  | loadCur | storeCur | useFirst | useEntry | descFirst | useDirty | storeDirty => exact h.elim
  | _ => rfl

theorem TxOp.Plain.ne (h : op.Plain) : op ≠ .useDirty := by
  rintro rfl
  exact h

theorem Taking.plain {l : List TxOp} (hl : ∀ op ∈ l, op.Plain) (g : Taking c cur id n u v) :
    Safe (TxOp.track c id) (TakeOk c cur id) (Taking c cur id n u) l v :=
  .of_invariant g fun op hmem v g =>
    ⟨g.ok (hl op hmem).ne, by rw [(hl op hmem).track]; exact g⟩

/-- The next slot is taken, and written. -/
theorem Taking.take {l : List TxOp} (hl : ∀ op ∈ l, op.Plain) (g : Taking c cur id (u + 1) u v) :
    Safe (TxOp.track c id) (TakeOk c cur id) (Taking c cur id (u + 1 + 1) (u + 1)) (takeOps l)
      v := by
  have hnext : v.curTx + 1 = cur + BitVec.ofNat 32 (u + 1) := by
    rw [g.curTx, Ring.ofNat_succ, BitVec.add_assoc]
  refine ⟨g.ok nofun, ⟨g.consecutive, nofun, nofun⟩, ⟨g.consecutive, nofun, nofun⟩,
    Taking.plain hl ⟨?_, ?_, hnext, g.first.append, takenBy_last _⟩⟩
  · have h : Consecutive cur (v.taken ++ [(id, _)]) := g.consecutive.append
    rw [g.length, ← hnext] at h
    exact h
  · show (v.taken ++ _).length = _
    rw [List.length_append, g.length]
    rfl

theorem TakeDone.start (g : TakeDone cur u v) :
    Safe (TxOp.track c id) (TakeOk c cur id) (Taking c cur id (u + 1) u) [.loadCur, .useFirst]
      v := by
  refine ⟨⟨g.consecutive, nofun, nofun⟩, ⟨g.consecutive, nofun, nofun⟩, ?_, ?_, g.curTx,
    takenBy_last _, takenBy_last _⟩
  · have h : Consecutive cur (v.taken ++ [(id, _)]) := g.consecutive.append
    rw [g.length, ← g.curTx] at h
    exact h
  · show (v.taken ++ _).length = _
    rw [List.length_append, g.length]
    rfl

/-- The last increment. -/
theorem Taking.finish {l : List TxOp} (hl : ∀ op ∈ l, op.Plain)
    (g : Taking c cur id (u + 1) u v) :
    Safe (TxOp.track c id) (TakeOk c cur id) (TakeDone cur (u + 1)) (.loadCur :: .storeCur :: l)
      v := by
  have hnext : v.curTx + 1 = cur + BitVec.ofNat 32 (u + 1) := by
    rw [g.curTx, Ring.ofNat_succ, BitVec.add_assoc]
  have hdone : Taking c cur id (u + 1) (u + 1) ((TxOp.storeCur).track c id
      ((TxOp.loadCur).track c id v)) := ⟨g.consecutive, g.length, hnext, g.first, g.entry⟩
  exact ⟨g.ok nofun, ⟨g.consecutive, nofun, nofun⟩,
    (hdone.plain hl).mono (fun _ _ h => h) fun _ g => ⟨g.consecutive, g.length, g.curTx⟩⟩

/-! ## The programs of the two paths -/

theorem plain_des01s (ws : List (Des01 → Des01)) (t : TxPtr) :
    ∀ op ∈ ws.map (TxOp.des01 t), op.Plain := by
  intro op hop
  obtain ⟨f, -, rfl⟩ := List.mem_map.mp hop
  exact trivial

theorem segmentOps_plain (t : TxPtr) (isFs : Bool) (len addr : BitVec 32) (csum : Bool) :
    ∀ op ∈ segmentOps c w t isFs len addr csum, op.Plain := by
  unfold segmentOps
  simp only [List.forall_mem_append]
  refine ⟨⟨?_, ?_⟩, plain_des01s _ _⟩
  · simp [TxOp.Plain]
  · cases isFs <;> simp [TxOp.Plain]

theorem closeOps_plain (k : BitVec 32) : ∀ op ∈ closeOps w k, op.Plain := by
  unfold closeOps
  refine List.forall_mem_append.mpr ⟨plain_des01s _ _, ?_⟩
  simp [TxOp.Plain]

theorem setTxOwner_plain (t : TxPtr) : ∀ op ∈ [TxOp.des01 t c.desc.setTxOwner], op.Plain := by
  simp [TxOp.Plain, TxOp.des01]

/-- The last part of `stmmac_xmit`, after the last increment. -/
theorem xmitAfterOps_plain (skb : TxSkb) :
    ∃ l, xmitAfterOps c skb = .loadCur :: .storeCur :: l ∧ ∀ op ∈ l, op.Plain := by
  refine ⟨_, xmitAfterOps_eq skb, ?_⟩
  unfold stampOps
  cases skb.hwTstamp && c.hwtsTxEn <;> cases c.hwtsTxEn <;> simp [TxOp.Plain, TxOp.des01]

theorem headOps_safe (hj : j.Lawful) {len headlen : BitVec 32} {csum : Bool}
    {dma : Nat → BitVec 32} (g : Taking c cur id (u + 1) u v) :
    Safe (TxOp.track c id) (TakeOk c cur id)
      (fun v => ∃ k, k + 1 = u + headDescs j len headlen csum dma ∧ Taking c cur id (k + 1) k v)
      (headOps c w j len headlen csum dma) v := by
  unfold headOps headDescs
  split
  · rw [List.append_assoc]
    refine (g.plain (hj.first_plain headlen csum dma)).append fun v g => ?_
    have hmore : Safe (TxOp.track c id) (TakeOk c cur id)
        (Taking c cur id (u + (j.more headlen csum dma).length + 1)
          (u + (j.more headlen csum dma).length)) ((j.more headlen csum dma).flatMap takeOps) v :=
      Safe.flatMap (J := fun k => Taking c cur id (k + 1) k) g fun l hl _ _ _ _ g =>
        g.take (hj.more_plain headlen csum dma l hl)
    refine hmore.append fun v g => ⟨g.ok nofun, _, ?_, g.consecutive, g.length, g.curTx, g.first,
      g.first⟩
    omega
  · exact (g.plain (segmentOps_plain _ _ _ _ _)).mono (fun _ _ h => h) fun _ g => ⟨u, by omega, g⟩

theorem Taking.frags (csum : Bool) (segs : List (BitVec 32 × BitVec 32))
    (g : Taking c cur id (u + 1) u v) :
    Safe (TxOp.track c id) (TakeOk c cur id)
      (Taking c cur id (u + segs.length + 1) (u + segs.length)) (xmitFragsOps c w csum segs)
      v := by
  refine Safe.flatMap (J := fun k => Taking c cur id (k + 1) k) g fun x _ _ v _ _ g => ?_
  simp only [fragOps, List.append_assoc]
  exact g.take (List.forall_mem_append.mpr ⟨segmentOps_plain _ _ _ _ _, setTxOwner_plain _⟩)

theorem lockedXmitOps_safe (hj : j.Lawful) {skb : TxSkb} {dma : Nat → BitVec 32}
    (g : TakeDone cur u v) :
    Safe (TxOp.track c id) (TakeOk c cur id) (TakeDone cur
        (u + (headDescs j skb.len skb.headlen skb.csumPartial dma + skb.frags.length)))
      (lockedXmitOps c w j skb dma) v := by
  obtain ⟨l, hafter, hl⟩ := xmitAfterOps_plain (c := c) skb
  have hskb : ∀ op ∈ [TxOp.skb .first (some skb)], op.Plain := by simp [TxOp.Plain]
  unfold lockedXmitOps
  rw [hafter]
  simp only [List.append_assoc]
  refine ⟨⟨g.consecutive, nofun, nofun⟩, g.start.append fun v g => ?_⟩
  refine (g.plain hskb).append fun v g => (headOps_safe hj g).append ?_
  rintro v ⟨k, hk, g⟩
  have hfrags := g.frags (w := w) skb.csumPartial (skb.segments dma)
  rw [length_segments] at hfrags
  refine hfrags.append fun v g => (g.plain (closeOps_plain _)).append fun v g => ?_
  refine (g.plain (setTxOwner_plain _)).append fun v g => ?_
  rw [← Nat.add_assoc, ← hk, show k + 1 + skb.frags.length = k + skb.frags.length + 1 by omega]
  exact g.finish hl

theorem lockedRtl8211Ops_safe (hj : j.Lawful) {length : BitVec 32} {dma : Nat → BitVec 32}
    (g : TakeDone cur u v) :
    Safe (TxOp.track c id) (TakeOk c cur id)
      (TakeDone cur (u + headDescs j length length false dma))
      (lockedRtl8211Ops c w j length dma) v := by
  have hlast : ∀ op ∈ [TxOp.quiet (.addTxBytes length), .quiet (.call .enableDmaTransmission)],
      op.Plain := by simp [TxOp.Plain]
  unfold lockedRtl8211Ops
  simp only [List.append_assoc]
  refine g.start.append fun v g => (headOps_safe hj g).append ?_
  rintro v ⟨k, hk, g⟩
  refine (g.plain (closeOps_plain _)).append fun v g => ?_
  refine (g.plain (setTxOwner_plain _)).append fun v g => ?_
  rw [← hk]
  exact g.finish hlast

/-! ## After the last increment -/

/-- What is left once `cur_tx` is no more incremented does not take a slot either. -/
def Settles (ops : List TxOp) : Prop :=
  ∀ l, l <:+ ops → l.any TxOp.isStoreCur = false → ∀ op ∈ l, op.Plain

theorem Settles.tail {ops : List TxOp} (h : Settles (op :: ops)) : Settles ops :=
  fun l hl => h l (hl.trans (List.suffix_cons op ops))

theorem settles_append {pre post : List TxOp} (hpost : ∀ op ∈ post, op.Plain) :
    Settles (pre ++ .loadCur :: .storeCur :: post) := by
  intro l hl hnone op hop
  have hlast : .storeCur :: post <:+ pre ++ .loadCur :: .storeCur :: post :=
    (List.suffix_cons _ _).trans (List.suffix_append pre _)
  rcases List.suffix_or_suffix_of_suffix hl hlast with h | h
  · rcases List.suffix_cons_iff.mp h with rfl | h
    · simp [TxOp.isStoreCur] at hnone
    · exact hpost op (h.subset hop)
  · have hany : l.any TxOp.isStoreCur = true :=
      List.any_eq_true.mpr ⟨_, h.subset List.mem_cons_self, rfl⟩
    exact absurd (hnone.symm.trans hany) Bool.false_ne_true

theorem lockedXmitOps_settles (skb : TxSkb) (dma : Nat → BitVec 32) :
    Settles (lockedXmitOps c w j skb dma) := by
  obtain ⟨l, hafter, hl⟩ := xmitAfterOps_plain (c := c) skb
  rw [lockedXmitOps, hafter]
  exact settles_append hl

theorem lockedRtl8211Ops_settles (length : BitVec 32) (dma : Nat → BitVec 32) :
    Settles (lockedRtl8211Ops c w j length dma) :=
  settles_append (by simp [TxOp.Plain])

/-- Once the last increment is made `cur_tx` stands where the call leaves it. -/
theorem Settles.done {ops : List TxOp} (hops : Settles ops)
    (hnone : ops.any TxOp.isStoreCur = false)
    (hsafe : Safe (TxOp.track c id) (TakeOk c cur id) (TakeDone cur u) ops v) :
    TakeDone cur u v := by
  have hplain := hops ops List.suffix_rfl hnone
  have hsame : ops.foldl (TxOp.track c id) v = v := by
    clear hsafe hops hnone
    induction ops with
    | nil => rfl
    | cons op ops ih =>
      rw [List.foldl_cons, (hplain op List.mem_cons_self).track]
      exact ih fun op hop => hplain op (List.mem_cons_of_mem _ hop)
  have h := hsafe.result
  rwa [hsame] at h

end Track

end Stmmac
