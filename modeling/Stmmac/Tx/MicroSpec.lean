import Stmmac.Tx.Micro

/-!
# Transmit side: what single accesses keep

An operation changes the words of the descriptor it writes and of no other. Most operations keep
the counters, the pointers and the ownership of every descriptor; two states that agree on what an
operation sees still agree after it.
-/

namespace Stmmac

open Library

variable {c : Conf} {w : DescWrites} {op : TxOp} {x y : TxRegs × TxState} {e : Nat}

/-- The operation leaves the counters and the pointers alone, and each write of it keeps the
ownership of the descriptor in the relation `K`. -/
def TxOp.Keeps (c : Conf) (K : Bool → Bool → Prop) : TxOp → Prop
  | .write _ f => ∀ d, K (c.desc.getTxOwner d.des01) (c.desc.getTxOwner (f d).des01)
  | .skb _ _ | .dma _ _ | .count _ | .clearIc | .rearm | .quiet _ => True
  | .loadCur | .storeCur | .useFirst | .useEntry | .descFirst | .useDirty | .storeDirty => False

structure Kept (c : Conf) (K : Bool → Bool → Prop) (x y : TxRegs × TxState) : Prop where
  first : y.1.first = x.1.first
  entry : y.1.entry = x.1.entry
  curTx : y.2.curTx = x.2.curTx
  dirtyTx : y.2.dirtyTx = x.2.dirtyTx
  owned : ∀ e, K (c.txOwned (x.2.ring e)) (c.txOwned (y.2.ring e))

section Keeps

variable {K : Bool → Bool → Prop} (hK : ∀ b, K b b)

include hK in
theorem Kept.modify {r r' : TxRegs} {s : TxState} {f : TxSlot → TxSlot}
    (hfirst : r'.first = r.first) (hentry : r'.entry = r.entry)
    (hf : ∀ p, K (c.txOwned p) (c.txOwned (f p))) : Kept c K (r, s) (r', s.modify e f) := by
  refine ⟨hfirst, hentry, rfl, rfl, fun i => ?_⟩
  rw [TxState.modify_ring]
  by_cases hi : i = e
  · subst hi; rw [Function.update_self]; exact hf _
  · rw [Function.update_of_ne hi]; exact hK _

include hK in
theorem TxOp.Keeps.run (ops : c.desc.Lawful) (h : op.Keeps c K) : Kept c K x (op.run c x) := by
  obtain ⟨r, s⟩ := x
  have hsame : ∀ p, K (c.txOwned p) (c.txOwned p) := fun p => hK _
  cases op with
  | write t f => exact .modify hK rfl rfl fun p => h p.desc
  | skb t skb => exact .modify hK rfl rfl hsame
  | dma t addr => exact .modify hK rfl rfl hsame
  | count n => exact ⟨rfl, rfl, rfl, rfl, fun _ => hK _⟩
  | clearIc =>
    simp only [TxOp.run]
    split
    · refine .modify hK rfl rfl fun p => ?_
      have heq : c.txOwned (p.mapDes c.desc.clearTxIc) = c.txOwned p := ops.txOwner_clearIc _
      rw [heq]
      exact hK _
    · exact ⟨rfl, rfl, rfl, rfl, fun _ => hK _⟩
  | rearm =>
    simp only [TxOp.run]
    split <;> exact ⟨rfl, rfl, rfl, rfl, fun _ => hK _⟩
  | quiet q =>
    refine ⟨rfl, rfl, q.curTx s, q.dirtyTx s, fun _ => ?_⟩
    simp only [TxOp.run, q.ring]
    exact hK _
  | loadCur | storeCur | useFirst | useEntry | descFirst | useDirty | storeDirty => exact h.elim

end Keeps

/-- Writes go through `first` and `desc`. -/
theorem target_eq {r : TxRegs} (h : op.target r = some e) :
    e = r.first ∨ e = r.entry := by
  cases op with
  | write p f =>
    obtain rfl := Option.some.inj h
    cases p
    · exact .inl rfl
    · exact .inr rfl
  | clearIc => exact .inr (Option.some.inj h).symm
  | _ => cases h

theorem target_of_writes {r : TxRegs} (h : op.writes r = some e) : op.target r = some e := by
  cases op with
  | clearIc =>
    simp only [TxOp.writes] at h
    split at h
    · exact h
    · cases h
  | _ => exact h

/-- An operation changes the descriptor it writes and no other. -/
theorem run_desc (h : ∀ e', op.target x.1 = some e' → e ≠ e') :
    ((op.run c x).2.ring e).desc = (x.2.ring e).desc := by
  obtain ⟨r, s⟩ := x
  have hmodify : ∀ (e' : Nat) (f : TxSlot → TxSlot), (e = e' → ∀ p, (f p).desc = p.desc) →
      ((s.modify e' f).ring e).desc = (s.ring e).desc := by
    intro e' f hf
    rw [TxState.modify_ring]
    by_cases he : e = e'
    · subst he; rw [Function.update_self]; exact hf rfl _
    · rw [Function.update_of_ne he]
  cases op with
  | write t f =>
    exact hmodify _ (fun p => { p with desc := f p.desc }) fun he => absurd he (h _ rfl)
  | skb t skb => exact hmodify _ ({ · with skb := skb }) fun _ _ => rfl
  | dma t addr => exact hmodify _ ({ · with dma := addr }) fun _ _ => rfl
  | clearIc =>
    simp only [TxOp.run]
    split
    · exact hmodify _ _ fun he => absurd he (h _ rfl)
    · rfl
  | rearm => simp only [TxOp.run]; split <;> rfl
  | quiet q => simp only [TxOp.run, q.ring]
  | loadCur | storeCur | useFirst | useEntry | descFirst | useDirty | count n | storeDirty => rfl

theorem run_owned (h : ∀ e', op.target x.1 = some e' → e ≠ e') :
    c.txOwned ((op.run c x).2.ring e) = c.txOwned (x.2.ring e) := by
  rw [Conf.txOwned, run_desc h, Conf.txOwned]

/-- Two states that an operation cannot tell apart; descriptors count on the slots `D` only. -/
structure Agree (D : Nat → Prop) (x y : TxRegs × TxState) : Prop where
  regs : y.1 = x.1
  curTx : y.2.curTx = x.2.curTx
  dirtyTx : y.2.dirtyTx = x.2.dirtyTx
  txCountFrames : y.2.txCountFrames = x.2.txCountFrames
  desc : ∀ e, D e → (y.2.ring e).desc = (x.2.ring e).desc

namespace Agree

variable {D : Nat → Prop}

theorem owned (h : Agree D x y) (he : D e) : c.txOwned (y.2.ring e) = c.txOwned (x.2.ring e) := by
  rw [Conf.txOwned, h.desc e he, Conf.txOwned]

theorem modify {r : TxRegs} {s s' : TxState} {f : TxSlot → TxSlot} (h : Agree D (r, s) (r, s'))
    (hf : ∀ p p' : TxSlot, p'.desc = p.desc → (f p').desc = (f p).desc) (e' : Nat) :
    Agree D (r, s.modify e' f) (r, s'.modify e' f) := by
  refine ⟨rfl, h.curTx, h.dirtyTx, h.txCountFrames, fun i hi => ?_⟩
  simp only [TxState.modify_ring]
  by_cases he : i = e'
  · subst he; simp only [Function.update_self]; exact hf _ _ (h.desc i hi)
  · simp only [Function.update_of_ne he]; exact h.desc i hi

theorem run (op : TxOp) (h : Agree D x y) : Agree D (op.run c x) (op.run c y) := by
  obtain ⟨r, s⟩ := x
  obtain ⟨r', s'⟩ := y
  obtain rfl : r' = r := h.regs
  have hcur : s'.curTx = s.curTx := h.curTx
  have hdirty : s'.dirtyTx = s.dirtyTx := h.dirtyTx
  have hcount : s'.txCountFrames = s.txCountFrames := h.txCountFrames
  cases op with
  | loadCur => exact ⟨by simp only [TxOp.run, hcur], hcur, hdirty, hcount, h.desc⟩
  | useDirty => exact ⟨by simp only [TxOp.run, hdirty], hcur, hdirty, hcount, h.desc⟩
  | storeCur => exact ⟨rfl, rfl, hdirty, hcount, h.desc⟩
  | useFirst | useEntry | descFirst => exact ⟨rfl, hcur, hdirty, hcount, h.desc⟩
  | write t f =>
    exact h.modify (f := fun p => { p with desc := f p.desc }) (fun _ _ hp => congrArg f hp) _
  | skb t skb => exact h.modify (f := ({ · with skb := skb })) (fun _ _ hp => hp) _
  | dma t addr => exact h.modify (f := ({ · with dma := addr })) (fun _ _ hp => hp) _
  | count n =>
    exact ⟨by simp only [TxOp.run, hcount], hcur, hdirty, by simp only [TxOp.run, hcount], h.desc⟩
  | clearIc =>
    simp only [TxOp.run]
    split
    · exact h.modify (fun p p' hp => by simp only [TxSlot.mapDes, hp]) _
    · exact h
  | rearm =>
    simp only [TxOp.run]
    split
    · exact ⟨rfl, hcur, hdirty, hcount, h.desc⟩
    · exact h
  | storeDirty => exact ⟨rfl, hcur, by simp only [TxOp.run, hdirty], hcount, h.desc⟩
  | quiet q =>
    refine ⟨rfl, ?_, ?_, ?_, fun i hi => ?_⟩
    · simp only [TxOp.run, q.curTx, hcur]
    · simp only [TxOp.run, q.dirtyTx, hdirty]
    · simp only [TxOp.run, q.txCountFrames, hcount]
    · simp only [TxOp.run, q.ring]; exact h.desc i hi

end Agree

end Stmmac
