import Stmmac.Tx.HandOver
import Stmmac.Tx.Position

/-!
# Transmit side: descriptors in reach of the DMA

The calls that hold `tx_lock`, one access at a time, while the DMA fetches and completes
descriptors in ring order. `stmmac_xmit` hands over the fragments first and the head last, so that
the DMA waits at the head while the other descriptors are written. Only the request for a time
stamp comes after the head was handed over.
-/

namespace Stmmac

open Library
open Library.Ops

/-- What is left to do of the call that holds `tx_lock`. -/
inductive TxPc where
  | idle
  | sending (ops : List TxOp)
  | reclaiming (ops : List TxOp)

/-- `waiting` is the frame of a `stmmac_xmit` that found room and waits for `tx_lock`. The slots of
the frame being sent are in `frame`. The DMA is at slot `pos`, where it completes descriptors, and
has fetched `ahead` descriptors from there on. -/
structure TxMicro where
  tx : TxState
  regs : TxRegs
  pc : TxPc
  waiting : Option (TxSkb × (Nat → BitVec 32))
  frame : List Nat
  pos : Nat
  ahead : Nat

inductive TxMicroAct where
  | xmit (skb : TxSkb) (dma : Nat → BitVec 32)
  | xmitLock
  | txClean
  | cpu
  | fetch
  | complete (desc : DmaDesc)

/-- The slots that a frame of `n` descriptors takes. -/
def TxState.nextSlots (c : Conf) (s : TxState) (n : Nat) : List Nat :=
  (List.range n).map fun i => c.txEntry (s.curTx + BitVec.ofNat 32 i)

/-- The slot the DMA fetches next. -/
def TxMicro.fetchSlot (c : Conf) (s : TxMicro) : Nat := (s.pos + s.ahead) % c.dmaTxSize.toNat

/-- The next access of the call that holds the lock. -/
def txCpuStep (c : Conf) (w : DescWrites) (s : TxMicro) : Option TxMicro :=
  match s.pc with
  | .idle => none
  | .sending [] => some { s with pc := .idle, frame := [] }
  | .sending (op :: ops) =>
    let x := op.run c (s.regs, s.tx)
    some { s with regs := x.1, tx := x.2, pc := .sending ops }
  | .reclaiming [] =>
    if txCleanGuard c s.tx then some { s with pc := .reclaiming (cleanOps c w s.tx) }
    else some { s with tx := txCleanTail c s.tx, pc := .idle }
  | .reclaiming (op :: ops) =>
    let x := op.run c (s.regs, s.tx)
    some { s with regs := x.1, tx := x.2, pc := .reclaiming ops }

/-- The calls of `stmmac_xmit` come one after the other. Each looks for room before it takes the
lock, so that `stmmac_tx_clean` may run in between. -/
def txMicroStep (c : Conf) (w : DescWrites) (s : TxMicro) : TxMicroAct → Option TxMicro
  | .xmit skb dma =>
    match s.pc, s.waiting with
    | .sending _, _ | _, some _ => none
    | _, none =>
      if XmitFits c s.tx skb then some { s with waiting := some (skb, dma) }
      else some { s with tx := { s.tx with queueStopped := true } }
  | .xmitLock =>
    match s.pc, s.waiting with
    | .idle, some (skb, dma) =>
      some { s with
        pc := .sending (xmitOps c w skb dma)
        waiting := none
        frame := s.tx.nextSlots c (skb.frags.length + 1) }
    | _, _ => none
  | .txClean =>
    match s.pc with
    | .idle =>
      some { s with
        tx := { s.tx with stats := { s.tx.stats with
          xstats := { s.tx.stats.xstats with txClean := s.tx.stats.xstats.txClean + 1 } } }
        pc := .reclaiming [] }
    | _ => none
  | .cpu => txCpuStep c w s
  | .fetch =>
    if c.txOwned (s.tx.ring (s.fetchSlot c)) then some { s with ahead := s.ahead + 1 } else none
  | .complete desc =>
    if 0 < s.ahead then
      (txComplete c s.tx s.pos desc).map fun tx =>
        { s with tx := tx, pos := (s.pos + 1) % c.dmaTxSize.toNat, ahead := s.ahead - 1 }
    else none

/-! ## The property -/

/-- The DMA owns the descriptor and all those before it from its position on. -/
def TxMicro.Exposed (c : Conf) (s : TxMicro) (e : Nat) : Prop :=
  ∃ k < c.dmaTxSize.toNat, e = (s.pos + k) % c.dmaTxSize.toNat ∧
    ∀ j ≤ k, c.txOwned (s.tx.ring ((s.pos + j) % c.dmaTxSize.toNat)) = true

/-- The accesses left of the call that holds the lock. -/
def TxPc.ops : TxPc → List TxOp
  | .idle => []
  | .sending ops | .reclaiming ops => ops

/-- The next access does not write to a descriptor in reach of the DMA, and the next fetch of the
DMA does not find a frame to which something is still to be written. -/
structure HandsOver (c : Conf) (s : TxMicro) : Prop where
  write : ∀ op ops e, s.pc.ops = op :: ops → op.writes s.regs = some e → ¬ s.Exposed c e
  fetch : c.txOwned (s.tx.ring (s.fetchSlot c)) = true → s.fetchSlot c ∈ s.frame →
    ∀ op ∈ s.pc.ops, ¬ op.IsWrite

/-- No frame sent asks for a hardware time stamp that the driver takes. -/
def NoHwTstamp (c : Conf) : TxMicroAct → Prop
  | .xmit skb _ => skb.stamped c = false
  | .xmitLock | .txClean | .cpu | .fetch | .complete _ => True

instance (c : Conf) : ∀ a, Decidable (NoHwTstamp c a)
  | .xmit _ _ => inferInstanceAs (Decidable (_ = _))
  | .xmitLock | .txClean | .cpu | .fetch | .complete _ => inferInstanceAs (Decidable True)

/-- Nothing in flight, the DMA at the first slot. -/
def TxMicro.start (tx : TxState) : TxMicro where
  tx := tx
  regs := ⟨0, 0, 0, false⟩
  pc := .idle
  waiting := none
  frame := []
  pos := 0
  ahead := 0

/-! ## The invariant -/

section Invariant

variable {c : Conf} {w : DescWrites} {s s' : TxMicro} {a : TxMicroAct} {t p h : Nat}

/-- The DMA is at counter `p` and owns the descriptors from there to `h`; it has fetched none
beyond. -/
structure Fetching (c : Conf) (s : TxMicro) (t p h : Nat) : Prop where
  pos_eq : s.pos = p % c.dmaTxSize.toNat
  le : t ≤ p
  ahead : p + s.ahead ≤ h
  lt : h < t + c.dmaTxSize.toNat
  queued : ∀ k, p ≤ k → k < h → ownedAt c s.tx k = true

/-- The frame that waits for the lock has room and asks for no time stamp. -/
def Waits (c : Conf) (s : TxMicro) (t h : Nat) : Prop :=
  ∀ skb dma, s.waiting = some (skb, dma) →
    h + (skb.frags.length + 1) < t + c.dmaTxSize.toNat ∧ skb.stamped c = false

/-- No frame is being written and no round of the reclaimer is in progress. -/
structure AtRest (c : Conf) (s : TxMicro) (t h : Nat) : Prop where
  pc : s.pc = .idle ∨ s.pc = .reclaiming []
  frame : s.frame = []
  window : TxWindow c s.tx t h
  free : ∀ k, h ≤ k → k < t + c.dmaTxSize.toNat → ownedAt c s.tx k = false
  waits : Waits c s t h

/-- A round of the reclaimer on slot `t`. -/
structure InRound (c : Conf) (s : TxMicro) (t p h : Nat) (op : TxOp) (l : List TxOp) : Prop where
  pc : s.pc = .reclaiming (op :: l)
  frame : s.frame = []
  lt : t < p
  free : ∀ k, h ≤ k → k < t + c.dmaTxSize.toNat → ownedAt c s.tx k = false
  waits : Waits c s t h
  safe : Safe (TxOp.run c) (CleanOk c t h) (CleanDone c t h) (op :: l) (s.regs, s.tx)

/-- A frame of `m + 1` descriptors whose head, at `h`, is not handed over. -/
structure InFill (c : Conf) (s : TxMicro) (t h m : Nat) (l after : List TxOp) : Prop where
  pc : s.pc = .sending (l ++ .des01 .first c.desc.setTxOwner :: after)
  frame : s.frame = (List.range (m + 1)).map fun i => (h + i) % c.dmaTxSize.toNat
  none : s.waiting = none
  room : h + (m + 1) < t + c.dmaTxSize.toNat
  free : ∀ k, h + (m + 1) ≤ k → k < t + c.dmaTxSize.toNat → ownedAt c s.tx k = false
  safe : Safe (TxOp.run c) (FillOk c h (m + 1)) (Filling c t h m (m + 1)) l (s.regs, s.tx)
  safe' : ∀ x, x.2.curTx = BitVec.ofNat 32 (h + m) → x.2.dirtyTx = BitVec.ofNat 32 t →
    Safe (TxOp.run c) (fun _ op => ¬ op.IsWrite) (SentDone t (h + m + 1)) after x

/-- The head is handed over; `h` is the counter after the frame. -/
structure InSent (c : Conf) (s : TxMicro) (t h : Nat) (l : List TxOp) : Prop where
  pc : s.pc = .sending l
  none : s.waiting = none
  free : ∀ k, h ≤ k → k < t + c.dmaTxSize.toNat → ownedAt c s.tx k = false
  safe : Safe (TxOp.run c) (fun _ op => ¬ op.IsWrite) (SentDone t h) l (s.regs, s.tx)

/-- What the call that holds the lock has done and is about to do. -/
inductive Held (c : Conf) (s : TxMicro) (t p h : Nat) : Prop where
  | rest (r : AtRest c s t h)
  | round (op : TxOp) (l : List TxOp) (r : InRound c s t p h op l)
  | fill (m : Nat) (l after : List TxOp) (r : InFill c s t h m l after)
  | sent (l : List TxOp) (r : InSent c s t h l)

/-- The DMA does not own the head. -/
theorem Held.head (hh : Held c s t p h) (hlt : h < t + c.dmaTxSize.toNat) :
    ownedAt c s.tx h = false := by
  cases hh with
  | rest r => exact r.free h (Nat.le_refl h) hlt
  | round op l r => exact r.free h (Nat.le_refl h) hlt
  | fill m l after r =>
    exact r.safe.now (A := fun x => ownedAt c x.2 h = false) (fun hP => hP.1) fun hQ => hQ.head
  | sent l r => exact r.free h (Nat.le_refl h) hlt

/-- What is exposed lies before the head. -/
theorem Fetching.exposed {e : Nat} (f : Fetching c s t p h) (hh : Held c s t p h)
    (he : s.Exposed c e) : ∃ k, p ≤ k ∧ k < h ∧ e = k % c.dmaTxSize.toNat := by
  obtain ⟨k, -, rfl, hall⟩ := he
  have hle := f.ahead
  refine ⟨p + k, by omega, ?_, by rw [f.pos_eq, Nat.mod_add_mod]⟩
  by_contra hge
  have hown := hall (h - p) (by omega)
  rw [f.pos_eq, Nat.mod_add_mod, show p + (h - p) = h by omega] at hown
  have hhead := hh.head f.lt
  rw [ownedAt, hown] at hhead
  cases hhead

/-- The slot of the next fetch, when the DMA owns it, lies before the head. -/
theorem Fetching.fetchSlot (f : Fetching c s t p h) (hh : Held c s t p h)
    (hown : c.txOwned (s.tx.ring (s.fetchSlot c)) = true) :
    p + s.ahead < h ∧ s.fetchSlot c = (p + s.ahead) % c.dmaTxSize.toNat := by
  have hslot : s.fetchSlot c = (p + s.ahead) % c.dmaTxSize.toNat := by
    rw [TxMicro.fetchSlot, f.pos_eq, Nat.mod_add_mod]
  refine ⟨Nat.lt_of_le_of_ne f.ahead fun he => ?_, hslot⟩
  have hhead := hh.head f.lt
  rw [ownedAt, ← he, ← hslot, hown] at hhead
  cases hhead

/-- The next operation of a frame being filled writes to the frame. -/
theorem InFill.ok {m : Nat} {l after l' : List TxOp} {op : TxOp} (r : InFill c s t h m l after)
    (hops : s.pc.ops = op :: l') : FillOk c h (m + 1) (s.regs, s.tx) op := by
  have hsafe := r.safe
  rw [r.pc] at hops
  cases l with
  | nil =>
    obtain ⟨rfl, -⟩ := List.cons.inj hops
    exact hsafe.ok (Nat.lt_succ_self m) _
  | cons op' l =>
    obtain ⟨rfl, -⟩ := List.cons.inj hops
    exact hsafe.1

theorem Fetching.handsOver (f : Fetching c s t p h) (hh : Held c s t p h) : HandsOver c s := by
  have hle := f.le
  have hlt := f.lt
  constructor
  · intro op ops e hops hwrite hexp
    obtain ⟨k, hk, hk', he⟩ := f.exposed hh hexp
    have htarget := target_of_writes hwrite
    cases hh with
    | rest r =>
      rcases r.pc with hpc | hpc
      all_goals rw [hpc] at hops; cases hops
    | round op' l r =>
      have hlt' := r.lt
      rw [r.pc] at hops
      obtain ⟨rfl, rfl⟩ := List.cons.inj hops
      have hne := Ring.mod_ne_of_window (N := c.dmaTxSize.toNat) t (a := t) (b := k) (by omega)
      exact hne ((r.safe.1.target e htarget).symm.trans he)
    | fill m l after r =>
      have hroom := r.room
      obtain ⟨i, hi, he'⟩ := (r.ok hops).2 e htarget
      have hne := Ring.mod_ne_of_window (N := c.dmaTxSize.toNat) t (a := h + i) (b := k) (by omega)
      exact hne (he'.symm.trans he)
    | sent l r =>
      rw [r.pc] at hops
      obtain rfl : l = op :: ops := hops
      rw [target_of_not_write r.safe.1] at htarget
      cases htarget
  · intro hown hmem
    obtain ⟨hfetch, hslot⟩ := f.fetchSlot hh hown
    cases hh with
    | rest r => rw [r.frame] at hmem; cases hmem
    | round op l r => rw [r.frame] at hmem; cases hmem
    | fill m l after r =>
      have hroom := r.room
      rw [r.frame, hslot] at hmem
      obtain ⟨i, hi, he⟩ := List.mem_map.mp hmem
      have hi := List.mem_range.mp hi
      have hne := Ring.mod_ne_of_window (N := c.dmaTxSize.toNat) t (a := h + i) (b := p + s.ahead)
        (by omega)
      exact absurd he hne
    | sent l r => rw [r.pc]; exact r.safe.forall_mem

/-! ## Steps of the DMA -/

/-- A step leaves the call alone, and the descriptors that it relies on: those reclaimed and those
from the head on. -/
structure Undisturbed (c : Conf) (D : Nat → Prop) (s s' : TxMicro) (t p h : Nat) : Prop where
  pc : s'.pc = s.pc
  waiting : s'.waiting = s.waiting
  frame : s'.frame = s.frame
  agree : Agree D (s.regs, s.tx) (s'.regs, s'.tx)
  kept : ∀ k, t ≤ k → k < t + c.dmaTxSize.toNat → k < p ∨ h ≤ k → D (k % c.dmaTxSize.toNat)

namespace Undisturbed

variable {D : Nat → Prop} {p' : Nat} (d : Undisturbed c D s s' t p h)

/-- The step changes nothing that the CPU or the DMA sees. -/
theorem of_eq (hpc : s'.pc = s.pc) (hwaiting : s'.waiting = s.waiting)
    (hframe : s'.frame = s.frame) (hagree : Agree (fun _ => True) (s.regs, s.tx) (s'.regs, s'.tx)) :
    Undisturbed c (fun _ => True) s s' t p h :=
  ⟨hpc, hwaiting, hframe, hagree, fun _ _ _ _ => trivial⟩

include d

theorem owned {x y : TxRegs × TxState} (k : Nat) (hxy : Agree D x y) (hk : t ≤ k)
    (hk' : k < t + c.dmaTxSize.toNat) (hor : k < p ∨ h ≤ k) : ownedAt c y.2 k = ownedAt c x.2 k :=
  hxy.owned (d.kept k hk hk' hor)

theorem free {g : Nat} (hth : t ≤ h) (hg : h ≤ g)
    (hf : ∀ k, g ≤ k → k < t + c.dmaTxSize.toNat → ownedAt c s.tx k = false) :
    ∀ k, g ≤ k → k < t + c.dmaTxSize.toNat → ownedAt c s'.tx k = false :=
  fun k hk hk' => (d.owned k d.agree (by omega) hk' (.inr (by omega))).trans (hf k hk hk')

theorem waits (hw : Waits c s t h) : Waits c s' t h := by
  rwa [Waits, d.waiting]

theorem rest (r : AtRest c s t h) : AtRest c s' t h where
  pc := by rw [d.pc]; exact r.pc
  frame := d.frame.trans r.frame
  window := r.window.congr d.agree.dirtyTx d.agree.curTx
  free := d.free r.window.le (Nat.le_refl h) r.free
  waits := d.waits r.waits

theorem round {op : TxOp} {l : List TxOp} (r : InRound c s t p h op l) (hp' : p ≤ p')
    (hth : t ≤ h) (hlt : h < t + c.dmaTxSize.toNat) : InRound c s' t p' h op l where
  pc := d.pc.trans r.pc
  frame := d.frame.trans r.frame
  lt := Nat.lt_of_lt_of_le r.lt hp'
  free := d.free hth (Nat.le_refl h) r.free
  waits := d.waits r.waits
  safe := by
    refine r.safe.stable (R := Agree D) Agree.run ?_ ?_ d.agree
    · intro x y op hxy hP
      refine ⟨hxy.curTx.trans hP.curTx, hxy.dirtyTx.trans hP.dirtyTx,
        (d.owned t hxy (Nat.le_refl t) (by omega) (.inl r.lt)).trans hP.slot, fun e he => ?_⟩
      rw [hxy.regs] at he
      exact hP.target e he
    · intro x y hxy hQ
      exact ⟨hxy.curTx.trans hQ.curTx, hxy.dirtyTx.trans hQ.dirtyTx,
        (d.owned t hxy (Nat.le_refl t) (by omega) (.inl r.lt)).trans hQ.slot⟩

theorem fill {m : Nat} {l after : List TxOp} (r : InFill c s t h m l after) (hth : t ≤ h)
    (hlt : h < t + c.dmaTxSize.toNat) : InFill c s' t h m l after where
  pc := d.pc.trans r.pc
  frame := d.frame.trans r.frame
  none := d.waiting.trans r.none
  room := r.room
  free := d.free hth (Nat.le_add_right h _) r.free
  safe := by
    have hroom := r.room
    refine r.safe.stable (R := Agree D) Agree.run ?_ ?_ d.agree
    · intro x y op hxy hP
      refine ⟨(d.owned h hxy hth hlt (.inr (Nat.le_refl h))).trans hP.1, fun e he => ?_⟩
      rw [hxy.regs] at he
      exact hP.2 e he
    · intro x y hxy hQ
      refine ⟨hxy.regs ▸ hQ.first, hxy.regs ▸ hQ.entry, hxy.curTx.trans hQ.curTx,
        hxy.dirtyTx.trans hQ.dirtyTx,
        (d.owned h hxy hth hlt (.inr (Nat.le_refl h))).trans hQ.head, fun i hi hi' => ?_⟩
      exact (d.owned (h + i) hxy (by omega) (by omega) (.inr (by omega))).trans (hQ.rest i hi hi')
  safe' := r.safe'

theorem sent {l : List TxOp} (r : InSent c s t h l) (hth : t ≤ h) : InSent c s' t h l where
  pc := d.pc.trans r.pc
  none := d.waiting.trans r.none
  free := d.free hth (Nat.le_refl h) r.free
  safe := r.safe.stable (R := Agree D) Agree.run (fun _ hP => hP)
    (fun hxy hQ => ⟨hxy.curTx.trans hQ.1, hxy.dirtyTx.trans hQ.2⟩) d.agree

theorem held (hh : Held c s t p h) (hp' : p ≤ p') (hth : t ≤ h)
    (hlt : h < t + c.dmaTxSize.toNat) : Held c s' t p' h := by
  cases hh with
  | rest r => exact .rest (d.rest r)
  | round op l r => exact .round op l (d.round r hp' hth hlt)
  | fill m l after r => exact .fill m l after (d.fill r hth hlt)
  | sent l r => exact .sent l (d.sent r hth)

end Undisturbed

/-- Some counters describe the state. -/
def MicroInv (c : Conf) (s : TxMicro) : Prop :=
  ∃ t p h, Fetching c s t p h ∧ Held c s t p h

theorem Fetching.complete (f : Fetching c s t p h) (hh : Held c s t p h) {desc : DmaDesc}
    (hs : txMicroStep c w s (.complete desc) = some s') : MicroInv c s' := by
  have hle := f.le
  have hahead := f.ahead
  have hlt := f.lt
  simp only [txMicroStep] at hs
  split at hs
  · next hpos =>
    obtain ⟨tx, htx, rfl⟩ := Option.map_eq_some_iff.mp hs
    obtain ⟨-, -, rfl⟩ := txComplete_eq htx
    have hagree : Agree (· ≠ p % c.dmaTxSize.toNat) (s.regs, s.tx)
        (s.regs, s.tx.modify s.pos ({ · with desc := desc })) := by
      refine ⟨rfl, rfl, rfl, rfl, fun e he => ?_⟩
      rw [TxState.modify_ring, f.pos_eq, Function.update_of_ne he]
    have hD : ∀ k, t ≤ k → k < t + c.dmaTxSize.toNat → k ≠ p →
        k % c.dmaTxSize.toNat ≠ p % c.dmaTxSize.toNat := fun k hk hk' hne =>
      Ring.mod_ne_of_window t ⟨hk, hk', hle, by omega, hne⟩
    have d : Undisturbed c (· ≠ p % c.dmaTxSize.toNat) s { s with
        tx := s.tx.modify s.pos ({ · with desc := desc })
        pos := (s.pos + 1) % c.dmaTxSize.toNat
        ahead := s.ahead - 1 } t p h :=
      ⟨rfl, rfl, rfl, hagree, fun k hk hk' hor => hD k hk hk' (by omega)⟩
    refine ⟨t, p + 1, h, ⟨?_, by omega, ?_, hlt, fun k hk hk' => ?_⟩,
      d.held hh (Nat.le_add_right p 1) (by omega) hlt⟩
    · simp only [f.pos_eq, Nat.mod_add_mod]
    · show p + 1 + (s.ahead - 1) ≤ h; omega
    · exact (hagree.owned (hD k (by omega) (by omega) (by omega))).trans
        (f.queued k (by omega) hk')
  · cases hs

theorem Fetching.fetch (f : Fetching c s t p h) (hh : Held c s t p h)
    (hs : txMicroStep c w s .fetch = some s') : MicroInv c s' := by
  simp only [txMicroStep] at hs
  split at hs
  · next hown =>
    obtain rfl := Option.some.inj hs
    have hlt := (f.fetchSlot hh hown).1
    have hle := f.le
    have d : Undisturbed c (fun _ => True) s { s with ahead := s.ahead + 1 } t p h :=
      .of_eq rfl rfl rfl ⟨rfl, rfl, rfl, rfl, fun _ _ => rfl⟩
    exact ⟨t, p, h, ⟨f.pos_eq, hle, hlt, f.lt, f.queued⟩,
      d.held hh (Nat.le_refl p) (by omega) f.lt⟩
  · cases hs

/-! ## Steps of the driver -/

/-- A frame comes to wait for the lock, or finds no room. -/
theorem Fetching.xmit (f : Fetching c s t p h) (hh : Held c s t p h) {skb : TxSkb}
    {dma : Nat → BitVec 32} (hstamp : skb.stamped c = false)
    (hs : txMicroStep c w s (.xmit skb dma) = some s') : MicroInv c s' := by
  have hth : t ≤ h := by have := f.le; have := f.ahead; omega
  have hsending : ∀ l, s.pc ≠ .sending l := by
    intro l hpc
    simp only [txMicroStep, hpc] at hs
    cases hs
  have hnone : s.waiting = none := by
    cases hw : s.waiting with
    | none => rfl
    | some x =>
      cases hpc : s.pc with
      | sending l => exact absurd hpc (hsending l)
      | idle | reclaiming l => simp only [txMicroStep, hw, hpc] at hs; cases hs
  have hs : some s' = if XmitFits c s.tx skb then some { s with waiting := some (skb, dma) }
      else some { s with tx := { s.tx with queueStopped := true } } := by
    cases hpc : s.pc with
    | sending l => exact absurd hpc (hsending l)
    | idle | reclaiming l => simpa only [txMicroStep, hnone, hpc] using hs.symm
  split at hs
  · next hfit =>
    obtain rfl := Option.some.inj hs
    have hwaits : TxWindow c s.tx t h → Waits c { s with waiting := some (skb, dma) } t h := by
      intro window skb' dma' he
      obtain ⟨rfl, rfl⟩ := Prod.mk.inj (Option.some.inj he)
      exact ⟨hfit.room window, hstamp⟩
    refine ⟨t, p, h, ⟨f.pos_eq, f.le, f.ahead, f.lt, f.queued⟩, ?_⟩
    cases hh with
    | rest r => exact .rest ⟨r.pc, r.frame, r.window, r.free, hwaits r.window⟩
    | round op l r =>
      exact .round op l ⟨r.pc, r.frame, r.lt, r.free,
        hwaits ⟨r.safe.1.dirtyTx, r.safe.1.curTx, hth, f.lt⟩, r.safe⟩
    | fill m l after r => exact absurd r.pc (hsending _)
    | sent l r => exact absurd r.pc (hsending _)
  · obtain rfl := Option.some.inj hs
    have d : Undisturbed c (fun _ => True) s { s with tx := { s.tx with queueStopped := true } }
        t p h := .of_eq rfl rfl rfl ⟨rfl, rfl, rfl, rfl, fun _ _ => rfl⟩
    exact ⟨t, p, h, ⟨f.pos_eq, f.le, f.ahead, f.lt, f.queued⟩,
      d.held hh (Nat.le_refl p) hth f.lt⟩

/-- A call starts only at rest. -/
theorem Held.of_idle (hh : Held c s t p h) (hpc : s.pc = .idle) : AtRest c s t h := by
  cases hh with
  | rest r => exact r
  | round op l r => cases hpc.symm.trans r.pc
  | fill m l after r => cases hpc.symm.trans r.pc
  | sent l r => cases hpc.symm.trans r.pc

theorem Fetching.txClean (f : Fetching c s t p h) (hh : Held c s t p h)
    (hs : txMicroStep c w s .txClean = some s') : MicroInv c s' := by
  simp only [txMicroStep] at hs
  split at hs
  · next hpc =>
    obtain rfl := Option.some.inj hs
    have r := hh.of_idle hpc
    exact ⟨t, p, h, ⟨f.pos_eq, f.le, f.ahead, f.lt, f.queued⟩,
      .rest ⟨.inr rfl, r.frame, r.window.congr rfl rfl, r.free, r.waits⟩⟩
  · cases hs

section Lawful

variable (ops : c.desc.Lawful) (hp : IsPow2 c.dmaTxSize) (hw : w.Split c.desc)

include ops hp hw in
/-- The waiting frame takes the lock. -/
theorem Fetching.xmitLock (f : Fetching c s t p h) (hh : Held c s t p h)
    (hs : txMicroStep c w s .xmitLock = some s') : MicroInv c s' := by
  simp only [txMicroStep] at hs
  split at hs
  · next skb dma hpc hwaiting =>
    obtain rfl := Option.some.inj hs
    have r := hh.of_idle hpc
    have window := r.window
    have hle := window.le
    obtain ⟨hroom, hstamp⟩ := r.waits skb dma hwaiting
    refine ⟨t, p, h, ⟨f.pos_eq, f.le, f.ahead, f.lt, f.queued⟩, .fill skb.frags.length
      (xmitFillOps c w skb dma) (xmitAfterOps c skb) ⟨rfl, ?_, rfl, hroom, fun k hk hk' =>
        r.free k (by omega) hk', xmitFillOps_safe ops hp hw dma (by omega) window.cur window.dirty
          (r.free h (Nat.le_refl h) f.lt), fun x => xmitAfterOps_safe ops hstamp⟩⟩
    refine List.map_congr_left fun i _ => ?_
    rw [window.cur, ← BitVec.ofNat_add, txEntry_ofNat hp]
  · cases hs

include ops hp hw in
/-- The reclaimer reads its loop condition, or returns. -/
theorem AtRest.cpu (r : AtRest c s t h) (f : Fetching c s t p h)
    (hs : txMicroStep c w s .cpu = some s') : MicroInv c s' := by
  have window := r.window
  rcases r.pc with hpc | hpc
  · simp only [txMicroStep, txCpuStep, hpc] at hs
    cases hs
  simp only [txMicroStep, txCpuStep, hpc] at hs
  split at hs
  · next hg =>
    obtain rfl := Option.some.inj hs
    have hlt := window.lt_of_guard hg
    have hslot := (txCleanGuard_iff.mp hg).2
    rw [window.entry_dirty hp] at hslot
    have hne : t ≠ p := by
      rintro rfl
      have hown := f.queued t (Nat.le_refl t) hlt
      rw [ownedAt, hslot] at hown
      cases hown
    exact ⟨t, p, h, ⟨f.pos_eq, f.le, f.ahead, f.lt, f.queued⟩, .round _ _ ⟨rfl, r.frame,
      Nat.lt_of_le_of_ne f.le hne, r.free, r.waits,
      cleanOps_safe ops hp hw window.cur window.dirty hslot⟩⟩
  · obtain rfl := Option.some.inj hs
    have hring : ∀ k, ownedAt c (txCleanTail c s.tx) k = ownedAt c s.tx k := by
      intro k
      rw [ownedAt, txCleanTail_ring, ownedAt]
    exact ⟨t, p, h, ⟨f.pos_eq, f.le, f.ahead, f.lt,
      fun k hk hk' => (hring k).trans (f.queued k hk hk')⟩, .rest ⟨.inl rfl, r.frame,
        window.congr (txCleanTail_dirtyTx ..) (txCleanTail_curTx ..),
        fun k hk hk' => (hring k).trans (r.free k hk hk'), r.waits⟩⟩

end Lawful

/-- One operation of a round; the last one frees the slot. -/
theorem InRound.cpu {op : TxOp} {l : List TxOp} (r : InRound c s t p h op l)
    (f : Fetching c s t p h) (hs : txMicroStep c w s .cpu = some s') : MicroInv c s' := by
  have hahead := f.ahead
  have hlt := f.lt
  have hlt' := r.lt
  simp only [txMicroStep, txCpuStep, r.pc] at hs
  obtain rfl := Option.some.inj hs
  have hother : ∀ k, t < k → k < t + c.dmaTxSize.toNat →
      ownedAt c (op.run c (s.regs, s.tx)).2 k = ownedAt c s.tx k := by
    intro k hk hk'
    refine run_owned fun e he => ?_
    rw [r.safe.1.target e he]
    exact Ring.mod_ne_of_window t (by omega)
  have hqueued : ∀ k, p ≤ k → k < h → ownedAt c (op.run c (s.regs, s.tx)).2 k = true :=
    fun k hk hk' => (hother k (by omega) (by omega)).trans (f.queued k hk hk')
  have hfree : ∀ k, h ≤ k → k < t + c.dmaTxSize.toNat →
      ownedAt c (op.run c (s.regs, s.tx)).2 k = false :=
    fun k hk hk' => (hother k (by omega) hk').trans (r.free k hk hk')
  cases l with
  | nil =>
    have done : CleanDone c t h (op.run c (s.regs, s.tx)) := r.safe.2
    refine ⟨t + 1, p, h, ⟨f.pos_eq, hlt', hahead, by omega, hqueued⟩, .rest ⟨.inr rfl, r.frame,
      ⟨done.dirtyTx, done.curTx, by omega, by omega⟩, fun k hk hk' => ?_, fun skb dma he => ?_⟩⟩
    · rcases Nat.lt_or_ge k (t + c.dmaTxSize.toNat) with hkN | hkN
      · exact hfree k hk hkN
      · have hkt : k % c.dmaTxSize.toNat = t % c.dmaTxSize.toNat := by
          rw [show k = t + c.dmaTxSize.toNat by omega, Nat.add_mod_right]
        rw [ownedAt, hkt]
        exact done.slot
    · obtain ⟨hroom, hstamp⟩ := r.waits skb dma he
      exact ⟨by omega, hstamp⟩
  | cons op' l =>
    exact ⟨t, p, h, ⟨f.pos_eq, f.le, hahead, hlt, hqueued⟩,
      .round op' l ⟨rfl, r.frame, hlt', hfree, r.waits, r.safe.2⟩⟩

/-- One operation of a frame; the last one hands over the head. -/
theorem InFill.cpu {m : Nat} {l after : List TxOp} (ops : c.desc.Lawful)
    (r : InFill c s t h m l after) (f : Fetching c s t p h)
    (hs : txMicroStep c w s .cpu = some s') : MicroInv c s' := by
  have hle := f.le
  have hahead := f.ahead
  have hroom := r.room
  have hother : ∀ op k, FillOk c h (m + 1) (s.regs, s.tx) op → t ≤ k →
      k < t + c.dmaTxSize.toNat → k < h ∨ h + (m + 1) ≤ k →
      ownedAt c (op.run c (s.regs, s.tx)).2 k = ownedAt c s.tx k := by
    intro op k hok hk hk' hor
    refine run_owned fun e he => ?_
    obtain ⟨i, hi, rfl⟩ := hok.2 e he
    exact Ring.mod_ne_of_window t (by omega)
  cases l with
  | nil =>
    have hfill : Filling c t h m (m + 1) (s.regs, s.tx) := r.safe
    have hok := hfill.ok (Nat.lt_succ_self m) (.des01 .first c.desc.setTxOwner)
    simp only [txMicroStep, txCpuStep, r.pc, List.nil_append] at hs
    obtain rfl := Option.some.inj hs
    refine ⟨t, p, h + (m + 1), ⟨f.pos_eq, hle, Nat.le_add_right_of_le hahead, hroom,
      fun k hk hk' => ?_⟩, .sent after ⟨rfl, r.none, fun k hk hk' =>
        (hother _ k hok (by omega) hk' (.inr hk)).trans (r.free k hk hk'),
        r.safe' _ hfill.curTx hfill.dirtyTx⟩⟩
    rcases Nat.lt_or_ge k h with hkh | hkh
    · exact (hother _ k hok (by omega) (by omega) (.inl hkh)).trans (f.queued k hk hkh)
    · obtain ⟨i, rfl⟩ := Nat.exists_eq_add_of_le hkh
      exact hfill.handedOver ops (by omega) i (by omega)
  | cons op l =>
    simp only [txMicroStep, txCpuStep, r.pc, List.cons_append] at hs
    obtain rfl := Option.some.inj hs
    exact ⟨t, p, h, ⟨f.pos_eq, hle, hahead, f.lt, fun k hk hk' =>
      (hother op k r.safe.1 (by omega) (by omega) (.inl hk')).trans (f.queued k hk hk')⟩,
      .fill m l after ⟨rfl, r.frame, r.none, hroom, fun k hk hk' =>
        (hother op k r.safe.1 (by omega) hk' (.inr hk)).trans (r.free k hk hk'), r.safe.2,
        r.safe'⟩⟩

theorem InSent.cpu {l : List TxOp} (r : InSent c s t h l) (f : Fetching c s t p h)
    (hs : txMicroStep c w s .cpu = some s') : MicroInv c s' := by
  have hle := f.le
  have hahead := f.ahead
  simp only [txMicroStep, txCpuStep, r.pc] at hs
  cases l with
  | nil =>
    obtain rfl := Option.some.inj hs
    have hdone : SentDone t h (s.regs, s.tx) := r.safe
    refine ⟨t, p, h, ⟨f.pos_eq, hle, hahead, f.lt, f.queued⟩, .rest ⟨.inl rfl, rfl,
      ⟨hdone.2, hdone.1, by omega, f.lt⟩, r.free, fun skb dma he => ?_⟩⟩
    exact absurd (r.none.symm.trans he) nofun
  | cons op l =>
    obtain rfl := Option.some.inj hs
    have hother : ∀ k, ownedAt c (op.run c (s.regs, s.tx)).2 k = ownedAt c s.tx k := fun k =>
      run_owned fun e he => by rw [target_of_not_write r.safe.1] at he; cases he
    exact ⟨t, p, h, ⟨f.pos_eq, hle, hahead, f.lt, fun k hk hk' =>
      (hother k).trans (f.queued k hk hk')⟩, .sent l ⟨rfl, r.none, fun k hk hk' =>
        (hother k).trans (r.free k hk hk'), r.safe.2⟩⟩

theorem MicroInv.step (ops : c.desc.Lawful) (hp : IsPow2 c.dmaTxSize) (hw : w.Split c.desc)
    (inv : MicroInv c s) (hok : NoHwTstamp c a) (hs : txMicroStep c w s a = some s') :
    MicroInv c s' := by
  obtain ⟨t, p, h, f, hh⟩ := inv
  cases a with
  | xmit skb dma => exact f.xmit hh hok hs
  | xmitLock => exact f.xmitLock ops hp hw hh hs
  | txClean => exact f.txClean hh hs
  | fetch => exact f.fetch hh hs
  | complete desc => exact f.complete hh hs
  | cpu =>
    cases hh with
    | rest r => exact r.cpu ops hp hw f hs
    | round op l r => exact r.cpu f hs
    | fill m l after r => exact r.cpu ops f hs
    | sent l r => exact r.cpu f hs

/-- With no hardware time stamp asked for, nothing in reach of the DMA is ever written. -/
theorem tx_hands_over {tx : TxState} {as : List TxMicroAct} (ops : c.desc.Lawful)
    (hp : IsPow2 c.dmaTxSize) (hw : w.Split c.desc) (hcur : tx.curTx = 0) (hdirty : tx.dirtyTx = 0)
    (hfree : ∀ i < c.dmaTxSize.toNat, c.txOwned (tx.ring i) = false)
    (run : Run (txMicroStep c w) (fun _ => NoHwTstamp c) (.start tx) as s) : HandsOver c s := by
  have hpos : (TxMicro.start tx).pos = 0 % c.dmaTxSize.toNat := (Nat.zero_mod _).symm
  have hfree' : ∀ k, 0 ≤ k → k < 0 + c.dmaTxSize.toNat → ownedAt c tx k = false :=
    fun k _ _ => hfree _ (Nat.mod_lt k hp.pos)
  have hinit : MicroInv c (.start tx) :=
    ⟨0, 0, 0, ⟨hpos, Nat.le_refl 0, Nat.le_refl 0, by have := hp.pos; omega,
      fun k _ hk => absurd hk (Nat.not_lt_zero k)⟩,
      .rest ⟨.inl rfl, rfl, ⟨hdirty, hcur, Nat.le_refl 0, by have := hp.pos; omega⟩, hfree', nofun⟩⟩
  obtain ⟨t, p, h, f, hh⟩ := run.invariant (I := MicroInv c)
    (fun inv hok hs => inv.step ops hp hw hok hs) hinit
  exact f.handsOver hh

end Invariant

/-- Two descriptors sent, one completed and being reclaimed, the next frame waiting for the
lock. -/
theorem tx_hands_over_two_frames :
    ∃ s, Run (txMicroStep (.normal 64) ndescWrites) (fun _ => NoHwTstamp (.normal 64))
        (.start (.idle (.normal 64)))
        ([TxMicroAct.xmit (.plain 7 60 [100]) fun i => 4096 + BitVec.ofNat 32 i, .xmitLock] ++
          List.replicate 32 TxMicroAct.cpu ++
          [TxMicroAct.fetch, .fetch, .complete ⟨⟨0, 0⟩, 4096, 0⟩, .txClean,
            .xmit (.plain 8 60 []) fun _ => 8192, .cpu, .cpu, .cpu]) s ∧
      HandsOver (.normal 64) s :=
  exec_exists (by decide +kernel) fun _ run =>
    tx_hands_over (c := .normal 64) ndescOps_lawful ⟨6, rfl⟩ ndescWrites_split rfl rfl
      (fun i _ => idle_owned 64 i) run

/-- The request for a time stamp writes the head, which the DMA already owns. -/
theorem tstamp_after_hand_over :
    ∃ s, Run (txMicroStep { Conf.normal 64 with hwtsTxEn := true } ndescWrites) (fun _ _ => True)
        (.start (.idle (.normal 64)))
        (.xmit { TxSkb.plain 7 60 [] with hwTstamp := true } (fun _ => 4096) :: .xmitLock ::
          List.replicate 20 .cpu) s ∧
      ¬ HandsOver { Conf.normal 64 with hwtsTxEn := true } s := by
  have hrun : ∃ s, Run (txMicroStep { Conf.normal 64 with hwtsTxEn := true } ndescWrites)
        (fun _ _ => True) (.start (.idle (.normal 64)))
        (.xmit { TxSkb.plain 7 60 [] with hwTstamp := true } (fun _ => 4096) :: .xmitLock ::
          List.replicate 20 .cpu) s ∧
      s.pc.ops.head?.bind (·.writes s.regs) = some 0 ∧ s.pos = 0 ∧
        (Conf.normal 64).txOwned (s.tx.ring 0) = true := exec_reaches (by decide +kernel)
  obtain ⟨s, run, hhead, hpos, hown⟩ := hrun
  refine ⟨s, run, fun hover => ?_⟩
  obtain ⟨op, hop, hwrite⟩ := Option.bind_eq_some_iff.mp hhead
  obtain ⟨ops, hops⟩ := List.head?_eq_some_iff.mp hop
  refine hover.write op ops 0 hops hwrite ⟨0, by decide, by rw [hpos]; rfl, fun j hj => ?_⟩
  obtain rfl : j = 0 := by omega
  rw [hpos]
  exact hown

end Stmmac
