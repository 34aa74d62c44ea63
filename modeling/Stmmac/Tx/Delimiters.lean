import Stmmac.Tx.Occupancy

/-!
# Transmit side: frame delimiters of normal descriptors

`prepare_tx_desc` and `close_tx_desc` write some control bits of a descriptor and rely on the
others being clear. `release_tx_desc` clears a descriptor; `init_tx_desc`, which `stmmac_tx_err`
uses, does not. A queued frame is delimited exactly when its slots carry no bits left over by an
earlier frame, and they carry none as long as `stmmac_tx_err` finds nothing in flight.
-/

namespace Stmmac

open Library

/-- Every segment is at most 2047 bytes long. -/
def TxSkb.Short (skb : TxSkb) : Prop :=
  skb.headlen.toNat ≤ 2047 ∧ ∀ len ∈ skb.frags, len.toNat ≤ 2047

instance (skb : TxSkb) : Decidable skb.Short :=
  -- not through the finiteness of `BitVec 32`
  have : Decidable (∀ len ∈ skb.frags, len.toNat ≤ 2047) := List.decidableBAll _ _
  inferInstanceAs (Decidable (_ ∧ _))

/-- Descriptor `i` of a frame of `n + 1` descriptors. -/
structure DelimitedAt (csum : Bool) (n i : Nat) (p : Des01) : Prop where
  first : p.test Tx.firstSegment = decide (i = 0)
  last : p.test Tx.lastSegment = decide (i = n)
  interrupt : p.test Tx.interrupt = true → i = n
  checksum : p.test Tx.checksumInsertion = csum
  own : p.test Tx.own = true

/-- The descriptors that `skb` took from `s`, as `s'` holds them. -/
def Delimited (c : Conf) (s : TxState) (skb : TxSkb) (s' : TxState) : Prop :=
  ∀ i ≤ skb.frags.length, DelimitedAt skb.csumPartial skb.frags.length i
    (s'.ring (c.txEntry (s.curTx + BitVec.ofNat 32 i))).desc.des01

/-- Bits that would survive in descriptor `i` of a frame of `n + 1` descriptors: the delimiters of
a last segment anywhere else, and checksum insertion when the frame does not ask for it. -/
def LeftOver (csum : Bool) (n i : Nat) (p : Des01) : Bool :=
  (i != n && (p.test Tx.lastSegment || p.test Tx.interrupt)) ||
    (!csum && p.test Tx.checksumInsertion)

theorem leftOver_of_last {n i : Nat} {p : Des01} (csum : Bool) (hi : i ≠ n)
    (hlast : p.test Tx.lastSegment = true) : LeftOver csum n i p = true := by
  simp [LeftOver, hi, hlast]

/-- No slot that `skb` would take carries such bits. -/
def NoLeftOver (c : Conf) (s : TxState) (skb : TxSkb) : Prop :=
  ∀ i ≤ skb.frags.length, LeftOver skb.csumPartial skb.frags.length i
    (s.ring (c.txEntry (s.curTx + BitVec.ofNat 32 i))).desc.des01 = false

variable {c : Conf} {s s' : TxState} {skb : TxSkb} {dma : Nat → BitVec 32} {a : TxAct}
  {t h : Nat}

/-! ## One slot -/

/-- What `prepare_tx_desc` leaves of the control bits of a descriptor. -/
theorem ndescPrepareTxDesc_bits (p : Des01) (isFs : Bool) {len : BitVec 32}
    (hlen : len.toNat ≤ 2048) (csumFlag : Bool) (mode : Mode) :
    let q := ndescPrepareTxDesc p isFs len csumFlag mode
    q.test Tx.firstSegment = isFs ∧ q.test Tx.lastSegment = p.test Tx.lastSegment ∧
      q.test Tx.interrupt = p.test Tx.interrupt ∧
      q.test Tx.checksumInsertion = (csumFlag || p.test Tx.checksumInsertion) := by
  rw [ndescPrepareTxDesc_of_le p isFs hlen]
  cases isFs <;> cases csumFlag <;> simp (disch := decide)

theorem TxSkb.Short.frag (hshort : skb.Short) (i : Nat) : (skb.frags.getD i 0).toNat ≤ 2048 := by
  rcases Nat.lt_or_ge i skb.frags.length with hi | hi
  · have := hshort.2 _ (List.getElem_mem hi)
    rw [List.getD_eq_getElem?_getD, List.getElem?_eq_getElem hi]
    simpa using Nat.le_succ_of_le this
  · simp [hi]

section Slot

variable (hd : c.desc = ndescOps)

include hd in
theorem segSlot_bits (dma : Nat → BitVec 32) (hshort : skb.Short) (i : Nat) (p : TxSlot) :
    let q := (c.segSlot skb dma i p).desc.des01
    q.test Tx.firstSegment = decide (i = 0) ∧
      q.test Tx.lastSegment = p.desc.des01.test Tx.lastSegment ∧
      q.test Tx.interrupt = p.desc.des01.test Tx.interrupt ∧
      q.test Tx.checksumInsertion =
        (skb.csumPartial || p.desc.des01.test Tx.checksumInsertion) := by
  cases i with
  | zero =>
    have := ndescPrepareTxDesc_bits p.desc.des01 true (Nat.le_succ_of_le hshort.1)
      skb.csumPartial c.mode
    simpa [Conf.segSlot, Conf.prepareSlot, hd, ndescOps] using this
  | succ i =>
    have := ndescPrepareTxDesc_bits p.desc.des01 false (hshort.frag i) skb.csumPartial c.mode
    simpa (disch := decide) [Conf.segSlot, Conf.fragSlot, Conf.prepareSlot, hd, ndescOps,
      ndescSetTxOwner] using this

include hd in
theorem closeSlot_bits (n : BitVec 32) (p : TxSlot) :
    let q := (c.closeSlot s n p).desc.des01
    q.test Tx.firstSegment = p.desc.des01.test Tx.firstSegment ∧
      q.test Tx.lastSegment = true ∧
      q.test Tx.checksumInsertion = p.desc.des01.test Tx.checksumInsertion := by
  unfold Conf.closeSlot
  dsimp only
  split <;> simp (disch := decide) [hd, ndescOps, ndescCloseTxDesc, ndescClearTxIc]

include hd in
theorem firstSlot_bits (skb : TxSkb) (p : TxSlot) :
    let q := (c.firstSlot skb p).desc.des01
    q.test Tx.firstSegment = p.desc.des01.test Tx.firstSegment ∧
      q.test Tx.lastSegment = p.desc.des01.test Tx.lastSegment ∧
      q.test Tx.interrupt = p.desc.des01.test Tx.interrupt ∧
      q.test Tx.checksumInsertion = p.desc.des01.test Tx.checksumInsertion := by
  unfold Conf.firstSlot Conf.stampSlot
  split <;> simp (disch := decide) [hd, ndescOps, ndescSetTxOwner, ndescEnableTxTimestamp]

include hd in
theorem xmitSlot_bits (s : TxState) (dma : Nat → BitVec 32) (hshort : skb.Short) (i : Nat)
    (p : TxSlot) :
    let q := (c.xmitSlot s skb dma i p).desc.des01
    q.test Tx.firstSegment = decide (i = 0) ∧
      q.test Tx.lastSegment = (decide (i = skb.frags.length) || p.desc.des01.test Tx.lastSegment) ∧
      (i ≠ skb.frags.length → q.test Tx.interrupt = p.desc.des01.test Tx.interrupt) ∧
      q.test Tx.checksumInsertion =
        (skb.csumPartial || p.desc.des01.test Tx.checksumInsertion) := by
  obtain ⟨hfs, hls, hic, hcs⟩ := segSlot_bits hd dma hshort i p
  have hlast : let q := if i = skb.frags.length then
        c.closeSlot s (BitVec.ofNat 32 (skb.frags.length + 1)) (c.segSlot skb dma i p)
      else c.segSlot skb dma i p
      q.desc.des01.test Tx.firstSegment = decide (i = 0) ∧
      q.desc.des01.test Tx.lastSegment =
        (decide (i = skb.frags.length) || p.desc.des01.test Tx.lastSegment) ∧
      (i ≠ skb.frags.length →
        q.desc.des01.test Tx.interrupt = p.desc.des01.test Tx.interrupt) ∧
      q.desc.des01.test Tx.checksumInsertion =
        (skb.csumPartial || p.desc.des01.test Tx.checksumInsertion) := by
    split
    · next hn =>
      obtain ⟨hfs', hls', hcs'⟩ := closeSlot_bits (s := s) hd
        (BitVec.ofNat 32 (skb.frags.length + 1)) (c.segSlot skb dma i p)
      exact ⟨hfs'.trans hfs, by rw [hls']; simp [hn], fun hne => absurd hn hne, hcs'.trans hcs⟩
    · next hn => exact ⟨hfs, by simp [hls, hn], fun _ => hic, hcs⟩
  unfold Conf.xmitSlot
  dsimp only at hlast ⊢
  generalize (if i = skb.frags.length then
      c.closeSlot s (BitVec.ofNat 32 (skb.frags.length + 1)) (c.segSlot skb dma i p)
    else c.segSlot skb dma i p) = q at hlast ⊢
  split
  · obtain ⟨hfs', hls', hic', hcs'⟩ := firstSlot_bits hd skb q
    exact ⟨hfs'.trans hlast.1, hls'.trans hlast.2.1, fun hne => hic'.trans (hlast.2.2.1 hne),
      hcs'.trans hlast.2.2.2⟩
  · exact hlast

include hd in
/-- A slot of a frame is delimited exactly when it held no left-over bits. -/
theorem xmitSlot_delimited_iff (hshort : skb.Short) (i : Nat) (p : TxSlot) :
    DelimitedAt skb.csumPartial skb.frags.length i (c.xmitSlot s skb dma i p).desc.des01 ↔
      LeftOver skb.csumPartial skb.frags.length i p.desc.des01 = false := by
  have ops : c.desc.Lawful := hd ▸ ndescOps_lawful
  have hown : (c.xmitSlot s skb dma i p).desc.des01.test Tx.own = true := by
    have hset : c.txOwned (c.xmitSlot s skb dma i p) = true := xmitSlot_owned ops i p
    rwa [Conf.txOwned, hd] at hset
  obtain ⟨hfs, hls, hic, hcs⟩ := xmitSlot_bits hd s dma hshort i p
  unfold LeftOver
  constructor
  · intro hdel
    have hlast := hdel.last
    have hint := hdel.interrupt
    have hck := hdel.checksum
    grind
  · intro hclear
    refine ⟨hfs, ?_, ?_, ?_, hown⟩
    · grind
    · grind
    · grind

end Slot

/-! ## Runs -/

/-- The frames have short segments, and the hardware writes back the status word only. -/
def ShortFrames (s : TxState) : TxAct → Prop
  | .xmit skb _ => skb.Short
  | .rtl8211Xmit _ _ => False
  | .txClean => True
  | .txErr => True
  | .complete entry desc => StatusOnly s entry desc

/-- `stmmac_tx_err` finds nothing in flight. -/
def ErrWhenIdle (s : TxState) : TxAct → Prop
  | .txErr => s.dirtyTx = s.curTx
  | _ => True

/-- The control bits that only some of the calls write. -/
def TxSlot.Clear (p : TxSlot) : Prop :=
  p.desc.des01.test Tx.lastSegment = false ∧ p.desc.des01.test Tx.interrupt = false ∧
    p.desc.des01.test Tx.checksumInsertion = false

theorem TxSlot.Clear.noLeftOver {p : TxSlot} (hp : p.Clear) (csum : Bool) (n i : Nat) :
    LeftOver csum n i p.desc.des01 = false := by
  obtain ⟨hls, hic, hcs⟩ := hp
  simp [LeftOver, hls, hic, hcs]

/-- The slots outside the window are clear. -/
structure ClearInv (c : Conf) (s : TxState) (t h : Nat) : Prop where
  window : TxWindow c s t h
  clear : FreeSlots c s t h TxSlot.Clear

section Runs

variable (hd : c.desc = ndescOps) (hp : IsPow2 c.dmaTxSize)

include hd in
theorem reclaimSlot_clear (p : TxSlot) : (c.reclaimSlot p).Clear := by
  unfold TxSlot.Clear Conf.reclaimSlot
  cases c.mode <;> simp (disch := decide) [hd, ndescOps, ndescReleaseTxDesc,
    ndescEndTxDescOnRing, ndescEndTxDescOnChain]

include hd in
/-- `init_tx_desc` keeps the bits: a clear slot stays clear, and no other becomes so. -/
theorem errSlot_clear_iff (i : Nat) (p : TxSlot) : (c.errSlot i p).Clear ↔ p.Clear := by
  unfold TxSlot.Clear Conf.errSlot
  cases c.mode <;> cases (i == c.dmaTxSize.toNat - 1) <;>
    simp (disch := decide) [hd, ndescOps, ndescInitTxDesc, ndescTxSetOnRing, ndescTxSetOnChain]

theorem clear_of_des1 {p q : TxSlot} (h : q.desc.des01.des1 = p.desc.des01.des1) (hp : p.Clear) :
    q.Clear := by
  have htest : ∀ f : Field, f.word = .des1 → q.desc.des01.test f = p.desc.des01.test f := by
    intro f hf
    simp [Des01.test, Des01.get, Des01.word, hf, h]
  unfold TxSlot.Clear at hp ⊢
  rw [htest _ rfl, htest _ rfl, htest _ rfl]
  exact hp

theorem ClearInv.congr (inv : ClearInv c s t h) (hsame : SameRing s s') : ClearInv c s' t h :=
  ⟨inv.window.congr hsame.dirtyTx hsame.curTx,
    fun k hk hk' => by rw [hsame.ring]; exact inv.clear k hk hk'⟩

include hd hp in
theorem ClearInv.step (inv : ClearInv c s t h) (hok : ShortFrames s a ∧ ErrWhenIdle s a)
    (hs : txStep c s a = some s') : ∃ t' h', ClearInv c s' t' h' := by
  have w := inv.window
  cases a with
  | xmit skb dma =>
    obtain rfl := Option.some.inj hs
    by_cases hfit : XmitFits c s skb
    · have hfill := stmmacXmit_filled dma hp w hfit
      have hroom := hfit.room w
      exact ⟨t, _, hfill.window w hroom, inv.clear.filled w hfill hroom⟩
    · exact ⟨t, h, inv.congr (stmmacXmit_same hfit)⟩
  | rtl8211Xmit length addr => exact absurd hok.1 id
  | txClean =>
    obtain rfl := Option.some.inj hs
    obtain ⟨t', inv'⟩ := stmmacTxClean_invariant (I := fun t s => ClearInv c s t h)
      (fun inv hsame => inv.congr hsame)
      (fun inv hg => ⟨inv.window.clean hg,
        inv.clear.clean hp inv.window hg (reclaimSlot_clear hd)⟩) inv
    exact ⟨t', h, inv'⟩
  | txErr =>
    obtain rfl := Option.some.inj hs
    obtain rfl : t = h := w.dirty_eq_cur_iff.mp hok.2
    refine ⟨0, 0, .err hp, .of_forall hp fun i hi => ?_⟩
    rw [stmmacTxErr_ring, Ring.mapBelow_of_lt hi, errSlot_clear_iff hd]
    exact inv.clear.all hi
  | complete entry desc =>
    obtain ⟨_, _, rfl⟩ := txComplete_eq hs
    refine ⟨t, h, w.congr rfl rfl, fun k hk hk' => ?_⟩
    rw [TxState.modify_ring]
    by_cases he : k % c.dmaTxSize.toNat = entry
    · subst he
      rw [Function.update_self]
      exact clear_of_des1 hok.1.des1 (inv.clear k hk hk')
    · rw [Function.update_of_ne he]
      exact inv.clear k hk hk'

include hd hp in
/-- An accepted frame is delimited exactly when its slots held no left-over bits. -/
theorem TxWindow.delimited_iff (w : TxWindow c s t h) (hfit : XmitFits c s skb)
    (hshort : skb.Short) :
    Delimited c s skb (stmmacXmit c s skb dma).1 ↔ NoLeftOver c s skb := by
  have hfill := stmmacXmit_filled dma hp w hfit
  have hentry : ∀ i, c.txEntry (s.curTx + BitVec.ofNat 32 i) = (h + i) % c.dmaTxSize.toNat := by
    intro i
    rw [w.cur, ← BitVec.ofNat_add, txEntry_ofNat hp]
  unfold Delimited NoLeftOver
  refine forall₂_congr fun i hi => ?_
  rw [hentry, hfill.slot i (Nat.lt_succ_of_le hi)]
  exact xmitSlot_delimited_iff hd hshort i _

end Runs

/-- In every run, a frame that `stmmac_xmit` accepts is delimited exactly when its slots held no
left-over bits; they never do in a run in which `stmmac_tx_err` finds nothing in flight. -/
theorem frames_delimited (hd : c.desc = ndescOps) (hp : IsPow2 c.dmaTxSize)
    (hcur : s.curTx = 0) (hdirty : s.dirtyTx = 0)
    (hclear : ∀ i < c.dmaTxSize.toNat, (s.ring i).Clear) :
    (∀ as s', Run (txStep c) ShortFrames s as s' →
      ∀ skb dma, skb.Short → XmitFits c s' skb →
        (Delimited c s' skb (stmmacXmit c s' skb dma).1 ↔ NoLeftOver c s' skb)) ∧
      ∀ as s', Run (txStep c) (fun s a => ShortFrames s a ∧ ErrWhenIdle s a) s as s' →
        ∀ skb dma, skb.Short → XmitFits c s' skb →
          Delimited c s' skb (stmmacXmit c s' skb dma).1 := by
  refine ⟨fun as s' run skb dma hshort hfit => ?_, fun as s' run skb dma hshort hfit => ?_⟩
  · have hroom : ∀ s a, ShortFrames s a → Rtl8211HasRoom c s a := by
      intro s a hok
      cases a with
      | rtl8211Xmit length addr => exact hok.elim
      | _ => trivial
    obtain ⟨t, h, w⟩ := run_window hp (hcur.trans hdirty.symm) (run.mono hroom)
    exact w.delimited_iff hd hp hfit hshort
  · have hinit : ∃ t h, ClearInv c s t h :=
      ⟨_, _, .of_eq hp (hcur.trans hdirty.symm), .of_forall hp hclear⟩
    obtain ⟨t, h, inv⟩ := run.invariant (I := fun s => ∃ t h, ClearInv c s t h)
      (fun ⟨_, _, inv⟩ hok hs => inv.step hd hp hok hs) hinit
    refine (inv.window.delimited_iff hd hp hfit hshort).mpr fun i hi => ?_
    have hroom := hfit.room inv.window
    rw [inv.window.cur, ← BitVec.ofNat_add, txEntry_ofNat hp]
    exact (inv.clear (h + i) (by omega) (by omega)).noLeftOver _ _ _

instance (s : TxState) : ∀ a, Decidable (ShortFrames s a)
  | .xmit skb _ => inferInstanceAs (Decidable skb.Short)
  | .rtl8211Xmit _ _ => inferInstanceAs (Decidable False)
  | .txClean | .txErr => inferInstanceAs (Decidable True)
  | .complete entry desc => inferInstanceAs (Decidable (StatusOnly s entry desc))

theorem idle_clear (size : BitVec 32) (i : Nat) :
    ((TxState.idle (.normal size)).ring i).Clear := by
  simp only [TxSlot.Clear, TxState.idle, Conf.normal, ndescOps, ndescInitTxDesc, ndescTxSetOnRing]
  split <;> simp (disch := decide)

instance (s : TxState) : ∀ a, Decidable (ErrWhenIdle s a)
  | .txErr => inferInstanceAs (Decidable (s.dirtyTx = s.curTx))
  | .xmit _ _ | .rtl8211Xmit _ _ | .txClean | .complete _ _ => inferInstanceAs (Decidable True)

/-- Two frames are sent, completed and reclaimed, and a time-out finds nothing in flight; the next
frame takes the slots of the first two once more. -/
theorem frames_delimited_recycled :
    ∃ s, Run (txStep (.normal 64)) (fun s a => ShortFrames s a ∧ ErrWhenIdle s a)
        (.idle (.normal 64))
        [.xmit (.plain 7 60 [100]) fun i => 4096 + BitVec.ofNat 32 i,
          .complete 0 ⟨⟨0, 0x2000003c⟩, 4096, 0⟩, .complete 1 ⟨⟨0, 0x40000064⟩, 4097, 0⟩, .txClean,
          .xmit (.plain 8 60 []) fun _ => 8192, .complete 2 ⟨⟨0, 0x6000003c⟩, 8192, 0⟩, .txClean,
          .txErr] s ∧
      Delimited (.normal 64) s (.plain 9 60 [100, 100])
        (stmmacXmit (.normal 64) s (.plain 9 60 [100, 100]) fun i => 4096 + BitVec.ofNat 32 i).1 :=
  (exec_reaches (P := fun s => XmitFits (.normal 64) s (.plain 9 60 [100, 100]))
    (by decide +kernel)).imp fun s ⟨run, hfit⟩ => ⟨run,
      (frames_delimited (c := .normal 64) rfl ⟨6, rfl⟩ rfl rfl fun i _ => idle_clear 64 i).2
        _ s run (.plain 9 60 [100, 100]) (fun i => 4096 + BitVec.ofNat 32 i) (by decide +kernel)
        hfit⟩

/-- The last slot of an accepted frame still says so after `stmmac_tx_err`. -/
theorem last_after_txErr (dma : Nat → BitVec 32) (hd : c.desc = ndescOps) (hp : IsPow2 c.dmaTxSize)
    (w : TxWindow c s t h) (hfit : XmitFits c s skb) (hshort : skb.Short) :
    ((stmmacTxErr c (stmmacXmit c s skb dma).1).ring
      ((h + skb.frags.length) % c.dmaTxSize.toNat)).desc.des01.test Tx.lastSegment = true := by
  have hfill := stmmacXmit_filled dma hp w hfit
  have hkeep : ∀ i p, (c.errSlot i p).desc.des01.test Tx.lastSegment =
      p.desc.des01.test Tx.lastSegment := by
    intro i p
    unfold Conf.errSlot
    cases c.mode <;> cases (i == c.dmaTxSize.toNat - 1) <;>
      simp (disch := decide) [hd, ndescOps, ndescInitTxDesc, ndescTxSetOnRing, ndescTxSetOnChain]
  rw [stmmacTxErr_ring, Ring.mapBelow_of_lt (Nat.mod_lt _ hp.pos), hkeep,
    hfill.slot _ (Nat.lt_succ_self _),
    (xmitSlot_bits hd s dma hshort skb.frags.length _).2.1]
  simp

/-- After a timeout with a one-segment frame in flight, the first descriptor of the next frame
keeps the `last_segment` bit of that frame. -/
theorem stale_last_segment :
    ∃ s, Run (txStep (.normal 64)) ShortFrames (.idle (.normal 64))
        [.xmit (.plain 7 60 []) fun i => 4096 + BitVec.ofNat 32 i, .txErr] s ∧
      XmitFits (.normal 64) s (.plain 8 60 [100]) ∧
      ¬ Delimited (.normal 64) s (.plain 8 60 [100])
        (stmmacXmit (.normal 64) s (.plain 8 60 [100]) fun i => 4096 + BitVec.ofNat 32 i).1 := by
  have hp : IsPow2 (Conf.normal 64).dmaTxSize := ⟨6, rfl⟩
  have w : TxWindow (.normal 64) (.idle (.normal 64)) 0 0 := .of_eq hp rfl
  have hfit₀ : XmitFits (.normal 64) (.idle (.normal 64)) (.plain 7 60 []) := by decide +kernel
  have hlast := last_after_txErr (fun i => 4096 + BitVec.ofNat 32 i) rfl hp w hfit₀
    (by decide +kernel)
  have hfit : ∀ s, s.curTx = 0 → s.dirtyTx = 0 → XmitFits (.normal 64) s (.plain 8 60 [100]) := by
    intro s hcur hdirty
    unfold XmitFits stmmacTxAvail
    rw [hcur, hdirty]
    decide
  refine ⟨_, .cons (by decide +kernel) rfl (.cons trivial rfl (.nil _)), hfit _ rfl rfl, ?_⟩
  rw [TxWindow.delimited_iff rfl hp (.err hp) (hfit _ rfl rfl) (by decide +kernel)]
  intro hclear
  have hleft := hclear 0 (by decide)
  have hslot : (Conf.normal 64).txEntry ((stmmacTxErr (.normal 64)
      (stmmacXmit (.normal 64) (.idle (.normal 64)) (.plain 7 60 []) fun i =>
        4096 + BitVec.ofNat 32 i).1).curTx + BitVec.ofNat 32 0) =
      (0 + (TxSkb.plain 7 60 []).frags.length) % (Conf.normal 64).dmaTxSize.toNat := rfl
  rw [hslot, leftOver_of_last _ (by decide) hlast] at hleft
  cases hleft

end Stmmac
