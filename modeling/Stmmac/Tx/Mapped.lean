import Stmmac.Tx.Wire

/-!
# Transmit side: the DMA reads what is mapped

A descriptor goes to the DMA with the address of a buffer that was mapped for it. `stmmac_tx_clean`
unmaps a buffer when the DMA has given the descriptor back, and `stmmac_tx_err` takes back all of
them, though it unmaps only some. So at any moment each descriptor in the hands of the DMA has a
mapping of its own, of all the bytes that the DMA may read for it.
-/

namespace Stmmac

open Library
open Library.Ledger

/-- Lengths fit, `rtl8211_xmit` finds a free slot, and the hardware writes back the status word
only. -/
def Mappable (c : Conf) (s : TxState) : TxAct → Prop
  | .xmit skb _ => skb.Short
  | .rtl8211Xmit length _ => length.toNat ≤ 2047 ∧ 1 ≤ (stmmacTxAvail c s).toNat
  | .txClean | .txErr => True
  | .complete entry desc => StatusOnly s entry desc

instance (c : Conf) (s : TxState) : ∀ a, Decidable (Mappable c s a)
  | .xmit skb _ => inferInstanceAs (Decidable skb.Short)
  | .rtl8211Xmit _ _ => inferInstanceAs (Decidable (_ ∧ _))
  | .txClean | .txErr => inferInstanceAs (Decidable True)
  | .complete entry desc => inferInstanceAs (Decidable (StatusOnly s entry desc))

/-- The buffer of a descriptor in the hands of the DMA. -/
def Conf.lent (c : Conf) (p : TxSlot) : Multiset (BitVec 32 × BitVec 32) :=
  if c.txOwned p then {(p.desc.des2, c.desc.getTxLen p.desc.des01)} else 0

/-- The mapping of a slot, whether it is recorded or its address is 0. -/
def Conf.slotMap (c : Conf) (p : TxSlot) : Multiset (BitVec 32 × BitVec 32) :=
  if c.txOwned p = true ∨ p.dma ≠ 0 then {(p.dma, c.desc.getTxLen p.desc.des01)} else 0

/-- What is lent was mapped at the address recorded, and there is no second buffer. -/
structure TxSlot.Lendable (c : Conf) (p : TxSlot) : Prop where
  addr : c.txOwned p = true → p.desc.des2 = p.dma
  size2 : p.desc.des01.get Tx.buffer2Size = 0

/-- The DMA reads one buffer for each descriptor it owns, and each of these buffers has a mapping of
its own that has not been undone. -/
structure LentMapped (c : Conf) (s : TxState) : Prop where
  bytes : ∀ i < c.dmaTxSize.toNat, c.txOwned (s.ring i) = true → (s.ring i).segBytes =
    busBytes (s.ring i).desc.des2 (c.desc.getTxLen (s.ring i).desc.des01).toNat
  held : Covers c.dmaTxSize.toNat c.lent s.ring (mapEvents s.trace)

/-- The invariant: the mappings of all slots are held, whether the DMA owns them or not. -/
structure TxMapped (c : Conf) (s : TxState) (t h : Nat) : Prop where
  window : TxWindow c s t h
  slots : ∀ i < c.dmaTxSize.toNat, (s.ring i).Lendable c
  maps : Covers c.dmaTxSize.toNat c.slotMap s.ring (mapEvents s.trace)

variable {c : Conf} {s s' : TxState} {p q : TxSlot} {skb : TxSkb} {dma : Nat → BitVec 32}
  {a : TxAct} {len addr : BitVec 32} {t h i : Nat}

/-! ## One slot -/

section Slot

/-- A slot maps what it records, and what is lent at address 0. -/
theorem slotMap_eq (p : TxSlot) : ∃ lost, c.slotMap p = c.recorded p + lost := by
  unfold Conf.slotMap Conf.recorded
  by_cases hdma : p.dma = 0
  · exact ⟨c.slotMap p, by simp [Conf.slotMap, hdma]⟩
  · exact ⟨0, by rw [if_pos (.inr hdma), if_pos hdma, add_zero]⟩

theorem slotMap_of_free (h : c.txOwned p = false) : c.slotMap p = c.recorded p := by
  simp [Conf.slotMap, Conf.recorded, h]

theorem slotMap_of_owned (h : c.txOwned p = true) :
    c.slotMap p = {(p.dma, c.desc.getTxLen p.desc.des01)} := by
  simp [Conf.slotMap, h]

theorem TxSlot.Lendable.of_free (hfree : c.txOwned p = false)
    (hsize : p.desc.des01.get Tx.buffer2Size = 0) : p.Lendable c where
  addr hown := by
    rw [hfree] at hown
    cases hown
  size2 := hsize

/-- What is lent is mapped. -/
theorem TxSlot.Lendable.lent (hp : p.Lendable c) : ∃ rest, c.slotMap p = c.lent p + rest := by
  cases hown : c.txOwned p with
  | true => exact ⟨0, by simp [Conf.slotMap, Conf.lent, hown, hp.addr hown]⟩
  | false => exact ⟨c.slotMap p, by simp [Conf.lent, hown]⟩

variable (hd : c.desc = ndescOps)

include hd in
/-- The bytes that the DMA reads for a descriptor are those of its first buffer. -/
theorem TxSlot.Lendable.segBytes (hp : p.Lendable c) :
    p.segBytes = busBytes p.desc.des2 (c.desc.getTxLen p.desc.des01).toNat := by
  have hprep : Prepared p.desc.des2 p.desc p.desc := ⟨rfl, rfl⟩
  rw [hd]
  exact hprep.segBytes rfl hp.size2

include hd in
theorem xmitSlot_lendable (hshort : skb.Short) (i : Nat) (hp : p.Lendable c) :
    (c.xmitSlot s skb dma i p).Lendable c where
  addr _ := (xmitSlot_prepared hd s dma hshort i p).des2.trans (xmitSlot_dma i p).symm
  size2 := (xmitSlot_prepared hd s dma hshort i p).size2.trans hp.size2

include hd in
theorem xmitSlot_slotMap (hshort : skb.Short) (i : Nat) (p : TxSlot) :
    c.slotMap (c.xmitSlot s skb dma i p) = {(dma i, skb.segLen i)} := by
  have ops : c.desc.Lawful := hd ▸ ndescOps_lawful
  rw [slotMap_of_owned (xmitSlot_owned ops i p), xmitSlot_dma, xmitSlot_txLen hd hshort]

include hd in
theorem rtl8211Slot_lendable (hlen : len.toNat ≤ 2047) (hp : p.Lendable c) :
    (c.rtl8211Slot s len addr p).Lendable c where
  addr _ := (rtl8211Slot_prepared hd s hlen addr p).des2.trans (rtl8211Slot_dma p).symm
  size2 := (rtl8211Slot_prepared hd s hlen addr p).size2.trans hp.size2

include hd in
theorem rtl8211Slot_slotMap (hlen : len.toNat ≤ 2047) (p : TxSlot) :
    c.slotMap (c.rtl8211Slot s len addr p) = {(addr, len)} := by
  have ops : c.desc.Lawful := hd ▸ ndescOps_lawful
  have hown : c.txOwned (c.rtl8211Slot s len addr p) = true := ops.txOwner_set _
  rw [slotMap_of_owned hown, rtl8211Slot_dma, rtl8211Slot_txLen hd hlen]

include hd in
theorem reclaimSlot_lendable (p : TxSlot) : (c.reclaimSlot p).Lendable c :=
  .of_free (reclaimSlot_owned (hd ▸ ndescOps_lawful) p) (reclaimSlot_bare hd p).size2

include hd in
/-- `init_tx_desc` keeps the sizes. -/
theorem errSlot_sizes (i : Nat) (p : TxSlot) :
    c.desc.getTxLen (c.errSlot i p).desc.des01 = c.desc.getTxLen p.desc.des01 ∧
      (c.errSlot i p).desc.des01.get Tx.buffer2Size = p.desc.des01.get Tx.buffer2Size := by
  unfold Conf.errSlot
  cases c.mode <;> cases (i == c.dmaTxSize.toNat - 1) <;>
    simp (disch := decide) [hd, ndescOps, ndescGetTxLen, ndescInitTxDesc, ndescTxSetOnRing,
      ndescTxSetOnChain]

include hd in
theorem errSlot_lendable (i : Nat) (hp : p.Lendable c) : (c.errSlot i p).Lendable c :=
  .of_free (errSlot_owned (hd ▸ ndescOps_lawful) i p) ((errSlot_sizes hd i p).2.trans hp.size2)

include hd in
/-- `stmmac_tx_err` unmaps a slot with an skb and leaves the mapping of any other. -/
theorem errSlot_slotMap (r : Nat → TxSlot) (i : Nat) (p : TxSlot) :
    ∃ lost, replay (c.slotMap p) (mapEvents (c.dropCalls r p)) =
      some (c.slotMap (c.errSlot i p) + lost) := by
  have ops : c.desc.Lawful := hd ▸ ndescOps_lawful
  obtain ⟨lost, hmap⟩ := slotMap_eq (c := c) p
  refine ⟨lost, ?_⟩
  rw [slotMap_of_free (errSlot_owned ops i p), Conf.recorded, errSlot_dma, (errSlot_sizes hd i p).1]
  rw [mapEvents_dropCalls, hmap]
  cases hskb : p.skb.isSome with
  | true =>
    rw [if_pos rfl, replay_unmapCalls]
    simp [TxSlot.dropped, hskb]
  | false => simp [TxSlot.dropped, hskb, Conf.recorded]

include hd in
/-- A descriptor given back keeps its mapping if that is recorded. -/
theorem complete_slotMap {desc : DmaDesc}
    (hfree : c.desc.getTxOwner desc.des01 = false) (hdes1 : desc.des01.des1 = p.desc.des01.des1) :
    ∃ lost, c.slotMap p = c.slotMap { p with desc := desc } + lost := by
  obtain ⟨lost, hmap⟩ := slotMap_eq (c := c) p
  have hfree : c.txOwned { p with desc := desc } = false := hfree
  have hlen : c.desc.getTxLen desc.des01 = c.desc.getTxLen p.desc.des01 := by
    simp [hd, ndescOps, ndescGetTxLen, Des01.get, Des01.word, hdes1]
  have hrec : c.recorded { p with desc := desc } = c.recorded p := by
    simp only [Conf.recorded, hlen]
  exact ⟨lost, by rw [slotMap_of_free hfree, hrec, hmap]⟩

theorem complete_lendable {desc : DmaDesc} (hfree : c.desc.getTxOwner desc.des01 = false)
    (hdes1 : desc.des01.des1 = p.desc.des01.des1) (hp : p.Lendable c) :
    ({ p with desc := desc } : TxSlot).Lendable c := by
  have hsize := hp.size2
  exact .of_free hfree (by simpa [Des01.get, Des01.word, hdes1] using hsize)

end Slot

/-! ## The invariant -/

namespace TxMapped

theorem congr (inv : TxMapped c s t h) (hsame : SameRing s s') : TxMapped c s' t h where
  window := inv.window.congr hsame.dirtyTx hsame.curTx
  slots i hi := by
    rw [hsame.ring]
    exact inv.slots i hi
  maps := by
    rw [hsame.ring, hsame.mapEvents]
    exact inv.maps

/-- Each filled slot lends a new mapping; what it recorded before may be lost. -/
theorem filled {n : Nat} {fill : Nat → TxSlot → TxSlot} {calls : List TxCall}
    {m : Nat → BitVec 32 × BitVec 32} (inv : TxMapped c s t h) (hfill : TxFilled c s s' h n fill)
    (hroom : h + n < t + c.dmaTxSize.toNat) (htrace : s'.trace = s.trace ++ calls)
    (hcalls : mapEvents calls = ((List.range n).map m).map .acquire)
    (hlend : ∀ i < n, ∀ q, q.Lendable c → (fill i q).Lendable c)
    (hmap : ∀ i < n, ∀ q, c.slotMap (fill i q) = {m i}) : TxMapped c s' t (h + n) := by
  have hle := inv.window.le
  refine ⟨hfill.window inv.window hroom, fun j hj => ?_, ?_⟩
  · by_cases hnew : ∃ i < n, j = (h + i) % c.dmaTxSize.toNat
    · obtain ⟨i, hi, rfl⟩ := hnew
      rw [hfill.slot i hi]
      exact hlend i hi _ (inv.slots _ hj)
    · rw [hfill.frame j fun i hi he => hnew ⟨i, hi, he⟩]
      exact inv.slots j hj
  · rw [htrace, mapEvents_append, hcalls]
    refine inv.maps.slots (by omega) (fun j _ hne => hfill.frame j hne) ?_
    rw [← sum_singletons]
    refine Finset.sum_congr rfl fun i hi => ?_
    have hi := Finset.mem_range.mp hi
    rw [hfill.slot i hi, hmap i hi]

/-- A round undoes the mapping that its slot records. -/
theorem clean (hd : c.desc = ndescOps) (hp : IsPow2 c.dmaTxSize) (inv : TxMapped c s t h)
    (hg : txCleanGuard c s = true) : TxMapped c (txCleanBody c s) (t + 1) h := by
  have ops : c.desc.Lawful := hd ▸ ndescOps_lawful
  refine ⟨inv.window.clean hg, fun i hi => ?_, ?_⟩
  · rw [txCleanBody_ring, Function.update_apply]
    split_ifs
    · exact reclaimSlot_lendable hd _
    · exact inv.slots i hi
  · rw [txCleanBody_ring, txCleanBody_trace, mapEvents_append, mapEvents_reclaimCalls]
    refine inv.maps.write (txEntry_lt hp s.dirtyTx) ⟨0, ?_⟩
    have hfree := (txCleanGuard_iff.mp hg).2
    rw [slotMap_of_free hfree, slotMap_of_free (reclaimSlot_owned ops _), reclaimSlot_recorded]
    simpa using replay_unmapCalls (c := c) 0 (s.ring (c.txEntry s.dirtyTx))

/-- The DMA is stopped and owns nothing any more; the mappings of fragments stay. -/
theorem err (hd : c.desc = ndescOps) (hp : IsPow2 c.dmaTxSize) (inv : TxMapped c s t h) :
    TxMapped c (stmmacTxErr c s) 0 0 := by
  refine ⟨.err hp, fun i hi => ?_, ?_⟩
  · rw [stmmacTxErr_ring, Ring.mapBelow_of_lt hi]
    exact errSlot_lendable hd i (inv.slots i hi)
  · rw [mapEvents_stmmacTxErr, mapEvents_flatMap]
    refine inv.maps.each fun i hi => ?_
    rw [stmmacTxErr_ring, Ring.mapBelow_of_lt hi]
    exact errSlot_slotMap hd s.ring i (s.ring i)

/-- A status word written back leaves the length and the address words alone. -/
theorem complete (hd : c.desc = ndescOps) (inv : TxMapped c s t h) {entry : Nat} {desc : DmaDesc}
    (hst : StatusOnly s entry desc) (hs : txComplete c s entry desc = some s') :
    TxMapped c s' t h := by
  obtain ⟨_, hfree, rfl⟩ := txComplete_eq hs
  refine ⟨inv.window.congr rfl rfl, fun i hi => ?_, ?_⟩
  · rw [TxState.modify_ring, Function.update_apply]
    split_ifs with he
    · subst he
      exact complete_lendable hfree hst.des1 (inv.slots i hi)
    · exact inv.slots i hi
  · have hslot := complete_slotMap hd hfree hst.des1
    rw [TxState.modify_trace, TxState.modify_ring, ← List.append_nil (mapEvents s.trace)]
    rcases Nat.lt_or_ge entry c.dmaTxSize.toNat with hlt | hge
    · exact inv.maps.write hlt (hslot.imp fun _ hlost => congrArg some hlost)
    · rw [List.append_nil]
      refine inv.maps.congr fun i hi => ?_
      rw [Function.update_of_ne (by omega)]

theorem step (hd : c.desc = ndescOps) (hp : IsPow2 c.dmaTxSize) (inv : TxMapped c s t h)
    (hok : Mappable c s a) (hs : txStep c s a = some s') : ∃ t' h', TxMapped c s' t' h' := by
  have w := inv.window
  cases a with
  | xmit skb dma =>
    obtain rfl := Option.some.inj hs
    have hshort : skb.Short := hok
    by_cases hfit : XmitFits c s skb
    · exact ⟨t, _, inv.filled (m := fun i => (dma i, skb.segLen i))
        (stmmacXmit_filled dma hp w hfit) (hfit.room w) (stmmacXmit_trace hp hfit w.cur)
        (by rw [mapEvents_xmitCalls, maps_eq]) (fun i _ _ => xmitSlot_lendable hd hshort i)
        fun i _ => xmitSlot_slotMap hd hshort i⟩
    · exact ⟨t, h, inv.congr (stmmacXmit_same hfit)⟩
  | rtl8211Xmit length addr =>
    obtain rfl := Option.some.inj hs
    obtain ⟨hlen, hroom⟩ := hok
    exact ⟨t, _, inv.filled (m := fun _ => (addr, length)) (rtl8211Xmit_filled hp w.cur)
      (rtl8211_room w hroom) rtl8211Xmit_trace rfl (fun _ _ _ => rtl8211Slot_lendable hd hlen)
      fun _ _ => rtl8211Slot_slotMap hd hlen⟩
  | txClean =>
    obtain rfl := Option.some.inj hs
    obtain ⟨t', inv'⟩ := stmmacTxClean_invariant (I := fun t s => TxMapped c s t h)
      (fun inv hsame => inv.congr hsame) (fun inv hg => inv.clean hd hp hg) inv
    exact ⟨t', h, inv'⟩
  | txErr =>
    obtain rfl := Option.some.inj hs
    exact ⟨0, 0, inv.err hd hp⟩
  | complete entry desc => exact ⟨t, h, inv.complete hd hok hs⟩

theorem lentMapped (hd : c.desc = ndescOps) (inv : TxMapped c s t h) : LentMapped c s where
  bytes i hi _ := (inv.slots i hi).segBytes hd
  held := inv.maps.mono fun i hi => (inv.slots i hi).lent

end TxMapped

/-! ## Main results -/

/-- In every run from an empty ring the DMA has a mapping of its own for each buffer that it may
read. `stmmac_tx_err` may be called at any time: it leaves mappings behind, but undoes none that is
still lent. -/
theorem dma_reads_mapped {as : List TxAct} (hd : c.desc = ndescOps) (hp : IsPow2 c.dmaTxSize)
    (hcur : s.curTx = 0) (hdirty : s.dirtyTx = 0)
    (hfree : ∀ i < c.dmaTxSize.toNat, c.txOwned (s.ring i) = false)
    (hnone : ∀ i < c.dmaTxSize.toNat, (s.ring i).dma = 0)
    (hsize : ∀ i < c.dmaTxSize.toNat, (s.ring i).desc.des01.get Tx.buffer2Size = 0)
    (htrace : s.trace = []) (run : Run (txStep c) (Mappable c) s as s') : LentMapped c s' := by
  have hinit : TxMapped c s 0 0 := by
    refine ⟨⟨hdirty, hcur, Nat.le_refl 0, by simpa using hp.pos⟩, fun i hi =>
      .of_free (hfree i hi) (hsize i hi), 0, ?_⟩
    rw [htrace, Finset.sum_eq_zero fun i hi => ?_]
    · rfl
    · have hi := Finset.mem_range.mp hi
      simp [Conf.slotMap, hfree i hi, hnone i hi]
  obtain ⟨t, h, inv⟩ := run.invariant (I := fun s => ∃ t h, TxMapped c s t h)
    (fun ⟨_, _, inv⟩ hok hs => inv.step hd hp hok hs) ⟨0, 0, hinit⟩
  exact inv.lentMapped hd

theorem dma_reads_mapped_after_err :
    ∃ s, Run (txStep (.normal 64)) (Mappable (.normal 64)) (.idle (.normal 64))
        [.xmit (.plain 7 60 [100]) fun i => 4096 + BitVec.ofNat 32 i,
          .complete 0 ⟨⟨0, 0x2000003c⟩, 4096, 0⟩, .txClean, .txErr, .rtl8211Xmit 60 8192] s ∧
      LentMapped (.normal 64) s :=
  exec_exists (by decide +kernel) fun _ run =>
    dma_reads_mapped (c := .normal 64) rfl ⟨6, rfl⟩ rfl rfl (fun i _ => idle_owned 64 i)
      (fun _ _ => rfl) (fun i hi => ((WireState.Empty.start 64).bare i hi).size2) rfl run

end Stmmac
