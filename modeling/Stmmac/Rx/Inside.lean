import Stmmac.Rx.Lengths

/-!
# Receive side: memory that the descriptors describe

In ring mode `ndesc_rx_set_on_ring` gives every receive descriptor a second buffer of 2047 bytes,
at the address in `des3`. `des3` is written for buffers of 16 KiB only: with smaller ones the device
may write wherever the word happens to point.
-/

namespace Stmmac

open Library

/-- `size` bytes at `addr` lie within `len` bytes at `base`. -/
def within (addr : BitVec 32) (size : Nat) (base len : BitVec 32) : Bool :=
  (addr - base).toNat + size ≤ len.toNat

/-- The length of the latest mapping at an address. -/
def mappedLen (trace : List RxCall) (addr : BitVec 32) : Option (BitVec 32) :=
  trace.reverse.findSome? fun
    | .dmaMapSingle _ a len => if a = addr then some len else none
    | _ => none

/-- The buffers that a normal descriptor describes lie in the mapping of its slot. -/
def descInside (trace : List RxCall) (p : RxSlot) : Bool :=
  let des01 := p.desc.des01
  (mappedLen trace p.dma).any fun len =>
    within p.desc.des2 (des01.get Rx.buffer1Size).toNat p.dma len &&
      (des01.test Rx.secondAddressChained ||
        within p.desc.des3 (des01.get Rx.buffer2Size).toNat p.dma len)

/-- Every descriptor the DMA owns describes memory of its own buffer only. -/
def RxInside (c : Conf) (s : RxState) : Prop :=
  ∀ i < c.dmaRxSize.toNat, c.rxOwned (s.ring i) = true → descInside s.trace (s.ring i) = true

instance (c : Conf) (s : RxState) : Decidable (RxInside c s) :=
  inferInstanceAs (Decidable (∀ i < c.dmaRxSize.toNat, _ → _))

/-- With buffers of 16 KiB `init_desc3` and `refill_desc3` point into the same buffer, with room for
what the size field can say. -/
def StmmacRingModeOps.AimsInside (ops : StmmacRingModeOps) : Prop :=
  ∀ p, within (ops.initDesc3 p) 2047 p.des2 bufSize16KiB = true ∧
    within (ops.refillDesc3 p) 2047 p.des2 bufSize16KiB = true

/-- `KeepsBacked`; the ring is cleared only where no time stamp is written over `des3`. -/
def KeepsInside (c : Conf) (s : RxHw) : RxAct → Prop
  | .suspend => BuffersInPlace c s.rx ∧ c.stampsRx = false
  | a => KeepsBacked c s a

instance (c : Conf) (s : RxHw) : ∀ a, Decidable (KeepsInside c s a)
  | .suspend => inferInstanceAs (Decidable (_ ∧ _))
  | .rx alloc limit => inferInstanceAs (Decidable (KeepsBacked c s (.rx alloc limit)))
  | .receive _ | .refill _ | .resume => inferInstanceAs (Decidable True)

/-- The second buffer of the slot lies in 16 KiB at the first. -/
def RxSlot.aimed (p : RxSlot) : Bool := within p.desc.des3 2047 p.desc.des2 bufSize16KiB

/-- An owned descriptor is aimed, and without time stamps it stays so as long as its slot has a
buffer. -/
structure Conf.SlotAimed (c : Conf) (p : RxSlot) : Prop where
  owned : c.rxOwned p = true → p.aimed = true
  kept : c.stampsRx = false → p.skb.isSome = true → p.aimed = true

structure RxAimed (c : Conf) (s : RxState) : Prop where
  size : s.dmaBufSz = bufSize16KiB
  maps : ∀ id addr len, .dmaMapSingle id addr len ∈ s.trace → len = bufSize16KiB
  slots : ∀ i < c.dmaRxSize.toNat, c.SlotAimed (s.ring i)

variable {c : Conf} {s s' : RxState} {f f' : RxHw} {a : RxAct} {q : RxSlot}
  {calls : List RxCall}

/-! ## The latest mapping -/

theorem mem_of_mappedLen {trace : List RxCall} {addr len : BitVec 32}
    (h : mappedLen trace addr = some len) : ∃ id, .dmaMapSingle id addr len ∈ trace := by
  obtain ⟨x, hx, hfound⟩ := List.exists_of_findSome?_eq_some h
  cases x with
  | dmaMapSingle id a l =>
    obtain ⟨rfl, rfl⟩ := by simpa using hfound
    exact ⟨id, List.mem_reverse.mp hx⟩
  | _ => cases hfound

theorem mappedLen_of_mem {trace : List RxCall} {id : Nat} {addr len : BitVec 32}
    (h : .dmaMapSingle id addr len ∈ trace) : ∃ len', mappedLen trace addr = some len' := by
  refine Option.isSome_iff_exists.mp ?_
  unfold mappedLen
  rw [List.findSome?_isSome_iff]
  exact ⟨_, List.mem_reverse.mpr h, by simp⟩

/-! ## Slots -/

namespace Conf.SlotAimed

theorem consumed (h : c.SlotAimed q) : c.SlotAimed (c.consumed q) := by
  have haimed : (c.consumed q).aimed = q.aimed := by rw [RxSlot.aimed, consumed_desc, RxSlot.aimed]
  refine ⟨fun hown => ?_, fun hts hskb => ?_⟩
  · rw [haimed]
    rw [Conf.rxOwned, consumed_desc] at hown
    exact h.owned hown
  · rw [haimed]
    refine h.kept hts ?_
    unfold Conf.consumed at hskb
    split at hskb
    · exact hskb
    · cases hskb

/-- A slot given back has a new buffer, or kept its own where there are no time stamps. -/
theorem refilled {b : Option RxBuf} (h : c.SlotAimed q) (haims : c.ring.AimsInside)
    (hbuf : q.skb.isSome = true ∨ b.isSome = true)
    (hnone : c.stampsRx = true → q.skb = none) : c.SlotAimed (c.refilled b q) := by
  have haimed : (c.refilled b q).aimed = true := by
    cases hskb : q.skb with
    | none =>
      obtain ⟨b, rfl⟩ := Option.isSome_iff_exists.mp (hbuf.resolve_left (by simp [hskb]))
      simpa [Conf.refilled, hskb, RxSlot.aimed, RxSlot.mapDes, Conf.allocSlot] using
        (haims { q.desc with des2 := b.dma }).2
    | some skb =>
      have hts : c.stampsRx = false := by
        by_contra hts
        rw [hnone (by simpa using hts)] at hskb
        cases hskb
      simpa [Conf.refilled, hskb, RxSlot.aimed, RxSlot.mapDes] using h.kept hts (by simp [hskb])
  exact ⟨fun _ => haimed, fun _ _ => haimed⟩

theorem write {w : RxWrite} (h : c.SlotAimed q) (hown : c.rxOwned q = true)
    (hgive : c.desc.getRxOwner w.des01 = false)
    (hstamp : w.stamp.isSome = true → c.stampsRx = true) : c.SlotAimed (q.write w) := by
  refine ⟨fun ho => ?_, fun hts _ => ?_⟩
  · rw [Conf.rxOwned, RxSlot.write, hgive] at ho
    cases ho
  · have hnone : w.stamp = none := by
      rw [← Option.isNone_iff_eq_none, ← Option.not_isSome]
      grind
    simpa [RxSlot.aimed, RxSlot.write, hnone] using h.owned hown

end Conf.SlotAimed

/-! ## What each step keeps -/

namespace RxAimed

theorem write {e : Nat} (h : RxAimed c s) (hring : s'.ring = Function.update s.ring e q)
    (hsz : s'.dmaBufSz = s.dmaBufSz) (htrace : s'.trace = s.trace ++ calls)
    (hcalls : ∀ id addr len, .dmaMapSingle id addr len ∈ calls → len = s.dmaBufSz)
    (hq : e < c.dmaRxSize.toNat → c.SlotAimed q) : RxAimed c s' where
  size := hsz.trans h.size
  maps id addr len hmem := by
    rw [htrace] at hmem
    rcases List.mem_append.mp hmem with hmem | hmem
    · exact h.maps id addr len hmem
    · exact (hcalls id addr len hmem).trans h.size
  slots i hi := by
    rw [hring, Function.update_apply]
    split_ifs with he
    · exact hq (he ▸ hi)
    · exact h.slots i hi

theorem congr (h : RxAimed c s) (hring : s'.ring = s.ring) (hsz : s'.dmaBufSz = s.dmaBufSz)
    (htrace : s'.trace = s.trace) : RxAimed c s' where
  size := hsz.trans h.size
  maps := by rw [htrace]; exact h.maps
  slots := by rw [hring]; exact h.slots

theorem consume (ops : c.desc.Lawful) (h : RxAimed c s) : RxAimed c (rxBody c s).1 := by
  refine h.write (rxBody_ring ops) (rxBody_dmaBufSz ops) (rxBody_trace ops)
    (fun id addr len hmem => ?_) fun he => (h.slots _ he).consumed
  exact absurd hmem (rxCalls_not_map _ _ _ id addr len)

theorem loop (ops : c.desc.Lawful) {n : Nat} (count : Nat) (h : RxAimed c s) :
    RxAimed c (rxLoop c n s count).1 :=
  (rxLoop_invariant (I := fun _ s => RxAimed c s) (fun h _ => h.consume ops) h).elim fun _ h => h

theorem refill {alloc : BitVec 32 → Option RxBuf} (h : RxAimed c s) (haims : c.ring.AimsInside)
    (hg : rxRefillGuard c alloc s = true)
    (hnone : c.stampsRx = true → (s.ring (c.rxEntry s.dirtyRx)).skb = none) :
    RxAimed c (rxRefillBody c alloc s) := by
  rw [rxRefillBody_eq]
  refine h.write rfl rfl rfl (fun id addr len hmem => ?_) fun he =>
    (h.slots _ he).refilled haims (rxRefillGuard_iff.mp hg).2 hnone
  unfold Conf.refillCalls at hmem
  split at hmem
  · obtain ⟨-, -, hlen⟩ := by simpa using hmem
    exact hlen
  · cases hmem

end RxAimed

/-! ## Steps and runs -/

/-- The invariant: the buffers are in place, and the second ones are aimed. -/
structure AimedHolds (c : Conf) (s : RxState) : Prop where
  holds : RxHolds c s
  aimed : RxAimed c s

namespace AimedHolds

/-- The buffers of an owned descriptor lie in its mapping. -/
theorem inside (h : AimedHolds c s) : RxInside c s := by
  intro i hi hown
  obtain ⟨skb, len, -, hdes, hmem⟩ := h.holds.dmaBacked.buffer i hi hown
  obtain ⟨len', hlen⟩ := mappedLen_of_mem hmem
  obtain ⟨id', hmem'⟩ := mem_of_mappedLen hlen
  obtain rfl := h.aimed.maps id' _ len' hmem'
  have hlen16 : bufSize16KiB.toNat = 16384 := rfl
  have haimed : ((s.ring i).desc.des3 - (s.ring i).dma).toNat + 2047 ≤ 16384 := by
    rw [← hdes]
    simpa [RxSlot.aimed, within, hlen16] using (h.aimed.slots i hi).owned hown
  have hsize1 : ((s.ring i).desc.des01.get Rx.buffer1Size).toNat < 2 ^ 11 := BitVec.isLt _
  have hsize2 : ((s.ring i).desc.des01.get Rx.buffer2Size).toNat < 2 ^ 11 := BitVec.isLt _
  have hfirst : within (s.ring i).desc.des2 ((s.ring i).desc.des01.get Rx.buffer1Size).toNat
      (s.ring i).dma bufSize16KiB = true := by
    rw [within, hdes, BitVec.sub_self, hlen16]
    simp
    omega
  have hsecond : within (s.ring i).desc.des3 ((s.ring i).desc.des01.get Rx.buffer2Size).toNat
      (s.ring i).dma bufSize16KiB = true := by
    rw [within, hlen16]
    exact decide_eq_true (by omega)
  simp [descInside, hlen, hfirst, hsecond]

section Rounds

variable (ops : c.desc.Lawful) (hpos : 0 < c.dmaRxSize.toNat)
  (hp : c.stampsRx = true → IsPow2 c.dmaRxSize) (haims : c.ring.AimsInside)

include hpos hp haims in
theorem refills (alloc : BitVec 32 → Option RxBuf) (h : AimedHolds c s) :
    AimedHolds c (stmmacRxRefill c alloc s) := by
  refine stmmacRxRefill_invariant (fun {s} h hg => ?_) h
  obtain ⟨hnone, hholds⟩ := h.holds.refill hpos hp hg
  exact ⟨hholds, h.aimed.refill haims hg hnone⟩

include ops hpos hp haims in
theorem stmmacRx {alloc : BitVec 32 → Option RxBuf} {limit : BitVec 32} (h : AimedHolds c s)
    (hfit : c.stampsRx = true → RoundsFit c s limit.toNat) :
    AimedHolds c (stmmacRx c alloc s limit).1 := by
  have hloop : AimedHolds c (rxLoop c limit.toNat s 0).1 :=
    ⟨h.holds.loop ops hpos hp 0 hfit, h.aimed.loop ops 0⟩
  obtain ⟨st, heq⟩ := stmmacRx_eq c s alloc limit
  rw [heq]
  split
  · exact hloop
  · have hend := hloop.refills hpos hp haims alloc
    exact ⟨hend.holds.congr rfl rfl rfl rfl, hend.aimed.congr rfl rfl rfl⟩

theorem receive {w : RxWrite} (h : AimedHolds c f.rx) (hs : rxReceive c f w = some f') :
    RxAimed c f'.rx := by
  obtain ⟨hown, hgive, hstamp, rfl⟩ := rxReceive_eq hs
  refine h.aimed.write rfl rfl (List.append_nil _).symm (fun _ _ _ hmem => by cases hmem) ?_
  exact fun he => (h.aimed.slots _ he).write hown hgive hstamp

/-- Without time stamps a buffer in place is aimed, and the clear leaves it. -/
theorem clear (h : AimedHolds c s) (hplace : BuffersInPlace c s) (hts : c.stampsRx = false) :
    RxAimed c (stmmacClearDescriptors c s) where
  size := h.aimed.size
  maps := h.aimed.maps
  slots i hi := by
    rw [stmmacClearDescriptors_slot hi]
    have haimed := (h.aimed.slots i hi).kept hts (hplace i hi).1
    exact ⟨fun _ => haimed, fun _ _ => haimed⟩

include ops hpos hp haims in
theorem step (h : AimedHolds c f.rx) (hf : f.pos < c.dmaRxSize.toNat) (hok : KeepsInside c f a)
    (hs : rxStep c f a = some f') : AimedHolds c f'.rx ∧ f'.pos < c.dmaRxSize.toNat := by
  have hbacked : KeepsBacked c f a := by
    cases a with
    | suspend => exact hok.1
    | receive _ | rx _ _ | refill _ | resume => exact hok
  obtain ⟨hholds, hf'⟩ := h.holds.step ops hpos hp hf hbacked hs
  refine ⟨⟨hholds, ?_⟩, hf'⟩
  unfold rxStep at hs
  split at hs
  · cases hs
  cases a with
  | receive w => exact h.receive hs
  | rx alloc limit =>
    obtain rfl := Option.some.inj hs
    exact (h.stmmacRx ops hpos hp haims hok).aimed
  | refill alloc =>
    obtain rfl := Option.some.inj hs
    exact (h.refills hpos hp haims alloc).aimed
  | suspend =>
    obtain rfl := Option.some.inj hs
    exact h.clear hok.1 hok.2
  | resume =>
    obtain rfl := Option.some.inj hs
    exact h.aimed

end Rounds

end AimedHolds

/-! ## Initialisation -/

section Opened

variable {alloc : Nat → Option RxBuf} {mtu maxMtu : BitVec 32}
  (halloc : ∀ i < c.dmaRxSize.toNat, (alloc i).isSome = true)

include halloc in
/-- The slots of the ring as it is opened in ring mode. -/
theorem initDmaDescRings_slot_eq (hmode : c.mode = .ring) (mtu : BitVec 32) {i : Nat}
    (hi : i < c.dmaRxSize.toNat) :
    ∃ b, alloc i = some b ∧ (initDmaDescRings c alloc mtu s).ring i =
      (c.initSlot s.dmaBufSz b (s.ring i)).mapDes
        (c.desc.initRxDesc · c.useRiwt c.mode (i == c.dmaRxSize.toNat - 1)) := by
  obtain ⟨b, hb, hslot⟩ := initBuffers_slot_eq (s := s) halloc hi
  refine ⟨b, hb, ?_⟩
  rw [initDmaDescRings_ring hmode, stmmacClearDescriptors_slot hi, hslot]

include halloc in
/-- All mappings of the initialisation have the length it started with. -/
theorem initDmaDescRings_maps (htrace : s.trace = []) {id : Nat} {addr len : BitVec 32}
    (hmem : .dmaMapSingle id addr len ∈ (initDmaDescRings c alloc mtu s).trace) :
    len = s.dmaBufSz := by
  obtain ⟨⟨-, hmaps⟩, -⟩ := initRxLoop_invariant (c := c) (s := s) (i := 0)
    (n := c.dmaRxSize.toNat)
    (I := fun _ t => t.dmaBufSz = s.dmaBufSz ∧
      ∀ id addr len, .dmaMapSingle id addr len ∈ t.trace → len = s.dmaBufSz)
    (fun {n t b} ⟨hsz, hmaps⟩ _ => by
      rw [stmmacInitRxBuffers_eq]
      refine ⟨hsz, fun id addr len hmem => ?_⟩
      rcases List.mem_append.mp hmem with hmem | hmem
      · exact hmaps id addr len hmem
      · obtain ⟨-, -, rfl⟩ := by simpa using hmem
        exact hsz)
    (by simpa using halloc) ⟨rfl, by simp [htrace]⟩
  rw [initDmaDescRings_trace] at hmem
  exact hmaps id addr len hmem

include halloc in
theorem RxAimed.opened (hmode : c.mode = .ring) (htrace : s.trace = [])
    (haims : c.ring.AimsInside) (hring : c.Asks16KiB maxMtu)
    (hmtu : stmmacChangeMtu maxMtu mtu = true) (h16 : 8192 ≤ mtu)
    (hsz : s.dmaBufSz = bufSize16KiB) : RxAimed c (initDmaDescRings c alloc mtu s) where
  size := by
    rw [initDmaDescRings_dmaBufSz hring hmtu, Conf.bufferFor]
    simp only [hmode, BitVec.lt_def, BitVec.le_def] at *
    split_ifs <;> simp_all [bufSize16KiB] <;> omega
  maps id addr len hmem := (initDmaDescRings_maps halloc htrace hmem).trans hsz
  slots i hi := by
    obtain ⟨b, -, hslot⟩ := initDmaDescRings_slot_eq (s := s) halloc hmode mtu hi
    have haimed : ((initDmaDescRings c alloc mtu s).ring i).aimed = true := by
      rw [hslot]
      simpa [RxSlot.aimed, RxSlot.mapDes, Conf.initSlot, hmode, hsz] using
        (haims { (s.ring i).desc with des2 := b.dma }).1
    exact ⟨fun _ => haimed, fun _ _ => haimed⟩

end Opened

/-- With buffers of 16 KiB, at the initialisation and for the MTU, every descriptor the DMA owns
describes its own buffer only, in every run that also keeps the buffers in place. -/
theorem rx_descriptors_inside {alloc : Nat → Option RxBuf} {mtu maxMtu : BitVec 32}
    {as : List RxAct} (hdesc : c.desc = ndescOps) (hmode : c.mode = .ring)
    (hpos : 0 < c.dmaRxSize.toNat) (hp : c.stampsRx = true → IsPow2 c.dmaRxSize)
    (haims : c.ring.AimsInside) (hring : c.Asks16KiB maxMtu)
    (hmtu : stmmacChangeMtu maxMtu mtu = true) (htrace : s.trace = [])
    (halloc : ∀ i < c.dmaRxSize.toNat, (alloc i).isSome = true)
    (hsz : s.dmaBufSz = bufSize16KiB) (h16 : 8192 ≤ mtu)
    (run : Run (rxStep c) (KeepsInside c) (.opened c alloc mtu s) as f) :
    DmaBacked c f.rx ∧ RxInside c f.rx := by
  have ops : c.desc.Lawful := hdesc ▸ ndescOps_lawful
  obtain ⟨h, -⟩ := run.invariant (I := fun f => AimedHolds c f.rx ∧ f.pos < c.dmaRxSize.toNat)
    (fun ⟨h, hf⟩ hok hs => h.step ops hpos hp haims hf hok hs)
    ⟨⟨.opened halloc hpos htrace, .opened halloc hmode htrace haims hring hmtu h16 hsz⟩, hpos⟩
  exact ⟨h.holds.dmaBacked, h.inside⟩

/-- Buffer number `n`, of 16 KiB. -/
def RxBuf.block (n : Nat) : RxBuf where
  id := n
  buf _ := 0
  room := 16384
  dma := BitVec.ofNat 32 (16384 * (n + 1))

/-- Rings of normal descriptors whose second buffers are in the upper half of 16 KiB. -/
def Conf.halves (size : BitVec 32) : Conf :=
  { Conf.normal size with
    ring := { (Conf.normal size).ring with refillDesc3 := fun p => p.des2 + 8192 } }

theorem rx_descriptors_inside_refilled :
    ∃ f, Run (rxStep (.halves 64)) (KeepsInside (.halves 64))
        (.opened (.halves 64) (fun i => some (.block i)) 9000
          { RxState.blank with dmaBufSz := stmmacAlign 64 16384 })
        [.receive (.frame (.replicate 64 1)), .receive (.frame (.replicate 64 2)),
          .rx (fun n => if n = 0 then some (.block 64) else none) 4,
          .refill fun n => some (.block (64 + n.toNat))] f ∧
      RxInside (.halves 64) f.rx :=
  have haims (p : DmaDesc) : within (p.des2 + 8192) 2047 p.des2 bufSize16KiB = true := by
    rw [within, BitVec.add_comm, BitVec.add_sub_cancel]
    decide
  have hring : (Conf.halves 64).Asks16KiB 15000 := fun _ _ => rfl
  exec_exists (by decide +kernel) fun _ run =>
    (rx_descriptors_inside (c := .halves 64) rfl rfl (by decide) (fun _ => ⟨6, rfl⟩)
      (fun p => ⟨haims p, haims p⟩) hring (by decide) rfl (fun _ _ => rfl) (by decide)
      (by decide) run).2

/-- With buffers of 2 KiB a second buffer of 2047 bytes at address 0 is given to the DMA. -/
theorem second_buffer_at_0 :
    ¬ RxInside (.normal 64)
      (initDmaDescRings (.normal 64) (fun i => some (.page i)) 1500 .blank) := by
  decide +kernel

/-- A fresh descriptor in ring mode has a second buffer of 2047 bytes, which is not a link. -/
theorem ndescInitRxDesc_ring (disableRxIc end_ : Bool) :
    (ndescInitRxDesc ⟨0, 0⟩ disableRxIc .ring end_).get Rx.buffer2Size = 2047 ∧
      (ndescInitRxDesc ⟨0, 0⟩ disableRxIc .ring end_).test Rx.secondAddressChained = false := by
  cases disableRxIc <;> cases end_ <;> decide

/-- In fresh memory, full of zeros, the descriptors are inside only for buffers of 16 KiB. -/
theorem size_of_inside {alloc : Nat → Option RxBuf} {mtu : BitVec 32} (hdesc : c.desc = ndescOps)
    (hmode : c.mode = .ring) (hpos : 0 < c.dmaRxSize.toNat) (htrace : s.trace = [])
    (halloc : ∀ i < c.dmaRxSize.toNat, (alloc i).isSome = true)
    (hzero : (s.ring 0).desc = ⟨⟨0, 0⟩, 0, 0⟩)
    (haddr : ∀ b, alloc 0 = some b →
      0 < b.dma.toNat ∧ b.dma.toNat + s.dmaBufSz.toNat ≤ 2 ^ 32)
    (h : RxInside c (initDmaDescRings c alloc mtu s)) : s.dmaBufSz = bufSize16KiB := by
  by_contra hsz
  have ops : c.desc.Lawful := hdesc ▸ ndescOps_lawful
  have hin := h 0 hpos (initDmaDescRings_owned ops hpos)
  obtain ⟨b, hb, hslot⟩ := initDmaDescRings_slot_eq (s := s) halloc hmode mtu hpos
  obtain ⟨hne, hfits⟩ := haddr b hb
  obtain ⟨len, hlen, hbufs⟩ := (Option.any_eq_true _ _).mp hin
  obtain ⟨id, hmem⟩ := mem_of_mappedLen hlen
  obtain rfl := initDmaDescRings_maps halloc htrace hmem
  have hdes01 : ((initDmaDescRings c alloc mtu s).ring 0).desc.des01 =
      ndescInitRxDesc ⟨0, 0⟩ c.useRiwt .ring (0 == c.dmaRxSize.toNat - 1) := by
    rw [hslot]
    simp [RxSlot.mapDes, Conf.initSlot, hsz, hzero, hdesc, hmode, ndescOps]
  have hdes3 : ((initDmaDescRings c alloc mtu s).ring 0).desc.des3 = 0 := by
    rw [hslot]
    simp [RxSlot.mapDes, Conf.initSlot, hsz, hzero]
  have hdma : ((initDmaDescRings c alloc mtu s).ring 0).dma = b.dma := by
    rw [hslot]
    rfl
  obtain ⟨hsecond, hchained⟩ := ndescInitRxDesc_ring c.useRiwt (0 == c.dmaRxSize.toNat - 1)
  rw [hdes01, hdes3, hdma, hsecond, hchained] at hbufs
  have hbuf2 : (0 - b.dma).toNat + 2047 ≤ s.dmaBufSz.toNat := by
    simpa [within] using (Bool.and_eq_true_iff.mp hbufs).2
  bv_omega

end Stmmac
