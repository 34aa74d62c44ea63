import Stmmac.Rx.Window

/-!
# Receive side: the ring after initialisation

`init_dma_desc_rings` gives a buffer to each slot in turn, resets the counters and then hands every
descriptor to the DMA. When no allocation fails the counters start at 0.
-/

namespace Stmmac

open Library

/-- The slot with its first buffer. -/
def Conf.initSlot (c : Conf) (bufSz : BitVec 32) (b : RxBuf) (p : RxSlot) : RxSlot :=
  let desc := { p.desc with des2 := b.dma }
  { desc := if c.mode = .ring ∧ bufSz = bufSize16KiB then
      { desc with des3 := c.ring.initDesc3 desc } else desc
    skb := some b.skb
    dma := b.dma }

/-- The state that the loop over the buffers leaves. -/
def Conf.initBuffers (c : Conf) (alloc : Nat → Option RxBuf) (s : RxState) : RxState :=
  (initRxLoop c alloc c.dmaRxSize.toNat 0 s).1

/-- The interface as it is opened: the rings initialised, the device at the first slot. -/
def RxHw.opened (c : Conf) (alloc : Nat → Option RxBuf) (mtu : BitVec 32) (s : RxState) : RxHw where
  rx := initDmaDescRings c alloc mtu s
  pos := 0
  received := []

/-- The state before the interface is opened, the arrays full of zeros. -/
def RxState.blank : RxState where
  ring _ := { desc := ⟨⟨0, 0⟩, 0, 0⟩, skb := none, dma := 0 }
  curRx := 0
  dirtyRx := 0
  dmaBufSz := 2048
  halted := false
  stats := {}
  trace := []

/-- Buffer number `n`, of 2 KiB and mapped at a page of its own. -/
def RxBuf.page (n : Nat) : RxBuf where
  id := n
  buf _ := 0
  room := 2048
  dma := BitVec.ofNat 32 (4096 * (n + 1))

variable {c : Conf} {s : RxState} {alloc : Nat → Option RxBuf} {mtu : BitVec 32} {i n : Nat}

@[simp] theorem initSlot_des2 (bufSz : BitVec 32) (b : RxBuf) (p : RxSlot) :
    (c.initSlot bufSz b p).desc.des2 = b.dma := by
  unfold Conf.initSlot
  dsimp only
  split <;> rfl

theorem stmmacInitRxBuffers_eq (b : RxBuf) :
    stmmacInitRxBuffers c s i b =
      { s with
        ring := Function.update s.ring i (c.initSlot s.dmaBufSz b (s.ring i))
        trace := s.trace ++
          [.netdevAllocSkb b.id s.dmaBufSz, .dmaMapSingle b.id b.dma s.dmaBufSz] } := by
  simp [stmmacInitRxBuffers, Conf.initSlot, RxState.call, RxState.modify]

/-- What a round of the initialisation of slot `i` turns from `I i` into `I (i + 1)` holds of the
slots reached when the loop ends, at the last slot or at the first allocation that fails. -/
theorem initRxLoop_reaches {I : Nat → RxState → Prop}
    (hbody : ∀ {i : Nat} {s : RxState} {b : RxBuf}, I i s → alloc i = some b →
      I (i + 1) (stmmacInitRxBuffers c s i b)) (hs : I i s) :
    ∃ m ≤ n, I (i + m) (initRxLoop c alloc n i s).1 ∧ (initRxLoop c alloc n i s).2 = i + m ∧
      (m < n → alloc (i + m) = none) := by
  induction n generalizing i s with
  | zero => exact ⟨0, Nat.le_refl 0, hs, rfl, fun h => absurd h (Nat.lt_irrefl 0)⟩
  | succ n ih =>
    unfold initRxLoop
    cases hb : alloc i with
    | none => exact ⟨0, Nat.zero_le _, hs, rfl, fun _ => hb⟩
    | some b =>
      obtain ⟨m, hm, hI, hend, hstop⟩ := ih (hbody hs hb)
      have hsucc : i + (m + 1) = i + 1 + m := by omega
      refine ⟨m + 1, by omega, ?_⟩
      rw [hsucc]
      exact ⟨hI, hend, fun h => hstop (by omega)⟩

theorem initDmaDescRings_halted : (initDmaDescRings c alloc mtu s).halted = s.halted := by
  have hbody : ∀ {i : Nat} {t : RxState} {b : RxBuf}, t.halted = s.halted → alloc i = some b →
      (stmmacInitRxBuffers c t i b).halted = s.halted := by
    intro i t b h _
    rw [stmmacInitRxBuffers_eq]
    exact h
  obtain ⟨m, -, hloop, -⟩ := initRxLoop_reaches (I := fun _ t => t.halted = s.halted)
    (i := 0) (s := s) (n := c.dmaRxSize.toNat) hbody rfl
  refine Eq.trans ?_ hloop
  unfold initDmaDescRings stmmacClearDescriptors
  dsimp only
  cases c.mode <;> rfl

/-- When no allocation fails every slot is reached. -/
theorem initRxLoop_invariant {I : Nat → RxState → Prop}
    (hbody : ∀ {i : Nat} {s : RxState} {b : RxBuf}, I i s → alloc i = some b →
      I (i + 1) (stmmacInitRxBuffers c s i b))
    (halloc : ∀ j < i + n, (alloc j).isSome = true) (hs : I i s) :
    I (i + n) (initRxLoop c alloc n i s).1 ∧ (initRxLoop c alloc n i s).2 = i + n := by
  obtain ⟨m, hm, hI, hend, hstop⟩ := initRxLoop_reaches (n := n) hbody hs
  obtain rfl : m = n := by
    by_contra hne
    have hfail := hstop (by omega)
    have hsome := halloc (i + m) (by omega)
    simp [hfail] at hsome
  exact ⟨hI, hend⟩

section Opened

variable (halloc : ∀ i < c.dmaRxSize.toNat, (alloc i).isSome = true)

theorem initDmaDescRings_curRx : (initDmaDescRings c alloc mtu s).curRx = 0 := by
  unfold initDmaDescRings stmmacClearDescriptors
  dsimp only
  cases c.mode <;> rfl

include halloc in
theorem initDmaDescRings_dirtyRx : (initDmaDescRings c alloc mtu s).dirtyRx = 0 := by
  have hloop := initRxLoop_invariant (c := c) (s := s) (i := 0) (I := fun _ _ => True)
    (fun _ _ => trivial) (by simpa using halloc) trivial
  have hend : (initRxLoop c alloc c.dmaRxSize.toNat 0 s).2 = c.dmaRxSize.toNat := by
    simpa using hloop.2
  have hdirty : (initDmaDescRings c alloc mtu s).dirtyRx =
      BitVec.ofNat 32 (initRxLoop c alloc c.dmaRxSize.toNat 0 s).2 - c.dmaRxSize := by
    unfold initDmaDescRings stmmacClearDescriptors
    dsimp only
    cases c.mode <;> rfl
  rw [hdirty, hend]
  simp

theorem initDmaDescRings_trace (mtu : BitVec 32) :
    (initDmaDescRings c alloc mtu s).trace = (c.initBuffers alloc s).trace := by
  unfold initDmaDescRings stmmacClearDescriptors Conf.initBuffers
  dsimp only
  cases c.mode <;> rfl

/-- The descriptors are cleared after the buffers were given out: only `des01` and `des3` change. -/
theorem initDmaDescRings_slot (alloc : Nat → Option RxBuf) (mtu : BitVec 32)
    (hi : i < c.dmaRxSize.toNat) :
    let p := (c.initBuffers alloc s).ring i
    let q := (initDmaDescRings c alloc mtu s).ring i
    q.skb = p.skb ∧ q.dma = p.dma ∧ q.desc.des2 = p.desc.des2 := by
  unfold initDmaDescRings stmmacClearDescriptors Conf.initBuffers
  dsimp only
  cases c.mode <;> simp [Ring.mapBelow_of_lt hi, RxSlot.mapDes]

theorem stmmacClearDescriptors_slot (hi : i < c.dmaRxSize.toNat) :
    (stmmacClearDescriptors c s).ring i = (s.ring i).mapDes
      (c.desc.initRxDesc · c.useRiwt c.mode (i == c.dmaRxSize.toNat - 1)) := by
  unfold stmmacClearDescriptors
  dsimp only
  rw [Ring.mapBelow_of_lt hi]

theorem stmmacClearDescriptors_owned (ops : c.desc.Lawful) (hi : i < c.dmaRxSize.toNat) :
    c.rxOwned ((stmmacClearDescriptors c s).ring i) = true := by
  rw [stmmacClearDescriptors_slot hi]
  exact ops.rxOwner_init _ _ _ _

theorem initDmaDescRings_owned (ops : c.desc.Lawful) (hi : i < c.dmaRxSize.toNat) :
    c.rxOwned ((initDmaDescRings c alloc mtu s).ring i) = true := by
  unfold initDmaDescRings
  exact stmmacClearDescriptors_owned ops hi

include halloc in
/-- Every slot has the buffer allocated for it. -/
theorem initBuffers_slot_eq (hi : i < c.dmaRxSize.toNat) :
    ∃ b, alloc i = some b ∧
      (c.initBuffers alloc s).ring i = c.initSlot s.dmaBufSz b (s.ring i) := by
  obtain ⟨⟨-, -, hslots⟩, -⟩ := initRxLoop_invariant (c := c) (s := s) (i := 0)
    (n := c.dmaRxSize.toNat)
    (I := fun n t => t.dmaBufSz = s.dmaBufSz ∧ (∀ i, n ≤ i → t.ring i = s.ring i) ∧
      ∀ i < n, ∃ b, alloc i = some b ∧ t.ring i = c.initSlot s.dmaBufSz b (s.ring i))
    (fun {n t b} ⟨hsz, hrest, hslots⟩ hb => by
      rw [stmmacInitRxBuffers_eq]
      refine ⟨hsz, fun j hj => ?_, fun j hj => ?_⟩
      · dsimp only
        rw [Function.update_of_ne (by omega), hrest j (by omega)]
      · rcases Nat.eq_or_lt_of_le (Nat.le_of_lt_succ hj) with rfl | hlt
        · exact ⟨b, hb, by simp [hsz, hrest]⟩
        · obtain ⟨b, hb, hslot⟩ := hslots j hlt
          exact ⟨b, hb, by simp [Function.update_of_ne (Nat.ne_of_lt hlt), hslot]⟩)
    (by simpa using halloc) ⟨rfl, fun _ _ => rfl, fun i hi => absurd hi (Nat.not_lt_zero i)⟩
  exact hslots i (by omega)

include halloc in
theorem initBuffers_slot (hi : i < c.dmaRxSize.toNat) :
    ∃ b, alloc i = some b ∧ ((c.initBuffers alloc s).ring i).skb = some b.skb ∧
      ((c.initBuffers alloc s).ring i).dma = b.dma ∧
      ((c.initBuffers alloc s).ring i).desc.des2 = b.dma := by
  obtain ⟨b, hb, hslot⟩ := initBuffers_slot_eq (s := s) halloc hi
  rw [hslot]
  exact ⟨b, hb, rfl, rfl, initSlot_des2 _ _ _⟩

/-- In ring mode the slots are cleared as the loop leaves them. -/
theorem initDmaDescRings_ring (hmode : c.mode = .ring) :
    (initDmaDescRings c alloc mtu s).ring =
      (stmmacClearDescriptors c (c.initBuffers alloc s)).ring := by
  unfold initDmaDescRings Conf.initBuffers
  simp only [hmode]
  rfl

include halloc in
/-- The window of the ring as it is opened: the DMA owns every descriptor and has a buffer for
each. -/
theorem RxWindow.opened (ops : c.desc.Lawful) (hp : IsPow2 c.dmaRxSize) :
    RxWindow c (initDmaDescRings c alloc mtu s) 0 0 0 0 where
  dirty := initDmaDescRings_dirtyRx halloc
  cur := initDmaDescRings_curRx
  pos_eq := (Nat.zero_mod _).symm
  le := Nat.le_refl 0
  le' := Nat.le_refl 0
  lt := by omega
  taken _ _ hj := absurd hj (Nat.not_lt_zero _)
  owned j _ _ := initDmaDescRings_owned ops (Nat.mod_lt j hp.pos)
  backed j _ _ := by
    have hj := Nat.mod_lt j hp.pos
    obtain ⟨b, -, hskb, -⟩ := initBuffers_slot (s := s) halloc hj
    rw [(initDmaDescRings_slot alloc mtu hj).1, hskb]
    rfl

end Opened

/-! ## Release -/

/-- The calls of `dma_free_rx_skbufs` on a slot. -/
def RxSlot.freeCalls (bufSz : BitVec 32) (p : RxSlot) : List RxCall :=
  match p.skb with
  | none => []
  | some skb => [.dmaUnmapSingle p.dma bufSz, .devKfreeSkbAny skb.id]

theorem freeRxSkbuf_eq (i : Nat) :
    freeRxSkbuf s i =
      { s with
        ring := Function.update s.ring i { s.ring i with skb := none }
        trace := s.trace ++ (s.ring i).freeCalls s.dmaBufSz } := by
  cases hskb : (s.ring i).skb <;>
    simp [freeRxSkbuf, hskb, RxSlot.freeCalls, RxState.call, RxState.modify]

/-- The rounds of `dma_free_rx_skbufs` so far. -/
theorem foldl_freeRxSkbuf (n : Nat) :
    (List.range n).foldl freeRxSkbuf s =
      { s with
        ring := Ring.mapBelow n (fun _ p => { p with skb := none }) s.ring
        trace := s.trace ++ (List.range n).flatMap fun i => (s.ring i).freeCalls s.dmaBufSz } := by
  induction n with
  | zero => simp
  | succ n ih =>
    rw [List.range_succ, List.foldl_append, ih]
    simp only [List.foldl_cons, List.foldl_nil, freeRxSkbuf_eq, Ring.mapBelow_succ,
      Ring.mapBelow_of_ge (Nat.le_refl n)]
    simp

theorem dmaFreeRxSkbufs_eq :
    dmaFreeRxSkbufs c s =
      { s with
        ring := Ring.mapBelow c.dmaRxSize.toNat (fun _ p => { p with skb := none }) s.ring
        trace := s.trace ++ (List.range c.dmaRxSize.toNat).flatMap fun i =>
          (s.ring i).freeCalls s.dmaBufSz } :=
  foldl_freeRxSkbuf _

end Stmmac
