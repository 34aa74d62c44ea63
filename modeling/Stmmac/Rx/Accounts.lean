import Mathlib.Algebra.Ring.Int.Defs
import Stmmac.Rx.InStep

/-!
# Receive side: the counters

What `stmmac_rx` adds to the counters of the interface, against what it did: a descriptor examined
is counted once, as a packet, an error or a dropped frame, whatever its status, its buffer and the
ring around it. Only the frame at which the kernel stops is not counted.
-/

namespace Stmmac

open Library

/-- The counters that `stmmac_rx` itself writes. -/
structure RxTotals where
  packets : Nat
  errors : Nat
  dropped : Nat
  bytes : Int
  pktN : Nat

def Stats.rxTotals (st : Stats) : RxTotals where
  packets := st.dev.rxPackets
  errors := st.dev.rxErrors
  dropped := st.dev.rxDropped
  bytes := st.dev.rxBytes
  pktN := st.xstats.rxPktN

/-- Reading the status of a frame leaves these counters to `stmmac_rx`. -/
structure StmmacDescOps.LeavesTotals (ops : StmmacDescOps) : Prop where
  rxStatus : ∀ st p, (ops.rxStatus st p).1.rxTotals = st.rxTotals
  rxExtendedStatus : ∀ f, ops.rxExtendedStatus = some f → ∀ st p, (f st p).rxTotals = st.rxTotals

/-- The frames examined that had a bad status. -/
def discarded (c : Conf) (trace : List RxCall) : List (Nat × DmaDesc) :=
  (examined trace).filter fun e => (c.desc.rxStatus {} e.2.des01).2 = .discardFrame

/-- The lengths given to `skb_put`. -/
def putLens (trace : List RxCall) : List Int :=
  trace.filterMap fun
    | .skbPut _ len => some len
    | _ => none

/-- The counters of `s` against those of an earlier `s₀` and the calls made `since`. -/
structure RxCounted (c : Conf) (s₀ s : RxState) (since : List RxCall) : Prop where
  trace : s.trace = s₀.trace ++ since
  packets : s.stats.rxTotals.packets = s₀.stats.rxTotals.packets + (delivered since).length
  errors : s.stats.rxTotals.errors = s₀.stats.rxTotals.errors + (discarded c since).length
  once : s.stats.rxTotals.packets + s.stats.rxTotals.errors + s.stats.rxTotals.dropped +
      s.halted.toNat =
    s₀.stats.rxTotals.packets + s₀.stats.rxTotals.errors + s₀.stats.rxTotals.dropped +
      s₀.halted.toNat + (examined since).length
  bytes : s.halted = false → s.stats.rxTotals.bytes = s₀.stats.rxTotals.bytes + (putLens since).sum

/-- The counters between calls, with `rx_pkt_n`, which a call raises at its end. -/
structure RxAccounts (c : Conf) (s₀ s : RxState) (since : List RxCall) : Prop extends
    RxCounted c s₀ s since where
  pktN : s.halted = false →
    s.stats.rxTotals.pktN = s₀.stats.rxTotals.pktN + (examined since).length

variable {c : Conf} {s₀ s s' : RxState} {l₁ l₂ since : List RxCall}

/-! ## Events of the calls -/

theorem discarded_append : discarded c (l₁ ++ l₂) = discarded c l₁ ++ discarded c l₂ := by
  simp [discarded, examined_append]

theorem putLens_append : putLens (l₁ ++ l₂) = putLens l₁ ++ putLens l₂ :=
  List.filterMap_append

theorem discarded_rxCalls (bufSz : BitVec 32) (entry : Nat) (q : RxSlot) :
    discarded c (c.rxCalls bufSz entry q) =
      if c.rxVerdict q = .discardFrame then [(entry, q.desc)] else [] := by
  rw [discarded, examined_rxCalls, List.filter_singleton]
  by_cases hd : c.rxVerdict q = .discardFrame
  · rw [if_pos hd, ← Conf.rxVerdict, hd]
    rfl
  · rw [if_neg hd, ← Conf.rxVerdict, decide_eq_false hd]
    rfl

theorem putLens_rxCalls (bufSz : BitVec 32) (entry : Nat) (q : RxSlot) :
    putLens (c.rxCalls bufSz entry q) =
      if c.rxVerdict q ≠ .discardFrame ∧ (c.stampedRxSkb q).isSome then
        [c.rxFrameLen q (c.rxVerdict q)]
      else [] := by
  unfold Conf.rxCalls
  by_cases hd : c.rxVerdict q = .discardFrame
  · cases hts : c.stampsRx <;> simp [hd, putLens]
  · cases hskb : c.stampedRxSkb q with
    | none => simp [hd, putLens]
    | some skb => cases hup : c.upSkb q <;> simp [hd, putLens]

/-! ## A round -/

/-- The counters after a round, as a function of the slot it finds. -/
def Conf.roundTotals (c : Conf) (p : RxSlot) (t : RxTotals) : RxTotals :=
  if c.rxVerdict p = .discardFrame then { t with errors := t.errors + 1 }
  else if p.skb = none then { t with dropped := t.dropped + 1 }
  else if c.rxPanics p then t
  else
    { t with
      packets := t.packets + 1
      bytes := t.bytes + c.rxFrameLen p (c.rxVerdict p) }

theorem readRxStatus_totals (leaves : c.desc.LeavesTotals) (st : Stats) (p : RxSlot) :
    (c.readRxStatus st p).1.rxTotals = st.rxTotals := by
  have hst := leaves.rxStatus st p.desc.des01
  unfold Conf.readRxStatus
  split
  · next hread _ hext =>
    rw [hread] at hst
    exact (leaves.rxExtendedStatus _ hext _ p.desc).trans hst
  · next hread _ =>
    rw [hread] at hst
    exact hst

theorem rxBody_totals (ops : c.desc.Lawful) (leaves : c.desc.LeavesTotals) :
    (rxBody c s).1.stats.rxTotals =
      c.roundTotals (s.ring (c.rxEntry s.curRx)) s.stats.rxTotals := by
  generalize hp : s.ring (c.rxEntry s.curRx) = p
  have hver := readRxStatus_snd ops s.stats p
  have htot := readRxStatus_totals leaves s.stats p
  generalize hread : c.readRxStatus s.stats p = read at hver htot
  obtain ⟨st, status⟩ := read
  obtain rfl : status = c.rxVerdict p := hver
  rw [← htot]
  by_cases hd : c.rxVerdict p = .discardFrame
  · cases hts : c.stampsRx <;>
      simp [rxBody, hp, hread, hd, rxDiscard, hts, Conf.roundTotals, RxState.call,
        RxState.modify, Stats.rxTotals]
  · cases hskb : p.skb with
    | none =>
      simp [rxBody, hp, hread, hd, rxDeliver, hskb, Conf.roundTotals, RxState.call,
        Stats.rxTotals]
    | some skb =>
      cases hts : stmmacGetRxHwtstamp c p skb with
      | none =>
        simp [rxBody, hp, hread, hd, rxDeliver, hskb, hts, Conf.roundTotals, Conf.rxPanics,
          Conf.putSkb, Conf.stampedRxSkb, RxState.call, RxState.modify, Stats.rxTotals]
      | some stamped =>
        cases hput : skbPut stamped (c.rxFrameLen p (c.rxVerdict p)) with
        | none =>
          simp [rxBody, hp, hread, hd, rxDeliver, hskb, hts, hput, Conf.roundTotals,
            Conf.rxPanics, Conf.putSkb, Conf.stampedRxSkb, RxState.call, RxState.modify,
            Stats.rxTotals]
        | some skb' =>
          simp [rxBody, hp, hread, hd, rxDeliver, hskb, hts, hput, Conf.roundTotals,
            Conf.rxPanics, Conf.putSkb, Conf.stampedRxSkb, RxState.call, RxState.modify,
            Stats.rxTotals]

/-- A round counts the frame it examines. -/
theorem RxCounted.round (ops : c.desc.Lawful) (leaves : c.desc.LeavesTotals)
    (h : RxCounted c s₀ s since) (hrun : s.halted = false) :
    RxCounted c s₀ (rxBody c s).1
      (since ++ c.rxCalls s.dmaBufSz (c.rxEntry s.curRx) (s.ring (c.rxEntry s.curRx))) := by
  have htrace := rxBody_trace (s := s) ops
  have htotals := rxBody_totals (s := s) ops leaves
  have hhalted := rxBody_halted (s := s) ops
  rw [hrun, Bool.false_or] at hhalted
  generalize rxBody c s = out at htrace htotals hhalted
  generalize s.ring (c.rxEntry s.curRx) = p at htrace htotals hhalted ⊢
  obtain ⟨hsince, hpackets, herrors, honce, hbytes⟩ := h
  replace hbytes := hbytes hrun
  rw [hrun, Bool.toNat_false] at honce
  have htrace' :
      out.1.trace = s₀.trace ++ (since ++ c.rxCalls s.dmaBufSz (c.rxEntry s.curRx) p) := by
    rw [htrace, hsince, List.append_assoc]
  by_cases hd : c.rxVerdict p = .discardFrame
  · have hpanic : c.rxPanics p = false := by simp [Conf.rxPanics, hd]
    have hup : c.upSkb p = none := by simp [Conf.upSkb, hd]
    constructor <;>
      simp [htrace', htotals, hhalted, hpanic, hup, hd, Conf.roundTotals, delivered_append,
        delivered_rxCalls, discarded_append, discarded_rxCalls, examined_append,
        examined_rxCalls, putLens_append, putLens_rxCalls] <;> omega
  · cases hskb : p.skb with
    | none =>
      have hpanic : c.rxPanics p = false := by simp [Conf.rxPanics, hskb]
      have hup := upSkb_none (c := c) hskb
      have hstamped := stampedRxSkb_none (c := c) hskb
      constructor <;>
        simp [htrace', htotals, hhalted, hpanic, hup, hd, hskb, hstamped, Conf.roundTotals,
          delivered_append, delivered_rxCalls, discarded_append, discarded_rxCalls,
          examined_append, examined_rxCalls, putLens_append, putLens_rxCalls] <;> omega
    | some skb =>
      cases hput : c.putSkb p with
      | none =>
        -- the kernel stops here, and the frame is not counted
        have hpanic : c.rxPanics p = true := by simp [Conf.rxPanics, hd, hskb, hput]
        have hup : c.upSkb p = none := by simp [Conf.upSkb, hd, hput]
        constructor <;>
          simp [htrace', htotals, hhalted, hpanic, hup, hd, hskb, Conf.roundTotals,
            delivered_append, delivered_rxCalls, discarded_append, discarded_rxCalls,
            examined_append, examined_rxCalls, putLens_append, putLens_rxCalls] <;> omega
      | some skb' =>
        have hpanic : c.rxPanics p = false := by simp [Conf.rxPanics, hput]
        have hup : c.upSkb p = some (c.finishSkb skb') := by simp [Conf.upSkb, hd, hput]
        have hstamped := stampedRxSkb_of_upSkb hup
        constructor <;>
          simp [htrace', htotals, hhalted, hpanic, hup, hd, hskb, hstamped, Conf.roundTotals,
            delivered_append, delivered_rxCalls, discarded_append, discarded_rxCalls,
            examined_append, examined_rxCalls, putLens_append, putLens_rxCalls] <;> omega

/-! ## Whole calls -/

theorem roundTotals_pktN (p : RxSlot) (t : RxTotals) : (c.roundTotals p t).pktN = t.pktN := by
  unfold Conf.roundTotals
  split_ifs <;> rfl

/-- The loop goes on only if the kernel does. -/
theorem rxPanics_of_not_stops {p : RxSlot} (h : c.rxStops p = false) : c.rxPanics p = false := by
  unfold Conf.rxStops at h
  unfold Conf.rxPanics
  cases hd : c.rxVerdict p != .discardFrame <;> simp_all

/-- The loop counts what it examines, and returns the number. -/
theorem RxCounted.loop (ops : c.desc.Lawful) (leaves : c.desc.LeavesTotals) {n : Nat} (count : Nat)
    (h : RxCounted c s₀ s since) (hrun : s.halted = false) :
    ∃ calls, RxCounted c s₀ (rxLoop c n s count).1 (since ++ calls) ∧
      (rxLoop c n s count).2 = count + (examined calls).length ∧
      (rxLoop c n s count).1.stats.rxTotals.pktN = s.stats.rxTotals.pktN := by
  induction n generalizing s since count with
  | zero => exact ⟨[], by simpa [rxLoop] using h, rfl, rfl⟩
  | succ n ih =>
    unfold rxLoop
    split
    · exact ⟨[], by simpa using h, rfl, rfl⟩
    · have hround := h.round ops leaves hrun
      have hpktN := congrArg RxTotals.pktN (rxBody_totals (s := s) ops leaves)
      rw [roundTotals_pktN] at hpktN
      have hhalted := rxBody_halted (s := s) ops
      have hstops := rxBody_stops (s := s) ops
      have hone := examined_rxCalls (c := c) s.dmaBufSz (c.rxEntry s.curRx)
        (s.ring (c.rxEntry s.curRx))
      generalize c.rxCalls s.dmaBufSz (c.rxEntry s.curRx) (s.ring (c.rxEntry s.curRx)) = round
        at hround hone
      generalize rxBody c s = out at hround hpktN hhalted hstops
      obtain ⟨s', stop⟩ := out
      cases stop with
      | true => exact ⟨round, hround, by rw [hone]; rfl, hpktN⟩
      | false =>
        have hrun' : s'.halted = false := by
          rw [hhalted, hrun, rxPanics_of_not_stops hstops.symm]
          rfl
        obtain ⟨calls, hcalls, hcount, hend⟩ := ih (count + 1) hround hrun'
        refine ⟨round ++ calls, by rwa [← List.append_assoc], ?_, hend.trans hpktN⟩
        rw [hcount, examined_append, hone]
        simp
        omega

/-- A refill counts nothing and examines nothing. -/
theorem stmmacRxRefill_calls (alloc : BitVec 32 → Option RxBuf) (s : RxState) :
    ∃ calls, (stmmacRxRefill c alloc s).trace = s.trace ++ calls ∧ examined calls = [] ∧
      delivered calls = [] ∧ putLens calls = [] ∧
      (stmmacRxRefill c alloc s).stats = s.stats := by
  refine stmmacRxRefill_invariant (I := fun t => ∃ calls, t.trace = s.trace ++ calls ∧
    examined calls = [] ∧ delivered calls = [] ∧ putLens calls = [] ∧ t.stats = s.stats) ?_
      ⟨[], by simp, rfl, rfl, rfl, rfl⟩
  intro t h _
  obtain ⟨calls, htrace, hex, hdel, hput, hstats⟩ := h
  rw [rxRefillBody_eq]
  generalize t.ring (c.rxEntry t.dirtyRx) = q
  have hnone : putLens (Conf.refillCalls t.dmaBufSz (alloc t.dirtyRx) q) = [] := by
    unfold Conf.refillCalls
    split <;> rfl
  refine ⟨calls ++ Conf.refillCalls t.dmaBufSz (alloc t.dirtyRx) q, ?_, ?_, ?_, ?_, hstats⟩
  · rw [htrace, List.append_assoc]
  · rw [examined_append, hex, examined_refillCalls]
    rfl
  · rw [delivered_append, hdel, delivered_refillCalls]
    rfl
  · rw [putLens_append, hput, hnone]
    rfl

/-- Calls that examine nothing and put nothing, with the counters left as they are. -/
theorem RxCounted.quiet {calls : List RxCall} (h : RxCounted c s₀ s since)
    (htrace : s'.trace = s.trace ++ calls) (hex : examined calls = []) (hdel : delivered calls = [])
    (hput : putLens calls = []) (htotals : s'.stats.rxTotals = s.stats.rxTotals)
    (hhalted : s'.halted = s.halted) : RxCounted c s₀ s' (since ++ calls) := by
  have hdis : discarded c calls = [] := by
    rw [discarded, hex]
    rfl
  refine ⟨by rw [htrace, h.trace, List.append_assoc], ?_, ?_, ?_, fun hrun => ?_⟩
  · rw [htotals, delivered_append, hdel, List.append_nil]
    exact h.packets
  · rw [htotals, discarded_append, hdis, List.append_nil]
    exact h.errors
  · rw [htotals, hhalted, examined_append, hex, List.append_nil]
    exact h.once
  · rw [htotals, putLens_append, hput, List.append_nil]
    exact h.bytes (hhalted.symm.trans hrun)

/-- A whole call; `rx_pkt_n` is raised by the number of rounds. -/
theorem RxAccounts.rx (ops : c.desc.Lawful) (leaves : c.desc.LeavesTotals)
    (h : RxAccounts c s₀ s since) (hrun : s.halted = false) (alloc : BitVec 32 → Option RxBuf)
    (limit : BitVec 32) : ∃ since', RxAccounts c s₀ (stmmacRx c alloc s limit).1 since' := by
  obtain ⟨calls, hcalls, hcount, hpktN⟩ := h.toRxCounted.loop ops leaves (n := limit.toNat) 0 hrun
  unfold stmmacRx
  generalize rxLoop c limit.toNat s 0 = out at hcalls hcount hpktN
  obtain ⟨s', count⟩ := out
  dsimp only at hcalls hcount hpktN ⊢
  split
  · next hhalt => exact ⟨_, hcalls, fun h => by rw [hhalt] at h; cases h⟩
  · next hrun' =>
    obtain ⟨refills, htrace, hex, hdel, hput, hstats⟩ := stmmacRxRefill_calls (c := c) alloc s'
    have hhalted := stmmacRxRefill_halted c alloc s'
    have hquiet := hcalls.quiet htrace hex hdel hput (congrArg Stats.rxTotals hstats) hhalted
    refine ⟨since ++ calls ++ refills,
      ⟨hquiet.trace, hquiet.packets, hquiet.errors, hquiet.once, hquiet.bytes⟩, fun _ => ?_⟩
    have hpktN' : (stmmacRxRefill c alloc s').stats.xstats.rxPktN = s.stats.xstats.rxPktN := by
      rw [hstats]
      exact hpktN
    have hbase : s.stats.xstats.rxPktN =
        s₀.stats.rxTotals.pktN + (examined since).length := h.pktN hrun
    change (stmmacRxRefill c alloc s').stats.xstats.rxPktN + count = _
    rw [hpktN', hbase, hcount, examined_append, examined_append, hex]
    simp
    omega

theorem RxAccounts.congr (h : RxAccounts c s₀ s since) (htrace : s'.trace = s.trace)
    (hstats : s'.stats = s.stats) (hhalted : s'.halted = s.halted) :
    RxAccounts c s₀ s' since where
  trace := by rw [htrace]; exact h.trace
  packets := by rw [hstats]; exact h.packets
  errors := by rw [hstats]; exact h.errors
  once := by rw [hstats, hhalted]; exact h.once
  bytes := by rw [hstats, hhalted]; exact h.bytes
  pktN := by rw [hstats, hhalted]; exact h.pktN

theorem RxAccounts.refill (h : RxAccounts c s₀ s since) (alloc : BitVec 32 → Option RxBuf) :
    ∃ since', RxAccounts c s₀ (stmmacRxRefill c alloc s) since' := by
  obtain ⟨calls, htrace, hex, hdel, hput, hstats⟩ := stmmacRxRefill_calls (c := c) alloc s
  have hhalted := stmmacRxRefill_halted c alloc s
  have hquiet := h.toRxCounted.quiet htrace hex hdel hput (congrArg Stats.rxTotals hstats) hhalted
  refine ⟨since ++ calls,
    ⟨hquiet.trace, hquiet.packets, hquiet.errors, hquiet.once, hquiet.bytes⟩, fun hrun => ?_⟩
  rw [hstats, examined_append, hex, List.append_nil]
  exact h.pktN (hhalted.symm.trans hrun)

theorem RxAccounts.step (ops : c.desc.Lawful) (leaves : c.desc.LeavesTotals) {f f' : RxHw}
    {a : RxAct} (h : RxAccounts c s₀ f.rx since) (hs : rxStep c f a = some f') :
    ∃ since', RxAccounts c s₀ f'.rx since' := by
  unfold rxStep at hs
  split at hs
  · cases hs
  next hrun =>
  cases a with
  | receive w =>
    obtain ⟨-, -, -, rfl⟩ := rxReceive_eq hs
    exact ⟨since, h.congr rfl rfl rfl⟩
  | rx alloc limit =>
    obtain rfl := Option.some.inj hs
    exact h.rx ops leaves (by simpa using hrun) alloc limit
  | refill alloc =>
    obtain rfl := Option.some.inj hs
    exact h.refill alloc
  | suspend =>
    obtain rfl := Option.some.inj hs
    exact ⟨since, h.congr rfl rfl rfl⟩
  | resume =>
    obtain rfl := Option.some.inj hs
    exact ⟨since, h⟩

theorem RxAccounts.refl (c : Conf) (s : RxState) : RxAccounts c s s [] where
  trace := by simp
  packets := rfl
  errors := rfl
  once := rfl
  bytes := fun _ => by simp [putLens]
  pktN := fun _ => rfl

/-- In every run, from any state of ring and counters, what the counters have gained is what the
calls since then did: each descriptor examined is counted once. -/
theorem rx_accounts {f₀ f : RxHw} {as : List RxAct} (ops : c.desc.Lawful)
    (leaves : c.desc.LeavesTotals) (run : Run (rxStep c) (fun _ _ => True) f₀ as f) :
    ∃ since, RxAccounts c f₀.rx f.rx since :=
  run.invariant (I := fun f => ∃ since, RxAccounts c f₀.rx f.rx since)
    (fun h _ hs => h.elim fun _ h => h.step ops leaves hs) ⟨[], .refl c f₀.rx⟩

/-! ## Normal descriptors -/

theorem ndescRxErrorStats_totals (st : Stats) (p : Des01) :
    (ndescRxErrorStats st p).rxTotals = st.rxTotals := by
  unfold ndescRxErrorStats
  dsimp only
  split_ifs <;> rfl

theorem ndescOps_leavesTotals : ndescOps.LeavesTotals where
  rxStatus := by
    intro st p
    change (ndescGetRxStatus st p).1.rxTotals = st.rxTotals
    have herr := ndescRxErrorStats_totals st p
    unfold ndescGetRxStatus
    dsimp only
    split_ifs <;> first | rfl | exact herr
  rxExtendedStatus := nofun

/-- A good frame, one with a bad status, and a call that goes round a ring of two. -/
theorem rx_accounts_around :
    ∃ f, Run (rxStep (.normal 2)) (fun _ _ => True)
        (.opened (.normal 2) (fun i => some (.page i)) 1500 .blank)
        [.receive (.frame (.replicate 64 1)), .receive ⟨⟨0, 0⟩, none, []⟩,
          .rx (fun _ => none) 4] f ∧
      ∃ since, RxAccounts (.normal 2)
        (RxHw.opened (.normal 2) (fun i => some (.page i)) 1500 .blank).rx f.rx since :=
  exec_exists (by decide +kernel) fun _ run => rx_accounts ndescOps_lawful ndescOps_leavesTotals run

end Stmmac
