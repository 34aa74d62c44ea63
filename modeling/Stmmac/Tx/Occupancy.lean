import Stmmac.Library.Runs
import Stmmac.Tx.Step

/-!
# Transmit side: occupancy of the ring

`stmmac_xmit` checks for room before it takes slots; `rtl8211_xmit` does not. As long as
`rtl8211_xmit` is called only when a slot is free, the two counters stay less than a ring apart,
`stmmac_tx_avail` is the number of free slots, and no frame overwrites a slot in flight. Without
that, the second counter laps the first.
-/

namespace Stmmac

open Library

variable {c : Conf} {s s' : TxState} {a : TxAct} {t h : Nat}

/-- The calls that queue a frame. -/
def TxAct.Transmits : TxAct → Prop
  | .xmit _ _ => True
  | .rtl8211Xmit _ _ => True
  | _ => False

/-- `rtl8211_xmit` is called only when a slot is free. -/
def Rtl8211HasRoom (c : Conf) (s : TxState) : TxAct → Prop
  | .rtl8211Xmit _ _ => 1 ≤ (stmmacTxAvail c s).toNat
  | _ => True

instance (c : Conf) (s : TxState) : ∀ a, Decidable (Rtl8211HasRoom c s a)
  | .rtl8211Xmit _ _ => inferInstanceAs (Decidable (_ ≤ _))
  | .xmit _ _ | .txClean | .txErr | .complete _ _ => inferInstanceAs (Decidable True)

theorem rtl8211_room (w : TxWindow c s t h) (hroom : 1 ≤ (stmmacTxAvail c s).toNat) :
    h + 1 < t + c.dmaTxSize.toNat := by
  have := w.avail
  have := w.le
  omega

theorem txStep_window (hp : IsPow2 c.dmaTxSize) (w : TxWindow c s t h)
    (hok : Rtl8211HasRoom c s a) (hs : txStep c s a = some s') : ∃ t' h', TxWindow c s' t' h' := by
  cases a with
  | xmit skb dma =>
    obtain rfl := Option.some.inj hs
    by_cases hfit : XmitFits c s skb
    · exact ⟨t, _, (stmmacXmit_filled dma hp w hfit).window w (hfit.room w)⟩
    · have hsame : SameRing s (stmmacXmit c s skb dma).1 := stmmacXmit_same hfit
      exact ⟨t, h, w.congr hsame.dirtyTx hsame.curTx⟩
  | rtl8211Xmit length addr =>
    obtain rfl := Option.some.inj hs
    exact ⟨t, _, (rtl8211Xmit_filled hp w.cur).window w (rtl8211_room w hok)⟩
  | txClean =>
    obtain rfl := Option.some.inj hs
    obtain ⟨t', w'⟩ := w.txClean
    exact ⟨t', h, w'⟩
  | txErr =>
    obtain rfl := Option.some.inj hs
    exact ⟨0, 0, .err hp⟩
  | complete entry desc =>
    obtain ⟨_, _, rfl⟩ := txComplete_eq hs
    exact ⟨t, h, w.congr rfl rfl⟩

/-- A transmit call leaves every slot in flight as it was. -/
theorem txStep_kept (hp : IsPow2 c.dmaTxSize) (w : TxWindow c s t h) (ha : a.Transmits)
    (hok : Rtl8211HasRoom c s a) (hs : txStep c s a = some s') {k : Nat} (hk : k < s.inFlight) :
    s'.ring (s.flightSlot c k) = s.ring (s.flightSlot c k) := by
  rw [w.inFlight] at hk
  rw [w.flightSlot hp]
  cases a with
  | xmit skb dma =>
    obtain rfl := Option.some.inj hs
    by_cases hfit : XmitFits c s skb
    · have hroom := hfit.room w
      exact (stmmacXmit_filled dma hp w hfit).kept (t := t) (by omega) (by omega) (by omega)
    · rw [stmmacXmit_refused hfit]
  | rtl8211Xmit length addr =>
    obtain rfl := Option.some.inj hs
    have hroom := rtl8211_room w hok
    exact (rtl8211Xmit_filled hp w.cur).kept (t := t) (by omega) (by omega) (by omega)
  | txClean => cases ha
  | txErr => cases ha
  | complete entry desc => cases ha

theorem run_window {as : List TxAct} (hp : IsPow2 c.dmaTxSize) (h₀ : s.curTx = s.dirtyTx)
    (run : Run (txStep c) (Rtl8211HasRoom c) s as s') : ∃ t h, TxWindow c s' t h :=
  run.invariant (I := fun s => ∃ t h, TxWindow c s t h)
    (fun ⟨_, _, w⟩ hok hs => txStep_window hp w hok hs) ⟨_, _, .of_eq hp h₀⟩

/-- Occupancy over whole runs in which `rtl8211_xmit` finds a free slot each time. -/
theorem tx_ring_occupancy {as : List TxAct} (hp : IsPow2 c.dmaTxSize) (hcur : s.curTx = 0)
    (hdirty : s.dirtyTx = 0) (run : Run (txStep c) (Rtl8211HasRoom c) s as s') :
    s'.inFlight ≤ c.dmaTxSize.toNat - 1 ∧
      (stmmacTxAvail c s').toNat + s'.inFlight + 1 = c.dmaTxSize.toNat ∧
      ∀ a s'', a.Transmits → Rtl8211HasRoom c s' a → txStep c s' a = some s'' →
        ∀ k < s'.inFlight, s''.ring (s'.flightSlot c k) = s'.ring (s'.flightSlot c k) := by
  obtain ⟨t, h, w⟩ := run_window hp (hcur.trans hdirty.symm) run
  have hlt := w.lt
  have hle := w.le
  refine ⟨?_, ?_, fun a s'' ha hok hs k hk => txStep_kept hp w ha hok hs hk⟩
  · rw [w.inFlight]; omega
  · rw [w.inFlight]; exact w.avail

theorem tx_ring_occupancy_two_frames :
    ∃ s, Run (txStep (.normal 64)) (Rtl8211HasRoom (.normal 64)) (.idle (.normal 64))
        [.xmit (.plain 7 60 [100]) fun i => 4096 + BitVec.ofNat 32 i, .rtl8211Xmit 60 8192,
          .complete 0 ⟨⟨0, 0⟩, 4096, 0⟩, .txClean] s ∧
      s.inFlight ≤ 64 - 1 ∧ (stmmacTxAvail (.normal 64) s).toNat + s.inFlight + 1 = 64 ∧
      ∀ a s'', a.Transmits → Rtl8211HasRoom (.normal 64) s a →
        txStep (.normal 64) s a = some s'' → ∀ k < s.inFlight,
          s''.ring (s.flightSlot (.normal 64) k) = s.ring (s.flightSlot (.normal 64) k) :=
  exec_exists (by decide) fun _ run => tx_ring_occupancy ⟨6, rfl⟩ rfl rfl run

/-- `rtl8211_xmit` goes through whatever the fill level. -/
theorem rtl8211_replicate (length addr : BitVec 32) (n : Nat) :
    ∃ s', Run (txStep c) (fun _ _ => True) s (.replicate n (.rtl8211Xmit length addr)) s' ∧
      s'.curTx = s.curTx + BitVec.ofNat 32 n ∧ s'.dirtyTx = s.dirtyTx := by
  induction n generalizing s with
  | zero => exact ⟨s, .nil s, by simp, rfl⟩
  | succ n ih =>
    obtain ⟨s', run, hcur, hdirty⟩ := ih (s := (rtl8211Xmit c s length addr).1)
    refine ⟨s', .cons trivial rfl run, ?_, ?_⟩
    · rw [hcur, rtl8211Xmit_curTx, Ring.ofNat_succ]
      ac_rfl
    · rw [hdirty, rtl8211Xmit_dirtyTx]

/-- 64 frames sent by `rtl8211_xmit` fill a ring of 64 slots to the last one. -/
theorem rtl8211_overruns :
    ∃ s, Run (txStep (.normal 64)) (fun _ _ => True) (.idle (.normal 64))
        (.replicate 64 (.rtl8211Xmit 60 4096)) s ∧ ¬ s.inFlight ≤ 64 - 1 := by
  obtain ⟨s, run, hcur, hdirty⟩ := rtl8211_replicate (c := .normal 64)
    (s := .idle (.normal 64)) 60 4096 64
  refine ⟨s, run, ?_⟩
  rw [TxState.inFlight, hcur, hdirty]
  decide

end Stmmac
