import Mathlib.Data.Multiset.AddSub
import Stmmac.Library.Ring

/-!
# Ledgers of acquired and released resources

`replay held es` follows a history of acquisitions and releases from a multiset of held resources.
It fails at a release of something that is not held, so a history that replays releases each
resource at most once, and one that ends with nothing held releases each exactly once. A history
needs no more than it uses: it replays on top of any further holdings. `Covers` says that what the
slots of a ring hold has been acquired and not yet released.
-/

namespace Stmmac.Library.Ledger

variable {α : Type*}

inductive Event (α : Type*) where
  | acquire (x : α)
  | release (x : α)
  deriving DecidableEq

/-- Acquisitions followed by releases. -/
def history (as rs : List α) : List (Event α) := as.map .acquire ++ rs.map .release

variable [DecidableEq α]

def replay : Multiset α → List (Event α) → Option (Multiset α)
  | held, [] => some held
  | held, .acquire x :: es => replay (x ::ₘ held) es
  | held, .release x :: es => if x ∈ held then replay (held.erase x) es else none

variable {held held' extra : Multiset α} {es fs : List (Event α)}

@[simp] theorem replay_nil (held : Multiset α) : replay held [] = some held := rfl

theorem replay_append :
    replay held (es ++ fs) = (replay held es).bind fun h => replay h fs := by
  induction es generalizing held with
  | nil => rfl
  | cons e es ih =>
    cases e with
    | acquire x => exact ih
    | release x =>
      simp only [List.cons_append, replay]
      split
      · exact ih
      · rfl

theorem replay_append_of (h : replay held es = some held') :
    replay held (es ++ fs) = replay held' fs := by
  rw [replay_append, h, Option.bind_some]

/-- A history does not depend on what it leaves alone. -/
theorem replay_frame (h : replay held es = some held') :
    replay (held + extra) es = some (held' + extra) := by
  induction es generalizing held with
  | nil =>
    obtain rfl := Option.some.inj h
    rfl
  | cons e es ih =>
    cases e with
    | acquire x =>
      rw [replay, ← Multiset.cons_add]
      exact ih h
    | release x =>
      rw [replay] at h ⊢
      split at h
      · next hx =>
        rw [if_pos (Multiset.mem_add.mpr (.inl hx)), Multiset.erase_add_left_pos extra hx]
        exact ih h
      · cases h

/-- Acquisitions always succeed. -/
theorem replay_acquires (l : List α) :
    replay held (l.map .acquire) = some ((l : Multiset α) + held) := by
  induction l generalizing held with
  | nil => simp
  | cons x l ih =>
    rw [List.map_cons, replay, ih, Multiset.add_cons, ← Multiset.cons_add, Multiset.cons_coe]

theorem replay_release (x : α) : replay (x ::ₘ held) [.release x] = some held := by
  simp [replay]

/-- What a history has acquired is what it has released and what is left. -/
theorem replay_count (h : replay held es = some held') (x : α) :
    held.count x + es.count (.acquire x) = held'.count x + es.count (.release x) := by
  induction es generalizing held with
  | nil =>
    obtain rfl := Option.some.inj h
    simp
  | cons e es ih =>
    cases e with
    | acquire y =>
      have hrest := ih h
      rw [Multiset.count_cons] at hrest
      by_cases hxy : x = y
      · subst hxy
        simp at hrest ⊢
        omega
      · simp [hxy, Ne.symm hxy] at hrest ⊢
        omega
    | release y =>
      rw [replay] at h
      split at h
      · next hy =>
        have hrest := ih h
        by_cases hxy : x = y
        · subst hxy
          have hpos := Multiset.count_pos.mpr hy
          simp at hrest ⊢
          omega
        · simp [hxy, Ne.symm hxy] at hrest ⊢
          omega
      · cases h

omit [DecidableEq α] in
theorem acquires_append_history (as bs rs : List α) :
    as.map .acquire ++ history bs rs = history (as ++ bs) rs := by
  rw [history, history, List.map_append, List.append_assoc]

/-- Acquisitions followed by releases leave nothing exactly when they are of the same things. -/
theorem replay_history_iff (as rs : List α) : replay 0 (history as rs) = some 0 ↔ as.Perm rs := by
  rw [history, replay_append_of (replay_acquires as), add_zero]
  refine ⟨fun h => List.perm_iff_count.mpr fun x => ?_, fun h => ?_⟩
  · have hcount := replay_count h x
    have hacq : (rs.map Event.release).count (.acquire x) = 0 :=
      List.count_eq_zero.mpr (by simp)
    have hrel : (rs.map Event.release).count (.release x) = rs.count x :=
      List.count_map_of_injective rs Event.release (fun _ _ h => Event.release.inj h) x
    simpa [hacq, hrel] using hcount
  · rw [Multiset.coe_eq_coe.mpr h]
    clear h
    induction rs with
    | nil => rfl
    | cons x rs ih =>
      rw [← Multiset.cons_coe, List.map_cons, replay, if_pos (Multiset.mem_cons_self x _),
        Multiset.erase_cons_head]
      exact ih

/-- Releasing what a loop has acquired, index by index. -/
theorem replay_releases (n : Nat) (f : Nat → Multiset α) (es : Nat → List (Event α))
    (h : ∀ i < n, replay (f i) (es i) = some 0) :
    replay (∑ i ∈ Finset.range n, f i) ((List.range n).flatMap es) = some 0 := by
  induction n with
  | zero => simp
  | succ n ih =>
    have hn := ih fun i hi => h i (Nat.lt_succ_of_lt hi)
    rw [Finset.sum_range_succ, List.range_succ, List.flatMap_append, replay_append,
      replay_frame hn, Option.bind_some, zero_add]
    simpa using h n (Nat.lt_succ_self n)

/-! ## Ledgers of the slots of a ring -/

section Covers

variable {β : Type*} {N : Nat} {f : β → Multiset α} {r r' : Nat → β} {es' : List (Event α)}

/-- A write to one slot whose events turn what it held into what it holds and `lost`. -/
theorem replay_write {extra lost : Multiset α} {e : Nat} {q : β}
    (h : replay 0 es = some (∑ i ∈ Finset.range N, f (r i) + extra)) (he : e < N)
    (hq : replay (f (r e)) es' = some (f q + lost)) :
    replay 0 (es ++ es') =
      some (∑ i ∈ Finset.range N, f (Function.update r e q i) + (lost + extra)) := by
  obtain ⟨rest, hold, hnew⟩ := Ring.exists_sum_rest f r he
  rw [replay_append_of h, hold, hnew, add_assoc, replay_frame hq]
  congr 1
  ac_rfl

/-- The same for a slot that joins the ring. -/
theorem replay_extend {extra lost : Multiset α} {q : β}
    (h : replay 0 es = some (∑ i ∈ Finset.range N, f (r i) + extra))
    (hq : replay 0 es' = some (f q + lost)) :
    replay 0 (es ++ es') =
      some (∑ i ∈ Finset.range (N + 1), f (Function.update r N q i) + (lost + extra)) := by
  have hframe : replay (0 + (∑ i ∈ Finset.range N, f (r i) + extra)) es' =
      some (f q + lost + (∑ i ∈ Finset.range N, f (r i) + extra)) := replay_frame hq
  rw [zero_add] at hframe
  rw [replay_append_of h, hframe, Ring.sum_extend]
  congr 1
  ac_rfl

/-- After the history the slots hold what `f` says, and there may be further holdings. -/
def Covers (N : Nat) (f : β → Multiset α) (r : Nat → β) (es : List (Event α)) : Prop :=
  ∃ extra, replay 0 es = some (∑ i ∈ Finset.range N, f (r i) + extra)

theorem Covers.congr (h : Covers N f r es) (hf : ∀ i < N, f (r' i) = f (r i)) :
    Covers N f r' es := by
  obtain ⟨extra, hreplay⟩ := h
  have hsum : ∑ i ∈ Finset.range N, f (r' i) = ∑ i ∈ Finset.range N, f (r i) :=
    Finset.sum_congr rfl fun i hi => hf i (Finset.mem_range.mp hi)
  exact ⟨extra, by rw [hsum, hreplay]⟩

/-- A write to one slot whose events turn what it held into what it holds, or more. -/
theorem Covers.write (h : Covers N f r es) {e : Nat} (he : e < N) {q : β}
    (hq : ∃ lost, replay (f (r e)) es' = some (f q + lost)) :
    Covers N f (Function.update r e q) (es ++ es') := by
  obtain ⟨extra, hreplay⟩ := h
  obtain ⟨lost, hq⟩ := hq
  exact ⟨lost + extra, replay_write hreplay he hq⟩

/-- The same for a slot that joins the ring. -/
theorem Covers.extend (h : Covers N f r es) {q : β}
    (hq : ∃ lost, replay 0 es' = some (f q + lost)) :
    Covers (N + 1) f (Function.update r N q) (es ++ es') := by
  obtain ⟨extra, hreplay⟩ := h
  obtain ⟨lost, hq⟩ := hq
  exact ⟨lost + extra, replay_extend hreplay hq⟩

/-- Slots may be taken to hold less. -/
theorem Covers.mono {f' : β → Multiset α} (h : Covers N f r es)
    (hf : ∀ i < N, ∃ rest, f (r i) = f' (r i) + rest) : Covers N f' r es := by
  obtain ⟨extra, hreplay⟩ := h
  choose! rest hrest using hf
  refine ⟨∑ i ∈ Finset.range N, rest i + extra, ?_⟩
  have hsum : ∑ i ∈ Finset.range N, f (r i) =
      ∑ i ∈ Finset.range N, f' (r i) + ∑ i ∈ Finset.range N, rest i := by
    rw [← Finset.sum_add_distrib]
    exact Finset.sum_congr rfl fun i hi => hrest i (Finset.mem_range.mp hi)
  rw [hreplay, hsum, add_assoc]

/-- Events slot by slot, which turn what each held into what it holds, or more. -/
theorem Covers.each {es' : Nat → List (Event α)} (h : Covers N f r es)
    (hslot : ∀ i < N, ∃ lost, replay (f (r i)) (es' i) = some (f (r' i) + lost)) :
    Covers N f r' (es ++ (List.range N).flatMap es') := by
  obtain ⟨extra, hreplay⟩ := h
  have hall : ∀ n ≤ N, ∃ lost, replay (∑ i ∈ Finset.range n, f (r i))
      ((List.range n).flatMap es') = some (∑ i ∈ Finset.range n, f (r' i) + lost) := by
    intro n hn
    induction n with
    | zero => exact ⟨0, by simp⟩
    | succ n ih =>
      obtain ⟨lost, hn'⟩ := ih (Nat.le_of_succ_le hn)
      obtain ⟨lost', hi⟩ := hslot n hn
      refine ⟨lost + lost', ?_⟩
      rw [Finset.sum_range_succ, List.range_succ, List.flatMap_append,
        replay_append_of (replay_frame hn'), List.flatMap_singleton, add_comm, replay_frame hi,
        Finset.sum_range_succ]
      congr 1
      ac_rfl
  obtain ⟨lost, hlost⟩ := hall N (Nat.le_refl N)
  refine ⟨lost + extra, ?_⟩
  rw [replay_append_of hreplay, replay_frame hlost, add_assoc]

/-- Consecutive slots are written, and what they hold then is acquired. -/
theorem Covers.slots {k n : Nat} {l : List α} (h : Covers N f r es) (hn : n ≤ N)
    (hoff : ∀ j < N, (∀ i < n, j ≠ (k + i) % N) → r' j = r j)
    (hl : ∑ i ∈ Finset.range n, f (r' ((k + i) % N)) = l) :
    Covers N f r' (es ++ l.map .acquire) := by
  classical
  obtain ⟨extra, hreplay⟩ := h
  -- what the other slots hold
  let rest (j : Nat) : Multiset α := if ∃ i < n, j = (k + i) % N then 0 else f (r j)
  let lost (j : Nat) : Multiset α := if ∃ i < n, j = (k + i) % N then f (r j) else 0
  have hold : ∑ j ∈ Finset.range N, f (r j) =
      ∑ j ∈ Finset.range N, rest j + ∑ j ∈ Finset.range N, lost j := by
    rw [← Finset.sum_add_distrib]
    refine Finset.sum_congr rfl fun j _ => ?_
    by_cases hj : ∃ i < n, j = (k + i) % N <;> simp [rest, lost, hj]
  have hnew : ∑ j ∈ Finset.range N, f (r' j) = ∑ j ∈ Finset.range N, rest j + l := by
    rw [← hl]
    refine Ring.sum_slots hn (fun j hj hne => ?_) fun i hi => if_pos ⟨i, hi, rfl⟩
    have hno : ¬ ∃ i < n, j = (k + i) % N := fun ⟨i, hi, he⟩ => hne i hi he
    rw [hoff j hj hne]
    exact (if_neg hno).symm
  refine ⟨∑ j ∈ Finset.range N, lost j + extra, ?_⟩
  rw [replay_append_of hreplay, replay_acquires, hold, hnew]
  congr 1
  ac_rfl

theorem covers_zero (r : Nat → β) : Covers 0 f r ([] : List (Event α)) := ⟨0, by simp⟩

end Covers

end Stmmac.Library.Ledger
