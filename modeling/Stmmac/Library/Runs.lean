import Mathlib.Tactic.Common

/-!
# Runs of a labelled transition function

`step s a = some t` is a step of a system from `s` to `t` under the label `a`; `none` means that
the label is not enabled. A `Run` records that every step also met a condition in the state it
started from, so a theorem about all runs can name the runs it is about. `iterate` is a guarded
loop with a bound on its number of rounds. Both run in step on states that stay related.
-/

namespace Stmmac.Library

variable {σ α : Type*}

/-- A finite run whose steps all meet `ok` in the state before the step. -/
inductive Run (step : σ → α → Option σ) (ok : σ → α → Prop) : σ → List α → σ → Prop where
  | nil (s : σ) : Run step ok s [] s
  | cons {s t u : σ} {a : α} {as : List α} :
      ok s a → step s a = some t → Run step ok t as u → Run step ok s (a :: as) u

namespace Run

variable {step : σ → α → Option σ} {ok ok' : σ → α → Prop} {s t u : σ} {a : α} {as bs : List α}

/-- What every step preserves holds at the end of every run. -/
theorem invariant {I : σ → Prop}
    (hstep : ∀ {s t : σ} {a : α}, I s → ok s a → step s a = some t → I t)
    (run : Run step ok s as t) (h : I s) : I t := by
  induction run with
  | nil => exact h
  | cons hok hs _ ih => exact ih (hstep h hok hs)

theorem append (run : Run step ok s as t) (run' : Run step ok t bs u) :
    Run step ok s (as ++ bs) u := by
  induction run with
  | nil => exact run'
  | cons hok hs _ ih => exact .cons hok hs (ih run')

theorem mono (h : ∀ s a, ok s a → ok' s a) (run : Run step ok s as t) :
    Run step ok' s as t := by
  induction run with
  | nil s => exact .nil s
  | cons hok hs _ ih => exact .cons (h _ _ hok) hs ih

section Persistent

variable {I P : σ → Prop}
  (hI : ∀ {s t : σ} {a : α}, I s → ok s a → step s a = some t → I t)
  (hP : ∀ {s t : σ} {a : α}, I s → ok s a → step s a = some t → (P t ↔ P s ∧ ok' s a))

include hI hP in
/-- A property that no step restores held from the start. -/
theorem of_end (run : Run step ok s as t) (hs : I s) (ht : P t) : P s := by
  induction run with
  | nil => exact ht
  | cons hok hstep _ ih => exact ((hP hs hok hstep).mp (ih (hI hs hok hstep) ht)).1

include hI hP in
/-- If a step keeps a property exactly under a condition, and no step restores it, it holds at the
end exactly if every step met the condition. -/
theorem and_iff (run : Run step ok s as t) (hs : I s) (hP₀ : P s) :
    P t ↔ Run step (fun s a => ok s a ∧ ok' s a) s as t := by
  induction run with
  | nil s => exact ⟨fun _ => .nil s, fun _ => hP₀⟩
  | cons hok hstep run ih =>
    have hnext := hI hs hok hstep
    constructor
    · intro ht
      obtain ⟨hP₁, hok'⟩ := (hP hs hok hstep).mp (run.of_end hI hP hnext ht)
      exact .cons ⟨hok, hok'⟩ hstep ((ih hnext ((hP hs hok hstep).mpr ⟨hP₀, hok'⟩)).mp ht)
    · intro hrun
      cases hrun with
      | cons hboth hstep' hrun =>
        obtain rfl := Option.some.inj (hstep.symm.trans hstep')
        exact (ih hnext ((hP hs hok hstep).mpr ⟨hP₀, hboth.2⟩)).mpr hrun

end Persistent

end Run

/-- Execute a list of labels, giving up at the first step that breaks `ok` or is not enabled. -/
def exec (step : σ → α → Option σ) (ok : σ → α → Prop) [∀ s a, Decidable (ok s a)] :
    σ → List α → Option σ
  | s, [] => some s
  | s, a :: as => if ok s a then (step s a).bind fun t => exec step ok t as else none

theorem exec_run {step : σ → α → Option σ} {ok : σ → α → Prop} [∀ s a, Decidable (ok s a)] :
    ∀ {as : List α} {s t : σ}, exec step ok s as = some t → Run step ok s as t
  | [], s, t, h => by
    obtain rfl : s = t := by simpa [exec] using h
    exact .nil s
  | a :: as, s, t, h => by
    by_cases hok : ok s a
    · obtain ⟨u, hu, ht⟩ := Option.bind_eq_some_iff.mp (by simpa [exec, hok] using h)
      exact .cons hok hu (exec_run ht)
    · simp [exec, hok] at h

section Exec

variable {step : σ → α → Option σ} {ok : σ → α → Prop} [∀ s a, Decidable (ok s a)]
  {s : σ} {as : List α} {P : σ → Prop}

/-- A run that executes ends in a state of which every fact about its run holds. -/
theorem exec_exists (h : (exec step ok s as).isSome = true)
    (hP : ∀ t, Run step ok s as t → P t) : ∃ t, Run step ok s as t ∧ P t := by
  obtain ⟨t, ht⟩ := Option.isSome_iff_exists.mp h
  exact ⟨t, exec_run ht, hP t (exec_run ht)⟩

/-- What the state computed by an execution satisfies, some run reaches. -/
theorem exec_reaches [DecidablePred P]
    (h : (exec step ok s as).any (fun t => decide (P t)) = true) :
    ∃ t, Run step ok s as t ∧ P t := by
  obtain ⟨t, ht, hP⟩ := (Option.any_eq_true _ _).mp h
  exact ⟨t, exec_run ht, of_decide_eq_true hP⟩

end Exec

/-- `while (guard) body`, for at most the given number of rounds. -/
def iterate (guard : σ → Bool) (body : σ → σ) : Nat → σ → σ
  | 0, s => s
  | n + 1, s => if guard s then iterate guard body n (body s) else s

section Iterate

variable {guard : σ → Bool} {body : σ → σ}

theorem iterate_invariant {I : σ → Prop}
    (hbody : ∀ {s : σ}, I s → guard s = true → I (body s)) :
    ∀ {n : Nat} {s : σ}, I s → I (iterate guard body n s)
  | 0, _, h => h
  | n + 1, s, h => by
    unfold iterate
    split
    · next hg => exact iterate_invariant hbody (hbody h hg)
    · exact h

/-- With as many rounds as a measure that the body decreases, the loop ends at its exit test. -/
theorem iterate_exit (measure : σ → Nat)
    (hbody : ∀ {s : σ}, guard s = true → measure (body s) < measure s) :
    ∀ {n : Nat} {s : σ}, measure s ≤ n → guard (iterate guard body n s) = false
  | 0, s, h => by
    cases hg : guard s with
    | false => simpa [iterate] using hg
    | true => have := hbody hg; omega
  | n + 1, s, h => by
    unfold iterate
    split
    · next hg =>
      have := hbody hg
      exact iterate_exit measure hbody (by omega)
    · next hg => simpa using hg

/-- A loop that has ended is not changed by a higher bound. -/
theorem iterate_of_le : ∀ {n m : Nat} {s : σ}, guard (iterate guard body n s) = false → n ≤ m →
    iterate guard body m s = iterate guard body n s
  | 0, 0, _, _, _ => rfl
  | 0, m + 1, s, h, _ => by
    change guard s = false at h
    simp [iterate, h]
  | n + 1, 0, _, _, hle => absurd hle (Nat.not_succ_le_zero n)
  | n + 1, m + 1, s, h, hle => by
    unfold iterate at h ⊢
    split at h
    · next hg =>
      rw [if_pos hg, if_pos hg]
      exact iterate_of_le h (Nat.le_of_succ_le_succ hle)
    · next hg => rw [if_neg hg, if_neg hg]

end Iterate

/-- What the rounds of a loop log, in order. -/
def iterateLog {β : Type*} (guard : σ → Bool) (body : σ → σ) (log : σ → List β) :
    Nat → σ → List β
  | 0, _ => []
  | n + 1, s => if guard s then log s ++ iterateLog guard body log n (body s) else []

theorem iterateLog_forall {β : Type*} {guard : σ → Bool} {body : σ → σ} {log : σ → List β}
    {P : β → Prop} (hlog : ∀ s, guard s = true → ∀ x ∈ log s, P x) :
    ∀ (n : Nat) (s : σ), ∀ x ∈ iterateLog guard body log n s, P x
  | 0, _ => fun _ hx => absurd hx List.not_mem_nil
  | n + 1, s => by
    intro x hx
    unfold iterateLog at hx
    split at hx
    · next hg =>
      rcases List.mem_append.mp hx with hx | hx
      · exact hlog s hg x hx
      · exact iterateLog_forall hlog n (body s) x hx
    · exact absurd hx List.not_mem_nil

/-- A loop rule that speaks of the state and of what has been logged so far. -/
theorem iterateLog_invariant {β : Type*} {guard : σ → Bool} {body : σ → σ} {log : σ → List β}
    {I : σ → List β → Prop}
    (hbody : ∀ {s : σ} {l : List β}, I s l → guard s = true → I (body s) (l ++ log s)) :
    ∀ {n : Nat} {s : σ} {l : List β}, I s l →
      I (iterate guard body n s) (l ++ iterateLog guard body log n s)
  | 0, _, l, h => by simpa [iterateLog, iterate] using h
  | n + 1, s, l, h => by
    unfold iterate iterateLog
    split
    · next hg =>
      rw [← List.append_assoc]
      exact iterateLog_invariant hbody (hbody h hg)
    · simpa using h

section Simulation

variable {τ : Type*} {R : σ → τ → Prop}

/-- Related outcomes look the same to observers that agree on related states. -/
theorem map_eq_of_rel {β : Type*} {o : Option σ} {o' : Option τ} {f : σ → β} {g : τ → β}
    (h : Option.Rel R o o') (hf : ∀ s t, R s t → f s = g t) : o.map f = o'.map g := by
  cases h with
  | none => rfl
  | some hr => exact congrArg some (hf _ _ hr)

/-- Related states stay related under the same labels, or both executions give up. -/
theorem exec_relates {step : σ → α → Option σ} {step' : τ → α → Option τ}
    (hstep : ∀ {s : σ} {t : τ} (a : α), R s t → Option.Rel R (step s a) (step' t a))
    {as : List α} {s : σ} {t : τ} (h : R s t) :
    Option.Rel R (exec step (fun _ _ => True) s as) (exec step' (fun _ _ => True) t as) := by
  induction as generalizing s t with
  | nil => exact .some h
  | cons a as ih =>
    have hrel := hstep a h
    unfold exec
    simp only [if_true]
    generalize step s a = o, step' t a = o' at hrel
    cases hrel with
    | none => exact .none
    | some h' => exact ih h'

/-- Related states with the same outcome of the guard run the loop in step. -/
theorem iterate_relates {guard : σ → Bool} {body : σ → σ} {guard' : τ → Bool} {body' : τ → τ}
    (hguard : ∀ {s : σ} {t : τ}, R s t → guard s = guard' t)
    (hbody : ∀ {s : σ} {t : τ}, R s t → guard s = true → R (body s) (body' t))
    {n : Nat} {s : σ} {t : τ} (h : R s t) :
    R (iterate guard body n s) (iterate guard' body' n t) := by
  induction n generalizing s t with
  | zero => exact h
  | succ n ih =>
    unfold iterate
    rw [← hguard h]
    split
    · next hg => exact ih (hbody h hg)
    · exact h

end Simulation

end Stmmac.Library
