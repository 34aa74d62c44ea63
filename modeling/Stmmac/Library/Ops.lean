import Mathlib.Tactic.Common

/-!
# Straight-line programs under interference

A program is a list of operations that run one after the other on a state. `Safe P Q ops s` is
their weakest precondition: run from `s`, each operation meets `P` in the state it starts from, and
the last state meets `Q`. Others may act between two operations: what they do is a relation that
the operations respect, and a program that was safe before such an interference is safe after it.
-/

namespace Stmmac.Library.Ops

variable {σ ο : Type*} (run : σ → ο → σ)

def Safe (P : σ → ο → Prop) (Q : σ → Prop) : List ο → σ → Prop
  | [], s => Q s
  | op :: ops, s => P s op ∧ Safe P Q ops (run s op)

variable {run} {P P' : σ → ο → Prop} {Q Q' I : σ → Prop} {ops ops' : List ο} {s t : σ}

/-- The rule of composition. -/
theorem safe_append :
    Safe run P Q (ops ++ ops') s ↔ Safe run P (Safe run P Q ops') ops s := by
  induction ops generalizing s with
  | nil => rfl
  | cons op ops ih => exact and_congr_right fun _ => ih

/-- The rule of consequence. -/
theorem Safe.mono (hP : ∀ s op, P s op → P' s op) (hQ : ∀ s, Q s → Q' s)
    (h : Safe run P Q ops s) : Safe run P' Q' ops s := by
  induction ops generalizing s with
  | nil => exact hQ s h
  | cons op ops ih => exact ⟨hP s op h.1, ih h.2⟩

theorem Safe.append (h : Safe run P I ops s) (h' : ∀ t, I t → Safe run P Q ops' t) :
    Safe run P Q (ops ++ ops') s :=
  safe_append.mpr (h.mono (fun _ _ hP => hP) h')

theorem Safe.result (h : Safe run P Q ops s) : Q (ops.foldl run s) := by
  induction ops generalizing s with
  | nil => exact h
  | cons op ops ih => exact ih h.2

/-- What both conditions say of a state, a safe program says of its first. -/
theorem Safe.now {A : σ → Prop} (hP : ∀ {s op}, P s op → A s) (hQ : ∀ {s}, Q s → A s)
    (h : Safe run P Q ops s) : A s := by
  cases ops with
  | nil => exact hQ h
  | cons op ops => exact hP h.1

/-- A condition on the operations alone. -/
theorem Safe.forall_mem {p : ο → Prop} (h : Safe run (fun _ op => p op) Q ops s) :
    ∀ op ∈ ops, p op := by
  induction ops generalizing s with
  | nil => exact fun _ hmem => absurd hmem List.not_mem_nil
  | cons op ops ih => exact List.forall_mem_cons.mpr ⟨h.1, ih h.2⟩

/-- What every operation keeps, the program keeps. -/
theorem Safe.of_invariant (hI : I s)
    (hop : ∀ op ∈ ops, ∀ s, I s → P s op ∧ I (run s op)) : Safe run P I ops s := by
  induction ops generalizing s with
  | nil => exact hI
  | cons op ops ih =>
    obtain ⟨hP, hnext⟩ := hop op List.mem_cons_self s hI
    exact ⟨hP, ih hnext fun op hmem => hop op (List.mem_cons_of_mem _ hmem)⟩

/-- A program made of one piece for each element of a list. -/
theorem Safe.flatMap {β : Type*} {piece : β → List ο} {J : Nat → σ → Prop} {l : List β} {n : Nat}
    (hJ : J n s) (hpiece : ∀ x ∈ l, ∀ m s, n ≤ m → m < n + l.length → J m s →
      Safe run P (J (m + 1)) (piece x) s) :
    Safe run P (J (n + l.length)) (l.flatMap piece) s := by
  induction l generalizing n s with
  | nil => exact hJ
  | cons x l ih =>
    rw [List.flatMap_cons]
    refine (hpiece x List.mem_cons_self n s (Nat.le_refl n) (by simp) hJ).append fun t ht => ?_
    have hlen : n + (x :: l).length = n + 1 + l.length := by rw [List.length_cons]; omega
    rw [hlen] at hpiece ⊢
    exact ih ht fun y hy m s hm hm' => hpiece y (List.mem_cons_of_mem _ hy) m s (by omega) hm'

/-- Interference that the operations respect leaves a program safe. -/
theorem Safe.stable {R : σ → σ → Prop}
    (hrun : ∀ {s t : σ} (op : ο), R s t → R (run s op) (run t op))
    (hP : ∀ {s t : σ} {op : ο}, R s t → P s op → P t op) (hQ : ∀ {s t : σ}, R s t → Q s → Q t)
    (hR : R s t) (h : Safe run P Q ops s) : Safe run P Q ops t := by
  induction ops generalizing s t with
  | nil => exact hQ hR h
  | cons op ops ih => exact ⟨hP hR h.1, ih (hrun op hR) h.2⟩

end Stmmac.Library.Ops
