import Mathlib.Data.List.Induction

/-!
# The latest write of a history

A history is a list of events, the oldest first. `wrote a = some v` says that event `a` writes the
value `v`; `latest` is the value written last. A state that is overwritten by the events that write
and kept by the others holds it.
-/

namespace Stmmac.Library

variable {σ α ν : Type*}

def latest (wrote : α → Option ν) (as : List α) : Option ν :=
  as.foldl (fun v a => (wrote a).or v) none

section

variable {wrote : α → Option ν} {as : List α} {a : α}

@[simp] theorem latest_nil : latest wrote [] = none := rfl

@[simp] theorem latest_concat : latest wrote (as ++ [a]) = (wrote a).or (latest wrote as) := by
  simp [latest]

theorem latest_cons : latest wrote (a :: as) = (latest wrote as).or (wrote a) := by
  induction as using List.reverseRecOn with
  | nil => simp [latest]
  | append_singleton as b ih =>
    rw [← List.cons_append, latest_concat, latest_concat, ih, Option.or_assoc]

/-- The latest write is that of some event. -/
theorem exists_of_latest {v : ν} (h : latest wrote as = some v) : ∃ a ∈ as, wrote a = some v := by
  induction as using List.reverseRecOn with
  | nil => cases h
  | append_singleton as a ih =>
    rw [latest_concat, Option.or_eq_some_iff] at h
    rcases h with ha | ⟨-, has⟩
    · exact ⟨a, by simp, ha⟩
    · obtain ⟨b, hb, hb'⟩ := ih has
      exact ⟨b, by simp [hb], hb'⟩

theorem latest_map {μ : Type*} (g : ν → μ) :
    latest (fun a => (wrote a).map g) as = (latest wrote as).map g := by
  induction as using List.reverseRecOn with
  | nil => rfl
  | append_singleton as a ih =>
    rw [latest_concat, latest_concat, ih]
    cases wrote a <;> rfl

theorem latest_comp {β : Type*} {f : β → α} {bs : List β} :
    latest wrote (bs.map f) = latest (fun b => wrote (f b)) bs :=
  List.foldl_map

theorem latest_congr {wrote' : α → Option ν} (h : ∀ a ∈ as, wrote a = wrote' a) :
    latest wrote as = latest wrote' as := by
  induction as using List.reverseRecOn with
  | nil => rfl
  | append_singleton as a ih =>
    rw [latest_concat, latest_concat, ih fun b hb => h b (by simp [hb]), h a (by simp)]

/-- A cell that each event overwrites or keeps holds the latest write. -/
theorem foldl_latest {f : σ → α → σ} {s : σ} (read : σ → ν)
    (h : ∀ s, ∀ a ∈ as, read (f s a) = (wrote a).getD (read s)) :
    read (as.foldl f s) = (latest wrote as).getD (read s) := by
  induction as using List.reverseRecOn with
  | nil => rfl
  | append_singleton as a ih =>
    rw [List.foldl_append, latest_concat]
    have hlast := h (as.foldl f s) a (by simp)
    rw [List.foldl_cons, List.foldl_nil, hlast, ih fun s b hb => h s b (by simp [hb])]
    cases wrote a <;> rfl

/-- A cell holds the latest write after every part of a history exactly when each event in turn
overwrites or keeps what it finds there. -/
theorem foldl_latest_iff {f : σ → α → σ} {s : σ} (read : σ → ν) :
    (∀ bs, bs <+: as → read (bs.foldl f s) = (latest wrote bs).getD (read s)) ↔
      ∀ bs a, bs ++ [a] <+: as →
        read (f (bs.foldl f s) a) = (wrote a).getD (read (bs.foldl f s)) := by
  refine ⟨fun h bs a hpre => ?_, fun h bs => ?_⟩
  · have hbs := h bs ((List.prefix_append bs [a]).trans hpre)
    have hlast := h (bs ++ [a]) hpre
    rw [List.foldl_append, latest_concat] at hlast
    rw [List.foldl_cons, List.foldl_nil] at hlast
    rw [hlast, hbs]
    cases wrote a <;> rfl
  · induction bs using List.reverseRecOn with
    | nil => exact fun _ => rfl
    | append_singleton bs a ih =>
      intro hpre
      have hbs := ih ((List.prefix_append bs [a]).trans hpre)
      rw [List.foldl_append, latest_concat, List.foldl_cons, List.foldl_nil, h bs a hpre, hbs]
      cases wrote a <;> rfl

/-- A property that holds at the start holds after every part of a history exactly when each event
in turn keeps it. -/
theorem forall_prefix_iff {f : σ → α → σ} {s : σ} {I P : σ → Prop} {Q : σ → α → Prop}
    (hI : ∀ s a, I s → I (f s a)) (hP : ∀ s a, I s → P s → (P (f s a) ↔ Q s a)) (hs : I s)
    (hs' : P s) :
    (∀ bs, bs <+: as → P (bs.foldl f s)) ↔
      ∀ bs a, bs ++ [a] <+: as → Q (bs.foldl f s) a := by
  have hinv : ∀ bs : List α, I (bs.foldl f s) := fun bs =>
    List.foldlRecOn bs f hs fun s h a _ => hI s a h
  refine ⟨fun h bs a hpre => ?_, fun h bs => ?_⟩
  · have hbs := h bs ((List.prefix_append bs [a]).trans hpre)
    have hlast := h (bs ++ [a]) hpre
    rw [List.foldl_append, List.foldl_cons, List.foldl_nil] at hlast
    exact (hP _ a (hinv bs) hbs).mp hlast
  · induction bs using List.reverseRecOn with
    | nil => exact fun _ => hs'
    | append_singleton bs a ih =>
      intro hpre
      have hbs := ih ((List.prefix_append bs [a]).trans hpre)
      rw [List.foldl_append, List.foldl_cons, List.foldl_nil]
      exact (hP _ a (hinv bs) hbs).mpr (h bs a hpre)

/-- Where a condition on the events keeps an invariant under which a property of the next event is
that condition, each event of a history has the property exactly if each meets the condition. -/
theorem forall_event_iff {f : σ → α → σ} {s : σ} {I : σ → Prop} {Q : σ → α → Prop} {R : α → Prop}
    (hQ : ∀ s a, I s → (Q s a ↔ R a)) (hI : ∀ s a, I s → R a → I (f s a)) (hs : I s) :
    (∀ bs a, bs ++ [a] <+: as → Q (bs.foldl f s) a) ↔ ∀ a ∈ as, R a := by
  induction as generalizing s with
  | nil => simp
  | cons b as ih =>
    rw [List.forall_mem_cons]
    constructor
    · intro h
      have hb : R b := (hQ s b hs).mp (h [] b (by simp))
      refine ⟨hb, (ih (hI s b hs hb)).mp fun bs a hpre => h (b :: bs) a ?_⟩
      exact List.cons_prefix_cons.mpr ⟨rfl, hpre⟩
    · rintro ⟨hb, h⟩ bs a hpre
      cases bs with
      | nil =>
        obtain ⟨rfl, -⟩ := List.cons_prefix_cons.mp hpre
        exact (hQ s a hs).mpr hb
      | cons b' bs =>
        obtain ⟨rfl, hrest⟩ := List.cons_prefix_cons.mp hpre
        exact (ih (hI s b' hs hb)).mpr h bs a hrest

end

end Stmmac.Library
