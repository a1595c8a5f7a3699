import Mathlib.Data.List.Basic

/-!
# `Rsap.Library.Tasks`: a table of tasks that changes and grows

Tasks have their index in the table as their identity. A step changes some entries and adds new
ones at the end. `Evolves R N tasks tasks'` says that every task is still there, `R`-related to what
it was, and that what is new satisfies `N`. An invariant about single tasks follows from `R` and
`N` alone.
-/

set_option autoImplicit false

namespace Rsap.Library

variable {α : Type} {R : α → α → Prop} {N : α → Prop} {tasks tasks' : List α}

/-- A task of the table after one was added. -/
theorem lookup_append {t u : α} {i : Nat} (h : (tasks ++ [t])[i]? = some u) :
    tasks[i]? = some u ∨ (i = tasks.length ∧ u = t) := by
  rcases Nat.lt_or_ge i tasks.length with hlt | hge
  · rw [List.getElem?_append_left hlt] at h
    exact .inl h
  · have hlast := (List.getElem?_eq_some_iff.mp h).1
    simp only [List.length_append, List.length_singleton] at hlast
    obtain rfl : i = tasks.length := by omega
    simp only [List.getElem?_concat_length, Option.some.injEq] at h
    exact .inr ⟨rfl, h.symm⟩

/-- A task of the table after one went on. -/
theorem lookup_set {t u : α} {i j : Nat} (h : (tasks.set j t)[i]? = some u) :
    tasks[i]? = some u ∨ (i = j ∧ u = t) := by
  rw [List.getElem?_set] at h
  split at h
  · rename_i heq
    split at h
    · exact .inr ⟨heq.symm, (Option.some.inj h).symm⟩
    · cases h
  · exact .inl h

/-- The tasks go on along `R`, and new tasks satisfy `N`. -/
structure Evolves (R : α → α → Prop) (N : α → Prop) (tasks tasks' : List α) : Prop where
  kept : ∀ (i : Nat) t, tasks[i]? = some t → ∃ t', tasks'[i]? = some t' ∧ R t t'
  grown : tasks.length ≤ tasks'.length
  fresh : ∀ (i : Nat) t', tasks.length ≤ i → tasks'[i]? = some t' → N t'

namespace Evolves

/-- A task of the new table was there before, or it is new. -/
theorem cases (h : Evolves R N tasks tasks') {i : Nat} {t' : α} (ht : tasks'[i]? = some t') :
    (∃ t, tasks[i]? = some t ∧ R t t') ∨ (tasks.length ≤ i ∧ N t') := by
  rcases Nat.lt_or_ge i tasks.length with hlt | hge
  · obtain ⟨u, hu, hR⟩ := h.kept i _ (List.getElem?_eq_getElem hlt)
    cases ht.symm.trans hu
    exact .inl ⟨_, List.getElem?_eq_getElem hlt, hR⟩
  · exact .inr ⟨hge, h.fresh i t' hge ht⟩

/-- Nothing happens. -/
theorem refl (hR : ∀ t, R t t) : Evolves R N tasks tasks where
  kept _ t ht := ⟨t, ht, hR t⟩
  grown := Nat.le_refl _
  fresh i t' hle ht := by
    rw [List.getElem?_eq_none hle] at ht
    cases ht

/-- New tasks. -/
theorem append (hR : ∀ t, R t t) {new : List α} (hnew : ∀ t ∈ new, N t) :
    Evolves R N tasks (tasks ++ new) where
  kept i t ht :=
    ⟨t, (List.getElem?_append_left (List.getElem?_eq_some_iff.mp ht).1).trans ht, hR t⟩
  grown := by simp
  fresh i t' hle ht := by
    rw [List.getElem?_append_right hle] at ht
    exact hnew _ (List.mem_of_getElem? ht)

/-- One task goes on. -/
theorem set (hR : ∀ t, R t t) {i : Nat} {t t' : α} (ht : tasks[i]? = some t) (h : R t t') :
    Evolves R N tasks (tasks.set i t') where
  kept j u hu := by
    rw [List.getElem?_set]
    by_cases hij : i = j
    · subst hij
      cases ht.symm.trans hu
      exact ⟨t', by simp [(List.getElem?_eq_some_iff.mp ht).1], h⟩
    · exact ⟨u, by simp [hij, hu], hR u⟩
  grown := by simp
  fresh j u hle hu := by
    rw [List.getElem?_eq_none (by simpa using hle)] at hu
    cases hu

/-- One task goes on, and others are new. -/
theorem set_append (hR : ∀ t, R t t) {i : Nat} {t t' : α} {new : List α}
    (ht : tasks[i]? = some t) (h : R t t') (hnew : ∀ t ∈ new, N t) :
    Evolves R N tasks (tasks.set i t' ++ new) where
  kept j u hu := by
    obtain ⟨v, hv, huv⟩ := (set (N := N) hR ht h).kept j u hu
    exact ⟨v, (List.getElem?_append_left (List.getElem?_eq_some_iff.mp hv).1).trans hv, huv⟩
  grown := by simp
  fresh j u hle hu := by
    rw [List.getElem?_append_right (by simpa using hle)] at hu
    exact hnew _ (List.mem_of_getElem? hu)

end Evolves

end Rsap.Library
