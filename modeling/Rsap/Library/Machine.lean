import Mathlib.Logic.Relation

/-!
# `Rsap.Library.Machine`: labelled machines and their reachable states

A `Machine` is an initial state and a partial step function: `step s a` is the state after
the action `a`, or `none` when `a` cannot be taken in `s`. `Reachable M ok s` says that a run
of `M` ends in `s` and that every step of the run was taken at a state and with an action
that satisfy `ok`. The unrestricted runs are those of `Any`.

`Reachable.invariant` packages the induction over runs. A property that the initial state has
and that every allowed step keeps holds in every reachable state. `Reachable.simulate` moves
a reachable state along a map of states under which each step is one step of a second machine,
or none.

`Path M ok s` are the states that runs reach from `s`, with the same induction.

`final` folds a list of actions and `Allows` checks it, and both compute. `Reachable.final` turns
a checked list into a reachability proof, so a concrete run can be evaluated. `Path.final` does so
for a run from any state.
-/

set_option autoImplicit false

namespace Rsap.Library

/-- A labelled machine: the state after an action, or `none` when it cannot be taken. -/
structure Machine (σ α : Type) where
  init : σ
  step : σ → α → Option σ

namespace Machine

variable {σ α τ β : Type}

/-- Every action is allowed in every state. -/
def Any : σ → α → Prop := fun _ _ => True

/-- The states that runs of `M` reach when each step satisfies `ok` at its pre-state. -/
inductive Reachable (M : Machine σ α) (ok : σ → α → Prop) : σ → Prop where
  | init : Reachable M ok M.init
  | step {s s' : σ} (a : α) : Reachable M ok s → ok s a → M.step s a = some s' →
      Reachable M ok s'

variable {M : Machine σ α} {ok : σ → α → Prop}

/-- A property of the initial state that every allowed step from a reachable state keeps holds
in every reachable state. -/
theorem Reachable.invariant {I : σ → Prop} (hinit : I M.init)
    (hstep : ∀ s a s', Reachable M ok s → ok s a → M.step s a = some s' → I s → I s')
    {s : σ} (h : Reachable M ok s) : I s := by
  induction h with
  | init => exact hinit
  | step a hs hok hstp ih => exact hstep _ a _ hs hok hstp ih

/-- Fewer restrictions reach more states. -/
theorem Reachable.weaken {ok' : σ → α → Prop} (himp : ∀ s a, ok s a → ok' s a)
    {s : σ} (h : Reachable M ok s) : Reachable M ok' s := by
  induction h with
  | init => exact .init
  | step a _ hok hstp ih => exact .step a ih (himp _ a hok) hstp

/-- Every restricted run is a run. -/
theorem Reachable.any {s : σ} (h : Reachable M ok s) : Reachable M Any s :=
  h.weaken fun _ _ _ => trivial

/-- Along a map of states that takes each allowed step to one step of `N` or to none,
reachable states of `M` go to reachable states of `N`. -/
theorem Reachable.simulate {N : Machine τ β} (f : σ → τ) (hinit : f M.init = N.init)
    (hstep : ∀ s a s', ok s a → M.step s a = some s' →
      f s' = f s ∨ ∃ b, N.step (f s) b = some (f s'))
    {s : σ} (h : Reachable M ok s) : Reachable N Any (f s) := by
  induction h with
  | init => rw [hinit]; exact .init
  | step a _ hok hstp ih =>
    rcases hstep _ a _ hok hstp with he | ⟨b, hb⟩
    · rw [he]; exact ih
    · exact .step b ih trivial hb

/-- The runs of `M` from `s`, with the states that they end in. -/
inductive Path (M : Machine σ α) (ok : σ → α → Prop) (s : σ) : σ → Prop where
  | refl : Path M ok s s
  | step {t t' : σ} (a : α) : Path M ok s t → ok t a → M.step t a = some t' → Path M ok s t'

/-- A property that every allowed step keeps holds along a run from a state that has it. -/
theorem Path.invariant {I : σ → Prop} {s s' : σ} (h : Path M ok s s') (hs : I s)
    (hstep : ∀ t a t', ok t a → M.step t a = some t' → I t → I t') : I s' := by
  induction h with
  | refl => exact hs
  | step a _ hok hstp ih => exact hstep _ a _ hok hstp ih

/-- A run from a reachable state reaches reachable states. -/
theorem Reachable.path {s s' : σ} (h : Reachable M ok s) (hpath : Path M ok s s') :
    Reachable M ok s' :=
  hpath.invariant (I := Reachable M ok) h fun _ a _ hok hstp hs => hs.step a hok hstp

/-- A run after a run is a run. -/
theorem Path.trans {s t u : σ} (h : Path M ok s t) (h' : Path M ok t u) : Path M ok s u := by
  induction h' with
  | refl => exact h
  | step a _ hok hstp ih => exact .step a ih hok hstp

/-- The state after a list of actions, up to the first that cannot be taken. -/
def final (M : Machine σ α) : σ → List α → σ
  | s, [] => s
  | s, a :: as =>
    match M.step s a with
    | some s' => M.final s' as
    | none => s

/-- Each action of the list can be taken in its turn and satisfies `ok` there. -/
def Allows (M : Machine σ α) (ok : σ → α → Prop) : σ → List α → Prop
  | _, [] => True
  | s, a :: as => ok s a ∧
    match M.step s a with
    | some s' => M.Allows ok s' as
    | none => False

/-- The state a run ends in, after its first step. -/
theorem final_cons {s s' : σ} {a : α} (h : M.step s a = some s') (as : List α) :
    M.final s (a :: as) = M.final s' as := by
  simp only [Machine.final, h]

/-- A run is allowed when its first step is and the rest is allowed from the state it leads to. -/
theorem Allows.cons {s s' : σ} {a : α} {as : List α} (hok : ok s a) (h : M.step s a = some s')
    (hrest : M.Allows ok s' as) : M.Allows ok s (a :: as) := by
  refine ⟨hok, ?_⟩
  rw [h]
  exact hrest

instance Allows.decidable [∀ s a, Decidable (ok s a)] :
    ∀ (s : σ) (as : List α), Decidable (M.Allows ok s as)
  | _, [] => .isTrue trivial
  | s, a :: as =>
    match h : M.step s a with
    | some s' =>
      have := Allows.decidable s' as
      decidable_of_iff (ok s a ∧ M.Allows ok s' as) (by simp [Allows, h])
    | none => .isFalse (by simp [Allows, h])

instance (s : σ) (a : α) : Decidable (Any s a) := .isTrue trivial

/-- An allowed list of actions from a reachable state ends in a reachable state. -/
theorem Reachable.final {s : σ} (h : Reachable M ok s) (as : List α) (hall : M.Allows ok s as) :
    Reachable M ok (M.final s as) := by
  induction as generalizing s with
  | nil => exact h
  | cons a as ih =>
    obtain ⟨hok, hrest⟩ := hall
    unfold Machine.final
    split
    · rename_i s' hs
      rw [hs] at hrest
      exact ih (.step a h hok hs) hrest
    · exact h

/-- An allowed list of actions is a run. -/
theorem Path.final {s t : σ} (h : Path M ok s t) (as : List α) (hall : M.Allows ok t as) :
    Path M ok s (M.final t as) := by
  induction as generalizing t with
  | nil => exact h
  | cons a as ih =>
    obtain ⟨hok, hrest⟩ := hall
    unfold Machine.final
    split
    · rename_i t' ht
      rw [ht] at hrest
      exact ih (.step a h hok ht) hrest
    · exact h

end Machine

end Rsap.Library
