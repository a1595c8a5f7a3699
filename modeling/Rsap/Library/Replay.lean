import Mathlib.Data.List.Basic

/-!
# `Rsap.Library.Replay`: operations that may be delivered more than once

A state goes through a list of operations. `view` is the part of the state that an observer
sees. Some of the operations are deliveries of one message, which a sender may repeat and
which any other operation may follow. `Replayable` states what makes the repetitions harmless:
the first delivery settles the message, and no other operation undoes that.

`foldl_replay` is the rule. The view after a list that starts with a delivery is the view after
one delivery and the other operations in their order. `foldl_active` drops operations that do
not touch the view, so that one key of a table can be followed at a time.
-/

set_option autoImplicit false

namespace Rsap.Library

variable {σ γ ω : Type}

/-- The view after an operation depends on the view before it only. -/
def ViewDetermined (apply : σ → ω → σ) (view : σ → γ) (op : ω) : Prop :=
  ∀ s s', view s = view s' → view (apply s op) = view (apply s' op)

/-- What makes a repeated delivery harmless, among the operations of `live`. -/
structure Replayable (apply : σ → ω → σ) (view : σ → γ) (live delivers : ω → Prop) : Prop where
  determined : ∀ op, live op → ViewDetermined apply view op
  same : ∀ d d' s, delivers d → delivers d' → view (apply s d) = view (apply s d')
  again : ∀ d s, delivers d → view (apply (apply s d) d) = view (apply s d)
  kept : ∀ d op s, delivers d → live op → view (apply s d) = view s →
    view (apply (apply s op) d) = view (apply s op)

section
variable {apply : σ → ω → σ} {view : σ → γ}

/-- A list of operations takes equal views to equal views. -/
theorem foldl_determined {ops : List ω} (hops : ∀ op ∈ ops, ViewDetermined apply view op)
    {s s' : σ} (h : view s = view s') : view (ops.foldl apply s) = view (ops.foldl apply s') := by
  induction ops generalizing s s' with
  | nil => exact h
  | cons op ops ih =>
    refine ih (fun op' hop' => hops op' (List.mem_cons_of_mem _ hop')) ?_
    exact hops op List.mem_cons_self s s' h

/-- Operations that never change the view can be left out. -/
theorem foldl_active (ops : List ω) (active : ω → Prop) [DecidablePred active]
    (hdetermined : ∀ op ∈ ops, active op → ViewDetermined apply view op)
    (hidle : ∀ op ∈ ops, ¬ active op → ∀ s, view (apply s op) = view s) (s : σ) :
    view (ops.foldl apply s) = view ((ops.filter fun op => active op).foldl apply s) := by
  induction ops generalizing s with
  | nil => rfl
  | cons op ops ih =>
    have ih' := ih (fun op' hop' => hdetermined op' (List.mem_cons_of_mem _ hop'))
      fun op' hop' => hidle op' (List.mem_cons_of_mem _ hop')
    by_cases hactive : active op
    · rw [List.filter_cons_of_pos (by simpa using hactive)]
      exact ih' (apply s op)
    · rw [List.filter_cons_of_neg (by simpa using hactive), List.foldl_cons, ih']
      -- the rest of the list sees the same view with and without the idle operation
      refine foldl_determined ?_ (hidle op List.mem_cons_self hactive s)
      intro op' hop'
      obtain ⟨hmem, hactive'⟩ := List.mem_filter.mp hop'
      exact hdetermined op' (List.mem_cons_of_mem _ hmem) (by simpa using hactive')

variable {live delivers : ω → Prop} [DecidablePred delivers]

/-- Once the view is settled, further deliveries change nothing. -/
theorem Replayable.foldl_settled (h : Replayable apply view live delivers) {ops : List ω}
    (hlive : ∀ op ∈ ops, live op) {d : ω} (hd : delivers d) {s : σ}
    (hs : view (apply s d) = view s) :
    view (ops.foldl apply s) = view ((ops.filter fun op => ¬ delivers op).foldl apply s) := by
  induction ops generalizing s with
  | nil => rfl
  | cons op ops ih =>
    have hlive' := fun op' hop' => hlive op' (List.mem_cons_of_mem _ hop')
    have hop := hlive op List.mem_cons_self
    have hstep := ih hlive' (h.kept d op s hd hop hs)
    by_cases hdel : delivers op
    · have hview : view (apply s op) = view s := (h.same op d s hdel hd).trans hs
      rw [List.filter_cons_of_neg (by simpa using hdel), List.foldl_cons, hstep]
      refine foldl_determined ?_ hview
      intro op' hop'
      exact h.determined op' (hlive' op' (List.mem_of_mem_filter hop'))
    · rw [List.filter_cons_of_pos (by simpa using hdel)]
      exact hstep

/-- A list that starts with a delivery has the effect of one delivery, followed by the
operations that are none. -/
theorem Replayable.foldl_replay (h : Replayable apply view live delivers) {ops : List ω}
    (hlive : ∀ op ∈ ops, live op) {d d' : ω} (hd : delivers d) (hd' : delivers d') (s : σ) :
    view ((d :: ops).foldl apply s) =
      view ((d' :: ops.filter fun op => ¬ delivers op).foldl apply s) := by
  rw [List.foldl_cons, List.foldl_cons, h.foldl_settled hlive hd (h.again d s hd)]
  refine foldl_determined ?_ (h.same d d' s hd hd')
  intro op hop
  exact h.determined op (hlive op (List.mem_of_mem_filter hop))

end

end Rsap.Library
