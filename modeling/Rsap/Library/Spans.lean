import Mathlib.Algebra.BigOperators.Group.List.Basic
import Mathlib.Algebra.Order.Ring.Int

/-!
# `Rsap.Library.Spans`: the spans of presence in a history

A history lists what an observer saw at each time, the newest first, where `none` says that the
subject was not there. `spans` are the maximal stretches without a `none`. They follow the history
one observation at a time: nothing, a new span, or a longer newest span (`spans_none`,
`spans_new`, `spans_longer`).

For a quantity of the observations, the gains inside the spans add up: `sum_swing_cons` is the
step from one observation to the next.
-/

set_option autoImplicit false

namespace Rsap.Library

variable {β : Type}

/-- The newest observation. -/
def newest (history : List (Option β)) : Option β := history.head?.join

/-- An observation makes the newest span longer, or starts a new one. -/
def extendSpans (b : β) : Bool → List (List β) → List (List β)
  | true, span :: older => (b :: span) :: older
  | _, older => [b] :: older

/-- The maximal stretches of observations, the newest first. -/
def spans : List (Option β) → List (List β)
  | [] => []
  | none :: history => spans history
  | some b :: history => extendSpans b (newest history).isSome (spans history)

/-- The change of a quantity over a span. -/
def swing (f : β → Int) : List β → Int
  | [] => 0
  | b :: span => f b - f ((b :: span).getLast (List.cons_ne_nil b span))

/-- The change of a quantity between two observations. -/
def gain (f : β → Int) : Option β → Option β → Int
  | some a, some b => f b - f a
  | _, _ => 0

section
variable {a b : β} {f : β → Int} {history : List (Option β)}

/-- An entry that marks nothing adds no span. -/
theorem spans_none : spans (none :: history) = spans history := rfl

/-- A subject that was not there starts a new span. -/
theorem spans_new (h : newest history = none) :
    spans (some b :: history) = [b] :: spans history := by
  rw [spans, h]
  rfl

/-- A subject that is there is in the newest span. -/
theorem spans_of_newest (h : newest history = some a) :
    ∃ span older, spans history = (a :: span) :: older := by
  cases history with
  | nil => cases h
  | cons o history =>
    obtain rfl : o = some a := h
    rw [spans]
    cases (newest history).isSome with
    | false => exact ⟨[], spans history, rfl⟩
    | true =>
      cases spans history with
      | nil => exact ⟨[], [], rfl⟩
      | cons span older => exact ⟨span, older, rfl⟩

/-- A subject that stays makes the newest span longer. -/
theorem spans_longer (h : newest history = some a) :
    ∃ span older, spans history = (a :: span) :: older ∧
      spans (some b :: history) = (b :: a :: span) :: older := by
  obtain ⟨span, older, hspans⟩ := spans_of_newest h
  refine ⟨span, older, hspans, ?_⟩
  rw [spans, h, hspans]
  rfl

/-- A new span has no change, and a longer one changes by what the observations differ. -/
theorem sum_swing_cons (f : β → Int) (o : Option β) (history : List (Option β)) :
    ((spans (o :: history)).map (swing f)).sum =
      ((spans history).map (swing f)).sum + gain f (newest history) o := by
  cases o with
  | none =>
    rw [spans_none]
    cases newest history <;> simp [gain]
  | some b =>
    cases hnewest : newest history with
    | none =>
      rw [spans_new hnewest]
      simp [swing, gain]
    | some a =>
      obtain ⟨span, older, hspans, hlonger⟩ := @spans_longer β a b history hnewest
      rw [hspans, hlonger]
      simp only [List.map_cons, List.sum_cons, swing, gain, List.getLast_cons_cons]
      omega

/-- Every span of the longer history is one of before, or has the new observation. -/
theorem forall_spans_cons {P : List β → Prop} (o : Option β)
    (hold : ∀ span ∈ spans history, P span)
    (hnew : ∀ b, o = some b → newest history = none → P [b])
    (hlonger : ∀ a b span, o = some b → newest history = some a → P (a :: span) →
      P (b :: a :: span)) : ∀ span ∈ spans (o :: history), P span := by
  cases o with
  | none => exact hold
  | some b =>
    cases hnewest : newest history with
    | none =>
      rw [spans_new hnewest]
      exact List.forall_mem_cons.mpr ⟨hnew b rfl hnewest, hold⟩
    | some a =>
      obtain ⟨span, older, hspans, hcons⟩ := @spans_longer β a b history hnewest
      rw [hspans] at hold
      obtain ⟨hspan, holder⟩ := List.forall_mem_cons.mp hold
      rw [hcons]
      exact List.forall_mem_cons.mpr ⟨hlonger a b span rfl hnewest hspan, holder⟩

end

end Rsap.Library
