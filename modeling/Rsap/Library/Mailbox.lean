import Mathlib.Data.List.ReduceOption

/-!
# `Rsap.Library.Mailbox`: a bounded queue with one consumer

Messages arrive and are dropped, rejected or accepted. An accepted message goes to the end of a
bounded queue. One consumer takes the messages from its head and handles one at a time, with
success or failure. The queue also carries control entries (`none`), which the consumer only
takes.

`Mailbox.Step` lists the steps. `Conserved` accounts for every arrival and for the order of the
messages, and every step keeps it (`Conserved.step`). So when the queue is empty and the consumer
is idle, the messages that were handed over are the accepted ones, in their order, and the
counters add up to the arrivals (`Conserved.handed_eq`, `Conserved.arrivals_eq`).
-/

set_option autoImplicit false

namespace Rsap.Library

/-- The queue, whether the consumer handles a message, and what happened so far. -/
structure Mailbox (α : Type) where
  queue : List (Option α)
  busy : Bool
  accepted : List α
  handed : List α
  arrivals : Nat
  dropped : Nat
  rejected : Nat
  succeeded : Nat
  failed : Nat

namespace Mailbox

variable {α : Type} {capacity : Nat} {m m' : Mailbox α}

/-- The empty mailbox. -/
def empty : Mailbox α := ⟨[], false, [], [], 0, 0, 0, 0, 0⟩

/-- The steps of a mailbox. -/
inductive Step (capacity : Nat) (m : Mailbox α) : Mailbox α → Prop where
  | same : Step capacity m m
  | drop : Step capacity m { m with arrivals := m.arrivals + 1, dropped := m.dropped + 1 }
  | reject : Step capacity m { m with arrivals := m.arrivals + 1, rejected := m.rejected + 1 }
  | accept (a : α) : m.queue.length < capacity → Step capacity m { m with
      arrivals := m.arrivals + 1
      queue := m.queue ++ [some a]
      accepted := m.accepted ++ [a] }
  | control : m.queue.length < capacity → Step capacity m { m with queue := m.queue ++ [none] }
  | take (a : α) (rest : List (Option α)) : m.busy = false → m.queue = some a :: rest →
      Step capacity m { m with queue := rest, busy := true, handed := m.handed ++ [a] }
  | takeControl (rest : List (Option α)) : m.busy = false → m.queue = none :: rest →
      Step capacity m { m with queue := rest }
  | succeed : m.busy = true → Step capacity m { m with
      busy := false
      succeeded := m.succeeded + 1 }
  | fail : m.busy = true → Step capacity m { m with
      busy := false
      failed := m.failed + 1 }

/-- Every arrival is accounted for, the accepted messages are the handed ones and those in the
queue, and the queue is bounded. -/
structure Conserved (capacity : Nat) (m : Mailbox α) : Prop where
  order : m.accepted = m.handed ++ m.queue.reduceOption
  handed : m.handed.length = m.succeeded + m.failed + m.busy.toNat
  arrivals : m.arrivals = m.accepted.length + m.dropped + m.rejected
  bounded : m.queue.length ≤ capacity

/-- The empty mailbox has lost nothing. -/
theorem conserved_empty : Conserved capacity (empty : Mailbox α) :=
  ⟨rfl, rfl, rfl, Nat.zero_le _⟩

/-- Every step keeps the account. -/
theorem Conserved.step (h : Conserved capacity m) (hstep : Step capacity m m') :
    Conserved capacity m' := by
  obtain ⟨horder, hhanded, harrivals, hbounded⟩ := h
  cases hstep with
  | same => exact ⟨horder, hhanded, harrivals, hbounded⟩
  | drop =>
    refine ⟨horder, hhanded, ?_, hbounded⟩
    show m.arrivals + 1 = m.accepted.length + (m.dropped + 1) + m.rejected
    omega
  | reject =>
    refine ⟨horder, hhanded, ?_, hbounded⟩
    show m.arrivals + 1 = m.accepted.length + m.dropped + (m.rejected + 1)
    omega
  -- the message is accepted and queued at once, so the order is that of the queue
  | accept a hroom =>
    refine ⟨?_, hhanded, ?_, ?_⟩
    · show m.accepted ++ [a] = m.handed ++ (m.queue ++ [some a]).reduceOption
      rw [List.reduceOption_append, horder, List.append_assoc]
      rfl
    · show m.arrivals + 1 = (m.accepted ++ [a]).length + m.dropped + m.rejected
      rw [List.length_append, List.length_singleton]
      omega
    · show (m.queue ++ [some a]).length ≤ capacity
      rw [List.length_append, List.length_singleton]
      omega
  -- a control message is nobody's, so it counts for nothing
  | control hroom =>
    refine ⟨?_, hhanded, harrivals, ?_⟩
    · show m.accepted = m.handed ++ (m.queue ++ [none]).reduceOption
      rw [List.reduceOption_append, horder]
      simp [List.reduceOption]
    · show (m.queue ++ [none]).length ≤ capacity
      rw [List.length_append, List.length_singleton]
      omega
  -- the first message goes from the queue into the hands of the consumer
  | take a rest hidle hqueue =>
    rw [hqueue] at horder hbounded
    rw [hidle] at hhanded
    refine ⟨?_, ?_, harrivals, Nat.le_of_succ_le hbounded⟩
    · show m.accepted = m.handed ++ [a] ++ rest.reduceOption
      rw [horder, List.reduceOption_cons_of_some, List.append_assoc]
      rfl
    · show (m.handed ++ [a]).length = m.succeeded + m.failed + 1
      rw [List.length_append, hhanded]
      rfl
  | takeControl rest hidle hqueue =>
    rw [hqueue] at horder hbounded
    rw [List.reduceOption_cons_of_none] at horder
    exact ⟨horder, hhanded, harrivals, Nat.le_of_succ_le hbounded⟩
  -- it leaves the hands in one of two ways
  | succeed hbusy =>
    rw [hbusy] at hhanded
    refine ⟨horder, ?_, harrivals, hbounded⟩
    show m.handed.length = m.succeeded + 1 + m.failed + 0
    simp only [Bool.toNat_true] at hhanded
    omega
  | fail hbusy =>
    rw [hbusy] at hhanded
    refine ⟨horder, ?_, harrivals, hbounded⟩
    show m.handed.length = m.succeeded + (m.failed + 1) + 0
    simp only [Bool.toNat_true] at hhanded
    omega

/-- With an empty queue no step hands over a message. -/
theorem Step.handed_eq (hstep : Step capacity m m') (hq : m.queue = []) :
    m'.handed = m.handed := by
  cases hstep with
  | take a rest _ hqueue =>
    rw [hq] at hqueue
    cases hqueue
  | _ => rfl

/-- With an empty queue the accepted messages were handed over, in their order. -/
theorem Conserved.handed_eq (h : Conserved capacity m) (hq : m.queue = []) :
    m.handed = m.accepted := by
  rw [h.order, hq]
  exact (List.append_nil m.handed).symm

/-- With an empty queue and an idle consumer the counters add up to the arrivals. -/
theorem Conserved.arrivals_eq (h : Conserved capacity m) (hq : m.queue = [])
    (hb : m.busy = false) :
    m.arrivals = m.succeeded + m.failed + m.dropped + m.rejected := by
  have hhanded := h.handed
  rw [h.handed_eq hq, hb] at hhanded
  have harrivals := h.arrivals
  simp only [Bool.toNat_false] at hhanded
  omega

end Mailbox

end Rsap.Library
