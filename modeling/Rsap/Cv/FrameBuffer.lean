import Rsap.Library.Machine

/-!
# `Rsap.Cv.FrameBuffer`: the latest frames of a stream

`FrameBuffer` (`cv_engine/streaming/buffer.py`). A frame is a non-empty array with the contents
that it has when it is copied in, and every copy out has them too. The deque lists its right end
first.

`wait_for_frame_with_sequence` holds the lock except in `wait_for`, so a call is one step
(`enter`), or two with any steps of others between them (`enter`, then `wake`). A waiting call
wakes when its predicate holds or its timeout is over. It may wake at any time here, and what it
returns depends on the buffer at that time only.

`bufferMachine` has a producer, calls of `clear` and any number of consumers.
-/

set_option autoImplicit false

namespace Rsap.Cv

open Rsap.Library

variable {φ : Type}

structure FrameBuffer (φ : Type) where
  maxsize : Nat
  frames : List (Nat × φ)
  sequence : Nat
  maxsize_pos : 1 ≤ maxsize

namespace FrameBuffer

/-- `__init__`, or the `ValueError` that it raises. -/
def new (φ : Type) (maxsize : Nat) : Option (FrameBuffer φ) :=
  if h : 1 ≤ maxsize then some ⟨maxsize, [], 0, h⟩ else none

/-- `put` with a frame that is a non-empty array. -/
def put (buffer : FrameBuffer φ) (frame : φ) : FrameBuffer φ × Nat :=
  let sequence := buffer.sequence + 1
  ({ buffer with
      sequence := sequence
      -- a full deque loses its left end
      frames := ((sequence, frame) :: buffer.frames).take buffer.maxsize }, sequence)

/-- `get_latest_with_sequence`. -/
def getLatestWithSequence (buffer : FrameBuffer φ) : Option (Nat × φ) := buffer.frames.head?

/-- `get_latest`. -/
def getLatest (buffer : FrameBuffer φ) : Option φ :=
  buffer.getLatestWithSequence.map Prod.snd

/-- `clear`. -/
def clear (buffer : FrameBuffer φ) : FrameBuffer φ := { buffer with frames := [] }

/-- The end of `wait_for_frame_with_sequence`: the newest frame, if it is newer than the target. -/
def wake (buffer : FrameBuffer φ) (target : Int) : Option (Nat × φ) :=
  if buffer.frames = [] ∨ (buffer.sequence : Int) ≤ target then none else buffer.frames.head?

/-- How far a call gets under the lock. -/
inductive WaitResult (φ : Type) where
  | returned (result : Option (Nat × φ))
  | waits (target : Int)

/-- `wait_for_frame_with_sequence` up to `wait_for`. -/
def enter (buffer : FrameBuffer φ) (afterSequence : Option Int) : WaitResult φ :=
  if afterSequence = none ∧ buffer.frames ≠ [] then .returned buffer.frames.head?
  else
    let target := afterSequence.getD buffer.sequence
    if buffer.frames = [] ∨ (buffer.sequence : Int) ≤ target then .waits target
    else .returned (buffer.wake target)

end FrameBuffer

/-- A buffer, the calls that wait, and a history: the puts and what each consumer received from
its calls of `wait_for_frame_with_sequence`, the newest first, and how many puts there were at the
last `clear`. -/
structure BufferWorld (φ : Type) where
  buffer : FrameBuffer φ
  waiting : Nat → Option Int
  puts : List (Nat × φ)
  cleared : Nat
  received : Nat → List (Nat × φ)

inductive BufferAct (φ : Type) where
  | put (frame : φ)
  | putInvalid
  | clear
  | getLatest
  | wait (consumer : Nat) (timeout : Rat) (afterSequence : Option Int)
  | wake (consumer : Nat)

namespace BufferWorld

/-- A call of a consumer returns. -/
def deliver (w : BufferWorld φ) (consumer : Nat) (result : Option (Nat × φ)) : BufferWorld φ :=
  { w with
    waiting := fun other => if other = consumer then none else w.waiting other
    received := fun other =>
      if other = consumer then result.toList ++ w.received other else w.received other }

/-- One step. A consumer has one call at a time. -/
def step (w : BufferWorld φ) : BufferAct φ → Option (BufferWorld φ)
  | .put frame =>
    let (buffer, sequence) := w.buffer.put frame
    some { w with buffer, puts := (sequence, frame) :: w.puts }
  | .putInvalid | .getLatest => some w
  | .clear => some { w with buffer := w.buffer.clear, cleared := w.puts.length }
  | .wait consumer timeout afterSequence =>
    if (w.waiting consumer).isSome then none
    else if timeout < 0 then some w
    else
      match w.buffer.enter afterSequence with
      | .returned result => some (w.deliver consumer result)
      | .waits target => some { w with
          waiting := fun other => if other = consumer then some target else w.waiting other }
  | .wake consumer => (w.waiting consumer).map fun target =>
      w.deliver consumer (w.buffer.wake target)

end BufferWorld

/-- The system, from a buffer that is new. -/
def bufferMachine (buffer : FrameBuffer φ) : Machine (BufferWorld φ) (BufferAct φ) where
  init := ⟨buffer, fun _ => none, [], 0, fun _ => []⟩
  step := BufferWorld.step

end Rsap.Cv
