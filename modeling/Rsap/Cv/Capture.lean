import Rsap.Cv.Types
import Rsap.Library.Custody
import Rsap.Library.Machine

/-!
# `Rsap.Cv.Capture`: reconnecting captures

`ResilientCapture` (`cv_engine/streaming/capture.py`). Any number of threads are inside `read` or
`close`. A step of a thread is one section under the lock or one call of the factory or of
`release`, so the steps of different threads interleave at these points.

A handle is its index in the list of the handles that the factory has built. `built` keeps the
connect generation each of them was built for, and `released` the calls of `release`. What the
native calls answer, and the clock, come from the environment. The settings of a candidate do not
matter here, and neither do the frames.
-/

set_option autoImplicit false

namespace Rsap.Cv

open Rsap.Library (Machine resume)

/-- An object that the factory has built. -/
abbrev Handle := Nat

/-- The fields of a `ResilientCapture`, and the history of its handles. -/
structure ResilientCapture where
  cap : Option Handle
  closed : Bool
  stopEvent : Bool
  nextReconnectAt : Micros
  connectGeneration : Nat
  built : List Nat
  released : List Handle
  deriving DecidableEq

/-- What a step gets from outside: the time, what `isOpened` answers, and whether the read gives a
frame. -/
structure Native where
  now : Micros
  isOpened : Bool
  frame : Bool
  deriving DecidableEq

/-- Where a thread is. The first ten are in `read`, the last three in `close`. -/
inductive CaptureThread where
  | loop
  | waiting
  | check
  | releaseStale (staleCapture : Option Handle) (generation : Option Nat)
  | construct (generation : Nat)
  | install (candidate : Handle) (opened : Bool) (generation : Nat)
  | releaseReplaced (replacedCapture : Option Handle) (rejected : Option Handle)
  | releaseCandidate (rejected : Option Handle)
  | readFrame
  | releaseFailed (failedCapture : Option Handle)
  | setStop
  | shut
  | releaseClosed (capture : Option Handle)
  deriving DecidableEq

/-- The thread is in `read`. -/
def CaptureThread.reading : CaptureThread → Bool
  | .setStop | .shut | .releaseClosed _ => false
  | _ => true

namespace ResilientCapture

/-- `__init__`. -/
def new : ResilientCapture := ⟨none, false, false, 0, 0, [], []⟩

/-- `_release_capture`. -/
def release (c : ResilientCapture) (capture : Option Handle) : ResilientCapture :=
  { c with released := capture.toList ++ c.released }

/-- The second section of `read`. -/
def check (c : ResilientCapture) (env : Native) : ResilientCapture × CaptureThread :=
  if c.cap = none ∨ env.isOpened = false then
    ({ c with cap := none, connectGeneration := c.connectGeneration + 1 },
      .releaseStale c.cap (some (c.connectGeneration + 1)))
  else (c, .releaseStale none none)

/-- The section of `_connect`. -/
def install (reconnectDelay : Micros) (c : ResilientCapture) (env : Native) (candidate : Handle)
    (opened : Bool) (generation : Nat) : ResilientCapture × CaptureThread :=
  if opened = true ∧ c.closed = false ∧ generation = c.connectGeneration then
    ({ c with cap := some candidate }, .releaseReplaced c.cap none)
  else if generation = c.connectGeneration ∧ c.closed = false then
    ({ c with nextReconnectAt := env.now + reconnectDelay },
      .releaseReplaced none (some candidate))
  else (c, .releaseReplaced none (some candidate))

/-- The next step of a thread. Without a next place it returns. -/
def advance (reconnectDelay : Micros) (c : ResilientCapture) (env : Native) :
    CaptureThread → ResilientCapture × Option CaptureThread
  | .loop =>
    if c.closed then (c, none)
    else if 0 < c.nextReconnectAt - env.now then (c, some .waiting)
    else (c, some .check)
  | .waiting => if c.stopEvent then (c, none) else (c, some .loop)
  | .check =>
    if c.closed then (c, none)
    else
      let next := c.check env
      (next.1, some next.2)
  | .releaseStale staleCapture generation =>
    (c.release staleCapture,
      match generation with
      | some generation => some (.construct generation)
      | none => some .readFrame)
  | .construct generation =>
    ({ c with built := c.built ++ [generation] },
      some (.install c.built.length env.isOpened generation))
  | .install candidate opened generation =>
    let next := c.install reconnectDelay env candidate opened generation
    (next.1, some next.2)
  | .releaseReplaced replacedCapture rejected =>
    (c.release replacedCapture, some (.releaseCandidate rejected))
  | .releaseCandidate rejected =>
    (c.release rejected, if rejected = none then some .readFrame else none)
  | .readFrame =>
    if c.closed = true ∨ c.cap = none then (c, none)
    else if env.frame then (c, none)
    else
      ({ c with cap := none, nextReconnectAt := env.now + reconnectDelay },
        some (.releaseFailed c.cap))
  | .releaseFailed failedCapture => (c.release failedCapture, none)
  | .setStop => ({ c with stopEvent := true }, some .shut)
  | .shut =>
    if c.closed then (c, none)
    else
      ({ c with cap := none, closed := true, connectGeneration := c.connectGeneration + 1 },
        some (.releaseClosed c.cap))
  | .releaseClosed capture => (c.release capture, none)

end ResilientCapture

/-- A capture with the threads that are inside `read` or `close`. -/
structure CaptureWorld where
  capture : ResilientCapture
  threads : List CaptureThread
  deriving DecidableEq

/-- A thread calls `read` or `close`, or the thread of an index takes its next step. -/
inductive CaptureAct where
  | read
  | close
  | run (thread : Nat) (env : Native)
  deriving DecidableEq

def captureStep (reconnectDelay : Micros) (w : CaptureWorld) : CaptureAct → Option CaptureWorld
  | .read => some { w with threads := w.threads ++ [.loop] }
  | .close => some { w with threads := w.threads ++ [.setStop] }
  | .run i env =>
    match w.threads[i]? with
    | none => none
    | some thread =>
      let next := w.capture.advance reconnectDelay env thread
      some ⟨next.1, resume w.threads i next.2⟩

def captureMachine (reconnectDelay : Micros) : Machine CaptureWorld CaptureAct where
  init := ⟨.new, []⟩
  step := captureStep reconnectDelay

end Rsap.Cv
