import Rsap.Library.Machine

/-!
# `Rsap.Cv.Lifecycle`: processing, callbacks and `aclose` of a pipeline

The part of `FramePipeline` (`cv_engine/pipeline/frame_pipeline.py`) that admits calls of
`process`, emits their events and shuts down with `aclose()`. Any number of worker threads are
inside `process`. The event loop runs the tasks of the asynchronous callbacks, the task of
`_aclose_impl` and the callers of `aclose`. A step is one section under a lock or one stretch of
the event loop between two `await`s, so the steps of different threads and tasks interleave.

What a frame produces is a list of events, of any type. The detector and the callbacks do not
raise, the backlog is never full, and the pipeline is bound to its running event loop. A callback
that is not asynchronous is over when the call returns. The executor runs the calls that were
submitted to it before its own shutdown, and these are calls of `process` like the others.

`produced` are the events of all frames and `completed` the events whose callback ran to its end.
-/

set_option autoImplicit false

namespace Rsap.Cv

open Rsap.Library (Machine)

/-- Where a call of `process` is. From `emitting` to `leaving` it is in `_emit`, with the events
that are left. -/
inductive ProcessCall (Event : Type) where
  | arrived
  | admitted
  | detecting
  | emitting (events : List Event)
  | calling (event : Event) (events : List Event)
  | reserving (event : Event) (events : List Event)
  | creating (event : Event) (events : List Event)
  | created (task : Nat) (events : List Event)
  | tracking (task : Nat) (events : List Event)
  | hooking (task : Nat) (events : List Event)
  | leaving (events : List Event)
  | unlocking (raised : Bool)
  | finishing (raised : Bool)
  | returned
  | raised
  | rejected
  deriving DecidableEq

/-- The stage of a callback task. -/
inductive CallbackStage where
  | scheduled
  | running
  | done
  deriving DecidableEq

/-- The task of an asynchronous callback: whether it is in `_callback_futures`, whether its done
callback is registered, and whether this has run. -/
structure CallbackTask (Event : Type) where
  event : Event
  stage : CallbackStage
  tracked : Bool
  hooked : Bool
  settled : Bool
  deriving DecidableEq

/-- Where `_aclose_impl` is. -/
inductive CloseTask where
  | waitingProcesses
  | waitingSubmissions
  | settling
  | closingExecutor
  | done (raised : Bool)
  deriving DecidableEq

/-- Where a caller of `aclose` is. -/
inductive AcloseCaller where
  | entering
  | waiting
  | returned
  | raised
  deriving DecidableEq

structure PipelineWorld (Event : Type) where
  closing : Bool
  closed : Bool
  acceptingCallbacks : Bool
  activeProcesses : Nat
  processLocked : Bool
  activeSubmissions : Nat
  processes : List (ProcessCall Event)
  callbacks : List (CallbackTask Event)
  closeTask : Option CloseTask
  callers : List AcloseCaller
  produced : List Event
  completed : List Event
  deriving DecidableEq

/-- The steps. `detected` is what the frame of a call produces, and `asynchronous` whether the
callback returns an awaitable. -/
inductive PipelineAct (Event : Type) where
  | process
  | run (call : Nat) (detected : List Event) (asynchronous : Bool)
  | begin (task : Nat)
  | complete (task : Nat)
  | settle (task : Nat)
  | aclose
  | runCaller (caller : Nat)
  | runClose
  deriving DecidableEq

namespace PipelineWorld

variable {Event : Type}

def new : PipelineWorld Event := ⟨false, false, true, 0, false, 0, [], [], none, [], [], []⟩

/-- The call goes on at `next`. -/
def goto (w : PipelineWorld Event) (i : Nat) (next : ProcessCall Event) : PipelineWorld Event :=
  { w with processes := w.processes.set i next }

/-- The next step of a call. -/
def runProcess (w : PipelineWorld Event) (i : Nat) (detected : List Event)
    (asynchronous : Bool) : ProcessCall Event → Option (PipelineWorld Event)
  | .arrived =>
    if w.closing = true ∨ w.closed = true then some (w.goto i .rejected)
    else some ({ w with activeProcesses := w.activeProcesses + 1 }.goto i .admitted)
  | .admitted =>
    if w.processLocked then none
    else some ({ w with processLocked := true }.goto i .detecting)
  | .detecting => some ({ w with produced := w.produced ++ detected }.goto i (.emitting detected))
  | .emitting [] => some (w.goto i (.unlocking false))
  | .emitting (event :: events) =>
    if w.acceptingCallbacks then
      some ({ w with activeSubmissions := w.activeSubmissions + 1 }.goto i
        (.calling event events))
    else some (w.goto i (.unlocking true))
  | .calling event events =>
    if asynchronous then some (w.goto i (.reserving event events))
    else some ({ w with completed := w.completed ++ [event] }.goto i (.leaving events))
  | .reserving event events => some (w.goto i (.creating event events))
  | .creating event events =>
    -- the event loop creates the task
    let task : CallbackTask Event := ⟨event, .scheduled, false, false, false⟩
    some ({ w with callbacks := w.callbacks ++ [task] }.goto i
      (.created w.callbacks.length events))
  | .created task events => some (w.goto i (.tracking task events))
  | .tracking task events =>
    some ({ w with
      callbacks := w.callbacks.modify task fun t => { t with tracked := true } }.goto i
      (.hooking task events))
  | .hooking task events =>
    some ({ w with
      callbacks := w.callbacks.modify task fun t => { t with hooked := true } }.goto i
      (.leaving events))
  | .leaving events =>
    some ({ w with activeSubmissions := w.activeSubmissions - 1 }.goto i (.emitting events))
  | .unlocking raised => some ({ w with processLocked := false }.goto i (.finishing raised))
  | .finishing raised =>
    some ({ w with activeProcesses := w.activeProcesses - 1 }.goto i
      (if raised then .raised else .returned))
  | .returned => none
  | .raised => none
  | .rejected => none

/-- `_await_callback` begins and adds its task. -/
def beginCallback (w : PipelineWorld Event) (k : Nat) (task : CallbackTask Event) :
    Option (PipelineWorld Event) :=
  if task.stage = .scheduled then
    some { w with callbacks := w.callbacks.set k { task with stage := .running, tracked := true } }
  else none

/-- A callback runs to its end. -/
def completeCallback (w : PipelineWorld Event) (k : Nat) (task : CallbackTask Event) :
    Option (PipelineWorld Event) :=
  if task.stage = .running then
    some { w with
      callbacks := w.callbacks.set k { task with stage := .done }
      completed := w.completed ++ [task.event] }
  else none

/-- `_callback_finished`. -/
def settleCallback (w : PipelineWorld Event) (k : Nat) (task : CallbackTask Event) :
    Option (PipelineWorld Event) :=
  if task.stage = .done ∧ task.hooked = true ∧ task.settled = false then
    some { w with
      callbacks := w.callbacks.set k { task with tracked := false, settled := true } }
  else none

/-- `_callback_futures` is empty. -/
def noFutures (w : PipelineWorld Event) : Bool := w.callbacks.all fun task => !task.tracked

/-- The next step of `_aclose_impl`. -/
def runCloseTask (w : PipelineWorld Event) : CloseTask → Option (PipelineWorld Event)
  | .waitingProcesses =>
    if w.activeProcesses = 0 then some { w with closeTask := some .waitingSubmissions } else none
  | .waitingSubmissions =>
    if w.activeSubmissions = 0 then some { w with closeTask := some .settling } else none
  | .settling =>
    if w.noFutures then
      if w.activeSubmissions ≠ 0 then
        some { w with closeTask := some (.done true), closed := true }
      else some { w with closeTask := some .closingExecutor }
    else none
  | .closingExecutor => some { w with closeTask := some (.done false), closed := true }
  | .done _ => none

/-- The next step of a caller of `aclose`. -/
def runAclose (w : PipelineWorld Event) (i : Nat) : AcloseCaller → Option (PipelineWorld Event)
  | .entering =>
    if w.closed then some { w with callers := w.callers.set i .returned }
    else
      match w.closeTask with
      | some _ => some { w with callers := w.callers.set i .waiting }
      | none =>
        some { w with
          closing := true
          acceptingCallbacks := false
          closeTask := some .waitingProcesses
          callers := w.callers.set i .waiting }
  | .waiting =>
    match w.closeTask with
    | some (.done false) => some { w with callers := w.callers.set i .returned }
    | some (.done true) => some { w with callers := w.callers.set i .raised }
    | _ => none
  | .returned => none
  | .raised => none

/-- The step function. -/
def step (w : PipelineWorld Event) : PipelineAct Event → Option (PipelineWorld Event)
  | .process => some { w with processes := w.processes ++ [.arrived] }
  | .run i detected asynchronous =>
    w.processes[i]?.bind (w.runProcess i detected asynchronous)
  | .begin k => w.callbacks[k]?.bind (w.beginCallback k)
  | .complete k => w.callbacks[k]?.bind (w.completeCallback k)
  | .settle k => w.callbacks[k]?.bind (w.settleCallback k)
  | .aclose => some { w with callers := w.callers ++ [.entering] }
  | .runCaller i => w.callers[i]?.bind (w.runAclose i)
  | .runClose => w.closeTask.bind w.runCloseTask

end PipelineWorld

def pipelineMachine (Event : Type) : Machine (PipelineWorld Event) (PipelineAct Event) where
  init := .new
  step := PipelineWorld.step

end Rsap.Cv
