import Rsap.Library.Machine
import Rsap.Orchestration.Models

/-!
# `Rsap.Orchestration.Worker`: the tasks of `CameraWorker`, step by step

A worker (`app/orchestration/worker.py`) has a supervisor task `_run`, a capture loop, an
analytics loop and an event dispatcher, and any number of callers of `start` and `stop`. The
event loop runs one of them at a time, from one `await` to the next. A step is such a stretch, and
the state of a task is the `await` that it is suspended at. A step that ends an `await` on the
outside carries what the outside returned or raised.

Calls to `_queue_event` come at any time. A caller can be cancelled at any `await`. Nobody else
holds the four tasks, and `stop` shields the supervisor, so they are not cancelled.

`_transition` raises when the transition is not in `VALID_TRANSITIONS`, and the exception goes on
as in the source: it ends the loop, the supervisor or the call. The worker has a history: the
rejected transitions, how often the capture and the pipeline were closed, the callbacks that
arrived and that `from_callback` rejected, the accepted events, the events that were passed to the
sink, and the calls of `stop` that returned.

The contents of the frame buffer, the times and the frame rate are left out: which frame an
`await` finds is the outside's choice, and nothing else here reads them. So are the listeners of
transitions, whose exceptions are only logged.
-/

set_option autoImplicit false

namespace Rsap.Orchestration

open Rsap.Library

/-! ### Tasks -/

/-- The `await` of `_run`, from its creation on. In its `finally` part the supervisor has the
error that it will publish. `ended` has what `_run` itself raised. -/
inductive Supervisor where
  | buildingCapture
  | buildingPipeline
  | watching
  | gathering (terminalError : Option OrchestrationError)
  | closingPipeline (terminalError : Option OrchestrationError)
  | joiningQueue (terminalError : Option OrchestrationError)
  | puttingStop (terminalError : Option OrchestrationError)
  | awaitingEvents (terminalError : Option OrchestrationError)
  | ended (raised : Option OrchestrationError)
  deriving DecidableEq

/-- `not task.done()`. -/
def Supervisor.live : Supervisor → Bool
  | .ended _ => false
  | _ => true

/-- `_started`. -/
inductive StartFuture where
  | pending
  | resolved
  | rejected (error : OrchestrationError)
  deriving DecidableEq

/-- `_capture_loop`: not begun, in `read`, in the pause after a failed read, or done. -/
inductive CaptureLoop where
  | scheduled
  | reading (reconnecting : Bool)
  | pausing
  | done (raised : Option Raised)
  deriving DecidableEq

/-- `_analytics_loop`: not begun, waiting for a frame, in `process_if_due`, or done. -/
inductive AnalyticsLoop where
  | scheduled
  | waiting
  | processing
  | done (raised : Option Raised)
  deriving DecidableEq

/-- `_dispatch_events`: in `get`, in `emit`, or done. -/
inductive Dispatcher (Event : Type) where
  | getting
  | emitting (event : Event)
  | done
  deriving DecidableEq

/-- A caller of `start` or `stop`. The first `start` created the supervisor. A cancelled first
`start` calls `stop` and raises when this returns. -/
inductive Caller where
  | starting (first : Bool)
  | locking (cancelledStart : Bool)
  | settling (cancelledStart : Bool)
  | returned
  | raised
  deriving DecidableEq

/-- An entry of the event queue. -/
inductive QueueItem (Event : Type) where
  | event (event : Event)
  | stop
  deriving DecidableEq

/-- `_capture` or `_pipeline`: whether it is built, the flag that it was closed, and how often its
`close` or `aclose` was called. -/
structure Resource where
  built : Bool
  closed : Bool
  closes : Nat
  deriving DecidableEq

/-- A close of a resource that is built and not closed. -/
def Resource.closeOnce (r : Resource) : Resource :=
  if r.closed = true ∨ r.built = false then r
  else { r with closed := true, closes := r.closes + 1 }

/-- A `stop` that returned: whether it found a supervisor, and how many events the sink had. -/
structure StopReturn where
  found : Bool
  emitted : Nat
  deriving DecidableEq

/-- A worker. -/
structure Worker (Event : Type) where
  state : WorkerState
  metrics : CameraMetrics
  failure : Option OrchestrationFailure
  shutdownFailures : List OrchestrationFailure
  stopEvent : Bool
  acceptingEvents : Bool
  eventQueue : List (QueueItem Event)
  unfinishedTasks : Nat
  capture : Resource
  pipeline : Resource
  supervisorTask : Option Supervisor
  started : Option StartFuture
  captureTask : Option CaptureLoop
  analyticsTask : Option AnalyticsLoop
  eventTask : Option (Dispatcher Event)
  callers : List Caller
  rejectedTransitions : List (WorkerState × WorkerState)
  callbacks : Nat
  invalidCallbacks : Nat
  accepted : List Event
  emitted : List Event
  stopReturns : List StopReturn
  deriving DecidableEq

/-- What `read` returned: a frame, an empty array, or no frame. -/
inductive ReadResult where
  | frame
  | emptyFrame
  | nothing
  deriving DecidableEq

/-- The steps. `closed` is what `Capture.close` raises, if the step calls it. -/
inductive WorkerAct (Callback : Type) where
  | start
  | stop
  | lock (caller : Nat) (closed : Option Raised)
  | resume (caller : Nat)
  | cancel (caller : Nat)
  | captureBuilt (reply : Except Raised Unit) (closed : Option Raised)
  | pipelineBuilt (reply : Except Raised Unit) (closed : Option Raised)
  | watched (captureFirst : Bool) (closed : Option Raised)
  | gathered
  | pipelineClosed (reply : Option Raised)
  | queueJoined
  | stopPut
  | eventsEnded
  | captureBegins
  | captureRead (reply : Except Raised ReadResult)
  | capturePaused
  | analyticsBegins
  | frameWaited (latest : Bool)
  | frameProcessed (reply : Except Raised Bool)
  | eventTaken
  | eventEmitted (reply : Option Raised)
  | callback (event : Callback)

namespace Worker

variable {Callback Event : Type}

/-- A new worker. -/
def new : Worker Event where
  state := .stopped
  metrics := .zero
  failure := none
  shutdownFailures := []
  stopEvent := false
  acceptingEvents := false
  eventQueue := []
  unfinishedTasks := 0
  capture := ⟨false, false, 0⟩
  pipeline := ⟨false, false, 0⟩
  supervisorTask := none
  started := none
  captureTask := none
  analyticsTask := none
  eventTask := none
  callers := []
  rejectedTransitions := []
  callbacks := 0
  invalidCallbacks := 0
  accepted := []
  emitted := []
  stopReturns := []

/-! ### Helpers of the tasks -/

section
variable (setup : WorkerSetup Callback Event)

/-- `_transition`, with the error that it raises. -/
def transition (w : Worker Event) (state : WorkerState) :
    Worker Event × Option OrchestrationError :=
  if state = w.state then (w, none)
  else if state ∈ validTransitions w.state then ({ w with state }, none)
  else
    ({ w with rejectedTransitions := w.rejectedTransitions ++ [(w.state, state)] },
      some (orchestrationError setup .internal
        ("invalid lifecycle transition " ++ w.state.value ++ " -> " ++ state.value)))

/-- `_record_failure`. -/
def recordFailure (w : Worker Event) (error : OrchestrationError) : Worker Event :=
  { w with
    failure := some error.failure
    metrics := { w.metrics with workerFailures := w.metrics.workerFailures + 1 } }

/-- `_resolve_started`. -/
def resolveStarted (w : Worker Event) : Worker Event :=
  if w.started = some .pending then { w with started := some .resolved } else w

/-- `_reject_started`. -/
def rejectStarted (w : Worker Event) (error : OrchestrationError) : Worker Event :=
  if w.started = some .pending then { w with started := some (.rejected error) } else w

/-- `_close_capture_once`. -/
def closeCaptureOnce (w : Worker Event) (closed : Option Raised) : Worker Event :=
  if w.capture.closed = true ∨ w.capture.built = false then w
  else
    let w := { w with capture := w.capture.closeOnce }
    match closed with
    | none => w
    | some error =>
      let failure := (publicError setup .shutdown error).failure
      { w with shutdownFailures := w.shutdownFailures ++ [failure], failure := some failure }

/-- The end of `_run`, with what it raises. -/
def publish (w : Worker Event) : Option OrchestrationError →
    Worker Event × Option OrchestrationError
  | some error =>
    let w := w.recordFailure error
    match if w.state ≠ .failed then w.transition setup .failed else (w, none) with
    | (w, some raised) => (w, some raised)
    | (w, none) => (w.rejectStarted error, none)
  | none =>
    match if w.state ≠ .stopping then w.transition setup .stopping else (w, none) with
    | (w, some raised) => (w, some raised)
    | (w, none) =>
      match w.transition setup .stopped with
      | (w, some raised) => (w, some raised)
      | (w, none) => (w.resolveStarted, none)

/-- The supervisor ends. -/
def finish (w : Worker Event) (terminalError : Option OrchestrationError) : Worker Event :=
  let published := w.publish setup terminalError
  { published.1 with supervisorTask := some (.ended published.2) }

/-- `_settle_event_task`, up to its first `await`. -/
def settleEventTask (w : Worker Event) (terminalError : Option OrchestrationError) :
    Worker Event :=
  match w.eventTask with
  | none => w.finish setup terminalError
  | some .done =>
    { w with
      eventQueue := []
      unfinishedTasks := w.unfinishedTasks - w.eventQueue.length }.finish setup terminalError
  | some _ => { w with supervisorTask := some (.joiningQueue terminalError) }

/-- `_close_pipeline_once`, up to `aclose`. -/
def closePipelineOnce (w : Worker Event) (terminalError : Option OrchestrationError) :
    Worker Event :=
  if w.pipeline.closed = true ∨ w.pipeline.built = false then
    w.settleEventTask setup terminalError
  else
    { w with
      pipeline := w.pipeline.closeOnce
      supervisorTask := some (.closingPipeline terminalError) }

/-- The `finally` part of `_run`, up to its first `await`. -/
def unwind (w : Worker Event) (terminalError : Option OrchestrationError)
    (closed : Option Raised) : Worker Event :=
  let w := { w with acceptingEvents := false, stopEvent := true }.closeCaptureOnce setup closed
  if w.captureTask = none ∧ w.analyticsTask = none then w.closePipelineOnce setup terminalError
  else { w with supervisorTask := some (.gathering terminalError) }

/-! ### The supervisor -/

/-- `_run` after the capture factory. -/
def captureBuilt (w : Worker Event) (reply : Except Raised Unit) (closed : Option Raised) :
    Worker Event :=
  match reply with
  | .error error => w.unwind setup (some (publicError setup .capture error)) closed
  | .ok () =>
    let w := { w with capture := { w.capture with built := true } }
    if w.stopEvent then w.unwind setup none closed
    else { w with supervisorTask := some .buildingPipeline }

/-- `_run` after the pipeline factory. -/
def pipelineBuilt (w : Worker Event) (reply : Except Raised Unit) (closed : Option Raised) :
    Worker Event :=
  match reply with
  | .error error => w.unwind setup (some (publicError setup .model error)) closed
  | .ok () =>
    let w := { w with pipeline := { w.pipeline with built := true } }
    if w.stopEvent then w.unwind setup none closed
    else
      let w :=
        { w with
          acceptingEvents := true
          eventTask := some .getting
          captureTask := some .scheduled
          analyticsTask := some .scheduled }
      match w.transition setup .running with
      | (w, some raised) => w.unwind setup (some raised) closed
      | (w, none) => { w.resolveStarted with supervisorTask := some .watching }

/-- What the capture loop raised, with its category. -/
def captureError (w : Worker Event) : Option OrchestrationError :=
  match w.captureTask with
  | some (.done (some error)) => some (publicError setup .capture error)
  | _ => none

/-- What the analytics loop raised, with its category. -/
def analyticsError (w : Worker Event) : Option OrchestrationError :=
  match w.analyticsTask with
  | some (.done (some error)) => some (publicError setup .pipeline error)
  | _ => none

/-- `_run` after `asyncio.wait`. The order of the two tasks in the set is the outside's choice. -/
def watched (w : Worker Event) (captureFirst : Bool) (closed : Option Raised) : Worker Event :=
  let error := if captureFirst then (w.captureError setup).or (w.analyticsError setup)
    else (w.analyticsError setup).or (w.captureError setup)
  match error with
  | some error => w.unwind setup (some error) closed
  | none =>
    if w.stopEvent then w.unwind setup none closed
    else
      w.unwind setup
        (some (orchestrationError setup .internal "owned worker task exited unexpectedly")) closed

/-- The capture loop is done, or it was never created. -/
def captureDone (w : Worker Event) : Bool :=
  match w.captureTask with
  | none => true
  | some (.done _) => true
  | some _ => false

/-- The analytics loop is done, or it was never created. -/
def analyticsDone (w : Worker Event) : Bool :=
  match w.analyticsTask with
  | none => true
  | some (.done _) => true
  | some _ => false

/-- The first exception among the results of `gather`. -/
def gatheredError (w : Worker Event) : Option OrchestrationError :=
  match w.captureTask, w.analyticsTask with
  | some (.done (some error)), _ => some (publicError setup .internal error)
  | _, some (.done (some error)) => some (publicError setup .internal error)
  | _, _ => none

/-- `_close_pipeline_once` after `aclose`. -/
def pipelineClosed (w : Worker Event) (terminalError : Option OrchestrationError)
    (reply : Option Raised) : Worker Event :=
  match reply with
  | none => w.settleEventTask setup terminalError
  | some error =>
    let category := match error with
      | .callbackExecution _ => .callback
      | _ => .shutdown
    let error := publicError setup category error
    { w with shutdownFailures := w.shutdownFailures ++ [error.failure] }.settleEventTask setup
      (terminalError.or (some error))

/-! ### The loops -/

/-- The head of the loop of `_capture_loop`. -/
def captureHead (w : Worker Event) (reconnecting : Bool) : Worker Event :=
  { w with
    captureTask := some (if w.stopEvent then .done none else .reading reconnecting) }

/-- The capture loop goes on when a transition was accepted, and it ends otherwise. -/
def afterTransition (result : Worker Event × Option OrchestrationError)
    (next : Worker Event → Worker Event) : Worker Event :=
  match result with
  | (w, none) => next w
  | (w, some raised) => { w with captureTask := some (.done (some (.orchestration raised))) }

/-- `_capture_loop` after `read`. -/
def captureRead (w : Worker Event) (reconnecting : Bool) (reply : Except Raised ReadResult) :
    Worker Event :=
  match reply with
  | .error error => { w with captureTask := some (.done (some error)) }
  | .ok result =>
    if w.stopEvent then { w with captureTask := some (.done none) }
    else match result with
    | .emptyFrame =>
      -- `FrameBuffer.put` raises
      { w with
        captureTask := some (.done (some (.other "frame must be a non-empty numpy array"))) }
    | .frame =>
      let w := { w with
        metrics := { w.metrics with framesCaptured := w.metrics.framesCaptured + 1 } }
      if reconnecting then afterTransition (w.transition setup .running)
        fun w => w.captureHead false
      else w.captureHead false
    | .nothing =>
      let w := { w with
        metrics := { w.metrics with captureFailures := w.metrics.captureFailures + 1 } }
      if reconnecting then { w with captureTask := some .pausing }
      else
        let w := { w with
          metrics := { w.metrics with reconnectCount := w.metrics.reconnectCount + 1 } }
        afterTransition (w.transition setup .reconnecting) fun w =>
          { w with captureTask := some .pausing }

/-- The head of the loop of `_analytics_loop`. -/
def analyticsHead (w : Worker Event) : Worker Event :=
  { w with analyticsTask := some (if w.stopEvent then .done none else .waiting) }

/-- `_analytics_loop` after `process_if_due`. -/
def frameProcessed (w : Worker Event) (reply : Except Raised Bool) : Worker Event :=
  match reply with
  | .error error => { w with analyticsTask := some (.done (some error)) }
  | .ok false => w.analyticsHead
  | .ok true =>
    { w with
      metrics := { w.metrics with framesProcessed := w.metrics.framesProcessed + 1 }
    }.analyticsHead

/-! ### Events -/

/-- `from_callback` raised. Only an `OrchestrationError` is recorded. -/
def rejectEvent (w : Worker Event) (error : Raised) : Worker Event :=
  let rejected := { w with invalidCallbacks := w.invalidCallbacks + 1 }
  match error with
  | .orchestration error => rejected.recordFailure error
  | .callbackExecution _ => rejected
  | .other _ => rejected

/-- The event of a callback is dropped. -/
def dropEvent (w : Worker Event) : Worker Event :=
  { w with metrics := { w.metrics with eventsDropped := w.metrics.eventsDropped + 1 } }

/-- `put_nowait`, which fails on a full queue. -/
def putEvent (w : Worker Event) (routed : Event) : Worker Event :=
  if setup.eventQueueSize.val ≤ w.eventQueue.length then w.dropEvent
  else
    { w with
      eventQueue := w.eventQueue ++ [.event routed]
      unfinishedTasks := w.unfinishedTasks + 1
      accepted := w.accepted ++ [routed] }

/-- `_queue_event`. -/
def queueEvent (w : Worker Event) (event : Callback) : Worker Event :=
  let arrived := { w with callbacks := w.callbacks + 1 }
  if w.acceptingEvents = false ∨ w.stopEvent = true then arrived.dropEvent
  else match setup.fromCallback event with
  | .error error => arrived.rejectEvent error
  | .ok routed => arrived.putEvent setup routed

/-- `_dispatch_events` after `get`. -/
def eventTaken (w : Worker Event) (item : QueueItem Event) (rest : List (QueueItem Event)) :
    Worker Event :=
  match item with
  | .stop =>
    { w with
      eventQueue := rest
      unfinishedTasks := w.unfinishedTasks - 1
      eventTask := some .done }
  | .event event =>
    { w with
      eventQueue := rest
      eventTask := some (.emitting event)
      emitted := w.emitted ++ [event] }

/-- `_dispatch_events` after `emit`. A timeout raises as well. -/
def eventEmitted (w : Worker Event) (reply : Option Raised) : Worker Event :=
  let w := { w with eventTask := some .getting, unfinishedTasks := w.unfinishedTasks - 1 }
  match reply with
  | none => { w with metrics := { w.metrics with eventsEmitted := w.metrics.eventsEmitted + 1 } }
  | some error =>
    { w with
      failure := some (publicError setup .sink error).failure
      metrics := { w.metrics with eventSinkFailures := w.metrics.eventSinkFailures + 1 } }

/-! ### Callers -/

/-- A caller goes on. -/
def setCaller (w : Worker Event) (i : Nat) (caller : Caller) : Worker Event :=
  { w with callers := w.callers.set i caller }

/-- `start`, up to its `await`. -/
def start (w : Worker Event) : Worker Event :=
  match w.supervisorTask with
  | some _ => { w with callers := w.callers ++ [.starting false] }
  | none =>
    match { w with started := some .pending }.transition setup .starting with
    | (w, some _) => { w with callers := w.callers ++ [.raised] }
    | (w, none) =>
      { w with
        supervisorTask := some .buildingCapture
        callers := w.callers ++ [.starting true] }

/-- `stop` returns. In a cancelled `start` the cancellation is raised again. -/
def returnStop (w : Worker Event) (i : Nat) (cancelledStart found : Bool) : Worker Event :=
  let w := { w with stopReturns := w.stopReturns ++ [StopReturn.mk found w.emitted.length] }
  w.setCaller i (if cancelledStart then .raised else .returned)

/-- `stop` after it took the lock. -/
def stopLocked (w : Worker Event) (i : Nat) (cancelledStart : Bool) (closed : Option Raised) :
    Worker Event :=
  match w.supervisorTask with
  | none => w.returnStop i cancelledStart false
  | some task =>
    match if task.live = true ∧ w.state ∈ [.starting, .running, .reconnecting] then
        w.transition setup .stopping else (w, none) with
    | (w, some _) => w.setCaller i .raised
    | (w, none) =>
      ({ w with acceptingEvents := false, stopEvent := true }.closeCaptureOnce setup
        closed).setCaller i (.settling cancelledStart)

/-- A caller holds `_stop_lock`. -/
def locked (w : Worker Event) : Bool :=
  w.callers.any fun caller => match caller with
    | .settling _ => true
    | _ => false

/-- A caller goes on when what it waits for is done. -/
def resumeCaller (w : Worker Event) (i : Nat) : Caller → Option (Worker Event)
  | .starting _ =>
    match w.started with
    | some .resolved => some (w.setCaller i .returned)
    | some (.rejected _) => some (w.setCaller i .raised)
    | _ => none
  | .settling cancelledStart =>
    match w.supervisorTask with
    | some (.ended none) => some (w.returnStop i cancelledStart true)
    | some (.ended (some _)) => some (w.setCaller i .raised)
    | _ => none
  | _ => none

/-- A caller is cancelled. -/
def cancelCaller (w : Worker Event) (i : Nat) : Caller → Option (Worker Event)
  | .starting true => some (w.setCaller i (.locking true))
  | .starting false => some (w.setCaller i .raised)
  | .locking _ => some (w.setCaller i .raised)
  | .settling _ => some (w.setCaller i .raised)
  | _ => none

/-! ### Steps -/

/-- A step of the supervisor. -/
def stepSupervisor (w : Worker Event) : Supervisor → WorkerAct Callback → Option (Worker Event)
  | .buildingCapture, .captureBuilt reply closed => some (w.captureBuilt setup reply closed)
  | .buildingPipeline, .pipelineBuilt reply closed => some (w.pipelineBuilt setup reply closed)
  | .watching, .watched captureFirst closed =>
    if w.captureDone ∨ w.analyticsDone then some (w.watched setup captureFirst closed) else none
  | .gathering terminalError, .gathered =>
    if w.captureDone ∧ w.analyticsDone then
      some (w.closePipelineOnce setup (terminalError.or (w.gatheredError setup)))
    else none
  | .closingPipeline terminalError, .pipelineClosed reply =>
    some (w.pipelineClosed setup terminalError reply)
  | .joiningQueue terminalError, .queueJoined =>
    if w.unfinishedTasks = 0 then
      some { w with supervisorTask := some (.puttingStop terminalError) }
    else none
  | .puttingStop terminalError, .stopPut =>
    if w.eventQueue.length < setup.eventQueueSize.val then
      some { w with
        eventQueue := w.eventQueue ++ [.stop]
        unfinishedTasks := w.unfinishedTasks + 1
        supervisorTask := some (.awaitingEvents terminalError) }
    else none
  | .awaitingEvents terminalError, .eventsEnded =>
    match w.eventTask with
    | some .done => some (w.finish setup terminalError)
    | _ => none
  | _, _ => none

/-- A step of one of the three loops. -/
def stepLoop (w : Worker Event) : WorkerAct Callback → Option (Worker Event)
  | .captureBegins =>
    if w.captureTask = some .scheduled then some (w.captureHead false) else none
  | .captureRead reply =>
    match w.captureTask with
    | some (.reading reconnecting) => some (w.captureRead setup reconnecting reply)
    | _ => none
  | .capturePaused => if w.captureTask = some .pausing then some (w.captureHead true) else none
  | .analyticsBegins =>
    if w.analyticsTask = some .scheduled then some w.analyticsHead else none
  | .frameWaited latest =>
    if w.analyticsTask = some .waiting then
      some (if latest = false ∨ w.stopEvent = true then w.analyticsHead
        else { w with analyticsTask := some .processing })
    else none
  | .frameProcessed reply =>
    if w.analyticsTask = some .processing then some (w.frameProcessed reply) else none
  | .eventTaken =>
    match w.eventTask, w.eventQueue with
    | some .getting, item :: rest => some (w.eventTaken item rest)
    | _, _ => none
  | .eventEmitted reply =>
    match w.eventTask with
    | some (.emitting _) => some (w.eventEmitted setup reply)
    | _ => none
  | _ => none

/-- The step function. -/
def step (w : Worker Event) (act : WorkerAct Callback) : Option (Worker Event) :=
  match act with
  | .start => some (w.start setup)
  | .stop => some { w with callers := w.callers ++ [.locking false] }
  | .lock i closed =>
    match w.callers[i]? with
    | some (.locking cancelledStart) =>
      if w.locked then none else some (w.stopLocked setup i cancelledStart closed)
    | _ => none
  | .resume i => w.callers[i]?.bind (w.resumeCaller i)
  | .cancel i => w.callers[i]?.bind (w.cancelCaller i)
  | .callback event => some (w.queueEvent setup event)
  | .captureBuilt .. | .pipelineBuilt .. | .watched .. | .gathered | .pipelineClosed _
  | .queueJoined | .stopPut | .eventsEnded =>
    w.supervisorTask.bind fun task => w.stepSupervisor setup task act
  | act => w.stepLoop setup act

end

end Worker

/-- A worker from its construction on. -/
def workerMachine {Callback Event : Type} (setup : WorkerSetup Callback Event) :
    Machine (Worker Event) (WorkerAct Callback) :=
  ⟨.new, fun w act => w.step setup act⟩

end Rsap.Orchestration
