import Mathlib.Order.Basic

/-!
# `Rsap.Orchestration.Models`: the lifecycle states, failures and counters of a worker

The parts of `app/orchestration/models.py`, `errors.py` and `protocols.py` that a camera worker
and the manager of the workers use. `VALID_TRANSITIONS` is `validTransitions`.

A call to the outside returns or raises. `Raised` is what it raises: an `OrchestrationError`, a
`CallbackExecutionError` of the pipeline or another `Exception`, with the text that `str` gives.
`sanitize_error` rewrites this text. The worker only stores the result, so it is a field of the
setup, as is the constructor `RoutedAnalyticsEvent.from_callback`, which returns the routed event
or raises.
-/

set_option autoImplicit false

namespace Rsap.Orchestration

inductive WorkerState where
  | stopped
  | starting
  | running
  | reconnecting
  | stopping
  | failed
  deriving DecidableEq

/-- `VALID_TRANSITIONS`. -/
def validTransitions : WorkerState → List WorkerState
  | .stopped => [.starting]
  | .starting => [.running, .reconnecting, .failed, .stopping]
  | .running => [.reconnecting, .stopping, .failed]
  | .reconnecting => [.running, .stopping, .failed]
  | .stopping => [.stopped, .failed]
  | .failed => [.stopping, .stopped]

/-- The value of the enumeration. -/
def WorkerState.value : WorkerState → String
  | .stopped => "stopped"
  | .starting => "starting"
  | .running => "running"
  | .reconnecting => "reconnecting"
  | .stopping => "stopping"
  | .failed => "failed"

inductive FailureCategory where
  | configuration
  | capacity
  | capture
  | model
  | pipeline
  | callback
  | sink
  | scheduler
  | shutdown
  | internal
  deriving DecidableEq

structure OrchestrationFailure where
  category : FailureCategory
  summary : String
  deriving DecidableEq

structure OrchestrationError where
  category : FailureCategory
  publicMessage : String
  deriving DecidableEq

/-- `OrchestrationError.failure`. -/
def OrchestrationError.failure (error : OrchestrationError) : OrchestrationFailure :=
  ⟨error.category, error.publicMessage⟩

/-- What a call raised. -/
inductive Raised where
  | orchestration (error : OrchestrationError)
  | callbackExecution (text : String)
  | other (text : String)
  deriving DecidableEq

/-- The counters of `CameraMetrics`. -/
structure CameraMetrics where
  framesCaptured : Nat
  framesProcessed : Nat
  captureFailures : Nat
  eventsEmitted : Nat
  eventsDropped : Nat
  eventSinkFailures : Nat
  workerFailures : Nat
  reconnectCount : Nat
  deriving DecidableEq

/-- `CameraMetrics()`. -/
def CameraMetrics.zero : CameraMetrics := ⟨0, 0, 0, 0, 0, 0, 0, 0⟩

/-- What a worker is built with. `CameraDefinition` checks that the queue size is positive. -/
structure WorkerSetup (Callback Event : Type) where
  eventQueueSize : { n : Nat // 1 ≤ n }
  fromCallback : Callback → Except Raised Event
  sanitizeError : String → String

section
variable {Callback Event : Type} (setup : WorkerSetup Callback Event)

/-- `OrchestrationError(category, camera_id, message)`. -/
def orchestrationError (category : FailureCategory) (message : String) : OrchestrationError :=
  ⟨category, setup.sanitizeError message⟩

/-- `_public_error`. The constructor sanitizes the text a second time. -/
def publicError (category : FailureCategory) : Raised → OrchestrationError
  | .orchestration error => error
  | .callbackExecution text => orchestrationError setup category (setup.sanitizeError text)
  | .other text => orchestrationError setup category (setup.sanitizeError text)

end

/-! ### Cameras and operations on them -/

/-- `RUNNING_STATES`. -/
def runningStates : List WorkerState := [.running, .reconnecting]

/-- A desired camera. The fields other than the id are `settings`, of any type. -/
structure CameraDefinition (Settings : Type) where
  cameraId : String
  settings : Settings
  deriving DecidableEq

/-- A `CameraStatus`, without its times and counters. `failure` is `failure_category` together with
`error_summary`. -/
structure CameraStatus where
  cameraId : String
  generation : Nat
  state : WorkerState
  failure : Option OrchestrationFailure
  deriving DecidableEq

inductive LifecycleOperation where
  | start
  | stop
  | restart
  deriving DecidableEq

inductive LifecycleOutcome where
  | started
  | alreadyRunning
  | stopped
  | alreadyStopped
  | restarted
  | failed
  deriving DecidableEq

structure LifecycleOperationResult where
  cameraId : String
  operation : LifecycleOperation
  outcome : LifecycleOutcome
  generation : Option Nat
  status : Option CameraStatus
  error : Option OrchestrationFailure
  deriving DecidableEq

/-- What a call of the manager raises: an `OrchestrationError` with its camera, a `ShutdownError`,
or the cancellation of the caller. -/
inductive ManagerError where
  | orchestration (cameraId : Option String) (error : OrchestrationError)
  | shutdown (failures : List OrchestrationFailure)
  | cancelled
  deriving DecidableEq

end Rsap.Orchestration
