import Rsap.Orchestration.Worker

/-!
# `Rsap.Orchestration.WorkerView`: a worker as the manager sees it

The manager starts a worker in the stretch that creates it. From then on it reads the definition,
the state, the failures and whether the supervisor is done, it calls `stop`, and it waits for the
start future or for the supervisor. A `WorkerView` has these parts. `Evolves` says what the tasks
of a worker can make of its view between two calls of the manager.
-/

set_option autoImplicit false

namespace Rsap.Orchestration

/-- A worker that was started. `live` is `not self._supervisor_task.done()`. -/
structure WorkerView (Settings : Type) where
  definition : CameraDefinition Settings
  generation : Nat
  state : WorkerState
  failure : Option OrchestrationFailure
  shutdownFailures : List OrchestrationFailure
  live : Bool
  started : StartFuture
  deriving DecidableEq

namespace WorkerView

variable {Settings : Type}

/-- `CameraWorker(definition, generation, …)` after the first stretch of `start`. -/
def new (definition : CameraDefinition Settings) (generation : Nat) : WorkerView Settings :=
  ⟨definition, generation, .starting, none, [], true, .pending⟩

/-- `definition.camera_id`. -/
def cameraId (v : WorkerView Settings) : String := v.definition.cameraId

/-- `status`. -/
def status (v : WorkerView Settings) : CameraStatus :=
  ⟨v.cameraId, v.generation, v.state, v.failure⟩

/-- The transition of `stop`. -/
def stopping (v : WorkerView Settings) : WorkerView Settings :=
  if v.live = true ∧ v.state ∈ [.starting, .running, .reconnecting] then
    { v with state := .stopping }
  else v

/-- `_close_capture_once` in `stop`, with the failure of a capture that raises. The capture of a
worker whose supervisor is done is closed. -/
def closeCapture (v : WorkerView Settings) (closed : Option OrchestrationFailure) :
    WorkerView Settings :=
  match closed with
  | none => v
  | some failure =>
    if v.live then
      { v with shutdownFailures := v.shutdownFailures ++ [failure], failure := some failure }
    else v

/-- What holds of the view of every worker. A worker that is done has settled its start future,
and stopped or failed. -/
structure Consistent (v : WorkerView Settings) : Prop where
  live : v.live = true → v.state ≠ .stopped ∧ v.state ≠ .failed
  settled : v.live = false → v.started ≠ .pending
  ended : v.live = false → v.state = .stopped ∨ v.state = .failed

instance (v : WorkerView Settings) : Decidable (Consistent v) :=
  decidable_of_iff
    ((v.live = true → v.state ≠ .stopped ∧ v.state ≠ .failed) ∧
      (v.live = false → v.started ≠ .pending) ∧
      (v.live = false → v.state = .stopped ∨ v.state = .failed))
    ⟨fun ⟨hlive, hsettled, hended⟩ => ⟨hlive, hsettled, hended⟩,
      fun ⟨hlive, hsettled, hended⟩ => ⟨hlive, hsettled, hended⟩⟩

/-- The tasks of a worker take its view from `v` to `v'`. -/
structure Evolves (v v' : WorkerView Settings) : Prop where
  definition : v'.definition = v.definition
  generation : v'.generation = v.generation
  consistent : Consistent v'
  finished : v.live = false → v' = v
  started : v.started ≠ .pending → v'.started = v.started

instance [DecidableEq Settings] (v v' : WorkerView Settings) : Decidable (Evolves v v') :=
  decidable_of_iff
    (v'.definition = v.definition ∧ v'.generation = v.generation ∧ Consistent v' ∧
      (v.live = false → v' = v) ∧ (v.started ≠ .pending → v'.started = v.started))
    ⟨fun ⟨hdefinition, hgeneration, hconsistent, hfinished, hstarted⟩ =>
        ⟨hdefinition, hgeneration, hconsistent, hfinished, hstarted⟩,
      fun ⟨hdefinition, hgeneration, hconsistent, hfinished, hstarted⟩ =>
        ⟨hdefinition, hgeneration, hconsistent, hfinished, hstarted⟩⟩

end WorkerView

end Rsap.Orchestration
