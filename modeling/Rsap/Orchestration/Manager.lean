import Mathlib.Data.List.AList
import Rsap.Orchestration.WorkerView

/-!
# `Rsap.Orchestration.Manager`: the calls of `CameraWorkerManager`, step by step

The manager (`app/orchestration/manager.py`) has any number of calls of `start_camera`,
`stop_camera`, `restart_camera`, `reconcile` and `shutdown`. A call is a task. `reconcile` and
`_shutdown_impl` gather tasks of their own, which are tasks like the others. A step is the stretch
of one task from one `await` to the next, and the state of a task is the `await` that it is
suspended at. Every `await` of the source is a place to be suspended and to be cancelled at, those
of `_get_owned_worker`, `_remove_worker` and `_is_admission_closed` included. The sections under the
registry lock have no `await` inside, so each of them is in one stretch.

The callers and the tasks of `reconcile` can be cancelled at any `await`. A cancelled `gather` goes
on until its tasks are over. Nobody else holds the task of `_shutdown_impl`, which every caller of
`shutdown` shields, or the tasks that it gathers, so these are not cancelled.

A worker is what the manager sees of it (`WorkerView`), and its tasks take it from one view to the
next. Its supervisor ends without raising. `objects` are all workers that were ever created, and
the index is the identity of the worker. `_workers`, `_statuses` and `_generations` are association
lists with the most recent entry first. A camera lock is locked while a task is inside its
`async with`. The entry of a lock in `_camera_locks` can go away when no task refers to the lock.
-/

set_option autoImplicit false

namespace Rsap.Orchestration

open Rsap.Library

/-- A dictionary. -/
abbrev StringMap (α : Type) := AList fun _ : String => α

/-- `popitem(last=False)` while there are more than `retained` entries. -/
def retain {α : Type} (retained : Nat) (entries : StringMap α) : StringMap α :=
  ⟨entries.entries.take retained, entries.nodupKeys.sublist (List.take_sublist _ _)⟩

/-- What the manager is built with. -/
structure ManagerConfig where
  retainedStatuses : { n : Nat // 1 ≤ n }
  maxActiveWorkers : { n : Nat // 1 ≤ n }
  sanitizeError : String → String

/-- `OrchestrationError(category, camera_id, message)`. -/
def ManagerConfig.error (cfg : ManagerConfig) (category : FailureCategory)
    (cameraId : Option String) (message : String) : ManagerError :=
  .orchestration cameraId ⟨category, cfg.sanitizeError message⟩

/-- `str` of the exception. -/
def ManagerError.text (cfg : ManagerConfig) : ManagerError → String
  | .orchestration (some cameraId) error =>
    if cameraId = "" then error.publicMessage
    else "camera " ++ cameraId ++ ": " ++ error.publicMessage
  | .orchestration none error => error.publicMessage
  | .shutdown failures =>
    cfg.sanitizeError
      ("orchestration shutdown completed with " ++ toString failures.length ++ " failure(s)")
  | .cancelled => ""

/-! ### The registry -/

/-- The fields of the manager other than its locks and the shutdown task. -/
structure Registry (Settings : Type) where
  objects : List (WorkerView Settings)
  workers : StringMap Nat
  statuses : StringMap CameraStatus
  generations : StringMap Nat
  admissionClosed : Bool
  shutdownError : Option (List OrchestrationFailure)
  deriving DecidableEq

namespace Registry

variable {Settings : Type} (cfg : ManagerConfig)

def new : Registry Settings := ⟨[], ∅, ∅, ∅, false, none⟩

/-- `_remember`. -/
def remember (r : Registry Settings) (status : CameraStatus) : Registry Settings :=
  { r with statuses :=
      retain cfg.retainedStatuses.val (r.statuses.insert status.cameraId status) }

/-- A worker changes. A transition calls `_on_transition`. -/
def setWorker (r : Registry Settings) (k : Nat) (v v' : WorkerView Settings) :
    Registry Settings :=
  let r := { r with objects := r.objects.set k v' }
  if v'.state = v.state then r else r.remember cfg v'.status

/-- `stop` of a worker, up to its `await`. -/
def stopWorker (r : Registry Settings) (k : Nat) (v : WorkerView Settings)
    (closed : Option OrchestrationFailure) : Registry Settings :=
  let r := r.setWorker cfg k v v.stopping
  { r with objects := r.objects.set k (v.stopping.closeCapture closed) }

/-- `_remove_worker`. -/
def removeWorker (r : Registry Settings) (cameraId : String) (k : Nat) : Registry Settings :=
  if r.workers.lookup cameraId = some k then { r with workers := r.workers.erase cameraId } else r

/-- `_new_worker`, its registration and the first stretch of its `start`. -/
def newWorker (r : Registry Settings) (definition : CameraDefinition Settings) :
    Registry Settings :=
  let generation := (r.generations.lookup definition.cameraId).getD 0 + 1
  let worker := WorkerView.new definition generation
  { r with
    generations :=
      retain cfg.retainedStatuses.val (r.generations.insert definition.cameraId generation)
    objects := r.objects ++ [worker]
    workers := r.workers.insert definition.cameraId r.objects.length }.remember cfg worker.status

/-- What `_ensure_admission_open` raises. -/
def ensureAdmissionOpen (r : Registry Settings) (cameraId : Option String) :
    Option ManagerError :=
  if r.admissionClosed then
    match r.shutdownError with
    | some failures => some (.shutdown failures)
    | none => some (cfg.error .shutdown cameraId "camera manager is shutting down")
  else none

/-- `statuses()`. -/
def allStatuses (r : Registry Settings) : StringMap CameraStatus :=
  r.workers.entries.foldr (fun entry statuses =>
    match r.objects[entry.2]? with
    | some v => statuses.insert entry.1 v.status
    | none => statuses) r.statuses

end Registry

/-- `_result`. -/
def operationResult (operation : LifecycleOperation) (outcome : LifecycleOutcome)
    (status : Option CameraStatus) (cameraId : String) : LifecycleOperationResult where
  cameraId := (status.map (·.cameraId)).getD cameraId
  operation := operation
  outcome := outcome
  generation := status.map (·.generation)
  status := status
  error := status.bind (·.failure)

/-! ### Operations on one camera -/

/-- `start_camera`, `restart_camera`, `stop_camera` and `_shutdown_camera`. -/
inductive Operation (Settings : Type) where
  | start (definition : CameraDefinition Settings)
  | restart (definition : CameraDefinition Settings)
  | stop (cameraId : String)
  | shutdown (cameraId : String)
  deriving DecidableEq

def Operation.cameraId {Settings : Type} : Operation Settings → String
  | .start definition | .restart definition => definition.cameraId
  | .stop cameraId | .shutdown cameraId => cameraId

/-- The `await` inside `async with camera_lock`, with the worker that the task has in hand. -/
inductive Section (Settings : Type) where
  | finding
  | stopping (worker : Nat)
  | removing (worker : Nat) (status : CameraStatus) (failures : List OrchestrationFailure)
  | registering (definition : CameraDefinition Settings)
  | starting (worker : Nat)
  | cancelling (worker : Nat)
  | waiting (worker : Nat) (error : ManagerError)
  | dropping (worker : Nat) (error : ManagerError)
  | admitting (worker : Nat) (status : CameraStatus)
  | withdrawing (worker : Nat) (status : CameraStatus)
  | expelling (worker : Nat) (status : CameraStatus)
  deriving DecidableEq

/-- How an operation ended: with a result, with the failures of `_shutdown_camera`, or raising. -/
inductive OperationEnd where
  | returned (result : LifecycleOperationResult)
  | settled (failures : List OrchestrationFailure)
  | raised (error : ManagerError)
  deriving DecidableEq

/-- After a stretch inside the lock, an operation is at its next `await` or over. -/
inductive Progress (Settings : Type) where
  | next (place : Section Settings)
  | ended (result : OperationEnd)
  deriving DecidableEq

section
variable {Settings : Type} (cfg : ManagerConfig)

/-- A start returns after `_remember(status)`. -/
def finishStart (r : Registry Settings) (op : Operation Settings) (status : CameraStatus) :
    Registry Settings × Progress Settings :=
  let result := match op with
    | .restart _ => operationResult .restart .restarted (some status) op.cameraId
    | _ => operationResult .start .started (some status) op.cameraId
  (r.remember cfg status, .ended (.returned result))

/-- An operation after `_get_owned_worker`. -/
def found (r : Registry Settings) (op : Operation Settings) (closed : Option OrchestrationFailure) :
    Option (Registry Settings × Progress Settings) :=
  match r.workers.lookup op.cameraId with
  | none =>
    some (r, match op with
      | .start definition | .restart definition => .next (.registering definition)
      | .stop cameraId =>
        .ended (.returned
          (operationResult .stop .alreadyStopped (r.statuses.lookup cameraId) cameraId))
      | .shutdown _ => .ended (.settled []))
  | some k =>
    r.objects[k]?.bind fun v =>
      match op with
      | .start definition =>
        if v.state ∈ .starting :: runningStates then
          some (r, .ended (.returned
            (operationResult .start .alreadyRunning (some v.status) definition.cameraId)))
        else some (r.stopWorker cfg k v closed, .next (.stopping k))
      | .restart _ | .stop _ | .shutdown _ =>
        some (r.stopWorker cfg k v closed, .next (.stopping k))

/-- An operation after the removal of the worker that it stopped. -/
def removed (op : Operation Settings) (v : WorkerView Settings)
    (status : CameraStatus) (failures : List OrchestrationFailure) : Progress Settings :=
  match op with
  | .start definition | .restart definition =>
    if v.shutdownFailures ≠ [] then .ended (.raised (.shutdown v.shutdownFailures))
    else .next (.registering definition)
  | .stop cameraId =>
    let outcome := if status.state = .failed ∨ v.shutdownFailures ≠ [] then .failed else .stopped
    .ended (.returned (operationResult .stop outcome (some status) cameraId))
  | .shutdown _ => .ended (.settled failures)

/-- The section that registers and starts a new worker. -/
def register (r : Registry Settings) (definition : CameraDefinition Settings) :
    Registry Settings × Progress Settings :=
  match r.ensureAdmissionOpen cfg (some definition.cameraId) with
  | some error => (r, .ended (.raised error))
  | none =>
    if cfg.maxActiveWorkers.val ≤ r.workers.keys.length then
      (r, .ended (.raised (cfg.error .capacity (some definition.cameraId)
        ("active camera capacity " ++ toString cfg.maxActiveWorkers.val ++ " reached"))))
    else (r.newWorker cfg definition, .next (.starting r.objects.length))

/-- The next stretch of an operation inside the lock. `closed` is the failure of the capture, if
the stretch closes it. -/
def runSection (r : Registry Settings) (op : Operation Settings)
    (closed : Option OrchestrationFailure) :
    Section Settings → Option (Registry Settings × Progress Settings)
  | .finding => found cfg r op closed
  | .stopping k =>
    r.objects[k]?.bind fun v =>
      if v.live then none
      else some (r.remember cfg v.status, .next (.removing k v.status v.shutdownFailures))
  | .removing k status failures =>
    r.objects[k]?.map fun v =>
      (r.removeWorker op.cameraId k, removed op v status failures)
  | .registering definition => some (register cfg r definition)
  | .starting k =>
    r.objects[k]?.bind fun v =>
      match v.started with
      | .pending => none
      | .resolved => some (r, .next (.admitting k v.status))
      | .rejected error =>
        some (r, .next (.waiting k (.orchestration (some v.cameraId) error)))
  | .cancelling k =>
    r.objects[k]?.bind fun v => if v.live then none else some (r, .next (.waiting k .cancelled))
  | .waiting k error =>
    r.objects[k]?.bind fun v =>
      if v.live then none else some (r.remember cfg v.status, .next (.dropping k error))
  | .dropping k error => some (r.removeWorker op.cameraId k, .ended (.raised error))
  | .admitting k status =>
    r.objects[k]?.map fun v =>
      if r.admissionClosed then (r.stopWorker cfg k v closed, .next (.withdrawing k status))
      else finishStart cfg r op status
  | .withdrawing k status =>
    r.objects[k]?.bind fun v =>
      if v.live then none else some (r.remember cfg v.status, .next (.expelling k status))
  | .expelling k status =>
    let r := r.removeWorker op.cameraId k
    match r.ensureAdmissionOpen cfg (some op.cameraId) with
    | some error => some (r, .ended (.raised error))
    | none => some (finishStart cfg r op status)

/-- An operation inside the lock is cancelled. A cancelled `start` of a worker stops the worker,
and when this is cancelled too the manager waits for the worker. -/
def cancelSection (r : Registry Settings) (closed : Option OrchestrationFailure) :
    Section Settings → Option (Registry Settings × Progress Settings)
  | .starting k =>
    r.objects[k]?.map fun v => (r.stopWorker cfg k v closed, .next (.cancelling k))
  | .cancelling k => some (r, .next (.waiting k .cancelled))
  | _ => some (r, .ended (.raised .cancelled))

end

/-! ### Tasks -/

/-- Where an operation is: in `_get_camera_lock`, waiting for the camera lock, inside it, or
over. -/
inductive Stage (Settings : Type) where
  | lookup
  | locking (lock : Nat)
  | inside (lock : Nat) (place : Section Settings)
  | ended (result : OperationEnd)
  deriving DecidableEq

/-- The stage after a stretch inside the lock. -/
def Progress.stage {Settings : Type} (lock : Nat) : Progress Settings → Stage Settings
  | .next place => .inside lock place
  | .ended result => .ended result

/-- Where `reconcile` is. It has the operations that it has collected, or the tasks that it
gathers. `cancelled` says that the `gather` was cancelled. -/
inductive ReconcileStage (Settings : Type) where
  | snapshotting
  | removing (children : List Nat) (cancelled : Bool)
  | scanning (remaining : List (CameraDefinition Settings)) (operations : List (Operation Settings))
  | operating (children : List Nat) (cancelled : Bool)
  | ended (result : Except ManagerError (StringMap CameraStatus))
  deriving DecidableEq

/-- Where a caller of `shutdown` is. -/
inductive ShutdownStage where
  | entering
  | awaiting (task : Nat)
  | ended (result : Except ManagerError Unit)
  deriving DecidableEq

/-- Where `_shutdown_impl` is. It raises when there are failures. -/
inductive ShutdownImplStage where
  | snapshotting
  | gathering (cameraIds : List String) (children : List Nat)
  | ended (failures : List OrchestrationFailure)
  deriving DecidableEq

inductive ManagerTask (Settings : Type) where
  | operation (op : Operation Settings) (stage : Stage Settings)
  | reconcile (desired : List (CameraDefinition Settings)) (stage : ReconcileStage Settings)
  | shutdown (stage : ShutdownStage)
  | shutdownImpl (stage : ShutdownImplStage)
  deriving DecidableEq

structure ManagerWorld (Settings : Type) where
  registry : Registry Settings
  cameraLocks : StringMap Nat
  locks : Nat
  shutdownTask : Option Nat
  tasks : List (ManagerTask Settings)
  deriving DecidableEq

/-- The steps: a call, the next stretch of a task, the cancellation of a task, a step of the tasks
of a worker, and the loss of a lock. -/
inductive ManagerAct (Settings : Type) where
  | startCamera (definition : CameraDefinition Settings)
  | stopCamera (cameraId : String)
  | restartCamera (definition : CameraDefinition Settings)
  | reconcile (desired : List (CameraDefinition Settings))
  | shutdown
  | run (task : Nat) (closed : Option OrchestrationFailure)
  | cancel (task : Nat) (closed : Option OrchestrationFailure)
  | work (worker : Nat) (view : WorkerView Settings)
  | collect (cameraId : String)
  deriving DecidableEq

/-- The lock that a task is inside of. -/
def ManagerTask.holds {Settings : Type} (lock : Nat) : ManagerTask Settings → Bool
  | .operation _ (.inside held _) => held = lock
  | _ => false

/-- The task refers to the lock. -/
def ManagerTask.refersTo {Settings : Type} (lock : Nat) : ManagerTask Settings → Bool
  | .operation _ (.inside held _) => held = lock
  | .operation _ (.locking wanted) => wanted = lock
  | _ => false

/-- How an operation ended. -/
def ManagerTask.end? {Settings : Type} : ManagerTask Settings → Option OperationEnd
  | .operation _ (.ended result) => some result
  | _ => none

/-- What an operation raised. -/
def OperationEnd.error? : OperationEnd → Option ManagerError
  | .raised error => some error
  | _ => none

/-- The failure of a removal. -/
def OperationEnd.failure? : OperationEnd → Option OrchestrationFailure
  | .returned result => if result.outcome = .failed then result.error else none
  | _ => none

/-- The first exception of a `gather`, as `reconcile` raises it. -/
def ManagerConfig.gathered (cfg : ManagerConfig) (category : FailureCategory)
    (ends : List OperationEnd) : Option ManagerError :=
  match ends.filterMap OperationEnd.error? with
  | [] => none
  | .cancelled :: _ => some (cfg.error category none "")
  | error :: _ => some error

/-- The failures that a child of `_shutdown_impl` contributes. -/
def ManagerConfig.contributed (cfg : ManagerConfig) : OperationEnd → List OrchestrationFailure
  | .settled failures => failures
  | .raised error => [⟨.shutdown, cfg.sanitizeError (error.text cfg)⟩]
  | .returned _ => []

namespace ManagerWorld

variable {Settings : Type}

def new : ManagerWorld Settings := ⟨.new, ∅, 0, none, []⟩

/-- A new task. -/
def spawn (w : ManagerWorld Settings) (task : ManagerTask Settings) : ManagerWorld Settings :=
  { w with tasks := w.tasks ++ [task] }

/-- A task is at its next `await`. -/
def goto (w : ManagerWorld Settings) (i : Nat) (task : ManagerTask Settings) :
    ManagerWorld Settings :=
  { w with tasks := w.tasks.set i task }

/-- The tasks of a `gather`. -/
def spawnAll (w : ManagerWorld Settings) (operations : List (Operation Settings)) :
    ManagerWorld Settings :=
  { w with tasks := w.tasks ++ operations.map fun op => .operation op .lookup }

/-- The identities of the tasks of a `gather`. -/
def children (w : ManagerWorld Settings) (operations : List (Operation Settings)) : List Nat :=
  List.range' w.tasks.length operations.length

/-- How a task ended. -/
def end? (w : ManagerWorld Settings) (child : Nat) : Option OperationEnd :=
  w.tasks[child]?.bind ManagerTask.end?

/-- Every task of a `gather` is over. -/
def settled (w : ManagerWorld Settings) (children : List Nat) : Bool :=
  children.all fun child => (w.end? child).isSome

/-- The results of a `gather`. -/
def ends (w : ManagerWorld Settings) (children : List Nat) : List OperationEnd :=
  children.filterMap w.end?

section
variable (cfg : ManagerConfig)

/-- `_get_camera_lock`. -/
def getCameraLock (w : ManagerWorld Settings) (i : Nat) (op : Operation Settings) :
    ManagerWorld Settings :=
  match w.cameraLocks.lookup op.cameraId with
  | some lock => w.goto i (.operation op (.locking lock))
  | none =>
    { w with
      cameraLocks := w.cameraLocks.insert op.cameraId w.locks
      locks := w.locks + 1 }.goto i (.operation op (.locking w.locks))

/-- The next stretch of an operation. -/
def runOperation (w : ManagerWorld Settings) (i : Nat) (closed : Option OrchestrationFailure)
    (op : Operation Settings) : Stage Settings → Option (ManagerWorld Settings)
  | .lookup => some (w.getCameraLock i op)
  | .locking lock =>
    if w.tasks.any (ManagerTask.holds lock) then none
    else some (w.goto i (.operation op (.inside lock .finding)))
  | .inside lock place =>
    (runSection cfg w.registry op closed place).map fun (registry, progress) =>
      { w with registry }.goto i (.operation op (progress.stage lock))
  | .ended _ => none

/-- An operation is cancelled. -/
def cancelOperation (w : ManagerWorld Settings) (i : Nat) (closed : Option OrchestrationFailure)
    (op : Operation Settings) : Stage Settings → Option (ManagerWorld Settings)
  | .lookup | .locking _ => some (w.goto i (.operation op (.ended (.raised .cancelled))))
  | .inside lock place =>
    (cancelSection cfg w.registry closed place).map fun (registry, progress) =>
      { w with registry }.goto i (.operation op (progress.stage lock))
  | .ended _ => none

/-- `reconcile` after the scan: it gathers the operations, or returns when there are none. -/
def operate (w : ManagerWorld Settings) (i : Nat) (desired : List (CameraDefinition Settings))
    (operations : List (Operation Settings)) : ManagerWorld Settings :=
  if operations = [] then
    w.goto i (.reconcile desired (.ended (.ok w.registry.allStatuses)))
  else
    (w.goto i (.reconcile desired (.operating (w.children operations) false))).spawnAll operations

/-- `reconcile` at the head of its loop. -/
def scan (w : ManagerWorld Settings) (i : Nat) (desired : List (CameraDefinition Settings))
    (operations : List (Operation Settings)) :
    List (CameraDefinition Settings) → ManagerWorld Settings
  | [] => w.operate i desired operations
  | remaining => w.goto i (.reconcile desired (.scanning remaining operations))

/-- The operation that `reconcile` needs for a desired camera. -/
def operationFor (r : Registry Settings) [DecidableEq Settings]
    (definition : CameraDefinition Settings) : List (Operation Settings) :=
  match r.workers.lookup definition.cameraId with
  | none => [.start definition]
  | some k =>
    match r.objects[k]? with
    | none => []
    | some v =>
      if v.definition ≠ definition ∨ v.state ∉ runningStates then [.restart definition] else []

/-- The cameras that are registered and not desired. -/
def removals (r : Registry Settings) (desired : List (CameraDefinition Settings)) :
    List (Operation Settings) :=
  (r.workers.keys.reverse.filter (· ∉ desired.map (·.cameraId))).map .stop

/-- The next stretch of `reconcile`. -/
def runReconcile [DecidableEq Settings] (w : ManagerWorld Settings) (i : Nat)
    (desired : List (CameraDefinition Settings)) :
    ReconcileStage Settings → Option (ManagerWorld Settings)
  | .snapshotting =>
    match w.registry.ensureAdmissionOpen cfg none with
    | some error => some (w.goto i (.reconcile desired (.ended (.error error))))
    | none =>
      let operations := removals w.registry desired
      if operations = [] then some (w.scan i desired [] desired)
      else
        some ((w.goto i (.reconcile desired
          (.removing (w.children operations) false))).spawnAll operations)
  | .removing children cancelled =>
    if w.settled children then
      if cancelled then some (w.goto i (.reconcile desired (.ended (.error .cancelled))))
      else
        match cfg.gathered .shutdown (w.ends children) with
        | some error => some (w.goto i (.reconcile desired (.ended (.error error))))
        | none =>
          match (w.ends children).filterMap OperationEnd.failure? with
          | [] => some (w.scan i desired [] desired)
          | failures => some (w.goto i (.reconcile desired (.ended (.error (.shutdown failures)))))
    else none
  | .scanning remaining operations =>
    match remaining with
    | [] => none
    | definition :: remaining =>
      some (w.scan i desired (operations ++ operationFor w.registry definition) remaining)
  | .operating children cancelled =>
    if w.settled children then
      if cancelled then some (w.goto i (.reconcile desired (.ended (.error .cancelled))))
      else
        match cfg.gathered .internal (w.ends children) with
        | some error => some (w.goto i (.reconcile desired (.ended (.error error))))
        | none => some (w.goto i (.reconcile desired (.ended (.ok w.registry.allStatuses))))
    else none
  | .ended _ => none

/-- `reconcile` is cancelled. -/
def cancelReconcile (w : ManagerWorld Settings) (i : Nat)
    (desired : List (CameraDefinition Settings)) :
    ReconcileStage Settings → Option (ManagerWorld Settings)
  | .snapshotting | .scanning _ _ =>
    some (w.goto i (.reconcile desired (.ended (.error .cancelled))))
  | .removing children _ => some (w.goto i (.reconcile desired (.removing children true)))
  | .operating children _ => some (w.goto i (.reconcile desired (.operating children true)))
  | .ended _ => none

/-- What the failures of `_shutdown_impl` make of its callers. -/
def shutdownResult (failures : List OrchestrationFailure) : Except ManagerError Unit :=
  if failures = [] then .ok () else .error (.shutdown failures)

/-- The next stretch of a caller of `shutdown`. -/
def runShutdown (w : ManagerWorld Settings) (i : Nat) :
    ShutdownStage → Option (ManagerWorld Settings)
  | .entering =>
    let w := { w with registry := { w.registry with admissionClosed := true } }
    match w.shutdownTask with
    | some task => some (w.goto i (.shutdown (.awaiting task)))
    | none =>
      some ({ w with shutdownTask := some w.tasks.length }.goto i
        (.shutdown (.awaiting w.tasks.length)) |>.spawn (.shutdownImpl .snapshotting))
  | .awaiting task =>
    match w.tasks[task]? with
    | some (.shutdownImpl (.ended failures)) =>
      some (w.goto i (.shutdown (.ended (shutdownResult failures))))
    | _ => none
  | .ended _ => none

/-- The next stretch of `_shutdown_impl`. -/
def runShutdownImpl (w : ManagerWorld Settings) (i : Nat) :
    ShutdownImplStage → Option (ManagerWorld Settings)
  | .snapshotting =>
    let cameraIds := w.registry.workers.keys.reverse
    let operations := cameraIds.map .shutdown
    some ((w.goto i (.shutdownImpl (.gathering cameraIds (w.children operations)))).spawnAll
      operations)
  | .gathering _ children =>
    if w.settled children then
      let failures := (w.ends children).flatMap cfg.contributed
      let shutdownError := if failures = [] then w.registry.shutdownError else some failures
      some ({ w with registry := { w.registry with shutdownError } }.goto i
        (.shutdownImpl (.ended failures)))
    else none
  | .ended _ => none

/-- The next stretch of a task. -/
def runTask [DecidableEq Settings] (w : ManagerWorld Settings) (i : Nat)
    (closed : Option OrchestrationFailure) :
    ManagerTask Settings → Option (ManagerWorld Settings)
  | .operation op stage => w.runOperation cfg i closed op stage
  | .reconcile desired stage => w.runReconcile cfg i desired stage
  | .shutdown stage => w.runShutdown i stage
  | .shutdownImpl stage => w.runShutdownImpl cfg i stage

/-- A task is cancelled. -/
def cancelTask (w : ManagerWorld Settings) (i : Nat) (closed : Option OrchestrationFailure) :
    ManagerTask Settings → Option (ManagerWorld Settings)
  | .operation (.shutdown _) _ => none
  | .operation op stage => w.cancelOperation cfg i closed op stage
  | .reconcile desired stage => w.cancelReconcile i desired stage
  | .shutdown (.ended _) => none
  | .shutdown _ => some (w.goto i (.shutdown (.ended (.error .cancelled))))
  | .shutdownImpl _ => none

/-- A call of `reconcile`, up to its first `await`. -/
def callReconcile (w : ManagerWorld Settings) (desired : List (CameraDefinition Settings)) :
    ManagerWorld Settings :=
  if (desired.map (·.cameraId)).Nodup then w.spawn (.reconcile desired .snapshotting)
  else
    w.spawn (.reconcile desired (.ended (.error
      (cfg.error .configuration none "camera catalog returned duplicate camera IDs"))))

/-- The tasks of a worker take a step. -/
def work [DecidableEq Settings] (w : ManagerWorld Settings) (k : Nat) (v' : WorkerView Settings) :
    Option (ManagerWorld Settings) :=
  w.registry.objects[k]?.bind fun v =>
    if v.Evolves v' then some { w with registry := w.registry.setWorker cfg k v v' } else none

/-- `_camera_locks` loses a lock that no task refers to. -/
def collect (w : ManagerWorld Settings) (cameraId : String) : Option (ManagerWorld Settings) :=
  (w.cameraLocks.lookup cameraId).bind fun lock =>
    if w.tasks.any (ManagerTask.refersTo lock) then none
    else some { w with cameraLocks := w.cameraLocks.erase cameraId }

/-- The step function. -/
def step [DecidableEq Settings] (w : ManagerWorld Settings) :
    ManagerAct Settings → Option (ManagerWorld Settings)
  | .startCamera definition => some (w.spawn (.operation (.start definition) .lookup))
  | .stopCamera cameraId => some (w.spawn (.operation (.stop cameraId) .lookup))
  | .restartCamera definition => some (w.spawn (.operation (.restart definition) .lookup))
  | .reconcile desired => some (w.callReconcile cfg desired)
  | .shutdown => some (w.spawn (.shutdown .entering))
  | .run i closed => w.tasks[i]?.bind (w.runTask cfg i closed)
  | .cancel i closed => w.tasks[i]?.bind (w.cancelTask cfg i closed)
  | .work k v' => w.work cfg k v'
  | .collect cameraId => w.collect cameraId

end

end ManagerWorld

def managerMachine {Settings : Type} [DecidableEq Settings] (cfg : ManagerConfig) :
    Machine (ManagerWorld Settings) (ManagerAct Settings) where
  init := .new
  step := ManagerWorld.step cfg

end Rsap.Orchestration
