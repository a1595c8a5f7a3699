import Mathlib.Data.Rat.Defs
import Mathlib.Algebra.Order.Ring.Unbundled.Rat
import Rsap.Orchestration.Manager

/-!
# `Rsap.Orchestration.Service`: the reconciliation service, step by step

`CameraOrchestrationService` (`app/orchestration/service.py`) over the manager, with the
`AsyncioPeriodicScheduler` of `app/orchestration/adapters.py`. The tasks are the callers of
`start`, `reconcile` and `stop`, the tasks of `_start_impl` and `_stop_impl`, and the task of the
scheduled job. A step is the stretch of one task from one `await` to the next.

The sections under the state lock have no `await` inside, so nobody ever waits for it, and each of
them is in one stretch. The reconcile lock is only taken after a look at `locked()` in the same
stretch, so nobody waits for it either.

A created task begins later. `asyncio` begins tasks in the order of their creation, so `ready` is a
queue. A call that is awaited runs in the task of its caller. The calls of the manager are tasks of
`ManagerWorld`. Only this service calls `reconcile` and `shutdown` of the manager. The other calls
of the manager, its tasks and its workers take their steps in between.

A caller can be cancelled at any `await`, and so can the task of the job. The tasks of `_start_impl`
and `_stop_impl` are shielded, so nobody cancels them.
-/

set_option autoImplicit false

namespace Rsap.Orchestration

open Rsap.Library

/-! ### The scheduler -/

/-- The double `0.05`. -/
def minimumSeconds : ℚ := 3602879701896397 / 72057594037927936

def maximumSeconds : ℚ := 86400

/-- An `AsyncioPeriodicScheduler`: the task of each job. -/
structure PeriodicScheduler where
  jobs : StringMap Nat
  closed : Bool
  lastError : Option String
  deriving DecidableEq

namespace PeriodicScheduler

def new : PeriodicScheduler := ⟨∅, false, none⟩

/-- `add_job`, with the task that it creates, or the text of what it raises. -/
def addJob (s : PeriodicScheduler) (trigger jobId : String) (seconds : ℚ) (replaceExisting : Bool)
    (task : Nat) : Except String PeriodicScheduler :=
  if s.closed then .error "scheduler is closed"
  else if trigger ≠ "interval" then .error "only interval scheduling is supported"
  else if jobId = "" ∨ seconds < minimumSeconds ∨ maximumSeconds < seconds then
    .error "scheduled job requires an ID and a bounded interval"
  else if jobId ∈ s.jobs then
    if replaceExisting then .error "replace_existing requires awaiting remove_job first"
    else .error "scheduled job already exists"
  else .ok { s with jobs := s.jobs.insert jobId task }

end PeriodicScheduler

/-! ### Errors -/

/-- What a call of the service or of the catalog raises: what the manager raises, or another
`Exception`. -/
inductive ServiceError where
  | manager (error : ManagerError)
  | other (text : String)
  deriving DecidableEq

/-- `CancelledError`. -/
def ServiceError.cancelled : ServiceError := .manager .cancelled

/-- `str` of the exception. -/
def ServiceError.text (cfg : ManagerConfig) : ServiceError → String
  | .manager error => error.text cfg
  | .other text => text

/-- `error.failure` of an `OrchestrationError`. -/
def ManagerError.failure (cfg : ManagerConfig) : ManagerError → Option OrchestrationFailure
  | .orchestration _ error => some error.failure
  | .shutdown failures => some ⟨.shutdown, ManagerError.text cfg (.shutdown failures)⟩
  | .cancelled => none

/-- What `reconcile` raises for an exception. -/
def ServiceError.wrap (cfg : ManagerConfig) (category : FailureCategory) :
    ServiceError → ManagerError
  | .manager error => error
  | .other text => cfg.error category none text

/-- What the service is built with. The constructor checks the interval. -/
structure ServiceConfig where
  manager : ManagerConfig
  interval : { q : ℚ // minimumSeconds ≤ q ∧ q ≤ maximumSeconds }

/-- `JOB_ID`. -/
def jobId : String := "desktop-camera-reconcile"

/-! ### Tasks -/

/-- Where a task is inside `async with self._reconcile_lock`: waiting for the catalog or for the
call of the manager. -/
inductive ReconcilePlace where
  | reading
  | managing (call : Nat)
  deriving DecidableEq

/-- Where a caller of `start` is. -/
inductive StartStage where
  | awaiting (task : Nat)
  | cleaning (task : Nat)
  | ended (result : Except ServiceError Unit)
  deriving DecidableEq

/-- Where `_start_impl` is. -/
inductive StartImplStage where
  | created
  | reconciling (place : ReconcilePlace)
  | rollingBack (call : Nat) (error : ManagerError)
  | ended (result : Except ServiceError Unit)
  deriving DecidableEq

/-- Where a caller of `reconcile` is. -/
inductive CallerStage where
  | reconciling (place : ReconcilePlace)
  | ended (result : Except ServiceError Unit)
  deriving DecidableEq

/-- Where a caller of `stop` is. -/
inductive StopStage where
  | created
  | awaiting (task : Nat)
  | ended (result : Except ServiceError Unit)
  deriving DecidableEq

/-- Where `_stop_impl` is. `tasks` is the snapshot of the tracked tasks. -/
inductive StopImplStage where
  | created
  | awaitingStart (task : Nat)
  | removing (job : Nat) (tasks : List Nat)
  | gathering (tasks : List Nat)
  | shuttingDown (call : Nat) (failures : List OrchestrationFailure)
  | ended (result : Except ServiceError Unit)
  deriving DecidableEq

/-- Where `_run` of the scheduler is. -/
inductive JobStage where
  | created
  | sleeping
  | reconciling (place : ReconcilePlace)
  | ended
  deriving DecidableEq

/-- Where `remove_job` is, as a task of `shutdown` of the scheduler. -/
inductive RemoveStage where
  | created (jobId : String)
  | awaiting (job : Nat)
  | ended
  deriving DecidableEq

/-- Where `shutdown` of the scheduler is. -/
inductive CloseStage where
  | gathering (tasks : List Nat)
  | ended
  deriving DecidableEq

/-- A task. That of the job knows whether it was cancelled. -/
inductive ServiceTask where
  | start (stage : StartStage)
  | startImpl (stage : StartImplStage)
  | reconcile (stage : CallerStage)
  | stop (stage : StopStage)
  | stopImpl (stage : StopImplStage)
  | job (cancelled : Bool) (stage : JobStage)
  | remove (stage : RemoveStage)
  | close (stage : CloseStage)
  deriving DecidableEq

namespace ServiceTask

/-- Where the task is in the body of `reconcile`. -/
def place? : ServiceTask → Option ReconcilePlace
  | .startImpl (.reconciling place) => some place
  | .reconcile (.reconciling place) => some place
  | .job _ (.reconciling place) => some place
  | _ => none

/-- How the task ended. -/
def result? : ServiceTask → Option (Except ServiceError Unit)
  | .start (.ended result) => some result
  | .startImpl (.ended result) => some result
  | .reconcile (.ended result) => some result
  | .stop (.ended result) => some result
  | .stopImpl (.ended result) => some result
  | .job _ .ended => some (.error .cancelled)
  | .remove .ended => some (.ok ())
  | .close .ended => some (.ok ())
  | _ => none

end ServiceTask

structure ServiceWorld (Settings : Type) where
  manager : ManagerWorld Settings
  scheduler : Option PeriodicScheduler
  reconcileLock : Bool
  reconcileTasks : List Nat
  acceptingReconcile : Bool
  schedulerRegistered : Bool
  started : Bool
  startTask : Option Nat
  stopTask : Option Nat
  lastFailure : Option OrchestrationFailure
  tasks : List ServiceTask
  /-- The tasks that were created and have not begun. -/
  ready : List Nat
  /-- How often the catalog was read. -/
  catalogReads : Nat
  deriving DecidableEq

/-- What `list_enabled_cameras` returns or raises. -/
abbrev Catalog (Settings : Type) := Except ServiceError (List (CameraDefinition Settings))

/-- The steps: a call of the service, a call of `shutdown` of the scheduler, the beginning of the
oldest created task, the next stretch of a task, the cancellation of a caller, and a step of the
manager that the service has no part in. `answer` is what the catalog answers, if the task waits
for it. -/
inductive ServiceAct (Settings : Type) where
  | start
  | reconcile
  | stop
  | closeScheduler
  | begin
  | run (task : Nat) (answer : Catalog Settings)
  | cancel (task : Nat)
  | manager (act : ManagerAct Settings)
  deriving DecidableEq

/-- A stretch of `reconcile` ends at its next `await`, or `reconcile` is over. -/
inductive ReconcileProgress where
  | next (place : ReconcilePlace)
  | ended (result : Except ServiceError Unit)
  deriving DecidableEq

/-- What `runtime_status` returns. -/
structure RuntimeStatus where
  running : Bool
  acceptingReconcile : Bool
  schedulerRegistered : Bool
  reconcileInProgress : Bool
  lastFailure : Option OrchestrationFailure
  deriving DecidableEq

namespace ServiceWorld

variable {Settings : Type}

/-- A service that has not begun, with or without a scheduler. -/
def new (scheduled : Bool) : ServiceWorld Settings :=
  ⟨.new, if scheduled then some .new else none, false, [], false, false, false, none, none, none,
    [], [], 0⟩

/-- A task is at its next `await`. -/
def goto (w : ServiceWorld Settings) (i : Nat) (task : ServiceTask) : ServiceWorld Settings :=
  { w with tasks := w.tasks.set i task }

/-- A new task that is at its first `await`. -/
def spawn (w : ServiceWorld Settings) (task : ServiceTask) : ServiceWorld Settings :=
  { w with tasks := w.tasks ++ [task] }

/-- `create_task`. -/
def create (w : ServiceWorld Settings) (task : ServiceTask) : ServiceWorld Settings :=
  { w with tasks := w.tasks ++ [task], ready := w.ready ++ [w.tasks.length] }

section
variable (cfg : ServiceConfig)

/-! ### `reconcile` -/

/-- `reconcile` up to the catalog. -/
def enterReconcile (w : ServiceWorld Settings) (i : Nat) :
    ServiceWorld Settings × ReconcileProgress :=
  if !w.acceptingReconcile then (w, .ended (.ok ()))
  else if w.reconcileLock then (w, .ended (.ok ()))
  else
    ({ w with
        reconcileTasks := i :: w.reconcileTasks
        reconcileLock := true
        catalogReads := w.catalogReads + 1 }, .next .reading)

/-- `reconcile` leaves the lock and raises what it raises. -/
def leaveReconcile (w : ServiceWorld Settings) (i : Nat) (result : Except ServiceError Unit) :
    ServiceWorld Settings × ReconcileProgress :=
  let w := { w with reconcileLock := false, reconcileTasks := w.reconcileTasks.erase i }
  match result with
  | .ok () => (w, .ended (.ok ()))
  | .error (.manager .cancelled) => (w, .ended (.error .cancelled))
  | .error error =>
    let error := error.wrap cfg.manager .scheduler
    ({ w with lastFailure := error.failure cfg.manager }, .ended (.error (.manager error)))

/-- The next stretch of `reconcile`. -/
def continueReconcile (w : ServiceWorld Settings) (i : Nat) (answer : Catalog Settings) :
    ReconcilePlace → Option (ServiceWorld Settings × ReconcileProgress)
  | .reading =>
    match answer with
    | .error error => some (w.leaveReconcile cfg i (.error error))
    | .ok desired =>
      if !w.acceptingReconcile then some (w.leaveReconcile cfg i (.ok ()))
      else
        some ({ w with manager := w.manager.callReconcile cfg.manager desired },
          .next (.managing w.manager.tasks.length))
  | .managing call =>
    match w.manager.tasks[call]? with
    | some (.reconcile _ (.ended (.ok _))) => some (w.leaveReconcile cfg i (.ok ()))
    | some (.reconcile _ (.ended (.error error))) =>
      some (w.leaveReconcile cfg i (.error (.manager error)))
    | _ => none

/-- The step of the manager in which the call of a task is cancelled. -/
def cancelCall [DecidableEq Settings] (w : ServiceWorld Settings) (call : Nat) :
    Option (ServiceWorld Settings) :=
  (w.manager.step cfg.manager (.cancel call none)).map fun manager => { w with manager }

/-! ### `_start_impl` -/

/-- The exception handler of `_start_impl`, up to its `await`. -/
def rollBack (w : ServiceWorld Settings) (i : Nat) (error : ManagerError) :
    ServiceWorld Settings :=
  { w with
    acceptingReconcile := false
    manager := w.manager.spawn (.shutdown .entering) }.goto i
      (.startImpl (.rollingBack w.manager.tasks.length error))

/-- The last section of `_start_impl` that succeeds. -/
def finishStart (w : ServiceWorld Settings) (i : Nat) : ServiceWorld Settings :=
  { w with started := w.started || (w.acceptingReconcile && w.stopTask.isNone) }.goto i
    (.startImpl (.ended (.ok ())))

/-- `_start_impl` adds its job. -/
def schedule (w : ServiceWorld Settings) (i : Nat) : ServiceWorld Settings :=
  match w.scheduler with
  | none => w.finishStart i
  | some scheduler =>
    match scheduler.addJob "interval" jobId cfg.interval.val true w.tasks.length with
    | .error text => w.rollBack i (cfg.manager.error .scheduler none text)
    | .ok scheduler =>
      ({ w with scheduler := some scheduler, schedulerRegistered := true }.create
        (.job false .created)).finishStart i

/-- `_start_impl` at its `reconcile` or past it. -/
def afterReconcile (w : ServiceWorld Settings) (i : Nat) : ReconcileProgress → ServiceWorld Settings
  | .next place => w.goto i (.startImpl (.reconciling place))
  | .ended (.ok ()) =>
    if !w.acceptingReconcile then w.goto i (.startImpl (.ended (.ok ()))) else w.schedule cfg i
  | .ended (.error error) => w.rollBack i (error.wrap cfg.manager .internal)

/-- The next stretch of `_start_impl`. -/
def runStartImpl (w : ServiceWorld Settings) (i : Nat) (answer : Catalog Settings) :
    StartImplStage → Option (ServiceWorld Settings)
  | .reconciling place =>
    (w.continueReconcile cfg i answer place).map fun (w, progress) =>
      w.afterReconcile cfg i progress
  | .rollingBack call error =>
    match w.manager.tasks[call]? with
    | some (.shutdown (.ended (.error .cancelled))) =>
      some (w.goto i (.startImpl (.ended (.error .cancelled))))
    | some (.shutdown (.ended _)) =>
      let w := match error.failure cfg.manager with
        | some failure => { w with lastFailure := some failure }
        | none => w
      some (w.goto i (.startImpl (.ended (.error (.manager error)))))
    | _ => none
  | .created | .ended _ => none

/-! ### `_stop_impl` -/

/-- `_stop_impl` calls `shutdown` of the manager. -/
def shutDown (w : ServiceWorld Settings) (i : Nat) (failures : List OrchestrationFailure) :
    ServiceWorld Settings :=
  { w with manager := w.manager.spawn (.shutdown .entering) }.goto i
    (.stopImpl (.shuttingDown w.manager.tasks.length failures))

/-- `_stop_impl` after the removal of the job. -/
def gatherTasks (w : ServiceWorld Settings) (i : Nat) (tasks : List Nat) : ServiceWorld Settings :=
  if tasks = [] then w.shutDown i [] else w.goto i (.stopImpl (.gathering tasks))

/-- `job.task.cancel()`. A task that waits for the manager passes the cancellation on. -/
def cancelJob [DecidableEq Settings] (w : ServiceWorld Settings) (job : Nat) :
    ServiceWorld Settings :=
  match w.tasks[job]? with
  | some (.job _ .ended) => w
  | some (.job _ (.reconciling (.managing call))) =>
    ((w.cancelCall cfg call).getD w).goto job (.job true (.reconciling (.managing call)))
  | some (.job _ stage) => w.goto job (.job true stage)
  | _ => w

/-- `remove_job` of the scheduler, with the task that it waits for. -/
def removeScheduled [DecidableEq Settings] (w : ServiceWorld Settings) (id : String) :
    ServiceWorld Settings × Option Nat :=
  match w.scheduler with
  | none => (w, none)
  | some scheduler =>
    match scheduler.jobs.lookup id with
    | none => (w, none)
    | some job =>
      ({ w with scheduler := some { scheduler with jobs := scheduler.jobs.erase id } }.cancelJob
        cfg job, some job)

/-- `_stop_impl` after the start task is over, up to its next `await`. -/
def removeJob [DecidableEq Settings] (w : ServiceWorld Settings) (i : Nat) :
    ServiceWorld Settings :=
  let tasks := w.reconcileTasks
  if w.scheduler.isSome && w.schedulerRegistered then
    match w.removeScheduled cfg jobId with
    | (w, none) => { w with schedulerRegistered := false }.gatherTasks i tasks
    | (w, some job) => w.goto i (.stopImpl (.removing job tasks))
  else w.gatherTasks i tasks

/-- The task is over. -/
def done (w : ServiceWorld Settings) (i : Nat) : Bool :=
  (w.tasks[i]?.bind ServiceTask.result?).isSome

/-- The failures of the tracked tasks. -/
def gatheredFailures (w : ServiceWorld Settings) (tasks : List Nat) : List OrchestrationFailure :=
  tasks.filterMap fun i =>
    match w.tasks[i]?.bind ServiceTask.result? with
    | some (.error (.manager .cancelled)) => none
    | some (.error error) =>
      some ⟨.scheduler, cfg.manager.sanitizeError (error.text cfg.manager)⟩
    | _ => none

/-- The end of `_stop_impl`. -/
def finishStop (w : ServiceWorld Settings) (i : Nat) (failures : List OrchestrationFailure) :
    ServiceWorld Settings :=
  let w := { w with started := false }
  if failures = [] then w.goto i (.stopImpl (.ended (.ok ())))
  else
    let error := cfg.manager.error .shutdown none
      ("service shutdown completed with " ++ toString failures.length ++ " failure(s)")
    { w with lastFailure := error.failure cfg.manager }.goto i
      (.stopImpl (.ended (.error (.manager error))))

/-- The next stretch of `_stop_impl`. -/
def runStopImpl [DecidableEq Settings] (w : ServiceWorld Settings) (i : Nat) :
    StopImplStage → Option (ServiceWorld Settings)
  | .awaitingStart task => if w.done task then some (w.removeJob cfg i) else none
  | .removing job tasks =>
    if w.done job then some ({ w with schedulerRegistered := false }.gatherTasks i tasks) else none
  | .gathering tasks =>
    if tasks.all w.done then some (w.shutDown i (w.gatheredFailures cfg tasks)) else none
  | .shuttingDown call failures =>
    match w.manager.tasks[call]? with
    | some (.shutdown (.ended (.ok ()))) => some (w.finishStop cfg i failures)
    | some (.shutdown (.ended (.error .cancelled))) =>
      some (w.goto i (.stopImpl (.ended (.error .cancelled))))
    | some (.shutdown (.ended (.error error))) =>
      some (w.finishStop cfg i
        (failures ++ [⟨.shutdown, cfg.manager.sanitizeError (error.text cfg.manager)⟩]))
    | _ => none
  | .created | .ended _ => none

/-! ### The job -/

/-- `_run` at its callback or past it. An error of the callback is noted. -/
def afterCallback (w : ServiceWorld Settings) (i : Nat) (cancelled : Bool) :
    ReconcileProgress → ServiceWorld Settings
  | .next place => w.goto i (.job cancelled (.reconciling place))
  | .ended (.ok ()) => w.goto i (.job cancelled .sleeping)
  | .ended (.error (.manager .cancelled)) => w.goto i (.job cancelled .ended)
  | .ended (.error error) =>
    let text := cfg.manager.sanitizeError (error.text cfg.manager)
    let scheduler := w.scheduler.map fun s => { s with lastError := some text }
    { w with scheduler }.goto i (.job cancelled .sleeping)

/-- The next stretch of `_run`. -/
def runJob (w : ServiceWorld Settings) (i : Nat) (answer : Catalog Settings) (cancelled : Bool) :
    JobStage → Option (ServiceWorld Settings)
  | .sleeping =>
    if cancelled then some (w.goto i (.job cancelled .ended))
    else
      let (w, progress) := w.enterReconcile i
      some (w.afterCallback cfg i cancelled progress)
  | .reconciling place =>
    let answer := if cancelled then .error .cancelled else answer
    (w.continueReconcile cfg i answer place).map fun (w, progress) =>
      w.afterCallback cfg i cancelled progress
  | .created | .ended => none

/-! ### Callers -/

/-- A caller of `reconcile` at its next `await` or over. -/
def caller (w : ServiceWorld Settings) (i : Nat) : ReconcileProgress → ServiceWorld Settings
  | .next place => w.goto i (.reconcile (.reconciling place))
  | .ended result => w.goto i (.reconcile (.ended result))

/-- A call of `reconcile`, up to its first `await`. -/
def callReconcile (w : ServiceWorld Settings) : ServiceWorld Settings :=
  let i := w.tasks.length
  let (w, progress) := (w.spawn (.reconcile (.ended (.ok ())))).enterReconcile i
  w.caller i progress

/-- What `start` raises after `stop`. -/
def stopping : ServiceError :=
  .manager (cfg.manager.error .shutdown none "orchestration service is stopping")

/-- A call of `start`, up to its `await`. -/
def callStart (w : ServiceWorld Settings) : ServiceWorld Settings :=
  if w.stopTask.isSome then w.spawn (.start (.ended (.error (stopping cfg))))
  else if w.started then w.spawn (.start (.ended (.ok ())))
  else
    match w.startTask with
    | some task => w.spawn (.start (.awaiting task))
    | none =>
      { w with startTask := some w.tasks.length }.create (.startImpl .created)
        |>.spawn (.start (.awaiting w.tasks.length))

/-- The task of `stop`, which the first caller creates. -/
def ensureStop (w : ServiceWorld Settings) : ServiceWorld Settings × Nat :=
  match w.stopTask with
  | some task => (w, task)
  | none =>
    ({ w with stopTask := some w.tasks.length }.create (.stopImpl .created), w.tasks.length)

/-- A call of `stop`, up to its `await`. -/
def callStop (w : ServiceWorld Settings) : ServiceWorld Settings :=
  let (w, task) := w.ensureStop
  w.spawn (.stop (.awaiting task))

/-- A cancelled `start` creates the task of its cleanup. -/
def cleanStart (w : ServiceWorld Settings) (i : Nat) : ServiceWorld Settings :=
  (w.create (.stop .created)).goto i (.start (.cleaning w.tasks.length))

/-- The next stretch of a caller of `start`. The outcome of the cleanup is logged. -/
def runStart (w : ServiceWorld Settings) (i : Nat) : StartStage → Option (ServiceWorld Settings)
  | .awaiting task =>
    match w.tasks[task]?.bind ServiceTask.result? with
    | some (.error (.manager .cancelled)) => some (w.cleanStart i)
    | some result => some (w.goto i (.start (.ended result)))
    | none => none
  | .cleaning task =>
    if w.done task then some (w.goto i (.start (.ended (.error .cancelled)))) else none
  | .ended _ => none

/-- The next stretch of a caller of `stop`. -/
def runStop (w : ServiceWorld Settings) (i : Nat) : StopStage → Option (ServiceWorld Settings)
  | .awaiting task =>
    (w.tasks[task]?.bind ServiceTask.result?).map fun result => w.goto i (.stop (.ended result))
  | .created | .ended _ => none

/-- A call of `shutdown` of the scheduler. It creates a task for each job. -/
def callClose (w : ServiceWorld Settings) : ServiceWorld Settings :=
  match w.scheduler with
  | none => w
  | some scheduler =>
    if scheduler.closed then w.spawn (.close .ended)
    else
      let ids := scheduler.jobs.keys.reverse
      let scheduler := { scheduler with closed := true }
      let w := { w with scheduler := some scheduler }.spawn
        (.close (.gathering (List.range' (w.tasks.length + 1) ids.length)))
      ids.foldl (fun w id => w.create (.remove (.created id))) w

/-- The next stretch of `shutdown` of the scheduler. -/
def runClose (w : ServiceWorld Settings) (i : Nat) : CloseStage → Option (ServiceWorld Settings)
  | .gathering tasks => if tasks.all w.done then some (w.goto i (.close .ended)) else none
  | .ended => none

/-- The next stretch of a task of `remove_job`. -/
def runRemove (w : ServiceWorld Settings) (i : Nat) : RemoveStage → Option (ServiceWorld Settings)
  | .awaiting job => if w.done job then some (w.goto i (.remove .ended)) else none
  | .created _ | .ended => none

/-! ### Steps -/

/-- A created task begins. -/
def beginTask (w : ServiceWorld Settings) [DecidableEq Settings] (i : Nat) :
    ServiceTask → Option (ServiceWorld Settings)
  | .startImpl .created =>
    let (w, progress) := { w with acceptingReconcile := true }.enterReconcile i
    some (w.afterReconcile cfg i progress)
  | .stopImpl .created =>
    let w := { w with acceptingReconcile := false }
    match w.startTask with
    | some task => some (w.goto i (.stopImpl (.awaitingStart task)))
    | none => some (w.removeJob cfg i)
  | .stop .created =>
    let (w, task) := w.ensureStop
    some (w.goto i (.stop (.awaiting task)))
  | .job cancelled .created =>
    some (w.goto i (.job cancelled (if cancelled then .ended else .sleeping)))
  | .remove (.created id) =>
    match w.removeScheduled cfg id with
    | (w, none) => some (w.goto i (.remove .ended))
    | (w, some job) => some (w.goto i (.remove (.awaiting job)))
  | _ => none

/-- The next stretch of a task that has begun. -/
def runTask [DecidableEq Settings] (w : ServiceWorld Settings) (i : Nat)
    (answer : Catalog Settings) : ServiceTask → Option (ServiceWorld Settings)
  | .start stage => w.runStart i stage
  | .startImpl stage => w.runStartImpl cfg i answer stage
  | .reconcile (.reconciling place) =>
    (w.continueReconcile cfg i answer place).map fun (w, progress) => w.caller i progress
  | .reconcile (.ended _) => none
  | .stop stage => w.runStop i stage
  | .stopImpl stage => w.runStopImpl cfg i stage
  | .job cancelled stage => w.runJob cfg i answer cancelled stage
  | .remove stage => w.runRemove i stage
  | .close stage => w.runClose i stage

/-- A caller is cancelled. One that waits for the manager passes the cancellation on, and a `start`
that cleans up goes on. -/
def cancelTask [DecidableEq Settings] (w : ServiceWorld Settings) (i : Nat) :
    ServiceTask → Option (ServiceWorld Settings)
  | .start (.awaiting _) => some (w.cleanStart i)
  | .reconcile (.reconciling .reading) =>
    let (w, progress) := w.leaveReconcile cfg i (.error .cancelled)
    some (w.caller i progress)
  | .reconcile (.reconciling (.managing call)) => w.cancelCall cfg call
  | .stop (.awaiting _) => some (w.goto i (.stop (.ended (.error .cancelled))))
  | _ => none

/-- The manager steps that are not calls of the service: the calls of the routers, the tasks and
the workers, and the cancellation of an operation. -/
def outside (w : ManagerWorld Settings) : ManagerAct Settings → Bool
  | .reconcile _ | .shutdown => false
  | .cancel i _ =>
    match w.tasks[i]? with
    | some (.operation _ _) => true
    | _ => false
  | _ => true

/-- The step function. -/
def step [DecidableEq Settings] (w : ServiceWorld Settings) :
    ServiceAct Settings → Option (ServiceWorld Settings)
  | .start => some (w.callStart cfg)
  | .reconcile => some w.callReconcile
  | .stop => some w.callStop
  | .closeScheduler => some w.callClose
  | .begin =>
    match w.ready with
    | [] => none
    | i :: ready => w.tasks[i]?.bind ({ w with ready }.beginTask cfg i)
  | .run i answer => w.tasks[i]?.bind (w.runTask cfg i answer)
  | .cancel i => w.tasks[i]?.bind (w.cancelTask cfg i)
  | .manager act =>
    if outside w.manager act then
      (w.manager.step cfg.manager act).map fun manager => { w with manager }
    else none

end

/-- `runtime_status`. -/
def runtimeStatus (w : ServiceWorld Settings) : RuntimeStatus where
  running := w.started && w.stopTask.isNone
  acceptingReconcile := w.acceptingReconcile
  schedulerRegistered := w.schedulerRegistered
  reconcileInProgress := !w.reconcileTasks.isEmpty
  lastFailure := w.lastFailure

end ServiceWorld

def serviceMachine {Settings : Type} [DecidableEq Settings] (cfg : ServiceConfig)
    (scheduled : Bool) : Machine (ServiceWorld Settings) (ServiceAct Settings) where
  init := .new scheduled
  step := ServiceWorld.step cfg

end Rsap.Orchestration
