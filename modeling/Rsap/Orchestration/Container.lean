import Rsap.Orchestration.Service

/-!
# `Rsap.Orchestration.Container`: the lifetime of the desktop backend

`Container.start` and `Container.close` of `app/container.py` over the service. The tasks are the
callers of `start` and `close` and the shared task of `_close_impl`. The database and the client of
the central API are seen from outside: a call returns or raises. A call that was under way when the
database closed can still return.

`_close_impl` is a caller of `stop` and of `shutdown` of the scheduler. Nobody cancels its task, so
it waits for the task of `_stop_impl` to the end. A caller of `start` that is cancelled
while the service starts passes the cancellation on. A caller that cleans up waits for the close to
the end, also when it is cancelled again.

Nothing else calls `start`, `reconcile`, `stop` or `closeScheduler` of the service. The tasks of the
service, the job and the routers take their steps in between.
-/

set_option autoImplicit false

namespace Rsap.Orchestration

open Rsap.Library

/-- What `start` or `close` raises: what the service raises, or an exception of the database or of
the client. -/
abbrev ContainerError := ServiceError

/-- Where a caller of `start` is. -/
inductive ContainerStart where
  | migrating
  | verifying
  | starting (call : Nat)
  | cleaning (task : Nat) (error : ContainerError)
  | ended (result : Except ContainerError Unit)
  deriving DecidableEq

/-- Where a caller of `close` is. A cleanup task begins later. -/
inductive ContainerClose where
  | created
  | awaiting (task : Nat)
  | ended (result : Except ContainerError Unit)
  deriving DecidableEq

/-- Where `_close_impl` is, with the first error. -/
inductive CloseImplStage where
  | created
  | stopping (task : Nat)
  | closingScheduler (call : Nat) (error : Option ContainerError)
  | closingCentral (error : Option ContainerError)
  | ended (result : Except ContainerError Unit)
  deriving DecidableEq

inductive ContainerTask where
  | start (stage : ContainerStart)
  | close (stage : ContainerClose)
  | closeImpl (stage : CloseImplStage)
  deriving DecidableEq

/-- How the task ended. -/
def ContainerTask.result? : ContainerTask → Option (Except ContainerError Unit)
  | .start (.ended result) => some result
  | .close (.ended result) => some result
  | .closeImpl (.ended result) => some result
  | _ => none

structure ContainerWorld (Settings : Type) where
  service : ServiceWorld Settings
  started : Bool
  closeTask : Option Nat
  databaseClosed : Bool
  tasks : List ContainerTask
  deriving DecidableEq

/-- The steps: a call, the next stretch of a task, the cancellation of a caller, and a step of the
service. `raised` is what the database or the client raises, if the task waits for it. -/
inductive ContainerAct (Settings : Type) where
  | start
  | close
  | run (task : Nat) (raised : Option ContainerError)
  | cancel (task : Nat)
  | service (act : ServiceAct Settings)
  deriving DecidableEq

namespace ContainerWorld

variable {Settings : Type}

def new : ContainerWorld Settings := ⟨.new true, false, none, false, []⟩

/-- A task is at its next `await`. -/
def goto (w : ContainerWorld Settings) (i : Nat) (task : ContainerTask) :
    ContainerWorld Settings :=
  { w with tasks := w.tasks.set i task }

/-- A new task. -/
def spawn (w : ContainerWorld Settings) (task : ContainerTask) : ContainerWorld Settings :=
  { w with tasks := w.tasks ++ [task] }

section
variable (cfg : ServiceConfig)

/-- A call of `start`, up to its first `await`. -/
def callStart (w : ContainerWorld Settings) : ContainerWorld Settings :=
  if w.started then w.spawn (.start (.ended (.ok ()))) else w.spawn (.start .migrating)

/-- The task of `close`, which the first caller creates. -/
def ensureClose (w : ContainerWorld Settings) : ContainerWorld Settings × Nat :=
  match w.closeTask with
  | some task => (w, task)
  | none =>
    ({ w with closeTask := some w.tasks.length }.spawn (.closeImpl .created), w.tasks.length)

/-- A call of `close`, up to its `await`. -/
def callClose (w : ContainerWorld Settings) : ContainerWorld Settings :=
  let (w, task) := w.ensureClose
  w.spawn (.close (.awaiting task))

/-- A `start` that failed creates the task of its cleanup. -/
def cleanUp (w : ContainerWorld Settings) (i : Nat) (error : ContainerError) :
    ContainerWorld Settings :=
  (w.spawn (.close .created)).goto i (.start (.cleaning w.tasks.length error))

/-- What a `start` raises after its cleanup. The error of a cleanup replaces every error but a
cancellation. -/
def cleanedUp (error : ContainerError) (cleanup : Except ContainerError Unit) :
    Except ContainerError Unit :=
  match error, cleanup with
  | .manager .cancelled, _ => .error .cancelled
  | _, .error cleanup => .error cleanup
  | error, .ok () => .error error

/-- The next stretch of a caller of `start`. -/
def runStart [DecidableEq Settings] (w : ContainerWorld Settings) (i : Nat)
    (raised : Option ContainerError) : ContainerStart → Option (ContainerWorld Settings)
  | .migrating =>
    match raised with
    | some error => some (w.goto i (.start (.ended (.error error))))
    | none => some (w.goto i (.start .verifying))
  | .verifying =>
    match raised with
    | some error => some (w.goto i (.start (.ended (.error error))))
    | none =>
      let service := w.service.callStart cfg
      some ({ w with service }.goto i (.start (.starting (service.tasks.length - 1))))
  | .starting call =>
    match w.service.tasks[call]?.bind ServiceTask.result? with
    | some (.ok ()) => some ({ w with started := true }.goto i (.start (.ended (.ok ()))))
    | some (.error error) => some (w.cleanUp i error)
    | none => none
  | .cleaning task error =>
    (w.tasks[task]?.bind ContainerTask.result?).map fun cleanup =>
      w.goto i (.start (.ended (cleanedUp error cleanup)))
  | .ended _ => none

/-- The next stretch of a caller of `close`. -/
def runClose (w : ContainerWorld Settings) (i : Nat) :
    ContainerClose → Option (ContainerWorld Settings)
  | .created =>
    let (w, task) := w.ensureClose
    some (w.goto i (.close (.awaiting task)))
  | .awaiting task =>
    (w.tasks[task]?.bind ContainerTask.result?).map fun result =>
      w.goto i (.close (.ended result))
  | .ended _ => none

/-- The error of a call. -/
def raisedBy : Except ContainerError Unit → Option ContainerError
  | .ok () => none
  | .error error => some error

/-- The next stretch of `_close_impl`. -/
def runCloseImpl (w : ContainerWorld Settings) (i : Nat) (raised : Option ContainerError) :
    CloseImplStage → Option (ContainerWorld Settings)
  | .created =>
    some ({ w with service := w.service.callStop }.goto i
      (.closeImpl (.stopping w.service.ensureStop.2)))
  | .stopping task =>
    (w.service.tasks[task]?.bind ServiceTask.result?).map fun result =>
      { w with service := w.service.callClose }.goto i
        (.closeImpl (.closingScheduler w.service.tasks.length (raisedBy result)))
  | .closingScheduler call error =>
    (w.service.tasks[call]?.bind ServiceTask.result?).map fun result =>
      w.goto i (.closeImpl (.closingCentral (error <|> raisedBy result)))
  | .closingCentral error =>
    -- `close` of the database does not wait for anything
    let result := match error <|> raised with
      | some error => .error error
      | none => .ok ()
    some ({ w with databaseClosed := true, started := false }.goto i
      (.closeImpl (.ended result)))
  | .ended _ => none

/-- The next stretch of a task. -/
def runTask [DecidableEq Settings] (w : ContainerWorld Settings) (i : Nat)
    (raised : Option ContainerError) : ContainerTask → Option (ContainerWorld Settings)
  | .start stage => w.runStart cfg i raised stage
  | .close stage => w.runClose i stage
  | .closeImpl stage => w.runCloseImpl i raised stage

/-- A caller is cancelled. -/
def cancelTask [DecidableEq Settings] (w : ContainerWorld Settings) (i : Nat) :
    ContainerTask → Option (ContainerWorld Settings)
  | .start .migrating | .start .verifying =>
    some (w.goto i (.start (.ended (.error .cancelled))))
  | .start (.starting call) =>
    (w.service.step cfg (.cancel call)).map fun service => { w with service }
  | .close (.awaiting _) => some (w.goto i (.close (.ended (.error .cancelled))))
  | _ => none

/-- The steps of the service that are not calls of the container. -/
def inside : ServiceAct Settings → Bool
  | .begin | .run _ _ | .manager _ => true
  | .start | .reconcile | .stop | .closeScheduler | .cancel _ => false

/-- The step function. -/
def step [DecidableEq Settings] (w : ContainerWorld Settings) :
    ContainerAct Settings → Option (ContainerWorld Settings)
  | .start => some w.callStart
  | .close => some w.callClose
  | .run i raised => w.tasks[i]?.bind (w.runTask cfg i raised)
  | .cancel i => w.tasks[i]?.bind (w.cancelTask cfg i)
  | .service act =>
    if inside act then (w.service.step cfg act).map fun service => { w with service } else none

end

end ContainerWorld

def containerMachine {Settings : Type} [DecidableEq Settings] (cfg : ServiceConfig) :
    Machine (ContainerWorld Settings) (ContainerAct Settings) where
  init := .new
  step := ContainerWorld.step cfg

end Rsap.Orchestration
