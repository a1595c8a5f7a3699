import Rsap.Orchestration.Container
import Rsap.Proofs.ServiceStop

/-!
# `Rsap.Proofs.ContainerClose`: nothing of the orchestration outlives the database

`_close_impl` closes the database after it has waited for the task of `_stop_impl`, so the service
is over by then (`CloseHolds`), and `service_final` says what that means. A step of the container is
at most one step of the service.
-/

set_option autoImplicit false

namespace Rsap.Proofs

open Rsap.Library
open Rsap.Library.Machine (Reachable Path Any)
open Rsap.Orchestration

section
variable {Settings : Type} [DecidableEq Settings] {cfg : ServiceConfig}
  {w w' : ContainerWorld Settings}

/-- What `_close_impl` can rely on. -/
def CloseHolds (service : ServiceWorld Settings) : CloseImplStage → Prop
  | .created => True
  | .stopping task => service.stopTask = some task
  | .closingScheduler _ _ | .closingCentral _ | .ended _ => ServiceOver service

/-- What holds of every reachable state of the container. -/
structure ContainerHeld (cfg : ServiceConfig) (w : ContainerWorld Settings) : Prop where
  service : Reachable (serviceMachine cfg true) Any w.service
  closed : w.databaseClosed = true → ServiceOver w.service
  closing : ∀ (i : Nat) stage, w.tasks[i]? = some (.closeImpl stage) → CloseHolds w.service stage

/-- A step of the service keeps its shared task, and a service that is over stays so. -/
theorem service_kept {s s' : ServiceWorld Settings} (hs : ServiceHeld cfg s)
    (h : MoveRun cfg s s') :
    (∀ t, s.stopTask = some t → s'.stopTask = some t) ∧ (ServiceOver s → ServiceOver s') := by
  induction h with
  | refl => exact ⟨fun _ h => h, id⟩
  | tail hrun hmove ih =>
    have hstable := hmove.stable (MoveRun.held hs hrun)
    exact ⟨fun t ht => hstable.stopTask t (ih.1 t ht), fun hover => hmove.stays (ih.2 hover)⟩

/-- How a step changes the service: not at all, or by a step of its own. -/
inductive ServiceStep (cfg : ServiceConfig) (s : ServiceWorld Settings) :
    ServiceWorld Settings → Prop where
  | same : ServiceStep cfg s s
  | step (act : ServiceAct Settings) {s' : ServiceWorld Settings} :
      s.step cfg act = some s' → ServiceStep cfg s s'

/-- A step of the service inside the container is a run of the service. -/
theorem ServiceStep.path {s s' : ServiceWorld Settings} (h : ServiceStep cfg s s') :
    Path (serviceMachine cfg true) Any s s' := by
  cases h with
  | same => exact .refl
  | step act hstep => exact .step _ .refl trivial hstep

/-- It is a run of moves. -/
theorem ServiceStep.moves {s s' : ServiceWorld Settings} (hs : ServiceHeld cfg s)
    (h : ServiceStep cfg s s') : MoveRun cfg s s' := by
  cases h with
  | same => exact .refl
  | step act hstep => exact step_moves hs hstep

/-- What a step of the container does to the service and to the tasks of `_close_impl`. -/
structure ContainerStep (cfg : ServiceConfig) (w w' : ContainerWorld Settings) : Prop where
  service : ServiceStep cfg w.service w'.service
  closed : w'.databaseClosed = w.databaseClosed ∨ w'.databaseClosed = true ∧ ServiceOver w.service
  closing : ∀ (i : Nat) stage, w'.tasks[i]? = some (.closeImpl stage) →
    w.tasks[i]? = some (.closeImpl stage) ∨ CloseHolds w'.service stage

/-- A step that changes one task, which is not that of `_close_impl` or can rely on its stage. -/
theorem step_set {tasks : List ContainerTask} {i : Nat} {t' : ContainerTask}
    (hservice : ServiceStep cfg w.service w'.service)
    (hclosed : w'.databaseClosed = w.databaseClosed ∨
      w'.databaseClosed = true ∧ ServiceOver w.service)
    (htasks : w'.tasks = tasks.set i t')
    (hold : ∀ (j : Nat) stage, tasks[j]? = some (.closeImpl stage) →
      w.tasks[j]? = some (.closeImpl stage) ∨ CloseHolds w'.service stage)
    (ht : ∀ stage, t' = .closeImpl stage → CloseHolds w'.service stage) :
    ContainerStep cfg w w' where
  service := hservice
  closed := hclosed
  closing j stage hj := by
    rw [htasks] at hj
    rcases lookup_set hj with hbefore | ⟨-, hnew⟩
    · exact hold j stage hbefore
    · exact .inr (ht stage hnew.symm)

omit [DecidableEq Settings] in
/-- The tasks after one was created. -/
theorem closing_append {tasks : List ContainerTask} {t : ContainerTask}
    {service : ServiceWorld Settings}
    (ht : ∀ stage, t = .closeImpl stage → CloseHolds service stage) (j : Nat)
    (stage : CloseImplStage) (hj : (tasks ++ [t])[j]? = some (.closeImpl stage)) :
    tasks[j]? = some (.closeImpl stage) ∨ CloseHolds service stage := by
  rcases lookup_append hj with hbefore | ⟨-, hnew⟩
  · exact .inl hbefore
  · exact .inr (ht stage hnew.symm)

omit [DecidableEq Settings] in
/-- The task of `_close_impl` was there before, or begins now with all that it relies on. -/
theorem ensureClose_closing (w : ContainerWorld Settings) (j : Nat) (stage : CloseImplStage)
    (hj : w.ensureClose.1.tasks[j]? = some (.closeImpl stage)) :
    w.tasks[j]? = some (.closeImpl stage) ∨ CloseHolds w.service stage := by
  unfold ContainerWorld.ensureClose at hj
  split at hj
  · exact .inl hj
  · refine closing_append ?_ j stage hj
    intro stage h
    cases h
    trivial

omit [DecidableEq Settings] in
/-- Creating it touches neither the service nor the database. -/
theorem ensureClose_service (w : ContainerWorld Settings) :
    w.ensureClose.1.service = w.service ∧ w.ensureClose.1.databaseClosed = w.databaseClosed := by
  unfold ContainerWorld.ensureClose
  split <;> exact ⟨rfl, rfl⟩

/-- A step that leaves the service alone and changes a task that is not that of `_close_impl`. -/
theorem step_caller {tasks : List ContainerTask} {i : Nat} {t : ContainerTask}
    (hservice : w'.service = w.service) (hclosed : w'.databaseClosed = w.databaseClosed)
    (htasks : w'.tasks = tasks.set i t)
    (hold : ∀ (j : Nat) stage, tasks[j]? = some (.closeImpl stage) →
      w.tasks[j]? = some (.closeImpl stage) ∨ CloseHolds w'.service stage)
    (ht : ∀ stage, t ≠ .closeImpl stage) : ContainerStep cfg w w' :=
  step_set (by rw [hservice]; exact .same) (.inl hclosed) htasks hold
    fun stage h => absurd h (ht stage)

/-- The next stretch of a caller of `start`. -/
theorem start_step {i : Nat} {raised : Option ContainerError} {stage : ContainerStart}
    (h : w.runStart cfg i raised stage = some w') : ContainerStep cfg w w' := by
  cases stage with
  | migrating =>
    cases raised <;> cases h <;>
      exact step_caller rfl rfl rfl (fun _ _ h => .inl h) fun _ h => by cases h
  | verifying =>
    cases raised with
    | some error =>
      cases h
      exact step_caller rfl rfl rfl (fun _ _ h => .inl h) fun _ h => by cases h
    | none =>
      cases h
      exact step_set (.step .start rfl) (.inl rfl) rfl (fun _ _ h => .inl h)
        fun _ h => by cases h
  | starting call =>
    simp only [ContainerWorld.runStart] at h
    split at h
    · cases h
      exact step_caller rfl rfl rfl (fun _ _ h => .inl h) fun _ h => by cases h
    · cases h
      refine step_caller rfl rfl rfl (closing_append fun _ h => ?_) fun _ h => by cases h
      cases h
    · cases h
  | cleaning task error =>
    obtain ⟨cleanup, -, rfl⟩ := Option.map_eq_some_iff.mp h
    exact step_caller rfl rfl rfl (fun _ _ h => .inl h) fun _ h => by cases h
  | ended result => cases h

/-- The next stretch of a caller of `close`. -/
theorem close_step {i : Nat} {stage : ContainerClose} (h : w.runClose i stage = some w') :
    ContainerStep cfg w w' := by
  cases stage with
  | created =>
    cases h
    exact step_caller (ensureClose_service w).1 (ensureClose_service w).2 rfl
      (fun j stage hj => by
        have := ensureClose_closing w j stage hj
        rwa [← (ensureClose_service w).1] at this) fun _ h => by cases h
  | awaiting task =>
    obtain ⟨result, -, rfl⟩ := Option.map_eq_some_iff.mp h
    exact step_caller rfl rfl rfl (fun _ _ h => .inl h) fun _ h => by cases h
  | ended result => cases h

/-- The next stretch of `_close_impl`. It goes on when the task of `_stop_impl` is over. -/
theorem closeImpl_step (hheld : ContainerHeld cfg w) {i : Nat} {raised : Option ContainerError}
    {stage : CloseImplStage} (ht : w.tasks[i]? = some (.closeImpl stage))
    (h : w.runCloseImpl i raised stage = some w') : ContainerStep cfg w w' := by
  have hholds := hheld.closing i stage ht
  cases stage with
  | created =>
    cases h
    refine step_set (.step .stop rfl) (.inl rfl) rfl (fun _ _ h => .inl h) ?_
    intro stage h
    cases h
    exact ensureStop_task w.service
  | stopping task =>
    obtain ⟨result, hresult, rfl⟩ := Option.map_eq_some_iff.mp h
    have hservice := reachable_service hheld.service
    obtain ⟨stage, hstop⟩ := hservice.stopping task hholds
    -- `_close_impl` waits for the task of `_stop_impl` and not for its caller
    rw [hstop] at hresult
    have hover : ServiceOver w.service := by
      cases stage with
      | ended result => exact .inl ⟨task, result, hstop⟩
      | created | awaitingStart | removing | gathering | shuttingDown => cases hresult
    have hstep : ServiceStep cfg w.service w.service.callClose := .step .closeScheduler rfl
    refine step_set hstep (.inl rfl) rfl (fun _ _ h => .inl h) ?_
    intro stage h
    cases h
    exact (service_kept hservice (hstep.moves hservice)).2 hover
  | closingScheduler call error =>
    obtain ⟨result, -, rfl⟩ := Option.map_eq_some_iff.mp h
    refine step_set .same (.inl rfl) rfl (fun _ _ h => .inl h) ?_
    intro stage h
    cases h
    exact hholds
  | closingCentral error =>
    cases h
    refine step_set .same (.inr ⟨rfl, hholds⟩) rfl (fun _ _ h => .inl h) ?_
    intro stage h
    cases h
    exact hholds
  | ended result => cases h

/-- A caller is cancelled. -/
theorem cancel_step {i : Nat} {t : ContainerTask} (h : w.cancelTask cfg i t = some w') :
    ContainerStep cfg w w' := by
  cases t with
  | start stage =>
    cases stage with
    | migrating | verifying =>
      cases h
      exact step_caller rfl rfl rfl (fun _ _ h => .inl h) fun _ h => by cases h
    | starting call =>
      obtain ⟨service, hstep, rfl⟩ := Option.map_eq_some_iff.mp h
      exact ⟨.step _ hstep, (.inl rfl), fun _ _ h => .inl h⟩
    | cleaning | ended => cases h
  | close stage =>
    cases stage with
    | awaiting task =>
      cases h
      exact step_caller rfl rfl rfl (fun _ _ h => .inl h) fun _ h => by cases h
    | created | ended => cases h
  | closeImpl stage => cases h

/-- A closed database is not opened again. -/
theorem ContainerStep.stays (h : ContainerStep cfg w w') (hclosed : w.databaseClosed = true) :
    w'.databaseClosed = true :=
  h.closed.elim (fun heq => heq.trans hclosed) And.left

/-- What a step of the container does. -/
theorem container_step (hheld : ContainerHeld cfg w) {act : ContainerAct Settings}
    (h : w.step cfg act = some w') : ContainerStep cfg w w' := by
  cases act with
  | start =>
    cases h
    unfold ContainerWorld.callStart
    split
    all_goals
      refine ⟨.same, .inl rfl, closing_append fun _ h => ?_⟩
      cases h
  -- the call spawns the shared task if it is the first
  | close =>
    cases h
    obtain ⟨hservice, hclosed⟩ := ensureClose_service w
    refine ⟨?_, (.inl hclosed), fun j stage hj => ?_⟩
    · change ServiceStep cfg w.service w.ensureClose.1.service
      rw [hservice]
      exact .same
    · change _ ∨ CloseHolds w.ensureClose.1.service stage
      rw [hservice]
      refine (closing_append (fun _ h => ?_) j stage hj).elim (ensureClose_closing w j stage) .inr
      cases h
  | run i raised =>
    obtain ⟨t, ht, hrun⟩ := Option.bind_eq_some_iff.mp h
    cases t with
    | start stage => exact start_step hrun
    | close stage => exact close_step hrun
    | closeImpl stage => exact closeImpl_step hheld ht hrun
  -- a cancelled caller leaves the shared task alone
  | cancel i =>
    obtain ⟨t, -, hcancel⟩ := Option.bind_eq_some_iff.mp h
    exact cancel_step hcancel
  | service act =>
    simp only [ContainerWorld.step] at h
    split at h
    · obtain ⟨service, hstep, rfl⟩ := Option.map_eq_some_iff.mp h
      exact ⟨.step _ hstep, (.inl rfl), fun _ _ h => .inl h⟩
    · cases h

/-- A later state of the service keeps what `_close_impl` relies on. -/
theorem closeHolds_kept {s s' : ServiceWorld Settings} (hs : ServiceHeld cfg s)
    (h : ServiceStep cfg s s') {stage : CloseImplStage} (hstage : CloseHolds s stage) :
    CloseHolds s' stage := by
  have hkept := service_kept hs (h.moves hs)
  cases stage with
  | created => trivial
  | stopping task => exact hkept.1 task hstage
  | closingScheduler | closingCentral | ended => exact hkept.2 hstage

/-- Every step of the container keeps the invariant. -/
theorem ContainerStep.held (h : ContainerStep cfg w w') (hheld : ContainerHeld cfg w) :
    ContainerHeld cfg w' where
  service := hheld.service.path h.service.path
  closed hclosed := by
    have hservice := reachable_service hheld.service
    exact (service_kept hservice (h.service.moves hservice)).2
      (h.closed.elim (fun heq => hheld.closed (heq ▸ hclosed)) And.right)
  closing i stage ht := by
    rcases h.closing i stage ht with hold | hholds
    · exact closeHolds_kept (reachable_service hheld.service) h.service (hheld.closing i stage hold)
    · exact hholds

/-- The invariant holds in every reachable state. -/
theorem reachable_container (h : Reachable (containerMachine cfg) Any w) : ContainerHeld cfg w :=
  h.invariant (I := ContainerHeld cfg)
    ⟨.init, (fun h => by cases h), fun i stage h => by cases h⟩
    fun _ _ _ _ _ hstep hheld => (container_step hheld hstep).held hheld

/-- A later state of the container, with what it did to the service. -/
structure ClosedSince (cfg : ServiceConfig) (w w' : ContainerWorld Settings) : Prop where
  held : ContainerHeld cfg w'
  closed : w'.databaseClosed = true
  path : Path (serviceMachine cfg true) Any w.service w'.service

/-- Nothing of the orchestration outlives the database, however the calls of `start` and `close`,
their cancellations, the job, the routers, the workers and the errors of the database and the client
interleave. Once `_close_impl` has closed the database, and at any later time, it stays closed, no
reconciliation runs, the catalog is not read, no job is scheduled, no worker is registered, live or
created, and the service reports that it does not run. -/
theorem container_final (h : Reachable (containerMachine cfg) Any w)
    (hclosed : w.databaseClosed = true) (hpath : Path (containerMachine cfg) Any w w') :
    w'.databaseClosed = true ∧
    (∀ (i : Nat) t, w'.service.tasks[i]? = some t → t.place? = none) ∧
    w'.service.catalogReads = w.service.catalogReads ∧
    (∀ s, w'.service.scheduler = some s → jobId ∉ s.jobs) ∧
    (∀ c, c ∉ w'.service.manager.registry.workers) ∧
    (∀ v ∈ w'.service.manager.registry.objects, v.live = false) ∧
    w'.service.manager.registry.objects.length = w.service.manager.registry.objects.length ∧
    w'.service.runtimeStatus = ⟨false, false, false, false, w'.service.lastFailure⟩ := by
  have hheld := reachable_container h
  have hsince : ClosedSince cfg w w' :=
    hpath.invariant (I := ClosedSince cfg w) ⟨hheld, hclosed, .refl⟩ fun _ _ _ _ hstep hs =>
      have hstep := container_step hs.held hstep
      ⟨hstep.held hs.held, hstep.stays hs.closed, hs.path.trans hstep.service.path⟩
  obtain ⟨hplaces, -, hreads, hjobs, hworkers, hlive, hcount, hstatus⟩ :=
    service_final hheld.service (hheld.closed hclosed) hsince.path
  exact ⟨hsince.closed, hplaces, hreads, hjobs, hworkers, hlive, hcount, hstatus⟩

end

/-- Two callers start the container, and its service runs as in `startedRun`. The second caller
still verifies the database. -/
def startedContainerRun : List (ContainerAct Nat) :=
  [.start, .start, .run 0 none, .run 1 none, .run 0 none] ++ (startedRun.drop 1).map .service ++
    [.run 0 none]

/-- The container is closed while the job reads. The client raises. -/
def closingRun : List (ContainerAct Nat) :=
  [.close, .run 2 none] ++ (stoppingRun.drop 1).map .service ++
    [.run 2 none, .service (.run 5 (.ok [])), .run 2 none, .run 2 (some (.other "client")),
      .run 3 none]

def halfMinuteContainer : Machine (ContainerWorld Nat) (ContainerAct Nat) :=
  containerMachine everyHalfMinute

def closedContainer : ContainerWorld Nat :=
  halfMinuteContainer.final halfMinuteContainer.init (startedContainerRun ++ closingRun)

/-- The closed container is reached by its run. -/
theorem closedContainer_reachable : Reachable halfMinuteContainer Any closedContainer :=
  Reachable.init.final (startedContainerRun ++ closingRun) (by decide +kernel)

/-- The second caller goes on, too late. The service refuses it, and its cleanup raises what the
close raised. -/
def lateStart : List (ContainerAct Nat) :=
  [.run 1 none, .run 1 none, .run 4 none, .run 4 none, .run 1 none]

/-- In the closed container a late `start` raises, and nothing is read or registered. -/
theorem closedContainer_final :
    closedContainer.tasks[3]? = some (.close (.ended (.error (.other "client")))) ∧
      closedContainer.service.catalogReads = 2 ∧
      (halfMinuteContainer.final closedContainer lateStart).tasks[1]? =
        some (.start (.ended (.error (.other "client")))) ∧
      (halfMinuteContainer.final closedContainer lateStart).service.catalogReads = 2 ∧
      ∀ c, c ∉ (halfMinuteContainer.final closedContainer
        lateStart).service.manager.registry.workers := by
  obtain ⟨-, -, hreads, -, hworkers, -⟩ := container_final closedContainer_reachable
    (by decide +kernel) (Machine.Path.final .refl lateStart (by decide +kernel))
  exact ⟨by decide +kernel, by decide +kernel, by decide +kernel,
    hreads.trans (by decide +kernel), hworkers⟩

end Rsap.Proofs
