import Mathlib.Logic.Relation
import Rsap.Proofs.ServiceMoves

/-!
# `Rsap.Proofs.ServiceStop`: a stop of the service is final

Every step of the service is a run of moves (`step_moves`), so `ServiceHeld` holds of every
reachable state. Once `_stop_impl` is over, or `_start_impl` failed, the service is `Silent`, and it
stays so. The manager is shut down by then, and a manager that is shut down has no worker any more
(`shutdown_final`).
-/

set_option autoImplicit false

namespace Rsap.Proofs

open Rsap.Library
open Rsap.Library.Machine (Reachable Path Any)
open Rsap.Orchestration
open Relation (ReflTransGen)

section
variable {Settings : Type} [DecidableEq Settings] {cfg : ServiceConfig}
  {w w' : ServiceWorld Settings}

/-- A run of moves. -/
abbrev MoveRun (cfg : ServiceConfig) : ServiceWorld Settings → ServiceWorld Settings → Prop :=
  ReflTransGen (Move cfg)

/-- What holds of the service holds after a run of moves. -/
theorem MoveRun.held (hheld : ServiceHeld cfg w) (h : MoveRun cfg w w') : ServiceHeld cfg w' := by
  induction h with
  | refl => exact hheld
  | tail _ hmove ih => exact hmove.held ih

/-! ### `reconcile` -/

omit [DecidableEq Settings] in
/-- What `reconcile` leaves behind. -/
theorem leave_eq (cfg : ServiceConfig) (w : ServiceWorld Settings) (i : Nat)
    (result : Except ServiceError Unit) : ∃ failure result', w.leaveReconcile cfg i result =
      ({ w with
        reconcileLock := false
        reconcileTasks := w.reconcileTasks.erase i
        lastFailure := failure }, .ended result') := by
  unfold ServiceWorld.leaveReconcile
  split <;> exact ⟨_, _, rfl⟩

omit [DecidableEq Settings] in
/-- A stretch of `reconcile`: it calls the manager, or it leaves. -/
theorem continue_cases {i : Nat} {answer : Catalog Settings} {place : ReconcilePlace}
    {next : ServiceWorld Settings × ReconcileProgress}
    (h : w.continueReconcile cfg i answer place = some next) :
    (place = .reading ∧ ∃ desired, next =
      ({ w with manager := w.manager.callReconcile cfg.manager desired },
        .next (.managing w.manager.tasks.length))) ∨
    (∃ failure result, next =
      ({ w with
        reconcileLock := false
        reconcileTasks := w.reconcileTasks.erase i
        lastFailure := failure }, .ended result)) ∧
      ∀ call, place = .managing call → ∃ desired result,
        w.manager.tasks[call]? = some (.reconcile desired (.ended result)) := by
  cases place with
  -- the read of the desired cameras answers, and then the manager is called
  | reading =>
    cases answer with
    | error error =>
      obtain ⟨failure, result, heq⟩ := leave_eq cfg w i (.error error)
      simp only [ServiceWorld.continueReconcile, heq, Option.some.injEq] at h
      exact .inr ⟨⟨failure, result, h.symm⟩, fun call h => by cases h⟩
    | ok desired =>
      simp only [ServiceWorld.continueReconcile] at h
      -- without cameras to manage the section ends
      split at h
      · obtain ⟨failure, result, heq⟩ := leave_eq cfg w i (.ok ())
        simp only [heq, Option.some.injEq] at h
        exact .inr ⟨⟨failure, result, h.symm⟩, fun call h => by cases h⟩
      · cases h
        exact .inl ⟨rfl, desired, rfl⟩
  -- the call of the manager has to be over, with statuses or with an error
  | managing call =>
    simp only [ServiceWorld.continueReconcile] at h
    split at h
    · rename_i desired statuses hover
      obtain ⟨failure, result, heq⟩ := leave_eq cfg w i (.ok ())
      simp only [heq, Option.some.injEq] at h
      refine .inr ⟨⟨failure, result, h.symm⟩, fun call' h => ?_⟩
      cases h
      exact ⟨_, _, hover⟩
    · rename_i desired error hover
      obtain ⟨failure, result, heq⟩ := leave_eq cfg w i (.error (.manager error))
      simp only [heq, Option.some.injEq] at h
      refine .inr ⟨⟨failure, result, h.symm⟩, fun call' h => ?_⟩
      cases h
      exact ⟨_, _, hover⟩
    · cases h

omit [DecidableEq Settings] in
/-- `reconcile` is skipped, or it reads the catalog. -/
theorem enter_cases (w : ServiceWorld Settings) (i : Nat) :
    w.enterReconcile i = (w, .ended (.ok ())) ∨
    w.acceptingReconcile = true ∧ w.reconcileLock = false ∧ w.enterReconcile i =
      ({ w with
        reconcileTasks := i :: w.reconcileTasks
        reconcileLock := true
        catalogReads := w.catalogReads + 1 }, .next .reading) := by
  unfold ServiceWorld.enterReconcile
  split
  · exact .inl rfl
  · rename_i haccepting
    split
    · exact .inl rfl
    · rename_i hlock
      exact .inr ⟨by simpa using haccepting, by simpa using hlock, rfl⟩

/-! ### `_start_impl` -/

/-- The manager is called for `shutdown`. -/
theorem shutdown_move (cfg : ServiceConfig) (w : ServiceWorld Settings) :
    Move cfg w { w with manager := w.manager.spawn (.shutdown .entering) } ∧
      Called { w with manager := w.manager.spawn (.shutdown .entering) }
        w.manager.tasks.length := by
  constructor
  · exact .manager spawn_goesOn (.step .shutdown .refl trivial rfl)
  · exact ⟨.entering, List.getElem?_concat_length⟩

/-- `_start_impl` rolls back out of `reconcile`. -/
theorem rollBack_moves {i : Nat} {place : ReconcilePlace} {error : ManagerError}
    {failure : Option OrchestrationFailure}
    (ht : w.tasks[i]? = some (.startImpl (.reconciling place)))
    (hover : ∀ call, place = .managing call → ∃ desired result,
      w.manager.tasks[call]? = some (.reconcile desired (.ended result))) :
    MoveRun cfg w ({ w with
      reconcileLock := false
      reconcileTasks := w.reconcileTasks.erase i
      lastFailure := failure }.rollBack i error) := by
  have hcall := shutdown_move cfg { w with acceptingReconcile := false }
  -- `Move.left` is last: it needs a service that refuses and a call that was made
  refine .head .refuse (.head hcall.1 (.single ?_))
  refine Move.left (t := .startImpl (.reconciling place)) ht rfl rfl
    (.inr ⟨id, .rollingBack hcall.2 rfl⟩) fun call hplace => ?_
  obtain ⟨desired, result, hended⟩ := hover call hplace
  exact ⟨desired, result,
    (List.getElem?_append_left (List.getElem?_eq_some_iff.mp hended).1).trans hended⟩

/-- `_start_impl` ends. -/
theorem finishStart_move {i : Nat} (ht : w.tasks[i]? = some (.startImpl (.ended (.ok ())))) :
    Move cfg w (w.finishStart i) := by
  have hset : w.tasks.set i (.startImpl (.ended (.ok ()))) = w.tasks := by
    obtain ⟨hlt, heq⟩ := List.getElem?_eq_some_iff.mp ht
    rw [← heq, List.set_getElem_self]
  have hfinish : w.finishStart i =
      { w with started := w.started || (w.acceptingReconcile && w.stopTask.isNone) } := by
    simp only [ServiceWorld.finishStart, ServiceWorld.goto, hset]
  rw [hfinish]
  refine .note _ _ fun hstarted => ?_
  rcases Bool.or_eq_true_iff.mp hstarted with h | h
  · exact .inl h
  · exact .inr ⟨Option.isNone_iff_eq_none.mp (Bool.and_eq_true_iff.mp h).2, i, ht⟩

omit [DecidableEq Settings] in
/-- `add_job` that succeeds adds the job. -/
theorem addJob_eq {s s' : PeriodicScheduler} {trigger id : String} {seconds : ℚ}
    {replaceExisting : Bool} {task : Nat}
    (h : s.addJob trigger id seconds replaceExisting task = .ok s') :
    s' = { s with jobs := s.jobs.insert id task } := by
  unfold PeriodicScheduler.addJob at h
  split at h
  · cases h
  · split at h
    · cases h
    · split at h
      · cases h
      · split at h
        · split at h <;> cases h
        · cases h
          rfl

omit [DecidableEq Settings] in
/-- The task of `_start_impl` may be over already when it ends. -/
theorem finishStart_goto (v : ServiceWorld Settings) (i : Nat) :
    v.finishStart i = (v.goto i (.startImpl (.ended (.ok ())))).finishStart i := by
  simp [ServiceWorld.finishStart, ServiceWorld.goto]

omit [DecidableEq Settings] in
/-- `_start_impl` can be said to end before it adds its job: the two writes are to different
tasks. -/
theorem finishStart_create (v : ServiceWorld Settings) {i : Nat} (hlt : i < v.tasks.length)
    (scheduler : Option PeriodicScheduler) :
    ({ v with scheduler, schedulerRegistered := true }.create (.job false .created)).finishStart i =
      ({ v.goto i (.startImpl (.ended (.ok ()))) with
        scheduler, schedulerRegistered := true }.create (.job false .created)).finishStart i := by
  simp [ServiceWorld.finishStart, ServiceWorld.goto, ServiceWorld.create, hlt]

/-- `_start_impl` adds its job and ends. -/
theorem addJob_moves (v : ServiceWorld Settings) {i : Nat} {s : PeriodicScheduler}
    (hlt : i < v.tasks.length) (haccepting : v.acceptingReconcile = true)
    (hscheduler : v.scheduler = some s) :
    MoveRun cfg (v.goto i (.startImpl (.ended (.ok ()))))
      (({ v with
        scheduler := some { s with jobs := s.jobs.insert jobId v.tasks.length }
        schedulerRegistered := true }.create (.job false .created)).finishStart i) := by
  have hended : (v.goto i (.startImpl (.ended (.ok ())))).tasks[i]? =
      some (.startImpl (.ended (.ok ()))) := by
    rw [ServiceWorld.goto, List.getElem?_set_self hlt]
  have hscheduled : Move cfg _ _ := .scheduled hended haccepting hscheduler
  -- the task is over from the first move on, and its own end in `finishStart` changes nothing
  rw [finishStart_create v hlt]
  rw [show (v.goto i (.startImpl (.ended (.ok ())))).tasks.length = v.tasks.length by
    simp [ServiceWorld.goto]] at hscheduled
  refine .head hscheduled (.single (finishStart_move ?_))
  exact (List.getElem?_append_left (List.getElem?_eq_some_iff.mp hended).1).trans hended

/-- `_start_impl` adds its job after it left `reconcile`. -/
theorem schedule_moves {i : Nat} {place : ReconcilePlace} {failure : Option OrchestrationFailure}
    (ht : w.tasks[i]? = some (.startImpl (.reconciling place)))
    (haccepting : w.acceptingReconcile = true)
    (hover : ∀ call, place = .managing call → ∃ desired result,
      w.manager.tasks[call]? = some (.reconcile desired (.ended result))) :
    MoveRun cfg w ({ w with
      reconcileLock := false
      reconcileTasks := w.reconcileTasks.erase i
      lastFailure := failure }.schedule cfg i) := by
  have hlt := (List.getElem?_eq_some_iff.mp ht).1
  have hleft : Move cfg w ({ w with
      reconcileLock := false
      reconcileTasks := w.reconcileTasks.erase i
      lastFailure := failure }.goto i (.startImpl (.ended (.ok ())))) :=
    .left ht rfl rfl (.inr ⟨id, .done⟩) hover
  have hended : (w.tasks.set i (.startImpl (.ended (.ok ()))))[i]? =
      some (.startImpl (.ended (.ok ()))) := by
    rw [List.getElem?_set_self hlt]
  unfold ServiceWorld.schedule
  -- without a scheduler, with an `add_job` that raises, and with one that succeeds
  split
  · rw [finishStart_goto]
    exact .head hleft (.single (finishStart_move hended))
  · rename_i s hscheduler
    split
    · exact rollBack_moves ht hover
    · rename_i s' hadd
      rw [addJob_eq hadd]
      exact .head hleft (addJob_moves _ hlt haccepting hscheduler)

/-- A stretch of `_start_impl` in `reconcile`. -/
theorem starting_moves {i : Nat} {place : ReconcilePlace} {answer : Catalog Settings}
    (ht : w.tasks[i]? = some (.startImpl (.reconciling place)))
    (h : w.runStartImpl cfg i answer (.reconciling place) = some w') : MoveRun cfg w w' := by
  obtain ⟨next, hnext, rfl⟩ := Option.map_eq_some_iff.mp h
  rcases continue_cases hnext with ⟨rfl, desired, rfl⟩ | ⟨⟨failure, result, rfl⟩, hover⟩
  · exact .single (.called ht (.inr ⟨_, _, rfl, rfl, .inr ⟨_, rfl⟩⟩) rfl rfl)
  · cases result with
    | error error => exact rollBack_moves ht hover
    | ok =>
      simp only [ServiceWorld.afterReconcile]
      split
      · exact .single (.left ht rfl rfl (.inr ⟨id, .done⟩) hover)
      · rename_i haccepting
        exact schedule_moves ht (by simpa using haccepting) hover

/-! ### The job -/

omit [DecidableEq Settings] in
/-- `_run` after its callback, up to what it notes about the scheduler. -/
theorem afterCallback_eq (cfg : ServiceConfig) (w : ServiceWorld Settings) (i : Nat)
    (cancelled : Bool) (result : Except ServiceError Unit) : ∃ stage scheduler,
    w.afterCallback cfg i cancelled (.ended result) =
      { w with scheduler }.goto i (.job cancelled stage) ∧
    (ServiceTask.job cancelled stage).place? = none ∧
    (scheduler = w.scheduler ∨ ∃ s text, w.scheduler = some s ∧
      scheduler = some { s with lastError := some text }) := by
  unfold ServiceWorld.afterCallback
  split
  · rename_i h
    cases h
  · exact ⟨.sleeping, w.scheduler, rfl, rfl, .inl rfl⟩
  · exact ⟨.ended, w.scheduler, rfl, rfl, .inl rfl⟩
  · refine ⟨.sleeping, _, rfl, rfl, ?_⟩
    cases hscheduler : w.scheduler with
    | none => exact .inl rfl
    | some s => exact .inr ⟨s, _, rfl, rfl⟩

/-- A note of the scheduler. -/
theorem scheduler_moves {scheduler : Option PeriodicScheduler}
    (h : scheduler = w.scheduler ∨ ∃ s text, w.scheduler = some s ∧
      scheduler = some { s with lastError := some text }) :
    MoveRun cfg w { w with scheduler } := by
  rcases h with rfl | ⟨s, text, hscheduler, rfl⟩
  · exact .refl
  · exact .single (.shrink hscheduler fun _ h => h)

/-- A stretch of the job. -/
theorem job_moves {i : Nat} {cancelled : Bool} {stage : JobStage} {answer : Catalog Settings}
    (ht : w.tasks[i]? = some (.job cancelled stage))
    (h : w.runJob cfg i answer cancelled stage = some w') : MoveRun cfg w w' := by
  cases stage with
  | created | ended => cases h
  | sleeping =>
    simp only [ServiceWorld.runJob] at h
    split at h
    · cases h
      exact .single (.moved ht trivial trivial rfl trivial)
    · cases h
      rcases enter_cases w i with heq | ⟨haccepting, hlock, heq⟩
      · rw [heq]
        exact .single (.moved ht trivial trivial rfl trivial)
      · rw [heq]
        exact .single (.entered ht (.inl ⟨trivial, trivial⟩) rfl rfl haccepting hlock)
  | reconciling place =>
    obtain ⟨next, hnext, rfl⟩ := Option.map_eq_some_iff.mp h
    rcases continue_cases hnext with ⟨rfl, desired, rfl⟩ | ⟨⟨failure, result, rfl⟩, hover⟩
    · exact .single (.called ht (.inl ⟨trivial, trivial⟩) rfl rfl)
    · obtain ⟨stage', scheduler, heq, hplace, hscheduler⟩ := afterCallback_eq cfg { w with
        reconcileLock := false
        reconcileTasks := w.reconcileTasks.erase i
        lastFailure := failure } i cancelled result
      dsimp only
      rw [heq]
      -- the note of the scheduler does not touch the lock, so it may come first
      have hnoted : MoveRun cfg w { w with scheduler } := scheduler_moves hscheduler
      exact hnoted.tail
        (.left ht rfl hplace (.inl ⟨trivial, trivial, trivial⟩) hover)

/-- A call of the manager is cancelled. -/
theorem cancelCall_move (hheld : ServiceHeld cfg w) {i call : Nat}
    (hplace : placeAt w.tasks i = some (.managing call)) (h : w.cancelCall cfg call = some w') :
    Move cfg w w' := by
  obtain ⟨m', hstep, rfl⟩ := Option.map_eq_some_iff.mp h
  obtain ⟨desired, stage, ht⟩ := hheld.owns i call hplace
  exact .manager (cancelReconcile_goesOn ht hstep) (.step (.cancel call none) .refl trivial hstep)

/-- The job is cancelled. -/
theorem cancelJob_moves (hheld : ServiceHeld cfg w) (job : Nat) :
    MoveRun cfg w (w.cancelJob cfg job) := by
  unfold ServiceWorld.cancelJob
  split
  · exact .refl
  · rename_i cancelled call ht
    cases hcall : w.cancelCall cfg call with
    | none => exact .single (.moved ht trivial trivial rfl trivial)
    | some w1 =>
      have hmove := cancelCall_move hheld ((placeAt_eq ht).trans rfl) hcall
      -- the cancellation of a call leaves the tasks of the service
      have htasks : w1.tasks = w.tasks := by
        obtain ⟨m', -, rfl⟩ := Option.map_eq_some_iff.mp hcall
        rfl
      refine .head hmove (.single (.moved (t := .job cancelled (.reconciling (.managing call)))
        ?_ trivial trivial rfl trivial))
      rw [htasks, ht]
  · rename_i cancelled stage _ _ ht
    refine .single (.moved ht trivial trivial ?_ trivial)
    cases stage <;> rfl
  · exact .refl

/-! ### `_stop_impl` -/

/-- The cancellation of the job changes the task of the job and the manager. -/
structure JobCancelled (w w' : ServiceWorld Settings) : Prop where
  scheduler : w'.scheduler = w.scheduler
  registered : w'.schedulerRegistered = w.schedulerRegistered
  tracked : w'.reconcileTasks = w.reconcileTasks
  ready : w'.ready = w.ready
  others : ∀ (i : Nat) t, w.tasks[i]? = some t → (∀ cancelled stage, t ≠ .job cancelled stage) →
    w'.tasks[i]? = some t

/-- Cancelling the job changes the task of the job and the manager only. -/
theorem cancelJob_cancelled (cfg : ServiceConfig) (w : ServiceWorld Settings) (job : Nat) :
    JobCancelled w (w.cancelJob cfg job) := by
  -- only the task of the job changes
  have hset : ∀ {cancelled stage} {t' : ServiceTask}, w.tasks[job]? = some (.job cancelled stage) →
      ∀ (i : Nat) t, w.tasks[i]? = some t → (∀ cancelled stage, t ≠ .job cancelled stage) →
        (w.tasks.set job t')[i]? = some t := by
    intro cancelled stage t' hjob i t ht hne
    rw [List.getElem?_set_ne, ht]
    rintro rfl
    exact hne _ _ (Option.some.inj (ht.symm.trans hjob))
  unfold ServiceWorld.cancelJob
  split
  · exact ⟨rfl, rfl, rfl, rfl, fun _ _ h _ => h⟩
  · rename_i cancelled call ht
    cases hcall : w.cancelCall cfg call with
    | none => exact ⟨rfl, rfl, rfl, rfl, hset ht⟩
    | some w1 =>
      obtain ⟨m', -, rfl⟩ := Option.map_eq_some_iff.mp hcall
      exact ⟨rfl, rfl, rfl, rfl, hset ht⟩
  · rename_i ht
    exact ⟨rfl, rfl, rfl, rfl, hset ht⟩
  · exact ⟨rfl, rfl, rfl, rfl, fun _ _ h _ => h⟩

/-- `remove_job`: there is no such job, or it is removed and cancelled. -/
theorem removeScheduled_cases (hheld : ServiceHeld cfg w) (id : String) :
    ((w.removeScheduled cfg id).1 = w ∧ (w.removeScheduled cfg id).2 = none ∧
      ∀ s, w.scheduler = some s → id ∉ s.jobs) ∨
    ∃ s job, w.scheduler = some s ∧ (w.removeScheduled cfg id).2 = some job ∧
      (w.removeScheduled cfg id).1 =
        { w with scheduler := some { s with jobs := s.jobs.erase id } }.cancelJob cfg job ∧
      MoveRun cfg w (w.removeScheduled cfg id).1 := by
  unfold ServiceWorld.removeScheduled
  split
  · rename_i hnone
    exact .inl ⟨rfl, rfl, fun s hs => by simp [hnone] at hs⟩
  · rename_i s hscheduler
    split
    · rename_i hlookup
      refine .inl ⟨rfl, rfl, fun s' hs' => ?_⟩
      cases hscheduler.symm.trans hs'
      exact AList.lookup_eq_none.mp hlookup
    · rename_i job hlookup
      -- the job leaves the table first, and then its task is cancelled
      have hshrink : Move cfg w
          { w with scheduler := some { s with jobs := s.jobs.erase id } } :=
        .shrink hscheduler fun k hk => (AList.mem_erase.mp hk).2
      exact .inr ⟨s, job, hscheduler, rfl, rfl,
        .head hshrink (cancelJob_moves (hshrink.held hheld) job)⟩

omit [DecidableEq Settings] in
/-- The tracked tasks are those inside `reconcile`. -/
theorem Occupied.within {holder : Option (Nat × ReconcilePlace)} (h : Occupied w holder) :
    Within w w.reconcileTasks := by
  intro i hi
  obtain ⟨p, hp⟩ := Option.ne_none_iff_exists'.mp hi
  rw [h.tracked, (h.placed i p).mp hp]
  simp

/-- The call of the manager's `shutdown`, in moves. -/
theorem shutDown_moves {t : Nat} {stage : StopImplStage} {failures : List OrchestrationFailure}
    (ht : w.tasks[t]? = some (.stopImpl stage)) (hout : t ∉ w.ready)
    (hopen : ∀ result, stage ≠ .ended result) (hjob : NoJob w)
    (hfree : w.schedulerRegistered = false) (hidle : Within w []) :
    MoveRun cfg w (w.shutDown t failures) := by
  have hcall := shutdown_move cfg w
  exact .head hcall.1 (.single (.stopMoved ht hout (.shuttingDown hopen hjob hfree hidle hcall.2)))

/-- The wait for the tracked tasks, in moves. -/
theorem gatherTasks_moves {t : Nat} {stage : StopImplStage} {tasks : List Nat}
    (ht : w.tasks[t]? = some (.stopImpl stage)) (hout : t ∉ w.ready)
    (hopen : ∀ result, stage ≠ .ended result) (hjob : NoJob w)
    (hfree : w.schedulerRegistered = false) (hwithin : Within w tasks) :
    MoveRun cfg w (w.gatherTasks t tasks) := by
  unfold ServiceWorld.gatherTasks
  split
  · rename_i hnil
    exact shutDown_moves ht hout hopen hjob hfree (hnil ▸ hwithin)
  · exact .single (.stopMoved ht hout (.gathering hopen hjob hfree hwithin))

/-- The removal of the job, in moves. -/
theorem removeJob_moves (hheld : ServiceHeld cfg w) {t : Nat} {stage : StopImplStage}
    (ht : w.tasks[t]? = some (.stopImpl stage)) (hout : t ∉ w.ready)
    (hopen : ∀ result, stage ≠ .ended result) : MoveRun cfg w (w.removeJob cfg t) := by
  obtain ⟨holder, hholder⟩ := hheld.occupied
  unfold ServiceWorld.removeJob
  dsimp only
  split
  -- with or without a job in the table
  · rcases removeScheduled_cases hheld jobId with ⟨hsame, hnone, hjob⟩ |
      ⟨s, job, hscheduler, hsome, heq, hmoves⟩
    · rw [show w.removeScheduled cfg jobId = (w, none) from Prod.ext hsame hnone]
      exact .head (.unregister hjob) (gatherTasks_moves ht hout hopen hjob rfl hholder.within)
    · -- the cancelled job may still be inside `reconcile`, so it stays in the snapshot
      have hcancelled := cancelJob_cancelled cfg
        { w with scheduler := some { s with jobs := s.jobs.erase jobId } } job
      rw [← heq] at hcancelled
      have hheld' := hmoves.held hheld
      obtain ⟨holder', hholder'⟩ := hheld'.occupied
      rw [show w.removeScheduled cfg jobId = ((w.removeScheduled cfg jobId).1, some job) from
        Prod.ext rfl hsome]
      refine hmoves.tail (.stopMoved (hcancelled.others t _ ht fun _ _ h => by cases h) ?_
        (.removing hopen ?_ ?_))
      · rwa [hcancelled.ready]
      · intro s' hs'
        rw [hcancelled.scheduler] at hs'
        cases hs'
        exact fun hmem => (AList.mem_erase.mp hmem).1 rfl
      · have := hholder'.within
        rwa [hcancelled.tracked] at this
  -- nothing was registered, so the table has no job of this service
  · rename_i hcondition
    have hfree : w.schedulerRegistered = false := by
      refine Bool.eq_false_iff.mpr fun hregistered => hcondition ?_
      rw [hheld.armed hregistered, hregistered]
      rfl
    exact gatherTasks_moves ht hout hopen (hheld.registered hfree) hfree hholder.within

omit [DecidableEq Settings] in
/-- A task that is over is not inside the body of `reconcile`. -/
theorem done_place {i : Nat} (h : w.done i = true) : placeAt w.tasks i = none := by
  unfold ServiceWorld.done at h
  unfold placeAt
  cases ht : w.tasks[i]? with
  | none => rfl
  | some t =>
    rw [ht] at h
    cases t with
    | start | stop | stopImpl | remove | close => rfl
    | startImpl stage => cases stage <;> first | rfl | cases h
    | reconcile stage => cases stage <;> first | rfl | cases h
    | job cancelled stage => cases stage <;> first | rfl | cases h

/-- A stretch of `_stop_impl`. -/
theorem stopping_moves (hheld : ServiceHeld cfg w) {t : Nat} {stage : StopImplStage}
    (ht : w.tasks[t]? = some (.stopImpl stage)) (h : w.runStopImpl cfg t stage = some w') :
    MoveRun cfg w w' := by
  obtain ⟨hstop, hready, hrefusing, hstage⟩ := hheld.each t _ ht
  have hout : stage ≠ .created → t ∉ w.ready := fun hne hin => hne (hready hin)
  cases stage with
  | created | ended result => cases h
  | awaitingStart task =>
    simp only [ServiceWorld.runStopImpl] at h
    split at h <;> cases h
    exact removeJob_moves hheld ht (hout fun h => by cases h) fun _ h => by cases h
  | removing job tasks =>
    simp only [ServiceWorld.runStopImpl] at h
    split at h <;> cases h
    obtain ⟨-, hjob, hwithin⟩ := hstage
    exact .head (.unregister hjob)
      (gatherTasks_moves ht (hout fun h => by cases h) (fun _ h => by cases h) hjob rfl hwithin)
  | gathering tasks =>
    simp only [ServiceWorld.runStopImpl] at h
    split at h <;> cases h
    rename_i hdone
    obtain ⟨-, hjob, hfree, hwithin⟩ := hstage
    refine shutDown_moves ht (hout fun h => by cases h) (fun _ h => by cases h) hjob hfree
      fun i hi => ?_
    -- the task is one of those that `_stop_impl` waited for
    exact absurd (done_place (List.all_eq_true.mp hdone i (hwithin i hi))) hi
  | shuttingDown call failures =>
    have hfinish : ∀ failures', CallOver w.manager call →
        MoveRun cfg w (w.finishStop cfg t failures') := by
      intro failures' hover
      unfold ServiceWorld.finishStop
      dsimp only
      split
      · refine .head (.note w.lastFailure false fun h => by cases h)
          (.single (.stopMoved ht (hout fun h => by cases h)
            (.ended hover rfl fun h => by cases h)))
      · refine .head (.note _ false fun h => by cases h)
          (.single (.stopMoved ht (hout fun h => by cases h) (.ended hover rfl fun h => ?_)))
        cases h
    simp only [ServiceWorld.runStopImpl] at h
    split at h <;> cases h
    · exact hfinish _ ⟨_, ‹_›⟩
    · exact absurd ‹_› (hheld.uncancelled call)
    · exact hfinish _ ⟨_, ‹_›⟩

/-! ### Callers -/

omit [DecidableEq Settings] in
/-- A task that was just created is the last one. -/
theorem spawn_last (w : ServiceWorld Settings) (t : ServiceTask) :
    (w.spawn t).tasks[w.tasks.length]? = some t :=
  List.getElem?_concat_length

/-- A call of `reconcile`, in moves: it enters the body when it is accepted and the lock is free.
-/
theorem callReconcile_moves (w : ServiceWorld Settings) : MoveRun cfg w w.callReconcile := by
  have hlast := spawn_last w (.reconcile (.ended (.ok ())))
  refine .head (.spawned (t := .reconcile (.ended (.ok ()))) trivial rfl trivial) ?_
  unfold ServiceWorld.callReconcile
  dsimp only
  rcases enter_cases (w.spawn (.reconcile (.ended (.ok ())))) w.tasks.length with
    heq | ⟨haccepting, hlock, heq⟩
  · rw [heq]
    exact .single (.moved hlast trivial trivial rfl trivial)
  · rw [heq]
    exact .single (.entered hlast (.inl ⟨trivial, trivial⟩) rfl rfl haccepting hlock)

/-- A call of `start`, in moves. -/
theorem callStart_moves (w : ServiceWorld Settings) : MoveRun cfg w (w.callStart cfg) := by
  unfold ServiceWorld.callStart
  split
  · exact .single (.spawned trivial rfl trivial)
  · split
    · exact .single (.spawned trivial rfl trivial)
    · split
      · exact .single (.spawned trivial rfl trivial)
      · rename_i hstop _ _ hstart
        exact .head (.startCreated hstart (by simpa using hstop))
          (.single (.spawned trivial rfl trivial))

/-- The creation of the task of `_stop_impl`, in moves. -/
theorem ensureStop_moves (w : ServiceWorld Settings) : MoveRun cfg w w.ensureStop.1 := by
  unfold ServiceWorld.ensureStop
  split
  · exact .refl
  · rename_i hstop
    exact .single (.stopCreated hstop)

omit [DecidableEq Settings] in
/-- The task of `_stop_impl` is the one that `stop` waits for. -/
theorem ensureStop_task (w : ServiceWorld Settings) :
    w.ensureStop.1.stopTask = some w.ensureStop.2 := by
  unfold ServiceWorld.ensureStop
  split
  · assumption
  · rfl

/-- A cancelled `start` begins its cleanup. -/
theorem cleanStart_moves {i : Nat} {stage : StartStage} (ht : w.tasks[i]? = some (.start stage)) :
    MoveRun cfg w (w.cleanStart i) := by
  have hkept : (w.create (.stop .created)).tasks[i]? = some (.start stage) :=
    (List.getElem?_append_left (List.getElem?_eq_some_iff.mp ht).1).trans ht
  exact .head (.created (t := .stop .created) trivial rfl trivial)
    (.single (.moved hkept trivial trivial rfl trivial))

/-- Tasks of `remove_job` are created. -/
theorem removers_moves (ids : List String) (w : ServiceWorld Settings) :
    MoveRun cfg w (ids.foldl (fun w id => w.create (.remove (.created id))) w) := by
  induction ids generalizing w with
  | nil => exact .refl
  | cons id ids ih => exact .head (.created (t := .remove (.created id)) trivial rfl trivial) (ih _)

/-- A call of the scheduler's `shutdown`, in moves. -/
theorem callClose_moves (w : ServiceWorld Settings) : MoveRun cfg w w.callClose := by
  unfold ServiceWorld.callClose
  split
  · exact .refl
  · rename_i s hscheduler
    split
    · exact .single (.spawned trivial rfl trivial)
    · have hshrink : Move cfg w { w with scheduler := some { s with closed := true } } :=
        .shrink hscheduler fun _ h => h
      exact .head hshrink
        (.head (.spawned (t := .close (.gathering _)) trivial rfl trivial) (removers_moves _ _))

/-! ### Steps -/

/-- The oldest created task leaves the queue. -/
theorem pop_move {i : Nat} {rest : List Nat} {t : ServiceTask} (hheld : ServiceHeld cfg w)
    (hready : w.ready = i :: rest) (ht : w.tasks[i]? = some t) (hunshielded : Unshielded t) :
    Move cfg w { w with ready := rest } := by
  refine .pop hready (fun hs => ?_) fun hs => ?_
  · obtain ⟨stage, hu⟩ := hheld.starting i hs
    cases ht.symm.trans hu
    exact absurd hunshielded id
  · obtain ⟨stage, hu⟩ := hheld.stopping i hs
    cases ht.symm.trans hu
    exact absurd hunshielded id

/-- The first stretch of a task, in moves. -/
theorem begin_moves (hheld : ServiceHeld cfg w) {i : Nat} {rest : List Nat} {t : ServiceTask}
    (hready : w.ready = i :: rest) (ht : w.tasks[i]? = some t)
    (h : { w with ready := rest }.beginTask cfg i t = some w') : MoveRun cfg w w' := by
  have hout : i ∉ rest := by
    have hsorted := hheld.sorted
    rw [hready] at hsorted
    exact fun hin => Nat.lt_irrefl i ((List.pairwise_cons.mp hsorted).1 i hin)
  cases t with
  | startImpl stage =>
    cases stage with
    | created =>
      have hstart := (hheld.each i _ ht).1
      -- nothing was accepted before, so the lock is free
      have hlock : w.reconcileLock = false := by
        obtain ⟨holder, -, hlocked, hplaced⟩ := hheld.occupied
        cases holder with
        | none => exact hlocked
        | some held =>
          obtain ⟨s, hs, hbegun⟩ := hheld.early
            (.inr ⟨held.1, by simp [(hplaced held.1 held.2).mpr rfl]⟩)
          cases hs.symm.trans hstart
          exact absurd (by simp [hready]) hbegun
      have heq : ServiceWorld.enterReconcile
          { w with acceptingReconcile := true, ready := rest } i =
          ({ w with
            acceptingReconcile := true, ready := rest
            reconcileTasks := i :: w.reconcileTasks
            reconcileLock := true
            catalogReads := w.catalogReads + 1 }, .next .reading) := by
        simp [ServiceWorld.enterReconcile, hlock]
      simp only [ServiceWorld.beginTask, heq] at h
      cases h
      exact .head (.accept hready hstart) (.single (.entered (t := .startImpl .created) ht
        (.inr ⟨_, _, rfl, rfl, .inl rfl⟩) rfl rfl rfl hlock))
    | reconciling | rollingBack | ended => cases h
  | stopImpl stage =>
    cases stage with
    | created =>
      have hstop := (hheld.each i _ ht).1
      have hpop : Move cfg { w with acceptingReconcile := false }
          { w with acceptingReconcile := false, ready := rest } := by
        refine .pop hready (fun hs => ?_) fun _ => rfl
        exact absurd (hheld.earlier i i hs hstop) (Nat.lt_irrefl i)
      refine .head .refuse (.head hpop ?_)
      simp only [ServiceWorld.beginTask] at h
      split at h
      · rename_i task _
        cases h
        have hnext : StopNext { w with acceptingReconcile := false, ready := rest } .created
            (.awaitingStart task) := .awaitingStart
        exact .single (.stopMoved ht hout hnext)
      · cases h
        exact removeJob_moves (hpop.held (Move.refuse.held hheld)) ht hout fun _ h => by cases h
    | awaitingStart | removing | gathering | shuttingDown | ended => cases h
  | stop stage =>
    cases stage with
    | created =>
      cases h
      refine .head (pop_move hheld hready ht trivial)
        ((ensureStop_moves { w with ready := rest }).tail (.moved (t := .stop .created) ?_ trivial
          trivial rfl (ensureStop_task _)))
      unfold ServiceWorld.ensureStop
      split
      · exact ht
      · exact (List.getElem?_append_left (List.getElem?_eq_some_iff.mp ht).1).trans ht
    | awaiting | ended => cases h
  | job cancelled stage =>
    cases stage with
    | created =>
      cases h
      refine .head (pop_move hheld hready ht trivial)
        (.single (.moved ht trivial trivial ?_ trivial))
      cases cancelled <;> rfl
    | sleeping | reconciling | ended => cases h
  | remove stage =>
    cases stage with
    | created id =>
      have hpop := pop_move hheld hready ht trivial
      refine .head hpop ?_
      simp only [ServiceWorld.beginTask] at h
      rcases removeScheduled_cases (hpop.held hheld) id with ⟨hsame, hnone, -⟩ |
        ⟨s, job, -, hsome, heq, hmoves⟩
      · rw [show ServiceWorld.removeScheduled cfg { w with ready := rest } id = (_, none) from
          Prod.ext hsame hnone] at h
        cases h
        exact .single (.moved ht trivial trivial rfl trivial)
      · rw [show ServiceWorld.removeScheduled cfg { w with ready := rest } id =
          ((ServiceWorld.removeScheduled cfg { w with ready := rest } id).1, some job) from
          Prod.ext rfl hsome] at h
        cases h
        refine hmoves.tail (.moved (t := .remove (.created id)) ?_ trivial trivial rfl trivial)
        rw [heq]
        exact (cancelJob_cancelled cfg _ job).others i _ ht fun _ _ h => by cases h
    | awaiting | ended => cases h
  | start | reconcile | close => cases h

/-- A stretch of a task that has begun. -/
theorem run_moves (hheld : ServiceHeld cfg w) {i : Nat} {answer : Catalog Settings}
    {t : ServiceTask} (ht : w.tasks[i]? = some t) (h : w.runTask cfg i answer t = some w') :
    MoveRun cfg w w' := by
  cases t with
  | start stage =>
    cases stage with
    -- a caller of `start` waits for the shared task
    | awaiting task =>
      simp only [ServiceWorld.runTask, ServiceWorld.runStart] at h
      split at h
      · cases h
        exact cleanStart_moves ht
      · cases h
        exact .single (.moved ht trivial trivial rfl trivial)
      · cases h
    | cleaning task =>
      simp only [ServiceWorld.runTask, ServiceWorld.runStart] at h
      split at h <;> cases h
      exact .single (.moved ht trivial trivial rfl trivial)
    | ended result => cases h
  -- the shared start task, which rolls the manager back when it fails
  | startImpl stage =>
    cases stage with
    | created | ended => cases h
    | reconciling place => exact starting_moves ht h
    | rollingBack call error =>
      simp only [ServiceWorld.runTask, ServiceWorld.runStartImpl] at h
      split at h
      · exact absurd ‹_› (hheld.uncancelled call)
      · rename_i result _ hover
        cases h
        -- whatever failure was noted, the error is raised again
        have hrolled : ∀ failure, MoveRun cfg w ({ w with lastFailure := failure }.goto i
            (.startImpl (.ended (.error (.manager error))))) := by
          intro failure
          exact .head (.note failure w.started fun h => .inl h)
            (.single (.rolledBack ht ⟨result, hover⟩))
        cases error.failure cfg.manager with
        | none => exact hrolled w.lastFailure
        | some failure => exact hrolled (some failure)
      · cases h
  -- one reconciliation: it reads, calls the manager and leaves the section
  | reconcile stage =>
    cases stage with
    | ended => cases h
    | reconciling place =>
      obtain ⟨next, hnext, rfl⟩ := Option.map_eq_some_iff.mp h
      rcases continue_cases hnext with ⟨rfl, desired, rfl⟩ | ⟨⟨failure, result, rfl⟩, hover⟩
      · exact .single (.called ht (.inl ⟨trivial, trivial⟩) rfl rfl)
      · exact .single (.left ht rfl rfl (.inl ⟨trivial, trivial, trivial⟩) hover)
  -- a caller of `stop` has the result of the shared task
  | stop stage =>
    cases stage with
    | created | ended => cases h
    | awaiting task =>
      obtain ⟨result, hresult, rfl⟩ := Option.map_eq_some_iff.mp h
      obtain ⟨stage, hstop⟩ := hheld.stopping task (hheld.callers i _ ht)
      rw [hstop] at hresult
      cases stage with
      | ended result' =>
        cases hresult
        exact .single (.moved ht trivial trivial rfl (.inr ⟨task, hstop⟩))
      | created | awaitingStart | removing | gathering | shuttingDown => cases hresult
  | stopImpl stage => exact stopping_moves hheld ht h
  -- the job of the scheduler
  | job cancelled stage => exact job_moves ht h
  | remove stage =>
    cases stage with
    | created | ended => cases h
    | awaiting job =>
      simp only [ServiceWorld.runTask, ServiceWorld.runRemove] at h
      split at h <;> cases h
      exact .single (.moved ht trivial trivial rfl trivial)
  | close stage =>
    cases stage with
    | ended => cases h
    | gathering tasks =>
      simp only [ServiceWorld.runTask, ServiceWorld.runClose] at h
      split at h <;> cases h
      exact .single (.moved ht trivial trivial rfl trivial)

/-- A caller is cancelled. -/
theorem cancel_moves (hheld : ServiceHeld cfg w) {i : Nat} {t : ServiceTask}
    (ht : w.tasks[i]? = some t) (h : w.cancelTask cfg i t = some w') : MoveRun cfg w w' := by
  cases t with
  | start stage =>
    cases stage with
    -- a cancelled `start` cleans up before it raises
    | awaiting task =>
      cases h
      exact cleanStart_moves ht
    | cleaning | ended => cases h
  | reconcile stage =>
    cases stage with
    | ended => cases h
    | reconciling place =>
      cases place with
      -- the cancellation ends the section
      | reading =>
        obtain ⟨failure, result, heq⟩ := leave_eq cfg w i (.error .cancelled)
        simp only [ServiceWorld.cancelTask, heq] at h
        cases h
        exact .single (.left ht rfl rfl (.inl ⟨trivial, trivial, trivial⟩) fun call h => by cases h)
      -- the cancellation goes on to the call of the manager
      | managing call => exact .single (cancelCall_move hheld (placeAt_eq ht) h)
  | stop stage =>
    cases stage with
    | created | ended => cases h
    -- `stop` waits behind a shield, so its shared task goes on
    | awaiting task =>
      cases h
      exact .single (.moved ht trivial trivial rfl (.inl rfl))
  | startImpl | stopImpl | job | remove | close => cases h

/-- Every step of the service is a run of moves. -/
theorem step_moves (hheld : ServiceHeld cfg w) {act : ServiceAct Settings}
    (h : w.step cfg act = some w') : MoveRun cfg w w' := by
  cases act with
  | start =>
    cases h
    exact callStart_moves w
  | reconcile =>
    cases h
    exact callReconcile_moves w
  | stop =>
    cases h
    exact (ensureStop_moves w).tail
      (.spawned (t := .stop (.awaiting _)) trivial rfl (ensureStop_task w))
  | closeScheduler =>
    cases h
    exact callClose_moves w
  -- the event loop takes the first ready task
  | begin =>
    simp only [ServiceWorld.step] at h
    split at h
    · cases h
    · rename_i i rest hready
      obtain ⟨t, ht, hbegin⟩ := Option.bind_eq_some_iff.mp h
      exact begin_moves hheld hready ht hbegin
  -- a task goes on from its await, or is cancelled there
  | run i answer =>
    obtain ⟨t, ht, hrun⟩ := Option.bind_eq_some_iff.mp h
    exact run_moves hheld ht hrun
  | cancel i =>
    obtain ⟨t, ht, hcancel⟩ := Option.bind_eq_some_iff.mp h
    exact cancel_moves hheld ht hcancel
  -- a step of the manager's own, outside the calls of the service
  | manager act =>
    simp only [ServiceWorld.step] at h
    split at h
    · rename_i hout
      obtain ⟨m', hstep, rfl⟩ := Option.map_eq_some_iff.mp h
      exact .single (.manager (outside_goesOn hout hstep) (.step act .refl trivial hstep))
    · cases h

/-! ### Runs -/

/-- The new service has no task and no job. -/
theorem service_init (scheduled : Bool) :
    ServiceHeld cfg (ServiceWorld.new scheduled : ServiceWorld Settings) where
  managed := .init
  uncancelled call h := by cases h
  occupied := ⟨none, rfl, rfl, fun i p => by simp [ServiceWorld.new, placeAt]⟩
  busy call desired stage h := by cases h
  owns i call h := by simp [ServiceWorld.new, placeAt] at h
  sorted := .nil
  bounded i h := by cases h
  known s h := by cases h
  earlier s t h := by cases h
  early h := by simp [ServiceWorld.new, placeAt] at h
  registered _ s hs := by
    cases scheduled with
    | false => cases hs
    | true =>
      cases hs
      exact AList.notMem_empty jobId
  scheduled h := by cases h
  armed h := by cases h
  starting s h := by cases h
  stopping t h := by cases h
  running h := by cases h
  callers i t h := by cases h
  each i t h := by cases h

variable {scheduled : Bool}

/-- The invariant holds in every reachable state of the service. -/
theorem reachable_service (h : Reachable (serviceMachine cfg scheduled) Any w) :
    ServiceHeld cfg w :=
  h.invariant (I := ServiceHeld cfg) (service_init scheduled) fun _ _ _ _ _ hstep hheld =>
    MoveRun.held hheld (step_moves hheld hstep)

/-- Reconciliations do not overlap, however the calls of `start`, `stop` and `reconcile`, the ticks
of the scheduler and the cancellations interleave: at most one task is past the reconcile lock, it
is the only tracked one, and at most one call of `reconcile` of the manager is going on. -/
theorem reconciliations_exclusive (h : Reachable (serviceMachine cfg scheduled) Any w) :
    (∀ (i j : Nat) t u, w.tasks[i]? = some t → w.tasks[j]? = some u → t.place? ≠ none →
      u.place? ≠ none → i = j) ∧
    (∀ (i : Nat) t, w.tasks[i]? = some t → t.place? ≠ none → w.reconcileTasks = [i]) ∧
    (∀ (call call' : Nat) desired desired' stage stage',
      w.manager.tasks[call]? = some (.reconcile desired stage) →
      w.manager.tasks[call']? = some (.reconcile desired' stage') →
      (∀ result, stage ≠ .ended result) → (∀ result, stage' ≠ .ended result) → call = call') := by
  have hheld := reachable_service h
  -- every task inside the section is the one holder of the lock
  obtain ⟨holder, hholder⟩ := hheld.occupied
  have hplaced : ∀ {i : Nat} {t : ServiceTask}, w.tasks[i]? = some t → t.place? ≠ none →
      ∃ p, holder = some (i, p) := by
    intro i t ht hplace
    obtain ⟨p, hp⟩ := Option.ne_none_iff_exists'.mp hplace
    exact ⟨p, (hholder.placed i p).mp ((placeAt_eq ht).trans hp)⟩
  refine ⟨?_, ?_, ?_⟩
  · intro i j t u ht hu hplace hplace'
    obtain ⟨p, hp⟩ := hplaced ht hplace
    obtain ⟨q, hq⟩ := hplaced hu hplace'
    cases hp.symm.trans hq
    rfl
  · intro i t ht hplace
    obtain ⟨p, hp⟩ := hplaced ht hplace
    rw [hholder.tracked, hp]
    rfl
  · intro call call' desired desired' stage stage' ht ht' hopen hopen'
    obtain ⟨i, hi⟩ := hheld.busy call desired stage ht hopen
    obtain ⟨j, hj⟩ := hheld.busy call' desired' stage' ht' hopen'
    cases ((hholder.placed i _).mp hi).symm.trans ((hholder.placed j _).mp hj)
    rfl

/-- What a run from a service that is over keeps. -/
structure Silenced (cfg : ServiceConfig) (w w' : ServiceWorld Settings) : Prop where
  held : ServiceHeld cfg w'
  stopped : ServiceOver w'
  reads : w'.catalogReads = w.catalogReads
  path : Path (managerMachine cfg.manager) Any w.manager w'.manager

/-- A service that is silenced stays so along any moves. -/
theorem Silenced.moves {w'' : ServiceWorld Settings} (h : Silenced cfg w w')
    (hmoves : MoveRun cfg w' w'') : Silenced cfg w w'' := by
  induction hmoves with
  | refl => exact h
  | tail _ hmove ih =>
    have hsilent := (over_silent ih.held ih.stopped).1
    exact ⟨hmove.held ih.held, hmove.stays ih.stopped,
      (hmove.reads hsilent.refusing).trans ih.reads, ih.path.trans hmove.path⟩

/-- A stop is final, and so is a start that failed, however the callers, the job, the workers and
the other calls of the manager go on. Once `_stop_impl` is over (it returned or raised), or
`_start_impl` raised, and at any later time, no reconciliation runs, the catalog is not read, the
job is not scheduled, no worker is registered, live or created, and the status says so. -/
theorem service_final (h : Reachable (serviceMachine cfg scheduled) Any w) (hover : ServiceOver w)
    (hpath : Path (serviceMachine cfg scheduled) Any w w') :
    (∀ (i : Nat) t, w'.tasks[i]? = some t → t.place? = none) ∧
    (∀ (call : Nat) desired stage, w'.manager.tasks[call]? = some (.reconcile desired stage) →
      ∃ result, stage = .ended result) ∧
    w'.catalogReads = w.catalogReads ∧
    (∀ s, w'.scheduler = some s → jobId ∉ s.jobs) ∧
    (∀ c, c ∉ w'.manager.registry.workers) ∧
    (∀ v ∈ w'.manager.registry.objects, v.live = false) ∧
    w'.manager.registry.objects.length = w.manager.registry.objects.length ∧
    w'.runtimeStatus = ⟨false, false, false, false, w'.lastFailure⟩ := by
  have hheld := reachable_service h
  obtain ⟨hheld', hover', hreads, hmanager⟩ : Silenced cfg w w' :=
    hpath.invariant (I := Silenced cfg w) ⟨hheld, hover, rfl, .refl⟩ fun _ _ _ _ hstep hs =>
      hs.moves (step_moves hs.held hstep)
  obtain ⟨hsilent, -, hrunning⟩ := over_silent hheld' hover'
  have hidle : ∀ i, placeAt w'.tasks i = none := by
    intro i
    by_contra hi
    exact absurd (hsilent.idle i hi) List.not_mem_nil
  -- the call of `shutdown` that the service waited for has the result of the shared task
  obtain ⟨-, ⟨call, result, hcall⟩, -⟩ := over_silent hheld hover
  obtain hcancelled | ⟨t, failures, hshut, -⟩ :=
    (reachable_shutdownHeld hheld.managed).results call result hcall
  · rw [hcancelled] at hcall
    exact absurd hcall (hheld.uncancelled call)
  obtain ⟨hworkers, hlive, hcount, -⟩ := shutdown_final hheld.managed hshut hmanager
  refine ⟨?_, ?_, hreads, hsilent.noJob, hworkers, hlive, hcount, ?_⟩
  · intro i t ht
    rw [← placeAt_eq ht]
    exact hidle i
  · intro call desired stage ht
    by_contra hopen
    obtain ⟨i, hi⟩ := hheld'.busy call desired stage ht fun result heq => hopen ⟨result, heq⟩
    rw [hidle i] at hi
    cases hi
  · obtain ⟨holder, hholder⟩ := hheld'.occupied
    have htracked : w'.reconcileTasks = [] := by
      cases holder with
      | none => exact hholder.tracked
      | some held =>
        have := (hholder.placed held.1 held.2).mpr rfl
        rw [hidle] at this
        cases this
    simp [ServiceWorld.runtimeStatus, hrunning, hsilent.refusing.refuses, hsilent.unregistered,
      htracked]

end

/-- A reconciliation each half minute. -/
def everyHalfMinute : ServiceConfig := ⟨twoCameras, 30, by decide +kernel⟩

/-- The service starts one camera, and the job reads the catalog. -/
def startedRun : List (ServiceAct Nat) :=
  [.start, .begin, .run 0 (.ok [frontDoor]), .manager (.run 0 none), .manager (.run 0 none),
    .manager (.run 1 none), .manager (.run 1 none), .manager (.run 1 none), .manager (.run 1 none),
    .manager (.work 0 (viewOf frontDoor 1 .running)), .manager (.run 1 none),
    .manager (.run 1 none), .manager (.run 0 none), .run 0 (.ok []), .begin, .run 1 (.ok []),
    .run 2 (.ok [])]

/-- `stop` cancels the job while it reads, and shuts the manager down. -/
def stoppingRun : List (ServiceAct Nat) :=
  [.stop, .begin, .run 3 (.ok []), .run 2 (.ok []), .run 3 (.ok []), .run 3 (.ok []),
    .manager (.run 2 none), .manager (.run 3 none), .manager (.run 4 none),
    .manager (.run 4 none), .manager (.run 4 none),
    .manager (.work 0 (viewOf frontDoor 1 .stopped)), .manager (.run 4 none),
    .manager (.run 4 none), .manager (.run 3 none), .manager (.run 2 none), .run 3 (.ok []),
    .run 4 (.ok [])]

def halfMinuteMachine : Machine (ServiceWorld Nat) (ServiceAct Nat) :=
  serviceMachine everyHalfMinute true

def startedWorld : ServiceWorld Nat := halfMinuteMachine.final halfMinuteMachine.init startedRun

def stoppedService : ServiceWorld Nat := halfMinuteMachine.final startedWorld stoppingRun

/-- The started service is reached by its run. -/
theorem startedWorld_reachable : Reachable halfMinuteMachine Any startedWorld :=
  Reachable.init.final startedRun (by decide +kernel)

/-- The stopped service is reached by its run. -/
theorem stoppedService_reachable : Reachable halfMinuteMachine Any stoppedService :=
  startedWorld_reachable.final stoppingRun (by decide +kernel)

/-- The job of the started service is inside the lock, and it alone is tracked. -/
theorem startedWorld_exclusive :
    startedWorld.tasks[2]? = some (.job false (.reconciling .reading)) ∧
      startedWorld.reconcileTasks = [2] := by
  have hjob : startedWorld.tasks[2]? = some (.job false (.reconciling .reading)) := by
    decide +kernel
  exact ⟨hjob, (reconciliations_exclusive startedWorld_reachable).2.1 2 _ hjob fun h => by cases h⟩

/-- A `start` and a `reconcile` that come too late. -/
theorem stoppedService_final :
    startedWorld.manager.registry.workers.keys = ["door"] ∧ stoppedService.catalogReads = 2 ∧
      (halfMinuteMachine.final stoppedService [.start, .reconcile]).catalogReads = 2 ∧
      ∀ c, c ∉ (halfMinuteMachine.final stoppedService
        [.start, .reconcile]).manager.registry.workers := by
  have hover : ServiceOver stoppedService := .inl ⟨3, .ok (), by decide +kernel⟩
  obtain ⟨-, -, hreads, -, hworkers, -⟩ := service_final stoppedService_reachable hover
    (Machine.Path.final .refl [.start, .reconcile] (by decide +kernel))
  exact ⟨by decide +kernel, by decide +kernel, hreads.trans (by decide +kernel), hworkers⟩

end Rsap.Proofs
