import Rsap.Proofs.ServiceCalls

/-!
# `Rsap.Proofs.ServiceMoves`: what a stretch of the service is made of

A stretch of a task is a short sequence of `Move`s, and a `Move` changes few fields. `ServiceHeld`
is the invariant, and every move keeps it (`Move.held`). It says which task is inside the reconcile
lock, and what the tasks of `_start_impl` and `_stop_impl` can rely on at each `await`
(`TaskHolds`).
`Refusing` is the state from which no reconciliation begins any more, and in a `Silent` service none
runs either and no job is scheduled.
-/

set_option autoImplicit false

namespace Rsap.Proofs

open Rsap.Library
open Rsap.Library.Machine (Reachable Path Any)
open Rsap.Orchestration

/-- Every task other than those of `_start_impl` and `_stop_impl`, which are shielded. -/
def Unshielded : ServiceTask → Prop
  | .startImpl _ | .stopImpl _ => False
  | _ => True

/-- Where a task is in the body of `reconcile`. -/
def placeAt (tasks : List ServiceTask) (i : Nat) : Option ReconcilePlace :=
  tasks[i]?.bind ServiceTask.place?

section
variable {tasks : List ServiceTask} {i j : Nat} {t t' : ServiceTask}

/-- The place of a task that is there. -/
theorem placeAt_eq (h : tasks[i]? = some t) : placeAt tasks i = t.place? := by
  simp [placeAt, h]

/-- A task that moves changes its own place only. -/
theorem placeAt_set (h : tasks[i]? = some t) (t' : ServiceTask) (j : Nat) :
    placeAt (tasks.set i t') j = if j = i then t'.place? else placeAt tasks j := by
  have hlt := (List.getElem?_eq_some_iff.mp h).1
  unfold placeAt
  rw [List.getElem?_set]
  by_cases hij : i = j
  · subst hij
    simp [hlt]
  · simp [hij, Ne.symm hij]

/-- A task with another place does not move. -/
theorem placeAt_other (h : tasks[i]? = some t) (hj : placeAt tasks j ≠ t.place?)
    (t' : ServiceTask) : placeAt (tasks.set i t') j = placeAt tasks j := by
  rw [placeAt_set h, if_neg]
  rintro rfl
  exact hj (placeAt_eq h)

/-- A place is that of the task that moves, or it was there before. -/
theorem placeAt_set_cases (h : tasks[i]? = some t) {p : ReconcilePlace}
    (hj : placeAt (tasks.set i t') j = some p) :
    (j = i ∧ t'.place? = some p) ∨ placeAt tasks j = some p := by
  rw [placeAt_set h] at hj
  split at hj
  · exact .inl ⟨‹_›, hj⟩
  · exact .inr hj

/-- A task that goes on inside the body of `reconcile` was inside it. -/
theorem placeAt_of_set (h : tasks[i]? = some t) (hj : placeAt (tasks.set i t') j ≠ none)
    (hplace : t'.place? ≠ none → t.place? ≠ none) : placeAt tasks j ≠ none := by
  rw [placeAt_set h] at hj
  split at hj
  · rename_i heq
    rw [heq, placeAt_eq h]
    exact hplace hj
  · exact hj

/-- A task created outside `reconcile` adds no place. -/
theorem placeAt_append (hplace : t.place? = none) (j : Nat) :
    placeAt (tasks ++ [t]) j = placeAt tasks j := by
  unfold placeAt
  rcases Nat.lt_or_ge j tasks.length with hlt | hge
  · rw [List.getElem?_append_left hlt]
  · rw [List.getElem?_append_right hge, List.getElem?_eq_none hge]
    rcases Nat.eq_zero_or_pos (j - tasks.length) with hzero | hpos
    · rw [hzero]
      exact hplace
    · rw [List.getElem?_eq_none (by simp only [List.length_singleton]; omega)]

/-- Who is inside `reconcile` after such a task was created was inside it before. -/
theorem placeAt_of_append (hj : placeAt (tasks ++ [t]) j ≠ none) (hplace : t.place? = none) :
    placeAt tasks j ≠ none := by
  rwa [placeAt_append hplace] at hj

end

section
variable {Settings : Type}

/-! ### Refusing and quiet -/

/-- No reconciliation begins any more. -/
structure Refusing (w : ServiceWorld Settings) : Prop where
  refuses : w.acceptingReconcile = false
  begun : ∀ s, w.startTask = some s → s ∉ w.ready
  final : w.startTask.isSome ∨ w.stopTask.isSome

/-- The job is not scheduled. -/
def NoJob (w : ServiceWorld Settings) : Prop :=
  ∀ s, w.scheduler = some s → jobId ∉ s.jobs

/-- Every task inside the body of `reconcile` is one of these. -/
def Within (w : ServiceWorld Settings) (tasks : List Nat) : Prop :=
  ∀ i, placeAt w.tasks i ≠ none → i ∈ tasks

/-- No reconciliation runs or begins any more, and no job is scheduled. -/
structure Silent (w : ServiceWorld Settings) : Prop where
  refusing : Refusing w
  idle : Within w []
  noJob : NoJob w
  unregistered : w.schedulerRegistered = false

/-- A call of `shutdown` of the manager. -/
def Called (w : ServiceWorld Settings) (call : Nat) : Prop :=
  ∃ stage, w.manager.tasks[call]? = some (.shutdown stage)

/-- What `_start_impl` can rely on. -/
def StartHolds (w : ServiceWorld Settings) : StartImplStage → Prop
  | .rollingBack call _ => Silent w ∧ Called w call
  | .ended (.error _) => Silent w ∧ ∃ call, CallOver w.manager call
  | _ => True

/-- What `_stop_impl` can rely on. -/
def StopHolds (w : ServiceWorld Settings) : StopImplStage → Prop
  | .created => True
  | .awaitingStart _ => Refusing w
  | .removing _ tasks => Refusing w ∧ NoJob w ∧ Within w tasks
  | .gathering tasks =>
    Refusing w ∧ NoJob w ∧ w.schedulerRegistered = false ∧ Within w tasks
  | .shuttingDown call _ => Silent w ∧ Called w call
  | .ended result =>
    Silent w ∧ (∃ call, CallOver w.manager call) ∧ w.started = false ∧ result ≠ .error .cancelled

/-- What a task can rely on. A task that has not begun is in the queue. -/
def TaskHolds (w : ServiceWorld Settings) (i : Nat) : ServiceTask → Prop
  | .startImpl stage =>
    w.startTask = some i ∧ (i ∈ w.ready → stage = .created) ∧ StartHolds w stage
  | .stopImpl stage =>
    w.stopTask = some i ∧ (i ∈ w.ready → stage = .created) ∧ (i ∉ w.ready → Refusing w) ∧
      StopHolds w stage
  | _ => True

/-! ### Moves -/

/-- A task of the service enters, or goes on in, the body of `reconcile`. -/
def SameKind (t t' : ServiceTask) : Prop :=
  (Unshielded t ∧ Unshielded t') ∨ ∃ stage place, t = .startImpl stage ∧
    t' = .startImpl (.reconciling place) ∧ (stage = .created ∨ ∃ p, stage = .reconciling p)

/-- How the task of `_start_impl` leaves `reconcile`. -/
inductive StartLeaves (w : ServiceWorld Settings) : ServiceTask → Prop where
  | done : StartLeaves w (.startImpl (.ended (.ok ())))
  | rollingBack {call : Nat} {error : ManagerError} : Called w call →
      w.acceptingReconcile = false → StartLeaves w (.startImpl (.rollingBack call error))

/-- Where the task of `_stop_impl` goes on to. -/
inductive StopNext (w : ServiceWorld Settings) : StopImplStage → StopImplStage → Prop where
  | awaitingStart {task : Nat} : StopNext w .created (.awaitingStart task)
  | removing {stage : StopImplStage} {job : Nat} {tasks : List Nat} :
      (∀ result, stage ≠ .ended result) → NoJob w → Within w tasks →
      StopNext w stage (.removing job tasks)
  | gathering {stage : StopImplStage} {tasks : List Nat} : (∀ result, stage ≠ .ended result) →
      NoJob w → w.schedulerRegistered = false → Within w tasks →
      StopNext w stage (.gathering tasks)
  | shuttingDown {stage : StopImplStage} {call : Nat} {failures : List OrchestrationFailure} :
      (∀ result, stage ≠ .ended result) → NoJob w → w.schedulerRegistered = false →
      Within w [] → Called w call → StopNext w stage (.shuttingDown call failures)
  | ended {call : Nat} {failures : List OrchestrationFailure}
      {result : Except ServiceError Unit} : CallOver w.manager call → w.started = false →
      result ≠ .error .cancelled → StopNext w (.shuttingDown call failures) (.ended result)

/-- A caller of `stop` waits for the task of `_stop_impl`. When it is over it was cancelled, or it
has the result of that task. -/
def CallerHolds (w : ServiceWorld Settings) : ServiceTask → Prop
  | .stop (.awaiting task) => w.stopTask = some task
  | .stop (.ended result) => result = .error .cancelled ∨
    ∃ t : Nat, w.tasks[t]? = some (.stopImpl (.ended result))
  | _ => True

/-- The parts that the stretches of the service are made of. -/
inductive Move (cfg : ServiceConfig) [DecidableEq Settings] (w : ServiceWorld Settings) :
    ServiceWorld Settings → Prop where
  | manager {m' : ManagerWorld Settings} : GoesOn w.manager m' →
      Path (managerMachine cfg.manager) Any w.manager m' → Move cfg w { w with manager := m' }
  | refuse : Move cfg w { w with acceptingReconcile := false }
  | accept {s : Nat} {rest : List Nat} : w.ready = s :: rest → w.startTask = some s →
      Move cfg w { w with acceptingReconcile := true, ready := rest }
  | pop {i : Nat} {rest : List Nat} : w.ready = i :: rest → w.startTask ≠ some i →
      (w.stopTask = some i → w.acceptingReconcile = false) → Move cfg w { w with ready := rest }
  | note (lastFailure : Option OrchestrationFailure) (started : Bool) :
      (started = true → w.started = true ∨ w.stopTask = none ∧
        ∃ i : Nat, w.tasks[i]? = some (.startImpl (.ended (.ok ())))) →
      Move cfg w { w with lastFailure, started }
  | shrink {s s' : PeriodicScheduler} : w.scheduler = some s → (∀ k, k ∈ s'.jobs → k ∈ s.jobs) →
      Move cfg w { w with scheduler := some s' }
  | unregister : NoJob w → Move cfg w { w with schedulerRegistered := false }
  | moved {i : Nat} {t t' : ServiceTask} : w.tasks[i]? = some t → Unshielded t → Unshielded t' →
      t'.place? = t.place? → CallerHolds w t' → Move cfg w (w.goto i t')
  | spawned {t : ServiceTask} : Unshielded t → t.place? = none → CallerHolds w t →
      Move cfg w (w.spawn t)
  | created {t : ServiceTask} : Unshielded t → t.place? = none → CallerHolds w t →
      Move cfg w (w.create t)
  | startCreated : w.startTask = none → w.stopTask = none →
      Move cfg w ({ w with startTask := some w.tasks.length }.create (.startImpl .created))
  | stopCreated : w.stopTask = none →
      Move cfg w ({ w with stopTask := some w.tasks.length }.create (.stopImpl .created))
  | entered {i : Nat} {t t' : ServiceTask} : w.tasks[i]? = some t → SameKind t t' →
      t.place? = none → t'.place? = some .reading → w.acceptingReconcile = true →
      w.reconcileLock = false →
      Move cfg w ({ w with
        reconcileTasks := i :: w.reconcileTasks
        reconcileLock := true
        catalogReads := w.catalogReads + 1 }.goto i t')
  | called {i : Nat} {t t' : ServiceTask} {desired : List (CameraDefinition Settings)} :
      w.tasks[i]? = some t → SameKind t t' → t.place? = some .reading →
      t'.place? = some (.managing w.manager.tasks.length) →
      Move cfg w ({ w with manager := w.manager.callReconcile cfg.manager desired }.goto i t')
  | left {i : Nat} {t t' : ServiceTask} {p : ReconcilePlace}
      {lastFailure : Option OrchestrationFailure} : w.tasks[i]? = some t → t.place? = some p →
      t'.place? = none →
      (Unshielded t ∧ Unshielded t' ∧ CallerHolds w t') ∨ (¬Unshielded t ∧ StartLeaves w t') →
      (∀ call, p = .managing call → ∃ desired result,
        w.manager.tasks[call]? = some (.reconcile desired (.ended result))) →
      Move cfg w ({ w with
        reconcileLock := false
        reconcileTasks := w.reconcileTasks.erase i
        lastFailure }.goto i t')
  | rolledBack {i call : Nat} {error : ManagerError} {error' : ServiceError} :
      w.tasks[i]? = some (.startImpl (.rollingBack call error)) → CallOver w.manager call →
      Move cfg w (w.goto i (.startImpl (.ended (.error error'))))
  | scheduled {i : Nat} {s : PeriodicScheduler} :
      w.tasks[i]? = some (.startImpl (.ended (.ok ()))) → w.acceptingReconcile = true →
      w.scheduler = some s →
      Move cfg w ({ w with
        scheduler := some { s with jobs := s.jobs.insert jobId w.tasks.length }
        schedulerRegistered := true }.create (.job false .created))
  | stopMoved {t : Nat} {stage stage' : StopImplStage} : w.tasks[t]? = some (.stopImpl stage) →
      t ∉ w.ready → StopNext w stage stage' → Move cfg w (w.goto t (.stopImpl stage'))

/-! ### The invariant -/

/-- At most one task is inside the reconcile lock, and it is the only one that is tracked. -/
structure Occupied (w : ServiceWorld Settings) (holder : Option (Nat × ReconcilePlace)) : Prop where
  tracked : w.reconcileTasks = holder.toList.map (·.1)
  locked : w.reconcileLock = holder.isSome
  placed : ∀ i p, placeAt w.tasks i = some p ↔ holder = some (i, p)

/-- What holds of every reachable state of the service. -/
structure ServiceHeld (cfg : ServiceConfig) [DecidableEq Settings] (w : ServiceWorld Settings) :
    Prop where
  managed : Reachable (managerMachine cfg.manager) Any w.manager
  uncancelled : Uncancelled w.manager
  occupied : ∃ holder, Occupied w holder
  -- the calls of `reconcile` of the manager are those of the task inside the lock
  busy : ∀ call desired stage, w.manager.tasks[call]? = some (.reconcile desired stage) →
    (∀ result, stage ≠ .ended result) → ∃ i, placeAt w.tasks i = some (.managing call)
  owns : ∀ i call, placeAt w.tasks i = some (.managing call) →
    ∃ desired stage, w.manager.tasks[call]? = some (.reconcile desired stage)
  -- tasks begin in the order of their creation
  sorted : w.ready.Pairwise (· < ·)
  bounded : ∀ i ∈ w.ready, i < w.tasks.length
  known : ∀ s, w.startTask = some s → s < w.tasks.length
  earlier : ∀ s t, w.startTask = some s → w.stopTask = some t → s < t
  early : w.acceptingReconcile = true ∨ (∃ i, placeAt w.tasks i ≠ none) →
    ∃ s, w.startTask = some s ∧ s ∉ w.ready
  registered : w.schedulerRegistered = false → NoJob w
  scheduled : w.schedulerRegistered = true →
    ∃ i : Nat, w.tasks[i]? = some (.startImpl (.ended (.ok ())))
  armed : w.schedulerRegistered = true → w.scheduler.isSome = true
  starting : ∀ s, w.startTask = some s → ∃ stage, w.tasks[s]? = some (.startImpl stage)
  stopping : ∀ t, w.stopTask = some t → ∃ stage, w.tasks[t]? = some (.stopImpl stage)
  running : w.started = true → ∃ i : Nat, w.tasks[i]? = some (.startImpl (.ended (.ok ())))
  callers : ∀ (i : Nat) t, w.tasks[i]? = some t → CallerHolds w t
  each : ∀ (i : Nat) t, w.tasks[i]? = some t → TaskHolds w i t

/-- A move keeps what the tasks rely on, apart from the task that it moves. -/
structure Stable (w w' : ServiceWorld Settings) : Prop where
  startTask : ∀ s, w.startTask = some s → w'.startTask = some s
  stopTask : ∀ t, w.stopTask = some t → w'.stopTask = some t
  ready : ∀ i, i < w.tasks.length → i ∈ w'.ready → i ∈ w.ready
  begun : ∀ t, w.stopTask = some t → t ∈ w.ready → t ∉ w'.ready → Refusing w'
  refusing : Refusing w → Refusing w'
  noJob : Refusing w → NoJob w → NoJob w'
  within : Refusing w → ∀ i, placeAt w'.tasks i ≠ none → placeAt w.tasks i ≠ none
  registered : Refusing w → w.schedulerRegistered = false → w'.schedulerRegistered = false
  started : w.stopTask ≠ none → w.started = false → w'.started = false
  called : ∀ call, Called w call → Called w' call
  ended : ∀ call, CallOver w.manager call → CallOver w'.manager call

/-- A stable move keeps a service silent. -/
theorem Stable.silent {w w' : ServiceWorld Settings} (h : Stable w w') (hw : Silent w) :
    Silent w' where
  refusing := h.refusing hw.refusing
  idle i hi := hw.idle i (h.within hw.refusing i hi)
  noJob := h.noJob hw.refusing hw.noJob
  unregistered := h.registered hw.refusing hw.unregistered

/-- What a task that does not move can rely on. -/
theorem Stable.task {w w' : ServiceWorld Settings} (h : Stable w w') {i : Nat} {t : ServiceTask}
    (hlt : i < w.tasks.length) (ht : TaskHolds w i t) : TaskHolds w' i t := by
  cases t with
  -- a start that failed relies on the silence after its rollback
  | startImpl stage =>
    obtain ⟨hstart, hready, hstage⟩ := ht
    refine ⟨h.startTask i hstart, fun hi => hready (h.ready i hlt hi), ?_⟩
    cases stage with
    | rollingBack call error => exact ⟨h.silent hstage.1, h.called call hstage.2⟩
    | ended result =>
      cases result with
      | ok => trivial
      | error error =>
        obtain ⟨hsilent, call, hover⟩ := hstage
        exact ⟨h.silent hsilent, call, h.ended call hover⟩
    | created | reconciling => trivial
  -- what `_stop_impl` has achieved stays: no job, fewer tasks inside, nothing registered
  | stopImpl stage =>
    obtain ⟨hstop, hready, hrefusing, hstage⟩ := ht
    refine ⟨h.stopTask i hstop, fun hi => hready (h.ready i hlt hi), ?_, ?_⟩
    -- the task began in this move, or before
    · intro hi
      by_cases hbefore : i ∈ w.ready
      · exact h.begun i hstop hbefore hi
      · exact h.refusing (hrefusing hbefore)
    · have hwithin : ∀ {tasks}, Refusing w → Within w tasks → Within w' tasks :=
        fun hr hw j hj => hw j (h.within hr j hj)
      cases stage with
      | created => trivial
      | awaitingStart task => exact h.refusing hstage
      | removing job tasks =>
        obtain ⟨hr, hjob, hw⟩ := hstage
        exact ⟨h.refusing hr, h.noJob hr hjob, hwithin hr hw⟩
      | gathering tasks =>
        obtain ⟨hr, hjob, hregistered, hw⟩ := hstage
        exact ⟨h.refusing hr, h.noJob hr hjob, h.registered hr hregistered, hwithin hr hw⟩
      | shuttingDown call failures => exact ⟨h.silent hstage.1, h.called call hstage.2⟩
      | ended result =>
        obtain ⟨hsilent, ⟨call, hover⟩, hstarted, hresult⟩ := hstage
        refine ⟨h.silent hsilent, ⟨call, h.ended call hover⟩, ?_, hresult⟩
        exact h.started (by simp [hstop]) hstarted
  | start | reconcile | stop | job | remove | close => trivial

variable {cfg : ServiceConfig} {w w' : ServiceWorld Settings}

/-- The calls of `shutdown` of a manager that goes on. -/
theorem goesOn_calls {m' : ManagerWorld Settings} (h : GoesOn w.manager m') :
    (∀ call, Called w call → Called { w with manager := m' } call) ∧
      ∀ call, CallOver w.manager call → CallOver m' call := by
  constructor
  · intro call ⟨stage, ht⟩
    obtain ⟨stage', ht', -⟩ := h.shutdown_kept ht
    exact ⟨stage', ht'⟩
  · intro call ⟨result, ht⟩
    obtain ⟨stage', ht', rfl | hopen⟩ := h.shutdown_kept ht
    · exact ⟨result, ht'⟩
    · exact absurd rfl (hopen result)

/-- A new call of `reconcile` leaves the other calls. -/
theorem callReconcile_tasks (m : ManagerWorld Settings) (cfg : ManagerConfig)
    (desired : List (CameraDefinition Settings)) :
    ∃ stage, (m.callReconcile cfg desired).tasks = m.tasks ++ [.reconcile desired stage] := by
  unfold ManagerWorld.callReconcile
  split <;> exact ⟨_, rfl⟩

/-- The places after a move that takes no task into the body of `reconcile`, or out of it. -/
theorem places_set {i : Nat} {t t' : ServiceTask} (ht : w.tasks[i]? = some t)
    (hplace : t'.place? = t.place?) : placeAt (w.tasks.set i t') = placeAt w.tasks := by
  funext j
  rw [placeAt_set ht]
  split
  · rename_i heq
    rw [heq, placeAt_eq ht, hplace]
  · rfl

/-- A task created outside `reconcile` leaves the places of all tasks. -/
theorem places_append {t : ServiceTask} (hplace : t.place? = none) :
    placeAt (w.tasks ++ [t]) = placeAt w.tasks :=
  funext (placeAt_append hplace)

/-- A new call of the manager's `reconcile` leaves the calls that are there. -/
theorem callReconcile_calls (desired : List (CameraDefinition Settings)) {call : Nat}
    {t : ManagerTask Settings} (ht : w.manager.tasks[call]? = some t) :
    (w.manager.callReconcile cfg.manager desired).tasks[call]? = some t := by
  obtain ⟨stage, htasks⟩ := callReconcile_tasks w.manager cfg.manager desired
  rw [htasks]
  exact (List.getElem?_append_left (List.getElem?_eq_some_iff.mp ht).1).trans ht

/-- The service is over: `_stop_impl` returned or raised, or `_start_impl` raised. -/
def ServiceOver (w : ServiceWorld Settings) : Prop :=
  (∃ (t : Nat) (result : Except ServiceError Unit),
    w.tasks[t]? = some (.stopImpl (.ended result))) ∨
  ∃ (s : Nat) (error : ServiceError), w.tasks[s]? = some (.startImpl (.ended (.error error)))

/-- A move that leaves the queue, the manager and what the service has decided. -/
theorem stable_of_tasks {tasks : List ServiceTask} {reads : Nat} {reconcileTasks : List Nat}
    {lock : Bool} {failure : Option OrchestrationFailure}
    (hwithin : Refusing w → ∀ i, placeAt tasks i ≠ none → placeAt w.tasks i ≠ none) :
    Stable w { w with
      tasks, reconcileTasks, reconcileLock := lock, lastFailure := failure
      catalogReads := reads } where
  startTask _ h := h
  stopTask _ h := h
  ready _ _ h := h
  begun _ _ hin hout := absurd hin hout
  refusing h := ⟨h.refuses, h.begun, h.final⟩
  noJob _ h := h
  within := hwithin
  registered _ h := h
  started _ h := h
  called _ h := h
  ended _ h := h

variable [DecidableEq Settings]

omit [DecidableEq Settings] in
/-- A created task waits behind the others. -/
theorem ready_before {i : Nat} (hlt : i < w.tasks.length)
    (hmem : i ∈ w.ready ++ [w.tasks.length]) : i ∈ w.ready := by
  rcases List.mem_append.mp hmem with hmem | hmem
  · exact hmem
  · have := List.mem_singleton.mp hmem
    omega

/-- A service that refuses goes on refusing when a task is created. -/
theorem Refusing.create {t : ServiceTask} (hheld : ServiceHeld cfg w) (h : Refusing w) :
    Refusing (w.create t) where
  refuses := h.refuses
  begun s hs hmem := h.begun s hs (ready_before (hheld.known s hs) hmem)
  final := h.final

/-- One case for each move. What a move does not touch is as before (`fun _ h => h`), and what a
service that refuses keeps is vacuous where the move needs a service that accepts (`habsurd`). -/
theorem Move.stable (hheld : ServiceHeld cfg w) (h : Move cfg w w') : Stable w w' := by
  cases h with
  | manager hgoes hpath =>
    exact ⟨fun _ h => h, fun _ h => h, fun _ _ h => h, fun t _ hin hout => absurd hin hout,
      fun h => ⟨h.refuses, h.begun, h.final⟩, fun _ h => h, fun _ _ h => h, fun _ h => h,
      fun _ h => h, (goesOn_calls hgoes).1, (goesOn_calls hgoes).2⟩
  | refuse =>
    exact ⟨fun _ h => h, fun _ h => h, fun _ _ h => h, fun t _ hin hout => absurd hin hout,
      fun h => ⟨rfl, h.begun, h.final⟩, fun _ h => h, fun _ _ h => h, fun _ h => h,
      fun _ h => h, fun _ h => h, fun _ h => h⟩
  | @accept s rest hready hstart =>
    have habsurd : ¬Refusing w := fun h => h.begun s hstart (by simp [hready])
    refine ⟨fun _ h => h, fun _ h => h, fun i _ h => by simp [hready, show i ∈ rest from h], ?_,
      fun h => absurd h habsurd, fun h => absurd h habsurd, fun h => absurd h habsurd,
      fun h => absurd h habsurd, fun _ h => h, fun _ h => h, fun _ h => h⟩
    intro t hstop hin hout
    -- the task of `_start_impl` is the oldest one, so `_stop_impl` is behind it
    have hlt := hheld.earlier s t hstart hstop
    rw [hready] at hin
    rcases List.mem_cons.mp hin with rfl | hin
    · omega
    · exact absurd hin hout
  | @pop i rest hready hstart hstop =>
    have hrest : ∀ {j}, j ∈ rest → j ∈ w.ready := fun h => by simp [hready, h]
    refine ⟨fun _ h => h, fun _ h => h, fun j _ h => hrest h, ?_, ?_, fun _ h => h,
      fun _ _ h => h, fun _ h => h, fun _ h => h, fun _ h => h, fun _ h => h⟩
    · intro t ht hin hout
      rw [hready] at hin
      rcases List.mem_cons.mp hin with rfl | hin
      · refine ⟨hstop ht, fun s hs hmem => ?_, .inr (by simp [ht])⟩
        -- the queue is in the order of creation
        have hlt := hheld.earlier s t hs ht
        have hsorted := hheld.sorted
        rw [hready] at hsorted
        have := (List.pairwise_cons.mp hsorted).1 s hmem
        omega
      · exact absurd hin hout
    · exact fun h => ⟨h.refuses, fun s hs hmem => h.begun s hs (hrest hmem), h.final⟩
  | note _ _ hstarted =>
    refine ⟨fun _ h => h, fun _ h => h, fun _ _ h => h, fun t _ hin hout => absurd hin hout,
      fun h => ⟨h.refuses, h.begun, h.final⟩, fun _ h => h, fun _ _ h => h, fun _ h => h,
      ?_, fun _ h => h, fun _ h => h⟩
    intro hstop hbefore
    refine Bool.eq_false_iff.mpr fun hafter => ?_
    rcases hstarted hafter with h | ⟨h, -⟩
    · rw [hbefore] at h
      cases h
    · exact hstop h
  | shrink hscheduler hjobs =>
    refine ⟨fun _ h => h, fun _ h => h, fun _ _ h => h, fun t _ hin hout => absurd hin hout,
      fun h => ⟨h.refuses, h.begun, h.final⟩, ?_, fun _ _ h => h, fun _ h => h,
      fun _ h => h, fun _ h => h, fun _ h => h⟩
    intro _ hjob s' hs' hmem
    cases hs'
    exact hjob _ hscheduler (hjobs _ hmem)
  | unregister hjob =>
    exact ⟨fun _ h => h, fun _ h => h, fun _ _ h => h, fun t _ hin hout => absurd hin hout,
      fun h => ⟨h.refuses, h.begun, h.final⟩, fun _ h => h, fun _ _ h => h, fun _ _ => rfl,
      fun _ h => h, fun _ h => h, fun _ h => h⟩
  | moved ht _ _ hplace _ =>
    exact stable_of_tasks fun _ i hi => placeAt_of_set ht hi fun h => hplace ▸ h
  | spawned _ hplace _ =>
    exact stable_of_tasks fun _ i hi => by rwa [placeAt_append hplace] at hi
  | created _ hplace _ =>
    refine ⟨fun _ h => h, fun _ h => h, fun i hlt h => ready_before hlt h, ?_,
      fun h => h.create hheld, fun _ h => h, fun _ i hi => ?_, fun _ h => h, fun _ h => h,
      fun _ h => h, fun _ h => h⟩
    · exact fun t _ hin hout => absurd (List.mem_append_left _ hin) hout
    · rwa [ServiceWorld.create, placeAt_append hplace] at hi
  | startCreated hstart hstop =>
    have habsurd : ¬Refusing w := fun h => by
      have := h.final
      simp [hstart, hstop] at this
    refine ⟨fun s h => by simp [hstart] at h, fun _ h => h, fun i hlt h => ready_before hlt h,
      fun t h => by simp [hstop] at h, fun h => absurd h habsurd, fun h => absurd h habsurd,
      fun h => absurd h habsurd, fun h => absurd h habsurd, fun _ h => h, fun _ h => h,
      fun _ h => h⟩
  | stopCreated hstop =>
    refine ⟨fun _ h => h, fun t h => by simp [hstop] at h, fun i hlt h => ready_before hlt h,
      fun t h => by simp [hstop] at h, ?_, fun _ h => h, fun _ i hi => ?_, fun _ h => h,
      fun h => absurd hstop h, fun _ h => h, fun _ h => h⟩
    · intro h
      have := h.create (t := .stopImpl .created) hheld
      exact ⟨this.refuses, this.begun, .inr rfl⟩
    · rwa [ServiceWorld.create, placeAt_append rfl] at hi
  | entered ht _ _ _ haccepting _ =>
    exact stable_of_tasks fun h => by simp [h.refuses] at haccepting
  | @called i t t' desired ht _ hplace hplace' =>
    -- the new call is behind the calls that the tasks know
    refine ⟨fun _ h => h, fun _ h => h, fun _ _ h => h, fun t _ hin hout => absurd hin hout,
      fun h => ⟨h.refuses, h.begun, h.final⟩, fun _ h => h,
      fun _ j hj => placeAt_of_set ht hj fun _ => by simp [hplace], fun _ h => h,
      fun _ h => h, ?_, ?_⟩
    · exact fun call ⟨stage, hcall⟩ => ⟨stage, callReconcile_calls desired hcall⟩
    · exact fun call ⟨result, hcall⟩ => ⟨result, callReconcile_calls desired hcall⟩
  | left ht hplace hplace' _ _ =>
    exact stable_of_tasks fun _ j hj => placeAt_of_set ht hj fun h => absurd hplace' h
  | rolledBack ht _ =>
    exact stable_of_tasks fun _ i hi => placeAt_of_set ht hi fun h => h
  | scheduled ht haccepting _ =>
    have habsurd : ¬Refusing w := fun h => by simp [h.refuses] at haccepting
    exact ⟨fun _ h => h, fun _ h => h, fun i hlt h => ready_before hlt h,
      fun t _ hin hout => absurd (List.mem_append_left _ hin) hout, fun h => absurd h habsurd,
      fun h => absurd h habsurd, fun h => absurd h habsurd, fun h => absurd h habsurd,
      fun _ h => h, fun _ h => h, fun _ h => h⟩
  | stopMoved ht _ hnext =>
    exact stable_of_tasks fun _ i hi => placeAt_of_set ht hi fun h => h

/-! ### Every move keeps the invariant -/

/-- How a move changes the places: not at all, or one task enters, goes on or leaves. -/
theorem Move.places (h : Move cfg w w') :
    (placeAt w'.tasks = placeAt w.tasks ∧ w'.reconcileTasks = w.reconcileTasks ∧
      w'.reconcileLock = w.reconcileLock) ∨
    (∃ i, placeAt w.tasks i = none ∧ w.acceptingReconcile = true ∧ w.reconcileLock = false ∧
      (∀ j, placeAt w'.tasks j = if j = i then some .reading else placeAt w.tasks j) ∧
      w'.reconcileTasks = i :: w.reconcileTasks ∧ w'.reconcileLock = true) ∨
    (∃ i, placeAt w.tasks i = some .reading ∧
      (∀ j, placeAt w'.tasks j =
        if j = i then some (.managing w.manager.tasks.length) else placeAt w.tasks j) ∧
      w'.reconcileTasks = w.reconcileTasks ∧ w'.reconcileLock = w.reconcileLock) ∨
    (∃ i p, placeAt w.tasks i = some p ∧
      (∀ j, placeAt w'.tasks j = if j = i then none else placeAt w.tasks j) ∧
      w'.reconcileTasks = w.reconcileTasks.erase i ∧ w'.reconcileLock = false) := by
  cases h with
  | manager | refuse | accept | pop | note | shrink | unregister => exact .inl ⟨rfl, rfl, rfl⟩
  | moved ht _ _ hplace _ => exact .inl ⟨places_set ht hplace, rfl, rfl⟩
  | spawned _ hplace _ | created _ hplace _ => exact .inl ⟨places_append hplace, rfl, rfl⟩
  | startCreated | stopCreated | scheduled => exact .inl ⟨places_append rfl, rfl, rfl⟩
  | rolledBack ht _ => exact .inl ⟨places_set ht rfl, rfl, rfl⟩
  | stopMoved ht _ _ => exact .inl ⟨places_set ht rfl, rfl, rfl⟩
  -- three moves change a place: entering, calling the manager and leaving
  | entered ht _ hplace hplace' haccepting hlock =>
    refine .inr (.inl ⟨_, (placeAt_eq ht).trans hplace, haccepting, hlock, ?_, rfl, rfl⟩)
    intro j
    rw [ServiceWorld.goto, placeAt_set ht, hplace']
  | called ht _ hplace hplace' =>
    refine .inr (.inr (.inl ⟨_, (placeAt_eq ht).trans hplace, ?_, rfl, rfl⟩))
    intro j
    rw [ServiceWorld.goto, placeAt_set ht, hplace']
  | left ht hplace hplace' _ _ =>
    refine .inr (.inr (.inr ⟨_, _, (placeAt_eq ht).trans hplace, ?_, rfl, rfl⟩))
    intro j
    rw [ServiceWorld.goto, placeAt_set ht, hplace']

/-- At most one task is inside the lock after a move: it enters a free lock, goes on inside, or
leaves. -/
theorem Move.occupied (hheld : ServiceHeld cfg w) (h : Move cfg w w') :
    ∃ holder, Occupied w' holder := by
  obtain ⟨holder, htracked, hlocked, hplaced⟩ := hheld.occupied
  rcases h.places with ⟨hsame, htasks, hlock⟩ | ⟨i, hnone, -, hfree, hplaces, htasks, hlock⟩ |
    ⟨i, hreading, hplaces, htasks, hlock⟩ | ⟨i, p, hplace, hplaces, htasks, hlock⟩
  · exact ⟨holder, htasks.trans htracked, hlock.trans hlocked, fun j q => by rw [hsame, hplaced]⟩
  · -- the lock is free, so nobody was inside
    obtain rfl : holder = none := by
      rw [hfree] at hlocked
      exact Option.not_isSome_iff_eq_none.mp (by simp [← hlocked])
    refine ⟨some (i, .reading), by simp [htasks, htracked], hlock, fun j q => ?_⟩
    rw [hplaces]
    split
    · rename_i heq
      simp [heq]
    · rename_i hne
      rw [hplaced]
      simp [Ne.symm hne]
  -- the holder goes on from reading to its call
  · obtain rfl := (hplaced i .reading).mp hreading
    refine ⟨some (i, .managing w.manager.tasks.length), htasks.trans htracked,
      hlock.trans hlocked, fun j q => ?_⟩
    rw [hplaces]
    split
    · rename_i heq
      simp [heq]
    · rename_i hne
      rw [hplaced]
      simp [Ne.symm hne]
  -- the holder leaves, and the lock is free
  · obtain rfl := (hplaced i p).mp hplace
    refine ⟨none, by simp [htasks, htracked], hlock, fun j q => ?_⟩
    rw [hplaces]
    split
    · simp
    · rename_i hne
      rw [hplaced]
      simp [Ne.symm hne]

/-- What a move does to the manager: it goes on, or the task that read the catalog calls
`reconcile`. -/
theorem Move.manages (h : Move cfg w w') :
    (GoesOn w.manager w'.manager ∧ Path (managerMachine cfg.manager) Any w.manager w'.manager) ∨
    ∃ i desired, placeAt w.tasks i = some .reading ∧
      placeAt w'.tasks i = some (.managing w.manager.tasks.length) ∧
      w'.manager = w.manager.callReconcile cfg.manager desired := by
  cases h with
  | manager hgoes hpath => exact .inl ⟨hgoes, hpath⟩
  | @called i t t' desired ht _ hplace hplace' =>
    refine .inr ⟨i, desired, (placeAt_eq ht).trans hplace, ?_, rfl⟩
    rw [ServiceWorld.goto, placeAt_set ht, if_pos rfl, hplace']
  | _ => exact .inl ⟨.refl fun _ => .same, .refl⟩

/-- A move is a run of the manager. -/
theorem Move.path (h : Move cfg w w') :
    Path (managerMachine cfg.manager) Any w.manager w'.manager := by
  rcases h.manages with ⟨-, hpath⟩ | ⟨i, desired, -, -, hcall⟩
  · exact hpath
  · rw [hcall]
    exact .step (.reconcile desired) .refl trivial rfl

/-- No call of the manager's `shutdown` is cancelled: only the two shielded tasks wait for one. -/
theorem Move.uncancelled (hheld : ServiceHeld cfg w) (h : Move cfg w w') :
    Uncancelled w'.manager := by
  rcases h.manages with ⟨hgoes, -⟩ | ⟨i, desired, -, -, hcall⟩
  · exact hgoes.uncancelled hheld.uncancelled
  · obtain ⟨stage, htasks⟩ := callReconcile_tasks w.manager cfg.manager desired
    intro call ht
    rw [hcall, htasks] at ht
    have hgrown : Evolves Eq (fun t => t = .reconcile desired stage) w.manager.tasks
        (w.manager.tasks ++ [.reconcile desired stage]) :=
      .append (fun _ => rfl) fun t hmem => List.mem_singleton.mp hmem
    rcases hgrown.cases ht with ⟨t, hbefore, rfl⟩ | ⟨-, hnew⟩
    · exact hheld.uncancelled call hbefore
    · cases hnew

/-- A call of `reconcile` that is not over belongs to the task inside the lock. -/
def Busy (w : ServiceWorld Settings) : Prop :=
  ∀ call desired stage, w.manager.tasks[call]? = some (.reconcile desired stage) →
    (∀ result, stage ≠ .ended result) → ∃ i, placeAt w.tasks i = some (.managing call)

omit [DecidableEq Settings] in
/-- Calls keep their holder when no task leaves its call. -/
theorem Busy.places {tasks : List ServiceTask} (hbusy : Busy w)
    (h : ∀ i call, placeAt w.tasks i = some (.managing call) →
      placeAt tasks i = some (.managing call)) : ∀ call desired stage,
    w.manager.tasks[call]? = some (.reconcile desired stage) →
    (∀ result, stage ≠ .ended result) → ∃ i, placeAt tasks i = some (.managing call) := by
  intro call desired stage ht hopen
  obtain ⟨i, hi⟩ := hbusy call desired stage ht hopen
  exact ⟨i, h i call hi⟩

/-- A call of `reconcile` begins with its holder inside the lock, and the holder leaves when it is
over. -/
theorem Move.busy (hheld : ServiceHeld cfg w) (h : Move cfg w w') : Busy w' := by
  have hbusy : Busy w := hheld.busy
  cases h with
  | manager hgoes _ =>
    intro call desired stage ht hopen
    obtain ⟨stage', hbefore, hbusy'⟩ := hgoes.reconcile_old ht hopen
    exact hbusy call desired stage' hbefore hbusy'
  | refuse | accept | pop | note | shrink | unregister => exact hbusy
  | moved ht _ _ hplace _ =>
    exact hbusy.places fun i call hi => (congrFun (places_set ht hplace) i).trans hi
  | spawned _ hplace _ | created _ hplace _ =>
    exact hbusy.places fun i call hi => (placeAt_append hplace i).trans hi
  | startCreated | stopCreated | scheduled =>
    exact hbusy.places fun i call hi => by rw [← hi]; exact placeAt_append (by rfl) i
  | rolledBack ht _ | stopMoved ht _ _ =>
    exact hbusy.places fun i call hi =>
      (placeAt_other ht (by simp [hi, ServiceTask.place?]) _).trans hi
  | entered ht _ hplace _ _ _ =>
    exact hbusy.places fun i call hi => (placeAt_other ht (by simp [hi, hplace]) _).trans hi
  | @called k t t' desired ht _ hplace hplace' =>
    intro call desired' stage hcall hopen
    obtain ⟨stage', htasks⟩ := callReconcile_tasks w.manager cfg.manager desired
    rw [ServiceWorld.goto, htasks] at hcall
    rw [ServiceWorld.goto]
    rcases Nat.lt_or_ge call w.manager.tasks.length with hlt | hge
    · rw [List.getElem?_append_left hlt] at hcall
      exact hbusy.places (fun i call hi => (placeAt_other ht (by simp [hi, hplace]) _).trans hi)
        call desired' stage hcall hopen
    · -- the new call is that of the task that read the catalog
      have hlast := (List.getElem?_eq_some_iff.mp hcall).1
      simp only [List.length_append, List.length_singleton] at hlast
      obtain rfl : call = w.manager.tasks.length := by omega
      exact ⟨k, by rw [placeAt_set ht, if_pos rfl, hplace']⟩
  | @left k t t' p _ ht hplace _ _ hover =>
    intro call desired stage hcall hopen
    obtain ⟨i, hi⟩ := hbusy call desired stage hcall hopen
    refine ⟨i, (placeAt_other ht ?_ t').trans hi⟩
    rw [hi, hplace]
    intro heq
    -- the call of the task that leaves is over
    obtain ⟨desired', result, hended⟩ := hover call (Option.some.inj heq).symm
    cases hcall.symm.trans hended
    exact hopen result rfl

/-- The call that a task waits for is a call of `reconcile`. -/
def Owns (w : ServiceWorld Settings) : Prop :=
  ∀ i call, placeAt w.tasks i = some (.managing call) →
    ∃ desired stage, w.manager.tasks[call]? = some (.reconcile desired stage)

omit [DecidableEq Settings] in
/-- Holders keep their calls when no task takes a new one. -/
theorem Owns.places {tasks : List ServiceTask} (howns : Owns w)
    (h : ∀ i call, placeAt tasks i = some (.managing call) →
      placeAt w.tasks i = some (.managing call)) : ∀ i call,
    placeAt tasks i = some (.managing call) →
    ∃ desired stage, w.manager.tasks[call]? = some (.reconcile desired stage) :=
  fun i call hi => howns i call (h i call hi)

/-- A task that waits for a call waits for one it made. -/
theorem Move.owns (hheld : ServiceHeld cfg w) (h : Move cfg w w') : Owns w' := by
  have howns : Owns w := hheld.owns
  -- a task that moves waits for the same call
  have hset : ∀ {k : Nat} {t t' : ServiceTask}, w.tasks[k]? = some t →
      (∀ call, t'.place? = some (.managing call) → t.place? = some (.managing call)) →
      ∀ i call, placeAt (w.tasks.set k t') i = some (.managing call) →
        placeAt w.tasks i = some (.managing call) := by
    intro k t t' ht hplace i call hi
    rcases placeAt_set_cases ht hi with ⟨rfl, hmanaging⟩ | hbefore
    · exact (placeAt_eq ht).trans (hplace call hmanaging)
    · exact hbefore
  cases h with
  | manager hgoes _ =>
    intro i call hi
    obtain ⟨desired, stage, ht⟩ := howns i call hi
    obtain ⟨stage', ht'⟩ := hgoes.reconcile_kept ht
    exact ⟨desired, stage', ht'⟩
  | refuse | accept | pop | note | shrink | unregister => exact howns
  | moved ht _ _ hplace _ => exact howns.places (hset ht fun call h => hplace ▸ h)
  | spawned _ hplace _ | created _ hplace _ =>
    exact howns.places fun i call hi => (placeAt_append hplace i).symm.trans hi
  | startCreated | stopCreated | scheduled =>
    exact howns.places fun i call hi => by rw [← hi]; exact (placeAt_append (by rfl) i).symm
  | rolledBack ht _ | stopMoved ht _ _ => exact howns.places (hset ht fun call h => by cases h)
  | entered ht _ _ hplace' _ _ =>
    exact howns.places (hset ht fun call h => by rw [hplace'] at h; cases h)
  | left ht _ hplace' _ _ =>
    exact howns.places (hset ht fun call h => by rw [hplace'] at h; cases h)
  -- the holder takes the call that it has just made
  | @called k t t' desired ht _ hplace hplace' =>
    obtain ⟨stage', htasks⟩ := callReconcile_tasks w.manager cfg.manager desired
    intro i call hi
    rcases placeAt_set_cases ht hi with ⟨-, hmanaging⟩ | hbefore
    · rw [hplace'] at hmanaging
      cases hmanaging
      exact ⟨desired, stage', by simp [ServiceWorld.goto, htasks]⟩
    · obtain ⟨desired', stage, hcall⟩ := howns i call hbefore
      exact ⟨desired', stage, callReconcile_calls desired hcall⟩

/-- How a move changes the queue: not at all, its oldest task begins, or a task is created. -/
theorem Move.queue (h : Move cfg w w') :
    (w'.ready = w.ready ∧ w.tasks.length ≤ w'.tasks.length) ∨
    (∃ i, w.ready = i :: w'.ready ∧ w'.tasks = w.tasks) ∨
    (w'.ready = w.ready ++ [w.tasks.length] ∧ w'.tasks.length = w.tasks.length + 1) := by
  cases h with
  | manager | refuse | note | shrink | unregister => exact .inl ⟨rfl, Nat.le_refl _⟩
  | accept hready _ | pop hready _ _ => exact .inr (.inl ⟨_, hready, rfl⟩)
  | moved | rolledBack | stopMoved | entered | called | left =>
    exact .inl ⟨rfl, by simp [ServiceWorld.goto]⟩
  | spawned => exact .inl ⟨rfl, by simp [ServiceWorld.spawn]⟩
  | created | startCreated | stopCreated | scheduled =>
    exact .inr (.inr ⟨rfl, by simp [ServiceWorld.create]⟩)

/-- Tasks are queued in the order of their creation, and the queue is read from its front. -/
theorem Move.sorted (hheld : ServiceHeld cfg w) (h : Move cfg w w') :
    w'.ready.Pairwise (· < ·) ∧ ∀ i ∈ w'.ready, i < w'.tasks.length := by
  have hsorted := hheld.sorted
  have hbounded := hheld.bounded
  rcases h.queue with ⟨hready, hlength⟩ | ⟨i, hready, htasks⟩ | ⟨hready, hlength⟩
  · rw [hready]
    exact ⟨hsorted, fun i hi => Nat.lt_of_lt_of_le (hbounded i hi) hlength⟩
  · rw [hready] at hsorted hbounded
    rw [htasks]
    exact ⟨(List.pairwise_cons.mp hsorted).2, fun j hj => hbounded j (by simp [hj])⟩
  · rw [hready, hlength]
    constructor
    · refine List.pairwise_append.mpr ⟨hsorted, List.pairwise_singleton _ _, ?_⟩
      intro i hi j hj
      rw [List.mem_singleton.mp hj]
      exact hbounded i hi
    · intro i hi
      rcases List.mem_append.mp hi with hi | hi
      · exact Nat.lt_succ_of_lt (hbounded i hi)
      · rw [List.mem_singleton.mp hi]
        omega

/-- How a move changes the tasks of `_start_impl` and `_stop_impl`: not at all, or one is created
as the last task. -/
theorem Move.owned (h : Move cfg w w') :
    (w'.startTask = w.startTask ∨ w.startTask = none ∧ w.stopTask = none ∧
      w'.startTask = some w.tasks.length) ∧
    (w'.stopTask = w.stopTask ∨ w.stopTask = none ∧ w'.startTask = w.startTask ∧
      w'.stopTask = some w.tasks.length) ∧ w.tasks.length ≤ w'.tasks.length ∧
    (w'.startTask ≠ w.startTask → w.tasks.length < w'.tasks.length ∧ w'.stopTask = none) := by
  cases h with
  | startCreated hstart hstop =>
    exact ⟨.inr ⟨hstart, hstop, rfl⟩, .inl rfl, by simp [ServiceWorld.create],
      fun _ => ⟨by simp [ServiceWorld.create], hstop⟩⟩
  | stopCreated hstop =>
    exact ⟨.inl rfl, .inr ⟨hstop, rfl, rfl⟩, by simp [ServiceWorld.create],
      fun hne => absurd rfl hne⟩
  | _ =>
    exact ⟨.inl rfl, .inl rfl, by simp [ServiceWorld.create, ServiceWorld.goto,
      ServiceWorld.spawn], fun hne => absurd rfl hne⟩

/-- The task of `_start_impl` is created before that of `_stop_impl`. -/
theorem Move.order (hheld : ServiceHeld cfg w) (h : Move cfg w w') :
    (∀ s, w'.startTask = some s → s < w'.tasks.length) ∧
      ∀ s t, w'.startTask = some s → w'.stopTask = some t → s < t := by
  obtain ⟨hstart, hstop, hlength, hnew⟩ := h.owned
  have hknown : ∀ s, w'.startTask = some s → s < w'.tasks.length := by
    intro s hs
    rcases hstart with heq | ⟨hnone, -, hlast⟩
    · exact Nat.lt_of_lt_of_le (hheld.known s (heq ▸ hs)) hlength
    · cases hs.symm.trans hlast
      exact (hnew (by simp [hnone, hlast])).1
  refine ⟨hknown, fun s t hs ht => ?_⟩
  rcases hstart with heq | ⟨hnone, -, hlast⟩
  · rcases hstop with heq' | ⟨-, -, hlast⟩
    · exact hheld.earlier s t (heq ▸ hs) (heq' ▸ ht)
    · cases ht.symm.trans hlast
      exact hheld.known s (heq ▸ hs)
  · -- `start` creates its task only as long as `stop` was not called
    have := (hnew (by simp [hnone, hlast])).2
    simp [this] at ht

/-- Reconciliations are accepted only after `_start_impl` began. -/
theorem Move.early (hheld : ServiceHeld cfg w) (h : Move cfg w w') :
    w'.acceptingReconcile = true ∨ (∃ i, placeAt w'.tasks i ≠ none) →
      ∃ s, w'.startTask = some s ∧ s ∉ w'.ready := by
  -- most moves let nobody in
  have hkept : ∀ {tasks}, (∀ i, placeAt tasks i ≠ none → placeAt w.tasks i ≠ none) →
      (w.acceptingReconcile = true ∨ ∃ i, placeAt tasks i ≠ none) →
      ∃ s, w.startTask = some s ∧ s ∉ w.ready := by
    rintro tasks hplaces (haccepting | ⟨i, hi⟩)
    · exact hheld.early (.inl haccepting)
    · exact hheld.early (.inr ⟨i, hplaces i hi⟩)
  -- a created task is behind the task of `_start_impl`
  have hbehind : (∃ s, w.startTask = some s ∧ s ∉ w.ready) →
      ∃ s, w.startTask = some s ∧ s ∉ w.ready ++ [w.tasks.length] := by
    rintro ⟨s, hs, hout⟩
    exact ⟨s, hs, fun hin => hout (ready_before (hheld.known s hs) hin)⟩
  cases h with
  | manager | note | shrink | unregister => exact hheld.early
  | refuse =>
    rintro (haccepting | hplaced)
    · cases haccepting
    · exact hheld.early (.inr hplaced)
  | @accept s rest hready hstart =>
    have hsorted := hheld.sorted
    rw [hready] at hsorted
    exact fun _ => ⟨s, hstart, fun hin =>
      Nat.lt_irrefl s ((List.pairwise_cons.mp hsorted).1 s hin)⟩
  | pop hready _ _ =>
    intro hcase
    obtain ⟨s, hs, hout⟩ := hheld.early hcase
    exact ⟨s, hs, fun hin => hout (by simp [hready, show s ∈ _ from hin])⟩
  | moved ht _ _ hplace _ =>
    exact hkept fun i hi => placeAt_of_set ht hi fun h => hplace ▸ h
  | spawned _ hplace _ => exact hkept fun i hi => placeAt_of_append hi hplace
  | created _ hplace _ =>
    exact fun hcase => hbehind (hkept (fun i hi => placeAt_of_append hi hplace) hcase)
  | startCreated hstart _ =>
    -- nothing was accepted before the first `start`
    intro hcase
    obtain ⟨s, hs, -⟩ := hkept (fun i hi => placeAt_of_append hi rfl) hcase
    simp [hstart] at hs
  | stopCreated _ =>
    exact fun hcase => hbehind (hkept (fun i hi => placeAt_of_append hi rfl) hcase)
  | entered _ _ _ _ haccepting _ => exact fun _ => hheld.early (.inl haccepting)
  | called ht _ hplace _ =>
    exact hkept fun i hi => placeAt_of_set ht hi fun _ => by simp [hplace]
  | left ht _ hplace' _ _ =>
    exact hkept fun i hi => placeAt_of_set ht hi fun h => absurd hplace' h
  | rolledBack ht _ | stopMoved ht _ _ =>
    exact hkept fun i hi => placeAt_of_set ht hi fun h => h
  | scheduled _ haccepting _ => exact fun _ => hbehind (hheld.early (.inl haccepting))

/-- The service forgets the registration only after the job is gone. -/
theorem Move.registered (hheld : ServiceHeld cfg w) (h : Move cfg w w')
    (hfree : w'.schedulerRegistered = false) : NoJob w' := by
  cases h with
  | shrink hscheduler hjobs =>
    intro s' hs' hmem
    cases hs'
    exact hheld.registered hfree _ hscheduler (hjobs _ hmem)
  | unregister hjob => exact hjob
  | scheduled => cases hfree
  | _ => exact hheld.registered hfree

/-- A task of `_start_impl` or `_stop_impl` that is over stays as it is. -/
theorem Move.over_kept (h : Move cfg w w') {i : Nat} {u : ServiceTask}
    (hu : w.tasks[i]? = some u) (hshielded : ¬Unshielded u) (hover : u.result? ≠ none) :
    w'.tasks[i]? = some u := by
  have happend : ∀ {t : ServiceTask}, (w.tasks ++ [t])[i]? = some u :=
    (List.getElem?_append_left (List.getElem?_eq_some_iff.mp hu).1).trans hu
  have hset : ∀ {k : Nat} {t t' : ServiceTask}, w.tasks[k]? = some t → t ≠ u →
      (w.tasks.set k t')[i]? = some u := by
    intro k t t' ht hne
    rw [List.getElem?_set_ne, hu]
    rintro rfl
    exact hne (Option.some.inj (ht.symm.trans hu))
  cases h with
  | manager | refuse | accept | pop | note | shrink | unregister => exact hu
  | spawned | created | startCreated | stopCreated | scheduled => exact happend
  | moved ht hunshielded _ _ _ =>
    refine hset ht ?_
    rintro rfl
    exact hshielded hunshielded
  | entered ht hkind _ _ _ _ | called ht hkind _ _ =>
    -- `_start_impl` goes on from `created` or from inside `reconcile`
    refine hset ht ?_
    rintro rfl
    rcases hkind with ⟨hunshielded, -⟩ | ⟨stage, place, rfl, -, rfl | ⟨p, rfl⟩⟩
    · exact hshielded hunshielded
    · exact hover rfl
    · exact hover rfl
  | @left k t t' p failure ht hplace _ _ _ =>
    refine hset ht ?_
    rintro rfl
    cases t with
    | startImpl stage =>
      cases stage with
      | reconciling => exact hover rfl
      | created | rollingBack | ended => cases hplace
    | stopImpl => cases hplace
    | start | reconcile | stop | job | remove | close => exact hshielded trivial
  | rolledBack ht _ =>
    refine hset ht ?_
    rintro rfl
    exact hover rfl
  | @stopMoved k stage stage' ht _ hnext =>
    refine hset ht ?_
    rintro rfl
    have hopen : ∀ result, stage ≠ .ended result := by
      cases hnext with
      | awaitingStart | ended => exact fun _ h => by cases h
      | removing hopen | gathering hopen | shuttingDown hopen => exact hopen
    cases stage with
    | ended result => exact hopen result rfl
    | created | awaitingStart | removing | gathering | shuttingDown => exact hover rfl

/-- A task of `_start_impl` that succeeded stays so. -/
theorem Move.succeeded (h : Move cfg w w')
    (hw : ∃ i : Nat, w.tasks[i]? = some (.startImpl (.ended (.ok ())))) :
    ∃ i : Nat, w'.tasks[i]? = some (.startImpl (.ended (.ok ()))) := by
  obtain ⟨i, hi⟩ := hw
  exact ⟨i, h.over_kept hi id fun h => by cases h⟩

/-- The task of `_start_impl` is over before it adds the job. -/
theorem Move.scheduled_kept (hheld : ServiceHeld cfg w) (h : Move cfg w w')
    (hregistered : w'.schedulerRegistered = true) :
    ∃ i : Nat, w'.tasks[i]? = some (.startImpl (.ended (.ok ()))) := by
  refine h.succeeded ?_
  cases h with
  | unregister => cases hregistered
  | scheduled hover _ _ => exact ⟨_, hover⟩
  | _ => exact hheld.scheduled hregistered

/-- The service is started only by a `_start_impl` that returned. -/
theorem Move.running (hheld : ServiceHeld cfg w) (h : Move cfg w w')
    (hstarted : w'.started = true) :
    ∃ i : Nat, w'.tasks[i]? = some (.startImpl (.ended (.ok ()))) := by
  refine h.succeeded ?_
  cases h with
  | note _ _ hnote =>
    rcases hnote hstarted with hbefore | ⟨-, hover⟩
    · exact hheld.running hbefore
    · exact hover
  | _ => exact hheld.running hstarted

/-- What a caller of `stop` knows stays true. -/
theorem Move.caller (h : Move cfg w w') {t : ServiceTask} (ht : CallerHolds w t) :
    CallerHolds w' t := by
  cases t with
  | stop stage =>
    cases stage with
    | ended result =>
      rcases ht with hcancelled | ⟨k, hk⟩
      · exact .inl hcancelled
      · exact .inr ⟨k, h.over_kept hk id fun h => by cases h⟩
    | awaiting task =>
      rcases h.owned.2.1 with heq | ⟨hnone, -⟩
      · exact heq.trans ht
      · exact absurd (hnone.symm.trans ht) (by simp)
    | created => trivial
  | start | startImpl | reconcile | stopImpl | job | remove | close => trivial

omit [DecidableEq Settings] in
/-- A task inside `reconcile` is no caller of `stop`. -/
theorem caller_placed {t : ServiceTask} {p : ReconcilePlace} (h : t.place? = some p) :
    CallerHolds w t := by
  cases t with
  | stop => cases h
  | start | startImpl | reconcile | stopImpl | job | remove | close => trivial

/-- A caller of `stop` waits for the task of `_stop_impl` and takes its result. -/
theorem Move.callers (hheld : ServiceHeld cfg w) (h : Move cfg w w') (i : Nat) (t : ServiceTask)
    (ht : w'.tasks[i]? = some t) : CallerHolds w' t := by
  have hcaller : ∀ {t : ServiceTask}, CallerHolds w t → CallerHolds w' t := h.caller
  -- what a caller knows stays true, so only the task that moves has to be looked at
  have happend : ∀ {u : ServiceTask}, (w.tasks ++ [u])[i]? = some t → CallerHolds w u →
      CallerHolds w' t := by
    intro u ht hu
    rcases lookup_append ht with hbefore | ⟨-, rfl⟩
    · exact hcaller (hheld.callers i t hbefore)
    · exact hcaller hu
  have hset : ∀ {k : Nat} {u : ServiceTask}, (w.tasks.set k u)[i]? = some t →
      CallerHolds w u → CallerHolds w' t := by
    intro k u ht hu
    rcases lookup_set ht with hbefore | ⟨-, rfl⟩
    · exact hcaller (hheld.callers i t hbefore)
    · exact hcaller hu
  cases h with
  | manager | refuse | accept | pop | note | shrink | unregister =>
    exact hcaller (hheld.callers i t ht)
  | spawned _ _ hu | created _ _ hu => exact happend ht hu
  | startCreated | stopCreated | scheduled => exact happend ht trivial
  | moved _ _ _ _ hu => exact hset ht hu
  | entered _ _ _ hplace _ _ => exact hset ht (caller_placed hplace)
  | called _ _ _ hplace => exact hset ht (caller_placed hplace)
  | left _ _ _ hkind _ =>
    rcases hkind with ⟨-, -, hu⟩ | ⟨-, hleaves⟩
    · exact hset ht hu
    · refine hset ht ?_
      cases hleaves <;> trivial
  | rolledBack | stopMoved => exact hset ht trivial

/-- The job is registered only with a scheduler. -/
theorem Move.armed (hheld : ServiceHeld cfg w) (h : Move cfg w w')
    (hregistered : w'.schedulerRegistered = true) : w'.scheduler.isSome = true := by
  cases h with
  | shrink | scheduled => rfl
  | unregister => cases hregistered
  | _ => exact hheld.armed hregistered

/-- Whether a task is that of `_start_impl`, that of `_stop_impl` or another one. -/
def kindOf : ServiceTask → Option Bool
  | .startImpl _ => some false
  | .stopImpl _ => some true
  | _ => none

omit [DecidableEq Settings] in
/-- A task that is not shielded is of neither kind. -/
theorem kindOf_unshielded {t : ServiceTask} (h : Unshielded t) : kindOf t = none := by
  cases t with
  | startImpl | stopImpl => exact absurd h id
  | start | reconcile | stop | job | remove | close => rfl

/-- The task is of the same kind. -/
def KindKept (t t' : ServiceTask) : Prop := kindOf t' = kindOf t

omit [DecidableEq Settings] in
/-- A task that does not move keeps its kind. -/
theorem kindKept_refl (t : ServiceTask) : KindKept t t := rfl

/-- No task becomes one of another kind. -/
theorem Move.kinds (h : Move cfg w w') : Evolves KindKept (fun _ => True) w.tasks w'.tasks := by
  have hset : ∀ {k : Nat} {t : ServiceTask} (t' : ServiceTask), w.tasks[k]? = some t →
      kindOf t' = kindOf t → Evolves KindKept (fun _ => True) w.tasks (w.tasks.set k t') :=
    fun t' ht hkind => .set kindKept_refl ht hkind
  cases h with
  | manager | refuse | accept | pop | note | shrink | unregister => exact .refl kindKept_refl
  | spawned | created | startCreated | stopCreated | scheduled =>
    exact .append kindKept_refl fun _ _ => trivial
  | moved ht hu hu' _ _ =>
    exact hset _ ht (by rw [kindOf_unshielded hu, kindOf_unshielded hu'])
  | entered ht hkind _ _ _ _ | called ht hkind _ _ =>
    refine hset _ ht ?_
    rcases hkind with ⟨hu, hu'⟩ | ⟨stage, place, rfl, rfl, -⟩
    · rw [kindOf_unshielded hu, kindOf_unshielded hu']
    · rfl
  | @left k t t' p failure ht hplace _ hkind _ =>
    refine hset _ ht ?_
    rcases hkind with ⟨hu, hu', -⟩ | ⟨hshielded, hleaves⟩
    · rw [kindOf_unshielded hu, kindOf_unshielded hu']
    · cases t with
      | startImpl => cases hleaves <;> rfl
      | stopImpl => cases hplace
      | start | reconcile | stop | job | remove | close => exact absurd trivial hshielded
  | rolledBack ht _ | stopMoved ht _ _ => exact hset _ ht rfl

/-- The task of `_start_impl` stays one. -/
theorem Move.starting (hheld : ServiceHeld cfg w) (h : Move cfg w w') (s : Nat)
    (hs : w'.startTask = some s) : ∃ stage, w'.tasks[s]? = some (.startImpl stage) := by
  have hkept : w.startTask = some s → ∃ stage, w'.tasks[s]? = some (.startImpl stage) := by
    intro hbefore
    obtain ⟨stage, ht⟩ := hheld.starting s hbefore
    obtain ⟨t', ht', hkind⟩ := h.kinds.kept s _ ht
    cases t' with
    | startImpl stage' => exact ⟨stage', ht'⟩
    | _ => cases hkind
  cases h with
  | startCreated =>
    cases hs
    exact ⟨.created, List.getElem?_concat_length⟩
  | _ => exact hkept hs

/-- The task of `_stop_impl` stays one. -/
theorem Move.stopping (hheld : ServiceHeld cfg w) (h : Move cfg w w') (t : Nat)
    (ht : w'.stopTask = some t) : ∃ stage, w'.tasks[t]? = some (.stopImpl stage) := by
  have hkept : w.stopTask = some t → ∃ stage, w'.tasks[t]? = some (.stopImpl stage) := by
    intro hbefore
    obtain ⟨stage, hu⟩ := hheld.stopping t hbefore
    obtain ⟨t', ht', hkind⟩ := h.kinds.kept t _ hu
    cases t' with
    | stopImpl stage' => exact ⟨stage', ht'⟩
    | _ => cases hkind
  cases h with
  | stopCreated =>
    cases ht
    exact ⟨.created, List.getElem?_concat_length⟩
  | _ => exact hkept ht

/-- The tasks after one of them moved. -/
theorem each_set (hheld : ServiceHeld cfg w) (hstable : Stable w w') {k : Nat}
    {t' : ServiceTask} (htasks : w'.tasks = w.tasks.set k t') (hnew : TaskHolds w' k t') (i : Nat)
    (u : ServiceTask) (hu : w'.tasks[i]? = some u) : TaskHolds w' i u := by
  rw [htasks] at hu
  rcases lookup_set hu with hbefore | ⟨rfl, rfl⟩
  · exact hstable.task (List.getElem?_eq_some_iff.mp hbefore).1 (hheld.each i u hbefore)
  · exact hnew

/-- The tasks after one was created. -/
theorem each_append (hheld : ServiceHeld cfg w) (hstable : Stable w w') {t : ServiceTask}
    (htasks : w'.tasks = w.tasks ++ [t]) (hnew : TaskHolds w' w.tasks.length t) (i : Nat)
    (u : ServiceTask) (hu : w'.tasks[i]? = some u) : TaskHolds w' i u := by
  rw [htasks] at hu
  rcases lookup_append hu with hbefore | ⟨rfl, rfl⟩
  · exact hstable.task (List.getElem?_eq_some_iff.mp hbefore).1 (hheld.each i u hbefore)
  · exact hnew

omit [DecidableEq Settings] in
/-- Nothing is asked of a task that is not shielded. -/
theorem unshielded_holds {i : Nat} {t : ServiceTask} (h : Unshielded t) : TaskHolds w i t := by
  cases t with
  | startImpl | stopImpl => exact absurd h id
  | start | reconcile | stop | job | remove | close => trivial

/-- The task of `_start_impl` leaves the queue when it begins. -/
theorem start_begun (hheld : ServiceHeld cfg w) {k : Nat} {stage : StartImplStage}
    (ht : w.tasks[k]? = some (.startImpl stage))
    (h : stage ≠ .created ∨ w.acceptingReconcile = true) :
    w.startTask = some k ∧ k ∉ w.ready := by
  obtain ⟨hstart, hready, -⟩ := hheld.each k _ ht
  refine ⟨hstart, fun hin => ?_⟩
  rcases h with hne | haccepting
  · exact hne (hready hin)
  · obtain ⟨s, hs, hout⟩ := hheld.early (.inl haccepting)
    cases hs.symm.trans hstart
    exact hout hin

/-- A task that goes on inside the body of `reconcile`. -/
theorem samekind_holds (hheld : ServiceHeld cfg w) {k : Nat} {t t' : ServiceTask}
    (ht : w.tasks[k]? = some t) (hkind : SameKind t t')
    (h : t.place? ≠ none ∨ w.acceptingReconcile = true)
    (hstart : w'.startTask = w.startTask) (hready : w'.ready = w.ready) : TaskHolds w' k t' := by
  rcases hkind with ⟨-, hunshielded⟩ | ⟨stage, place, rfl, rfl, hstage⟩
  · exact unshielded_holds hunshielded
  · obtain ⟨hs, hout⟩ := start_begun hheld ht <| h.imp_left fun hplace heq => by
      subst heq
      exact hplace rfl
    rw [← hstart] at hs
    rw [← hready] at hout
    exact ⟨hs, fun hin => absurd hin hout, trivial⟩

/-- Before the task of `_start_impl` is over no job is registered. -/
theorem unregistered_of_start (hheld : ServiceHeld cfg w) {k : Nat} {stage : StartImplStage}
    (ht : w.tasks[k]? = some (.startImpl stage)) (hopen : stage ≠ .ended (.ok ())) :
    w.schedulerRegistered = false := by
  refine Bool.eq_false_iff.mpr fun hregistered => ?_
  obtain ⟨i, hi⟩ := hheld.scheduled hregistered
  cases (hheld.each i _ hi).1.symm.trans (hheld.each k _ ht).1
  cases ht.symm.trans hi
  exact hopen rfl

omit [DecidableEq Settings] in
/-- Where the task of `_stop_impl` goes on to, it can rely on what that stage needs. -/
theorem StopNext.holds {stage stage' : StopImplStage} (h : StopNext w stage stage')
    (hstable : Stable w w') (hrefusing : Refusing w) (hstage : StopHolds w stage)
    (hstarted : w'.started = w.started) : StopHolds w' stage' := by
  have hwithin : ∀ {tasks}, Within w tasks → Within w' tasks :=
    fun h i hi => h i (hstable.within hrefusing i hi)
  cases h with
  | awaitingStart => exact hstable.refusing hrefusing
  | removing _ hjob hplaced =>
    exact ⟨hstable.refusing hrefusing, hstable.noJob hrefusing hjob, hwithin hplaced⟩
  | gathering _ hjob hregistered hplaced =>
    exact ⟨hstable.refusing hrefusing, hstable.noJob hrefusing hjob,
      hstable.registered hrefusing hregistered, hwithin hplaced⟩
  | shuttingDown _ hjob hregistered hplaced hcalled =>
    exact ⟨hstable.silent ⟨hrefusing, hplaced, hjob, hregistered⟩, hstable.called _ hcalled⟩
  | ended hover hfinished hresult =>
    exact ⟨hstable.silent hstage.1, ⟨_, hstable.ended _ hover⟩, hstarted.trans hfinished, hresult⟩

/-- The task of `_start_impl` leaves `reconcile`. -/
theorem StartLeaves.holds (hheld : ServiceHeld cfg w) {k : Nat} {t t' : ServiceTask}
    (h : StartLeaves w t') (ht : w.tasks[k]? = some t) (hshielded : ¬Unshielded t)
    (hplace : t.place? ≠ none) (hstart : w'.startTask = w.startTask)
    (hready : w'.ready = w.ready) (hidle : Within w' []) (hmanager : w'.manager = w.manager)
    (haccepting : w'.acceptingReconcile = w.acceptingReconcile)
    (hscheduler : w'.scheduler = w.scheduler)
    (hregistered : w'.schedulerRegistered = w.schedulerRegistered) : TaskHolds w' k t' := by
  cases t with
  | startImpl stage =>
    obtain ⟨hs, hout⟩ := start_begun hheld ht <| .inl fun heq => by
      subst heq
      exact hplace rfl
    cases h with
    | done => exact ⟨hstart.trans hs, fun hin => absurd (hready ▸ hin) hout, trivial⟩
    -- a start that failed is alone: no other task is inside, and its job was never added
    | @rollingBack call error hcalled hrefuses =>
      refine ⟨hstart.trans hs, fun hin => absurd (hready ▸ hin) hout, ?_, ?_⟩
      · have hfree := unregistered_of_start hheld ht fun heq => by
          subst heq
          exact hplace rfl
        constructor
        case refusing =>
          refine ⟨haccepting.trans hrefuses, fun s hs' => ?_, .inl (by rw [hstart, hs]; rfl)⟩
          cases (hstart.trans hs).symm.trans hs'
          rwa [hready]
        case idle => exact hidle
        case noJob =>
          intro s hs'
          exact hheld.registered hfree s (hscheduler ▸ hs')
        case unregistered => exact hregistered.trans hfree
      · obtain ⟨stage', hcall⟩ := hcalled
        exact ⟨stage', hmanager ▸ hcall⟩
  | stopImpl => exact absurd rfl hplace
  | start | reconcile | stop | job | remove | close => exact absurd trivial hshielded

/-- Every task can rely on what its stage needs after a move: the moved one by its own case, the
others because the move is stable. -/
theorem Move.each (hheld : ServiceHeld cfg w) (h : Move cfg w w') :
    ∀ (i : Nat) t, w'.tasks[i]? = some t → TaskHolds w' i t := by
  have hstable := h.stable hheld
  have hholder := h.occupied hheld
  cases h with
  | manager | refuse | accept | pop | note | shrink | unregister =>
    exact fun i t ht =>
      hstable.task (List.getElem?_eq_some_iff.mp ht).1 (hheld.each i t ht)
  | moved ht _ hunshielded _ _ =>
    exact each_set hheld hstable rfl (unshielded_holds hunshielded)
  | spawned hunshielded _ _ | created hunshielded _ _ =>
    exact each_append hheld hstable rfl (unshielded_holds hunshielded)
  | scheduled => exact each_append hheld hstable rfl trivial
  | startCreated => exact each_append hheld hstable rfl ⟨rfl, fun _ => rfl, trivial⟩
  -- a task that is created waits in the queue, and it is not asked for more before it begins
  | stopCreated =>
    exact each_append hheld hstable rfl ⟨rfl, fun _ => rfl,
      fun hout => absurd (List.mem_append_right _ (List.mem_singleton.mpr rfl)) hout, trivial⟩
  | entered ht hkind _ _ haccepting _ =>
    exact each_set hheld hstable rfl
      (samekind_holds hheld ht hkind (.inr haccepting) rfl rfl)
  | called ht hkind hplace _ =>
    exact each_set hheld hstable rfl
      (samekind_holds hheld ht hkind (.inl (by simp [hplace])) rfl rfl)
  | @left k t t' p failure ht hplace hplace' hkind hover =>
    refine each_set hheld hstable rfl ?_
    rcases hkind with ⟨-, hunshielded, -⟩ | ⟨hshielded, hleaves⟩
    · exact unshielded_holds hunshielded
    · -- nobody else is inside the lock that the task leaves
      obtain ⟨holder, -, hlocked, hplaced⟩ := hholder
      obtain rfl : holder = none := Option.not_isSome_iff_eq_none.mp (by simp [← hlocked,
        ServiceWorld.goto])
      refine hleaves.holds hheld ht hshielded (by simp [hplace]) rfl rfl ?_ rfl rfl rfl rfl
      intro i hi
      obtain ⟨q, hq⟩ := Option.ne_none_iff_exists'.mp hi
      cases (hplaced i q).mp hq
  | @rolledBack k call error error' ht hover =>
    refine each_set hheld hstable rfl ?_
    obtain ⟨hs, hout⟩ := start_begun hheld ht (.inl fun h => by cases h)
    exact ⟨hs, fun hin => absurd hin hout, hstable.silent (hheld.each k _ ht).2.2.1, call, hover⟩
  -- the task of `_stop_impl` has begun, so the service refuses
  | @stopMoved t stage stage' ht hout hnext =>
    refine each_set hheld hstable rfl ?_
    obtain ⟨hs, -, hrefusing, hstage⟩ := hheld.each t _ ht
    exact ⟨hs, fun hin => absurd hin hout, fun _ => hstable.refusing (hrefusing hout),
      hnext.holds hstable (hrefusing hout) hstage rfl⟩

/-- Every move keeps the invariant. -/
theorem Move.held (hheld : ServiceHeld cfg w) (h : Move cfg w w') : ServiceHeld cfg w' where
  managed := hheld.managed.path h.path
  uncancelled := h.uncancelled hheld
  occupied := h.occupied hheld
  busy := h.busy hheld
  owns := h.owns hheld
  sorted := (h.sorted hheld).1
  bounded := (h.sorted hheld).2
  known := (h.order hheld).1
  earlier := (h.order hheld).2
  early := h.early hheld
  registered := h.registered hheld
  scheduled := h.scheduled_kept hheld
  armed := h.armed hheld
  starting := h.starting hheld
  stopping := h.stopping hheld
  running := h.running hheld
  callers := h.callers hheld
  each := h.each hheld

/-! ### A service that is over -/

/-- The service stays over. -/
theorem Move.stays (h : Move cfg w w') (hover : ServiceOver w) : ServiceOver w' := by
  rcases hover with ⟨t, result, ht⟩ | ⟨s, error, hs⟩
  · exact .inl ⟨t, result, h.over_kept ht id fun h => by cases h⟩
  · exact .inr ⟨s, error, h.over_kept hs id fun h => by cases h⟩

/-- A service that refuses does not read the catalog. -/
theorem Move.reads (h : Move cfg w w') (hrefusing : Refusing w) :
    w'.catalogReads = w.catalogReads := by
  cases h with
  | entered _ _ _ _ haccepting _ =>
    rw [hrefusing.refuses] at haccepting
    cases haccepting
  | _ => rfl

/-- A service that is over is silent, and the manager is shut down. -/
theorem over_silent (hheld : ServiceHeld cfg w) (hover : ServiceOver w) :
    Silent w ∧ (∃ call, CallOver w.manager call) ∧ (w.started && w.stopTask.isNone) = false := by
  rcases hover with ⟨t, result, ht⟩ | ⟨s, error, hs⟩
  · obtain ⟨-, -, -, hsilent, hcall, hstarted, -⟩ := hheld.each t _ ht
    exact ⟨hsilent, hcall, by rw [hstarted]; rfl⟩
  · obtain ⟨hstart, -, hsilent, hcall⟩ := hheld.each s _ hs
    refine ⟨hsilent, hcall, ?_⟩
    -- the service is started by the task of `_start_impl` alone
    have hstarted : w.started = false := by
      refine Bool.eq_false_iff.mpr fun hstarted => ?_
      obtain ⟨i, hi⟩ := hheld.running hstarted
      cases (hheld.each i _ hi).1.symm.trans hstart
      cases hs.symm.trans hi
    rw [hstarted]
    rfl

end

end Rsap.Proofs
