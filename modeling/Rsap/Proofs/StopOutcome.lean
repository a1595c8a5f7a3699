import Rsap.Proofs.ContainerClose

/-!
# `Rsap.Proofs.StopOutcome`: `stop` and `close` end once, with one outcome

The first caller of `stop` creates the task of `_stop_impl`, and every caller waits for this task.
A caller that is not cancelled ends with the result of the task (`CallerHolds`), and the task stays
over (`MoveRun.over_kept`). So the callers agree, and what `service_final` says holds from the end
of the first of them on.

`close` of the container has the same shape, with `CloseMove` for the parts of a step and
`CloseShared` for the invariant.
-/

set_option autoImplicit false

namespace Rsap.Proofs

open Rsap.Library
open Rsap.Library.Machine (Reachable Path Any)
open Rsap.Orchestration
open Relation (ReflTransGen)

section
variable {Settings : Type} [DecidableEq Settings] {cfg : ServiceConfig}
  {w w' : ServiceWorld Settings} {scheduled : Bool}

/-- A shielded task that is over keeps its result along every run of moves. -/
theorem MoveRun.over_kept (h : MoveRun cfg w w') {i : Nat} {u : ServiceTask}
    (hu : w.tasks[i]? = some u) (hshielded : ¬Unshielded u) (hover : u.result? ≠ none) :
    w'.tasks[i]? = some u := by
  induction h with
  | refl => exact hu
  | tail _ hmove ih => exact hmove.over_kept ih hshielded hover

/-- `_stop_impl` ended with the result. -/
structure StoppedWith (cfg : ServiceConfig) (t : Nat) (result : Except ServiceError Unit)
    (w : ServiceWorld Settings) : Prop where
  held : ServiceHeld cfg w
  ended : w.tasks[t]? = some (.stopImpl (.ended result))

/-- `_stop_impl` keeps its result along every run of moves. -/
theorem StoppedWith.moves {t : Nat} {result : Except ServiceError Unit}
    (h : StoppedWith cfg t result w) (hmoves : MoveRun cfg w w') : StoppedWith cfg t result w' where
  held := hmoves.held h.held
  ended := hmoves.over_kept h.ended id fun h => by cases h

/-- There is one task of `_stop_impl`. -/
theorem StoppedWith.unique {t u : Nat} {result : Except ServiceError Unit} {stage : StopImplStage}
    (h : StoppedWith cfg t result w) (hu : w.tasks[u]? = some (.stopImpl stage)) :
    stage = .ended result := by
  have htask := (h.held.each t _ h.ended).1
  cases htask.symm.trans (h.held.each u _ hu).1
  cases h.ended.symm.trans hu
  rfl

/-- `stop` ends once, however the callers, the job, the workers and the manager go on. When a caller
ends other than by its own cancellation, and at any later time, every other caller that ends has the
same result or is cancelled, a new `start` is refused at once, no reconciliation runs, the catalog
is not read and no worker is registered, live or created. -/
theorem stop_outcome (h : Reachable (serviceMachine cfg scheduled) Any w) {i : Nat}
    {result : Except ServiceError Unit} (ht : w.tasks[i]? = some (.stop (.ended result)))
    (hresult : result ≠ .error .cancelled)
    (hpath : Path (serviceMachine cfg scheduled) Any w w') :
    (∀ (j : Nat) result', w'.tasks[j]? = some (.stop (.ended result')) →
      result' = result ∨ result' = .error .cancelled) ∧
    w'.callStart cfg = w'.spawn (.start (.ended (.error (ServiceWorld.stopping cfg)))) ∧
    (∀ (j : Nat) t, w'.tasks[j]? = some t → t.place? = none) ∧
    w'.catalogReads = w.catalogReads ∧
    (∀ c, c ∉ w'.manager.registry.workers) ∧
    (∀ v ∈ w'.manager.registry.objects, v.live = false) ∧
    w'.manager.registry.objects.length = w.manager.registry.objects.length := by
  have hheld := reachable_service h
  obtain hcancelled | ⟨t, hstop⟩ := hheld.callers i _ ht
  · exact absurd hcancelled hresult
  have hover : ServiceOver w := .inl ⟨t, result, hstop⟩
  -- from here on the shared task keeps its result
  have hstopped : StoppedWith cfg t result w' :=
    hpath.invariant (I := StoppedWith cfg t result) ⟨hheld, hstop⟩ fun _ _ _ _ hstep hs =>
      hs.moves (step_moves hs.held hstep)
  obtain ⟨hplaces, -, hreads, -, hworkers, hlive, hcount, -⟩ := service_final h hover hpath
  refine ⟨?_, ?_, hplaces, hreads, hworkers, hlive, hcount⟩
  · intro j result' hj
    obtain hcancelled | ⟨u, hu⟩ := hstopped.held.callers j _ hj
    · exact .inr hcancelled
    · cases hstopped.unique hu
      exact .inl rfl
  · -- the shared task is what `start` looks at first
    have htask := (hstopped.held.each t _ hstopped.ended).1
    simp [ServiceWorld.callStart, htask]

end

/-- The second caller of `stop` is cancelled, and the third one waits. -/
def lateStops : List (ServiceAct Nat) := [.stop, .cancel 5, .stop, .run 6 (.ok [])]

/-- The second caller of the stopped service is cancelled and the third one returns, without
another read of the catalog. -/
theorem stoppedService_outcome :
    (halfMinuteMachine.final stoppedService lateStops).tasks[5]? =
        some (.stop (.ended (.error .cancelled))) ∧
      (halfMinuteMachine.final stoppedService lateStops).tasks[6]? =
        some (.stop (.ended (.ok ()))) ∧
      (halfMinuteMachine.final stoppedService lateStops).catalogReads = 2 := by
  have hpath : Path halfMinuteMachine Any stoppedService _ :=
    Machine.Path.final .refl lateStops (by decide +kernel)
  have hended : stoppedService.tasks[4]? = some (.stop (.ended (.ok ()))) := by decide +kernel
  obtain ⟨-, -, -, hreads, -⟩ := stop_outcome stoppedService_reachable hended
    (fun h => by cases h) hpath
  exact ⟨by decide +kernel, by decide +kernel, hreads.trans (by decide +kernel)⟩

/-! ### `close` of the container -/

section
variable {Settings : Type} {w w' : ContainerWorld Settings}

/-- What a caller can rely on, by its stage. The task of `_close_impl` is not a caller. -/
def CloserHolds (w : ContainerWorld Settings) : ContainerTask → Prop
  | .start _ | .close .created => True
  | .close (.awaiting task) => w.closeTask = some task
  | .close (.ended result) => result = .error .cancelled ∨
    ∃ t : Nat, w.tasks[t]? = some (.closeImpl (.ended result))
  | .closeImpl _ => False

/-- The parts of a step, as `close` sees them. -/
inductive CloseMove (w : ContainerWorld Settings) : ContainerWorld Settings → Prop where
  | other (service : ServiceWorld Settings) (started : Bool) :
      CloseMove w { w with service, started }
  | spawned {t : ContainerTask} : CloserHolds w t → CloseMove w (w.spawn t)
  | created : w.closeTask = none → CloseMove w
      ({ w with closeTask := some w.tasks.length }.spawn (.closeImpl .created))
  | moved {i : Nat} {t t' : ContainerTask} : w.tasks[i]? = some t → CloserHolds w t →
      CloserHolds w t' → CloseMove w (w.goto i t')
  | went {i : Nat} {stage stage' : CloseImplStage} : w.tasks[i]? = some (.closeImpl stage) →
      (∀ result, stage ≠ .ended result) → (∀ result, stage' ≠ .ended result) →
      CloseMove w (w.goto i (.closeImpl stage'))
  | ended {i : Nat} {stage : CloseImplStage} (result : Except ContainerError Unit) :
      w.tasks[i]? = some (.closeImpl stage) → (∀ result, stage ≠ .ended result) →
      CloseMove w ({ w with databaseClosed := true, started := false }.goto i
        (.closeImpl (.ended result)))

/-- `_close_impl` is one task, which closes the database before it ends. -/
structure CloseShared (w : ContainerWorld Settings) : Prop where
  known : ∀ t, w.closeTask = some t → ∃ stage, w.tasks[t]? = some (.closeImpl stage)
  single : ∀ (i : Nat) stage, w.tasks[i]? = some (.closeImpl stage) → w.closeTask = some i
  closed : ∀ (i : Nat) result, w.tasks[i]? = some (.closeImpl (.ended result)) →
    w.databaseClosed = true
  callers : ∀ (i : Nat) t, w.tasks[i]? = some t → (∀ stage, t ≠ .closeImpl stage) →
    CloserHolds w t

/-- `_close_impl` that is over stays so, and the shared task stays the same. -/
theorem CloseMove.kept (h : CloseMove w w') :
    (∀ t, w.closeTask = some t → w'.closeTask = some t) ∧
    (w.databaseClosed = true → w'.databaseClosed = true) ∧
    ∀ (i : Nat) result, w.tasks[i]? = some (.closeImpl (.ended result)) →
      w'.tasks[i]? = some (.closeImpl (.ended result)) := by
  -- tasks are appended or replaced one at a time
  have happend : ∀ {i : Nat} {t u : ContainerTask}, w.tasks[i]? = some u →
      (w.tasks ++ [t])[i]? = some u :=
    fun hu => (List.getElem?_append_left (List.getElem?_eq_some_iff.mp hu).1).trans hu
  have hset : ∀ {i k : Nat} {t t' u : ContainerTask}, w.tasks[k]? = some t → t ≠ u →
      w.tasks[i]? = some u → (w.tasks.set k t')[i]? = some u := by
    intro i k t t' u ht hne hu
    rw [List.getElem?_set_ne, hu]
    rintro rfl
    exact hne (Option.some.inj (ht.symm.trans hu))
  cases h with
  | other => exact ⟨fun _ h => h, id, fun _ _ h => h⟩
  | spawned => exact ⟨fun _ h => h, id, fun _ _ h => happend h⟩
  | created hnone => exact ⟨fun _ h => by simp [hnone] at h, id, fun _ _ h => happend h⟩
  | moved ht hcaller _ =>
    refine ⟨fun _ h => h, id, fun _ _ h => hset ht ?_ h⟩
    rintro rfl
    exact hcaller
  | went ht hopen _ =>
    refine ⟨fun _ h => h, id, fun _ result h => hset ht (fun heq => ?_) h⟩
    cases heq
    exact hopen result rfl
  -- a task that has its result is not the one that just got one
  | ended _ ht hopen =>
    refine ⟨fun _ h => h, fun _ => rfl, fun _ result h => hset ht (fun heq => ?_) h⟩
    cases heq
    exact hopen result rfl

/-- What a caller knows stays true. -/
theorem CloserHolds.kept (h : CloseMove w w') {t : ContainerTask} (ht : CloserHolds w t) :
    CloserHolds w' t := by
  cases t with
  | start => trivial
  | closeImpl => exact ht
  | close stage =>
    cases stage with
    | created => trivial
    | awaiting task => exact h.kept.1 task ht
    | ended result =>
      rcases ht with hcancelled | ⟨k, hk⟩
      · exact .inl hcancelled
      · exact .inr ⟨k, h.kept.2.2 k result hk⟩

/-- A task after the move is an old one, a caller or `_close_impl`. -/
theorem CloseMove.tasks (hshared : CloseShared w) (h : CloseMove w w') {i : Nat}
    {u : ContainerTask} (hu : w'.tasks[i]? = some u) :
    w.tasks[i]? = some u ∨ CloserHolds w u ∨
    ∃ stage, u = .closeImpl stage ∧ w'.closeTask = some i ∧
      ((∀ result, stage ≠ .ended result) ∨ w'.databaseClosed = true) := by
  -- the new state of a task comes from its own move
  cases h with
  | other => exact .inl hu
  | spawned ht =>
    rcases lookup_append hu with hold | ⟨-, rfl⟩
    · exact .inl hold
    · exact .inr (.inl ht)
  | created =>
    rcases lookup_append hu with hold | ⟨rfl, rfl⟩
    · exact .inl hold
    · exact .inr (.inr ⟨.created, rfl, rfl, .inl fun _ h => by cases h⟩)
  | moved _ _ ht' =>
    rcases lookup_set hu with hold | ⟨-, rfl⟩
    · exact .inl hold
    · exact .inr (.inl ht')
  | went ht _ hopen =>
    rcases lookup_set hu with hold | ⟨rfl, rfl⟩
    · exact .inl hold
    · exact .inr (.inr ⟨_, rfl, hshared.single _ _ ht, .inl hopen⟩)
  | ended result ht _ =>
    rcases lookup_set hu with hold | ⟨rfl, rfl⟩
    · exact .inl hold
    · exact .inr (.inr ⟨_, rfl, hshared.single _ _ ht, .inr rfl⟩)

/-- The shared task stays a task of `_close_impl`. -/
theorem CloseMove.known (hshared : CloseShared w) (h : CloseMove w w') (t : Nat)
    (ht : w'.closeTask = some t) : ∃ stage, w'.tasks[t]? = some (.closeImpl stage) := by
  have hset : ∀ {k : Nat} {stage : CloseImplStage}, w.closeTask = some t →
      ∃ stage', (w.tasks.set k (.closeImpl stage))[t]? = some (.closeImpl stage') := by
    intro k stage ht
    obtain ⟨stage', hold⟩ := hshared.known t ht
    rw [List.getElem?_set]
    split
    · rename_i heq
      exact ⟨stage, by simp [heq, (List.getElem?_eq_some_iff.mp hold).1]⟩
    · exact ⟨stage', hold⟩
  cases h with
  | other => exact hshared.known t ht
  | spawned =>
    obtain ⟨stage, hold⟩ := hshared.known t ht
    exact ⟨stage, (List.getElem?_append_left (List.getElem?_eq_some_iff.mp hold).1).trans hold⟩
  | created =>
    cases ht
    exact ⟨.created, List.getElem?_concat_length⟩
  | moved hcaller hholds _ =>
    obtain ⟨stage, hold⟩ := hshared.known t ht
    refine ⟨stage, ?_⟩
    rw [ContainerWorld.goto, List.getElem?_set_ne, hold]
    -- the task that moves is a caller
    rintro rfl
    cases hold.symm.trans hcaller
    exact hholds
  | went | ended => exact hset ht

/-- A move keeps the account of `_close_impl`. -/
theorem CloseMove.shared (hshared : CloseShared w) (h : CloseMove w w') : CloseShared w' where
  known := h.known hshared
  single i stage ht := by
    rcases h.tasks hshared ht with hold | hcaller | ⟨stage', -, htask, -⟩
    · exact h.kept.1 i (hshared.single i stage hold)
    · exact absurd hcaller id
    · exact htask
  closed i result ht := by
    rcases h.tasks hshared ht with hold | hcaller | ⟨stage, heq, -, hopen | hclosed⟩
    · exact h.kept.2.1 (hshared.closed i result hold)
    · exact absurd hcaller id
    · cases heq
      exact absurd rfl (hopen result)
    · exact hclosed
  callers i t ht hcaller := by
    rcases h.tasks hshared ht with hold | hnew | ⟨stage, heq, -⟩
    · exact (hshared.callers i t hold hcaller).kept h
    · exact hnew.kept h
    · exact absurd heq (hcaller stage)

abbrev CloseRun : ContainerWorld Settings → ContainerWorld Settings → Prop :=
  ReflTransGen CloseMove

/-- A run of moves keeps the account of `_close_impl`. -/
theorem CloseRun.shared (hshared : CloseShared w) (h : CloseRun w w') : CloseShared w' := by
  induction h with
  | refl => exact hshared
  | tail _ hmove ih => exact hmove.shared ih

/-- `_close_impl` keeps its result. -/
theorem CloseRun.ended_kept {i : Nat} {result : Except ContainerError Unit} (h : CloseRun w w')
    (ht : w.tasks[i]? = some (.closeImpl (.ended result))) :
    w'.tasks[i]? = some (.closeImpl (.ended result)) := by
  induction h with
  | refl => exact ht
  | tail _ hmove ih => exact hmove.kept.2.2 i result ih

/-- The creation of the task of `_close_impl`, in moves: it is the one that the caller waits for,
and no other task changes. -/
theorem ensureClose_moves (w : ContainerWorld Settings) :
    CloseRun w w.ensureClose.1 ∧ w.ensureClose.1.closeTask = some w.ensureClose.2 ∧
      ∀ (i : Nat) t, w.tasks[i]? = some t → w.ensureClose.1.tasks[i]? = some t := by
  unfold ContainerWorld.ensureClose
  split
  · exact ⟨.refl, ‹_›, fun _ _ h => h⟩
  · exact ⟨.single (.created ‹_›), rfl, fun i t h =>
      (List.getElem?_append_left (List.getElem?_eq_some_iff.mp h).1).trans h⟩

variable [DecidableEq Settings] {cfg : ServiceConfig}

/-- A stretch of `start`, in moves. -/
theorem runStart_moves {i : Nat} {raised : Option ContainerError} {stage : ContainerStart}
    (ht : w.tasks[i]? = some (.start stage)) (h : w.runStart cfg i raised stage = some w') :
    CloseRun w w' := by
  cases stage with
  | migrating => cases raised <;> cases h <;> exact .single (.moved ht trivial trivial)
  | verifying =>
    cases raised with
    | some error =>
      cases h
      exact .single (.moved ht trivial trivial)
    | none =>
      cases h
      exact .head (.other (w.service.callStart cfg) w.started)
        (.single (.moved ht trivial trivial))
  | starting call =>
    simp only [ContainerWorld.runStart] at h
    split at h
    · cases h
      exact .head (.other w.service true) (.single (.moved ht trivial trivial))
    · cases h
      -- the task of the cleanup is created first
      refine .head (.spawned (t := .close .created) trivial)
        (.single (.moved (t := .start (.starting call)) ?_ trivial trivial))
      exact (List.getElem?_append_left (List.getElem?_eq_some_iff.mp ht).1).trans ht
    · cases h
  | cleaning task error =>
    obtain ⟨cleanup, -, rfl⟩ := Option.map_eq_some_iff.mp h
    exact .single (.moved ht trivial trivial)
  | ended result => cases h

omit [DecidableEq Settings] in
/-- A stretch of a caller of `close`, in moves. -/
theorem runClose_moves (hshared : CloseShared w) {i : Nat} {stage : ContainerClose}
    (ht : w.tasks[i]? = some (.close stage)) (h : w.runClose i stage = some w') :
    CloseRun w w' := by
  cases stage with
  | created =>
    cases h
    obtain ⟨hmoves, htask, hkept⟩ := ensureClose_moves w
    exact hmoves.tail (.moved (hkept i _ ht) trivial htask)
  | awaiting task =>
    obtain ⟨result, hresult, rfl⟩ := Option.map_eq_some_iff.mp h
    have hawaiting : CloserHolds w (.close (.awaiting task)) :=
      hshared.callers i _ ht fun _ h => by cases h
    obtain ⟨stage, hclose⟩ := hshared.known task hawaiting
    rw [hclose] at hresult
    cases stage with
    | ended result' =>
      cases hresult
      exact .single (.moved ht hawaiting (.inr ⟨task, hclose⟩))
    | created | stopping | closingScheduler | closingCentral => cases hresult
  | ended result => cases h

omit [DecidableEq Settings] in
/-- A stretch of `_close_impl`, in moves. -/
theorem runCloseImpl_moves {i : Nat} {raised : Option ContainerError} {stage : CloseImplStage}
    (ht : w.tasks[i]? = some (.closeImpl stage)) (h : w.runCloseImpl i raised stage = some w') :
    CloseRun w w' := by
  cases stage with
  | created =>
    cases h
    exact .head (.other w.service.callStop w.started)
      (.single (.went ht (fun _ h => by cases h) fun _ h => by cases h))
  | stopping task =>
    obtain ⟨result, -, rfl⟩ := Option.map_eq_some_iff.mp h
    exact .head (.other w.service.callClose w.started)
      (.single (.went ht (fun _ h => by cases h) fun _ h => by cases h))
  | closingScheduler call error =>
    obtain ⟨result, -, rfl⟩ := Option.map_eq_some_iff.mp h
    exact .single (.went ht (fun _ h => by cases h) fun _ h => by cases h)
  | closingCentral error =>
    cases h
    exact .single (.ended _ ht fun _ h => by cases h)
  | ended result => cases h

/-- A cancellation of a task of the container, in moves. -/
theorem cancelCloser_moves (hshared : CloseShared w) {i : Nat} {t : ContainerTask}
    (ht : w.tasks[i]? = some t) (h : w.cancelTask cfg i t = some w') : CloseRun w w' := by
  cases t with
  | start stage =>
    cases stage with
    | migrating | verifying =>
      cases h
      exact .single (.moved ht trivial trivial)
    | starting call =>
      obtain ⟨service, -, rfl⟩ := Option.map_eq_some_iff.mp h
      exact .single (.other service w.started)
    | cleaning | ended => cases h
  | close stage =>
    cases stage with
    | awaiting task =>
      cases h
      exact .single (.moved ht (hshared.callers i _ ht fun _ h => by cases h) (.inl rfl))
    | created | ended => cases h
  | closeImpl stage => cases h

/-- Every step of the container is a run of moves. -/
theorem container_moves (hshared : CloseShared w) {act : ContainerAct Settings}
    (h : w.step cfg act = some w') : CloseRun w w' := by
  cases act with
  | start =>
    cases h
    unfold ContainerWorld.callStart
    split <;> exact .single (.spawned trivial)
  | close =>
    cases h
    obtain ⟨hmoves, htask, -⟩ := ensureClose_moves w
    exact hmoves.tail (.spawned (t := .close (.awaiting _)) htask)
  -- a caller goes on, or the shared task does
  | run i raised =>
    obtain ⟨t, ht, hrun⟩ := Option.bind_eq_some_iff.mp h
    cases t with
    | start stage => exact runStart_moves ht hrun
    | close stage => exact runClose_moves hshared ht hrun
    | closeImpl stage => exact runCloseImpl_moves ht hrun
  | cancel i =>
    obtain ⟨t, ht, hcancel⟩ := Option.bind_eq_some_iff.mp h
    exact cancelCloser_moves hshared ht hcancel
  -- a step of the service, which the container only watches
  | service act =>
    simp only [ContainerWorld.step] at h
    split at h
    · obtain ⟨service, -, rfl⟩ := Option.map_eq_some_iff.mp h
      exact .single (.other service w.started)
    · cases h

omit [DecidableEq Settings] in
/-- Nobody has called `close` of the new container. -/
theorem shared_init : CloseShared (ContainerWorld.new : ContainerWorld Settings) where
  known t h := by cases h
  single i stage h := by cases h
  closed i result h := by cases h
  callers i t h := by cases h

/-- The account of `_close_impl` holds in every reachable state. -/
theorem reachable_shared (h : Reachable (containerMachine cfg) Any w) : CloseShared w :=
  h.invariant (I := CloseShared) shared_init fun _ _ _ _ _ hstep hshared =>
    CloseRun.shared hshared (container_moves hshared hstep)

/-- `_close_impl` ended with the result. -/
structure ClosedWith (t : Nat) (result : Except ContainerError Unit)
    (w : ContainerWorld Settings) : Prop where
  shared : CloseShared w
  ended : w.tasks[t]? = some (.closeImpl (.ended result))

/-- `close` ends once, however the callers of `start` and `close`, the service and the workers go
on. When a caller of `close` ends other than by its own cancellation, and at any later time, the
database is closed, every other caller that ends has the same result or is cancelled, no
reconciliation runs, the catalog is not read and no worker is registered, live or created. -/
theorem close_outcome (h : Reachable (containerMachine cfg) Any w) {i : Nat}
    {result : Except ContainerError Unit} (ht : w.tasks[i]? = some (.close (.ended result)))
    (hresult : result ≠ .error .cancelled) (hpath : Path (containerMachine cfg) Any w w') :
    w'.databaseClosed = true ∧
    (∀ (j : Nat) result', w'.tasks[j]? = some (.close (.ended result')) →
      result' = result ∨ result' = .error .cancelled) ∧
    (∀ (j : Nat) t, w'.service.tasks[j]? = some t → t.place? = none) ∧
    w'.service.catalogReads = w.service.catalogReads ∧
    (∀ c, c ∉ w'.service.manager.registry.workers) ∧
    (∀ v ∈ w'.service.manager.registry.objects, v.live = false) ∧
    w'.service.manager.registry.objects.length = w.service.manager.registry.objects.length := by
  have hshared := reachable_shared h
  have hcaller : CloserHolds w (.close (.ended result)) :=
    hshared.callers i _ ht fun _ h => by cases h
  obtain hcancelled | ⟨t, hclose⟩ := hcaller
  · exact absurd hcancelled hresult
  -- from here on the shared task keeps its result
  have hclosed : ClosedWith t result w' :=
    hpath.invariant (I := ClosedWith t result) ⟨hshared, hclose⟩ fun _ _ _ _ hstep hc =>
      have hmoves := container_moves hc.shared hstep
      ⟨CloseRun.shared hc.shared hmoves, hmoves.ended_kept hc.ended⟩
  obtain ⟨hdatabase, hplaces, hreads, -, hworkers, hlive, hcount, -⟩ :=
    container_final h (hshared.closed t result hclose) hpath
  refine ⟨hdatabase, ?_, hplaces, hreads, hworkers, hlive, hcount⟩
  intro j result' hj
  have hcaller' : CloserHolds w' (.close (.ended result')) :=
    hclosed.shared.callers j _ hj fun _ h => by cases h
  obtain hcancelled | ⟨u, hu⟩ := hcaller'
  · exact .inr hcancelled
  · -- there is one task of `_close_impl`
    cases (hclosed.shared.single t _ hclosed.ended).symm.trans (hclosed.shared.single u _ hu)
    cases hclosed.ended.symm.trans hu
    exact .inl rfl

end

/-- A second caller of `close` is cancelled, and the third one waits. -/
def lateCloses : List (ContainerAct Nat) := [.close, .cancel 4, .close, .run 5 none]

/-- The second caller of the closed container is cancelled, and the third one gets the error that
`_close_impl` ended with. -/
theorem closedContainer_outcome :
    (halfMinuteContainer.final closedContainer lateCloses).tasks[4]? =
        some (.close (.ended (.error .cancelled))) ∧
      (halfMinuteContainer.final closedContainer lateCloses).tasks[5]? =
        some (.close (.ended (.error (.other "client")))) ∧
      (halfMinuteContainer.final closedContainer lateCloses).databaseClosed = true := by
  have hpath : Path halfMinuteContainer Any closedContainer _ :=
    Machine.Path.final .refl lateCloses (by decide +kernel)
  have hended : closedContainer.tasks[3]? =
      some (.close (.ended (.error (.other "client")))) := by decide +kernel
  obtain ⟨hclosed, -⟩ := close_outcome closedContainer_reachable hended
    (fun h => by cases h) hpath
  exact ⟨by decide +kernel, by decide +kernel, hclosed⟩

end Rsap.Proofs
