import Rsap.Orchestration.WorkerView
import Rsap.Proofs.WorkerLifecycle

/-!
# `Rsap.Proofs.WorkerViews`: a worker shows what the manager assumes

`Shows` relates a view to the worker of `Rsap.Orchestration.Worker`. Every step of the worker
shows as `Evolves`, except the synchronous part of `stop`, which shows as `stopping` and
`closeCapture` (`worker_shows`). So the views of the manager have every behaviour of the workers,
and the supervisor of a worker indeed ends without raising.

A worker that failed, or whose cleanup did, has a failure to show at its end (`worker_reported`).
-/

set_option autoImplicit false

namespace Rsap.Proofs

open Rsap.Library
open Rsap.Library.Machine (Reachable Any)
open Rsap.Orchestration

variable {Callback Event Settings : Type} {setup : WorkerSetup Callback Event}
  {w w' : Worker Event} {v : WorkerView Settings}

/-- The view shows the worker. -/
structure Shows (v : WorkerView Settings) (w : Worker Event) : Prop where
  state : v.state = w.state
  failure : v.failure = w.failure
  shutdownFailures : v.shutdownFailures = w.shutdownFailures
  supervisor : ∃ task, w.supervisorTask = some task ∧ v.live = task.live
  started : w.started = some v.started

/-- A sound worker shows a consistent view. -/
theorem Shows.consistent (h : Shows v w) (hw : Sound w) : v.Consistent := by
  obtain ⟨task, htask, hlive⟩ := h.supervisor
  have hphase := hw.phase
  rw [htask] at hphase
  -- a supervisor at work excludes the two final states
  have hbusy : task.live = true → w.state ≠ .stopped ∧ w.state ≠ .failed := by
    intro _
    cases task with
    | buildingCapture => exact hphase.1.live
    | buildingPipeline => exact hphase.live
    | watching => exact hphase.live
    | gathering | closingPipeline | joiningQueue | puttingStop | awaitingEvents =>
      exact hphase.1.state
    | ended raised => contradiction
  -- one that has ended left the worker at rest
  have hrest : task.live = false → AtRest w := by
    intro hdone
    cases task with
    | ended raised => exact hphase.2
    | buildingCapture | buildingPipeline | watching | gathering | closingPipeline | joiningQueue
      | puttingStop | awaitingEvents => cases hdone
  constructor
  case live =>
    intro h'
    rw [h.state]
    exact hbusy (hlive ▸ h')
  case settled =>
    intro h' hpending
    have hdone := (hrest (hlive ▸ h')).started
    rw [h.started, hpending] at hdone
    exact hdone
  case ended =>
    intro h'
    rw [h.state]
    exact (hrest (hlive ▸ h')).state

/-- What a step leaves of the fields that a view shows. -/
structure ShownStep (w w' : Worker Event) : Prop where
  supervisor : ∃ task, w'.supervisorTask = some task
  started : ∃ started, w'.started = some started ∧ (w.started ≠ some .pending →
    w.started = some started)
  finished : ∀ raised, w.supervisorTask = some (.ended raised) →
    w'.state = w.state ∧ w'.failure = w.failure ∧ w'.shutdownFailures = w.shutdownFailures ∧
      w'.supervisorTask = w.supervisorTask ∧ w'.started = w.started

/-- Such a step shows as an evolution of the view. -/
theorem ShownStep.evolves (hs : ShownStep w w') (h : Shows v w) (hw' : Sound w') :
    ∃ v' : WorkerView Settings, Shows v' w' ∧ v.Evolves v' := by
  obtain ⟨task, htask⟩ := hs.supervisor
  obtain ⟨started, hstarted, hkeep⟩ := hs.started
  have hshows : Shows (⟨v.definition, v.generation, w'.state, w'.failure, w'.shutdownFailures,
      task.live, started⟩ : WorkerView Settings) w' :=
    ⟨rfl, rfl, rfl, ⟨task, htask, rfl⟩, hstarted⟩
  refine ⟨_, hshows, rfl, rfl, hshows.consistent hw', ?_, ?_⟩
  · intro hdone
    -- of the supervisors only the ended one is done
    obtain ⟨before, hbefore, hlive⟩ := h.supervisor
    cases before with
    | ended raised =>
      -- and after its end a step shows nothing new
      obtain ⟨hstate, hfailure, hfailures, hsupervisor, hsame⟩ := hs.finished raised hbefore
      rw [hbefore, htask] at hsupervisor
      cases hsupervisor
      rw [hstarted, h.started] at hsame
      cases hsame
      rw [hstate, hfailure, hfailures, ← h.state, ← h.failure, ← h.shutdownFailures, ← hlive]
    | buildingCapture | buildingPipeline | watching | gathering | closingPipeline | joiningQueue
      | puttingStop | awaitingEvents => cases show true = false from hlive.symm.trans hdone
  -- a future that is settled stays as it is
  · intro hpending
    have hsame := hkeep (by rw [h.started]; exact fun heq => hpending (Option.some.inj heq))
    rw [h.started] at hsame
    exact (Option.some.inj hsame).symm

/-! ### The supervisor -/

/-- There is a supervisor, and a start future that was settled is the same. -/
structure StartKept (w w' : Worker Event) : Prop where
  supervisor : ∃ task, w'.supervisorTask = some task
  started : w'.started = w.started ∨
    w.started = some .pending ∧ ∃ started, w'.started = some started

variable (setup) in
/-- A transition leaves the start future. -/
theorem transition_started (w : Worker Event) (state : WorkerState) :
    (w.transition setup state).1.started = w.started := by
  unfold Worker.transition
  split_ifs <;> rfl

variable (setup) in
/-- A start future that is pending is settled, and one that is settled is the same. -/
theorem publish_started (w : Worker Event) (terminalError : Option OrchestrationError) :
    (w.publish setup terminalError).1.started = w.started ∨
      w.started = some .pending ∧ ∃ started,
        (w.publish setup terminalError).1.started = some started := by
  -- `_resolve_started` and `_reject_started` settle a pending future only
  have hresolve : ∀ u : Worker Event, u.started = w.started →
      u.resolveStarted.started = w.started ∨
        w.started = some .pending ∧ ∃ started, u.resolveStarted.started = some started := by
    intro u hu
    unfold Worker.resolveStarted
    split
    · rename_i hpending
      exact .inr ⟨hu.symm.trans hpending, _, rfl⟩
    · exact .inl hu
  have hreject : ∀ (u : Worker Event) error, u.started = w.started →
      (u.rejectStarted error).started = w.started ∨
        w.started = some .pending ∧ ∃ started, (u.rejectStarted error).started = some started := by
    intro u error hu
    unfold Worker.rejectStarted
    split
    · rename_i hpending
      exact .inr ⟨hu.symm.trans hpending, _, rfl⟩
    · exact .inl hu
  -- and a transition leaves the future alone
  have htransition : ∀ (u : Worker Event) (skip : Prop) [Decidable skip] (state : WorkerState)
      (u' : Worker Event) (raised : Option OrchestrationError),
      (if skip then u.transition setup state else (u, none)) = (u', raised) →
      u'.started = u.started := by
    intro u skip _ state u' raised h
    split at h
    · have hu := transition_started setup u state
      rw [h] at hu
      exact hu
    · cases h
      rfl
  cases terminalError with
  -- with a failure: to FAILED, then the future is rejected
  | some error =>
    simp only [Worker.publish]
    split
    · rename_i u raised h
      exact .inl (htransition (w.recordFailure error) _ _ _ _ h)
    · rename_i u h
      exact hreject u error (htransition (w.recordFailure error) _ _ _ _ h)
  -- without one: through STOPPING to STOPPED, then it is resolved
  | none =>
    simp only [Worker.publish]
    split
    · rename_i u raised h
      exact .inl (htransition _ _ _ _ _ h)
    · rename_i u h
      have hu := htransition _ _ _ _ _ h
      have hnext := transition_started setup u .stopped
      split
      · rename_i u' raised h'
        rw [h'] at hnext
        exact .inl (hnext.trans hu)
      · rename_i u' h'
        rw [h'] at hnext
        exact hresolve u' (hnext.trans hu)

variable (setup) in
/-- The end of the supervisor settles a pending start future, and no other. -/
theorem finish_kept (w : Worker Event) (terminalError : Option OrchestrationError) :
    StartKept w (w.finish setup terminalError) :=
  ⟨⟨_, rfl⟩, publish_started setup w terminalError⟩

variable (setup) in
/-- So does the wait for the event task. -/
theorem settleEventTask_kept (w : Worker Event) (terminalError : Option OrchestrationError) :
    StartKept w (w.settleEventTask setup terminalError) := by
  unfold Worker.settleEventTask
  split
  · exact finish_kept setup w terminalError
  · exact ⟨⟨_, rfl⟩, (finish_kept setup _ terminalError).started⟩
  · exact ⟨⟨_, rfl⟩, .inl rfl⟩

variable (setup) in
/-- So does the wait for the pipeline. -/
theorem closePipelineOnce_kept (w : Worker Event) (terminalError : Option OrchestrationError) :
    StartKept w (w.closePipelineOnce setup terminalError) := by
  unfold Worker.closePipelineOnce
  split
  · exact settleEventTask_kept setup w terminalError
  · exact ⟨⟨_, rfl⟩, .inl rfl⟩

variable (setup) in
/-- So does the cleanup after the capture was closed. -/
theorem unwind_kept (w : Worker Event) (terminalError : Option OrchestrationError)
    (closed : Option Raised) : StartKept w (w.unwind setup terminalError closed) := by
  obtain ⟨failures, failure, heq⟩ := closeCaptureOnce_cases setup
    { w with acceptingEvents := false, stopEvent := true } closed
  simp only [Worker.unwind, heq]
  split
  · have hkept := closePipelineOnce_kept setup
      { w with
        acceptingEvents := false, stopEvent := true, capture := w.capture.closeOnce,
        shutdownFailures := failures, failure := failure } terminalError
    exact ⟨hkept.supervisor, hkept.started⟩
  · exact ⟨⟨_, rfl⟩, .inl rfl⟩

/-- A step of the supervisor. -/
theorem stepSupervisor_kept {task : Supervisor} {act : WorkerAct Callback}
    (h : w.stepSupervisor setup task act = some w') : StartKept w w' := by
  unfold Worker.stepSupervisor at h
  split at h
  · rename_i reply closed
    cases h
    -- the capture was built, or its constructor raised
    unfold Worker.captureBuilt
    cases reply with
    | error error => exact unwind_kept setup w _ closed
    | ok _ =>
      simp only
      split
      · have hkept := unwind_kept setup
          { w with capture := { w.capture with built := true } } none closed
        exact ⟨hkept.supervisor, hkept.started⟩
      · exact ⟨⟨_, rfl⟩, .inl rfl⟩
  · rename_i reply closed
    cases h
    -- the pipeline was built: the tasks start, and then RUNNING is published
    unfold Worker.pipelineBuilt
    cases reply with
    | error error => exact unwind_kept setup w _ closed
    | ok _ =>
      simp only
      split
      · have hkept := unwind_kept setup
          { w with pipeline := { w.pipeline with built := true } } none closed
        exact ⟨hkept.supervisor, hkept.started⟩
      · split
        · rename_i u raised hu
          have hstarted := transition_started setup
            { w with
              pipeline := { w.pipeline with built := true }, acceptingEvents := true,
              eventTask := some .getting, captureTask := some .scheduled,
              analyticsTask := some .scheduled } .running
          rw [hu] at hstarted
          have hkept := unwind_kept setup u (some raised) closed
          refine ⟨hkept.supervisor, ?_⟩
          rw [show w.started = u.started from hstarted.symm]
          exact hkept.started
        · rename_i u hu
          have hstarted := transition_started setup
            { w with
              pipeline := { w.pipeline with built := true }, acceptingEvents := true,
              eventTask := some .getting, captureTask := some .scheduled,
              analyticsTask := some .scheduled } .running
          rw [hu] at hstarted
          refine ⟨⟨_, rfl⟩, ?_⟩
          unfold Worker.resolveStarted
          split
          · rename_i hpending
            exact .inr ⟨hstarted.symm.trans hpending, _, rfl⟩
          · exact .inl hstarted
  · split at h <;> cases h
    -- a loop has ended, a stop was requested, or both
    unfold Worker.watched
    simp only
    split
    · exact unwind_kept setup w _ _
    · split <;> exact unwind_kept setup w _ _
  · split at h <;> cases h
    -- the loops are gathered, so the pipeline is closed
    exact closePipelineOnce_kept setup w _
  · rename_i reply
    cases h
    unfold Worker.pipelineClosed
    cases reply with
    | none => exact settleEventTask_kept setup w _
    | some error =>
      have hkept := fun failures => settleEventTask_kept setup
        { w with shutdownFailures := failures }
      exact ⟨(hkept _ _).supervisor, (hkept _ _).started⟩
  · split at h <;> cases h
    exact ⟨⟨_, rfl⟩, .inl rfl⟩
  · split at h <;> cases h
    exact ⟨⟨_, rfl⟩, .inl rfl⟩
  · split at h <;> cases h
    exact finish_kept setup w _
  · cases h

/-! ### The loops, the callbacks and the callers -/

/-- A step that leaves the supervisor and the start future. At rest it leaves all that shows. -/
structure LoopKept (w w' : Worker Event) : Prop where
  supervisor : w'.supervisorTask = w.supervisorTask
  started : w'.started = w.started
  shutdownFailures : w'.shutdownFailures = w.shutdownFailures
  rest : AtRest w → w'.state = w.state ∧ w'.failure = w.failure
  failed : w'.state = .failed → w.state = .failed
  failure : w.failure ≠ none → w'.failure ≠ none

/-- A step that leaves the five fields. -/
theorem LoopKept.of_same (hsupervisor : w'.supervisorTask = w.supervisorTask)
    (hstarted : w'.started = w.started) (hfailures : w'.shutdownFailures = w.shutdownFailures)
    (hstate : w'.state = w.state) (hfailure : w'.failure = w.failure) : LoopKept w w' :=
  ⟨hsupervisor, hstarted, hfailures, fun _ => ⟨hstate, hfailure⟩, fun h => hstate ▸ h,
    fun h => hfailure ▸ h⟩

/-- A transition of the capture loop, which comes after a clear stop event. -/
theorem afterTransition_kept {u : Worker Event} {state : WorkerState}
    {next : Worker Event → Worker Event} (hu : LoopKept w u) (hclear : w.stopEvent = false)
    (hne : state ≠ .failed)
    (hnext : ∀ u : Worker Event, (next u).supervisorTask = u.supervisorTask ∧
      (next u).started = u.started ∧ (next u).shutdownFailures = u.shutdownFailures ∧
      (next u).state = u.state ∧ (next u).failure = u.failure) :
    LoopKept w (Worker.afterTransition (u.transition setup state) next) := by
  have hrest : AtRest w → False := by
    intro h
    have := h.stop.symm.trans hclear
    cases this
  unfold Worker.transition Worker.afterTransition
  split_ifs
  · obtain ⟨hs, hst, hf, hstate, hfailure⟩ := hnext u
    exact ⟨hs.trans hu.supervisor, hst.trans hu.started, hf.trans hu.shutdownFailures,
      fun h => (hrest h).elim, fun h => hu.failed (hstate.symm.trans h),
      fun h => by rw [hfailure]; exact hu.failure h⟩
  · obtain ⟨hs, hst, hf, hstate, hfailure⟩ := hnext { u with state }
    exact ⟨hs.trans hu.supervisor, hst.trans hu.started, hf.trans hu.shutdownFailures,
      fun h => (hrest h).elim, fun h => absurd (hstate.symm.trans h) hne,
      fun h => by rw [hfailure]; exact hu.failure h⟩
  · exact ⟨hu.supervisor, hu.started, hu.shutdownFailures, fun h => (hrest h).elim, hu.failed,
      hu.failure⟩

/-- A read of the capture loop leaves the supervisor and the start future. -/
theorem captureRead_kept (w : Worker Event) (reconnecting : Bool)
    (reply : Except Raised ReadResult) :
    LoopKept w (w.captureRead setup reconnecting reply) := by
  unfold Worker.captureRead
  cases reply with
  | error error => exact .of_same rfl rfl rfl rfl rfl
  | ok result =>
    simp only
    split
    · exact .of_same rfl rfl rfl rfl rfl
    · rename_i hstop
      -- nobody has asked to stop, so the frame or its absence may change the state
      have hclear : w.stopEvent = false := Bool.eq_false_iff.mpr hstop
      cases result with
      | emptyFrame => exact .of_same rfl rfl rfl rfl rfl
      | frame =>
        simp only
        split
        · exact afterTransition_kept (.of_same rfl rfl rfl rfl rfl) hclear
            (by decide) fun _ => ⟨rfl, rfl, rfl, rfl, rfl⟩
        · exact .of_same rfl rfl rfl rfl rfl
      | nothing =>
        simp only
        split
        · exact .of_same rfl rfl rfl rfl rfl
        · exact afterTransition_kept (.of_same rfl rfl rfl rfl rfl) hclear
            (by decide) fun _ => ⟨rfl, rfl, rfl, rfl, rfl⟩

/-- A step of a loop. -/
theorem stepLoop_kept {act : WorkerAct Callback} (h : w.stepLoop setup act = some w') :
    LoopKept w w' := by
  unfold Worker.stepLoop at h
  split at h
  · split at h <;> cases h
    exact .of_same rfl rfl rfl rfl rfl
  · split at h <;> cases h
    exact captureRead_kept w _ _
  · split at h <;> cases h
    exact .of_same rfl rfl rfl rfl rfl
  · split at h <;> cases h
    exact .of_same rfl rfl rfl rfl rfl
  · split at h <;> cases h
    split <;> exact .of_same rfl rfl rfl rfl rfl
  · split at h <;> cases h
    unfold Worker.frameProcessed
    split <;> exact .of_same rfl rfl rfl rfl rfl
  · split at h <;> cases h
    unfold Worker.eventTaken
    split <;> exact .of_same rfl rfl rfl rfl rfl
  · split at h <;> cases h
    rename_i hemitting
    unfold Worker.eventEmitted
    split
    · exact .of_same rfl rfl rfl rfl rfl
    · refine ⟨rfl, rfl, rfl, fun hrest => ?_, id, fun _ => Option.some_ne_none _⟩
      -- the dispatcher of a worker at rest is not in `emit`
      rcases hrest.eventTask with hnone | hdone
      · rw [hnone] at hemitting
        cases hemitting
      · rw [hdone] at hemitting
        cases hemitting
  · cases h

/-- `_queue_event`. A worker at rest drops the event. -/
theorem queueEvent_kept (w : Worker Event) (event : Callback) :
    LoopKept w (w.queueEvent setup event) := by
  unfold Worker.queueEvent
  split
  · exact .of_same rfl rfl rfl rfl rfl
  · rename_i hopen
    have hrest : AtRest w → False := fun h => hopen (.inl h.accepting)
    split
    · unfold Worker.rejectEvent
      split
      · exact ⟨rfl, rfl, rfl, fun h => (hrest h).elim, id, fun _ => Option.some_ne_none _⟩
      · exact ⟨rfl, rfl, rfl, fun h => (hrest h).elim, id, id⟩
      · exact ⟨rfl, rfl, rfl, fun h => (hrest h).elim, id, id⟩
    · simp only [Worker.putEvent]
      split <;> exact .of_same rfl rfl rfl rfl rfl

/-- A step that keeps the supervisor shows as an evolution. -/
theorem LoopKept.shown (hk : LoopKept w w') (h : Shows v w) (hw : Sound w) : ShownStep w w' where
  supervisor := by
    obtain ⟨task, htask, -⟩ := h.supervisor
    exact ⟨task, hk.supervisor.trans htask⟩
  started := ⟨v.started, hk.started.trans h.started, fun _ => h.started⟩
  finished raised hended := by
    have hphase := hw.phase
    rw [hended] at hphase
    obtain ⟨hstate, hfailure⟩ := hk.rest hphase.2
    exact ⟨hstate, hfailure, hk.shutdownFailures, hk.supervisor, hk.started⟩

/-- A step of the supervisor shows as an evolution. -/
theorem StartKept.shown (hk : StartKept w w') (h : Shows v w)
    (hlive : ∀ raised, w.supervisorTask ≠ some (.ended raised)) : ShownStep w w' where
  supervisor := hk.supervisor
  started := by
    rcases hk.started with hsame | ⟨hpending, started, hstarted⟩
    · exact ⟨v.started, hsame.trans h.started, fun _ => h.started⟩
    · exact ⟨started, hstarted, fun hne => absurd hpending hne⟩
  finished raised hended := absurd hended (hlive raised)

variable (setup) in
/-- What `_close_capture_once` shows: nothing, or the failure of a capture that was open. -/
theorem closeCaptureOnce_shown (w : Worker Event) (closed : Option Raised) :
    ∃ failure : Option OrchestrationFailure,
      (w.closeCaptureOnce setup closed).shutdownFailures = w.shutdownFailures ++ failure.toList ∧
      (w.closeCaptureOnce setup closed).failure = failure.or w.failure ∧
      (failure ≠ none → w.capture.built = true ∧ w.capture.closed = false) := by
  unfold Worker.closeCaptureOnce
  split
  · exact ⟨none, (List.append_nil _).symm, rfl, fun h => absurd rfl h⟩
  · rename_i hopen
    rw [not_or, Bool.not_eq_true, Bool.not_eq_false] at hopen
    cases closed with
    | none => exact ⟨none, (List.append_nil _).symm, rfl, fun h => absurd rfl h⟩
    | some error => exact ⟨some _, rfl, rfl, fun _ => ⟨hopen.2, hopen.1⟩⟩

/-- The synchronous part of `stop` shows as `stopping` and the failure of an open capture. -/
theorem stopLocked_shows (h : Shows v w) (i : Nat) (cancelledStart : Bool)
    (closed : Option Raised) (hw : Sound w) : ∃ failure,
    Shows (v.stopping.closeCapture failure) (w.stopLocked setup i cancelledStart closed) := by
  obtain ⟨task, htask, hlive⟩ := h.supervisor
  have hstate : v.stopping.state = stopState task w.state := by
    unfold WorkerView.stopping stopState
    rw [hlive, h.state]
    split_ifs
    · rfl
    · exact h.state
  have hsame : v.stopping.failure = w.failure ∧ v.stopping.shutdownFailures = w.shutdownFailures ∧
      v.stopping.live = v.live ∧ v.stopping.started = v.started := by
    unfold WorkerView.stopping
    split_ifs <;> exact ⟨h.failure, h.shutdownFailures, rfl, rfl⟩
  obtain ⟨hfailure, hfailures, hstopping, hstarted⟩ := hsame
  obtain ⟨failure, hshut, hlast, hopen⟩ := closeCaptureOnce_shown setup
    { w with state := stopState task w.state, acceptingEvents := false, stopEvent := true } closed
  obtain ⟨failures', failure', heq⟩ := closeCaptureOnce_cases setup
    { w with state := stopState task w.state, acceptingEvents := false, stopEvent := true } closed
  rw [heq] at hshut hlast
  rw [stopLocked_eq setup htask, heq]
  cases failure with
  | none =>
    refine ⟨none, hstate, ?_, ?_, ⟨task, htask, hstopping.trans hlive⟩, ?_⟩
    · exact hfailure.trans hlast.symm
    · exact hfailures.trans ((List.append_nil _).symm.trans hshut.symm)
    · exact h.started.trans (congrArg some hstarted.symm)
  | some failure =>
    -- the capture was open, so the supervisor is not done
    have hbusy : v.stopping.live = true := by
      rw [hstopping, hlive]
      cases task with
      | ended raised =>
        have hphase := hw.phase
        rw [htask] at hphase
        obtain ⟨hbuilt, hclosed⟩ := hopen (by simp)
        have := (hphase.2.capture hbuilt).symm.trans hclosed
        cases this
      | buildingCapture | buildingPipeline | watching | gathering | closingPipeline | joiningQueue
        | puttingStop | awaitingEvents => rfl
    have hclose : v.stopping.closeCapture (some failure) =
        { v.stopping with
          shutdownFailures := v.stopping.shutdownFailures ++ [failure]
          failure := some failure } := if_pos hbusy
    refine ⟨some failure, ?_⟩
    rw [hclose]
    refine ⟨hstate, hlast.symm, ?_, ⟨task, htask, hstopping.trans hlive⟩, ?_⟩
    · exact (congrArg (· ++ [failure]) hfailures).trans hshut.symm
    · exact h.started.trans (congrArg some hstarted.symm)

/-- Every step of a worker shows. The synchronous part of `stop` shows as the manager calls it, and
every other step as an evolution of the view. -/
theorem worker_shows {act : WorkerAct Callback} (hw : Reachable (workerMachine setup) Any w)
    (h : Shows v w) (hstep : w.step setup act = some w') :
    (∃ v' : WorkerView Settings, Shows v' w' ∧ v.Evolves v') ∨
      ∃ failure, Shows (v.stopping.closeCapture failure) w' := by
  have hsound := sound_reachable hw
  have hcases := worker_cases hstep
  have hsound' := sound_step hsound hcases
  obtain ⟨task, htask, -⟩ := h.supervisor
  have hsame : ∀ {u : Worker Event}, Sound u → LoopKept w u →
      ∃ v' : WorkerView Settings, Shows v' u ∧ v.Evolves v' :=
    fun hu hk => (hk.shown h hsound).evolves h hu
  cases hcases with
  | start =>
    refine .inl (hsame hsound' ?_)
    unfold Worker.start
    split
    · exact .of_same rfl rfl rfl rfl rfl
    · rename_i hnone
      rw [htask] at hnone
      cases hnone
  | stop => exact .inl (hsame hsound' (.of_same rfl rfl rfl rfl rfl))
  -- the stop that holds the lock closes the capture, which is an act of its own in the view
  | locked i cancelledStart closed => exact .inr (stopLocked_shows h i cancelledStart closed hsound)
  | caller i caller => exact .inl (hsame hsound' (.of_same rfl rfl rfl rfl rfl))
  | returned i cancelledStart _ => exact .inl (hsame hsound' (.of_same rfl rfl rfl rfl rfl))
  | callback event => exact .inl (hsame hsound' (queueEvent_kept w event))
  -- a supervisor that has ended takes no step
  | supervisor htask' hrun =>
    have hlive : ∀ raised, w.supervisorTask ≠ some (.ended raised) := by
      intro raised hended
      rw [htask'] at hended
      cases hended
      simp [Worker.stepSupervisor] at hrun
    exact .inl (((stepSupervisor_kept hrun).shown h hlive).evolves h hsound')
  | loop hrun => exact .inl (hsame hsound' (stepLoop_kept hrun))

/-- The first call of `start` shows as a new view. -/
theorem start_shows (definition : CameraDefinition Settings) (generation : Nat) :
    Shows (WorkerView.new definition generation) ((Worker.new : Worker Event).start setup) :=
  ⟨rfl, rfl, rfl, ⟨.buildingCapture, rfl, rfl⟩, rfl⟩

/-! ### What a worker tells of its failures -/

/-- A worker that failed, or that has a failure of its cleanup, shows a failure once it is done. -/
def Reported (v : WorkerView Settings) : Prop :=
  v.live = false → v.state = .failed ∨ v.shutdownFailures ≠ [] → v.failure ≠ none

instance (v : WorkerView Settings) : Decidable (Reported v) :=
  inferInstanceAs (Decidable (_ → _ → _))

/-- The worker has a failure to show, or the supervisor is about to record `error`. -/
structure Told (w : Worker Event) (error : Option OrchestrationError) : Prop where
  failed : w.state = .failed → w.failure ≠ none
  cleanup : w.shutdownFailures ≠ [] → w.failure ≠ none ∨ error ≠ none

/-- What the supervisor is about to record. -/
def pendingError : Option Supervisor → Option OrchestrationError
  | some (.gathering error) | some (.closingPipeline error) | some (.joiningQueue error)
  | some (.puttingStop error) | some (.awaitingEvents error) => error
  | _ => none

section
variable {error error' : Option OrchestrationError}

/-- What is told depends on the state, the failure and the failures of the cleanup only. -/
theorem Told.of_same (h : Told w error) (hstate : w'.state = w.state)
    (hfailure : w'.failure = w.failure) (hfailures : w'.shutdownFailures = w.shutdownFailures) :
    Told w' error := by
  constructor
  · rw [hstate, hfailure]
    exact h.failed
  · rw [hfailures, hfailure]
    exact h.cleanup

/-- An error to record is as good as none. -/
theorem Told.mono (h : Told w error) (hle : error ≠ none → error' ≠ none) : Told w error' :=
  ⟨h.failed, fun hcleanup => (h.cleanup hcleanup).imp_right hle⟩

/-- A failure that is shown tells everything. -/
theorem Told.of_failure (h : w.failure ≠ none) : Told w error :=
  ⟨fun _ => h, fun _ => .inl h⟩

variable (setup) in
/-- No transition but the one of `publish` leads to `FAILED`. -/
theorem Told.transition (h : Told w error) (state : WorkerState) (hne : state ≠ .failed) :
    Told (w.transition setup state).1 error := by
  unfold Worker.transition
  split_ifs
  · exact h
  · exact ⟨fun hfailed => absurd hfailed hne, h.cleanup⟩
  · exact ⟨h.failed, h.cleanup⟩

variable (setup) in
/-- A transition leaves the failure. -/
theorem transition_failure (w : Worker Event) (state : WorkerState) :
    (w.transition setup state).1.failure = w.failure := by
  unfold Worker.transition
  split_ifs <;> rfl

/-- The end of the supervisor records its error. -/
theorem Told.publish (h : Told w error) : Told (w.publish setup error).1 none := by
  cases error with
  -- the failure is recorded before the future is rejected
  | some error =>
    apply Told.of_failure
    have hrecorded : ∀ (u : Worker Event) (raised : Option OrchestrationError),
        (if (w.recordFailure error).state ≠ .failed then
          (w.recordFailure error).transition setup .failed else (w.recordFailure error, none)) =
            (u, raised) → u.failure ≠ none := by
      intro u raised hu
      split at hu
      · have hkept := transition_failure setup (w.recordFailure error) .failed
        rw [hu] at hkept
        rw [hkept]
        exact Option.some_ne_none _
      · cases hu
        exact Option.some_ne_none _
    simp only [Worker.publish]
    split
    · rename_i u raised hu
      exact hrecorded u _ hu
    · rename_i u hu
      unfold Worker.rejectStarted
      split <;> exact hrecorded u _ hu
  -- without an error the future is resolved, and only in STOPPED
  | none =>
    have hstopping : ∀ (u : Worker Event) (raised : Option OrchestrationError),
        (if w.state ≠ .stopping then w.transition setup .stopping else (w, none)) = (u, raised) →
          Told u none := by
      intro u raised hu
      split at hu
      · have htold := h.transition setup .stopping (by decide)
        rw [hu] at htold
        exact htold
      · cases hu
        exact h
    simp only [Worker.publish]
    split
    · rename_i u raised hu
      exact hstopping u _ hu
    · rename_i u hu
      have htold := (hstopping u _ hu).transition setup .stopped (by decide)
      split
      · rename_i u' raised hu'
        rw [hu'] at htold
        exact htold
      · rename_i u' hu'
        rw [hu'] at htold
        unfold Worker.resolveStarted
        split
        · exact htold.of_same rfl rfl rfl
        · exact htold

/-- The supervisor ends with a failure to show, if there is one. -/
theorem Told.finish (h : Told w error) :
    Told (w.finish setup error) (pendingError (w.finish setup error).supervisorTask) :=
  h.publish.of_same rfl rfl rfl

/-- It is told after the wait for the event task. -/
theorem Told.settleEventTask (h : Told w error) : Told (w.settleEventTask setup error)
    (pendingError (w.settleEventTask setup error).supervisorTask) := by
  unfold Worker.settleEventTask
  split
  · exact h.finish
  · apply Told.finish
    exact h.of_same rfl rfl rfl
  · exact h.of_same rfl rfl rfl

/-- It is told after the wait for the pipeline. -/
theorem Told.closePipelineOnce (h : Told w error) : Told (w.closePipelineOnce setup error)
    (pendingError (w.closePipelineOnce setup error).supervisorTask) := by
  unfold Worker.closePipelineOnce
  split
  · exact h.settleEventTask
  · exact h.of_same rfl rfl rfl

/-- The failure of a capture that is closed is shown. -/
theorem Told.closeCaptureOnce (h : Told w error) (closed : Option Raised) :
    Told (w.closeCaptureOnce setup closed) error := by
  unfold Worker.closeCaptureOnce
  split
  · exact h
  · cases closed with
    | none => exact h.of_same rfl rfl rfl
    | some raised => exact Told.of_failure (Option.some_ne_none _)

/-- It is told after the capture was closed, also when closing it raised. -/
theorem Told.unwind (h : Told w error) (closed : Option Raised) :
    Told (w.unwind setup error closed)
      (pendingError (w.unwind setup error closed).supervisorTask) := by
  have hclosed : Told
      ({ w with acceptingEvents := false, stopEvent := true }.closeCaptureOnce setup closed)
      error := by
    refine Told.closeCaptureOnce ?_ closed
    exact h.of_same rfl rfl rfl
  simp only [Worker.unwind]
  split
  · exact hclosed.closePipelineOnce
  · exact hclosed.of_same rfl rfl rfl

end

/-- A step of the supervisor keeps what the worker tells. -/
theorem Told.stepSupervisor {task : Supervisor} {act : WorkerAct Callback}
    (h : Told w (pendingError (some task))) (hstep : w.stepSupervisor setup task act = some w') :
    Told w' (pendingError w'.supervisorTask) := by
  unfold Worker.stepSupervisor at hstep
  split at hstep
  · rename_i reply closed
    cases hstep
    unfold Worker.captureBuilt
    cases reply with
    | error error => exact (h.mono fun hnone => absurd rfl hnone).unwind closed
    | ok _ =>
      simp only
      split
      · refine Told.unwind ?_ closed
        exact h.of_same rfl rfl rfl
      · exact h.of_same rfl rfl rfl
  · rename_i reply closed
    cases hstep
    unfold Worker.pipelineBuilt
    cases reply with
    | error error => exact (h.mono fun hnone => absurd rfl hnone).unwind closed
    | ok _ =>
      simp only
      split
      · refine Told.unwind ?_ closed
        exact h.of_same rfl rfl rfl
      · have hopen : Told
            { w with
              pipeline := { w.pipeline with built := true }, acceptingEvents := true,
              eventTask := some .getting, captureTask := some .scheduled,
              analyticsTask := some .scheduled } none := h.of_same rfl rfl rfl
        have hrunning := hopen.transition setup .running (by decide)
        split
        · rename_i u raised hu
          rw [hu] at hrunning
          exact (hrunning.mono fun hnone => absurd rfl hnone).unwind closed
        · rename_i u hu
          rw [hu] at hrunning
          unfold Worker.resolveStarted
          split <;> exact hrunning.of_same rfl rfl rfl
  · split at hstep <;> cases hstep
    unfold Worker.watched
    have hunwind : ∀ error closed, Told (w.unwind setup error closed)
        (pendingError (w.unwind setup error closed).supervisorTask) :=
      fun _ closed => (h.mono fun hnone => absurd rfl hnone).unwind closed
    simp only
    split
    · exact hunwind _ _
    · split <;> exact hunwind _ _
  · rename_i terminalError
    split at hstep <;> cases hstep
    refine (h.mono ?_).closePipelineOnce
    cases terminalError with
    | none => exact fun hnone => absurd rfl hnone
    | some error => exact fun _ => Option.some_ne_none _
  · rename_i terminalError reply
    cases hstep
    unfold Worker.pipelineClosed
    cases reply with
    | none => exact h.settleEventTask
    | some error =>
      -- the error of the pipeline is recorded when there is no other one
      refine Told.settleEventTask ⟨h.failed, fun _ => .inr ?_⟩
      cases terminalError with
      | none => exact Option.some_ne_none _
      | some error => exact Option.some_ne_none _
  · split at hstep <;> cases hstep
    exact h.of_same rfl rfl rfl
  · split at hstep <;> cases hstep
    exact h.of_same rfl rfl rfl
  · split at hstep <;> cases hstep
    exact h.finish
  · cases hstep

/-- A step of a loop or of a callback keeps it too. -/
theorem LoopKept.told (hk : LoopKept w w') (h : Told w (pendingError w.supervisorTask)) :
    Told w' (pendingError w'.supervisorTask) := by
  rw [hk.supervisor]
  refine ⟨fun hfailed => hk.failure (h.failed (hk.failed hfailed)), fun hcleanup => ?_⟩
  rw [hk.shutdownFailures] at hcleanup
  exact (h.cleanup hcleanup).imp_left hk.failure

/-- The first call of `start` starts the supervisor. -/
theorem Told.start (h : Told w (pendingError w.supervisorTask)) :
    Told (w.start setup) (pendingError (w.start setup).supervisorTask) := by
  unfold Worker.start
  split
  · exact h.of_same rfl rfl rfl
  · rename_i hnone
    unfold Worker.transition
    split_ifs
    · exact ⟨h.failed, fun hcleanup => hnone ▸ h.cleanup hcleanup⟩
    · exact ⟨fun hfailed => (by cases hfailed), fun hcleanup => hnone ▸ h.cleanup hcleanup⟩
    · exact h.of_same rfl rfl rfl

/-- So does the synchronous part of `stop`. -/
theorem Told.stopLocked (h : Told w (pendingError w.supervisorTask)) (i : Nat)
    (cancelledStart : Bool) (closed : Option Raised) :
    Told (w.stopLocked setup i cancelledStart closed)
      (pendingError (w.stopLocked setup i cancelledStart closed).supervisorTask) := by
  cases htask : w.supervisorTask with
  | none =>
    rw [stopLocked_none setup htask]
    exact h.of_same rfl rfl rfl
  | some task =>
    rw [htask] at h
    have hclosed : Told ({ w with
        state := stopState task w.state, acceptingEvents := false, stopEvent := true
        }.closeCaptureOnce setup closed) (pendingError (some task)) := by
      refine Told.closeCaptureOnce ?_ closed
      refine ⟨fun hfailed => h.failed ?_, h.cleanup⟩
      -- a worker that is requested to stop did not fail
      have hstate : stopState task w.state = .failed := hfailed
      unfold stopState at hstate
      split at hstate
      · cases hstate
      · exact hstate
    obtain ⟨failures, failure, heq⟩ := closeCaptureOnce_cases setup
      { w with state := stopState task w.state, acceptingEvents := false, stopEvent := true } closed
    rw [heq] at hclosed
    rw [stopLocked_eq setup htask, heq]
    show Told _ (pendingError w.supervisorTask)
    rw [htask]
    exact hclosed.of_same rfl rfl rfl

/-- Every step keeps what the worker tells. -/
theorem told_step (h : Told w (pendingError w.supervisorTask)) (hstep : WorkerCases setup w w') :
    Told w' (pendingError w'.supervisorTask) := by
  cases hstep with
  | start => exact h.start
  | stop => exact h.of_same rfl rfl rfl
  | locked i cancelledStart closed => exact h.stopLocked i cancelledStart closed
  | caller i caller => exact h.of_same rfl rfl rfl
  | returned i cancelledStart _ => exact h.of_same rfl rfl rfl
  | callback event => exact (queueEvent_kept w event).told h
  | supervisor htask hrun => exact Told.stepSupervisor (htask ▸ h) hrun
  | loop hrun => exact (stepLoop_kept hrun).told h

/-- Every worker reports its failures: what the manager assumes of the workers that it finds. -/
theorem worker_reported (hw : Reachable (workerMachine setup) Any w) (h : Shows v w) :
    Reported v := by
  have htold : Told w (pendingError w.supervisorTask) := by
    refine hw.invariant (I := fun w => Told w (pendingError w.supervisorTask)) ?_
      fun _ _ _ _ _ hstep ht => told_step ht (worker_cases hstep)
    exact ⟨fun hfailed => (by cases hfailed), fun hcleanup => absurd rfl hcleanup⟩
  intro hdone hfailed
  obtain ⟨task, htask, hlive⟩ := h.supervisor
  cases task with
  | ended raised =>
    rw [htask] at htold
    rw [h.failure]
    rcases hfailed with hstate | hcleanup
    · exact htold.failed (h.state ▸ hstate)
    · exact (htold.cleanup (h.shutdownFailures ▸ hcleanup)).resolve_right fun hnone => hnone rfl
  | buildingCapture | buildingPipeline | watching | gathering | closingPipeline | joiningQueue
    | puttingStop | awaitingEvents => cases hdone.symm.trans hlive

end Rsap.Proofs
