import Rsap.Orchestration.Worker

/-!
# `Rsap.Proofs.WorkerLifecycle`: a worker settles cleanly

`Sound` says what holds in each phase of the supervisor (`PhaseFits`). It has three parts. The
state of the lifecycle goes with the phase and the stop event: a caller of `stop` sets both in one
step, so a loop that finds the event clear finds the state `running` or `reconnecting`. A resource
is closed at most once, and in the `finally` part of `_run` the capture is closed (`Unwinding`).
The queue has no stop entry and counts its unfinished tasks while the dispatcher runs
(`Draining`), so it is empty when `join` returns, and the dispatcher takes the stop entry last.

Each helper of the supervisor has a lemma with its precondition: `finish_sound`, `settle_sound`,
`closePipeline_sound`, `unwind_sound`. `sound_step` goes through the steps, and `settled_cleanly`
reads the end of the supervisor from `Sound`.
-/

set_option autoImplicit false

namespace Rsap.Proofs

open Rsap.Library
open Rsap.Library.Machine (Reachable Any)
open Rsap.Orchestration

variable {Callback Event : Type} {setup : WorkerSetup Callback Event} {w w' : Worker Event}

/-! ### The phases -/

/-- The resource was closed at most once, and only after it was built. -/
structure Resource.Once (r : Resource) : Prop where
  closes : r.closes = if r.closed then 1 else 0
  built : r.closed = true → r.built = true

/-- The start future is resolved. -/
def StartFuture.Done : Option StartFuture → Prop
  | some .resolved => True
  | some (.rejected _) => True
  | _ => False

/-- The three loops do not exist, and the queue was never used. -/
structure Idle (w : Worker Event) : Prop where
  captureTask : w.captureTask = none
  analyticsTask : w.analyticsTask = none
  eventTask : w.eventTask = none
  queue : w.eventQueue = []
  unfinished : w.unfinishedTasks = 0
  accepting : w.acceptingEvents = false

/-- The dispatcher runs or was never created, and the queue holds events only. -/
def Draining (w : Worker Event) : Prop :=
  match w.eventTask with
  | none => w.eventQueue = [] ∧ w.unfinishedTasks = 0
  | some .getting => .stop ∉ w.eventQueue ∧ w.unfinishedTasks = w.eventQueue.length
  | some (.emitting _) => .stop ∉ w.eventQueue ∧ w.unfinishedTasks = w.eventQueue.length + 1
  | some .done => False

/-- The state before the loops run. -/
structure Building (w : Worker Event) : Prop where
  state : w.stopEvent = false ∧ w.state = .starting ∨ w.stopEvent = true ∧ w.state = .stopping
  started : w.started = some .pending
  idle : Idle w
  pipeline : w.pipeline.built = false

/-- The state while the loops run. -/
structure Watching (w : Worker Event) : Prop where
  state : w.stopEvent = false ∧ (w.state = .running ∨ w.state = .reconnecting) ∨
    w.stopEvent = true ∧ w.state = .stopping
  started : w.started ≠ none
  draining : Draining w
  dispatching : w.eventTask ≠ none

/-- The state in the `finally` part of `_run`. -/
structure Unwinding (w : Worker Event) : Prop where
  stop : w.stopEvent = true
  accepting : w.acceptingEvents = false
  state : w.state ≠ .stopped ∧ w.state ≠ .failed
  started : w.started ≠ none
  capture : w.capture.built = true → w.capture.closed = true

/-- The state after the supervisor. -/
structure AtRest (w : Worker Event) : Prop where
  state : w.state = .stopped ∨ w.state = .failed
  started : StartFuture.Done w.started
  stop : w.stopEvent = true
  accepting : w.acceptingEvents = false
  queue : w.eventQueue = []
  eventTask : w.eventTask = none ∨ w.eventTask = some .done
  capture : w.capture.built = true → w.capture.closed = true
  pipeline : w.pipeline.built = true → w.pipeline.closed = true

/-- What holds in each phase of the supervisor. -/
def PhaseFits (w : Worker Event) : Option Supervisor → Prop
  | none => w.state = .stopped ∧ w.stopEvent = false ∧ w.capture.built = false ∧
      w.pipeline.built = false ∧ Idle w
  | some .buildingCapture => Building w ∧ w.capture.built = false
  | some .buildingPipeline => Building w
  | some .watching => Watching w
  | some (.gathering _) => Unwinding w ∧ Draining w
  | some (.closingPipeline _) => Unwinding w ∧ Draining w ∧
      (w.pipeline.built = true → w.pipeline.closed = true)
  | some (.joiningQueue _) => Unwinding w ∧ Draining w ∧
      (w.pipeline.built = true → w.pipeline.closed = true)
  | some (.puttingStop _) => Unwinding w ∧ Draining w ∧
      (w.pipeline.built = true → w.pipeline.closed = true) ∧ w.unfinishedTasks = 0
  | some (.awaitingEvents _) => Unwinding w ∧
      (w.pipeline.built = true → w.pipeline.closed = true) ∧
      (w.eventTask = some .done ∧ w.eventQueue = [] ∨
        w.eventQueue = [.stop] ∧ (w.eventTask = none ∨ w.eventTask = some .getting))
  | some (.ended raised) => raised = none ∧ AtRest w

/-- No transition was rejected, the resources are closed at most once, and the phase fits. -/
structure Sound (w : Worker Event) : Prop where
  transitions : w.rejectedTransitions = []
  capture : Resource.Once w.capture
  pipeline : Resource.Once w.pipeline
  phase : PhaseFits w w.supervisorTask

/-! ### Transitions and resources -/

/-- A transition in the table is accepted. -/
theorem transition_ok {state : WorkerState} (h : state ∈ validTransitions w.state) :
    w.transition setup state = ({ w with state }, none) := by
  unfold Worker.transition
  by_cases hs : state = w.state
  · rw [if_pos hs, hs]
  · rw [if_neg hs, if_pos h]

/-- A transition to the present state is none. -/
theorem transition_same {state : WorkerState} (h : state = w.state) :
    w.transition setup state = (w, none) := if_pos h

/-- The guarded close closes a resource once. -/
theorem Resource.Once.closeOnce {r : Resource} (h : Resource.Once r) :
    Resource.Once r.closeOnce := by
  unfold Resource.closeOnce
  by_cases hc : r.closed = true ∨ r.built = false
  · rw [if_pos hc]
    exact h
  · rw [if_neg hc]
    simp only [not_or, Bool.not_eq_true, Bool.not_eq_false] at hc
    have hcloses := h.closes
    rw [hc.1] at hcloses
    exact ⟨by simp [hcloses], fun _ => hc.2⟩

/-- After the guarded close a resource that is built is closed. -/
theorem closeOnce_closed (r : Resource) : r.closeOnce.built = true → r.closeOnce.closed = true := by
  unfold Resource.closeOnce
  split
  · rename_i h
    intro hb
    rcases h with h | h
    · exact h
    · exact absurd hb (by simp [h])
  · intro _
    rfl

/-- Closing a resource does not build it. -/
@[simp] theorem closeOnce_built (r : Resource) : r.closeOnce.built = r.built := by
  unfold Resource.closeOnce
  split <;> rfl

variable (setup) in
/-- `_close_capture_once` changes the capture and the failures. -/
theorem closeCaptureOnce_cases (w : Worker Event) (closed : Option Raised) :
    ∃ shutdownFailures failure, w.closeCaptureOnce setup closed =
      { w with capture := w.capture.closeOnce, shutdownFailures, failure } := by
  unfold Worker.closeCaptureOnce
  split
  · rename_i h
    have hsame : w.capture.closeOnce = w.capture := if_pos h
    exact ⟨w.shutdownFailures, w.failure, by rw [hsame]⟩
  · cases closed with
    | none => exact ⟨_, _, rfl⟩
    | some error => exact ⟨_, _, rfl⟩

/-! ### The end of the supervisor -/

/-- What `publish` does in a state that is not terminal: it raises nothing. -/
theorem publish_eq (h : w.state ≠ .stopped ∧ w.state ≠ .failed)
    (terminalError : Option OrchestrationError) :
    w.publish setup terminalError =
      (match terminalError with
        | some error => { w.recordFailure error with state := .failed }.rejectStarted error
        | none => { w with state := .stopped }.resolveStarted, none) := by
  cases terminalError with
  | some error =>
    -- every state but FAILED itself may fail
    have hvalid : WorkerState.failed ∈ validTransitions (w.recordFailure error).state := by
      show WorkerState.failed ∈ validTransitions w.state
      cases hs : w.state <;> simp_all [validTransitions]
    have hstate : (w.recordFailure error).state ≠ .failed := h.2
    simp only [Worker.publish, if_pos hstate, transition_ok hvalid]
  | none =>
    simp only [Worker.publish]
    by_cases hs : w.state = .stopping
    -- a stop that was requested is over
    · have hvalid : WorkerState.stopped ∈ validTransitions w.state := by
        rw [hs]
        decide
      simp only [hs, ne_eq, not_true, if_false]
      rw [transition_ok hvalid]
    -- a supervisor that ends by itself passes through STOPPING first
    · have hvalid : WorkerState.stopping ∈ validTransitions w.state := by
        cases hw : w.state <;> simp_all [validTransitions]
      have hnext : WorkerState.stopped ∈
          validTransitions { w with state := WorkerState.stopping }.state := by
        show WorkerState.stopped ∈ validTransitions .stopping
        decide
      simp only [if_pos hs, transition_ok hvalid, transition_ok hnext]

/-- A rejection of the start future leaves it resolved. -/
theorem rejectStarted_done (h : w.started ≠ none) (error : OrchestrationError) :
    StartFuture.Done (w.rejectStarted error).started := by
  unfold Worker.rejectStarted
  split
  · trivial
  · rename_i hne
    cases hs : w.started with
    | none => exact absurd hs h
    | some future =>
      cases future with
      | pending => exact absurd hs hne
      | resolved => trivial
      | rejected error => trivial

/-- A resolution of the start future leaves it resolved. -/
theorem resolveStarted_done (h : w.started ≠ none) :
    StartFuture.Done w.resolveStarted.started := by
  unfold Worker.resolveStarted
  split
  · trivial
  · rename_i hne
    cases hs : w.started with
    | none => exact absurd hs h
    | some future =>
      cases future with
      | pending => exact absurd hs hne
      | resolved => trivial
      | rejected error => trivial

variable (setup) in
/-- What the supervisor's end changes. -/
theorem finish_cases (h : w.state ≠ .stopped ∧ w.state ≠ .failed) (hs : w.started ≠ none)
    (terminalError : Option OrchestrationError) :
    ∃ state started failure workerFailures,
      (state = .stopped ∨ state = .failed) ∧ StartFuture.Done started ∧
      w.finish setup terminalError =
        { w with
          state, started, failure
          metrics := { w.metrics with workerFailures }
          supervisorTask := some (.ended none) } := by
  cases terminalError with
  | some error =>
    have hdone := rejectStarted_done (w := { w.recordFailure error with state := .failed }) hs error
    refine ⟨.failed, _, some error.failure, w.metrics.workerFailures + 1, .inr rfl, hdone, ?_⟩
    simp only [Worker.finish, publish_eq h]
    unfold Worker.rejectStarted
    split <;> rfl
  | none =>
    have hdone := resolveStarted_done (w := { w with state := .stopped }) hs
    refine ⟨.stopped, _, w.failure, w.metrics.workerFailures, .inl rfl, hdone, ?_⟩
    simp only [Worker.finish, publish_eq h]
    unfold Worker.resolveStarted
    split <;> rfl

/-- Once the queue is empty and the dispatcher is gone, the supervisor ends settled. -/
theorem finish_sound (ht : w.rejectedTransitions = []) (hc : Resource.Once w.capture)
    (hp : Resource.Once w.pipeline) (hu : Unwinding w)
    (hpipeline : w.pipeline.built = true → w.pipeline.closed = true) (hq : w.eventQueue = [])
    (he : w.eventTask = none ∨ w.eventTask = some .done)
    (terminalError : Option OrchestrationError) : Sound (w.finish setup terminalError) := by
  obtain ⟨state, started, failure, n, hstate, hdone, heq⟩ :=
    finish_cases setup hu.state hu.started terminalError
  rw [heq]
  exact ⟨ht, hc, hp, rfl,
    ⟨hstate, hdone, hu.stop, hu.accepting, hq, he, hu.capture, hpipeline⟩⟩

/-- `_settle_event_task` joins the queue of a live dispatcher. Without a dispatcher the
supervisor ends. -/
theorem settle_sound (ht : w.rejectedTransitions = []) (hc : Resource.Once w.capture)
    (hp : Resource.Once w.pipeline) (hu : Unwinding w)
    (hpipeline : w.pipeline.built = true → w.pipeline.closed = true) (hd : Draining w)
    (terminalError : Option OrchestrationError) :
    Sound (w.settleEventTask setup terminalError) := by
  unfold Worker.settleEventTask
  split
  · rename_i he
    have hq : w.eventQueue = [] := by
      unfold Draining at hd
      rw [he] at hd
      exact hd.1
    exact finish_sound ht hc hp hu hpipeline hq (.inl he) terminalError
  · rename_i he
    unfold Draining at hd
    rw [he] at hd
    exact hd.elim
  · exact ⟨ht, hc, hp, ⟨hu.1, hu.2, hu.3, hu.4, hu.5⟩, hd, hpipeline⟩

/-- `_close_pipeline_once` closes the pipeline or finds it closed or not built. -/
theorem closePipeline_sound (ht : w.rejectedTransitions = []) (hc : Resource.Once w.capture)
    (hp : Resource.Once w.pipeline) (hu : Unwinding w) (hd : Draining w)
    (terminalError : Option OrchestrationError) :
    Sound (w.closePipelineOnce setup terminalError) := by
  unfold Worker.closePipelineOnce
  split
  · rename_i h
    refine settle_sound ht hc hp hu (fun hb => ?_) hd terminalError
    rcases h with h | h
    · exact h
    · exact absurd hb (by simp [h])
  · exact ⟨ht, hc, hp.closeOnce, ⟨hu.1, hu.2, hu.3, hu.4, hu.5⟩, hd, closeOnce_closed w.pipeline⟩

/-- The `finally` part begins soundly in every state that is not terminal. -/
theorem unwind_sound (ht : w.rejectedTransitions = []) (hc : Resource.Once w.capture)
    (hp : Resource.Once w.pipeline) (hstate : w.state ≠ .stopped ∧ w.state ≠ .failed)
    (hs : w.started ≠ none) (hd : Draining w) (terminalError : Option OrchestrationError)
    (closed : Option Raised) : Sound (w.unwind setup terminalError closed) := by
  obtain ⟨failures, failure, heq⟩ := closeCaptureOnce_cases setup
    { w with acceptingEvents := false, stopEvent := true } closed
  have hu : Unwinding { w with
      acceptingEvents := false, stopEvent := true, capture := w.capture.closeOnce,
      shutdownFailures := failures, failure } :=
    ⟨rfl, rfl, hstate, hs, closeOnce_closed w.capture⟩
  unfold Worker.unwind
  rw [heq]
  dsimp only
  split
  · exact closePipeline_sound (w := { w with
      acceptingEvents := false, stopEvent := true, capture := w.capture.closeOnce,
      shutdownFailures := failures, failure }) ht hc.closeOnce hp hu hd terminalError
  · exact ⟨ht, hc.closeOnce, hp, ⟨hu.1, hu.2, hu.3, hu.4, hu.5⟩, hd⟩

/-! ### The steps of the supervisor -/

/-- Before the loops exist the queue is idle. -/
theorem Idle.draining (h : Idle w) : Draining w := by
  unfold Draining
  rw [h.eventTask]
  exact ⟨h.queue, h.unfinished⟩

/-- A building supervisor is not in a terminal state. -/
theorem Building.live (h : Building w) : w.state ≠ .stopped ∧ w.state ≠ .failed := by
  rcases h.state with ⟨-, hs⟩ | ⟨-, hs⟩ <;> rw [hs] <;> decide

/-- A watching supervisor is not in a terminal state. -/
theorem Watching.live (h : Watching w) : w.state ≠ .stopped ∧ w.state ≠ .failed := by
  rcases h.state with ⟨-, hs | hs⟩ | ⟨-, hs⟩ <;> rw [hs] <;> decide

/-- A resource that is built was not closed before. -/
theorem Resource.Once.build {r : Resource} (h : Resource.Once r) :
    Resource.Once { r with built := true } := ⟨h.closes, fun _ => rfl⟩

/-- The capture factory returns or raises. -/
theorem captureBuilt_sound (h : Sound w) (hb : Building w) (reply : Except Raised Unit)
    (closed : Option Raised) : Sound (w.captureBuilt setup reply closed) := by
  have hs : w.started ≠ none := by simp [hb.started]
  unfold Worker.captureBuilt
  cases reply with
  | error error => exact unwind_sound h.1 h.2 h.3 hb.live hs hb.idle.draining _ _
  | ok =>
    dsimp only
    split
    · exact unwind_sound (w := { w with capture := { w.capture with built := true } })
        h.1 h.2.build h.3 hb.live hs hb.idle.draining _ _
    · have hidle : Idle { w with
          capture := { w.capture with built := true }
          supervisorTask := some .buildingPipeline } :=
        ⟨hb.idle.1, hb.idle.2, hb.idle.3, hb.idle.4, hb.idle.5, hb.idle.6⟩
      exact ⟨h.1, h.2.build, h.3, hb.state, hb.started, hidle, hb.pipeline⟩

/-- The loops start. The state is `starting` when the stop event is clear, so the transition to
`running` is in the table. -/
theorem pipelineBuilt_running (hb : Building w) (hclear : w.stopEvent = false)
    (closed : Option Raised) : w.pipelineBuilt setup (.ok ()) closed = { w with
      pipeline := { w.pipeline with built := true }
      acceptingEvents := true
      eventTask := some .getting
      captureTask := some .scheduled
      analyticsTask := some .scheduled
      state := .running
      started := some .resolved
      supervisorTask := some .watching } := by
  -- nobody has asked to stop, so the worker is still STARTING
  have hstarting : w.state = .starting := by
    rcases hb.state with ⟨-, hs⟩ | ⟨hstop, -⟩
    · exact hs
    · exact absurd hstop (by simp [hclear])
  have hvalid : WorkerState.running ∈ validTransitions w.state := by
    rw [hstarting]
    decide
  have hrun : { w with
      pipeline := { w.pipeline with built := true }
      acceptingEvents := true
      eventTask := some Dispatcher.getting
      captureTask := some .scheduled
      analyticsTask := some .scheduled }.transition setup .running = _ :=
    transition_ok hvalid
  simp only [Worker.pipelineBuilt, hclear, Bool.false_eq_true, if_false] at hrun ⊢
  rw [hrun]
  simp only [Worker.resolveStarted, hb.started, if_true]

/-- The pipeline factory returns or raises. -/
theorem pipelineBuilt_sound (h : Sound w) (hb : Building w) (reply : Except Raised Unit)
    (closed : Option Raised) : Sound (w.pipelineBuilt setup reply closed) := by
  have hs : w.started ≠ none := by simp [hb.started]
  cases reply with
  | error error => exact unwind_sound h.1 h.2 h.3 hb.live hs hb.idle.draining _ _
  | ok =>
    cases hclear : w.stopEvent with
    | true =>
      simp only [Worker.pipelineBuilt, hclear, if_true]
      exact unwind_sound (w := { w with pipeline := { w.pipeline with built := true } })
        h.1 h.2 h.3.build hb.live hs hb.idle.draining _ _
    | false =>
      rw [pipelineBuilt_running hb hclear]
      refine ⟨h.1, h.2, h.3.build, .inl ⟨hclear, .inl rfl⟩, by simp, ?_, by simp⟩
      show QueueItem.stop ∉ w.eventQueue ∧ w.unfinishedTasks = w.eventQueue.length
      rw [hb.idle.queue, hb.idle.unfinished]
      exact ⟨List.not_mem_nil, rfl⟩

/-- A loop is done, and the `finally` part begins. -/
theorem watched_sound (h : Sound w) (hw : Watching w) (captureFirst : Bool)
    (closed : Option Raised) : Sound (w.watched setup captureFirst closed) := by
  unfold Worker.watched
  dsimp only
  split
  · exact unwind_sound h.1 h.2 h.3 hw.live hw.started hw.draining _ _
  · split
    · exact unwind_sound h.1 h.2 h.3 hw.live hw.started hw.draining _ _
    · exact unwind_sound h.1 h.2 h.3 hw.live hw.started hw.draining _ _

/-- A joined queue is empty, and the dispatcher is not in `emit`. -/
theorem Draining.joined (h : Draining w) (hu : w.unfinishedTasks = 0) :
    w.eventQueue = [] ∧ (w.eventTask = none ∨ w.eventTask = some .getting) := by
  unfold Draining at h
  split at h
  · rename_i he
    exact ⟨h.1, .inl he⟩
  · rename_i he
    have hlen : w.eventQueue.length = 0 := by omega
    exact ⟨List.eq_nil_of_length_eq_zero hlen, .inr he⟩
  · omega
  · exact h.elim

/-- `aclose` returns or raises. -/
theorem pipelineClosed_sound (h : Sound w) (hu : Unwinding w) (hd : Draining w)
    (hpipeline : w.pipeline.built = true → w.pipeline.closed = true)
    (terminalError : Option OrchestrationError) (reply : Option Raised) :
    Sound (w.pipelineClosed setup terminalError reply) := by
  cases reply with
  | none => exact settle_sound h.1 h.2 h.3 hu hpipeline hd _
  | some error =>
    have hfailed : ∀ (failures : List OrchestrationFailure) (terminal : Option OrchestrationError),
        Sound ({ w with shutdownFailures := failures }.settleEventTask setup terminal) :=
      fun failures terminal => settle_sound (w := { w with shutdownFailures := failures })
        h.1 h.2 h.3 ⟨hu.1, hu.2, hu.3, hu.4, hu.5⟩ hpipeline hd terminal
    exact hfailed _ _

/-- A step of the supervisor keeps the worker sound. -/
theorem stepSupervisor_sound {task : Supervisor} {act : WorkerAct Callback} (h : Sound w)
    (htask : w.supervisorTask = some task) (hstep : w.stepSupervisor setup task act = some w') :
    Sound w' := by
  have hphase := h.phase
  rw [htask] at hphase
  unfold Worker.stepSupervisor at hstep
  split at hstep
  · cases hstep
    exact captureBuilt_sound h hphase.1 _ _
  · cases hstep
    exact pipelineBuilt_sound h hphase _ _
  · split at hstep <;> cases hstep
    exact watched_sound h hphase _ _
  · split at hstep <;> cases hstep
    exact closePipeline_sound h.1 h.2 h.3 hphase.1 hphase.2 _
  · cases hstep
    exact pipelineClosed_sound h hphase.1 hphase.2.1 hphase.2.2 _ _
  · split at hstep <;> cases hstep
    rename_i hjoined
    obtain ⟨hu, hd, hpipeline⟩ := hphase
    exact ⟨h.1, h.2, h.3, ⟨hu.1, hu.2, hu.3, hu.4, hu.5⟩, hd, hpipeline, hjoined⟩
  · split at hstep <;> cases hstep
    obtain ⟨hu, hd, hpipeline, hjoined⟩ := hphase
    -- the queue is empty, so the stop entry is its only one
    obtain ⟨hempty, hidle⟩ := hd.joined hjoined
    refine ⟨h.1, h.2, h.3, ⟨hu.1, hu.2, hu.3, hu.4, hu.5⟩, hpipeline, .inr ⟨?_, hidle⟩⟩
    show w.eventQueue ++ [.stop] = [.stop]
    rw [hempty]
    rfl
  · split at hstep <;> cases hstep
    rename_i hdone
    obtain ⟨hu, hpipeline, hlast⟩ := hphase
    have hq : w.eventQueue = [] := by
      rcases hlast with ⟨-, hq⟩ | ⟨-, hwaiting⟩
      · exact hq
      · rcases hwaiting with hwaiting | hwaiting <;> rw [hdone] at hwaiting <;> cases hwaiting
    exact finish_sound h.1 h.2 h.3 hu hpipeline hq (.inr hdone) _
  · cases hstep

/-! ### The steps of the loops -/

/-- The stop event is clear and the capture loop exists: the supervisor is watching. -/
theorem Sound.watching (h : Sound w) (hc : w.captureTask ≠ none) (hs : w.stopEvent = false) :
    w.supervisorTask = some .watching ∧ (w.state = .running ∨ w.state = .reconnecting) := by
  have hphase := h.phase
  -- before the loops are started there is no capture task, and after they are gathered the stop
  -- is set
  cases htask : w.supervisorTask with
  | none =>
    rw [htask] at hphase
    exact absurd hphase.2.2.2.2.captureTask hc
  | some task =>
    rw [htask] at hphase
    cases task with
    | buildingCapture => exact absurd hphase.1.idle.captureTask hc
    | buildingPipeline => exact absurd hphase.idle.captureTask hc
    | watching =>
      rcases hphase.state with ⟨-, hstate⟩ | ⟨hstop, -⟩
      · exact ⟨rfl, hstate⟩
      · exact absurd hstop (by simp [hs])
    | gathering => exact absurd hphase.1.stop (by simp [hs])
    | closingPipeline => exact absurd hphase.1.stop (by simp [hs])
    | joiningQueue => exact absurd hphase.1.stop (by simp [hs])
    | puttingStop => exact absurd hphase.1.stop (by simp [hs])
    | awaitingEvents => exact absurd hphase.1.stop (by simp [hs])
    | ended => exact absurd hphase.2.stop (by simp [hs])

/-- A step that leaves the supervisor, the dispatcher and the resources alone: a step of the
capture or the analytics loop, of a caller, or of a callback whose event is not queued. -/
structure LoopStep (w w' : Worker Event) : Prop where
  loops : w.captureTask ≠ none ∨ w.analyticsTask ≠ none ∨
    w'.captureTask = w.captureTask ∧ w'.analyticsTask = w.analyticsTask
  stop : w'.stopEvent = w.stopEvent
  accepting : w'.acceptingEvents = w.acceptingEvents
  queue : w'.eventQueue = w.eventQueue
  unfinished : w'.unfinishedTasks = w.unfinishedTasks
  capture : w'.capture = w.capture
  pipeline : w'.pipeline = w.pipeline
  supervisor : w'.supervisorTask = w.supervisorTask
  started : w'.started = w.started
  eventTask : w'.eventTask = w.eventTask
  transitions : w'.rejectedTransitions = w.rejectedTransitions
  state : w'.state = w.state ∨ w.supervisorTask = some .watching ∧ w.stopEvent = false ∧
    (w'.state = .running ∨ w'.state = .reconnecting)

/-- `Draining` reads the dispatcher, the queue and the count. -/
theorem Draining.congr (h : Draining w) (he : w'.eventTask = w.eventTask)
    (hq : w'.eventQueue = w.eventQueue) (hu : w'.unfinishedTasks = w.unfinishedTasks) :
    Draining w' := by
  unfold Draining
  rw [he, hq, hu]
  exact h

/-- The `finally` part goes on under a step of a loop. -/
theorem LoopStep.unwinding (hl : LoopStep w w') (h : Unwinding w) : Unwinding w' := by
  have hstate : w'.state = w.state := by
    rcases hl.state with hs | ⟨-, hs, -⟩
    · exact hs
    · exact absurd h.stop (by simp [hs])
  refine ⟨hl.stop ▸ h.stop, hl.accepting ▸ h.accepting, hstate ▸ h.state,
    hl.started ▸ h.started, ?_⟩
  rw [hl.capture]
  exact h.capture

/-- Outside the watching phase the state is the same. -/
theorem LoopStep.same (hl : LoopStep w w') (h : w.supervisorTask ≠ some .watching) :
    w'.state = w.state := by
  rcases hl.state with hs | ⟨hs, -⟩
  · exact hs
  · exact absurd hs h

/-- A worker without loops stays one. -/
theorem LoopStep.idle (hl : LoopStep w w') (h : Idle w) : Idle w' := by
  rcases hl.loops with hc | ha | ⟨hc, ha⟩
  · exact absurd h.captureTask hc
  · exact absurd h.analyticsTask ha
  · exact ⟨hc.trans h.1, ha.trans h.2, hl.eventTask.trans h.3, hl.queue.trans h.4,
      hl.unfinished.trans h.5, hl.accepting.trans h.6⟩

/-- The building supervisor goes on under such a step. -/
theorem LoopStep.building (hl : LoopStep w w') (h : Building w)
    (hne : w.supervisorTask ≠ some .watching) : Building w' := by
  refine ⟨?_, hl.started.trans h.started, hl.idle h.idle, ?_⟩
  · rw [hl.stop, hl.same hne]
    exact h.state
  · rw [hl.pipeline]
    exact h.pipeline

/-- Such a step keeps the worker sound. -/
theorem LoopStep.sound (hl : LoopStep w w') (h : Sound w) : Sound w' := by
  -- a loop touches neither the queue nor the dispatcher, so both invariants carry over
  have hd : Draining w → Draining w' := fun hd => hd.congr hl.eventTask hl.queue hl.unfinished
  have hpipeline : (w.pipeline.built = true → w.pipeline.closed = true) →
      w'.pipeline.built = true → w'.pipeline.closed = true := by
    rw [hl.pipeline]
    exact id
  refine ⟨hl.transitions ▸ h.1, hl.capture ▸ h.2, hl.pipeline ▸ h.3, ?_⟩
  have hphase := h.phase
  rw [hl.supervisor]
  cases htask : w.supervisorTask with
  | none =>
    rw [htask] at hphase
    obtain ⟨hs, hstop, hc, hp, hi⟩ := hphase
    exact ⟨(hl.same (by simp [htask])).trans hs, hl.stop.trans hstop, hl.capture ▸ hc,
      hl.pipeline ▸ hp, hl.idle hi⟩
  | some task =>
    rw [htask] at hphase
    cases task with
    | buildingCapture =>
      exact ⟨hl.building hphase.1 (by simp [htask]), hl.capture ▸ hphase.2⟩
    | buildingPipeline => exact hl.building hphase (by simp [htask])
    -- only here may the loop change the state, between RUNNING and RECONNECTING
    | watching =>
      refine ⟨?_, hl.started ▸ hphase.started, hd hphase.draining,
        hl.eventTask ▸ hphase.dispatching⟩
      rw [hl.stop]
      rcases hl.state with hs | ⟨-, hclear, hs⟩
      · rw [hs]
        exact hphase.state
      · exact .inl ⟨hclear, hs⟩
    | gathering => exact ⟨hl.unwinding hphase.1, hd hphase.2⟩
    | closingPipeline => exact ⟨hl.unwinding hphase.1, hd hphase.2.1, hpipeline hphase.2.2⟩
    | joiningQueue => exact ⟨hl.unwinding hphase.1, hd hphase.2.1, hpipeline hphase.2.2⟩
    | puttingStop =>
      exact ⟨hl.unwinding hphase.1, hd hphase.2.1, hpipeline hphase.2.2.1,
        hl.unfinished ▸ hphase.2.2.2⟩
    | awaitingEvents =>
      refine ⟨hl.unwinding hphase.1, hpipeline hphase.2.1, ?_⟩
      rw [hl.eventTask, hl.queue]
      exact hphase.2.2
    -- a loop that is left over changes no state any more
    | ended =>
      obtain ⟨hraised, hset⟩ := hphase
      have hs := hl.same (by simp [htask])
      refine ⟨hraised, hs ▸ hset.state, hl.started ▸ hset.started, hl.stop ▸ hset.stop,
        hl.accepting ▸ hset.accepting, hl.queue ▸ hset.queue, hl.eventTask ▸ hset.eventTask, ?_,
        hpipeline hset.pipeline⟩
      rw [hl.capture]
      exact hset.capture

/-- A step of the capture loop without a transition. -/
theorem LoopStep.capture_only {task : Option CaptureLoop} {metrics : CameraMetrics}
    (hc : w.captureTask ≠ none) : LoopStep w { w with captureTask := task, metrics } :=
  ⟨.inl hc, rfl, rfl, rfl, rfl, rfl, rfl, rfl, rfl, rfl, rfl, .inl rfl⟩

/-- A step of the analytics loop. -/
theorem LoopStep.analytics_only {task : Option AnalyticsLoop} {metrics : CameraMetrics}
    (ha : w.analyticsTask ≠ none) : LoopStep w { w with analyticsTask := task, metrics } :=
  ⟨.inr (.inl ha), rfl, rfl, rfl, rfl, rfl, rfl, rfl, rfl, rfl, rfl, .inl rfl⟩

variable (setup) in
/-- A transition of the capture loop between `running` and `reconnecting` is accepted, since it
comes right after the check of the stop event. -/
theorem LoopStep.transition (h : Sound w) (hc : w.captureTask ≠ none) (hs : w.stopEvent = false)
    {state : WorkerState} (hstate : state = .running ∨ state = .reconnecting)
    (metrics : CameraMetrics) :
    { w with metrics }.transition setup state = ({ w with metrics, state }, none) ∧
      ∀ task, LoopStep w { w with metrics, state, captureTask := task } := by
  obtain ⟨hwatching, hnow⟩ := h.watching hc hs
  refine ⟨?_, fun task => ⟨.inl hc, rfl, rfl, rfl, rfl, rfl, rfl, rfl, rfl, rfl, rfl,
    .inr ⟨hwatching, hs, hstate⟩⟩⟩
  -- a transition to the same state does nothing
  by_cases hsame : state = w.state
  · have hback : { w with metrics }.transition setup state = ({ w with metrics }, none) :=
      transition_same hsame
    rw [hback, hsame]
  · refine transition_ok ?_
    show state ∈ validTransitions w.state
    -- the two other ones are in the table
    rcases hnow with hnow | hnow <;> rcases hstate with hstate | hstate <;>
      rw [hnow, hstate] <;> rw [hnow, hstate] at hsame
    · exact absurd rfl hsame
    · decide
    · decide
    · exact absurd rfl hsame

/-- What `read` leads to. -/
theorem captureRead_loop (h : Sound w) {reconnecting : Bool}
    (hc : w.captureTask = some (.reading reconnecting)) (reply : Except Raised ReadResult) :
    LoopStep w (w.captureRead setup reconnecting reply) := by
  have hc' : w.captureTask ≠ none := by simp [hc]
  unfold Worker.captureRead
  cases reply with
  -- a read that raises ends the loop
  | error error => exact .capture_only hc'
  | ok result =>
    dsimp only
    split
    · exact .capture_only hc'
    -- the loop looks at the stop event after every read
    · rename_i hclear
      have hs : w.stopEvent = false := Bool.eq_false_iff.mpr hclear
      cases result with
      | emptyFrame => exact .capture_only hc'
      -- a frame after a reconnect brings the worker back to RUNNING
      | frame =>
        dsimp only
        split
        · obtain ⟨ht, hl⟩ := LoopStep.transition setup h hc' hs (.inl rfl)
            { w.metrics with framesCaptured := w.metrics.framesCaptured + 1 }
          rw [ht]
          exact hl _
        · exact .capture_only hc'
      -- the first missing frame brings it to RECONNECTING
      | nothing =>
        dsimp only
        split
        · exact .capture_only hc'
        · obtain ⟨ht, hl⟩ := LoopStep.transition setup h hc' hs (.inr rfl)
            { w.metrics with
              captureFailures := w.metrics.captureFailures + 1
              reconnectCount := w.metrics.reconnectCount + 1 }
          rw [ht]
          exact hl _

/-- What `process_if_due` leads to. -/
theorem frameProcessed_loop (ha : w.analyticsTask ≠ none) (reply : Except Raised Bool) :
    LoopStep w (w.frameProcessed reply) := by
  unfold Worker.frameProcessed
  split
  · exact .analytics_only ha
  · exact .analytics_only ha
  · exact .analytics_only ha

/-! ### The dispatcher -/

/-- The dispatcher and the queue change, and nothing else that `Sound` reads does. -/
structure QueueStep (w w' : Worker Event) : Prop where
  state : w'.state = w.state
  stop : w'.stopEvent = w.stopEvent
  accepting : w'.acceptingEvents = w.acceptingEvents
  capture : w'.capture = w.capture
  pipeline : w'.pipeline = w.pipeline
  supervisor : w'.supervisorTask = w.supervisorTask
  started : w'.started = w.started
  transitions : w'.rejectedTransitions = w.rejectedTransitions

/-- Such a step keeps the `finally` part. -/
theorem QueueStep.unwinding (hq : QueueStep w w') (h : Unwinding w) : Unwinding w' := by
  refine ⟨hq.stop ▸ h.stop, hq.accepting ▸ h.accepting, hq.state ▸ h.state,
    hq.started ▸ h.started, ?_⟩
  rw [hq.capture]
  exact h.capture

/-- A step of the dispatcher keeps the worker sound, when it drains the queue and takes the stop
entry last. -/
theorem QueueStep.sound (hq : QueueStep w w') (h : Sound w)
    (hbusy : w.eventTask ≠ none ∧ w.eventTask ≠ some .done) (hnext : w'.eventTask ≠ none)
    (hdraining : Draining w → Draining w')
    (hunfinished : Draining w → w.unfinishedTasks = 0 → w'.unfinishedTasks = 0)
    (hlast : w.eventQueue = [.stop] → w.eventTask = some .getting →
      w'.eventTask = some .done ∧ w'.eventQueue = []) : Sound w' := by
  have hpipeline : (w.pipeline.built = true → w.pipeline.closed = true) →
      w'.pipeline.built = true → w'.pipeline.closed = true := by
    rw [hq.pipeline]
    exact id
  refine ⟨hq.transitions ▸ h.1, hq.capture ▸ h.2, hq.pipeline ▸ h.3, ?_⟩
  have hphase := h.phase
  rw [hq.supervisor]
  cases htask : w.supervisorTask with
  -- before the start there is no dispatcher
  | none =>
    rw [htask] at hphase
    exact absurd hphase.2.2.2.2.eventTask hbusy.1
  | some task =>
    rw [htask] at hphase
    cases task with
    | buildingCapture => exact absurd hphase.1.idle.eventTask hbusy.1
    | buildingPipeline => exact absurd hphase.idle.eventTask hbusy.1
    | watching =>
      refine ⟨?_, hq.started ▸ hphase.started, hdraining hphase.draining, hnext⟩
      rw [hq.stop, hq.state]
      exact hphase.state
    | gathering => exact ⟨hq.unwinding hphase.1, hdraining hphase.2⟩
    | closingPipeline =>
      exact ⟨hq.unwinding hphase.1, hdraining hphase.2.1, hpipeline hphase.2.2⟩
    | joiningQueue =>
      exact ⟨hq.unwinding hphase.1, hdraining hphase.2.1, hpipeline hphase.2.2⟩
    | puttingStop =>
      exact ⟨hq.unwinding hphase.1, hdraining hphase.2.1, hpipeline hphase.2.2.1,
        hunfinished hphase.2.1 hphase.2.2.2⟩
    -- the stop marker is the last item, and the dispatcher ends with it
    | awaitingEvents =>
      refine ⟨hq.unwinding hphase.1, hpipeline hphase.2.1, ?_⟩
      rcases hphase.2.2 with ⟨hdone, -⟩ | ⟨hstop, hnone | hgetting⟩
      · exact absurd hdone hbusy.2
      · exact absurd hnone hbusy.1
      · exact .inl (hlast hstop hgetting)
    -- after the end there is no dispatcher that could take an item
    | ended =>
      rcases hphase.2.eventTask with hnone | hdone
      · exact absurd hnone hbusy.1
      · exact absurd hdone hbusy.2

/-- The dispatcher takes an entry of the queue. -/
theorem eventTaken_sound (h : Sound w) (he : w.eventTask = some .getting) {item : QueueItem Event}
    {rest : List (QueueItem Event)} (hqueue : w.eventQueue = item :: rest) :
    Sound (w.eventTaken item rest) := by
  have hbusy : w.eventTask ≠ none ∧ w.eventTask ≠ some .done := by simp [he]
  -- while the queue drains it has no stop marker, and the unfinished tasks are its length
  have hd : Draining w → .stop ∉ w.eventQueue ∧ w.unfinishedTasks = w.eventQueue.length := by
    intro hd
    unfold Draining at hd
    rw [he] at hd
    exact hd
  cases item with
  -- the marker was put after the join, so it is the only item
  | stop =>
    have hnot : ¬ Draining w := fun hdrain =>
      (hd hdrain).1 (by rw [hqueue]; exact List.mem_cons_self)
    have hstep : QueueStep w (w.eventTaken .stop rest) := ⟨rfl, rfl, rfl, rfl, rfl, rfl, rfl, rfl⟩
    refine hstep.sound h hbusy (by simp [Worker.eventTaken]) (fun hdrain => absurd hdrain hnot)
      (fun hdrain => absurd hdrain hnot) fun hlast _ => ⟨rfl, ?_⟩
    rw [hqueue] at hlast
    exact (List.cons.inj hlast).2
  -- the item stays unfinished until it was emitted
  | event event =>
    have hstep : QueueStep w (w.eventTaken (.event event) rest) :=
      ⟨rfl, rfl, rfl, rfl, rfl, rfl, rfl, rfl⟩
    refine hstep.sound h hbusy (by simp [Worker.eventTaken]) (fun hdrain => ?_)
      (fun hdrain hzero => ?_) fun hlast _ => ?_
    · obtain ⟨hstop, hcount⟩ := hd hdrain
      rw [hqueue] at hstop hcount
      exact ⟨fun hmem => hstop (List.mem_cons_of_mem _ hmem), hcount⟩
    · have hcount := (hd hdrain).2
      rw [hqueue, List.length_cons] at hcount
      omega
    · rw [hqueue] at hlast
      cases hlast

/-- The sink returned, raised or timed out. -/
theorem eventEmitted_sound (h : Sound w) {event : Event} (he : w.eventTask = some (.emitting event))
    (reply : Option Raised) : Sound (w.eventEmitted setup reply) := by
  have hbusy : w.eventTask ≠ none ∧ w.eventTask ≠ some .done := by simp [he]
  have hd : Draining w → .stop ∉ w.eventQueue ∧ w.unfinishedTasks = w.eventQueue.length + 1 := by
    intro hd
    unfold Draining at hd
    rw [he] at hd
    exact hd
  -- whether the callback raised or not, the item is done and the dispatcher takes the next
  have hnext : ∀ w' : Worker Event, QueueStep w w' → w'.eventTask = some .getting →
      w'.eventQueue = w.eventQueue → w'.unfinishedTasks = w.unfinishedTasks - 1 → Sound w' := by
    intro w' hstep he' hq' hu'
    refine hstep.sound h hbusy (by simp [he']) (fun hdrain => ?_)
      (fun _ hzero => by omega) fun _ hgetting => ?_
    · obtain ⟨hstop, hcount⟩ := hd hdrain
      unfold Draining
      rw [he', hq', hu']
      exact ⟨hstop, by omega⟩
    · rw [he] at hgetting
      cases hgetting
  unfold Worker.eventEmitted
  cases reply with
  | none => exact hnext _ ⟨rfl, rfl, rfl, rfl, rfl, rfl, rfl, rfl⟩ rfl rfl rfl
  | some error => exact hnext _ ⟨rfl, rfl, rfl, rfl, rfl, rfl, rfl, rfl⟩ rfl rfl rfl

/-! ### Callbacks and callers -/

/-- The fields that `Sound` does not read. -/
theorem Sound.unread (h : Sound w) (metrics : CameraMetrics)
    (failure : Option OrchestrationFailure) (callers : List Caller) (callbacks invalid : Nat)
    (stopReturns : List StopReturn) :
    Sound { w with
      metrics, failure, callers, callbacks, invalidCallbacks := invalid, stopReturns } :=
  LoopStep.sound (w := w) ⟨.inr (.inr ⟨rfl, rfl⟩), rfl, rfl, rfl, rfl, rfl, rfl, rfl, rfl, rfl, rfl,
    .inl rfl⟩ h

/-- An event at the end of the queue is one more unfinished task. There is a dispatcher. -/
theorem Draining.put (h : Draining w) (he : w.eventTask ≠ none) (event : Event) :
    Draining { w with
      eventQueue := w.eventQueue ++ [.event event]
      unfinishedTasks := w.unfinishedTasks + 1 } := by
  -- an event is no stop marker
  have hstop : QueueItem.stop ∉ w.eventQueue →
      QueueItem.stop ∉ w.eventQueue ++ [QueueItem.event event] := fun hne hmem => by
    rcases List.mem_append.mp hmem with hmem | hmem
    · exact hne hmem
    · cases List.mem_singleton.mp hmem
  unfold Draining at h ⊢
  dsimp only
  cases htask : w.eventTask with
  | none => exact absurd htask he
  | some task =>
    rw [htask] at h
    cases task with
    | getting =>
      refine ⟨hstop h.1, ?_⟩
      rw [List.length_append, h.2]
      rfl
    | emitting =>
      refine ⟨hstop h.1, ?_⟩
      rw [List.length_append, h.2]
      rfl
    | done => exact h.elim

/-- A dropped event changes a counter. -/
theorem dropEvent_sound (h : Sound w) : Sound w.dropEvent := h.unread _ _ _ _ _ _

/-- A rejected callback changes counters and the failure. -/
theorem rejectEvent_sound (h : Sound w) (error : Raised) : Sound (w.rejectEvent error) := by
  cases error with
  | orchestration error => exact h.unread _ _ _ _ _ _
  | callbackExecution text => exact h.unread _ _ _ _ _ _
  | other text => exact h.unread _ _ _ _ _ _

/-- An event is accepted only while the supervisor watches the loops, and then the dispatcher
runs. -/
theorem putEvent_sound (h : Sound w) (haccepting : w.acceptingEvents = true)
    (hclear : w.stopEvent = false) (routed : Event) : Sound (w.putEvent setup routed) := by
  unfold Worker.putEvent
  -- a full queue drops the event
  split
  · exact dropEvent_sound h
  · refine ⟨h.1, h.2, h.3, ?_⟩
    have hphase := h.phase
    show PhaseFits _ w.supervisorTask
    cases htask : w.supervisorTask with
    | none =>
      rw [htask] at hphase
      exact absurd hphase.2.2.2.2.accepting (by simp [haccepting])
    | some task =>
      rw [htask] at hphase
      cases task with
      | buildingCapture => exact absurd hphase.1.idle.accepting (by simp [haccepting])
      | buildingPipeline => exact absurd hphase.idle.accepting (by simp [haccepting])
      -- events are accepted only while the loops run
      | watching =>
        refine ⟨hphase.state, hphase.started, ?_, hphase.dispatching⟩
        exact (hphase.draining.put hphase.dispatching routed).congr rfl rfl rfl
      | gathering => exact absurd hphase.1.stop (by simp [hclear])
      | closingPipeline => exact absurd hphase.1.stop (by simp [hclear])
      | joiningQueue => exact absurd hphase.1.stop (by simp [hclear])
      | puttingStop => exact absurd hphase.1.stop (by simp [hclear])
      | awaitingEvents => exact absurd hphase.1.stop (by simp [hclear])
      | ended => exact absurd hphase.2.stop (by simp [hclear])

/-- `_queue_event`. -/
theorem queueEvent_sound (h : Sound w) (event : Callback) : Sound (w.queueEvent setup event) := by
  have harrived : Sound { w with callbacks := w.callbacks + 1 } := h.unread _ _ _ _ _ _
  unfold Worker.queueEvent
  dsimp only
  split
  · exact dropEvent_sound harrived
  · rename_i hopen
    simp only [not_or, Bool.not_eq_false, Bool.not_eq_true] at hopen
    split
    · exact rejectEvent_sound harrived _
    · exact putEvent_sound harrived hopen.1 hopen.2 _

/-- `start`. Without a supervisor the state is `stopped`, so `starting` is accepted. -/
theorem start_sound (h : Sound w) : Sound (w.start setup) := by
  unfold Worker.start
  split
  · exact h.unread _ _ _ _ _ _
  · rename_i htask
    have hphase := h.phase
    rw [htask] at hphase
    obtain ⟨hs, hstop, hc, hp, hi⟩ := hphase
    have hvalid : WorkerState.starting ∈ validTransitions w.state := by
      rw [hs]
      decide
    have hstart : { w with started := some StartFuture.pending }.transition setup .starting = _ :=
      transition_ok hvalid
    rw [hstart]
    exact ⟨h.1, h.2, h.3, ⟨.inl ⟨hstop, rfl⟩, rfl, ⟨hi.1, hi.2, hi.3, hi.4, hi.5, hi.6⟩, hp⟩, hc⟩

/-- The state after the synchronous part of `stop`. -/
def stopState (task : Supervisor) (state : WorkerState) : WorkerState :=
  if task.live = true ∧ state ∈ [WorkerState.starting, .running, .reconnecting] then .stopping
  else state

/-- The worker after the synchronous part of `stop`. -/
def stopRequested (w : Worker Event) (task : Supervisor)
    (shutdownFailures : List OrchestrationFailure) (failure : Option OrchestrationFailure)
    (callers : List Caller) : Worker Event :=
  { w with
    state := stopState task w.state
    acceptingEvents := false
    stopEvent := true
    capture := w.capture.closeOnce
    shutdownFailures, failure, callers }

variable (setup) in
/-- What `stop` does once it has the lock. Its transition is accepted. -/
theorem stopLocked_eq {task : Supervisor} (htask : w.supervisorTask = some task) (i : Nat)
    (cancelledStart : Bool) (closed : Option Raised) :
    w.stopLocked setup i cancelledStart closed =
      ({ w with
        state := stopState task w.state
        acceptingEvents := false
        stopEvent := true }.closeCaptureOnce setup closed).setCaller i
        (.settling cancelledStart) := by
  -- from these three states STOPPING is a valid transition
  have htransition : (if task.live = true ∧ w.state ∈ [WorkerState.starting, .running,
      .reconnecting] then w.transition setup .stopping else (w, none)) =
      ({ w with state := stopState task w.state }, none) := by
    unfold stopState
    split
    · rename_i hlive
      refine transition_ok ?_
      rcases hlive with ⟨-, hstate⟩
      cases hs : w.state <;> rw [hs] at hstate <;> revert hstate <;> decide
    · rfl
  unfold Worker.stopLocked
  split
  · rename_i hnone
    rw [htask] at hnone
    cases hnone
  · rename_i task' htask'
    rw [htask] at htask'
    obtain rfl := Option.some.inj htask'
    rw [htransition]

variable (setup) in
/-- A caller of `stop` sets the stop event and waits for the supervisor that it found. -/
theorem stopLocked_cases {task : Supervisor} (htask : w.supervisorTask = some task) (i : Nat)
    (cancelledStart : Bool) (closed : Option Raised) :
    ∃ shutdownFailures failure, w.stopLocked setup i cancelledStart closed =
      stopRequested w task shutdownFailures failure
        (w.callers.set i (.settling cancelledStart)) := by
  obtain ⟨failures, failure, hclose⟩ := closeCaptureOnce_cases setup
    { w with state := stopState task w.state, acceptingEvents := false, stopEvent := true } closed
  refine ⟨failures, failure, ?_⟩
  rw [stopLocked_eq setup htask, hclose]
  rfl

/-- `stop` requests the end of the supervisor in every phase. -/
theorem stopRequested_sound {task : Supervisor} (h : Sound w) (htask : w.supervisorTask = some task)
    (failures : List OrchestrationFailure) (failure : Option OrchestrationFailure)
    (callers : List Caller) : Sound (stopRequested w task failures failure callers) := by
  have hphase := h.phase
  rw [htask] at hphase
  -- the stop closes the capture and sets the event, whatever the supervisor does
  have hu : Unwinding w → Unwinding (stopRequested w task failures failure callers) := by
    intro hu
    refine ⟨rfl, rfl, ?_, hu.started, closeOnce_closed w.capture⟩
    show stopState task w.state ≠ .stopped ∧ stopState task w.state ≠ .failed
    unfold stopState
    split
    · decide
    · exact hu.state
  -- a worker that is being built moves to STOPPING and stays unstarted
  have hb : Building w → task.live = true →
      Building (stopRequested w task failures failure callers) := by
    intro hb hlive
    refine ⟨.inr ⟨rfl, ?_⟩, hb.started, ⟨hb.idle.1, hb.idle.2, hb.idle.3, hb.idle.4, hb.idle.5,
      rfl⟩, hb.pipeline⟩
    show stopState task w.state = .stopping
    rcases hb.state with ⟨-, hs⟩ | ⟨-, hs⟩ <;> simp [stopState, hs, hlive]
  refine ⟨h.1, h.2.closeOnce, h.3, (congrArg (PhaseFits _) htask).mpr ?_⟩
  cases task with
  | buildingCapture =>
    refine ⟨hb hphase.1 rfl, ?_⟩
    show w.capture.closeOnce.built = false
    rw [closeOnce_built]
    exact hphase.2
  | buildingPipeline => exact hb hphase rfl
  | watching =>
    refine ⟨.inr ⟨rfl, ?_⟩, hphase.started, hphase.draining.congr rfl rfl rfl, hphase.dispatching⟩
    show stopState .watching w.state = .stopping
    rcases hphase.state with ⟨-, hs | hs⟩ | ⟨-, hs⟩ <;> simp [stopState, hs, Supervisor.live]
  | gathering => exact ⟨hu hphase.1, hphase.2.congr rfl rfl rfl⟩
  | closingPipeline => exact ⟨hu hphase.1, hphase.2.1.congr rfl rfl rfl, hphase.2.2⟩
  | joiningQueue => exact ⟨hu hphase.1, hphase.2.1.congr rfl rfl rfl, hphase.2.2⟩
  | puttingStop => exact ⟨hu hphase.1, hphase.2.1.congr rfl rfl rfl, hphase.2.2⟩
  | awaitingEvents => exact ⟨hu hphase.1, hphase.2⟩
  -- after the end only the flag is set again
  | ended =>
    obtain ⟨hraised, hset⟩ := hphase
    refine ⟨hraised, ?_, hset.started, rfl, rfl, hset.queue, hset.eventTask,
      closeOnce_closed w.capture, hset.pipeline⟩
    rename_i raised
    have hsame : stopState (.ended raised) w.state = w.state := if_neg (by simp [Supervisor.live])
    show stopState (.ended raised) w.state = .stopped ∨ stopState (.ended raised) w.state = .failed
    rw [hsame]
    exact hset.state

variable (setup) in
/-- Without a supervisor `stop` returns at once. -/
theorem stopLocked_none (htask : w.supervisorTask = none) (i : Nat) (cancelledStart : Bool)
    (closed : Option Raised) :
    w.stopLocked setup i cancelledStart closed = w.returnStop i cancelledStart false := by
  unfold Worker.stopLocked
  split
  · rfl
  · rename_i hsome
    rw [htask] at hsome
    cases hsome

/-- The body of `stop` keeps the worker sound. -/
theorem stopLocked_sound (h : Sound w) (i : Nat) (cancelledStart : Bool)
    (closed : Option Raised) : Sound (w.stopLocked setup i cancelledStart closed) := by
  cases htask : w.supervisorTask with
  | none =>
    rw [stopLocked_none setup htask]
    exact h.unread _ _ _ _ _ _
  | some task =>
    obtain ⟨failures, failure, heq⟩ := stopLocked_cases setup htask i cancelledStart closed
    rw [heq]
    exact stopRequested_sound h htask _ _ _

/-! ### The run -/

/-- A step of a loop keeps the worker sound. -/
theorem stepLoop_sound {act : WorkerAct Callback} (h : Sound w)
    (hstep : w.stepLoop setup act = some w') : Sound w' := by
  -- one case per act: three of the capture loop, three of the analytics loop, two of the
  -- dispatcher
  unfold Worker.stepLoop at hstep
  split at hstep
  · split at hstep <;> cases hstep
    rename_i hc
    exact (LoopStep.capture_only (by simp [hc])).sound h
  · split at hstep <;> cases hstep
    rename_i hc
    exact (captureRead_loop h hc _).sound h
  · split at hstep <;> cases hstep
    rename_i hc
    exact (LoopStep.capture_only (by simp [hc])).sound h
  · split at hstep <;> cases hstep
    rename_i ha
    exact (LoopStep.analytics_only (by simp [ha])).sound h
  · split at hstep <;> cases hstep
    rename_i ha
    have ha' : w.analyticsTask ≠ none := by simp [ha]
    split
    · exact (LoopStep.analytics_only ha').sound h
    · exact (LoopStep.analytics_only ha').sound h
  · split at hstep <;> cases hstep
    rename_i ha
    exact (frameProcessed_loop (by simp [ha]) _).sound h
  · split at hstep <;> cases hstep
    rename_i he hq
    exact eventTaken_sound h he hq
  · split at hstep <;> cases hstep
    rename_i he
    exact eventEmitted_sound h he _
  · cases hstep

/-- What a step does: a call of `start`, `stop` or `_queue_event`, a step of a caller, of the
supervisor or of a loop. -/
inductive WorkerCases (setup : WorkerSetup Callback Event) (w : Worker Event) :
    Worker Event → Prop where
  | start : WorkerCases setup w (w.start setup)
  | stop : WorkerCases setup w { w with callers := w.callers ++ [.locking false] }
  | locked (i : Nat) (cancelledStart : Bool) (closed : Option Raised) :
      WorkerCases setup w (w.stopLocked setup i cancelledStart closed)
  | caller (i : Nat) (caller : Caller) : WorkerCases setup w (w.setCaller i caller)
  | returned (i : Nat) (cancelledStart : Bool) : w.supervisorTask = some (.ended none) →
      WorkerCases setup w (w.returnStop i cancelledStart true)
  | callback (event : Callback) : WorkerCases setup w (w.queueEvent setup event)
  | supervisor {task : Supervisor} {act : WorkerAct Callback} {w' : Worker Event} :
      w.supervisorTask = some task → w.stepSupervisor setup task act = some w' →
      WorkerCases setup w w'
  | loop {act : WorkerAct Callback} {w' : Worker Event} : w.stepLoop setup act = some w' →
      WorkerCases setup w w'

/-- Inversion of a step. -/
theorem worker_cases {act : WorkerAct Callback} (hstep : w.step setup act = some w') :
    WorkerCases setup w w' := by
  -- the acts of the supervisor share one shape
  have hsupervisor : (w.supervisorTask.bind fun task => w.stepSupervisor setup task act) = some w' →
      WorkerCases setup w w' := fun h => by
    obtain ⟨task, htask, hstep⟩ := Option.bind_eq_some_iff.mp h
    exact .supervisor htask hstep
  -- in the order of the acts: start, stop, the callers, the callback, the supervisor and the
  -- loops
  unfold Worker.step at hstep
  split at hstep
  · cases hstep
    exact .start
  · cases hstep
    exact .stop
  · split at hstep
    · split at hstep <;> cases hstep
      exact .locked _ _ _
    · cases hstep
  · obtain ⟨caller, -, hresume⟩ := Option.bind_eq_some_iff.mp hstep
    unfold Worker.resumeCaller at hresume
    split at hresume
    · split at hresume <;> cases hresume <;> exact .caller _ _
    · split at hresume <;> cases hresume
      · exact .returned _ _ ‹_›
      · exact .caller _ _
    · cases hresume
  · obtain ⟨caller, -, hcancel⟩ := Option.bind_eq_some_iff.mp hstep
    unfold Worker.cancelCaller at hcancel
    split at hcancel <;> cases hcancel <;> exact .caller _ _
  · cases hstep
    exact .callback _
  all_goals first
    | exact .loop hstep
    | exact hsupervisor hstep

/-- Every step keeps the worker sound. -/
theorem sound_step (h : Sound w) (hstep : WorkerCases setup w w') : Sound w' := by
  cases hstep with
  | start => exact start_sound h
  | stop => exact h.unread _ _ _ _ _ _
  | locked i cancelledStart closed => exact stopLocked_sound h _ _ _
  | caller i caller => exact h.unread _ _ _ _ _ _
  | returned i cancelledStart htask => exact h.unread _ _ _ _ _ _
  | callback event => exact queueEvent_sound h _
  | supervisor htask hstep => exact stepSupervisor_sound h htask hstep
  | loop hstep => exact stepLoop_sound h hstep

/-- Every reachable worker is sound. -/
theorem sound_reachable (h : Reachable (workerMachine setup) Any w) : Sound w := by
  refine h.invariant (I := Sound) ?_ fun _ _ _ _ _ hstep hs => sound_step hs (worker_cases hstep)
  exact ⟨rfl, ⟨rfl, fun h => absurd h Bool.false_ne_true⟩,
    ⟨rfl, fun h => absurd h Bool.false_ne_true⟩, rfl, rfl, rfl, rfl, ⟨rfl, rfl, rfl, rfl, rfl, rfl⟩⟩

/-- A resource is closed at most once, and only after it was built. -/
theorem Resource.Once.closes_le {r : Resource} (h : Resource.Once r) :
    r.closes ≤ if r.built then 1 else 0 := by
  rw [h.closes]
  cases hc : r.closed with
  | false => exact Nat.zero_le _
  | true => simp [h.built hc]

/-- What is closed when it is built is closed exactly once. -/
theorem Resource.Once.closes_eq {r : Resource} (h : Resource.Once r)
    (hclosed : r.built = true → r.closed = true) : r.closes = if r.built then 1 else 0 := by
  rw [h.closes]
  cases hc : r.closed with
  | true => rw [h.built hc]
  | false =>
    have hb : r.built = false := by
      cases hb : r.built with
      | false => rfl
      | true => rw [hclosed hb] at hc; cases hc
    rw [hb]

/-- No transition is ever rejected, and a resource is closed at most once and only after it was
built. When the supervisor has ended, the state is terminal, the start future is resolved, the
queue is empty, and what was built was closed exactly once. -/
theorem settles_cleanly (h : Reachable (workerMachine setup) Any w) :
    w.rejectedTransitions = [] ∧
    (w.capture.closes ≤ if w.capture.built then 1 else 0) ∧
    (w.pipeline.closes ≤ if w.pipeline.built then 1 else 0) ∧
    ∀ raised, w.supervisorTask = some (.ended raised) →
      raised = none ∧ (w.state = .stopped ∨ w.state = .failed) ∧
      (w.started = some .resolved ∨ ∃ error, w.started = some (.rejected error)) ∧
      w.eventQueue = [] ∧
      (w.capture.closes = if w.capture.built then 1 else 0) ∧
      (w.pipeline.closes = if w.pipeline.built then 1 else 0) := by
  have hsound := sound_reachable h
  refine ⟨hsound.transitions, hsound.capture.closes_le, hsound.pipeline.closes_le,
    fun raised hended => ?_⟩
  have hphase := hsound.phase
  rw [hended] at hphase
  -- the phase of an ended supervisor has all of it
  obtain ⟨hraised, hset⟩ := hphase
  refine ⟨hraised, hset.state, ?_, hset.queue, hsound.capture.closes_eq hset.capture,
    hsound.pipeline.closes_eq hset.pipeline⟩
  have hdone := hset.started
  cases hs : w.started with
  | none => rw [hs] at hdone; exact hdone.elim
  | some future =>
    rw [hs] at hdone
    cases future with
    | pending => exact hdone.elim
    | resolved => exact .inl rfl
    | rejected error => exact .inr ⟨error, rfl⟩

/-- A setup whose callbacks are the events, and negative numbers are invalid. -/
def plainSetup : WorkerSetup Int Nat where
  eventQueueSize := ⟨2, by decide⟩
  fromCallback := fun n => if n < 0 then .error (.other "invalid") else .ok n.toNat
  sanitizeError := id

/-- A camera is started, loses its source, finds it again and is stopped while an event is in the
sink. The first caller of `stop` is cancelled. -/
def stoppedRun : List (WorkerAct Int) :=
  [.start, .captureBuilt (.ok ()) none, .pipelineBuilt (.ok ()) none, .resume 0, .captureBegins,
    .analyticsBegins, .captureRead (.ok .nothing), .capturePaused, .captureRead (.ok .frame),
    .frameWaited true, .callback 7, .callback (-1), .callback 8, .eventTaken, .stop, .lock 1 none,
    .callback 9, .cancel 1, .stop, .lock 2 none, .frameProcessed (.ok true),
    .captureRead (.error (.other "closed")), .watched true none, .gathered,
    .pipelineClosed none, .eventEmitted none, .eventTaken, .eventEmitted (some (.other "timeout")),
    .queueJoined, .stopPut, .eventTaken, .eventsEnded, .resume 2]

/-- A worker that is stopped after it ran. -/
theorem settles_cleanly_stopped :
    let w := (workerMachine plainSetup).final .new stoppedRun
    w.supervisorTask = some (.ended none) ∧
    w.rejectedTransitions = [] ∧
    (w.capture.closes ≤ if w.capture.built then 1 else 0) ∧
    (w.pipeline.closes ≤ if w.pipeline.built then 1 else 0) ∧
    ∀ raised, w.supervisorTask = some (.ended raised) →
      raised = none ∧ (w.state = .stopped ∨ w.state = .failed) ∧
      (w.started = some .resolved ∨ ∃ error, w.started = some (.rejected error)) ∧
      w.eventQueue = [] ∧
      (w.capture.closes = if w.capture.built then 1 else 0) ∧
      (w.pipeline.closes = if w.pipeline.built then 1 else 0) :=
  ⟨by decide, settles_cleanly (.final .init stoppedRun (by decide))⟩

end Rsap.Proofs
