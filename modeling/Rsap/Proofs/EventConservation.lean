import Rsap.Library.Mailbox
import Rsap.Proofs.WorkerLifecycle

/-!
# `Rsap.Proofs.EventConservation`: the events of a worker are accounted for

The event queue and the dispatcher of a worker are a `Mailbox` (`mailbox`): the callbacks are its
arrivals, the sink is its consumer, and the stop entry is a control entry. `mailbox_step` shows
that each step of a worker is a step of the mailbox. So the mailbox is conserved in every
reachable worker, and in a terminal state, where the queue is empty and the dispatcher idle, the
sink had the accepted events in their order.

A `stop` that found a supervisor returns after the supervisor ended. From there on nothing is
passed to the sink (`StopsFit`). A `stop` before `start` returns at once, and the worker can
still be started (`stop_before_start`).
-/

set_option autoImplicit false

namespace Rsap.Proofs

open Rsap.Library
open Rsap.Library.Machine (Reachable Any)
open Rsap.Orchestration

variable {Callback Event : Type} {setup : WorkerSetup Callback Event} {w w' : Worker Event}

/-! ### The mailbox of a worker -/

/-- The stop entry is a control entry. -/
def QueueItem.entry : QueueItem Event → Option Event
  | .event event => some event
  | .stop => none

/-- The dispatcher is in `emit`. -/
def Dispatcher.busy : Option (Dispatcher Event) → Bool
  | some (.emitting _) => true
  | _ => false

/-- The event queue, the dispatcher and their counters. -/
def mailbox (w : Worker Event) : Mailbox Event where
  queue := w.eventQueue.map QueueItem.entry
  busy := Dispatcher.busy w.eventTask
  accepted := w.accepted
  handed := w.emitted
  arrivals := w.callbacks
  dropped := w.metrics.eventsDropped
  rejected := w.invalidCallbacks
  succeeded := w.metrics.eventsEmitted
  failed := w.metrics.eventSinkFailures

/-- The mailbox and the calls of `stop` that returned. -/
def ledger (w : Worker Event) : Mailbox Event × List StopReturn := (mailbox w, w.stopReturns)

/-! ### What leaves the ledger alone -/

variable (setup) in
/-- A transition touches neither the queue nor the callers of `stop`. -/
@[simp] theorem transition_ledger (w : Worker Event) (state : WorkerState) :
    ledger (w.transition setup state).1 = ledger w := by
  unfold Worker.transition
  split
  · rfl
  · split <;> rfl

/-- Nor does the head of the capture loop. -/
@[simp] theorem captureHead_ledger (w : Worker Event) (reconnecting : Bool) :
    ledger (w.captureHead reconnecting) = ledger w := rfl

/-- The supervisor's end leaves the ledger alone. -/
theorem finish_ledger (hu : Unwinding w) (terminalError : Option OrchestrationError) :
    ledger (w.finish setup terminalError) = ledger w := by
  obtain ⟨_, _, _, _, -, -, heq⟩ := finish_cases setup hu.state hu.started terminalError
  rw [heq]
  rfl

/-- While the queue drains the dispatcher is not done, so `_settle_event_task` discards nothing. -/
theorem settle_ledger (hu : Unwinding w) (hd : Draining w)
    (terminalError : Option OrchestrationError) :
    ledger (w.settleEventTask setup terminalError) = ledger w := by
  unfold Worker.settleEventTask
  split
  · exact finish_ledger hu terminalError
  · rename_i he
    unfold Draining at hd
    rw [he] at hd
    exact hd.elim
  · rfl

/-- The wait for the pipeline leaves the ledger alone. -/
theorem closePipeline_ledger (hu : Unwinding w) (hd : Draining w)
    (terminalError : Option OrchestrationError) :
    ledger (w.closePipelineOnce setup terminalError) = ledger w := by
  unfold Worker.closePipelineOnce
  split
  · exact settle_ledger hu hd terminalError
  · rfl

/-- The cleanup begins with the queue as it is: nothing is discarded while it drains. -/
theorem unwind_ledger (hstate : w.state ≠ .stopped ∧ w.state ≠ .failed) (hs : w.started ≠ none)
    (hd : Draining w) (terminalError : Option OrchestrationError) (closed : Option Raised) :
    ledger (w.unwind setup terminalError closed) = ledger w := by
  obtain ⟨failures, failure, heq⟩ := closeCaptureOnce_cases setup
    { w with acceptingEvents := false, stopEvent := true } closed
  unfold Worker.unwind
  rw [heq]
  dsimp only
  split
  · exact closePipeline_ledger (w := { w with
      acceptingEvents := false, stopEvent := true, capture := w.capture.closeOnce,
      shutdownFailures := failures, failure })
      ⟨rfl, rfl, hstate, hs, closeOnce_closed w.capture⟩ hd terminalError
  · rfl

/-- Building the capture leaves the ledger alone, also when it fails. -/
theorem captureBuilt_ledger (hb : Building w) (reply : Except Raised Unit)
    (closed : Option Raised) : ledger (w.captureBuilt setup reply closed) = ledger w := by
  have hs : w.started ≠ none := by simp [hb.started]
  unfold Worker.captureBuilt
  cases reply with
  | error error => exact unwind_ledger hb.live hs hb.idle.draining _ _
  | ok =>
    dsimp only
    split
    · exact unwind_ledger (w := { w with capture := { w.capture with built := true } })
        hb.live hs hb.idle.draining _ _
    · rfl

/-- The dispatcher is created idle. -/
theorem pipelineBuilt_ledger (hb : Building w) (reply : Except Raised Unit)
    (closed : Option Raised) : ledger (w.pipelineBuilt setup reply closed) = ledger w := by
  have hs : w.started ≠ none := by simp [hb.started]
  cases reply with
  | error error => exact unwind_ledger hb.live hs hb.idle.draining _ _
  | ok =>
    cases hclear : w.stopEvent with
    | true =>
      simp only [Worker.pipelineBuilt, hclear, if_true]
      exact unwind_ledger (w := { w with pipeline := { w.pipeline with built := true } })
        hb.live hs hb.idle.draining _ _
    | false =>
      rw [pipelineBuilt_running hb hclear]
      simp only [ledger, mailbox, hb.idle.eventTask, Dispatcher.busy]

/-- The watch over the two loops leaves the ledger alone. -/
theorem watched_ledger (hw : Watching w) (captureFirst : Bool) (closed : Option Raised) :
    ledger (w.watched setup captureFirst closed) = ledger w := by
  unfold Worker.watched
  dsimp only
  split
  · exact unwind_ledger hw.live hw.started hw.draining _ _
  · split
    · exact unwind_ledger hw.live hw.started hw.draining _ _
    · exact unwind_ledger hw.live hw.started hw.draining _ _

/-- What follows a transition decides what happens to the ledger. -/
theorem afterTransition_ledger {result : Worker Event × Option OrchestrationError}
    {next : Worker Event → Worker Event} (hnext : ∀ w, ledger (next w) = ledger w) :
    ledger (Worker.afterTransition result next) = ledger result.1 := by
  obtain ⟨w, raised⟩ := result
  cases raised with
  | none => exact hnext w
  | some raised => rfl

variable (setup) in
/-- A read of the capture loop leaves the ledger alone. -/
theorem captureRead_ledger (w : Worker Event) (reconnecting : Bool)
    (reply : Except Raised ReadResult) :
    ledger (w.captureRead setup reconnecting reply) = ledger w := by
  unfold Worker.captureRead
  -- no branch of the capture loop touches the queue or the counters of events
  cases reply with
  | error error => rfl
  | ok result =>
    dsimp only
    split
    · rfl
    · cases result with
      | emptyFrame => rfl
      | frame =>
        dsimp only
        split
        · rw [afterTransition_ledger fun w => captureHead_ledger w false, transition_ledger]
          rfl
        · rfl
      | nothing =>
        dsimp only
        split
        · rfl
        · have hnext : ∀ w : Worker Event,
              ledger { w with captureTask := some CaptureLoop.pausing } = ledger w := fun _ => rfl
          rw [afterTransition_ledger hnext, transition_ledger]
          rfl

/-- The end of the pipeline leaves the ledger alone, also when closing it raised. -/
theorem pipelineClosed_ledger (hu : Unwinding w) (hd : Draining w)
    (terminalError : Option OrchestrationError) (reply : Option Raised) :
    ledger (w.pipelineClosed setup terminalError reply) = ledger w := by
  cases reply with
  | none => exact settle_ledger hu hd _
  | some error =>
    have hfailed : ∀ (failures : List OrchestrationFailure) (terminal : Option OrchestrationError),
        ledger ({ w with shutdownFailures := failures }.settleEventTask setup terminal) =
          ledger w := fun failures terminal =>
      settle_ledger (w := { w with shutdownFailures := failures })
        ⟨hu.1, hu.2, hu.3, hu.4, hu.5⟩ hd terminal
    exact hfailed _ _

/-! ### Each step is a step of the mailbox -/

/-- A step of the supervisor puts at most the stop entry into the queue. -/
theorem stepSupervisor_mailbox {task : Supervisor} {act : WorkerAct Callback} (h : Sound w)
    (htask : w.supervisorTask = some task) (hstep : w.stepSupervisor setup task act = some w') :
    Mailbox.Step setup.eventQueueSize.val (mailbox w) (mailbox w') ∧
      w'.stopReturns = w.stopReturns := by
  -- all acts but one leave the ledger as it was
  have hsame : ledger w' = ledger w →
      Mailbox.Step setup.eventQueueSize.val (mailbox w) (mailbox w') ∧
        w'.stopReturns = w.stopReturns := fun heq => by
    obtain ⟨hmailbox, hstops⟩ := Prod.mk.inj heq
    exact ⟨hmailbox ▸ .same, hstops⟩
  have hphase := h.phase
  rw [htask] at hphase
  unfold Worker.stepSupervisor at hstep
  split at hstep
  · cases hstep
    exact hsame (captureBuilt_ledger hphase.1 _ _)
  · cases hstep
    exact hsame (pipelineBuilt_ledger hphase _ _)
  · split at hstep <;> cases hstep
    exact hsame (watched_ledger hphase _ _)
  · split at hstep <;> cases hstep
    exact hsame (closePipeline_ledger hphase.1 hphase.2 _)
  · cases hstep
    exact hsame (pipelineClosed_ledger hphase.1 hphase.2.1 _ _)
  · split at hstep <;> cases hstep
    exact ⟨.same, rfl⟩
  · split at hstep <;> cases hstep
    rename_i hroom
    -- the supervisor puts the stop marker into the queue
    have hlen : (mailbox w).queue.length < setup.eventQueueSize.val := by
      show (w.eventQueue.map QueueItem.entry).length < setup.eventQueueSize.val
      rw [List.length_map]
      exact hroom
    have heq : mailbox { w with
        eventQueue := w.eventQueue ++ [.stop]
        unfinishedTasks := w.unfinishedTasks + 1
        supervisorTask := some (.awaitingEvents ‹_›) } =
        { mailbox w with queue := (mailbox w).queue ++ [none] } := by
      simp only [mailbox, List.map_append]
      rfl
    rw [heq]
    exact ⟨.control hlen, rfl⟩
  · split at hstep <;> cases hstep
    exact hsame (finish_ledger hphase.1 _)
  · cases hstep

/-- A callback is dropped, rejected or accepted. -/
theorem queueEvent_mailbox (w : Worker Event) (event : Callback) :
    Mailbox.Step setup.eventQueueSize.val (mailbox w) (mailbox (w.queueEvent setup event)) := by
  unfold Worker.queueEvent
  dsimp only
  split
  · exact .drop
  · split
    · rename_i error _
      -- an event whose routing raises is counted as rejected
      cases error with
      | orchestration error => exact .reject
      | callbackExecution text => exact .reject
      | other text => exact .reject
    · rename_i routed _
      unfold Worker.putEvent
      split
      · exact .drop
      · rename_i hfull
        -- the queue has room, so the event is accepted
        have hroom : (mailbox w).queue.length < setup.eventQueueSize.val := by
          show (w.eventQueue.map QueueItem.entry).length < setup.eventQueueSize.val
          rw [List.length_map]
          exact Nat.lt_of_not_le hfull
        have heq : mailbox { w with
            callbacks := w.callbacks + 1
            eventQueue := w.eventQueue ++ [.event routed]
            unfinishedTasks := w.unfinishedTasks + 1
            accepted := w.accepted ++ [routed] } =
            { mailbox w with
              arrivals := (mailbox w).arrivals + 1
              queue := (mailbox w).queue ++ [some routed]
              accepted := (mailbox w).accepted ++ [routed] } := by
          simp only [mailbox, List.map_append]
          rfl
        rw [heq]
        exact .accept routed hroom

/-- The dispatcher takes the head of the queue. -/
theorem eventTaken_mailbox (he : w.eventTask = some .getting) {item : QueueItem Event}
    {rest : List (QueueItem Event)} (hqueue : w.eventQueue = item :: rest) (capacity : Nat) :
    Mailbox.Step capacity (mailbox w) (mailbox (w.eventTaken item rest)) := by
  have hidle : (mailbox w).busy = false := by
    show Dispatcher.busy w.eventTask = false
    rw [he]
    rfl
  have hhead : (mailbox w).queue = QueueItem.entry item :: rest.map QueueItem.entry := by
    show w.eventQueue.map QueueItem.entry = _
    rw [hqueue]
    rfl
  cases item with
  | stop =>
    have heq : mailbox (w.eventTaken .stop rest) =
        { mailbox w with queue := rest.map QueueItem.entry } := by
      simp only [mailbox, Worker.eventTaken, he]
      rfl
    rw [heq]
    exact .takeControl _ hidle hhead
  | event event => exact .take event _ hidle hhead

/-- The sink is done with an event. -/
theorem eventEmitted_mailbox {event : Event} (he : w.eventTask = some (.emitting event))
    (reply : Option Raised) (capacity : Nat) :
    Mailbox.Step capacity (mailbox w) (mailbox (w.eventEmitted setup reply)) := by
  have hbusy : (mailbox w).busy = true := by
    show Dispatcher.busy w.eventTask = true
    rw [he]
    rfl
  cases reply with
  | none => exact .succeed hbusy
  | some error => exact .fail hbusy

/-- An event that is queued or dropped lets no caller of `stop` return. -/
theorem queueEvent_stops (w : Worker Event) (event : Callback) :
    (w.queueEvent setup event).stopReturns = w.stopReturns := by
  unfold Worker.queueEvent
  dsimp only
  split
  · rfl
  · split
    · rename_i error _
      cases error <;> rfl
    · unfold Worker.putEvent
      split <;> rfl

/-- Nor does the dispatcher when it takes an entry. -/
theorem eventTaken_stops (w : Worker Event) (item : QueueItem Event)
    (rest : List (QueueItem Event)) : (w.eventTaken item rest).stopReturns = w.stopReturns := by
  cases item <;> rfl

/-- Nor does the sink when it returns. -/
theorem eventEmitted_stops (w : Worker Event) (reply : Option Raised) :
    (w.eventEmitted setup reply).stopReturns = w.stopReturns := by
  cases reply <;> rfl

/-- A step of a loop is a step of the mailbox. -/
theorem stepLoop_mailbox {act : WorkerAct Callback} (hstep : w.stepLoop setup act = some w')
    (capacity : Nat) :
    Mailbox.Step capacity (mailbox w) (mailbox w') ∧ w'.stopReturns = w.stopReturns := by
  unfold Worker.stepLoop at hstep
  split at hstep
  · split at hstep <;> cases hstep
    exact ⟨.same, rfl⟩
  · split at hstep <;> cases hstep
    obtain ⟨hmailbox, hstops⟩ := Prod.mk.inj (captureRead_ledger setup w _ _)
    exact ⟨hmailbox ▸ .same, hstops⟩
  · split at hstep <;> cases hstep
    exact ⟨.same, rfl⟩
  · split at hstep <;> cases hstep
    exact ⟨.same, rfl⟩
  · split at hstep <;> cases hstep
    split
    · exact ⟨.same, rfl⟩
    · exact ⟨.same, rfl⟩
  · split at hstep <;> cases hstep
    unfold Worker.frameProcessed
    split <;> exact ⟨.same, rfl⟩
  · split at hstep <;> cases hstep
    rename_i he hq
    -- the dispatcher takes the first item
    exact ⟨eventTaken_mailbox he hq capacity, eventTaken_stops w _ _⟩
  · split at hstep <;> cases hstep
    rename_i he
    -- and hands it over
    exact ⟨eventEmitted_mailbox he _ capacity, eventEmitted_stops w _⟩
  · cases hstep

/-- `start` creates the supervisor, and nothing is queued yet. -/
theorem start_ledger (w : Worker Event) : ledger (w.start setup) = ledger w := by
  unfold Worker.start
  split
  · rfl
  · split
    · rename_i hstart
      have hsame := transition_ledger setup { w with started := some .pending } .starting
      rw [hstart] at hsame
      exact hsame
    · rename_i hstart
      have hsame := transition_ledger setup { w with started := some .pending } .starting
      rw [hstart] at hsame
      exact hsame

/-- The supervisor has ended. -/
def Ended (w : Worker Event) : Prop := ∃ raised, w.supervisorTask = some (.ended raised)

/-- What a step of a caller that returns from `stop` adds. -/
def StopReturned (w w' : Worker Event) : Prop :=
  ∃ found, w'.stopReturns = w.stopReturns ++ [⟨found, w.emitted.length⟩] ∧
    (found = true → Ended w) ∧ w'.supervisorTask = w.supervisorTask ∧ w'.emitted = w.emitted

/-- Each step of a worker is a step of its mailbox, and a `stop` that found a supervisor returns
after its end. -/
theorem step_ledger (h : Sound w) (hstep : WorkerCases setup w w') :
    Mailbox.Step setup.eventQueueSize.val (mailbox w) (mailbox w') ∧
      (w'.stopReturns = w.stopReturns ∨ StopReturned w w') := by
  -- an act that leaves the ledger alone is no step of the mailbox
  have hsame : ∀ w', ledger w' = ledger w →
      Mailbox.Step setup.eventQueueSize.val (mailbox w) (mailbox w') ∧
        (w'.stopReturns = w.stopReturns ∨ StopReturned w w') := fun w' heq => by
    obtain ⟨hmailbox, hstops⟩ := Prod.mk.inj heq
    exact ⟨hmailbox ▸ .same, .inl hstops⟩
  cases hstep with
  | start => exact hsame _ (start_ledger w)
  | stop => exact hsame _ rfl
  | locked i cancelledStart closed =>
    cases htask : w.supervisorTask with
    | none =>
      rw [stopLocked_none setup htask]
      exact ⟨.same, .inr ⟨false, rfl, fun hfound => absurd hfound Bool.false_ne_true, rfl, rfl⟩⟩
    | some task =>
      obtain ⟨_, _, heq⟩ := stopLocked_cases setup htask i cancelledStart closed
      rw [heq]
      exact hsame _ rfl
  | caller i caller => exact hsame _ rfl
  -- a stop returns, and what was emitted so far is noted
  | returned i cancelledStart htask =>
    exact ⟨.same, .inr ⟨true, rfl, fun _ => ⟨none, htask⟩, rfl, rfl⟩⟩
  | callback event => exact ⟨queueEvent_mailbox w _, .inl (queueEvent_stops w _)⟩
  | supervisor htask hstep =>
    obtain ⟨hmailbox, hstops⟩ := stepSupervisor_mailbox h htask hstep
    exact ⟨hmailbox, .inl hstops⟩
  | loop hstep =>
    obtain ⟨hmailbox, hstops⟩ := stepLoop_mailbox hstep setup.eventQueueSize.val
    exact ⟨hmailbox, .inl hstops⟩

/-- The mailbox of a reachable worker is conserved. -/
theorem conserved_reachable (h : Reachable (workerMachine setup) Any w) :
    Mailbox.Conserved setup.eventQueueSize.val (mailbox w) := by
  refine h.invariant (I := fun w => Mailbox.Conserved setup.eventQueueSize.val (mailbox w))
    Mailbox.conserved_empty fun s _ _ hs _ hstep hc => ?_
  exact hc.step (step_ledger (sound_reachable hs) (worker_cases hstep)).1

/-! ### After `stop` -/

/-- A `stop` that found a supervisor returned after its end, and the sink has had no event since. -/
def StopsFit (w : Worker Event) : Prop :=
  ∀ r ∈ w.stopReturns, r.found = true → Ended w ∧ r.emitted = w.emitted.length

/-- A step of a loop leaves the supervisor alone. -/
theorem stepLoop_supervisor {act : WorkerAct Callback} (h : Sound w)
    (hstep : w.stepLoop setup act = some w') : w'.supervisorTask = w.supervisorTask := by
  -- the loops write their own tasks only
  unfold Worker.stepLoop at hstep
  split at hstep
  · split at hstep <;> cases hstep
    rfl
  · split at hstep <;> cases hstep
    rename_i hc
    exact (captureRead_loop h hc _).supervisor
  · split at hstep <;> cases hstep
    rfl
  · split at hstep <;> cases hstep
    rfl
  · split at hstep <;> cases hstep
    split <;> rfl
  · split at hstep <;> cases hstep
    unfold Worker.frameProcessed
    split <;> rfl
  · split at hstep <;> cases hstep
    rename_i item rest _ _
    cases item <;> rfl
  · split at hstep <;> cases hstep
    rename_i reply _ _ _
    cases reply <;> rfl
  · cases hstep

/-- A callback does not touch the supervisor. -/
theorem queueEvent_supervisor (w : Worker Event) (event : Callback) :
    (w.queueEvent setup event).supervisorTask = w.supervisorTask := by
  unfold Worker.queueEvent
  dsimp only
  split
  · rfl
  · split
    · rename_i error _
      cases error <;> rfl
    · unfold Worker.putEvent
      split <;> rfl

/-- An ended supervisor does not run again. -/
theorem Ended.supervisor (he : Ended w) (h : Sound w) (hstep : WorkerCases setup w w') :
    w'.supervisorTask = w.supervisorTask := by
  -- after its end the supervisor task is never replaced
  obtain ⟨raised, htask⟩ := he
  cases hstep with
  | start =>
    unfold Worker.start
    split
    · rfl
    · rename_i hnone
      rw [htask] at hnone
      cases hnone
  | stop => rfl
  | locked i cancelledStart closed =>
    obtain ⟨_, _, heq⟩ := stopLocked_cases setup htask i cancelledStart closed
    rw [heq]
    rfl
  | caller i caller => rfl
  | returned i cancelledStart _ => rfl
  | callback event => exact queueEvent_supervisor w event
  | supervisor htask' hstep =>
    rw [htask] at htask'
    cases htask'
    cases hstep
  | loop hstep => exact stepLoop_supervisor h hstep

/-- After the supervisor nothing is passed to the sink: the queue is empty. -/
theorem Ended.emitted (he : Ended w) (h : Sound w) (hstep : WorkerCases setup w w') :
    w'.emitted = w.emitted := by
  obtain ⟨raised, htask⟩ := he
  have hphase := h.phase
  rw [htask] at hphase
  have hq : (mailbox w).queue = [] := by
    show w.eventQueue.map QueueItem.entry = []
    rw [hphase.2.queue]
    rfl
  exact (step_ledger h hstep).1.handed_eq hq

/-- Every step keeps what is known of the calls of `stop` that returned. -/
theorem StopsFit.step (hf : StopsFit w) (h : Sound w) (hstep : WorkerCases setup w w') :
    StopsFit w' := by
  -- the ended supervisor emits nothing more, so the noted lengths stay right
  have hold : ∀ r ∈ w.stopReturns, r.found = true → Ended w' ∧ r.emitted = w'.emitted.length := by
    intro r hr hfound
    obtain ⟨hended, hemitted⟩ := hf r hr hfound
    refine ⟨?_, ?_⟩
    · unfold Ended
      rw [hended.supervisor h hstep]
      exact hended
    · rw [hended.emitted h hstep]
      exact hemitted
  intro r hr hfound
  rcases (step_ledger h hstep).2 with hsame | ⟨found, happend, hended, htask, hemitted⟩
  · rw [hsame] at hr
    exact hold r hr hfound
  · rw [happend] at hr
    rcases List.mem_append.mp hr with hr | hr
    · exact hold r hr hfound
    · obtain rfl := List.mem_singleton.mp hr
      refine ⟨?_, ?_⟩
      · unfold Ended
        rw [htask]
        exact hended hfound
      · rw [hemitted]

/-- It holds in every reachable worker. -/
theorem stopsFit_reachable (h : Reachable (workerMachine setup) Any w) : StopsFit w := by
  refine h.invariant (I := StopsFit) (fun _ hr => absurd hr List.not_mem_nil) ?_
  exact fun _ _ _ hs _ hstep hf => hf.step (sound_reachable hs) (worker_cases hstep)

/-! ### The account of a worker -/

/-- In a terminal state the queue is empty and the dispatcher is not in `emit`. -/
theorem Sound.terminal (h : Sound w) (hstate : w.state = .stopped ∨ w.state = .failed) :
    w.eventQueue = [] ∧ Dispatcher.busy w.eventTask = false := by
  have hphase := h.phase
  -- a final state is left to the ended supervisor and to the time before the start
  have hlive : ¬ (w.state ≠ .stopped ∧ w.state ≠ .failed) := by
    rcases hstate with hs | hs <;> simp [hs]
  cases htask : w.supervisorTask with
  | none =>
    rw [htask] at hphase
    obtain ⟨-, -, -, -, hidle⟩ := hphase
    refine ⟨hidle.queue, ?_⟩
    rw [hidle.eventTask]
    rfl
  | some task =>
    rw [htask] at hphase
    cases task with
    | buildingCapture => exact absurd hphase.1.live hlive
    | buildingPipeline => exact absurd hphase.live hlive
    | watching => exact absurd hphase.live hlive
    | gathering => exact absurd hphase.1.state hlive
    | closingPipeline => exact absurd hphase.1.state hlive
    | joiningQueue => exact absurd hphase.1.state hlive
    | puttingStop => exact absurd hphase.1.state hlive
    | awaitingEvents => exact absurd hphase.1.state hlive
    | ended =>
      refine ⟨hphase.2.queue, ?_⟩
      rcases hphase.2.eventTask with he | he <;> rw [he] <;> rfl

/-- At no time more than `event_queue_size` entries are queued. In a terminal state the sink had
exactly the accepted events, in their order, and the counters add up to the callbacks. After a
`stop` that found a supervisor returned, nothing is passed to the sink. -/
theorem events_conserved (h : Reachable (workerMachine setup) Any w) :
    w.eventQueue.length ≤ setup.eventQueueSize.val ∧
    (w.state = .stopped ∨ w.state = .failed →
      w.emitted = w.accepted ∧
      w.callbacks = w.metrics.eventsEmitted + w.metrics.eventSinkFailures +
        w.metrics.eventsDropped + w.invalidCallbacks) ∧
    ∀ r ∈ w.stopReturns, r.found = true → r.emitted = w.emitted.length := by
  have hconserved := conserved_reachable h
  refine ⟨?_, fun hstate => ?_, fun r hr hfound => (stopsFit_reachable h r hr hfound).2⟩
  · have hbounded := hconserved.bounded
    rwa [mailbox, List.length_map] at hbounded
  · obtain ⟨hq, hidle⟩ := (sound_reachable h).terminal hstate
    have hempty : (mailbox w).queue = [] := by
      show w.eventQueue.map QueueItem.entry = []
      rw [hq]
      rfl
    exact ⟨hconserved.handed_eq hempty, hconserved.arrivals_eq hempty hidle⟩

/-- The account of a worker that was stopped while an event was in the sink. -/
theorem events_conserved_stopped :
    let w := (workerMachine plainSetup).final .new stoppedRun
    w.eventQueue.length ≤ 2 ∧
    (w.state = .stopped ∨ w.state = .failed →
      w.emitted = w.accepted ∧
      w.callbacks = w.metrics.eventsEmitted + w.metrics.eventSinkFailures +
        w.metrics.eventsDropped + w.invalidCallbacks) ∧
    ∀ r ∈ w.stopReturns, r.found = true → r.emitted = w.emitted.length :=
  @events_conserved _ _ plainSetup _ (.final .init stoppedRun (by decide))

/-- A `stop` returns before the worker is started. -/
def earlyStopRun : List (WorkerAct Int) :=
  [.stop, .lock 0 none, .start, .captureBuilt (.ok ()) none, .pipelineBuilt (.ok ()) none,
    .callback 7, .eventTaken, .eventEmitted none, .stop, .lock 2 none, .captureBegins,
    .analyticsBegins, .watched true none, .gathered, .pipelineClosed none, .queueJoined, .stopPut,
    .eventTaken, .eventsEnded]

/-- A `stop` before `start` returns at once, and the worker that is started later passes events to
the sink. -/
theorem stop_before_start :
    ¬ ∀ (setup : WorkerSetup Int Nat) (w : Worker Nat), Reachable (workerMachine setup) Any w →
      w.eventQueue.length ≤ setup.eventQueueSize.val ∧
      (w.state = .stopped ∨ w.state = .failed →
        w.emitted = w.accepted ∧
        w.callbacks = w.metrics.eventsEmitted + w.metrics.eventSinkFailures +
          w.metrics.eventsDropped + w.invalidCallbacks ∧
        ∀ r ∈ w.stopReturns, r.emitted = w.emitted.length) := by
  intro hclaim
  have hreach : Reachable (workerMachine plainSetup) Any
      ((workerMachine plainSetup).final .new earlyStopRun) := .final .init earlyStopRun (by decide)
  have hstop : (⟨false, 0⟩ : StopReturn) ∈
      ((workerMachine plainSetup).final .new earlyStopRun).stopReturns := by decide
  obtain ⟨-, -, hnone⟩ := (hclaim plainSetup _ hreach).2 (by decide)
  exact absurd (hnone _ hstop) (by decide)

end Rsap.Proofs
