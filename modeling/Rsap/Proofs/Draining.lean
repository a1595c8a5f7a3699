import Mathlib.Data.List.Perm.Basic
import Rsap.Cv.Lifecycle
import Rsap.Library.Custody

/-!
# `Rsap.Proofs.Draining`: what `aclose` waits for

`ProcessStep` says what a step of a call of `process` changes, and `PipelineDraining` is the
invariant. The two counters count the calls that are admitted and the calls that are in `_emit`. An
event is with the call that produced it, with a callback task that is not done, or completed. A task
that is not done is in `_callback_futures`, or the call that created it has yet to put it there. So
when the counters are zero and the futures are empty, every event is completed.

The invariant needs that no call comes to emit an event after closing began (`NoLateEvent`). Such a
call raises (`late_event_raises`), since closing stops the admission of events at once.
-/

set_option autoImplicit false

namespace Rsap.Proofs

open Rsap.Library
open Rsap.Library.Machine (Reachable Path Any)
open Rsap.Cv

section
variable {Event : Type}

/-- The call was admitted and is not over. -/
def admitted : ProcessCall Event → Bool
  | .arrived | .returned | .raised | .rejected => false
  | _ => true

/-- The call is in `_emit` and is counted there. -/
def submitting : ProcessCall Event → Bool
  | .calling _ _ | .reserving _ _ | .creating _ _ | .created _ _ | .tracking _ _ | .hooking _ _
  | .leaving _ => true
  | _ => false

/-- The call has raised. -/
def failed : ProcessCall Event → Bool
  | .unlocking raised | .finishing raised => raised
  | .raised => true
  | _ => false

/-- The events of the call that no callback task has. -/
def unemitted : ProcessCall Event → List Event
  | .emitting events | .created _ events | .tracking _ events | .hooking _ events
  | .leaving events => events
  | .calling event events | .reserving event events | .creating event events => event :: events
  | _ => []

/-- The call has created the task and has yet to add it. -/
def adding (k : Nat) : ProcessCall Event → Bool
  | .created task _ | .tracking task _ => task = k
  | _ => false

/-- The call is about to emit an event. -/
def emits : ProcessCall Event → Bool
  | .emitting (_ :: _) => true
  | _ => false

/-- The event of a callback task that is not done. -/
def unfinished (task : CallbackTask Event) : List Event :=
  if task.stage = .done then [] else [task.event]

/-- The events of the callback tasks that are not done. -/
def pending (callbacks : List (CallbackTask Event)) : List Event := callbacks.flatMap unfinished

/-- No call comes to emit an event after closing began. -/
def NoLateEvent (w : PipelineWorld Event) : PipelineAct Event → Prop
  | .run i _ _ => ∀ call ∈ w.processes[i]?, emits call = true → w.closing = false
  | _ => True

/-- A step of a call from `call` to `next`. -/
structure ProcessStep (w w' : PipelineWorld Event) (i : Nat) (call next : ProcessCall Event) :
    Prop where
  processes : w'.processes = w.processes.set i next
  closing : w'.closing = w.closing
  closed : w'.closed = w.closed
  accepting : w'.acceptingCallbacks = w.acceptingCallbacks
  closeTask : w'.closeTask = w.closeTask
  callers : w'.callers = w.callers
  active : (admitted call = true → 0 < w.activeProcesses) →
    w'.activeProcesses + (admitted call).toNat = w.activeProcesses + (admitted next).toNat
  submissions : (submitting call = true → 0 < w.activeSubmissions) →
    w'.activeSubmissions + (submitting call).toNat =
      w.activeSubmissions + (submitting next).toNat
  begins : admitted call = false → admitted next = true → w.closing = false
  failed : failed next = true → failed call = true ∨
    emits call = true ∧ w.acceptingCallbacks = false
  events : emits call = false ∨ w.acceptingCallbacks = true → ∃ new,
    w'.produced = w.produced ++ new ∧
      (w'.completed ++ (pending w'.callbacks ++ unemitted next)).Perm
        (new ++ (w.completed ++ (pending w.callbacks ++ unemitted call)))
  callbacks : ∀ k task, w'.callbacks[k]? = some task → task.stage ≠ .done →
    adding k next = true ∨ ∃ before, w.callbacks[k]? = some before ∧ before.stage ≠ .done ∧
      (before.tracked = true ∨ adding k call = true → task.tracked = true)

/-- A change of the flags of a task leaves the events that are not done. -/
theorem pending_modify (callbacks : List (CallbackTask Event)) (k : Nat)
    {change : CallbackTask Event → CallbackTask Event}
    (hstage : ∀ task, (change task).stage = task.stage)
    (hevent : ∀ task, (change task).event = task.event) :
    pending (callbacks.modify k change) = pending callbacks := by
  induction callbacks generalizing k with
  | nil => cases k <;> rfl
  | cons task callbacks ih =>
    cases k with
    | zero =>
      simp only [pending, List.modify_zero_cons, List.flatMap_cons, unfinished, hstage, hevent]
    | succ k =>
      have htail := ih k
      simp only [pending] at htail
      simp only [pending, List.modify_succ_cons, List.flatMap_cons, htail]

/-- A change of one task that leaves the stage and puts no task out of `_callback_futures`. -/
theorem callbacks_modify {w w' : PipelineWorld Event} {call next : ProcessCall Event} {i : Nat}
    {change : CallbackTask Event → CallbackTask Event}
    (hcallbacks : w'.callbacks = w.callbacks.modify i change)
    (hstage : ∀ task, (change task).stage = task.stage)
    (hkeep : ∀ task, task.tracked = true → (change task).tracked = true)
    (hadding : ∀ k task, adding k call = true → k = i ∧ (change task).tracked = true) :
    ∀ k task, w'.callbacks[k]? = some task → task.stage ≠ .done →
      adding k next = true ∨ ∃ before, w.callbacks[k]? = some before ∧ before.stage ≠ .done ∧
        (before.tracked = true ∨ adding k call = true → task.tracked = true) := by
  intro k task htask hopen
  right
  rw [hcallbacks, List.getElem?_modify] at htask
  obtain ⟨before, hbefore, heq⟩ := Option.map_eq_some_iff.mp htask
  by_cases hk : i = k
  · rw [if_pos hk] at heq
    subst heq
    exact ⟨before, hbefore, by rwa [hstage] at hopen, fun h => h.elim (hkeep before)
      fun h => (hadding k before h).2⟩
  · rw [if_neg hk] at heq
    subst heq
    exact ⟨before, hbefore, hopen, fun h => h.resolve_right fun h => hk (hadding k before h).1.symm⟩

/-- A new task, which its call is adding. -/
theorem callbacks_append {w w' : PipelineWorld Event} {call next : ProcessCall Event}
    {new : CallbackTask Event} (hcallbacks : w'.callbacks = w.callbacks ++ [new])
    (hcall : ∀ k, adding k call = false) (hnext : adding w.callbacks.length next = true) :
    ∀ k task, w'.callbacks[k]? = some task → task.stage ≠ .done →
      adding k next = true ∨ ∃ before, w.callbacks[k]? = some before ∧ before.stage ≠ .done ∧
        (before.tracked = true ∨ adding k call = true → task.tracked = true) := by
  intro k task htask hopen
  rw [hcallbacks] at htask
  rcases Nat.lt_or_ge k w.callbacks.length with hlt | hge
  · rw [List.getElem?_append_left hlt] at htask
    exact .inr ⟨task, htask, hopen, fun h => h.resolve_right (by simp [hcall])⟩
  · have hlen := (List.getElem?_eq_some_iff.mp htask).choose
    rw [List.length_append, List.length_singleton] at hlen
    have hk : k = w.callbacks.length := by omega
    exact .inl (hk ▸ hnext)

/-- A step that touches no callback and no event. -/
theorem events_same {w w' : PipelineWorld Event} {call next : ProcessCall Event}
    (hproduced : w'.produced = w.produced) (hcompleted : w'.completed = w.completed)
    (hcallbacks : pending w'.callbacks = pending w.callbacks)
    (hevents : unemitted next = unemitted call) :
    ∃ new, w'.produced = w.produced ++ new ∧
      (w'.completed ++ (pending w'.callbacks ++ unemitted next)).Perm
        (new ++ (w.completed ++ (pending w.callbacks ++ unemitted call))) := by
  refine ⟨[], by rw [hproduced, List.append_nil], ?_⟩
  rw [hcompleted, hcallbacks, hevents]
  exact List.Perm.refl _

/-- A step that touches no callback task, from a call that adds none. -/
theorem callbacks_same {w w' : PipelineWorld Event} {call next : ProcessCall Event}
    (hcallbacks : w'.callbacks = w.callbacks) (hadding : ∀ k, adding k call = true →
      adding k next = true) :
    ∀ k task, w'.callbacks[k]? = some task → task.stage ≠ .done →
      adding k next = true ∨ ∃ before, w.callbacks[k]? = some before ∧ before.stage ≠ .done ∧
        (before.tracked = true ∨ adding k call = true → task.tracked = true) := by
  intro k task htask hstage
  rw [hcallbacks] at htask
  by_cases hk : adding k call = true
  · exact .inl (hadding k hk)
  · exact .inr ⟨task, htask, hstage, fun h => h.resolve_right hk⟩

/-- A stretch that hands no event on: of the pipeline only the lock and the two counters change. -/
theorem quiet_step {w : PipelineWorld Event} {i : Nat} {call next : ProcessCall Event}
    (locked : Bool) (active submissions : Nat)
    (hactive : (admitted call = true → 0 < w.activeProcesses) →
      active + (admitted call).toNat = w.activeProcesses + (admitted next).toNat)
    (hsubmissions : (submitting call = true → 0 < w.activeSubmissions) →
      submissions + (submitting call).toNat = w.activeSubmissions + (submitting next).toNat)
    (hbegins : admitted call = false → admitted next = true → w.closing = false)
    (hfailed : failed next = true → failed call = true ∨
      emits call = true ∧ w.acceptingCallbacks = false)
    (hevents : emits call = false ∨ w.acceptingCallbacks = true →
      unemitted next = unemitted call)
    (hadding : ∀ k, adding k call = true → adding k next = true) :
    ProcessStep w ({ w with
      processLocked := locked
      activeProcesses := active
      activeSubmissions := submissions }.goto i next) i call next where
  processes := rfl
  closing := rfl
  closed := rfl
  accepting := rfl
  closeTask := rfl
  callers := rfl
  active := hactive
  submissions := hsubmissions
  begins := hbegins
  failed := hfailed
  events hgoes := events_same rfl rfl rfl (hevents hgoes)
  callbacks := callbacks_same rfl hadding

/-- A stretch of a call of `process`, as a step of that call. -/
theorem process_step {w w' : PipelineWorld Event} {i : Nat} {detected : List Event}
    {asynchronous : Bool} {call : ProcessCall Event}
    (h : w.runProcess i detected asynchronous call = some w') :
    ∃ next, ProcessStep w w' i call next := by
  cases call with
  -- the call is admitted while the pipeline is open, else it is rejected
  | arrived =>
    simp only [PipelineWorld.runProcess] at h
    split at h
    · cases h
      refine ⟨_, quiet_step _ _ _ ?_ ?_ ?_ ?_ (fun _ => rfl) (by simp [adding])⟩ <;>
        simp [admitted, submitting, failed]
    · rename_i hopen
      cases h
      refine ⟨_, quiet_step _ _ _ ?_ ?_ ?_ ?_ (fun _ => rfl) (by simp [adding])⟩ <;>
        simp_all [admitted, submitting, failed]
  | admitted =>
    simp only [PipelineWorld.runProcess] at h
    split at h
    · cases h
    · cases h
      refine ⟨_, quiet_step _ _ _ ?_ ?_ ?_ ?_ (fun _ => rfl) (by simp [adding])⟩ <;>
        simp [admitted, submitting, failed]
  -- the events of the frame are produced here, and none of them is out yet
  | detecting =>
    cases h
    refine ⟨_, rfl, rfl, rfl, rfl, rfl, rfl, ?_, ?_, ?_, ?_, fun _ => ⟨detected, rfl, ?_⟩,
      callbacks_same rfl (by simp [adding])⟩
    case refine_5 =>
      classical
      refine List.perm_iff_count.mpr fun event => ?_
      simp only [unemitted, PipelineWorld.goto, List.count_append, List.count_nil]
      omega
    all_goals simp [PipelineWorld.goto, admitted, submitting, failed, emits]
  | emitting events =>
    cases events with
    | nil =>
      cases h
      refine ⟨_, quiet_step _ _ _ ?_ ?_ ?_ ?_ (fun _ => rfl) (by simp [adding])⟩ <;>
        simp [admitted, submitting, failed]
    -- an event is refused once callbacks are no longer accepted
    | cons event events =>
      simp only [PipelineWorld.runProcess] at h
      split at h
      · cases h
        refine ⟨_, quiet_step _ _ _ ?_ ?_ ?_ ?_ (fun _ => rfl) (by simp [adding])⟩ <;>
          simp [admitted, submitting, failed]
      · rename_i hrefused
        cases h
        refine ⟨_, quiet_step _ _ _ ?_ ?_ ?_ ?_ ?_ (by simp [adding])⟩ <;>
          simp_all [admitted, submitting, failed, emits]
  -- a synchronous callback completes its event at once
  | calling event events =>
    simp only [PipelineWorld.runProcess] at h
    split at h
    · cases h
      refine ⟨_, quiet_step _ _ _ ?_ ?_ ?_ ?_ (fun _ => rfl) (by simp [adding])⟩ <;>
        simp [admitted, submitting, failed]
    · cases h
      refine ⟨_, rfl, rfl, rfl, rfl, rfl, rfl, ?_, ?_, ?_, ?_, fun _ => ⟨[], ?_, ?_⟩,
        callbacks_same rfl (by simp [adding])⟩
      case refine_6 =>
        classical
        refine List.perm_iff_count.mpr fun other => ?_
        simp only [unemitted, PipelineWorld.goto, List.count_append, List.count_cons,
          List.count_nil]
        omega
      all_goals simp [PipelineWorld.goto, admitted, submitting, failed, emits]
  | reserving event events =>
    cases h
    refine ⟨_, quiet_step _ _ _ ?_ ?_ ?_ ?_ (fun _ => rfl) (by simp [adding])⟩ <;>
      simp [admitted, submitting, failed]
  -- an asynchronous callback hands its event over to a task
  | creating event events =>
    cases h
    refine ⟨_, rfl, rfl, rfl, rfl, rfl, rfl, ?_, ?_, ?_, ?_, fun _ => ⟨[], ?_, ?_⟩,
      callbacks_append rfl (fun _ => rfl) (by simp [adding])⟩
    case refine_6 =>
      classical
      refine List.perm_iff_count.mpr fun other => ?_
      simp only [unemitted, pending, unfinished, PipelineWorld.goto, List.flatMap_append,
        List.flatMap_cons, List.flatMap_nil, reduceCtorEq, if_false, List.count_append,
        List.count_cons, List.count_nil]
      omega
    all_goals simp [PipelineWorld.goto, admitted, submitting, failed, emits]
  | created task events =>
    cases h
    refine ⟨_, quiet_step _ _ _ ?_ ?_ ?_ ?_ (fun _ => rfl) (by simp [adding])⟩ <;>
      simp [admitted, submitting, failed]
  -- the task is tracked, and from then on `aclose` waits for it
  | tracking task events =>
    cases h
    refine ⟨_, rfl, rfl, rfl, rfl, rfl, rfl, ?_, ?_, ?_, ?_,
      fun _ => events_same rfl rfl (pending_modify _ _ (fun _ => rfl) fun _ => rfl) rfl,
      callbacks_modify rfl (fun _ => rfl) (fun _ _ => rfl) (by simp [adding, eq_comm])⟩ <;>
      simp [PipelineWorld.goto, admitted, submitting, failed, emits]
  | hooking task events =>
    cases h
    refine ⟨_, rfl, rfl, rfl, rfl, rfl, rfl, ?_, ?_, ?_, ?_,
      fun _ => events_same rfl rfl (pending_modify _ _ (fun _ => rfl) fun _ => rfl) rfl,
      callbacks_modify rfl (fun _ => rfl) (fun _ h => h) (by simp [adding])⟩ <;>
      simp [PipelineWorld.goto, admitted, submitting, failed, emits]
  -- the counter goes down by the call that was counted
  | leaving events =>
    cases h
    refine ⟨_, quiet_step _ _ _ ?_ ?_ ?_ ?_ (fun _ => rfl) (by simp [adding])⟩ <;>
      simp [admitted, submitting, failed]
    omega
  | unlocking raised =>
    cases h
    refine ⟨_, quiet_step _ _ _ ?_ ?_ ?_ ?_ (fun _ => rfl) (by simp [adding])⟩ <;>
      simp +contextual [admitted, submitting, failed]
  -- the call is no longer active
  | finishing raised =>
    cases raised <;> cases h
    · refine ⟨_, quiet_step _ _ _ ?_ ?_ ?_ ?_ (fun _ => rfl) (by simp [adding])⟩ <;>
        simp [admitted, submitting, failed]
      omega
    · refine ⟨_, quiet_step _ _ _ ?_ ?_ ?_ ?_ (fun _ => rfl) (by simp [adding])⟩ <;>
        simp [admitted, submitting, failed]
      omega
  | returned | raised | rejected => cases h

/-- A call that adds a task is counted. -/
theorem adding_submitting {k : Nat} {call : ProcessCall Event} (h : adding k call = true) :
    submitting call = true := by
  cases call <;> first | rfl | cases h

/-- A call in `_emit` is counted twice. -/
theorem submitting_admitted {call : ProcessCall Event} (h : submitting call = true) :
    admitted call = true := by
  cases call <;> first | rfl | cases h

/-- A step of a callback task. -/
structure CallbackStep (w w' : PipelineWorld Event) (k : Nat) (task next : CallbackTask Event) :
    Prop where
  same : w' = { w with callbacks := w'.callbacks, completed := w'.completed }
  callbacks : w'.callbacks = w.callbacks.set k next
  tracked : next.stage ≠ .done → next.tracked = true
  running : task.stage = .done → next.stage = .done ∧ w'.completed = w.completed
  events : (w'.completed ++ unfinished next).Perm (w.completed ++ unfinished task)

/-- A callback task that begins, as a step of that task. -/
theorem begin_step {w w' : PipelineWorld Event} {k : Nat} {task : CallbackTask Event}
    (h : w.beginCallback k task = some w') : ∃ next, CallbackStep w w' k task next := by
  simp only [PipelineWorld.beginCallback] at h
  split at h
  · rename_i hscheduled
    cases h
    refine ⟨_, rfl, rfl, fun _ => rfl, fun hdone => ?_, ?_⟩
    · rw [hscheduled] at hdone
      cases hdone
    · simp [unfinished, hscheduled]
  · cases h

/-- A callback that returns, as a step of its task. -/
theorem complete_step {w w' : PipelineWorld Event} {k : Nat} {task : CallbackTask Event}
    (h : w.completeCallback k task = some w') : ∃ next, CallbackStep w w' k task next := by
  simp only [PipelineWorld.completeCallback] at h
  split at h
  · rename_i hrunning
    cases h
    refine ⟨_, rfl, rfl, fun hopen => absurd rfl hopen, fun hdone => ?_, ?_⟩
    · rw [hrunning] at hdone
      cases hdone
    · simp [unfinished, hrunning]
  · cases h

/-- A callback task that is settled, as a step of that task. -/
theorem settle_step {w w' : PipelineWorld Event} {k : Nat} {task : CallbackTask Event}
    (h : w.settleCallback k task = some w') : ∃ next, CallbackStep w w' k task next := by
  simp only [PipelineWorld.settleCallback] at h
  split at h
  · rename_i hdone
    cases h
    exact ⟨_, rfl, rfl, fun hopen => absurd hdone.1 hopen, fun _ => ⟨hdone.1, rfl⟩,
      by simp [unfinished, hdone.1]⟩
  · cases h

/-- What every run without late events keeps. -/
structure PipelineDraining (w : PipelineWorld Event) : Prop where
  active : w.activeProcesses = w.processes.countP admitted
  submissions : w.activeSubmissions = w.processes.countP submitting
  accepting : w.acceptingCallbacks = !w.closing
  closing : w.closing = w.closeTask.isSome
  closed : w.closed = true ↔ w.closeTask = some (.done false)
  succeeds : ∀ call ∈ w.processes, failed call = false
  tracked : ∀ k task, w.callbacks[k]? = some task → task.stage ≠ .done →
    task.tracked = true ∨ ∃ call ∈ w.processes, adding k call = true
  conserved : (w.completed ++ (pending w.callbacks ++ w.processes.flatMap unemitted)).Perm
    w.produced
  drained : ∀ stage ∈ w.closeTask, stage = .waitingProcesses ∨ w.activeProcesses = 0
  settled : w.closeTask = some .closingExecutor ∨ w.closeTask = some (.done false) →
    ∀ task ∈ w.callbacks, task.stage = .done
  completes : w.closeTask ≠ some (.done true)
  callers : ∀ caller ∈ w.callers, caller ≠ .raised ∧ (caller = .returned → w.closed = true)

/-- Nothing has been emitted. -/
theorem draining_init : PipelineDraining (pipelineMachine Event).init where
  active := rfl
  submissions := rfl
  accepting := rfl
  closing := rfl
  closed := by simp [pipelineMachine, PipelineWorld.new]
  succeeds call h := absurd h List.not_mem_nil
  tracked k task h := by cases h
  conserved := List.Perm.refl _
  drained stage h := by cases h
  settled h := by rcases h with h | h <;> cases h
  completes h := by cases h
  callers caller h := absurd h List.not_mem_nil

/-- While no call is active, none is in `_emit` and none has events left. -/
theorem idle_calls {w : PipelineWorld Event} (h : PipelineDraining w)
    (hidle : w.activeProcesses = 0) :
    ∀ call ∈ w.processes, admitted call = false := by
  intro call hmem
  have hzero : w.processes.countP admitted = 0 := h.active.symm.trans hidle
  exact Bool.not_eq_true _ ▸ List.countP_eq_zero.mp hzero call hmem

/-- A step of a call. -/
theorem draining_run {w w' : PipelineWorld Event} {i : Nat} {call next : ProcessCall Event}
    (hinv : PipelineDraining w) (hcall : w.processes[i]? = some call)
    (hok : emits call = true → w.closing = false) (hstep : ProcessStep w w' i call next) :
    PipelineDraining w' := by
  have hmem : call ∈ w.processes := List.mem_of_getElem? hcall
  -- a call that is about to emit finds the pipeline open, by the condition on the step
  have hopen : emits call = false ∨ w.acceptingCallbacks = true := by
    cases he : emits call with
    | false => exact .inl rfl
    | true => exact .inr (by rw [hinv.accepting, hok he]; rfl)
  have hpositive : admitted call = true → 0 < w.activeProcesses := by
    intro h
    rw [hinv.active]
    exact countP_pos_of_getElem? hcall h
  have hsubmitting : submitting call = true → 0 < w.activeSubmissions := by
    intro h
    rw [hinv.submissions]
    exact countP_pos_of_getElem? hcall h
  -- once closing waits for no call, no call is admitted any more
  have hidle : w.closeTask.isSome = true → w.activeProcesses = 0 → admitted next = false := by
    intro hclosing hzero
    have hover : admitted call = false := by
      cases h : admitted call with
      | false => rfl
      | true => exact absurd (hpositive h) (by omega)
    cases h : admitted next with
    | false => rfl
    | true =>
      have hc := hstep.begins hover h
      rw [hinv.closing, hclosing] at hc
      cases hc
  -- the call at its next place is one of the calls
  have hin : next ∈ w'.processes := by
    rw [hstep.processes]
    exact List.mem_set (List.getElem?_eq_some_iff.mp hcall).1 _
  constructor
  -- the counters follow the call that moved
  case active =>
    have hcount := countP_set_add hcall admitted next
    have hadd := hstep.active hpositive
    rw [hstep.processes]
    have := hinv.active
    omega
  case submissions =>
    have hcount := countP_set_add hcall submitting next
    have hadd := hstep.submissions hsubmitting
    rw [hstep.processes]
    have := hinv.submissions
    omega
  case accepting => rw [hstep.accepting, hstep.closing, hinv.accepting]
  case closing => rw [hstep.closing, hstep.closeTask, hinv.closing]
  case closed => rw [hstep.closed, hstep.closeTask, hinv.closed]
  -- a call fails only when its event is refused, which the condition excludes
  case succeeds =>
    intro other hother
    rw [hstep.processes] at hother
    rcases List.mem_or_eq_of_mem_set hother with hold | rfl
    · exact hinv.succeeds other hold
    · cases hf : failed other with
      | false => rfl
      | true =>
        rcases hstep.failed hf with h | ⟨he, ha⟩
        · exact h.symm.trans (hinv.succeeds call hmem)
        · rcases hopen with h | h
          · exact he.symm.trans h
          · exact h.symm.trans ha
  -- a callback is tracked, or its call is about to track it
  case tracked =>
    intro k task htask hstage
    rcases hstep.callbacks k task htask hstage with h | ⟨before, hbefore, hrunning, hkeep⟩
    · exact .inr ⟨next, hin, h⟩
    · rcases hinv.tracked k before hbefore hrunning with h | ⟨other, hother, hadding⟩
      · exact .inl (hkeep (.inl h))
      · obtain ⟨j, hj⟩ := List.mem_iff_getElem?.mp hother
        by_cases hij : i = j
        · subst hij
          rw [hcall] at hj
          cases hj
          exact .inl (hkeep (.inr hadding))
        · refine .inr ⟨other, ?_, hadding⟩
          rw [hstep.processes]
          exact List.mem_of_getElem? ((List.getElem?_set_ne hij).trans hj)
  -- events change hands between the call, the callbacks and the completed ones
  case conserved =>
    classical
    obtain ⟨new, hproduced, hperm⟩ := hstep.events hopen
    have hmoved : ((w'.completed ++ pending w'.callbacks) ++
        (some next).toList.flatMap unemitted).Perm
        (new ++ ((w.completed ++ pending w.callbacks) ++ unemitted call)) := by
      simpa using hperm
    have hbefore : ((w.completed ++ pending w.callbacks) ++
        w.processes.flatMap unemitted).Perm w.produced := by
      simpa using hinv.conserved
    have hall := custody_step unemitted hcall hmoved hbefore
    rw [hproduced, hstep.processes]
    simpa [resume] using hall.trans List.perm_append_comm
  -- no call begins while the close waits for none
  case drained =>
    intro stage hstage
    rw [hstep.closeTask] at hstage
    rcases hinv.drained stage hstage with h | hzero
    · exact .inl h
    · have hover := hidle (by rw [Option.mem_def.mp hstage]; rfl) hzero
      have hadd := hstep.active hpositive
      rw [hover] at hadd
      exact .inr (by simp at hadd; omega)
  -- nor is a callback created then
  case settled =>
    intro hclose task htask
    rw [hstep.closeTask] at hclose
    by_contra hstage
    obtain ⟨k, hk⟩ := List.mem_iff_getElem?.mp htask
    rcases hstep.callbacks k task hk hstage with h | ⟨before, hbefore, hrunning, -⟩
    · have hsome : w.closeTask.isSome = true := by rcases hclose with h | h <;> rw [h] <;> rfl
      have hzero : w.activeProcesses = 0 := by
        rcases hclose with h | h
        · exact (hinv.drained _ h).resolve_left (by simp)
        · exact (hinv.drained _ h).resolve_left (by simp)
      have hover := hidle hsome hzero
      rw [submitting_admitted (adding_submitting h)] at hover
      cases hover
    · exact hrunning (hinv.settled hclose before (List.mem_of_getElem? hbefore))
  case completes => rw [hstep.closeTask]; exact hinv.completes
  case callers => rw [hstep.callers, hstep.closed]; exact hinv.callers

/-- A step of a callback task. -/
theorem draining_callback {w w' : PipelineWorld Event} {k : Nat} {task next : CallbackTask Event}
    (hinv : PipelineDraining w) (htask : w.callbacks[k]? = some task)
    (hstep : CallbackStep w w' k task next) : PipelineDraining w' := by
  obtain ⟨callbacks, completed, hw⟩ : ∃ callbacks completed,
      w' = { w with callbacks := callbacks, completed := completed } := ⟨_, _, hstep.same⟩
  have hcallbacks := hstep.callbacks
  have hevents := hstep.events
  subst hw
  refine { hinv with tracked := ?tracked, conserved := ?conserved, settled := ?settled }
  -- only the task that moved can lose its tracking, and it does so when it is over
  case tracked =>
    intro j other hother hstage
    rw [hcallbacks, List.getElem?_set] at hother
    split at hother
    · split at hother
      · cases hother
        exact .inl (hstep.tracked hstage)
      · cases hother
    · exact hinv.tracked j other hother hstage
  -- its event is completed, or it is still its own
  case conserved =>
    classical
    have hown : (completed ++ (some next).toList.flatMap unfinished).Perm
        ([] ++ (w.completed ++ unfinished task)) := by simpa using hevents
    have hmoved := custody_step unfinished htask hown (List.Perm.refl _)
    have hall := hmoved.append_right (w.processes.flatMap unemitted)
    show (completed ++ (pending callbacks ++ _)).Perm w.produced
    refine List.Perm.trans ?_ hinv.conserved
    rw [show callbacks = w.callbacks.set k next from hcallbacks]
    simpa [resume, pending] using hall
  case settled =>
    intro hclose other hother
    rw [hcallbacks] at hother
    have hdone := hinv.settled hclose
    rcases List.mem_or_eq_of_mem_set hother with hold | rfl
    · exact hdone other hold
    · exact (hstep.running (hdone task (List.mem_of_getElem? htask))).1

/-- A step of a caller of `aclose`. -/
theorem draining_caller {w w' : PipelineWorld Event} {i : Nat} {caller : AcloseCaller}
    (hinv : PipelineDraining w) (hcaller : w.callers[i]? = some caller)
    (hstep : w.runAclose i caller = some w') : PipelineDraining w' := by
  -- only this caller moved
  have hset : ∀ next : AcloseCaller, next ≠ .raised → (next = .returned → w.closed = true) →
      ∀ caller ∈ w.callers.set i next,
        caller ≠ .raised ∧ (caller = .returned → w.closed = true) := by
    intro next hraised hreturned other hother
    rcases List.mem_or_eq_of_mem_set hother with hold | rfl
    · exact hinv.callers other hold
    · exact ⟨hraised, hreturned⟩
  cases caller with
  -- the first caller closes admission and creates the task that closes
  | entering =>
    simp only [PipelineWorld.runAclose] at hstep
    split at hstep
    · rename_i hclosed
      cases hstep
      exact { hinv with callers := hset .returned (by simp) fun _ => hclosed }
    · rename_i hclosed
      split at hstep
      · cases hstep
        exact { hinv with callers := hset .waiting (by simp) (by simp) }
      · rename_i hnone
        cases hstep
        refine { hinv with
          accepting := rfl
          closing := rfl
          closed := ⟨fun h => absurd h hclosed, fun h => by cases h⟩
          drained := fun stage h => .inl (Option.some.inj h).symm
          settled := fun h => by rcases h with h | h <;> cases h
          completes := fun h => by cases h
          callers := hset .waiting (by simp) (by simp) }
  -- the others return when that task is done
  | waiting =>
    simp only [PipelineWorld.runAclose] at hstep
    split at hstep
    · rename_i hdone
      cases hstep
      exact { hinv with callers := hset .returned (by simp) fun _ => hinv.closed.mpr hdone }
    · rename_i hdone
      exact absurd hdone hinv.completes
    · cases hstep
  | returned | raised => cases hstep

/-- A step of `_aclose_impl`. -/
theorem draining_close {w w' : PipelineWorld Event} {stage : CloseTask} (hinv : PipelineDraining w)
    (hstage : w.closeTask = some stage) (hstep : w.runCloseTask stage = some w') :
    PipelineDraining w' := by
  have hclosing : w.closing = true := by rw [hinv.closing, hstage]; rfl
  have hdrained := hinv.drained stage hstage
  have hopen : stage ≠ .done false → w.closed = false := by
    intro hne
    refine Bool.eq_false_iff.mpr fun hclosed => hne ?_
    exact Option.some.inj (hstage.symm.trans (hinv.closed.mp hclosed))
  cases stage with
  | waitingProcesses =>
    simp only [PipelineWorld.runCloseTask] at hstep
    split at hstep
    · rename_i hzero
      cases hstep
      exact { hinv with
        closing := hclosing
        closed := by simp [hopen]
        drained := fun _ _ => .inr hzero
        settled := fun h => by rcases h with h | h <;> cases h
        completes := fun h => by cases h }
    · cases hstep
  | waitingSubmissions =>
    have hzero := hdrained.resolve_left (by simp)
    simp only [PipelineWorld.runCloseTask] at hstep
    split at hstep
    · cases hstep
      exact { hinv with
        closing := hclosing
        closed := by simp [hopen]
        drained := fun _ _ => .inr hzero
        settled := fun h => by rcases h with h | h <;> cases h
        completes := fun h => by cases h }
    · cases hstep
  | settling =>
    have hzero := hdrained.resolve_left (by simp)
    have hover := idle_calls hinv hzero
    have hsubmissions : w.activeSubmissions = 0 := by
      rw [hinv.submissions, List.countP_eq_zero]
      intro call hmem hsubmitting
      have := (submitting_admitted hsubmitting).symm.trans (hover call hmem)
      cases this
    simp only [PipelineWorld.runCloseTask] at hstep
    split at hstep
    · rename_i hfutures
      rw [if_neg (by simp [hsubmissions])] at hstep
      cases hstep
      have hsettled : ∀ task ∈ w.callbacks, task.stage = .done := by
        -- a task that is not done is in `_callback_futures`, or a call is in `_emit`
        intro task hmem
        by_contra hrunning
        obtain ⟨k, hk⟩ := List.mem_iff_getElem?.mp hmem
        rcases hinv.tracked k task hk hrunning with h | ⟨call, hcall, hadding⟩
        · have hclear := List.all_eq_true.mp hfutures task hmem
          simp [h] at hclear
        · have := (submitting_admitted (adding_submitting hadding)).symm.trans (hover call hcall)
          cases this
      exact { hinv with
        closing := hclosing
        closed := by simp [hopen]
        drained := fun _ _ => .inr hzero
        settled := fun _ => hsettled
        completes := fun h => by cases h }
    · cases hstep
  | closingExecutor =>
    have hzero := hdrained.resolve_left (by simp)
    cases hstep
    exact { hinv with
      closing := hclosing
      closed := ⟨fun _ => rfl, fun _ => rfl⟩
      drained := fun _ _ => .inr hzero
      settled := fun _ => hinv.settled (.inl hstage)
      completes := fun h => by cases h
      callers := fun caller hmem => ⟨(hinv.callers caller hmem).1, fun _ => rfl⟩ }
  | done raised => cases hstep

/-- Every step that admits no late event keeps the account of the callbacks. -/
theorem draining_step {w w' : PipelineWorld Event} {act : PipelineAct Event}
    (hinv : PipelineDraining w)
    (hok : NoLateEvent w act) (hstep : w.step act = some w') : PipelineDraining w' := by
  cases act with
  -- a call that arrives has no event and no callback
  | process =>
    cases hstep
    exact { hinv with
      active := by simpa [admitted] using hinv.active
      submissions := by simpa [submitting] using hinv.submissions
      succeeds := by
        intro call hmem
        rcases List.mem_append.mp hmem with hold | hnew
        · exact hinv.succeeds call hold
        · rw [List.mem_singleton.mp hnew]
          rfl
      tracked := by
        intro k task htask hstage
        rcases hinv.tracked k task htask hstage with h | ⟨call, hmem, hadding⟩
        · exact .inl h
        · exact .inr ⟨call, List.mem_append_left _ hmem, hadding⟩
      conserved := by
        show (w.completed ++ (pending w.callbacks ++ _)).Perm w.produced
        rw [custody_begin unemitted rfl]
        exact hinv.conserved }
  -- the condition is about the stretch of a call
  | run i detected asynchronous =>
    obtain ⟨call, hcall, hrun⟩ := Option.bind_eq_some_iff.mp hstep
    obtain ⟨next, hnext⟩ := process_step hrun
    exact draining_run hinv hcall (hok call hcall) hnext
  | begin k =>
    obtain ⟨task, htask, hrun⟩ := Option.bind_eq_some_iff.mp hstep
    obtain ⟨next, hnext⟩ := begin_step hrun
    exact draining_callback hinv htask hnext
  | complete k =>
    obtain ⟨task, htask, hrun⟩ := Option.bind_eq_some_iff.mp hstep
    obtain ⟨next, hnext⟩ := complete_step hrun
    exact draining_callback hinv htask hnext
  | settle k =>
    obtain ⟨task, htask, hrun⟩ := Option.bind_eq_some_iff.mp hstep
    obtain ⟨next, hnext⟩ := settle_step hrun
    exact draining_callback hinv htask hnext
  | aclose =>
    cases hstep
    exact { hinv with
      callers := by
        intro caller hmem
        rcases List.mem_append.mp hmem with hold | hnew
        · exact hinv.callers caller hold
        · rw [List.mem_singleton.mp hnew]
          exact ⟨by simp, by simp⟩ }
  | runCaller i =>
    obtain ⟨caller, hcaller, hrun⟩ := Option.bind_eq_some_iff.mp hstep
    exact draining_caller hinv hcaller hrun
  | runClose =>
    obtain ⟨stage, hstage, hrun⟩ := Option.bind_eq_some_iff.mp hstep
    exact draining_close hinv hstage hrun

/-- The account holds in every state that such a run reaches. -/
theorem reachable_draining {w : PipelineWorld Event}
    (h : Reachable (pipelineMachine Event) NoLateEvent w) : PipelineDraining w := by
  refine h.invariant draining_init ?_
  intro w act w' _ hok hstep hinv
  exact draining_step hinv hok hstep

/-- The pipeline is closed, no call is in `process` and every callback task is done. -/
structure PipelineIdle (w : PipelineWorld Event) : Prop where
  closing : w.closing = true
  calls : ∀ call ∈ w.processes, call = .arrived ∨ call = .returned ∨ call = .rejected
  callbacks : ∀ task ∈ w.callbacks, task.stage = .done

/-- A call that is over, or has yet to begin, is rejected or does nothing. -/
theorem idle_run {w w' : PipelineWorld Event} {i : Nat} {detected : List Event}
    {asynchronous : Bool} {call : ProcessCall Event} (hclosing : w.closing = true)
    (hcall : call = .arrived ∨ call = .returned ∨ call = .rejected)
    (hstep : w.runProcess i detected asynchronous call = some w') : w' = w.goto i .rejected := by
  rcases hcall with rfl | rfl | rfl
  · simp only [PipelineWorld.runProcess, hclosing, true_or, if_true, Option.some.injEq] at hstep
    exact hstep.symm
  · cases hstep
  · cases hstep

/-- An idle pipeline stays idle and completes no further callback. -/
theorem idle_step {w w' : PipelineWorld Event} {act : PipelineAct Event} (hidle : PipelineIdle w)
    (hstep : w.step act = some w') : PipelineIdle w' ∧ w'.completed = w.completed := by
  cases act with
  -- a late call is rejected as soon as it goes on
  | process =>
    cases hstep
    refine ⟨⟨hidle.closing, ?_, hidle.callbacks⟩, rfl⟩
    intro call hmem
    rcases List.mem_append.mp hmem with hold | hnew
    · exact hidle.calls call hold
    · exact .inl (List.mem_singleton.mp hnew)
  | run i detected asynchronous =>
    obtain ⟨call, hcall, hrun⟩ := Option.bind_eq_some_iff.mp hstep
    rw [idle_run hidle.closing (hidle.calls call (List.mem_of_getElem? hcall)) hrun]
    refine ⟨⟨hidle.closing, ?_, hidle.callbacks⟩, rfl⟩
    intro other hmem
    rcases List.mem_or_eq_of_mem_set hmem with hold | rfl
    · exact hidle.calls other hold
    · exact .inr (.inr rfl)
  -- callbacks are over
  | begin k =>
    obtain ⟨task, htask, hrun⟩ := Option.bind_eq_some_iff.mp hstep
    simp [PipelineWorld.beginCallback, hidle.callbacks task (List.mem_of_getElem? htask)] at hrun
  | complete k =>
    obtain ⟨task, htask, hrun⟩ := Option.bind_eq_some_iff.mp hstep
    simp [PipelineWorld.completeCallback, hidle.callbacks task (List.mem_of_getElem? htask)] at hrun
  -- a task that is forgotten was over
  | settle k =>
    obtain ⟨task, htask, hrun⟩ := Option.bind_eq_some_iff.mp hstep
    simp only [PipelineWorld.settleCallback] at hrun
    split at hrun
    · cases hrun
      refine ⟨⟨hidle.closing, hidle.calls, ?_⟩, rfl⟩
      intro other hmem
      rcases List.mem_or_eq_of_mem_set hmem with hold | rfl
      · exact hidle.callbacks other hold
      · exact hidle.callbacks task (List.mem_of_getElem? htask)
    · cases hrun
  | aclose =>
    cases hstep
    exact ⟨{ hidle with }, rfl⟩
  -- a late caller of `aclose` returns or waits
  | runCaller i =>
    obtain ⟨caller, hcaller, hrun⟩ := Option.bind_eq_some_iff.mp hstep
    cases caller with
    | entering =>
      simp only [PipelineWorld.runAclose] at hrun
      split at hrun
      · cases hrun
        exact ⟨{ hidle with }, rfl⟩
      · split at hrun <;> cases hrun
        · exact ⟨{ hidle with }, rfl⟩
        · exact ⟨{ hidle with closing := rfl }, rfl⟩
    | waiting =>
      simp only [PipelineWorld.runAclose] at hrun
      split at hrun
      · cases hrun
        exact ⟨{ hidle with }, rfl⟩
      · cases hrun
        exact ⟨{ hidle with }, rfl⟩
      · cases hrun
    | returned | raised => cases hrun
  | runClose =>
    obtain ⟨stage, hstage, hrun⟩ := Option.bind_eq_some_iff.mp hstep
    cases stage with
    | waitingProcesses | waitingSubmissions | settling =>
      simp only [PipelineWorld.runCloseTask] at hrun
      split_ifs at hrun <;> cases hrun <;> exact ⟨{ hidle with }, rfl⟩
    | closingExecutor =>
      cases hrun
      exact ⟨{ hidle with }, rfl⟩
    | done raised => cases hrun

/-- An idle pipeline stays idle and completes nothing more. -/
theorem idle_path {w w' : PipelineWorld Event} (hidle : PipelineIdle w)
    (hpath : Path (pipelineMachine Event) Any w w') :
    PipelineIdle w' ∧ w'.completed = w.completed := by
  refine hpath.invariant (I := fun s => PipelineIdle s ∧ s.completed = w.completed) ⟨hidle, rfl⟩ ?_
  intro s act s' _ hstep ⟨hs, heq⟩
  obtain ⟨hs', hsame⟩ := idle_step hs hstep
  exact ⟨hs', hsame.trans heq⟩

/-- A closed pipeline has nothing left to do. -/
theorem closed_idle {w : PipelineWorld Event} (h : PipelineDraining w) (hclosed : w.closed = true) :
    PipelineIdle w ∧ w.completed.Perm w.produced := by
  have hdone := h.closed.mp hclosed
  have hover := idle_calls h ((h.drained _ hdone).resolve_left (by simp))
  have hcallbacks := h.settled (.inr hdone)
  refine ⟨⟨by rw [h.closing, hdone]; rfl, fun call hmem => ?_, hcallbacks⟩, ?_⟩
  · have hfailed := h.succeeds call hmem
    have hadmitted := hover call hmem
    cases call with
    | arrived => exact .inl rfl
    | returned => exact .inr (.inl rfl)
    | rejected => exact .inr (.inr rfl)
    | raised => cases hfailed
    | admitted | detecting | emitting | calling | reserving | creating | created | tracking
      | hooking | leaving | unlocking | finishing => cases hadmitted
  · have hpending : pending w.callbacks = [] := by
      refine List.flatMap_eq_nil_iff.mpr fun task hmem => ?_
      simp [unfinished, hcallbacks task hmem]
    have hevents : w.processes.flatMap unemitted = [] := by
      refine List.flatMap_eq_nil_iff.mpr fun call hmem => ?_
      have hadmitted := hover call hmem
      cases call <;> first | rfl | cases hadmitted
    simpa [hpending, hevents] using h.conserved

/-- What `aclose` drains, over every interleaving in which no call comes to emit an event after
closing began. No call and no caller of `aclose` raises. Once a caller of `aclose` has returned,
each call that was admitted has returned, the callback of each event has run to its end once, and
this stays so: no callback runs afterwards. A call that arrives after closing began is rejected. -/
theorem accepted_drained {w : PipelineWorld Event}
    (h : Reachable (pipelineMachine Event) NoLateEvent w) :
    (∀ call ∈ w.processes, failed call = false) ∧
    (∀ caller ∈ w.callers, caller ≠ .raised) ∧
    (.returned ∈ w.callers →
      PipelineIdle w ∧ w.completed.Perm w.produced ∧
      ∀ w', Path (pipelineMachine Event) Any w w' →
        PipelineIdle w' ∧ w'.completed = w.completed) ∧
    (w.closing = true → ∀ i detected asynchronous w', w.processes[i]? = some .arrived →
      w.step (.run i detected asynchronous) = some w' → w'.processes[i]? = some .rejected) := by
  have hinv := reachable_draining h
  refine ⟨hinv.succeeds, fun caller hmem => (hinv.callers caller hmem).1, ?_, ?_⟩
  · intro hreturned
    obtain ⟨hidle, hevents⟩ := closed_idle hinv ((hinv.callers _ hreturned).2 rfl)
    exact ⟨hidle, hevents, fun w' hpath => idle_path hidle hpath⟩
  · intro hclosing i detected asynchronous w' harrived hstep
    obtain ⟨call, hcall, hrun⟩ := Option.bind_eq_some_iff.mp hstep
    rw [harrived] at hcall
    cases hcall
    rw [idle_run hclosing (.inl rfl) hrun]
    exact List.getElem?_set_self (List.getElem?_eq_some_iff.mp harrived).1

/-- Events are admitted until closing begins, in every run. -/
theorem accepting_closing {w : PipelineWorld Event}
    (h : Reachable (pipelineMachine Event) Any w) : w.acceptingCallbacks = !w.closing := by
  refine h.invariant (I := fun w => w.acceptingCallbacks = !w.closing) rfl ?_
  intro w act w' _ _ hstep hinv
  cases act with
  | process | aclose =>
    cases hstep
    exact hinv
  | run i detected asynchronous =>
    obtain ⟨call, -, hrun⟩ := Option.bind_eq_some_iff.mp hstep
    obtain ⟨next, hnext⟩ := process_step hrun
    rw [hnext.accepting, hnext.closing, hinv]
  | begin k =>
    obtain ⟨task, -, hrun⟩ := Option.bind_eq_some_iff.mp hstep
    obtain ⟨next, hnext⟩ := begin_step hrun
    rw [hnext.same]
    exact hinv
  | complete k =>
    obtain ⟨task, -, hrun⟩ := Option.bind_eq_some_iff.mp hstep
    obtain ⟨next, hnext⟩ := complete_step hrun
    rw [hnext.same]
    exact hinv
  | settle k =>
    obtain ⟨task, -, hrun⟩ := Option.bind_eq_some_iff.mp hstep
    obtain ⟨next, hnext⟩ := settle_step hrun
    rw [hnext.same]
    exact hinv
  -- the first caller of `aclose` sets both flags at once
  | runCaller i =>
    obtain ⟨caller, -, hrun⟩ := Option.bind_eq_some_iff.mp hstep
    cases caller with
    | entering =>
      simp only [PipelineWorld.runAclose] at hrun
      split at hrun
      · cases hrun
        exact hinv
      · split at hrun <;> cases hrun
        · exact hinv
        · rfl
    | waiting =>
      simp only [PipelineWorld.runAclose] at hrun
      split at hrun <;> cases hrun <;> exact hinv
    | returned | raised => cases hrun
  | runClose =>
    obtain ⟨stage, -, hrun⟩ := Option.bind_eq_some_iff.mp hstep
    cases stage with
    | waitingProcesses | waitingSubmissions | settling =>
      simp only [PipelineWorld.runCloseTask] at hrun
      split_ifs at hrun <;> cases hrun <;> exact hinv
    | closingExecutor =>
      cases hrun
      exact hinv
    | done raised => cases hrun

/-- A call that comes to emit an event after closing began raises, in every run. -/
theorem late_event_fails {w w' : PipelineWorld Event} {i : Nat} {detected : List Event}
    {asynchronous : Bool} (h : Reachable (pipelineMachine Event) Any w)
    (hlate : ¬ NoLateEvent w (.run i detected asynchronous))
    (hstep : w.step (.run i detected asynchronous) = some w') :
    w'.processes[i]? = some (.unlocking true) ∧ w'.completed = w.completed := by
  obtain ⟨call, hcall, hrun⟩ := Option.bind_eq_some_iff.mp hstep
  have hemits : emits call = true ∧ w.closing = true := by
    simpa [NoLateEvent, hcall] using hlate
  have hrefused : w.acceptingCallbacks = false := by rw [accepting_closing h, hemits.2]; rfl
  cases call with
  | emitting events =>
    cases events with
    | nil => exact absurd hemits.1 (by simp [emits])
    | cons event events =>
      simp only [PipelineWorld.runProcess, hrefused] at hrun
      cases hrun
      exact ⟨List.getElem?_set_self (List.getElem?_eq_some_iff.mp hcall).1, rfl⟩
  | arrived | admitted | detecting | calling | reserving | creating | created | tracking | hooking
    | leaving | unlocking | finishing | returned | raised | rejected => cases hemits.1

end

instance {Event : Type} : ∀ (w : PipelineWorld Event) (act : PipelineAct Event),
    Decidable (NoLateEvent w act)
  | w, .run i _ _ =>
    inferInstanceAs (Decidable (∀ call ∈ w.processes[i]?, emits call = true → w.closing = false))
  | _, .process => .isTrue trivial
  | _, .begin _ => .isTrue trivial
  | _, .complete _ => .isTrue trivial
  | _, .settle _ => .isTrue trivial
  | _, .aclose => .isTrue trivial
  | _, .runCaller _ => .isTrue trivial
  | _, .runClose => .isTrue trivial

/-- A frame with two events, the second with an asynchronous callback, and `aclose` after both. -/
def drainedRun : List (PipelineAct Nat) :=
  [.process, .run 0 [] false, .run 0 [] false, .run 0 [4, 5] false, .run 0 [] false,
    .run 0 [] false, .run 0 [] false, .run 0 [] false, .run 0 [] true, .run 0 [] false,
    .run 0 [] false, .aclose, .runCaller 0, .run 0 [] false, .begin 0, .run 0 [] false,
    .run 0 [] false, .run 0 [] false, .run 0 [] false, .complete 0, .run 0 [] false, .settle 0,
    .run 0 [] false, .runClose, .runClose, .runClose, .runClose, .runCaller 0]

/-- A pipeline that closes with one callback under way. -/
theorem drained_run :
    let w := (pipelineMachine Nat).final .new drainedRun
    w.completed = [4, 5] ∧ w.completed.Perm w.produced := by
  intro w
  have hreturned : .returned ∈ w.callers := by decide
  exact ⟨by decide, ((accepted_drained (Reachable.init.final drainedRun (by decide))).2.2.1
    hreturned).2.1⟩

/-- `aclose` begins while the detector runs on a frame. -/
def lateEventRun : List (PipelineAct Nat) :=
  [.process, .run 0 [] false, .run 0 [] false, .aclose, .runCaller 0, .run 0 [7] false,
    .run 0 [] false, .run 0 [] false, .run 0 [] false, .runClose, .runClose, .runClose, .runClose,
    .runCaller 0]

/-- The call of `process` that was admitted before raises, and its event is lost. -/
theorem late_event_raises :
    ∃ w, Reachable (pipelineMachine Nat) Any w ∧ w.processes = [.raised] ∧
      w.callers = [.returned] ∧ w.produced = [7] ∧ w.completed = [] := by
  refine ⟨(pipelineMachine Nat).final .new lateEventRun,
    Reachable.init.final lateEventRun (by decide), ?_⟩
  decide

end Rsap.Proofs
