import Rsap.Library.Tasks
import Rsap.Orchestration.Service
import Rsap.Proofs.ManagerShutdown

/-!
# `Rsap.Proofs.ServiceCalls`: the calls of the manager that the service makes

`Follows` says how a task of the manager goes on: it stays the same call, and a call that is over
does not change. In the steps of the manager that the service has no part in (`outside`), no call of
`reconcile` or `shutdown` begins, and no call of `shutdown` is cancelled.
-/

set_option autoImplicit false

namespace Rsap.Proofs

open Rsap.Library
open Rsap.Library.Machine (Reachable Path Any)
open Rsap.Orchestration

section
variable {Settings : Type}

/-- A task of the manager goes on. -/
inductive Follows : ManagerTask Settings → ManagerTask Settings → Prop where
  | same {t : ManagerTask Settings} : Follows t t
  | operation {op : Operation Settings} {stage stage' : Stage Settings} :
      Follows (.operation op stage) (.operation op stage')
  | reconcile {desired : List (CameraDefinition Settings)}
      {stage stage' : ReconcileStage Settings} : (∀ result, stage ≠ .ended result) →
      Follows (.reconcile desired stage) (.reconcile desired stage')
  | shutdown {stage stage' : ShutdownStage} : (∀ result, stage ≠ .ended result) →
      stage' ≠ .ended (.error .cancelled) → Follows (.shutdown stage) (.shutdown stage')
  | shutdownImpl {stage stage' : ShutdownImplStage} :
      Follows (.shutdownImpl stage) (.shutdownImpl stage')

/-- The tasks that the manager creates by itself, and a call of `shutdown` that begins. -/
inductive Own : ManagerTask Settings → Prop where
  | operation {op : Operation Settings} {stage : Stage Settings} : Own (.operation op stage)
  | shutdown : Own (.shutdown .entering)
  | shutdownImpl {stage : ShutdownImplStage} : Own (.shutdownImpl stage)

/-- The manager goes on without a new call of `reconcile`. -/
abbrev GoesOn (m m' : ManagerWorld Settings) : Prop := Evolves Follows Own m.tasks m'.tasks

/-- The operations that the manager begins are its own. -/
theorem own_lookups (operations : List (Operation Settings)) :
    ∀ t ∈ operations.map fun op => (.operation op .lookup : ManagerTask Settings), Own t := by
  intro t ht
  obtain ⟨op, -, rfl⟩ := List.mem_map.mp ht
  exact .operation

variable {cfg : ManagerConfig} {m m' : ManagerWorld Settings} {i : Nat}
  {closed : Option OrchestrationFailure}

/-- A stretch of an operation lets the calls go on. -/
theorem operation_goesOn {op : Operation Settings} {stage : Stage Settings}
    (ht : m.tasks[i]? = some (.operation op stage))
    (h : m.runOperation cfg i closed op stage = some m') : GoesOn m m' := by
  -- the operation moves its own task and no other
  have hgoto : ∀ {stage'}, m'.tasks = m.tasks.set i (.operation op stage') → GoesOn m m' := by
    intro stage' htasks
    unfold GoesOn
    rw [htasks]
    exact .set (fun _ => .same) ht .operation
  cases stage with
  | lookup =>
    cases h
    unfold ManagerWorld.getCameraLock at hgoto ⊢
    split
    · rename_i lock hlock
      simp only [hlock] at hgoto
      exact hgoto rfl
    · rename_i hlock
      simp only [hlock] at hgoto
      exact hgoto rfl
  | locking lock =>
    simp only [ManagerWorld.runOperation] at h
    split at h <;> cases h
    exact hgoto rfl
  | inside lock place =>
    obtain ⟨⟨r, progress⟩, -, rfl⟩ := Option.map_eq_some_iff.mp h
    exact hgoto rfl
  | ended result => cases h

/-- A cancelled operation lets the calls go on. -/
theorem cancelOperation_goesOn {op : Operation Settings} {stage : Stage Settings}
    (ht : m.tasks[i]? = some (.operation op stage))
    (h : m.cancelOperation cfg i closed op stage = some m') : GoesOn m m' := by
  cases stage with
  | lookup | locking =>
    cases h
    exact .set (fun _ => .same) ht .operation
  | inside lock place =>
    obtain ⟨⟨r, progress⟩, -, rfl⟩ := Option.map_eq_some_iff.mp h
    exact .set (fun _ => .same) ht .operation
  | ended result => cases h

/-- A stretch of a caller of `shutdown` lets the calls go on. -/
theorem shutdown_goesOn {stage : ShutdownStage} (ht : m.tasks[i]? = some (.shutdown stage))
    (h : m.runShutdown i stage = some m') : GoesOn m m' := by
  cases stage with
  | entering =>
    simp only [ManagerWorld.runShutdown] at h
    split at h <;> cases h
    · exact .set (fun _ => .same) ht (.shutdown (fun _ h => by cases h) (fun h => by cases h))
    · refine .set_append (fun _ => .same) ht
        (.shutdown (fun _ h => by cases h) (fun h => by cases h)) ?_
      intro t hmem
      cases List.mem_singleton.mp hmem
      exact .shutdownImpl
  | awaiting task =>
    simp only [ManagerWorld.runShutdown] at h
    split at h
    · cases h
      refine .set (fun _ => .same) ht (.shutdown (fun _ h => by cases h) fun h => ?_)
      unfold ManagerWorld.shutdownResult at h
      split at h <;> cases h
    · cases h
  | ended result => cases h

/-- A stretch of the shared task lets the calls go on. -/
theorem shutdownImpl_goesOn {stage : ShutdownImplStage}
    (ht : m.tasks[i]? = some (.shutdownImpl stage))
    (h : m.runShutdownImpl cfg i stage = some m') : GoesOn m m' := by
  cases stage with
  | snapshotting =>
    cases h
    exact .set_append (fun _ => .same) ht .shutdownImpl (own_lookups _)
  | gathering cameraIds children =>
    simp only [ManagerWorld.runShutdownImpl] at h
    split at h <;> cases h
    exact .set (fun _ => .same) ht .shutdownImpl
  | ended failures => cases h

variable [DecidableEq Settings]

/-- A stretch of `reconcile` lets the calls go on. -/
theorem reconcile_goesOn {desired : List (CameraDefinition Settings)}
    {stage : ReconcileStage Settings} (ht : m.tasks[i]? = some (.reconcile desired stage))
    (h : m.runReconcile cfg i desired stage = some m') : GoesOn m m' := by
  obtain ⟨hopen, stage', operations, hstep⟩ := reconcile_cases h
  unfold GoesOn
  rw [hstep.tasks]
  exact .set_append (fun _ => .same) ht (.reconcile hopen) (own_lookups _)

/-- A call of `reconcile` is cancelled. -/
theorem cancelReconcile_goesOn {desired : List (CameraDefinition Settings)}
    {stage : ReconcileStage Settings} (ht : m.tasks[i]? = some (.reconcile desired stage))
    (h : m.step cfg (.cancel i closed) = some m') : GoesOn m m' := by
  simp only [ManagerWorld.step, ht, Option.bind_some] at h
  cases stage with
  | ended result => cases h
  | snapshotting | removing | scanning | operating =>
    cases h
    exact .set (fun _ => .same) ht (.reconcile fun _ h => by cases h)

/-- A step that the service has no part in. -/
theorem outside_goesOn {act : ManagerAct Settings} (hout : ServiceWorld.outside m act = true)
    (h : m.step cfg act = some m') : GoesOn m m' := by
  -- a call of the manager appends a task of its own
  have hspawn : ∀ (op : Operation Settings), GoesOn m (m.spawn (.operation op .lookup)) := by
    intro op
    refine .append (fun _ => .same) ?_
    intro t hmem
    cases List.mem_singleton.mp hmem
    exact .operation
  cases act with
  | reconcile desired => cases hout
  | shutdown => cases hout
  | startCamera definition => cases h; exact hspawn _
  | stopCamera cameraId => cases h; exact hspawn _
  | restartCamera definition => cases h; exact hspawn _
  | run i closed =>
    obtain ⟨t, ht, hrun⟩ := Option.bind_eq_some_iff.mp h
    cases t with
    | operation op stage => exact operation_goesOn ht hrun
    | reconcile desired stage => exact reconcile_goesOn ht hrun
    | shutdown stage => exact shutdown_goesOn ht hrun
    | shutdownImpl stage => exact shutdownImpl_goesOn ht hrun
  -- only calls from outside the service may be cancelled here
  | cancel i closed =>
    obtain ⟨t, ht, hcancel⟩ := Option.bind_eq_some_iff.mp h
    simp only [ServiceWorld.outside, ht] at hout
    cases t with
    | operation op stage =>
      cases op with
      | shutdown cameraId => cases hcancel
      | start | restart | stop => exact cancelOperation_goesOn ht hcancel
    | reconcile | shutdown | shutdownImpl => cases hout
  | work k v' =>
    obtain ⟨v, -, hwork⟩ := Option.bind_eq_some_iff.mp h
    split at hwork <;> cases hwork
    exact .refl fun _ => .same
  | collect cameraId =>
    obtain ⟨lock, -, hcollect⟩ := Option.bind_eq_some_iff.mp h
    split at hcollect <;> cases hcollect
    exact .refl fun _ => .same

omit [DecidableEq Settings] in
/-- A new call of `shutdown`. -/
theorem spawn_goesOn : GoesOn m (m.spawn (.shutdown .entering)) := by
  refine .append (fun _ => .same) ?_
  intro t hmem
  cases List.mem_singleton.mp hmem
  exact .shutdown

/-! ### What is kept -/

omit [DecidableEq Settings]

/-- The call of `shutdown` is over. -/
def CallOver (m : ManagerWorld Settings) (call : Nat) : Prop :=
  ∃ result, m.tasks[call]? = some (.shutdown (.ended result))

/-- A call of `shutdown` goes on. -/
theorem GoesOn.shutdown_kept (h : GoesOn m m') {call : Nat} {stage : ShutdownStage}
    (ht : m.tasks[call]? = some (.shutdown stage)) :
    ∃ stage', m'.tasks[call]? = some (.shutdown stage') ∧
      (stage' = stage ∨ (∀ result, stage ≠ .ended result)) := by
  obtain ⟨t', ht', hfollows⟩ := h.kept call _ ht
  cases hfollows with
  | same => exact ⟨stage, ht', .inl rfl⟩
  | shutdown hopen _ => exact ⟨_, ht', .inr hopen⟩

/-- A call of `reconcile` goes on. -/
theorem GoesOn.reconcile_kept (h : GoesOn m m') {call : Nat}
    {desired : List (CameraDefinition Settings)} {stage : ReconcileStage Settings}
    (ht : m.tasks[call]? = some (.reconcile desired stage)) :
    ∃ stage', m'.tasks[call]? = some (.reconcile desired stage') := by
  obtain ⟨t', ht', hfollows⟩ := h.kept call _ ht
  cases hfollows with
  | same => exact ⟨stage, ht'⟩
  | reconcile _ => exact ⟨_, ht'⟩

/-- A call of `reconcile` that goes on was there before. -/
theorem GoesOn.reconcile_old (h : GoesOn m m') {call : Nat}
    {desired : List (CameraDefinition Settings)} {stage : ReconcileStage Settings}
    (ht : m'.tasks[call]? = some (.reconcile desired stage))
    (hopen : ∀ result, stage ≠ .ended result) :
    ∃ stage', m.tasks[call]? = some (.reconcile desired stage') ∧
      ∀ result, stage' ≠ .ended result := by
  rcases h.cases ht with ⟨t, hbefore, hfollows⟩ | ⟨-, hown⟩
  · cases hfollows with
    | same => exact ⟨stage, hbefore, hopen⟩
    | reconcile hbusy => exact ⟨_, hbefore, hbusy⟩
  · cases hown

/-- No call of `shutdown` was cancelled. -/
def Uncancelled (m : ManagerWorld Settings) : Prop :=
  ∀ call : Nat, m.tasks[call]? ≠ some (.shutdown (.ended (.error .cancelled)))

/-- The manager does not cancel the calls of its `shutdown`. -/
theorem GoesOn.uncancelled (h : GoesOn m m') (hm : Uncancelled m) : Uncancelled m' := by
  intro call ht
  rcases h.cases ht with ⟨t, hbefore, hfollows⟩ | ⟨-, hown⟩
  · cases hfollows with
    | same => exact hm call hbefore
    | shutdown _ hresult => exact hresult rfl
  · cases hown

end

end Rsap.Proofs
