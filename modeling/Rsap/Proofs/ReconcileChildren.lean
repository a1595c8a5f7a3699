import Rsap.Proofs.CameraOwnership
import Rsap.Proofs.WorkerViews

/-!
# `Rsap.Proofs.ReconcileChildren`: the operations that `reconcile` gathers

`Clean` is a step of a worker without an error: a worker that starts comes to run, a worker that is
closed stops, and a worker that runs goes on. `viewAt` is the registered worker of a camera.
`ChildHolds` is what the operation of one camera knows of that worker at each of its `await`s, as
long as nobody else calls the manager. A worker has a `Fault` for an operation when the operation
reports one after it stopped the worker. `section_child` is one stretch of such an operation: it
leaves the workers of the other cameras, and it comes nearer to its end.
-/

set_option autoImplicit false

namespace Rsap.Proofs

open Rsap.Library
open Rsap.Library.Machine (Path)
open Rsap.Orchestration

section
variable {Settings : Type} {cfg : ManagerConfig}

/-! ### Steps of a worker without an error -/

/-- Where a worker without an error goes on to. -/
def cleanStates : WorkerState → List WorkerState
  | .stopped => [.stopped]
  | .starting => .starting :: runningStates
  | .running | .reconnecting => runningStates
  | .stopping => [.stopping, .stopped]
  | .failed => [.failed]

/-- The tasks of a worker take its view from `v` to `v'` without an error. -/
structure Clean (v v' : WorkerView Settings) : Prop where
  evolves : v.Evolves v'
  reported : Reported v'
  failures : v'.shutdownFailures = v.shutdownFailures
  states : v'.state ∈ cleanStates v.state
  -- a worker that noted a failure of its cleanup is past its start
  woken : v.state = .starting → v'.state ∈ runningStates → v.shutdownFailures = []
  started : v.state ∈ .starting :: runningStates →
    v'.started = v.started ∨ v'.started = .resolved ∧ v'.state ∈ runningStates

instance [DecidableEq Settings] (v v' : WorkerView Settings) : Decidable (Clean v v') :=
  decidable_of_iff
    (v.Evolves v' ∧ Reported v' ∧ v'.shutdownFailures = v.shutdownFailures ∧
      v'.state ∈ cleanStates v.state ∧
      (v.state = .starting → v'.state ∈ runningStates → v.shutdownFailures = []) ∧
      (v.state ∈ .starting :: runningStates →
        v'.started = v.started ∨ v'.started = .resolved ∧ v'.state ∈ runningStates))
    ⟨fun ⟨hevolves, hreported, hfailures, hstates, hwoken, hstarted⟩ =>
        ⟨hevolves, hreported, hfailures, hstates, hwoken, hstarted⟩,
      fun ⟨hevolves, hreported, hfailures, hstates, hwoken, hstarted⟩ =>
        ⟨hevolves, hreported, hfailures, hstates, hwoken, hstarted⟩⟩

/-- A worker that steps without an error fails neither more nor less. -/
theorem cleanStates_failed {s s' : WorkerState} (h : s' ∈ cleanStates s) :
    s' = .failed ↔ s = .failed := by
  revert h
  cases s <;> cases s' <;> decide

/-- A running worker that steps without an error goes on running. -/
theorem cleanStates_running {s s' : WorkerState} (h : s' ∈ cleanStates s)
    (hs : s ∈ runningStates) : s' ∈ runningStates := by
  revert h hs
  cases s <;> cases s' <;> decide

/-- A worker that is starting or running goes on doing so. -/
theorem cleanStates_busy {s s' : WorkerState} (h : s' ∈ cleanStates s)
    (hs : s ∈ .starting :: runningStates) : s' ∈ .starting :: runningStates := by
  revert h hs
  cases s <;> cases s' <;> decide

/-- A worker that comes to run was starting. -/
theorem cleanStates_woken {s s' : WorkerState} (h : s' ∈ cleanStates s)
    (hs : s' ∈ runningStates) : s ∈ runningStates ∨ s = .starting := by
  revert h hs
  cases s <;> cases s' <;> decide

/-- Such steps compose. -/
theorem cleanStates_trans {s s' s'' : WorkerState} (h : s' ∈ cleanStates s)
    (h' : s'' ∈ cleanStates s') : s'' ∈ cleanStates s := by
  revert h h'
  cases s <;> cases s' <;> cases s'' <;> decide

/-- A worker can stay where it is. -/
theorem cleanStates_self (s : WorkerState) : s ∈ cleanStates s := by
  cases s <;> decide

/-- A worker that is starting or runs is not done. -/
theorem live_of_busy {v : WorkerView Settings} (h : v.Consistent)
    (hbusy : v.state ∈ .starting :: runningStates) : v.live = true := by
  by_contra hdone
  have hover := h.ended (Bool.eq_false_iff.mpr hdone)
  revert hbusy hover
  cases v.state <;> decide

/-- No step is one without an error. -/
theorem Clean.refl {v : WorkerView Settings} (hv : v.Consistent) (hreported : Reported v) :
    Clean v v where
  evolves := ⟨rfl, rfl, hv, fun _ => rfl, fun _ => rfl⟩
  reported := hreported
  failures := rfl
  states := cleanStates_self v.state
  woken hstarting hruns := by
    rw [hstarting] at hruns
    exact absurd hruns (by decide)
  started _ := .inl rfl

/-- Two stretches without an error are one. -/
theorem Clean.trans {v v' v'' : WorkerView Settings} (h : Clean v v') (h' : Clean v' v'') :
    Clean v v'' where
  evolves :=
    { definition := h'.evolves.definition.trans h.evolves.definition
      generation := h'.evolves.generation.trans h.evolves.generation
      consistent := h'.evolves.consistent
      finished := by
        intro hdone
        have hsame := h.evolves.finished hdone
        rw [h'.evolves.finished (hsame ▸ hdone), hsame]
      started := by
        intro hsettled
        have hsame := h.evolves.started hsettled
        rw [h'.evolves.started (hsame ▸ hsettled), hsame] }
  reported := h'.reported
  failures := h'.failures.trans h.failures
  states := cleanStates_trans h.states h'.states
  -- a worker that runs in the end did so in between, or was starting there
  woken := by
    intro hstarting hruns
    rcases cleanStates_woken h'.states hruns with hbefore | hbefore
    · exact h.woken hstarting hbefore
    · rw [← h.failures]
      exact h'.woken hbefore hruns
  -- the future is settled by one of the two steps, and stays so
  started := by
    intro hbusy
    rcases h'.started (cleanStates_busy h.states hbusy) with hsame | hresolved
    · rcases h.started hbusy with hbefore | ⟨hbefore, hruns⟩
      · exact .inl (hsame.trans hbefore)
      · exact .inr ⟨hsame.trans hbefore, cleanStates_running h'.states hruns⟩
    · exact .inr hresolved

/-! ### The registered worker of a camera -/

/-- The registered worker of the camera. -/
def viewAt (r : Registry Settings) (c : String) : Option (WorkerView Settings) :=
  (r.workers.lookup c).bind fun k => r.objects[k]?

/-- The registered worker is the one of its entry. -/
theorem viewAt_registered {r : Registry Settings} {c : String} {k : Nat}
    (hk : r.workers.lookup c = some k) : viewAt r c = r.objects[k]? := by
  rw [viewAt, hk]
  rfl

/-- A camera without an entry has no registered worker, and conversely. -/
theorem viewAt_none {r : Registry Settings} (hr : RegistryOwned cfg r) {c : String} :
    viewAt r c = none ↔ r.workers.lookup c = none := by
  unfold viewAt
  cases hlookup : r.workers.lookup c with
  | none => exact iff_of_true rfl rfl
  | some k =>
    obtain ⟨v, hv, -⟩ := hr.entry c k hlookup
    refine iff_of_false ?_ (by simp)
    rw [Option.bind_some, hv]
    simp

/-- Entries and workers decide what is registered. -/
theorem viewAt_congr {r r' : Registry Settings} (hworkers : r'.workers = r.workers)
    (hobjects : r'.objects = r.objects) (c : String) : viewAt r' c = viewAt r c := by
  rw [viewAt, viewAt, hworkers, hobjects]

/-- One worker changes. -/
theorem viewAt_set {r r' : Registry Settings} {k : Nat} {v v' : WorkerView Settings}
    (hv : r.objects[k]? = some v) (hworkers : r'.workers = r.workers)
    (hobjects : r'.objects = r.objects.set k v') (c : String) :
    viewAt r' c = if r.workers.lookup c = some k then some v' else viewAt r c := by
  rw [viewAt, viewAt, hworkers, hobjects]
  have hlt : k < r.objects.length := (List.getElem?_eq_some_iff.mp hv).1
  split
  · rename_i hk
    rw [hk]
    exact List.getElem?_set_self hlt
  · rename_i hne
    cases hlookup : r.workers.lookup c with
    | none => rfl
    | some j =>
      have hjk : k ≠ j := by
        rintro rfl
        exact hne hlookup
      exact List.getElem?_set_ne hjk

/-- A worker is registered for one camera. -/
theorem RegistryOwned.only {r : Registry Settings} (hr : RegistryOwned cfg r) {c c' : String}
    {k : Nat} (hk : r.workers.lookup c = some k) (hk' : r.workers.lookup c' = some k) :
    c' = c := by
  obtain ⟨v, hv, hcamera⟩ := hr.entry c k hk
  obtain ⟨v', hv', hcamera'⟩ := hr.entry c' k hk'
  rw [hv] at hv'
  cases hv'
  exact hcamera'.symm.trans hcamera

/-- `stop` changes the worker of its camera. -/
theorem viewAt_stop {r : Registry Settings} (hr : RegistryOwned cfg r) {c : String} {k : Nat}
    {v : WorkerView Settings} (hk : r.workers.lookup c = some k) (hv : r.objects[k]? = some v)
    (closed : Option OrchestrationFailure) :
    viewAt (r.stopWorker cfg k v closed) c = some (v.stopping.closeCapture closed) ∧
      ∀ c', c' ≠ c → viewAt (r.stopWorker cfg k v closed) c' = viewAt r c' := by
  have hworkers : (r.stopWorker cfg k v closed).workers = r.workers :=
    stopWorker_workers r k v closed
  have hset := viewAt_set hv hworkers (stopWorker_objects r k v closed)
  refine ⟨(hset c).trans (if_pos hk), fun c' hc => (hset c').trans (if_neg fun hk' => ?_)⟩
  exact hc (hr.only hk hk')

/-- `_remove_worker` removes the worker of its camera. -/
theorem viewAt_remove {r : Registry Settings} {c : String} {k : Nat}
    (hk : r.workers.lookup c = some k) :
    viewAt (r.removeWorker c k) c = none ∧
      ∀ c', c' ≠ c → viewAt (r.removeWorker c k) c' = viewAt r c' := by
  have heq : r.removeWorker c k = { r with workers := r.workers.erase c } := if_pos hk
  rw [heq]
  constructor
  · simp only [viewAt, AList.lookup_erase, Option.bind_none]
  · intro c' hc
    simp only [viewAt, AList.lookup_erase_ne hc]

/-- A new worker is the worker of its camera. -/
theorem viewAt_new {r : Registry Settings} (hr : RegistryOwned cfg r)
    (definition : CameraDefinition Settings) :
    (∃ generation, viewAt (r.newWorker cfg definition) definition.cameraId =
        some (.new definition generation)) ∧
      ∀ c', c' ≠ definition.cameraId → viewAt (r.newWorker cfg definition) c' = viewAt r c' := by
  constructor
  · exact ⟨(r.generations.lookup definition.cameraId).getD 0 + 1,
      (viewAt_registered (AList.lookup_insert r.workers)).trans List.getElem?_concat_length⟩
  · intro c' hc
    have hlookup : (r.newWorker cfg definition).workers.lookup c' = r.workers.lookup c' :=
      AList.lookup_insert_ne hc
    unfold viewAt
    rw [hlookup]
    cases hold : r.workers.lookup c' with
    | none => rfl
    | some j =>
      obtain ⟨v, hv, -⟩ := hr.entry c' j hold
      exact List.getElem?_append_left (List.getElem?_eq_some_iff.mp hv).1

/-! ### What an operation knows of its worker -/

/-- The operation reports an error after it stopped the worker. Only `stop_camera` looks at the
state. -/
def Fault (op : Operation Settings) (v : WorkerView Settings) : Prop :=
  v.shutdownFailures ≠ [] ∨ v.state = .failed ∧ ∃ c, op = .stop c

/-- The operation stops a registered worker. -/
def Replaces (op : Operation Settings) : Prop :=
  (∃ c, op = .stop c) ∨ ∃ definition, op = .restart definition

/-- The worker runs with the definition that the operation starts. -/
def Runs (op : Operation Settings) (v : WorkerView Settings) : Prop :=
  v.state ∈ runningStates ∧ Starts op v.definition

/-- Before the operation looks for its worker. `bad` says that the operation will report an
error. -/
inductive Waiting (bad : Prop) (op : Operation Settings) : Option (WorkerView Settings) → Prop
  | absent (definition : CameraDefinition Settings) (start : op = .start definition)
      (good : ¬ bad) : Waiting bad op none
  | present (v : WorkerView Settings) (replaces : Replaces op) (fault : Fault op v ↔ bad) :
      Waiting bad op (some v)

/-- How the operation ends. -/
inductive Finished (bad : Prop) (op : Operation Settings) :
    Option (WorkerView Settings) → OperationEnd → Prop
  | started (v : WorkerView Settings) (result : LifecycleOperationResult) (good : ¬ bad)
      (runs : Runs op v) : Finished bad op (some v) (.returned result)
  | stopped (c : String) (stop : op = .stop c) (result : LifecycleOperationResult)
      (failed : result.outcome = .failed ↔ bad)
      (reported : result.outcome = .failed → result.error ≠ none) :
      Finished bad op none (.returned result)
  | raised (o : Option (WorkerView Settings)) (definition : CameraDefinition Settings)
      (starts : Starts op definition) (failures : List OrchestrationFailure) (failed : bad) :
      Finished bad op o (.raised (.shutdown failures))

/-- What the operation knows of the registered worker `o` of its camera. -/
inductive ChildHolds (bad : Prop) (op : Operation Settings) (o : Option (WorkerView Settings)) :
    Stage Settings → Prop
  | lookup (waiting : Waiting bad op o) : ChildHolds bad op o .lookup
  | locking (lock : Nat) (waiting : Waiting bad op o) : ChildHolds bad op o (.locking lock)
  | finding (lock : Nat) (waiting : Waiting bad op o) :
      ChildHolds bad op o (.inside lock .finding)
  | stopping (lock k : Nat) (v : WorkerView Settings) (view : o = some v)
      (replaces : Replaces op) (fault : Fault op v ↔ bad)
      (stopping : v.live = true → v.state = .stopping) :
      ChildHolds bad op o (.inside lock (.stopping k))
  | removing (lock k : Nat) (v : WorkerView Settings) (failures : List OrchestrationFailure)
      (view : o = some v) (replaces : Replaces op) (fault : Fault op v ↔ bad)
      (done : v.live = false) : ChildHolds bad op o (.inside lock (.removing k v.status failures))
  | registering (lock : Nat) (definition : CameraDefinition Settings) (view : o = none)
      (good : ¬ bad) : ChildHolds bad op o (.inside lock (.registering definition))
  | starting (lock k : Nat) (v : WorkerView Settings) (view : o = some v) (good : ¬ bad)
      (starts : Starts op v.definition) (busy : v.state ∈ .starting :: runningStates)
      (clean : v.shutdownFailures = [])
      (started : v.started = .pending ∨ v.started = .resolved ∧ v.state ∈ runningStates) :
      ChildHolds bad op o (.inside lock (.starting k))
  | admitting (lock k : Nat) (v : WorkerView Settings) (status : CameraStatus)
      (view : o = some v) (good : ¬ bad) (runs : Runs op v) :
      ChildHolds bad op o (.inside lock (.admitting k status))
  | ended (result : OperationEnd) (finished : Finished bad op o result) :
      ChildHolds bad op o (.ended result)

variable {bad : Prop} {op : Operation Settings}

/-- A worker that steps without an error gains and loses no fault. -/
theorem Clean.fault {v v' : WorkerView Settings} (h : Clean v v') : Fault op v' ↔ Fault op v := by
  unfold Fault
  rw [h.failures, cleanStates_failed h.states]

/-- A worker that runs with its definition goes on doing so. -/
theorem Clean.runs {v v' : WorkerView Settings} (h : Clean v v') (hruns : Runs op v) :
    Runs op v' :=
  ⟨cleanStates_running h.states hruns.1, h.evolves.definition ▸ hruns.2⟩

/-- A step of the worker without an error leaves what the operation knows. -/
theorem child_clean {v v' : WorkerView Settings} {stage : Stage Settings} (hclean : Clean v v')
    (h : ChildHolds bad op (some v) stage) : ChildHolds bad op (some v') stage := by
  -- a fault of the view is a matter of the worker before it
  have hwaiting : Waiting bad op (some v) → Waiting bad op (some v') := by
    intro hwaiting
    cases hwaiting with
    | present _ replaces fault => exact .present v' replaces (hclean.fault.trans fault)
  cases h with
  | lookup waiting => exact .lookup (hwaiting waiting)
  | locking lock waiting => exact .locking lock (hwaiting waiting)
  | finding lock waiting => exact .finding lock (hwaiting waiting)
  -- a live worker is still stopping, as its stop cannot be taken back
  | stopping lock k u view replaces fault stopping =>
    cases view
    refine .stopping lock k v' rfl replaces (hclean.fault.trans fault) fun hlive => ?_
    have hbefore : v.live = true := by
      by_contra hdone
      rw [hclean.evolves.finished (Bool.eq_false_iff.mpr hdone)] at hlive
      exact hdone hlive
    have hstates := hclean.states
    rw [stopping hbefore] at hstates
    rcases List.mem_cons.mp hstates with hstate | hstate
    · exact hstate
    · exact absurd (List.mem_singleton.mp hstate) (hclean.evolves.consistent.live hlive).1
  -- a worker that is done does not change
  | removing lock k u failures view replaces fault done =>
    cases view
    rw [hclean.evolves.finished done]
    exact .removing lock k v failures rfl replaces fault done
  | registering lock definition view good => cases view
  -- it has not been stopped yet, and the future may be resolved by now
  | starting lock k u view good starts busy clean started =>
    cases view
    refine .starting lock k v' rfl good (hclean.evolves.definition ▸ starts)
      (cleanStates_busy hclean.states busy) (hclean.failures.trans clean) ?_
    rcases hclean.started busy with hsame | hresolved
    · rw [hsame]
      exact started.imp_right fun ⟨hstarted, hruns⟩ =>
        ⟨hstarted, cleanStates_running hclean.states hruns⟩
    · exact .inr hresolved
  | admitting lock k u status view good runs =>
    cases view
    exact .admitting lock k v' status rfl good (hclean.runs runs)
  | ended result finished =>
    refine .ended result ?_
    cases finished with
    | started _ result good runs => exact .started v' result good (hclean.runs runs)
    | raised _ definition starts failures failed =>
      exact .raised (some v') definition starts failures failed

/-! ### One stretch of an operation -/

/-- How far an operation inside the lock is from its end. -/
def sectionWeight : Section Settings → Nat
  | .finding => 10
  | .stopping _ => 9
  | .removing _ _ _ => 8
  | .registering _ => 7
  | .starting _ => 6
  | .cancelling _ => 5
  | .waiting _ _ => 4
  | .dropping _ _ => 3
  | .admitting _ _ => 3
  | .withdrawing _ _ => 2
  | .expelling _ _ => 1

/-- How far an operation is from its end. -/
def stageWeight : Stage Settings → Nat
  | .lookup => 13
  | .locking _ => 12
  | .inside _ place => sectionWeight place + 1
  | .ended _ => 0

/-- Every worker is consistent and shows its failures. -/
def SoundViews (r : Registry Settings) : Prop :=
  ∀ (k : Nat) v, r.objects[k]? = some v → v.Consistent ∧ Reported v

/-- A stretch of an operation that leaves the workers of the other cameras. -/
structure SectionStep (bad : Prop) (op : Operation Settings) (lock : Nat)
    (r r' : Registry Settings) (progress : Progress Settings) : Prop where
  holds : ChildHolds bad op (viewAt r' op.cameraId) (progress.stage lock)
  elsewhere : ∀ c, c ≠ op.cameraId → viewAt r' c = viewAt r c
  views : SoundViews r'
  admission : r'.admissionClosed = r.admissionClosed

/-- The worker after the transition of `stop`. -/
theorem stopping_view {v : WorkerView Settings} (hv : v.Consistent) (hreported : Reported v) :
    v.stopping.Consistent ∧ Reported v.stopping ∧ (Fault op v.stopping ↔ Fault op v) ∧
      (v.stopping.live = true → v.stopping.state = .stopping) := by
  unfold WorkerView.stopping
  split
  · rename_i hlive
    have hnot : v.state ≠ .failed := (hv.live hlive.1).2
    refine ⟨⟨fun _ => ⟨(by simp), (by simp)⟩, fun hdone => ?_, fun hdone => ?_⟩,
      fun hdone => ?_, ?_,
      fun _ => rfl⟩
    · exact absurd hlive.1 (Bool.eq_false_iff.mp hdone)
    · exact absurd hlive.1 (Bool.eq_false_iff.mp hdone)
    · exact absurd hlive.1 (Bool.eq_false_iff.mp hdone)
    · simp [Fault, hnot]
  · rename_i hrest
    refine ⟨hv, hreported, .rfl, fun hlive => ?_⟩
    have hbusy := hv.live hlive
    have hstates : v.state ∉ [.starting, .running, .reconnecting] := fun h => hrest ⟨hlive, h⟩
    revert hbusy hstates
    cases v.state <;> decide

/-- `stop` of the registered worker, when its capture closes. -/
theorem stop_child {r : Registry Settings} (hr : RegistryOwned cfg r) (hviews : SoundViews r)
    {k : Nat} {v : WorkerView Settings} (hk : r.workers.lookup op.cameraId = some k)
    (hv : r.objects[k]? = some v) (hreplaces : Replaces op) (hfault : Fault op v ↔ bad)
    (lock : Nat) : SectionStep bad op lock r (r.stopWorker cfg k v none) (.next (.stopping k)) := by
  obtain ⟨hconsistent, hreported⟩ := hviews k v hv
  obtain ⟨hconsistent', hreported', (hsame : Fault op _ ↔ _), hstopping⟩ :=
    stopping_view hconsistent hreported
  obtain ⟨hview, helse⟩ := viewAt_stop hr hk hv none
  constructor
  case holds =>
    exact .stopping lock k v.stopping hview hreplaces (hsame.trans hfault) hstopping
  case elsewhere => exact helse
  case views =>
    intro j u hu
    rw [stopWorker_objects, List.getElem?_set] at hu
    split at hu
    · split at hu <;> cases hu
      exact ⟨hconsistent', hreported'⟩
    · exact hviews j u hu
  case admission => exact setWorker_admission r k v _

/-- A stretch that changes no worker and no entry. -/
theorem same_child {r r' : Registry Settings} {lock : Nat} {progress : Progress Settings}
    (hviews : SoundViews r) (hworkers : r'.workers = r.workers) (hobjects : r'.objects = r.objects)
    (hadmission : r'.admissionClosed = r.admissionClosed)
    (holds : ChildHolds bad op (viewAt r op.cameraId) (progress.stage lock)) :
    SectionStep bad op lock r r' progress where
  holds := by rwa [viewAt_congr hworkers hobjects]
  elsewhere c _ := viewAt_congr hworkers hobjects c
  views k v hv := hviews k v (hobjects ▸ hv)
  admission := hadmission

/-- The operation finds its worker, and goes on by what it found. -/
theorem found_child {r r' : Registry Settings} (hr : RegistryOwned cfg r) (hviews : SoundViews r)
    {lock : Nat} {progress : Progress Settings} (h : Waiting bad op (viewAt r op.cameraId))
    (hrun : found cfg r op none = some (r', progress)) :
    SectionStep bad op lock r r' progress := by
  unfold found at hrun
  split at hrun
  · rename_i habsent
    have hview := (viewAt_none hr).mpr habsent
    rw [hview] at h
    cases h with
    | absent definition start good =>
      subst start
      cases hrun
      exact same_child hviews rfl rfl rfl (.registering lock definition hview good)
  · rename_i k hk
    obtain ⟨v, hv, hnext⟩ := Option.bind_eq_some_iff.mp hrun
    rw [viewAt_registered hk, hv] at h
    cases h with
    | present _ replaces fault =>
      have hstop := stop_child hr hviews hk hv replaces fault lock
      rcases replaces with ⟨c, rfl⟩ | ⟨definition, rfl⟩ <;>
        · cases hnext
          exact hstop

/-- After the removal of the worker that was stopped. -/
theorem removed_child {r : Registry Settings} (hviews : SoundViews r) {lock k : Nat}
    {v : WorkerView Settings} (hk : r.workers.lookup op.cameraId = some k)
    (hv : r.objects[k]? = some v) (hdone : v.live = false) (hreplaces : Replaces op)
    (hfault : Fault op v ↔ bad) (failures : List OrchestrationFailure) :
    SectionStep bad op lock r (r.removeWorker op.cameraId k)
      (removed op v v.status failures) := by
  obtain ⟨hview, helse⟩ := viewAt_remove hk
  have heq : r.removeWorker op.cameraId k =
      { r with workers := r.workers.erase op.cameraId } := if_pos hk
  have hreported := (hviews k v hv).2 hdone
  constructor
  case holds =>
    rw [hview]
    -- a stop answers with the last status, a replacement registers the next worker
    rcases hreplaces with ⟨c, rfl⟩ | ⟨definition, rfl⟩
    · have hfailed : v.status.state = .failed ∨ v.shutdownFailures ≠ [] ↔ bad := by
        rw [← hfault, Fault, or_comm]
        simp [WorkerView.status]
      refine .ended _ (.stopped c rfl _ ?_ ?_)
      · simp only [operationResult]
        split
        · rename_i hyes
          exact iff_of_true rfl (hfailed.mp hyes)
        · rename_i hno
          exact iff_of_false (by decide) fun hbad => hno (hfailed.mpr hbad)
      · intro hbad
        simp only [operationResult] at hbad
        split at hbad
        · rename_i hyes
          exact hreported hyes
        · cases hbad
    -- the old worker's failures stop the replacement
    · have hfailures : v.shutdownFailures ≠ [] ↔ bad := by
        rw [← hfault]
        simp [Fault]
      simp only [removed]
      split
      · rename_i hyes
        exact .ended _ (.raised none definition (.inr rfl) _ (hfailures.mp hyes))
      · rename_i hno
        exact .registering lock definition rfl fun hbad => hno (hfailures.mpr hbad)
  case elsewhere => exact helse
  case views =>
    rw [heq]
    exact hviews
  case admission => rw [heq]

/-- The registration of a new worker, when there is room for it. -/
theorem register_child {r r' : Registry Settings} (hr : RegistryOwned cfg r)
    (hviews : SoundViews r) (hopen : r.admissionClosed = false)
    (hroom : r.workers.keys.length < cfg.maxActiveWorkers.val) {lock : Nat}
    {definition : CameraDefinition Settings} {progress : Progress Settings}
    (hstarts : Starts op definition) (hgood : ¬ bad)
    (hrun : register cfg r definition = (r', progress)) :
    SectionStep bad op lock r r' progress := by
  -- admission is open and there is room, so the start goes on
  have hadmitted : r.ensureAdmissionOpen cfg (some definition.cameraId) = none := by
    simp [Registry.ensureAdmissionOpen, hopen]
  have hcamera := hstarts.camera
  unfold register at hrun
  rw [hadmitted, if_neg (Nat.not_le_of_lt hroom)] at hrun
  cases hrun
  obtain ⟨⟨generation, hview⟩, helse⟩ := viewAt_new hr definition
  rw [← hcamera] at hview helse
  constructor
  case holds =>
    exact .starting lock _ _ hview hgood hstarts (by simp [WorkerView.new]) rfl (.inl rfl)
  case elsewhere => exact helse
  -- the new worker is consistent, and the others are as they were
  case views =>
    intro j u hu
    rcases List.mem_append.mp (List.mem_of_getElem? hu) with hold | hnew
    · obtain ⟨i, hi⟩ := List.mem_iff_getElem?.mp hold
      exact hviews i u hi
    · cases List.mem_singleton.mp hnew
      exact ⟨⟨fun _ => ⟨(by simp [WorkerView.new]), (by simp [WorkerView.new])⟩,
        fun h => (by cases h), fun h => (by cases h)⟩, fun h => (by cases h)⟩
  case admission => rfl

/-- Every stretch of such an operation inside its lock. -/
theorem section_child {r r' : Registry Settings} (hr : RegistryOwned cfg r)
    (hviews : SoundViews r) (hopen : r.admissionClosed = false)
    (hroom : ∀ definition, Starts op definition → r.workers.lookup op.cameraId = none →
      r.workers.keys.length < cfg.maxActiveWorkers.val)
    {lock : Nat} {place : Section Settings} {progress : Progress Settings}
    (hplace : SectionHolds r op.cameraId place) (hfits : PlaceFits op place)
    (h : ChildHolds bad op (viewAt r op.cameraId) (.inside lock place))
    (hrun : runSection cfg r op none place = some (r', progress)) :
    SectionStep bad op lock r r' progress := by
  cases h with
  -- each place of the section has its own step lemma, or leaves the workers alone
  | finding _ waiting => exact found_child hr hviews waiting hrun
  -- the wait for the worker goes on only when it has ended
  | stopping _ k v view replaces fault stopping =>
    rw [viewAt_registered hplace] at view
    obtain ⟨u, hu, hnext⟩ := Option.bind_eq_some_iff.mp hrun
    rw [view] at hu
    cases hu
    split at hnext
    · cases hnext
    · rename_i hdone
      cases hnext
      refine same_child hviews rfl rfl rfl
        (.removing lock k v _ ?_ replaces fault (Bool.eq_false_iff.mpr hdone))
      exact (viewAt_registered hplace).trans view
  | removing _ k v failures view replaces fault done =>
    rw [viewAt_registered hplace.1] at view
    obtain ⟨u, hu, hnext⟩ := Option.map_eq_some_iff.mp hrun
    rw [view] at hu
    cases hu
    cases hnext
    exact removed_child hviews hplace.1 view done replaces fault failures
  | registering _ definition view good =>
    exact register_child hr hviews hopen (hroom definition hfits hplace) hfits good
      (Option.some.inj hrun)
  -- the wait for the future ends when it is resolved, and a clean start does not reject it
  | starting _ k v view good starts busy clean started =>
    obtain ⟨u, hu, hnext⟩ := Option.bind_eq_some_iff.mp hrun
    have hview := view
    rw [viewAt_registered hplace, hu] at hview
    cases hview
    rcases started with hpending | ⟨hresolved, hruns⟩
    · rw [hpending] at hnext
      cases hnext
    · rw [hresolved] at hnext
      cases hnext
      exact same_child hviews rfl rfl rfl (.admitting lock k _ _ view good ⟨hruns, starts⟩)
  | admitting _ k v status view good runs =>
    obtain ⟨u, hu, hnext⟩ := Option.map_eq_some_iff.mp hrun
    rw [if_neg (Bool.eq_false_iff.mp hopen)] at hnext
    cases hnext
    exact same_child hviews rfl rfl rfl (.ended _ (view ▸ .started v _ good runs))

/-- Every stretch inside a lock brings an operation nearer to its end. -/
theorem section_weight {r r' : Registry Settings} {closed : Option OrchestrationFailure}
    {place place' : Section Settings}
    (h : runSection cfg r op closed place = some (r', .next place')) :
    sectionWeight place' < sectionWeight place := by
  -- every step of the section lowers its weight, so it cannot run forever
  cases place with
  | finding =>
    simp only [runSection, found] at h
    split at h
    · cases op <;> cases h <;> simp [sectionWeight]
    · obtain ⟨v, -, hnext⟩ := Option.bind_eq_some_iff.mp h
      cases op with
      | start definition =>
        simp only at hnext
        split at hnext <;> cases hnext
        simp [sectionWeight]
      | restart definition | stop c | shutdown c =>
        cases hnext
        simp [sectionWeight]
  | stopping k =>
    obtain ⟨v, -, hnext⟩ := Option.bind_eq_some_iff.mp h
    split at hnext <;> cases hnext
    simp [sectionWeight]
  | removing k status failures =>
    obtain ⟨v, -, hnext⟩ := Option.map_eq_some_iff.mp h
    cases op with
    | start definition | restart definition =>
      simp only [removed] at hnext
      split at hnext <;> cases hnext
      simp [sectionWeight]
    | stop c | shutdown c => cases hnext
  | registering definition =>
    simp only [runSection, register] at h
    split at h
    · cases h
    · split at h <;> cases h
      simp [sectionWeight]
  | starting k =>
    obtain ⟨v, -, hnext⟩ := Option.bind_eq_some_iff.mp h
    split at hnext <;> cases hnext <;> simp [sectionWeight]
  | cancelling k =>
    obtain ⟨v, -, hnext⟩ := Option.bind_eq_some_iff.mp h
    split at hnext <;> cases hnext
    simp [sectionWeight]
  | waiting k error =>
    obtain ⟨v, -, hnext⟩ := Option.bind_eq_some_iff.mp h
    split at hnext <;> cases hnext
    simp [sectionWeight]
  | dropping k error => cases h
  | admitting k status =>
    obtain ⟨v, -, hnext⟩ := Option.map_eq_some_iff.mp h
    split at hnext <;> cases hnext
    simp [sectionWeight]
  | withdrawing k status =>
    obtain ⟨v, -, hnext⟩ := Option.bind_eq_some_iff.mp h
    split at hnext <;> cases hnext
    simp [sectionWeight]
  | expelling k status =>
    simp only [runSection] at h
    split at h <;> cases h

/-- A stretch of an operation that nobody disturbs. -/
structure ChildStep (bad : Prop) (op : Operation Settings) (i : Nat) (stage : Stage Settings)
    (w w' : ManagerWorld Settings) (stage' : Stage Settings) : Prop where
  tasks : w'.tasks = w.tasks.set i (.operation op stage')
  nearer : stageWeight stage' < stageWeight stage
  holds : ChildHolds bad op (viewAt w'.registry op.cameraId) stage'
  elsewhere : ∀ c, c ≠ op.cameraId → viewAt w'.registry c = viewAt w.registry c
  views : SoundViews w'.registry
  admission : w'.registry.admissionClosed = w.registry.admissionClosed

/-- A stretch of an operation that nobody disturbs, by its stage. -/
theorem operation_child {w w' : ManagerWorld Settings} {i : Nat} {stage : Stage Settings}
    (howned : Owned cfg w) (hviews : SoundViews w.registry)
    (hopen : w.registry.admissionClosed = false)
    (hroom : ∀ definition, Starts op definition →
      w.registry.workers.lookup op.cameraId = none →
      w.registry.workers.keys.length < cfg.maxActiveWorkers.val)
    (ht : w.tasks[i]? = some (.operation op stage))
    (h : ChildHolds bad op (viewAt w.registry op.cameraId) stage)
    (hrun : w.runOperation cfg i none op stage = some w') :
    ∃ stage', ChildStep bad op i stage w w' stage' := by
  cases stage with
  -- the lock of the camera is found or made
  | lookup =>
    cases h with
    | lookup waiting =>
      cases hrun
      unfold ManagerWorld.getCameraLock
      split
      · rename_i lock hlock
        exact ⟨.locking lock, rfl, Nat.lt_succ_self _,
          .locking lock waiting, fun _ _ => rfl, hviews, rfl⟩
      · exact ⟨.locking w.locks, rfl, Nat.lt_succ_self _,
          .locking _ waiting, fun _ _ => rfl, hviews, rfl⟩
  -- a free lock is taken
  | locking lock =>
    cases h with
    | locking _ waiting =>
      simp only [ManagerWorld.runOperation] at hrun
      split at hrun <;> cases hrun
      exact ⟨.inside lock .finding, rfl, (by simp [stageWeight, sectionWeight]),
        .finding lock waiting, fun _ _ => rfl, hviews, rfl⟩
  -- inside the section the step lemma of the place applies
  | inside lock place =>
    obtain ⟨⟨r, progress⟩, hsection, rfl⟩ := Option.map_eq_some_iff.mp hrun
    have hstep := section_child howned.registry hviews hopen hroom
      (howned.places i op lock place ht)
      (howned.fits i op lock place ht) h hsection
    refine ⟨progress.stage lock, rfl, ?_, hstep.holds, hstep.elsewhere, hstep.views,
      hstep.admission⟩
    cases progress with
    | next place' => exact Nat.succ_lt_succ (section_weight hsection)
    | ended result => exact Nat.succ_pos _
  | ended result => cases hrun

/-! ### An operation can go on -/

/-- Every camera has a lock of its own. -/
structure LocksApart (w : ManagerWorld Settings) : Prop where
  bounded : ∀ c lock, w.cameraLocks.lookup c = some lock → lock < w.locks
  apart : ∀ c c' lock, w.cameraLocks.lookup c = some lock → w.cameraLocks.lookup c' = some lock →
    c' = c

/-- The lock for a camera is its own one, or a new one. -/
theorem getCameraLock_apart {w : ManagerWorld Settings} (h : LocksApart w) (i : Nat)
    (op : Operation Settings) : LocksApart (w.getCameraLock i op) := by
  unfold ManagerWorld.getCameraLock
  split
  · exact ⟨h.bounded, h.apart⟩
  -- a lock of the new table is the new one or an old one
  · have hcases : ∀ c lock, (w.cameraLocks.insert op.cameraId w.locks).lookup c = some lock →
        c = op.cameraId ∧ lock = w.locks ∨ w.cameraLocks.lookup c = some lock := by
      intro c lock hlookup
      by_cases hc : c = op.cameraId
      · subst hc
        rw [AList.lookup_insert] at hlookup
        exact .inl ⟨rfl, (Option.some.inj hlookup).symm⟩
      · rw [AList.lookup_insert_ne hc] at hlookup
        exact .inr hlookup
    constructor
    case bounded =>
      intro c lock hlookup
      show lock < w.locks + 1
      rcases hcases c lock hlookup with ⟨-, rfl⟩ | hold
      · omega
      · have := h.bounded c lock hold
        omega
    -- the new lock has a number that no old lock has
    case apart =>
      intro c c' lock hlookup hlookup'
      rcases hcases c lock hlookup with ⟨hc, hlock⟩ | hold <;>
        rcases hcases c' lock hlookup' with ⟨hc', hlock'⟩ | hold'
      · exact hc'.trans hc.symm
      · have := h.bounded c' lock hold'
        omega
      · have := h.bounded c lock hold
        omega
      · exact h.apart c c' lock hold hold'

variable [DecidableEq Settings]

/-- Nobody else calls the manager, nobody is cancelled, captures close and workers take their steps
without an error. -/
def Undisturbed (w : ManagerWorld Settings) : ManagerAct Settings → Prop
  | .run _ closed => closed = none
  | .work k v' => ∀ v ∈ w.registry.objects[k]?, Clean v v'
  | .collect _ => True
  | _ => False

instance (w : ManagerWorld Settings) (act : ManagerAct Settings) :
    Decidable (Undisturbed w act) :=
  match act with
  | .run _ closed => inferInstanceAs (Decidable (closed = none))
  | .work k v' => inferInstanceAs (Decidable (∀ v ∈ w.registry.objects[k]?, Clean v v'))
  | .collect _ => .isTrue trivial
  | .startCamera _ | .stopCamera _ | .restartCamera _ | .reconcile _ | .shutdown | .cancel _ _ =>
    .isFalse id

/-- A worker takes a step without an error. -/
theorem work_path {w : ManagerWorld Settings} {k : Nat} {v v' : WorkerView Settings}
    (hv : w.registry.objects[k]? = some v) (hclean : Clean v v') :
    Path (managerMachine cfg) Undisturbed w
      { w with registry := w.registry.setWorker cfg k v v' } := by
  refine .step (.work k v') .refl ?_ ?_
  · intro u hu
    rw [hv] at hu
    cases hu
    exact hclean
  · show w.work cfg k v' = _
    rw [ManagerWorld.work, hv, Option.bind_some, if_pos hclean.evolves]

/-- A worker after it stopped. -/
def stoppedView (v : WorkerView Settings) : WorkerView Settings :=
  { v with
    state := .stopped
    live := false
    failure := v.failure.or v.shutdownFailures.head?
    started := if v.started = .pending then .resolved else v.started }

omit [DecidableEq Settings] in
/-- A worker that is being stopped can stop without an error. -/
theorem stoppedView_clean {v : WorkerView Settings} (hlive : v.live = true)
    (hstopping : v.state = .stopping) : Clean v (stoppedView v) where
  evolves :=
    { definition := rfl
      generation := rfl
      consistent := by
        refine ⟨fun h => (by cases h), fun _ => ?_, fun _ => .inl rfl⟩
        simp only [stoppedView]
        split
        · simp
        · assumption
      -- the view is of a live worker
      finished := fun hdone => absurd hlive (Bool.eq_false_iff.mp hdone)
      started := fun hsettled => if_neg hsettled }
  reported := by
    intro _ hbad hnone
    obtain ⟨-, hhead⟩ := Option.or_eq_none_iff.mp hnone
    rcases hbad with hfailed | hfailures
    · cases hfailed
    · exact hfailures (List.head?_eq_none_iff.mp hhead)
  failures := rfl
  states := by rw [hstopping]; exact List.mem_cons_of_mem _ (List.mem_singleton.mpr rfl)
  woken hstarting := by rw [hstopping] at hstarting; cases hstarting
  started hbusy := by
    rw [hstopping] at hbusy
    exact absurd hbusy (by decide)

/-- A worker after it started. -/
def startedView (v : WorkerView Settings) : WorkerView Settings :=
  { v with state := .running, started := .resolved }

omit [DecidableEq Settings] in
/-- A worker that is starting can start without an error. -/
theorem startedView_clean {v : WorkerView Settings} (hv : v.Consistent)
    (hbusy : v.state ∈ .starting :: runningStates) (hclean : v.shutdownFailures = [])
    (hpending : v.started = .pending) : Clean v (startedView v) := by
  have hlive := live_of_busy hv hbusy
  constructor
  case evolves =>
    refine ⟨rfl, rfl, ⟨fun _ => ⟨(by simp [startedView]), (by simp [startedView])⟩, ?_, ?_⟩, ?_, ?_⟩
    · exact fun hdone => absurd hlive (Bool.eq_false_iff.mp hdone)
    · exact fun hdone => absurd hlive (Bool.eq_false_iff.mp hdone)
    · exact fun hdone => absurd hlive (Bool.eq_false_iff.mp hdone)
    · exact fun hsettled => absurd hpending hsettled
  case reported => exact fun hdone => absurd hlive (Bool.eq_false_iff.mp hdone)
  case failures => rfl
  case states =>
    show WorkerState.running ∈ cleanStates v.state
    revert hbusy
    cases v.state <;> decide
  case woken => exact fun _ _ => hclean
  case started => exact fun _ => .inr ⟨rfl, (by simp [startedView, runningStates])⟩

/-- The task can go on, maybe after a step of a worker. -/
def Ready (cfg : ManagerConfig) (w : ManagerWorld Settings) (i : Nat) : Prop :=
  ∃ w₁ w₂, Path (managerMachine cfg) Undisturbed w w₁ ∧ w₁.tasks = w.tasks ∧
    w₁.step cfg (.run i none) = some w₂

/-- A task that can go on at once is ready. -/
theorem ready_now {w u : ManagerWorld Settings} {i : Nat} {t : ManagerTask Settings}
    (ht : w.tasks[i]? = some t) (hrun : w.runTask cfg i none t = some u) : Ready cfg w i := by
  refine ⟨w, u, .refl, rfl, ?_⟩
  show w.tasks[i]?.bind _ = _
  rw [ht, Option.bind_some, hrun]

/-- The next stretch inside the lock can be taken. -/
theorem section_ready {w : ManagerWorld Settings} {i lock : Nat} {place : Section Settings}
    (ht : w.tasks[i]? = some (.operation op (.inside lock place)))
    (hrun : ∃ next, runSection cfg w.registry op none place = some next) : Ready cfg w i := by
  obtain ⟨next, hrun⟩ := hrun
  refine ready_now ht (u := { w with registry := next.1 }.goto i
    (.operation op (next.2.stage lock))) ?_
  show (runSection cfg w.registry op none place).map _ = _
  rw [hrun]
  rfl

/-- An operation that waits for a worker goes on after a step of the worker. -/
theorem worked_ready {w : ManagerWorld Settings} {i lock k : Nat} {v v' : WorkerView Settings}
    {place : Section Settings} (hv : w.registry.objects[k]? = some v) (hclean : Clean v v')
    (ht : w.tasks[i]? = some (.operation op (.inside lock place)))
    (hrun : ∀ r : Registry Settings, r.objects[k]? = some v' →
      ∃ next, runSection cfg r op none place = some next) : Ready cfg w i := by
  have hpath : Path (managerMachine cfg) Undisturbed w _ := work_path hv hclean
  have hlt := (List.getElem?_eq_some_iff.mp hv).1
  have hnext := hrun (w.registry.setWorker cfg k v v')
    (by rw [setWorker_objects]; exact List.getElem?_set_self hlt)
  obtain ⟨w₁, w₂, hrest, htasks, hstep⟩ := section_ready
    (w := { w with registry := w.registry.setWorker cfg k v v' }) ht hnext
  exact ⟨w₁, w₂, hpath.trans hrest, htasks, hstep⟩

/-- An operation that is not over can go on, when no other operation is at its camera. -/
theorem child_ready {w : ManagerWorld Settings} {i : Nat} {stage : Stage Settings}
    (howned : Owned cfg w) (hapart : LocksApart w) (hviews : SoundViews w.registry)
    (hlone : ∀ (j : Nat) op' stage', w.tasks[j]? = some (.operation op' stage') →
      op'.cameraId = op.cameraId → (∃ result, stage' = .ended result) ∨ j = i)
    (ht : w.tasks[i]? = some (.operation op stage))
    (h : ChildHolds bad op (viewAt w.registry op.cameraId) stage)
    (hbusy : ∀ result, stage ≠ .ended result) : Ready cfg w i := by
  cases h with
  | lookup waiting => exact ready_now ht (u := w.getCameraLock i op) rfl
  | locking lock waiting =>
    have hfree : w.tasks.any (ManagerTask.holds lock) = false := by
      by_contra hheld
      rw [Bool.not_eq_false] at hheld
      obtain ⟨t, hmem, hholds⟩ := List.any_eq_true.mp hheld
      obtain ⟨j, hj⟩ := List.mem_iff_getElem?.mp hmem
      cases t with
      | operation op' stage' =>
        -- a holder of the lock is at the same camera, so it is this task, which holds no lock
        have hlock := howned.locks i op _ lock ht (decide_eq_true rfl)
        have hlock' := howned.locks j op' stage' lock hj (holds_refersTo hholds)
        rcases hlone j op' stage' hj (hapart.apart _ _ _ hlock hlock') with ⟨result, rfl⟩ | rfl
        · cases hholds
        · rw [ht] at hj
          cases hj
          cases hholds
      | reconcile | shutdown | shutdownImpl => cases hholds
    refine ready_now ht (u := w.goto i (.operation op (.inside lock .finding))) ?_
    show (if _ then _ else _) = _
    rw [if_neg (Bool.eq_false_iff.mp hfree)]
  | finding lock waiting =>
    cases hlookup : w.registry.workers.lookup op.cameraId with
    | none =>
      refine section_ready ht ?_
      simp only [runSection, found, hlookup]
      exact ⟨_, rfl⟩
    | some k =>
      obtain ⟨v, hv, -⟩ := howned.registry.entry _ k hlookup
      rw [viewAt_registered hlookup, hv] at waiting
      cases waiting with
      | present _ replaces fault =>
        refine section_ready ht ⟨(w.registry.stopWorker cfg k v none, .next (.stopping k)), ?_⟩
        rcases replaces with ⟨c, rfl⟩ | ⟨definition, rfl⟩ <;>
          simp only [runSection, found, hlookup, hv, Option.bind_some]
  | stopping lock k v view replaces fault stopping =>
    have hk := howned.places i op lock _ ht
    rw [viewAt_registered hk] at view
    cases hlive : v.live with
    | false =>
      refine section_ready ht ?_
      simp only [runSection, view, Option.bind_some, hlive]
      exact ⟨_, rfl⟩
    | true =>
      refine worked_ready view (stoppedView_clean hlive (stopping hlive)) ht fun r hr => ?_
      simp only [runSection, hr, Option.bind_some]
      exact ⟨_, rfl⟩
  | removing lock k v failures view replaces fault done =>
    have hk := (howned.places i op lock _ ht).1
    rw [viewAt_registered hk] at view
    refine section_ready ht ?_
    simp only [runSection, view, Option.map_some]
    exact ⟨_, rfl⟩
  | registering lock definition view good =>
    exact section_ready ht ⟨register cfg w.registry definition, rfl⟩
  | starting lock k v view good starts busy clean started =>
    have hk := howned.places i op lock _ ht
    rw [viewAt_registered hk] at view
    rcases started with hpending | ⟨hresolved, -⟩
    · refine worked_ready view (startedView_clean (hviews k v view).1 busy clean hpending) ht
        fun r hr => ?_
      simp only [runSection, hr, Option.bind_some]
      exact ⟨_, rfl⟩
    · refine section_ready ht ?_
      simp only [runSection, view, Option.bind_some, hresolved]
      exact ⟨_, rfl⟩
  | admitting lock k v status view good runs =>
    have hk := howned.places i op lock _ ht
    rw [viewAt_registered hk] at view
    refine section_ready ht ?_
    simp only [runSection, view, Option.map_some]
    exact ⟨_, rfl⟩
  | ended result finished => exact absurd rfl (hbusy result)

end

end Rsap.Proofs
