import Mathlib.Algebra.GroupWithZero.Nat
import Rsap.Proofs.ManagerShutdown
import Rsap.Proofs.ReconcileChildren

/-!
# `Rsap.Proofs.Reconcile`: what `reconcile` makes of the registry

`reconcile` stops the registered cameras that are not desired, and starts or restarts the desired
ones that do not run with their definition. `Phase` is what holds at each of its `await`s, in terms
of the registry `r₀` that it was called on. A stop reports an error for a worker that had failed
before the call, or that noted a failure of its cleanup before it, and a restart reports one for
the latter. `Bad r₀ op` says so, and `Reconcilable` says that no operation is bad. Only then does
the call reach the desired state (`reconcile_reaches`).

`weight` counts the stretches that are left. Every stretch lowers it, and as long as the call is
not over some task can go on, maybe after a worker that it waits for has stopped or started.
-/

set_option autoImplicit false

namespace Rsap.Proofs

open Rsap.Library
open Rsap.Library.Machine (Reachable Path Any)
open Rsap.Orchestration

section
variable {Settings : Type} {cfg : ManagerConfig}

/-! ### Before and after the call -/

/-- The task is over. -/
def TaskEnded : ManagerTask Settings → Prop
  | .operation _ (.ended _) | .reconcile _ (.ended _) | .shutdown (.ended _)
  | .shutdownImpl (.ended _) => True
  | _ => False

/-- No call of the manager is running, and admission is open. The registered workers can be in any
state. -/
structure ManagerIdle (cfg : ManagerConfig) (w : ManagerWorld Settings) : Prop where
  registry : RegistryOwned cfg w.registry
  views : SoundViews w.registry
  locks : LocksApart w
  tasks : ∀ t ∈ w.tasks, TaskEnded t
  admission : w.registry.admissionClosed = false

/-- The registered workers are those of the desired cameras, and each of them runs with its desired
definition. -/
def Reached (r : Registry Settings) (desired : List (CameraDefinition Settings)) : Prop :=
  (∀ c, c ∈ r.workers → c ∈ desired.map (·.cameraId)) ∧
    ∀ definition ∈ desired, ∃ v, viewAt r definition.cameraId = some v ∧
      v.definition = definition ∧ v.state ∈ runningStates

/-- The worker is kept. -/
def Current (v : WorkerView Settings) (definition : CameraDefinition Settings) : Prop :=
  v.definition = definition ∧ v.state ∈ runningStates

/-- No camera that is not desired has failed or noted a failure of its cleanup, and no desired
camera that has to be restarted noted one. -/
def Reconcilable (r : Registry Settings) (desired : List (CameraDefinition Settings)) : Prop :=
  (∀ c v, viewAt r c = some v → c ∉ desired.map (·.cameraId) →
      v.state ≠ .failed ∧ v.shutdownFailures = []) ∧
    ∀ definition ∈ desired, ∀ v, viewAt r definition.cameraId = some v →
      Current v definition ∨ v.shutdownFailures = []

/-! ### The phases of the call -/

/-- The worker that the camera of the operation had when `reconcile` was called has a fault. -/
def Bad (r₀ : Registry Settings) (op : Operation Settings) : Prop :=
  ∃ v, viewAt r₀ op.cameraId = some v ∧ Fault op v

/-- The tasks of a `gather`, with what they know. Every other task is over. -/
structure Gathering (r₀ r : Registry Settings) (tasks : List (ManagerTask Settings)) (i base : Nat)
    (operations : List (Operation Settings)) : Prop where
  children : ∀ (j : Nat) op, operations[j]? = some op → ∃ stage,
    tasks[base + j]? = some (.operation op stage) ∧
      ChildHolds (Bad r₀ op) op (viewAt r op.cameraId) stage
  distinct : (operations.map (·.cameraId)).Nodup
  others : ∀ (j : Nat) t, tasks[j]? = some t →
    TaskEnded t ∨ j = i ∨ ∃ (k : Nat) (op : Operation Settings), operations[k]? = some op ∧
      j = base + k

/-- What the loop of `reconcile` has made of the definitions that it scanned. -/
structure Scanned (r₀ r : Registry Settings) (desired scanned : List (CameraDefinition Settings))
    (operations : List (Operation Settings)) : Prop where
  calls : ∀ op ∈ operations, ∃ definition ∈ scanned, Starts op definition ∧
    ∀ v, viewAt r₀ definition.cameraId = some v → ¬ Current v definition
  covered : ∀ definition ∈ scanned, (∃ op ∈ operations, Starts op definition) ∨
    (∀ op ∈ operations, op.cameraId ≠ definition.cameraId) ∧
      (∃ v, viewAt r definition.cameraId = some v ∧ Current v definition) ∧
        ∀ v, viewAt r₀ definition.cameraId = some v →
          Current v definition ∨ v.shutdownFailures = []
  distinct : (operations.map (·.cameraId)).Sublist (scanned.map (·.cameraId))
  undesired : ∀ c, c ∉ desired.map (·.cameraId) → viewAt r c = none
  clear : ∀ c v, viewAt r₀ c = some v → c ∉ desired.map (·.cameraId) →
    v.state ≠ .failed ∧ v.shutdownFailures = []

/-- What holds of the registry `r` and of the tasks at the `await`s of `reconcile`, whose task
is `i`. -/
inductive Phase (r₀ r : Registry Settings) (tasks : List (ManagerTask Settings))
    (desired : List (CameraDefinition Settings)) (i : Nat) : ReconcileStage Settings → Prop
  | snapshotting (workers : r.workers = r₀.workers)
      (calm : ∀ c, Option.Rel Clean (viewAt r₀ c) (viewAt r c))
      (others : ∀ (j : Nat) t, tasks[j]? = some t → TaskEnded t ∨ j = i) :
      Phase r₀ r tasks desired i .snapshotting
  | removing (base : Nat) (operations : List (Operation Settings))
      (gathering : Gathering r₀ r tasks i base operations)
      (stops : ∀ op ∈ operations, ∃ c, op = .stop c ∧ c ∉ desired.map (·.cameraId))
      (gone : ∀ c, c ∉ desired.map (·.cameraId) → (∀ op ∈ operations, op.cameraId ≠ c) →
        viewAt r₀ c = none ∧ viewAt r c = none)
      (calm : ∀ c ∈ desired.map (·.cameraId), Option.Rel Clean (viewAt r₀ c) (viewAt r c)) :
      Phase r₀ r tasks desired i (.removing (List.range' base operations.length) false)
  | scanning (scanned : List (CameraDefinition Settings)) (definition : CameraDefinition Settings)
      (remaining : List (CameraDefinition Settings)) (operations : List (Operation Settings))
      (desired_eq : desired = scanned ++ definition :: remaining)
      (done : Scanned r₀ r desired scanned operations)
      (waiting : ∀ op ∈ operations, Waiting (Bad r₀ op) op (viewAt r op.cameraId))
      (calm : ∀ d ∈ definition :: remaining,
        Option.Rel Clean (viewAt r₀ d.cameraId) (viewAt r d.cameraId))
      (others : ∀ (j : Nat) t, tasks[j]? = some t → TaskEnded t ∨ j = i) :
      Phase r₀ r tasks desired i (.scanning (definition :: remaining) operations)
  | operating (base : Nat) (operations : List (Operation Settings))
      (gathering : Gathering r₀ r tasks i base operations)
      (done : Scanned r₀ r desired desired operations) :
      Phase r₀ r tasks desired i (.operating (List.range' base operations.length) false)
  | ended (result : Except ManagerError (StringMap CameraStatus))
      (reaches : ∀ statuses, result = .ok statuses → Reconcilable r₀ desired ∧ Reached r desired)
      (returns : Reconcilable r₀ desired → ∃ statuses, result = .ok statuses)
      (others : ∀ (j : Nat) t, tasks[j]? = some t → TaskEnded t ∨ j = i) :
      Phase r₀ r tasks desired i (.ended result)

/-! ### Steps of the workers -/

/-- The worker of a camera is the same, or it took a step without an error. -/
def Eased (o o' : Option (WorkerView Settings)) : Prop :=
  o' = o ∨ ∃ v v', o = some v ∧ o' = some v' ∧ Clean v v'

/-- A step without an error keeps a worker within reach of the one that was found. -/
theorem Eased.calm {o₀ o o' : Option (WorkerView Settings)} (h : Eased o o')
    (hcalm : Option.Rel Clean o₀ o) : Option.Rel Clean o₀ o' := by
  rcases h with rfl | ⟨v, v', rfl, rfl, hclean⟩
  · exact hcalm
  · cases hcalm with
    | some hbefore => exact .some (hbefore.trans hclean)

/-- A step of the worker without an error keeps what its operation knows. -/
theorem Eased.child {o o' : Option (WorkerView Settings)} {bad : Prop} {op : Operation Settings}
    {stage : Stage Settings} (h : Eased o o') (hchild : ChildHolds bad op o stage) :
    ChildHolds bad op o' stage := by
  rcases h with rfl | ⟨v, v', rfl, rfl, hclean⟩
  · exact hchild
  · exact child_clean hclean hchild

/-- A step of the worker without an error keeps what an operation that has not looked yet knows.
-/
theorem Eased.waiting {o o' : Option (WorkerView Settings)} {bad : Prop}
    {op : Operation Settings} (h : Eased o o') (hwaiting : Waiting bad op o) :
    Waiting bad op o' := by
  cases h.child (.lookup hwaiting) with
  | lookup waiting => exact waiting

/-- No worker appears by a step of a worker. -/
theorem Eased.none {o o' : Option (WorkerView Settings)} (h : Eased o o') (ho : o = none) :
    o' = none := by
  rcases h with rfl | ⟨v, v', rfl, rfl, hclean⟩
  · exact ho
  · cases ho

/-- A worker that is kept is kept after its own step. -/
theorem Eased.current {o o' : Option (WorkerView Settings)}
    {definition : CameraDefinition Settings} (h : Eased o o')
    (hcurrent : ∃ v, o = some v ∧ Current v definition) :
    ∃ v, o' = some v ∧ Current v definition := by
  rcases h with rfl | ⟨v, v', rfl, rfl, hclean⟩
  · exact hcurrent
  · obtain ⟨u, hu, hdefinition, hruns⟩ := hcurrent
    cases hu
    exact ⟨v', rfl, hclean.evolves.definition.trans hdefinition,
      cleanStates_running hclean.states hruns⟩

variable {r₀ r r' : Registry Settings} {tasks : List (ManagerTask Settings)}
  {desired scanned : List (CameraDefinition Settings)} {i : Nat}
  {operations : List (Operation Settings)}

/-- What the loop of `reconcile` decided stands while workers only step without an error. -/
theorem Scanned.eased (h : Scanned r₀ r desired scanned operations)
    (hviews : ∀ c, Eased (viewAt r c) (viewAt r' c)) :
    Scanned r₀ r' desired scanned operations where
  calls := h.calls
  covered definition hmem := by
    rcases h.covered definition hmem with hcall | ⟨hnone, hcurrent, hbefore⟩
    · exact .inl hcall
    · exact .inr ⟨hnone, (hviews _).current hcurrent, hbefore⟩
  distinct := h.distinct
  undesired c hc := (hviews c).none (h.undesired c hc)
  clear := h.clear

/-- What the gathered tasks know stands while workers only step without an error. -/
theorem Gathering.eased {base : Nat} (h : Gathering r₀ r tasks i base operations)
    (hviews : ∀ c, Eased (viewAt r c) (viewAt r' c)) :
    Gathering r₀ r' tasks i base operations where
  children j op hj := by
    obtain ⟨stage, ht, hholds⟩ := h.children j op hj
    exact ⟨stage, ht, (hviews _).child hholds⟩
  distinct := h.distinct
  others := h.others

/-- The desired state stays reached. -/
theorem Reached.eased (h : Reached r desired) (hworkers : r'.workers = r.workers)
    (hviews : ∀ c, Eased (viewAt r c) (viewAt r' c)) : Reached r' desired := by
  constructor
  · rw [hworkers]
    exact h.1
  · intro definition hmem
    obtain ⟨v, hv, hcurrent⟩ := h.2 definition hmem
    exact (hviews _).current ⟨v, hv, hcurrent⟩

/-- The steps of the workers keep the phase. -/
theorem Phase.eased {stage : ReconcileStage Settings} (h : Phase r₀ r tasks desired i stage)
    (hworkers : r'.workers = r.workers) (hviews : ∀ c, Eased (viewAt r c) (viewAt r' c)) :
    Phase r₀ r' tasks desired i stage := by
  cases h with
  | snapshotting workers calm others =>
    exact .snapshotting (hworkers.trans workers) (fun c => (hviews c).calm (calm c)) others
  | removing base operations gathering stops gone calm =>
    refine .removing base operations (gathering.eased hviews) stops (fun c hc hnone => ?_)
      fun c hc => (hviews c).calm (calm c hc)
    obtain ⟨hbefore, hnow⟩ := gone c hc hnone
    exact ⟨hbefore, (hviews c).none hnow⟩
  | scanning scanned definition remaining operations desired_eq done waiting calm others =>
    exact .scanning scanned definition remaining operations desired_eq (done.eased hviews)
      (fun op hop => (hviews _).waiting (waiting op hop))
      (fun d hd => (hviews _).calm (calm d hd)) others
  | operating base operations gathering done =>
    exact .operating base operations (gathering.eased hviews) (done.eased hviews)
  | ended result reaches returns others =>
    refine .ended result (fun statuses hresult => ?_) returns others
    obtain ⟨hreconcilable, hreached⟩ := reaches statuses hresult
    exact ⟨hreconcilable, hreached.eased hworkers hviews⟩

/-- A step of one worker, as the cameras see it. -/
theorem setWorker_eased {k : Nat} {v v' : WorkerView Settings} (hv : r.objects[k]? = some v)
    (hclean : Clean v v') (c : String) :
    Eased (viewAt r c) (viewAt (r.setWorker cfg k v v') c) := by
  rw [viewAt_set hv (setWorker_workers r k v v') (setWorker_objects r k v v')]
  split
  · rename_i hk
    exact .inr ⟨v, v', (viewAt_registered hk).trans hv, rfl, hclean⟩
  · exact .inl rfl

/-! ### Stretches of the operations -/

/-- A task goes on. -/
theorem TaskEnded.set {j k : Nat} {t u : ManagerTask Settings}
    (h : (tasks.set k u)[j]? = some t) (hne : j ≠ k) : tasks[j]? = some t := by
  rw [List.getElem?_set_ne (Ne.symm hne)] at h
  exact h

/-- The cameras of the operations are distinct. -/
theorem Gathering.only {base j k : Nat} {op op' : Operation Settings}
    (h : Gathering r₀ r tasks i base operations) (hk : operations[k]? = some op')
    (hj : operations[j]? = some op) (hcamera : op'.cameraId = op.cameraId) : k = j := by
  have hlt : k < (operations.map (·.cameraId)).length := by
    rw [List.length_map]
    exact (List.getElem?_eq_some_iff.mp hk).1
  refine (List.getElem?_inj hlt h.distinct).mp ?_
  rw [List.getElem?_map, List.getElem?_map, hk, hj, Option.map_some, Option.map_some, hcamera]

/-- One operation of a `gather` goes on. -/
theorem Gathering.step {base j : Nat} {op : Operation Settings} {stage' : Stage Settings}
    (h : Gathering r₀ r tasks i base operations) (hj : operations[j]? = some op)
    (hi : i ≠ base + j)
    (helse : ∀ c, c ≠ op.cameraId → viewAt r' c = viewAt r c)
    (hholds : ChildHolds (Bad r₀ op) op (viewAt r' op.cameraId) stage') :
    Gathering r₀ r' (tasks.set (base + j) (.operation op stage')) i base operations where
  children k op' hk := by
    obtain ⟨stage, ht, hbefore⟩ := h.children k op' hk
    -- the operation that took the step, or another one
    by_cases hkj : k = j
    · subst hkj
      rw [hj] at hk
      cases hk
      exact ⟨stage', List.getElem?_set_self (List.getElem?_eq_some_iff.mp ht).1, hholds⟩
    · refine ⟨stage, ?_, ?_⟩
      · rw [List.getElem?_set_ne (by omega)]
        exact ht
      · rw [helse]
        · exact hbefore
        · -- the cameras of the operations are distinct
          exact fun hcamera => hkj (h.only hk hj hcamera)
  distinct := h.distinct
  others k t ht := by
    by_cases hkj : k = base + j
    · exact .inr (.inr ⟨j, op, hj, hkj⟩)
    · exact h.others k t (TaskEnded.set ht hkj)

/-- The stretch of an operation leaves what the loop has made of the definitions. -/
theorem Scanned.step {op : Operation Settings} (h : Scanned r₀ r desired scanned operations)
    (hop : op ∈ operations) (hcamera : op.cameraId ∈ desired.map (·.cameraId))
    (helse : ∀ c, c ≠ op.cameraId → viewAt r' c = viewAt r c) :
    Scanned r₀ r' desired scanned operations where
  calls := h.calls
  covered definition hmem := by
    rcases h.covered definition hmem with hcall | ⟨hnone, hcurrent, hbefore⟩
    · exact .inl hcall
    · exact .inr ⟨hnone, (by rwa [helse _ (hnone op hop).symm]), hbefore⟩
  distinct := h.distinct
  undesired c hc := by
    rw [helse c fun heq => hc (heq ▸ hcamera)]
    exact h.undesired c hc
  clear := h.clear

/-- There is room for the worker of a desired camera that has none. -/
theorem room_left {op : Operation Settings} (hr : RegistryOwned cfg r)
    (hfew : desired.length ≤ cfg.maxActiveWorkers.val)
    (hundesired : ∀ c, c ∉ desired.map (·.cameraId) → viewAt r c = none)
    (hcamera : op.cameraId ∈ desired.map (·.cameraId))
    (habsent : r.workers.lookup op.cameraId = none) :
    r.workers.keys.length < cfg.maxActiveWorkers.val := by
  have hkeys : op.cameraId :: r.workers.keys ⊆ desired.map (·.cameraId) := by
    intro c hc
    rcases List.mem_cons.mp hc with rfl | hc
    · exact hcamera
    · by_contra hnot
      have hnone := (viewAt_none hr).mp (hundesired c hnot)
      exact AList.lookup_eq_none.mp hnone (AList.mem_keys.mp hc)
  have hnodup : (op.cameraId :: r.workers.keys).Nodup :=
    List.nodup_cons.mpr ⟨fun hmem => AList.lookup_eq_none.mp habsent (AList.mem_keys.mp hmem),
      AList.keys_nodup r.workers⟩
  have hlength := (List.subperm_of_subset hnodup hkeys).length_le
  rw [List.length_cons, List.length_map] at hlength
  omega

/-! ### The whole manager -/

/-- The manager while nobody but one call of `reconcile` uses it. -/
structure Reconciling (cfg : ManagerConfig) (r₀ : Registry Settings)
    (desired : List (CameraDefinition Settings)) (i : Nat) (w : ManagerWorld Settings)
    (stage : ReconcileStage Settings) : Prop where
  owned : Owned cfg w
  locks : LocksApart w
  views : SoundViews w.registry
  admission : w.registry.admissionClosed = false
  task : w.tasks[i]? = some (.reconcile desired stage)
  phase : Phase r₀ w.registry w.tasks desired i stage

/-- The operation of a task that is not over. -/
theorem Gathering.child {base j : Nat} {op : Operation Settings} {stage : Stage Settings}
    (h : Gathering r₀ r tasks i base operations) {rs : ReconcileStage Settings}
    (hi : tasks[i]? = some (.reconcile desired rs))
    (ht : tasks[j]? = some (.operation op stage)) (hbusy : ∀ result, stage ≠ .ended result) :
    ∃ k, operations[k]? = some op ∧ j = base + k ∧
      ChildHolds (Bad r₀ op) op (viewAt r op.cameraId) stage := by
  rcases h.others j _ ht with hended | rfl | ⟨k, op', hk, rfl⟩
  · cases stage with
    | ended result => exact absurd rfl (hbusy result)
    | lookup | locking | inside => exact hended.elim
  · rw [hi] at ht
    cases ht
  · obtain ⟨stage', ht', hholds⟩ := h.children k op' hk
    rw [ht] at ht'
    cases ht'
    exact ⟨k, hk, rfl, hholds⟩

/-! ### Stretches of `reconcile` -/

/-- An operation starts one definition. -/
theorem Starts.unique {op : Operation Settings} {definition definition' : CameraDefinition Settings}
    (h : Starts op definition) (h' : Starts op definition') : definition' = definition := by
  rcases h with rfl | rfl <;> rcases h' with heq | heq <;> cases heq <;> rfl

/-- An operation that starts a camera reports the failures of the shutdown before it, and only
these. -/
theorem Starts.fault {op : Operation Settings} {definition : CameraDefinition Settings}
    (h : Starts op definition) (v : WorkerView Settings) :
    Fault op v ↔ v.shutdownFailures ≠ [] := by
  rcases h with rfl | rfl <;> simp [Fault]

/-- When no operation is bad the state that `reconcile` was called on is a good one. -/
theorem Scanned.reconcilable (h : Scanned r₀ r desired desired operations)
    (hgood : ∀ op ∈ operations, ¬ Bad r₀ op) : Reconcilable r₀ desired := by
  refine ⟨h.clear, fun definition hmem v hv => ?_⟩
  rcases h.covered definition hmem with ⟨op, hop, hstarts⟩ | ⟨-, -, hbefore⟩
  · right
    by_contra hfailures
    refine hgood op hop ⟨v, ?_, (hstarts.fault v).mpr hfailures⟩
    rw [hstarts.camera]
    exact hv
  · exact hbefore v hv

/-- On such a state no operation is bad. -/
theorem Scanned.good (h : Scanned r₀ r desired scanned operations)
    (hsub : ∀ definition ∈ scanned, definition ∈ desired) (hrec : Reconcilable r₀ desired) :
    ∀ op ∈ operations, ¬ Bad r₀ op := by
  intro op hop ⟨v, hv, hfault⟩
  obtain ⟨definition, hmem, hstarts, hneeded⟩ := h.calls op hop
  rw [hstarts.camera] at hv
  rcases hrec.2 definition (hsub definition hmem) v hv with hcurrent | hnone
  · exact hneeded v hv hcurrent
  · exact (hstarts.fault v).mp hfault hnone

/-- The desired state is reached when the operations started their workers. -/
theorem Scanned.reached (hr : RegistryOwned cfg r) (h : Scanned r₀ r desired desired operations)
    (hruns : ∀ op ∈ operations, ∃ v, viewAt r op.cameraId = some v ∧ Runs op v) :
    Reached r desired := by
  constructor
  · intro c hc
    by_contra hnot
    have hnone := (viewAt_none hr).mp (h.undesired c hnot)
    exact AList.lookup_eq_none.mp hnone hc
  · intro definition hmem
    rcases h.covered definition hmem with ⟨op, hop, hstarts⟩ | ⟨-, hcurrent, -⟩
    · obtain ⟨v, hv, hstate, hdefinition⟩ := hruns op hop
      rw [hstarts.camera] at hv
      exact ⟨v, hv, hstarts.unique hdefinition, hstate⟩
    · exact hcurrent

variable {w w' : ManagerWorld Settings}

/-- The operations of a settled `gather`, and every other task, are over. -/
theorem Gathering.settled {base : Nat} (h : Gathering r₀ r w.tasks i base operations)
    (hsettled : w.settled (List.range' base operations.length) = true) :
    (∀ e ∈ w.ends (List.range' base operations.length), ∃ op ∈ operations,
        Finished (Bad r₀ op) op (viewAt r op.cameraId) e) ∧
      (∀ op ∈ operations, ∃ e ∈ w.ends (List.range' base operations.length),
        Finished (Bad r₀ op) op (viewAt r op.cameraId) e) ∧
      ∀ (j : Nat) t, w.tasks[j]? = some t → TaskEnded t ∨ j = i := by
  -- a task of the `gather` that is settled has ended, and its end says how
  have hchild : ∀ (j : Nat) op, operations[j]? = some op → ∃ result,
      w.tasks[base + j]? = some (.operation op (.ended result)) ∧
        w.end? (base + j) = some result ∧
          Finished (Bad r₀ op) op (viewAt r op.cameraId) result := by
    intro j op hj
    obtain ⟨stage, ht, hholds⟩ := h.children j op hj
    have hlt := (List.getElem?_eq_some_iff.mp hj).1
    have hmem : base + j ∈ List.range' base operations.length := by
      rw [List.mem_range'_1]
      omega
    have hended := List.all_eq_true.mp hsettled _ hmem
    rw [ManagerWorld.end?, ht, Option.bind_some] at hended
    -- every other stage has no result yet
    cases hholds with
    | ended result finished =>
      refine ⟨result, ht, ?_, finished⟩
      rw [ManagerWorld.end?, ht]
      rfl
    | lookup | locking | finding | stopping | removing | registering | starting | admitting =>
      cases hended
  -- the tasks are numbered from `base`, so a result belongs to the operation at its offset
  refine ⟨fun e he => ?_, fun op hop => ?_, fun j t ht => ?_⟩
  · obtain ⟨k, hk, he⟩ := List.mem_filterMap.mp he
    rw [List.mem_range'_1] at hk
    have hlt : k - base < operations.length := by omega
    obtain ⟨result, -, hresult, hfinished⟩ := hchild _ _ (List.getElem?_eq_getElem hlt)
    rw [show base + (k - base) = k from by omega, he] at hresult
    cases hresult
    exact ⟨_, List.getElem_mem hlt, hfinished⟩
  · obtain ⟨j, hj⟩ := List.mem_iff_getElem?.mp hop
    obtain ⟨result, -, hresult, hfinished⟩ := hchild j op hj
    refine ⟨result, List.mem_filterMap.mpr ⟨base + j, ?_, hresult⟩, hfinished⟩
    have hlt := (List.getElem?_eq_some_iff.mp hj).1
    rw [List.mem_range'_1]
    omega
  · rcases h.others j t ht with hended | hi | ⟨k, op, hk, rfl⟩
    · exact .inl hended
    · exact .inr hi
    · obtain ⟨result, ht', -, -⟩ := hchild k op hk
      rw [ht] at ht'
      cases ht'
      exact .inl trivial

/-- The call is at some `await`, and what it has to know there holds. -/
def Phased (r₀ : Registry Settings) (desired : List (CameraDefinition Settings)) (i : Nat)
    (w : ManagerWorld Settings) : Prop :=
  ∃ stage, w.tasks[i]? = some (.reconcile desired stage) ∧
    Phase r₀ w.registry w.tasks desired i stage

/-- Every other task stays over while task `i` moves. -/
theorem others_set {t : ManagerTask Settings}
    (h : ∀ (j : Nat) t, tasks[j]? = some t → TaskEnded t ∨ j = i) :
    ∀ (j : Nat) u, (tasks.set i t)[j]? = some u → TaskEnded u ∨ j = i := by
  intro j u hu
  by_cases hj : j = i
  · exact .inr hj
  · exact h j u (TaskEnded.set hu hj)

/-- The call goes to its next `await`. -/
theorem goto_phased {stage : ReconcileStage Settings} (hi : i < w.tasks.length)
    (h : Phase r₀ w.registry (w.tasks.set i (.reconcile desired stage)) desired i stage) :
    Phased r₀ desired i (w.goto i (.reconcile desired stage)) :=
  ⟨stage, List.getElem?_set_self hi, h⟩

/-- The tasks of a `gather` begin. -/
theorem Gathering.begin {t : ManagerTask Settings}
    (hothers : ∀ (j : Nat) t, tasks[j]? = some t → TaskEnded t ∨ j = i)
    (hdistinct : (operations.map (·.cameraId)).Nodup)
    (hwaiting : ∀ op ∈ operations, Waiting (Bad r₀ op) op (viewAt r op.cameraId)) :
    Gathering r₀ r (tasks.set i t ++ operations.map fun op => .operation op .lookup) i
      tasks.length operations where
  children j op hj := by
    refine ⟨.lookup, ?_, .lookup (hwaiting op (List.mem_of_getElem? hj))⟩
    rw [List.getElem?_append_right (by rw [List.length_set]; omega), List.length_set,
      Nat.add_sub_cancel_left, List.getElem?_map, hj]
    rfl
  distinct := hdistinct
  others j u hu := by
    rcases Nat.lt_or_ge j tasks.length with hlt | hge
    · rw [List.getElem?_append_left (by rwa [List.length_set])] at hu
      exact (others_set hothers j u hu).imp_right .inl
    · rw [List.getElem?_append_right (by rwa [List.length_set]), List.length_set,
        List.getElem?_map] at hu
      obtain ⟨op, hop, -⟩ := Option.map_eq_some_iff.mp hu
      exact .inr (.inr ⟨j - tasks.length, op, hop, by omega⟩)

/-- `reconcile` at the head of its loop, or after the loop. -/
theorem scan_phased {remaining : List (CameraDefinition Settings)}
    (hr : RegistryOwned cfg w.registry) (hi : i < w.tasks.length)
    (hnodup : (desired.map (·.cameraId)).Nodup)
    (hothers : ∀ (j : Nat) t, w.tasks[j]? = some t → TaskEnded t ∨ j = i)
    (hdesired : desired = scanned ++ remaining)
    (hdone : Scanned r₀ w.registry desired scanned operations)
    (hwaiting : ∀ op ∈ operations, Waiting (Bad r₀ op) op (viewAt w.registry op.cameraId))
    (hcalm : ∀ d ∈ remaining,
      Option.Rel Clean (viewAt r₀ d.cameraId) (viewAt w.registry d.cameraId)) :
    Phased r₀ desired i (w.scan i desired operations remaining) := by
  cases remaining with
  | cons definition remaining =>
    exact goto_phased hi (.scanning scanned definition remaining operations hdesired hdone hwaiting
      hcalm (others_set hothers))
  -- the loop is over: with nothing to do the call returns, else it gathers its operations
  | nil =>
    rw [List.append_nil] at hdesired
    subst hdesired
    show Phased r₀ desired i (w.operate i desired operations)
    unfold ManagerWorld.operate
    split
    · rename_i hnone
      subst hnone
      refine goto_phased hi (.ended _ (fun _ _ => ⟨?_, ?_⟩) (fun _ => ⟨_, rfl⟩)
        (others_set hothers))
      · exact hdone.reconcilable fun op hop => absurd hop List.not_mem_nil
      · exact hdone.reached hr fun op hop => absurd hop List.not_mem_nil
    · refine ⟨_, ?_, .operating w.tasks.length operations
        (.begin hothers (hdone.distinct.nodup hnodup) hwaiting) hdone⟩
      rw [show ((w.goto i _).spawnAll operations).tasks = w.tasks.set i _ ++ _ from rfl,
        List.getElem?_append_left (by rwa [List.length_set])]
      exact List.getElem?_set_self hi

/-- Before the loop nothing was scanned. -/
theorem scanned_nil (hundesired : ∀ c, c ∉ desired.map (·.cameraId) → viewAt r c = none)
    (hclear : ∀ c v, viewAt r₀ c = some v → c ∉ desired.map (·.cameraId) →
      v.state ≠ .failed ∧ v.shutdownFailures = []) :
    Scanned r₀ r desired [] [] where
  calls _ hop := absurd hop List.not_mem_nil
  covered _ hmem := absurd hmem List.not_mem_nil
  distinct := .refl _
  undesired := hundesired
  clear := hclear

/-- The `gather` of the removals. -/
theorem removals_phased (hi : i < w.tasks.length)
    (hr₀ : ∀ c, viewAt r₀ c = none ↔ r₀.workers.lookup c = none)
    (hworkers : w.registry.workers = r₀.workers)
    (hcalm : ∀ c, Option.Rel Clean (viewAt r₀ c) (viewAt w.registry c))
    (hothers : ∀ (j : Nat) t, w.tasks[j]? = some t → TaskEnded t ∨ j = i) :
    Phased r₀ desired i ((w.goto i (.reconcile desired (.removing
      (w.children (ManagerWorld.removals w.registry desired)) false))).spawnAll
        (ManagerWorld.removals w.registry desired)) := by
  have hstops : ∀ op ∈ ManagerWorld.removals w.registry desired, ∃ c, op = .stop c ∧
      c ∉ desired.map (·.cameraId) ∧ c ∈ w.registry.workers := by
    intro op hop
    obtain ⟨c, hc, rfl⟩ := List.mem_map.mp hop
    obtain ⟨hmem, hnot⟩ := List.mem_filter.mp hc
    exact ⟨c, rfl, of_decide_eq_true hnot, AList.mem_keys.mpr (List.mem_reverse.mp hmem)⟩
  -- the removals are the tasks from the end of the list on
  refine ⟨_, ?_, .removing w.tasks.length (ManagerWorld.removals w.registry desired)
    (.begin hothers ?_ ?_) ?_ ?_ fun c _ => hcalm c⟩
  · rw [show ((w.goto i _).spawnAll _).tasks = w.tasks.set i _ ++ _ from rfl,
      List.getElem?_append_left (by rwa [List.length_set])]
    exact List.getElem?_set_self hi
  -- distinct cameras, since the keys of the registry are distinct
  · show ((List.map _ _).map _).Nodup
    rw [List.map_map, show (fun op : Operation Settings => op.cameraId) ∘ Operation.stop = id
      from rfl, List.map_id]
    exact (List.nodup_reverse.mpr (AList.keys_nodup _)).filter _
  · intro op hop
    obtain ⟨c, rfl, -, hc⟩ := hstops op hop
    -- the worker is there, and it only stepped without an error since the call began
    have hsome : ∃ v₀ v, viewAt r₀ c = some v₀ ∧ viewAt w.registry c = some v ∧ Clean v₀ v := by
      have hrel := hcalm c
      cases hview : viewAt r₀ c with
      | none =>
        rw [hr₀, ← hworkers, AList.lookup_eq_none] at hview
        exact absurd hc hview
      | some v₀ =>
        rw [hview] at hrel
        cases hnow : viewAt w.registry c with
        | none =>
          rw [hnow] at hrel
          cases hrel
        | some v =>
          rw [hnow] at hrel
          cases hrel with
          | some hclean => exact ⟨v₀, v, rfl, rfl, hclean⟩
    obtain ⟨v₀, v, hv₀, hv, hclean⟩ := hsome
    show Waiting _ _ (viewAt w.registry c)
    rw [hv]
    refine .present v (.inl ⟨c, rfl⟩) (hclean.fault.trans ⟨fun hfault => ⟨v₀, hv₀, hfault⟩, ?_⟩)
    -- its fault is the one that it had then
    rintro ⟨u, hu, hfault⟩
    rw [show (Operation.stop c : Operation Settings).cameraId = c from rfl, hv₀] at hu
    cases hu
    exact hfault
  · intro op hop
    obtain ⟨c, rfl, hnot, -⟩ := hstops op hop
    exact ⟨c, rfl, hnot⟩
  · intro c hc hnone
    -- a camera that is neither desired nor removed was not registered
    have hlookup : w.registry.workers.lookup c = none := by
      rw [AList.lookup_eq_none]
      intro hmem
      refine hnone (.stop c) (List.mem_map.mpr ⟨c, List.mem_filter.mpr ⟨?_, ?_⟩, rfl⟩) rfl
      · exact List.mem_reverse.mpr (AList.mem_keys.mp hmem)
      · exact decide_eq_true hc
    refine ⟨(hr₀ c).mpr (hworkers ▸ hlookup), ?_⟩
    show viewAt w.registry c = none
    rw [viewAt, hlookup]
    rfl

/-- Once it has the lock, `reconcile` begins with the cameras that are no longer desired. -/
theorem snapshotting_phased [DecidableEq Settings] (hr : RegistryOwned cfg w.registry)
    (hi : i < w.tasks.length) (hnodup : (desired.map (·.cameraId)).Nodup)
    (hopen : w.registry.admissionClosed = false)
    (hr₀ : ∀ c, viewAt r₀ c = none ↔ r₀.workers.lookup c = none)
    (hworkers : w.registry.workers = r₀.workers)
    (hcalm : ∀ c, Option.Rel Clean (viewAt r₀ c) (viewAt w.registry c))
    (hothers : ∀ (j : Nat) t, w.tasks[j]? = some t → TaskEnded t ∨ j = i)
    (hrun : w.runReconcile cfg i desired .snapshotting = some w') : Phased r₀ desired i w' := by
  have hadmitted : w.registry.ensureAdmissionOpen cfg none = none := by
    simp [Registry.ensureAdmissionOpen, hopen]
  simp only [ManagerWorld.runReconcile, hadmitted] at hrun
  split at hrun
  · rename_i hnone
    cases hrun
    -- nothing to remove, so every registered camera is desired
    have hundesired : ∀ c, c ∉ desired.map (·.cameraId) → c ∉ w.registry.workers := by
      intro c hc hmem
      have hfilter := List.filter_eq_nil_iff.mp (List.map_eq_nil_iff.mp hnone) c
        (List.mem_reverse.mpr (AList.mem_keys.mp hmem))
      exact hfilter (decide_eq_true hc)
    refine scan_phased hr hi hnodup hothers rfl (scanned_nil (fun c hc => ?_) ?_)
      (fun op hop => absurd hop List.not_mem_nil) fun d _ => hcalm d.cameraId
    · exact (viewAt_none hr).mpr (AList.lookup_eq_none.mpr (hundesired c hc))
    · intro c v hv hc
      have hlookup := AList.lookup_eq_none.mpr (hundesired c hc)
      rw [hworkers, ← hr₀, hv] at hlookup
      cases hlookup
  · cases hrun
    exact removals_phased hi hr₀ hworkers hcalm hothers

/-- The first exception of a `gather` that was not cancelled. -/
theorem gathered_none {category : FailureCategory} {ends : List OperationEnd} :
    cfg.gathered category ends = none ↔ ∀ e ∈ ends, e.error? = none := by
  unfold ManagerConfig.gathered
  rw [← List.filterMap_eq_nil_iff]
  split
  · rename_i hnil
    exact iff_of_true rfl hnil
  · rename_i rest hcons
    exact iff_of_false (by simp) (by simp [hcons])
  · rename_i error rest _ hcons
    exact iff_of_false (by simp) (by simp [hcons])

/-- After the removals, or with nothing to remove, `reconcile` begins its loop over the
definitions. -/
theorem removing_phased [DecidableEq Settings] {base : Nat} (hr : RegistryOwned cfg w.registry)
    (hi : i < w.tasks.length) (hnodup : (desired.map (·.cameraId)).Nodup)
    (hgathering : Gathering r₀ w.registry w.tasks i base operations)
    (hstops : ∀ op ∈ operations, ∃ c, op = .stop c ∧ c ∉ desired.map (·.cameraId))
    (hgone : ∀ c, c ∉ desired.map (·.cameraId) → (∀ op ∈ operations, op.cameraId ≠ c) →
      viewAt r₀ c = none ∧ viewAt w.registry c = none)
    (hcalm : ∀ c ∈ desired.map (·.cameraId),
      Option.Rel Clean (viewAt r₀ c) (viewAt w.registry c))
    (hrun : w.runReconcile cfg i desired
      (.removing (List.range' base operations.length) false) = some w') :
    Phased r₀ desired i w' := by
  simp only [ManagerWorld.runReconcile, Bool.false_eq_true, if_false] at hrun
  split at hrun
  swap
  · cases hrun
  rename_i hsettled
  obtain ⟨hends, hover, hothers⟩ := hgathering.settled hsettled
  -- a removal returns, and it fails exactly for a worker with a fault
  have hstopped : ∀ (e : OperationEnd), ∀ op ∈ operations,
      Finished (Bad r₀ op) op (viewAt w.registry op.cameraId) e → ∃ c result, op = .stop c ∧
        e = .returned result ∧ viewAt w.registry c = none ∧
          (result.outcome = .failed ↔ Bad r₀ op) ∧
            (result.outcome = .failed → result.error ≠ none) := by
    intro e op hop hfinished
    obtain ⟨c, rfl, -⟩ := hstops op hop
    generalize ho : viewAt w.registry (Operation.stop c : Operation Settings).cameraId = o
      at hfinished
    cases hfinished with
    | started v result good runs => rcases runs.2 with h | h <;> cases h
    | stopped c' stop result failed reported => exact ⟨c, result, rfl, rfl, ho, failed, reported⟩
    | raised o definition starts failures failed => rcases starts with h | h <;> cases h
  -- so the `gather` raises nothing
  have hquiet : cfg.gathered .shutdown (w.ends (List.range' base operations.length)) = none := by
    rw [gathered_none]
    intro e he
    obtain ⟨op, hop, hfinished⟩ := hends e he
    obtain ⟨c, result, -, rfl, -⟩ := hstopped e op hop hfinished
    rfl
  simp only [hquiet] at hrun
  split at hrun
  -- no removal failed: the loop begins
  · rename_i hnone
    cases hrun
    -- a failure would have been noted with its error
    have hgood : ∀ op ∈ operations, ¬ Bad r₀ op := by
      intro op hop hbad
      obtain ⟨e, he, hfinished⟩ := hover op hop
      obtain ⟨c, result, -, rfl, -, hfailed, hreported⟩ := hstopped e op hop hfinished
      have houtcome := hfailed.mpr hbad
      have hfailure := List.filterMap_eq_nil_iff.mp hnone _ he
      simp only [OperationEnd.failure?, if_pos houtcome] at hfailure
      exact hreported houtcome hfailure
    refine scan_phased hr hi hnodup hothers rfl (scanned_nil ?_ ?_)
      (fun op hop => absurd hop List.not_mem_nil)
      fun d hd => hcalm _ (List.mem_map.mpr ⟨d, hd, rfl⟩)
    -- a camera that is not desired is gone, or it was never there
    · intro c hc
      by_cases hnot : ∀ op ∈ operations, op.cameraId ≠ c
      · exact (hgone c hc hnot).2
      · simp only [not_forall, not_not] at hnot
        obtain ⟨op, hop, rfl⟩ := hnot
        obtain ⟨e, -, hfinished⟩ := hover op hop
        obtain ⟨c, result, rfl, -, hview, -⟩ := hstopped e op hop hfinished
        exact hview
    -- a worker that was there had no fault, as its removal did not fail
    · intro c v hv hc
      by_cases hnot : ∀ op ∈ operations, op.cameraId ≠ c
      · rw [(hgone c hc hnot).1] at hv
        cases hv
      · simp only [not_forall, not_not] at hnot
        obtain ⟨op, hop, rfl⟩ := hnot
        obtain ⟨c, rfl, -⟩ := hstops op hop
        have hfault : ¬ Fault (.stop c) v := fun hfault => hgood _ hop ⟨v, hv, hfault⟩
        constructor
        · exact fun hfailed => hfault (.inr ⟨hfailed, c, rfl⟩)
        · by_contra hfailures
          exact hfault (.inl hfailures)
  -- a removal failed, so its worker had a fault, and the state was not `Reconcilable`
  · rename_i failures hne
    cases hrun
    refine goto_phased hi (.ended _ (fun _ h => (by cases h)) (fun hrec => ?_)
      (others_set hothers))
    exfalso
    obtain ⟨failure, hmem⟩ := List.exists_mem_of_ne_nil _ hne
    obtain ⟨e, he, hfailure⟩ := List.mem_filterMap.mp hmem
    obtain ⟨op, hop, hfinished⟩ := hends e he
    obtain ⟨c, result, rfl, rfl, -, hfailed, -⟩ := hstopped e op hop hfinished
    have houtcome : result.outcome = .failed := by
      by_contra hnot
      simp only [OperationEnd.failure?, if_neg hnot] at hfailure
      cases hfailure
    obtain ⟨v, hv, hfault⟩ := hfailed.mp houtcome
    obtain ⟨c', heq, hc⟩ := hstops _ hop
    cases heq
    obtain ⟨hstate, hfailures⟩ := hrec.1 c v hv hc
    rcases hfault with hbad | ⟨hbad, -⟩
    · exact hbad hfailures
    · exact hstate hbad

/-- What `reconcile` needs for a desired camera. -/
theorem operationFor_cases [DecidableEq Settings] (hr : RegistryOwned cfg r)
    (definition : CameraDefinition Settings) :
    viewAt r definition.cameraId = none ∧
        ManagerWorld.operationFor r definition = [.start definition] ∨
      ∃ v, viewAt r definition.cameraId = some v ∧
        (¬ Current v definition ∧ ManagerWorld.operationFor r definition = [.restart definition] ∨
          Current v definition ∧ ManagerWorld.operationFor r definition = []) := by
  unfold ManagerWorld.operationFor
  split
  · rename_i hnone
    exact .inl ⟨(viewAt_none hr).mpr hnone, rfl⟩
  · rename_i k hk
    obtain ⟨v, hv, -⟩ := hr.entry _ k hk
    refine .inr ⟨v, (viewAt_registered hk).trans hv, ?_⟩
    rw [hv]
    by_cases hcurrent : Current v definition
    · refine .inr ⟨hcurrent, if_neg fun hno => ?_⟩
      exact hno.elim (fun h => h hcurrent.1) fun h => h hcurrent.2
    · refine .inl ⟨hcurrent, if_pos ?_⟩
      by_contra hno
      rw [not_or, not_not, not_not] at hno
      exact hcurrent hno

/-- The loop looks at one definition, whose camera is not one of those that it scanned. -/
theorem Scanned.next [DecidableEq Settings] {definition : CameraDefinition Settings}
    (hr : RegistryOwned cfg r) (hnew : definition.cameraId ∉ scanned.map (·.cameraId))
    (hdone : Scanned r₀ r desired scanned operations)
    (hcalm : Option.Rel Clean (viewAt r₀ definition.cameraId) (viewAt r definition.cameraId)) :
    Scanned r₀ r desired (scanned ++ [definition])
        (operations ++ ManagerWorld.operationFor r definition) ∧
      ∀ op ∈ ManagerWorld.operationFor r definition,
        Waiting (Bad r₀ op) op (viewAt r op.cameraId) := by
  have hold : ∀ op ∈ operations, op.cameraId ≠ definition.cameraId := by
    intro op hop heq
    refine hnew (heq ▸ hdone.distinct.subset (List.mem_map.mpr ⟨op, hop, rfl⟩))
  -- an operation for this definition leaves what holds of the others
  have hadd : ∀ op, Starts op definition →
      (∀ v, viewAt r₀ definition.cameraId = some v → ¬ Current v definition) →
      Scanned r₀ r desired (scanned ++ [definition]) (operations ++ [op]) := by
    intro op hstarts hneeded
    constructor
    case calls =>
      intro op' hop'
      rcases List.mem_append.mp hop' with hop' | hop'
      · obtain ⟨d, hd, hcall⟩ := hdone.calls op' hop'
        exact ⟨d, List.mem_append_left _ hd, hcall⟩
      · cases List.mem_singleton.mp hop'
        exact ⟨definition, List.mem_append_right _ (List.mem_singleton.mpr rfl), hstarts, hneeded⟩
    case covered =>
      intro d hd
      rcases List.mem_append.mp hd with hd | hd
      · rcases hdone.covered d hd with ⟨op', hop', hcall⟩ | ⟨hnone, hkept⟩
        · exact .inl ⟨op', List.mem_append_left _ hop', hcall⟩
        · refine .inr ⟨fun op' hop' => ?_, hkept⟩
          rcases List.mem_append.mp hop' with hop' | hop'
          · exact hnone op' hop'
          · cases List.mem_singleton.mp hop'
            intro heq
            exact hnew (List.mem_map.mpr ⟨d, hd, heq.symm.trans hstarts.camera⟩)
      · cases List.mem_singleton.mp hd
        exact .inl ⟨op, List.mem_append_right _ (List.mem_singleton.mpr rfl), hstarts⟩
    case distinct =>
      rw [List.map_append, List.map_append, List.map_singleton, List.map_singleton, hstarts.camera]
      exact hdone.distinct.append (.refl _)
    case undesired => exact hdone.undesired
    case clear => exact hdone.clear
  rcases operationFor_cases hr definition with ⟨hnone, heq⟩ | ⟨v, hv, hcases⟩
  · have hbefore : viewAt r₀ definition.cameraId = none := by
      rw [hnone] at hcalm
      generalize viewAt r₀ definition.cameraId = o at hcalm
      cases hcalm
      rfl
    have hgood : ¬ Bad r₀ (.start definition) := by
      rintro ⟨v, hv, -⟩
      rw [show (Operation.start definition).cameraId = definition.cameraId from rfl, hbefore] at hv
      cases hv
    rw [heq]
    refine ⟨hadd _ (.inl rfl) fun v hv => ?_, fun op hop => ?_⟩
    · rw [hbefore] at hv
      cases hv
    · cases List.mem_singleton.mp hop
      show Waiting _ _ (viewAt r definition.cameraId)
      rw [hnone]
      exact .absent definition rfl hgood
  · have hbefore : ∃ v₀, viewAt r₀ definition.cameraId = some v₀ ∧ Clean v₀ v := by
      rw [hv] at hcalm
      generalize viewAt r₀ definition.cameraId = o at hcalm
      cases hcalm with
      | some hclean => exact ⟨_, rfl, hclean⟩
    obtain ⟨v₀, hv₀, hclean⟩ := hbefore
    rcases hcases with ⟨hnot, heq⟩ | ⟨hcurrent, heq⟩
    · rw [heq]
      refine ⟨hadd _ (.inr rfl) fun u hu hcurrent => ?_, fun op hop => ?_⟩
      · rw [hv₀] at hu
        cases hu
        exact hnot ⟨hclean.evolves.definition.trans hcurrent.1,
          cleanStates_running hclean.states hcurrent.2⟩
      · cases List.mem_singleton.mp hop
        show Waiting _ _ (viewAt r definition.cameraId)
        rw [hv]
        refine .present v (.inr ⟨definition, rfl⟩)
          (hclean.fault.trans ⟨fun hfault => ⟨v₀, hv₀, hfault⟩, ?_⟩)
        rintro ⟨u, hu, hfault⟩
        rw [show (Operation.restart definition).cameraId = definition.cameraId from rfl, hv₀] at hu
        cases hu
        exact hfault
    · rw [heq, List.append_nil]
      refine ⟨?_, fun op hop => absurd hop List.not_mem_nil⟩
      constructor
      case calls =>
        intro op hop
        obtain ⟨d, hd, hcall⟩ := hdone.calls op hop
        exact ⟨d, List.mem_append_left _ hd, hcall⟩
      case covered =>
        intro d hd
        rcases List.mem_append.mp hd with hd | hd
        · exact hdone.covered d hd
        · cases List.mem_singleton.mp hd
          refine .inr ⟨hold, ⟨v, hv, hcurrent⟩, fun u hu => ?_⟩
          rw [hv₀] at hu
          cases hu
          rcases cleanStates_woken hclean.states hcurrent.2 with hruns | hstarting
          · exact .inl ⟨hclean.evolves.definition.symm.trans hcurrent.1, hruns⟩
          · exact .inr (hclean.woken hstarting hcurrent.2)
      case distinct =>
        rw [List.map_append]
        exact hdone.distinct.trans (List.sublist_append_left _ _)
      case undesired => exact hdone.undesired
      case clear => exact hdone.clear

/-- One turn of the loop: it keeps the worker or notes an operation for it. -/
theorem scanning_phased [DecidableEq Settings] {definition : CameraDefinition Settings}
    {remaining : List (CameraDefinition Settings)} (hr : RegistryOwned cfg w.registry)
    (hi : i < w.tasks.length) (hnodup : (desired.map (·.cameraId)).Nodup)
    (hdesired : desired = scanned ++ definition :: remaining)
    (hdone : Scanned r₀ w.registry desired scanned operations)
    (hwaiting : ∀ op ∈ operations, Waiting (Bad r₀ op) op (viewAt w.registry op.cameraId))
    (hcalm : ∀ d ∈ definition :: remaining,
      Option.Rel Clean (viewAt r₀ d.cameraId) (viewAt w.registry d.cameraId))
    (hothers : ∀ (j : Nat) t, w.tasks[j]? = some t → TaskEnded t ∨ j = i)
    (hrun : w.runReconcile cfg i desired (.scanning (definition :: remaining) operations) =
      some w') : Phased r₀ desired i w' := by
  cases hrun
  have hnew : definition.cameraId ∉ scanned.map (·.cameraId) := by
    intro hmem
    rw [hdesired, List.map_append, List.map_cons, List.nodup_append] at hnodup
    exact hnodup.2.2 _ hmem _ List.mem_cons_self rfl
  obtain ⟨hnext, hadded⟩ := hdone.next hr hnew (hcalm definition List.mem_cons_self)
  refine scan_phased hr hi hnodup hothers ?_ hnext (fun op hop => ?_)
    fun d hd => hcalm d (List.mem_cons_of_mem _ hd)
  · rw [List.append_assoc, List.singleton_append]
    exact hdesired
  · exact (List.mem_append.mp hop).elim (hwaiting op) (hadded op)

/-- When the last gathered operation is over, `reconcile` returns with every desired camera
running. -/
theorem operating_phased [DecidableEq Settings] {base : Nat} (hr : RegistryOwned cfg w.registry)
    (hi : i < w.tasks.length) (hgathering : Gathering r₀ w.registry w.tasks i base operations)
    (hdone : Scanned r₀ w.registry desired desired operations)
    (hrun : w.runReconcile cfg i desired
      (.operating (List.range' base operations.length) false) = some w') :
    Phased r₀ desired i w' := by
  simp only [ManagerWorld.runReconcile, Bool.false_eq_true, if_false] at hrun
  split at hrun
  swap
  · cases hrun
  rename_i hsettled
  obtain ⟨hends, hover, hothers⟩ := hgathering.settled hsettled
  -- a start or a restart runs its camera, or it raises for a worker with a fault
  have hstarted : ∀ (e : OperationEnd), ∀ op ∈ operations,
      Finished (Bad r₀ op) op (viewAt w.registry op.cameraId) e →
      (e.error? = none ∧ ¬ Bad r₀ op ∧
          ∃ v, viewAt w.registry op.cameraId = some v ∧ Runs op v) ∨
        e.error? ≠ none ∧ Bad r₀ op := by
    intro e op hop hfinished
    obtain ⟨definition, -, hstarts, -⟩ := hdone.calls op hop
    generalize ho : viewAt w.registry op.cameraId = o at hfinished
    cases hfinished with
    | started v result good runs => exact .inl ⟨rfl, good, v, rfl, runs⟩
    | stopped c stop result failed reported =>
      subst stop
      rcases hstarts with h | h <;> cases h
    | raised o definition starts failures failed =>
      exact .inr ⟨fun h => (by cases h), failed⟩
  split at hrun
  -- one of them raised: the state was not `Reconcilable`
  · rename_i error herror
    cases hrun
    refine goto_phased hi (.ended _ (fun _ h => (by cases h)) (fun hrec => ?_)
      (others_set hothers))
    exfalso
    have hsome : ¬ cfg.gathered .internal (w.ends (List.range' base operations.length)) = none := by
      rw [herror]
      exact fun h => (by cases h)
    rw [gathered_none] at hsome
    simp only [not_forall] at hsome
    obtain ⟨e, he, hraised⟩ := hsome
    obtain ⟨op, hop, hfinished⟩ := hends e he
    rcases hstarted e op hop hfinished with ⟨hnone, -⟩ | ⟨-, hbad⟩
    · exact hraised hnone
    · exact hdone.good (fun _ h => h) hrec op hop hbad
  · rename_i hnone
    cases hrun
    rw [gathered_none] at hnone
    have hall : ∀ op ∈ operations, ¬ Bad r₀ op ∧
        ∃ v, viewAt w.registry op.cameraId = some v ∧ Runs op v := by
      intro op hop
      obtain ⟨e, he, hfinished⟩ := hover op hop
      rcases hstarted e op hop hfinished with ⟨-, hgood⟩ | ⟨hraised, -⟩
      · exact hgood
      · exact absurd (hnone e he) hraised
    refine goto_phased hi (.ended _ (fun _ _ => ⟨?_, ?_⟩) (fun _ => ⟨_, rfl⟩)
      (others_set hothers))
    · exact hdone.reconcilable fun op hop => (hall op hop).1
    · exact hdone.reached hr fun op hop => (hall op hop).2

/-- The next stretch of `reconcile`. -/
theorem reconcile_phased [DecidableEq Settings] {stage : ReconcileStage Settings}
    (h : Reconciling cfg r₀ desired i w stage) (hnodup : (desired.map (·.cameraId)).Nodup)
    (hr₀ : ∀ c, viewAt r₀ c = none ↔ r₀.workers.lookup c = none)
    (hrun : w.runReconcile cfg i desired stage = some w') : Phased r₀ desired i w' := by
  have hr := h.owned.registry
  have hi := (List.getElem?_eq_some_iff.mp h.task).1
  cases h.phase with
  | snapshotting workers calm others =>
    exact snapshotting_phased hr hi hnodup h.admission hr₀ workers calm others hrun
  | removing base operations gathering stops gone calm =>
    exact removing_phased hr hi hnodup gathering stops gone calm hrun
  | scanning scanned definition remaining operations desired_eq done waiting calm others =>
    exact scanning_phased hr hi hnodup desired_eq done waiting calm others hrun
  | operating base operations gathering done => exact operating_phased hr hi gathering done hrun
  | ended result reaches returns others => cases hrun

/-- The stretch of an operation that `reconcile` gathers. -/
theorem child_phased {stage : ReconcileStage Settings} (h : Reconciling cfg r₀ desired i w stage)
    (hfew : desired.length ≤ cfg.maxActiveWorkers.val) {j : Nat} {op : Operation Settings}
    {place : Stage Settings} (ht : w.tasks[j]? = some (.operation op place))
    (hrun : w.runOperation cfg j none op place = some w') :
    ∃ place', ChildStep (Bad r₀ op) op j place w w' place' ∧
      Phase r₀ w'.registry w'.tasks desired i stage := by
  have hbusy : ∀ result, place ≠ .ended result := by
    rintro result rfl
    cases hrun
  have hne : i ≠ j := by
    rintro rfl
    rw [h.task] at ht
    cases ht
  -- a task that runs is not over, so the call waits in one of its two `gather`s
  have hended : ¬ TaskEnded (.operation op place : ManagerTask Settings) := by
    cases place with
    | ended result => exact absurd rfl (hbusy result)
    | lookup | locking | inside => exact id
  have halone : (∀ (k : Nat) t, w.tasks[k]? = some t → TaskEnded t ∨ k = i) → False := by
    intro hothers
    rcases hothers j _ ht with hover | hj
    · exact hended hover
    · exact hne hj.symm
  cases h.phase with
  | snapshotting workers calm others => exact (halone others).elim
  -- the removals are about cameras that are not desired
  | removing base operations gathering stops gone calm =>
    obtain ⟨k, hk, rfl, hholds⟩ := gathering.child h.task ht hbusy
    obtain ⟨c, rfl, hc⟩ := stops op (List.mem_of_getElem? hk)
    obtain ⟨place', hstep⟩ := operation_child h.owned h.views h.admission
      (fun definition hstarts => by rcases hstarts with h | h <;> cases h) ht hholds hrun
    refine ⟨place', hstep, ?_⟩
    rw [hstep.tasks]
    refine .removing base operations (gathering.step hk hne hstep.elsewhere hstep.holds) stops
      (fun c' hc' hnone => ?_) fun c' hc' => ?_
    · obtain ⟨hbefore, hnow⟩ := gone c' hc' hnone
      refine ⟨hbefore, (hstep.elsewhere c' ?_).trans hnow⟩
      exact (hnone _ (List.mem_of_getElem? hk)).symm
    · rw [hstep.elsewhere c']
      · exact calm c' hc'
      · rintro rfl
        exact hc hc'
  | scanning scanned definition remaining operations desired_eq done waiting calm others =>
    exact (halone others).elim
  -- the others are about desired cameras, for which there is room
  | operating base operations gathering done =>
    obtain ⟨k, hk, rfl, hholds⟩ := gathering.child h.task ht hbusy
    have hop := List.mem_of_getElem? hk
    obtain ⟨definition, hmem, hstarts, -⟩ := done.calls op hop
    have hcamera : op.cameraId ∈ desired.map (·.cameraId) :=
      List.mem_map.mpr ⟨definition, hmem, hstarts.camera.symm⟩
    obtain ⟨place', hstep⟩ := operation_child h.owned h.views h.admission
      (fun _ _ => room_left h.owned.registry hfew done.undesired hcamera) ht hholds hrun
    refine ⟨place', hstep, ?_⟩
    rw [hstep.tasks]
    exact .operating base operations (gathering.step hk hne hstep.elsewhere hstep.holds)
      (done.step hop hcamera hstep.elsewhere)
  | ended result reaches returns others => exact (halone others).elim

/-- The stretches of `reconcile` itself change neither registry nor locks: its operations do. -/
theorem reconcile_registry [DecidableEq Settings] {stage : ReconcileStage Settings}
    (hrun : w.runReconcile cfg i desired stage = some w') :
    w'.registry = w.registry ∧ w'.cameraLocks = w.cameraLocks ∧ w'.locks = w.locks := by
  -- the scan starts operations, which touch the registry only when they run themselves
  have hscan : ∀ operations remaining,
      (w.scan i desired operations remaining).registry = w.registry ∧
        (w.scan i desired operations remaining).cameraLocks = w.cameraLocks ∧
          (w.scan i desired operations remaining).locks = w.locks := by
    intro operations remaining
    unfold ManagerWorld.scan ManagerWorld.operate
    split
    · split <;> exact ⟨rfl, rfl, rfl⟩
    · exact ⟨rfl, rfl, rfl⟩
  cases stage with
  | snapshotting =>
    simp only [ManagerWorld.runReconcile] at hrun
    split at hrun
    · cases hrun
      exact ⟨rfl, rfl, rfl⟩
    · split at hrun <;> cases hrun
      · exact hscan _ _
      · exact ⟨rfl, rfl, rfl⟩
  -- the workers that are not desired were removed, and the scan begins
  | removing children cancelled =>
    simp only [ManagerWorld.runReconcile] at hrun
    split at hrun
    · split at hrun
      · cases hrun
        exact ⟨rfl, rfl, rfl⟩
      · split at hrun
        · cases hrun
          exact ⟨rfl, rfl, rfl⟩
        · split at hrun <;> cases hrun
          · exact hscan _ _
          · exact ⟨rfl, rfl, rfl⟩
    · cases hrun
  | scanning remaining operations =>
    cases remaining with
    | nil => cases hrun
    | cons definition remaining =>
      cases hrun
      exact hscan _ _
  -- the operations are over, and their results are gathered
  | operating children cancelled =>
    simp only [ManagerWorld.runReconcile] at hrun
    split at hrun
    · split at hrun
      · cases hrun
        exact ⟨rfl, rfl, rfl⟩
      · split at hrun <;> cases hrun <;> exact ⟨rfl, rfl, rfl⟩
    · cases hrun
  | ended result => cases hrun

/-- Every camera keeps a lock of its own. -/
theorem operation_locks {j : Nat} {closed : Option OrchestrationFailure} {op : Operation Settings}
    {place : Stage Settings} (h : LocksApart w)
    (hrun : w.runOperation cfg j closed op place = some w') : LocksApart w' := by
  cases place with
  | lookup =>
    cases hrun
    exact getCameraLock_apart h j op
  | locking lock =>
    simp only [ManagerWorld.runOperation] at hrun
    split at hrun <;> cases hrun
    exact ⟨h.bounded, h.apart⟩
  | inside lock section_ =>
    obtain ⟨next, -, rfl⟩ := Option.map_eq_some_iff.mp hrun
    exact ⟨h.bounded, h.apart⟩
  | ended result => cases hrun

/-- Only operations of a `gather` are not over. -/
theorem Phase.over {stage : ReconcileStage Settings} (h : Phase r₀ r tasks desired i stage)
    {j : Nat} {t : ManagerTask Settings} (ht : tasks[j]? = some t) (hne : j ≠ i)
    (hplain : ∀ op place, t ≠ .operation op place) : TaskEnded t := by
  cases h with
  | snapshotting _ _ others | scanning _ _ _ _ _ _ _ _ others | ended _ _ _ others =>
    exact (others j _ ht).resolve_right hne
  | removing base operations gathering | operating base operations gathering =>
    rcases gathering.others j _ ht with hended | hj | ⟨k, op, hk, rfl⟩
    · exact hended
    · exact absurd hj hne
    · obtain ⟨place, ht', -⟩ := gathering.children k op hk
      rw [ht] at ht'
      exact absurd (Option.some.inj ht') (hplain op place)

/-! ### The call comes to its end -/

/-- The stretches that are left of `reconcile`, with those of the operations that it will gather.
`registered` is the number of cameras that it finds. -/
def reconcileWeight (registered : Nat) (desired : List (CameraDefinition Settings)) :
    ReconcileStage Settings → Nat
  | .snapshotting => 14 * registered + 16 * desired.length + 3
  | .removing _ _ => 16 * desired.length + 2
  | .scanning remaining operations => 14 * operations.length + 16 * remaining.length + 1
  | .operating _ _ => 1
  | .ended _ => 0

/-- The stretches that are left of a task. -/
def taskWeight (registered : Nat) : ManagerTask Settings → Nat
  | .operation _ stage => stageWeight stage
  | .reconcile desired stage => reconcileWeight registered desired stage
  | .shutdown _ | .shutdownImpl _ => 0

/-- The stretches that are left. -/
def weight (registered : Nat) (tasks : List (ManagerTask Settings)) : Nat :=
  (tasks.map (taskWeight registered)).sum

/-- The stretches left of two lists of tasks add up. -/
theorem weight_append (registered : Nat) (tasks tasks' : List (ManagerTask Settings)) :
    weight registered (tasks ++ tasks') = weight registered tasks + weight registered tasks' := by
  simp [weight]

/-- A task goes on. -/
theorem weight_set (registered : Nat) {tasks : List (ManagerTask Settings)} {j : Nat}
    {t : ManagerTask Settings} (ht : tasks[j]? = some t) (t' : ManagerTask Settings) :
    weight registered (tasks.set j t') + taskWeight registered t =
      weight registered tasks + taskWeight registered t' := by
  induction tasks generalizing j with
  | nil => cases ht
  | cons u tasks ih =>
    cases j with
    | zero =>
      cases ht
      simp only [weight, List.set_cons_zero, List.map_cons, List.sum_cons]
      omega
    | succ j =>
      have hrest := ih (j := j) ht
      simp only [weight, List.set_cons_succ, List.map_cons, List.sum_cons] at hrest ⊢
      omega

/-- The tasks of a `gather`. -/
theorem weight_operations (registered : Nat) (operations : List (Operation Settings)) :
    weight registered (operations.map fun op => .operation op .lookup) =
      13 * operations.length := by
  induction operations with
  | nil => rfl
  | cons op operations ih =>
    simp only [weight, List.map_cons, List.sum_cons, List.length_cons] at ih ⊢
    rw [ih]
    simp only [taskWeight, stageWeight]
    omega

/-- A stretch of `reconcile`, with the operations that it gathers, lowers the weight by what the
stages say. -/
theorem weight_reconcile (registered : Nat) {stage stage' : ReconcileStage Settings}
    (ht : w.tasks[i]? = some (.reconcile desired stage))
    (h : ReconcileStep w w' i desired stage' operations) :
    weight registered w'.tasks + reconcileWeight registered desired stage =
      weight registered w.tasks + reconcileWeight registered desired stage' +
        13 * operations.length := by
  have hset := weight_set registered ht (.reconcile desired stage')
  simp only [taskWeight] at hset
  rw [h.tasks, weight_append, weight_operations]
  omega

/-- The loop pays for the operations it gathers with the definitions it has scanned. -/
theorem scan_lighter (registered : Nat) (w : ManagerWorld Settings) (i : Nat)
    (desired : List (CameraDefinition Settings)) (operations : List (Operation Settings))
    (remaining : List (CameraDefinition Settings)) :
    ∃ stage' new, ReconcileStep w (w.scan i desired operations remaining) i desired stage' new ∧
      reconcileWeight registered desired stage' + 13 * new.length ≤
        14 * operations.length + 16 * remaining.length + 1 := by
  cases remaining with
  | cons definition remaining =>
    exact ⟨_, [], goto_reconcile .., Nat.le_refl _⟩
  | nil =>
    show ∃ stage' new, ReconcileStep w (w.operate i desired operations) i desired stage' new ∧ _
    unfold ManagerWorld.operate
    split
    · exact ⟨_, [], goto_reconcile .., Nat.zero_le _⟩
    · refine ⟨.operating (w.children operations) false, operations, ⟨rfl, rfl, rfl⟩, ?_⟩
      simp only [reconcileWeight, List.length_nil]
      omega

/-- A definition needs at most one operation. -/
theorem operationFor_length [DecidableEq Settings] (r : Registry Settings)
    (definition : CameraDefinition Settings) :
    (ManagerWorld.operationFor r definition).length ≤ 1 := by
  unfold ManagerWorld.operationFor
  split
  · exact Nat.le_refl _
  · split
    · exact Nat.zero_le _
    · split
      · exact Nat.le_refl _
      · exact Nat.zero_le _

/-- There are at most as many removals as registered cameras. -/
theorem removals_length (r : Registry Settings) (desired : List (CameraDefinition Settings)) :
    (ManagerWorld.removals r desired).length ≤ r.workers.keys.length := by
  unfold ManagerWorld.removals
  rw [List.length_map]
  exact Nat.le_trans (List.length_filter_le _ _) (Nat.le_of_eq List.length_reverse)

/-- Every stretch of `reconcile` lowers the weight. -/
theorem reconcile_lighter [DecidableEq Settings] {registered : Nat}
    {stage : ReconcileStage Settings} (ht : w.tasks[i]? = some (.reconcile desired stage))
    (hkeys : stage = .snapshotting → w.registry.workers.keys.length = registered)
    (hrun : w.runReconcile cfg i desired stage = some w') :
    weight registered w'.tasks < weight registered w.tasks := by
  -- a stretch pays for the operations it begins with the stage that it leaves
  have hlower : (∃ stage' new, ReconcileStep w w' i desired stage' new ∧
      reconcileWeight registered desired stage' + 13 * new.length <
        reconcileWeight registered desired stage) → weight registered w'.tasks <
          weight registered w.tasks := by
    intro ⟨stage', new, hnext, hlt⟩
    have hweight := weight_reconcile registered ht hnext
    omega
  have hend : ∀ result, w' = w.goto i (.reconcile desired (.ended result)) →
      0 < reconcileWeight registered desired stage → weight registered w'.tasks <
        weight registered w.tasks := by
    rintro result rfl hpos
    exact hlower ⟨_, [], goto_reconcile .., hpos⟩
  cases stage with
  | snapshotting =>
    simp only [ManagerWorld.runReconcile] at hrun
    split at hrun
    · cases hrun
      exact hend _ rfl (by simp only [reconcileWeight]; omega)
    · split at hrun <;> cases hrun
      · obtain ⟨stage', new, hnext, hle⟩ := scan_lighter registered w i desired [] desired
        refine hlower ⟨stage', new, hnext, ?_⟩
        simp only [reconcileWeight, List.length_nil] at hle ⊢
        omega
      · refine hlower ⟨_, ManagerWorld.removals w.registry desired, ⟨rfl, rfl, rfl⟩, ?_⟩
        have hlength := removals_length w.registry desired
        rw [hkeys rfl] at hlength
        simp only [reconcileWeight]
        omega
  | removing children cancelled =>
    simp only [ManagerWorld.runReconcile] at hrun
    split at hrun
    · split at hrun
      · cases hrun
        exact hend _ rfl (Nat.succ_pos _)
      · split at hrun
        · cases hrun
          exact hend _ rfl (Nat.succ_pos _)
        · split at hrun <;> cases hrun
          · obtain ⟨stage', new, hnext, hle⟩ := scan_lighter registered w i desired [] desired
            refine hlower ⟨stage', new, hnext, ?_⟩
            simp only [reconcileWeight, List.length_nil] at hle ⊢
            omega
          · exact hend _ rfl (Nat.succ_pos _)
    · cases hrun
  -- a definition pays for the one operation that it may need
  | scanning remaining operations =>
    cases remaining with
    | nil => cases hrun
    | cons definition remaining =>
      cases hrun
      obtain ⟨stage', new, hnext, hle⟩ := scan_lighter registered w i desired
        (operations ++ ManagerWorld.operationFor w.registry definition) remaining
      refine hlower ⟨stage', new, hnext, ?_⟩
      have hlength := operationFor_length w.registry definition
      simp only [reconcileWeight, List.length_append, List.length_cons] at hle ⊢
      omega
  | operating children cancelled =>
    simp only [ManagerWorld.runReconcile] at hrun
    split at hrun
    · split at hrun
      · cases hrun
        exact hend _ rfl Nat.one_pos
      · split at hrun <;> cases hrun <;> exact hend _ rfl Nat.one_pos
    · cases hrun
  | ended result => cases hrun

/-- The stretches among the steps. -/
def stretches : ManagerAct Settings → Nat
  | .run _ _ => 1
  | _ => 0

/-! ### Runs of the call -/

/-- Every step that nobody disturbs keeps what holds of the call, and every stretch lowers the
weight. -/
theorem reconciling_step [DecidableEq Settings] {stage : ReconcileStage Settings}
    {act : ManagerAct Settings} (h : Reconciling cfg r₀ desired i w stage)
    (hnodup : (desired.map (·.cameraId)).Nodup)
    (hfew : desired.length ≤ cfg.maxActiveWorkers.val)
    (hr₀ : ∀ c, viewAt r₀ c = none ↔ r₀.workers.lookup c = none) (hok : Undisturbed w act)
    (hstep : w.step cfg act = some w') :
    (∃ stage', Reconciling cfg r₀ desired i w' stage') ∧
      weight r₀.workers.keys.length w'.tasks + stretches act ≤
        weight r₀.workers.keys.length w.tasks := by
  have howned := owned_step h.owned hstep
  cases act with
  -- nobody else calls the manager
  | startCamera | stopCamera | restartCamera | reconcile | shutdown | cancel => exact hok.elim
  | run j closed =>
    cases hok
    obtain ⟨t, ht, hrun⟩ := Option.bind_eq_some_iff.mp hstep
    cases t with
    -- an operation moves nearer to its end and leaves the other cameras
    | operation op place =>
      obtain ⟨place', hchild, hphase⟩ := child_phased h hfew ht hrun
      have hne : j ≠ i := by
        rintro rfl
        rw [h.task] at ht
        cases ht
      refine ⟨⟨stage, howned, operation_locks h.locks hrun, hchild.views,
        hchild.admission.trans h.admission, ?_, hphase⟩, ?_⟩
      · rw [hchild.tasks, List.getElem?_set_ne hne]
        exact h.task
      · have hset := weight_set r₀.workers.keys.length ht (.operation op place')
        have hnearer := hchild.nearer
        rw [hchild.tasks]
        simp only [taskWeight, stretches] at hset ⊢
        omega
    | reconcile other place =>
      -- every other call of `reconcile` is over
      have hj : j = i := by
        by_contra hne
        have hended := h.phase.over ht hne fun _ _ heq => (by cases heq)
        cases place with
        | ended result => cases hrun
        | snapshotting | removing | scanning | operating => exact hended
      subst hj
      rw [h.task] at ht
      cases ht
      obtain ⟨stage', htask, hphase⟩ := reconcile_phased h hnodup hr₀ hrun
      obtain ⟨hregistry, hlocks, hcount⟩ := reconcile_registry hrun
      have hkeys : stage = .snapshotting →
          w.registry.workers.keys.length = r₀.workers.keys.length := by
        rintro rfl
        cases h.phase with
        | snapshotting workers calm others => rw [workers]
      refine ⟨⟨stage', howned, ⟨?_, ?_⟩, hregistry ▸ h.views, hregistry ▸ h.admission, htask,
        hphase⟩, reconcile_lighter h.task hkeys hrun⟩
      · rw [hlocks, hcount]
        exact h.locks.bounded
      · rw [hlocks]
        exact h.locks.apart
    | shutdown place =>
      -- callers of `shutdown` are over too
      have hne : j ≠ i := by
        rintro rfl
        rw [h.task] at ht
        cases ht
      have hended := h.phase.over ht hne fun _ _ heq => (by cases heq)
      cases place with
      | ended result => cases hrun
      | entering | awaiting => exact hended.elim
    | shutdownImpl place =>
      have hne : j ≠ i := by
        rintro rfl
        rw [h.task] at ht
        cases ht
      have hended := h.phase.over ht hne fun _ _ heq => (by cases heq)
      cases place with
      | ended failures => cases hrun
      | snapshotting | gathering => exact hended.elim
  -- a worker steps without an error, which no stage minds
  | work k v' =>
    obtain ⟨v, hv, hrun⟩ := Option.bind_eq_some_iff.mp hstep
    have hclean := hok v hv
    rw [if_pos hclean.evolves] at hrun
    cases hrun
    refine ⟨⟨stage, howned, ⟨h.locks.bounded, h.locks.apart⟩, ?_, ?_, h.task, ?_⟩, Nat.le_refl _⟩
    · intro j u hu
      rw [setWorker_objects, List.getElem?_set] at hu
      split at hu
      · split at hu <;> cases hu
        exact ⟨hclean.evolves.consistent, hclean.reported⟩
      · exact h.views j u hu
    · exact (setWorker_admission ..).trans h.admission
    · exact h.phase.eased (setWorker_workers ..) (setWorker_eased hv hclean)
  -- a lock that is collected is dropped from the table, and the others stay apart
  | collect cameraId =>
    obtain ⟨lock, -, hrun⟩ := Option.bind_eq_some_iff.mp hstep
    split at hrun <;> cases hrun
    refine ⟨⟨stage, howned, ?_, h.views, h.admission, h.task, h.phase⟩, Nat.le_refl _⟩
    have hsub : ∀ c l, (w.cameraLocks.erase cameraId).lookup c = some l →
        w.cameraLocks.lookup c = some l := by
      intro c l hlookup
      by_cases hc : c = cameraId
      · rw [hc, AList.lookup_erase] at hlookup
        cases hlookup
      · rwa [AList.lookup_erase_ne hc] at hlookup
    exact ⟨fun c l hc => h.locks.bounded c l (hsub c l hc),
      fun c c' l hc hc' => h.locks.apart c c' l (hsub c l hc) (hsub c' l hc')⟩

/-- An operation of a `gather` that is not settled can go on. -/
theorem gathering_ready [DecidableEq Settings] {stage : ReconcileStage Settings} {base : Nat}
    (h : Reconciling cfg r₀ desired i w stage)
    (hgathering : Gathering r₀ w.registry w.tasks i base operations)
    (hbusy : w.settled (List.range' base operations.length) = false) : ∃ j, Ready cfg w j := by
  obtain ⟨j, hj, hopen⟩ := List.all_eq_false.mp hbusy
  rw [List.mem_range'_1] at hj
  have hlt : j - base < operations.length := by omega
  obtain ⟨place, ht, hholds⟩ := hgathering.children _ _ (List.getElem?_eq_getElem hlt)
  have hplace : ∀ result, place ≠ .ended result := by
    rintro result rfl
    rw [show base + (j - base) = j from by omega] at ht
    rw [ManagerWorld.end?, ht] at hopen
    exact hopen rfl
  refine ⟨_, child_ready h.owned h.locks h.views (fun k op' place' hk hcamera => ?_) ht hholds
    hplace⟩
  by_cases hended : ∃ result, place' = .ended result
  · exact .inl hended
  · obtain ⟨m, hm, rfl, -⟩ :=
      hgathering.child h.task hk fun result heq => hended ⟨result, heq⟩
    rw [hgathering.only hm (List.getElem?_eq_getElem hlt) hcamera]
    exact .inr rfl

/-- As long as the call is not over some task can go on. -/
theorem reconcile_ready [DecidableEq Settings] {stage : ReconcileStage Settings}
    (h : Reconciling cfg r₀ desired i w stage) (hbusy : ∀ result, stage ≠ .ended result) :
    ∃ j, Ready cfg w j := by
  -- the call goes on by itself, or it waits for a `gather` with a task that can go on
  have hnow : (∃ w', w.runReconcile cfg i desired stage = some w') → ∃ j, Ready cfg w j :=
    fun ⟨w', hrun⟩ => ⟨i, ready_now h.task hrun⟩
  cases h.phase with
  | snapshotting workers calm others =>
    refine hnow ?_
    simp only [ManagerWorld.runReconcile]
    split
    · exact ⟨_, rfl⟩
    · split <;> exact ⟨_, rfl⟩
  | removing base operations gathering stops gone calm =>
    cases hsettled : w.settled (List.range' base operations.length) with
    | false => exact gathering_ready h gathering hsettled
    | true =>
      refine hnow ?_
      simp only [ManagerWorld.runReconcile, hsettled, if_true, Bool.false_eq_true, if_false]
      split
      · exact ⟨_, rfl⟩
      · split <;> exact ⟨_, rfl⟩
  | scanning scanned definition remaining operations => exact hnow ⟨_, rfl⟩
  | operating base operations gathering done =>
    cases hsettled : w.settled (List.range' base operations.length) with
    | false => exact gathering_ready h gathering hsettled
    | true =>
      refine hnow ?_
      simp only [ManagerWorld.runReconcile, hsettled, if_true, Bool.false_eq_true, if_false]
      split <;> exact ⟨_, rfl⟩
  | ended result => exact absurd rfl (hbusy result)

/-- What holds of the call holds along every run that nobody disturbs. -/
theorem reconciling_path [DecidableEq Settings] (hnodup : (desired.map (·.cameraId)).Nodup)
    (hfew : desired.length ≤ cfg.maxActiveWorkers.val)
    (hr₀ : ∀ c, viewAt r₀ c = none ↔ r₀.workers.lookup c = none)
    (hpath : Path (managerMachine cfg) Undisturbed w w')
    (h : ∃ stage, Reconciling cfg r₀ desired i w stage) :
    ∃ stage, Reconciling cfg r₀ desired i w' stage := by
  refine hpath.invariant (I := fun t => ∃ stage, Reconciling cfg r₀ desired i t stage) h ?_
  intro t act t' hok hstep ⟨stage, hinv⟩
  exact (reconciling_step hinv hnodup hfew hr₀ hok hstep).1

/-- As long as the call is not over a run goes on and lowers the weight. -/
theorem reconcile_advances [DecidableEq Settings] {stage : ReconcileStage Settings}
    (hnodup : (desired.map (·.cameraId)).Nodup)
    (hfew : desired.length ≤ cfg.maxActiveWorkers.val)
    (hr₀ : ∀ c, viewAt r₀ c = none ↔ r₀.workers.lookup c = none)
    (h : Reconciling cfg r₀ desired i w stage) (hbusy : ∀ result, stage ≠ .ended result) :
    ∃ w' stage', Path (managerMachine cfg) Undisturbed w w' ∧
      Reconciling cfg r₀ desired i w' stage' ∧
        weight r₀.workers.keys.length w'.tasks < weight r₀.workers.keys.length w.tasks := by
  obtain ⟨j, w₁, w₂, hpath, htasks, hstep⟩ := reconcile_ready h hbusy
  obtain ⟨stage₁, h₁⟩ := reconciling_path hnodup hfew hr₀ hpath ⟨stage, h⟩
  have hok : Undisturbed w₁ (.run j none) := rfl
  obtain ⟨⟨stage₂, h₂⟩, hlower⟩ := reconciling_step h₁ hnodup hfew hr₀ hok hstep
  rw [htasks] at hlower
  exact ⟨w₂, stage₂, .step (.run j none) hpath hok hstep, h₂, hlower⟩

/-- The call can be brought to its end. The induction is on the weight. -/
theorem reconcile_ends [DecidableEq Settings] (hnodup : (desired.map (·.cameraId)).Nodup)
    (hfew : desired.length ≤ cfg.maxActiveWorkers.val)
    (hr₀ : ∀ c, viewAt r₀ c = none ↔ r₀.workers.lookup c = none) (n : Nat) :
    ∀ {w : ManagerWorld Settings} {stage : ReconcileStage Settings},
      weight r₀.workers.keys.length w.tasks ≤ n → Reconciling cfg r₀ desired i w stage →
      ∃ w' result, Path (managerMachine cfg) Undisturbed w w' ∧
        w'.tasks[i]? = some (.reconcile desired (.ended result)) := by
  -- the call is over, or some stretch makes the weight smaller
  have hcases : ∀ {w : ManagerWorld Settings} {stage : ReconcileStage Settings},
      Reconciling cfg r₀ desired i w stage →
      (∃ w' result, Path (managerMachine cfg) Undisturbed w w' ∧
        w'.tasks[i]? = some (.reconcile desired (.ended result))) ∨
      ∃ w' stage', Path (managerMachine cfg) Undisturbed w w' ∧
        Reconciling cfg r₀ desired i w' stage' ∧
          weight r₀.workers.keys.length w'.tasks < weight r₀.workers.keys.length w.tasks := by
    intro w stage h
    by_cases hended : ∃ result, stage = .ended result
    · obtain ⟨result, rfl⟩ := hended
      exact .inl ⟨w, result, .refl, h.task⟩
    · exact .inr (reconcile_advances hnodup hfew hr₀ h fun result heq => hended ⟨result, heq⟩)
  -- induction on the weight
  induction n with
  | zero =>
    intro w stage hweight h
    rcases hcases h with hdone | ⟨w', stage', -, -, hlower⟩
    · exact hdone
    · omega
  | succ n ih =>
    intro w stage hweight h
    rcases hcases h with hdone | ⟨w', stage', hpath, h', hlower⟩
    · exact hdone
    · obtain ⟨w'', result, hrest, hresult⟩ := ih (by omega) h'
      exact ⟨w'', result, hpath.trans hrest, hresult⟩

/-- A run has no more stretches than the weight says. -/
theorem stretches_bounded [DecidableEq Settings] (hnodup : (desired.map (·.cameraId)).Nodup)
    (hfew : desired.length ≤ cfg.maxActiveWorkers.val)
    (hr₀ : ∀ c, viewAt r₀ c = none ↔ r₀.workers.lookup c = none)
    (acts : List (ManagerAct Settings)) :
    ∀ {w : ManagerWorld Settings} {stage : ReconcileStage Settings},
      Reconciling cfg r₀ desired i w stage → (managerMachine cfg).Allows Undisturbed w acts →
      (acts.map stretches).sum ≤ weight r₀.workers.keys.length w.tasks := by
  induction acts with
  | nil =>
    intro w stage _ _
    exact Nat.zero_le _
  | cons act acts ih =>
    intro w stage h ⟨hok, hrest⟩
    cases hstep : w.step cfg act with
    | none =>
      rw [show (managerMachine cfg).step w act = none from hstep] at hrest
      exact hrest.elim
    | some w' =>
      rw [show (managerMachine cfg).step w act = some w' from hstep] at hrest
      obtain ⟨⟨stage', h'⟩, hlower⟩ := reconciling_step h hnodup hfew hr₀ hok hstep
      have hbound := ih h' hrest
      rw [List.map_cons, List.sum_cons]
      omega

/-! ### The call on an idle manager -/

/-- The call begins on an idle manager. -/
theorem reconciling_call [DecidableEq Settings] (h : ManagerIdle cfg w)
    (hnodup : (desired.map (·.cameraId)).Nodup) :
    Reconciling cfg w.registry desired w.tasks.length (w.callReconcile cfg desired)
      .snapshotting := by
  have hcall : w.callReconcile cfg desired = w.spawn (.reconcile desired .snapshotting) :=
    if_pos hnodup
  have hover : ∀ (j : Nat) t, w.tasks[j]? = some t → TaskEnded t :=
    fun j t ht => h.tasks t (List.mem_of_getElem? ht)
  -- tasks that are over refer to no lock
  have howned : Owned cfg w := by
    constructor
    case registry => exact h.registry
    case places => exact fun j op lock place ht => (hover j _ ht).elim
    case fits => exact fun j op lock place ht => (hover j _ ht).elim
    case locks =>
      intro j op stage lock ht hrefers
      have hended := hover j _ ht
      cases stage with
      | ended result => cases hrefers
      | lookup | locking | inside => exact hended.elim
    case exclusive =>
      intro j k lock t u ht _ hheld _
      have hended := hover j _ ht
      cases t with
      | operation op stage =>
        cases stage with
        | ended result => cases hheld
        | lookup | locking | inside => exact hended.elim
      | reconcile | shutdown | shutdownImpl => cases hheld
  rw [hcall]
  refine ⟨owned_quiet howned (spawn_quiet w fun _ => rfl), ⟨h.locks.bounded, h.locks.apart⟩,
    h.views, h.admission, List.getElem?_concat_length, .snapshotting rfl (fun c => ?_) ?_⟩
  -- the workers are those that the call finds
  · show Option.Rel Clean (viewAt w.registry c) (viewAt w.registry c)
    cases hview : viewAt w.registry c with
    | none => exact .none
    | some v =>
      obtain ⟨k, -, hv⟩ := Option.bind_eq_some_iff.mp hview
      obtain ⟨hconsistent, hreported⟩ := h.views k v hv
      exact .some (.refl hconsistent hreported)
  -- the call is the last task
  · intro j t ht
    rcases Nat.lt_or_ge j w.tasks.length with hlt | hge
    · exact .inl (hover j t ((List.getElem?_append_left hlt).symm.trans ht))
    · have hlt := (List.getElem?_eq_some_iff.mp ht).1
      rw [show (w.spawn _).tasks = w.tasks ++ [_] from rfl, List.length_append,
        List.length_singleton] at hlt
      exact .inr (by omega)

/-- An idle manager has nothing left to do, so the weight is that of the call. -/
theorem weight_call [DecidableEq Settings] (h : ManagerIdle cfg w)
    (hnodup : (desired.map (·.cameraId)).Nodup) :
    weight w.registry.workers.keys.length (w.callReconcile cfg desired).tasks =
      14 * w.registry.workers.keys.length + 16 * desired.length + 3 := by
  have hcall : w.callReconcile cfg desired = w.spawn (.reconcile desired .snapshotting) :=
    if_pos hnodup
  -- tasks that are over weigh nothing
  have hzero : ∀ tasks : List (ManagerTask Settings), (∀ t ∈ tasks, TaskEnded t) →
      weight w.registry.workers.keys.length tasks = 0 := by
    intro tasks hover
    induction tasks with
    | nil => rfl
    | cons t tasks ih =>
      have hrest := ih fun u hu => hover u (List.mem_cons_of_mem _ hu)
      have hended := hover t List.mem_cons_self
      have hnone : taskWeight w.registry.workers.keys.length t = 0 := by
        cases t with
        | operation op stage =>
          cases stage with
          | ended result => rfl
          | lookup | locking | inside => exact hended.elim
        | reconcile other stage =>
          cases stage with
          | ended result => rfl
          | snapshotting | removing | scanning | operating => exact hended.elim
        | shutdown | shutdownImpl => rfl
      simp only [weight, List.map_cons, List.sum_cons] at hrest ⊢
      omega
  rw [hcall, show (w.spawn _).tasks = w.tasks ++ [_] from rfl, weight_append, hzero _ h.tasks,
    Nat.zero_add]
  rfl

/-- `reconcile` on an idle manager, with any registered workers and with at most
`max_active_workers` distinct desired cameras, while nobody disturbs it. It returns with the
desired cameras registered and running if and only if no registered worker has a fault. In every
case it comes to its end: it can at every point of a run, and a run has a bounded number of
stretches. -/
theorem reconcile_reaches [DecidableEq Settings] (hidle : ManagerIdle cfg w)
    (hnodup : (desired.map (·.cameraId)).Nodup)
    (hfew : desired.length ≤ cfg.maxActiveWorkers.val) :
    (∀ w' result, Path (managerMachine cfg) Undisturbed (w.callReconcile cfg desired) w' →
      w'.tasks[w.tasks.length]? = some (.reconcile desired (.ended result)) →
      ((∃ statuses, result = .ok statuses) ∧ Reached w'.registry desired ↔
        Reconcilable w.registry desired)) ∧
    (∀ w', Path (managerMachine cfg) Undisturbed (w.callReconcile cfg desired) w' →
      ∃ w'' result, Path (managerMachine cfg) Undisturbed w' w'' ∧
        w''.tasks[w.tasks.length]? = some (.reconcile desired (.ended result))) ∧
    ∀ acts, (managerMachine cfg).Allows Undisturbed (w.callReconcile cfg desired) acts →
      (acts.map stretches).sum ≤
        14 * w.registry.workers.keys.length + 16 * desired.length + 3 := by
  have hr₀ : ∀ c, viewAt w.registry c = none ↔ w.registry.workers.lookup c = none :=
    fun c => viewAt_none hidle.registry
  have hcall := reconciling_call hidle hnodup
  refine ⟨fun w' result hpath hended => ?_, fun w' hpath => ?_, fun acts hall => ?_⟩
  -- the end of the call says what the registry is like, and what it was like before
  · obtain ⟨stage, h⟩ := reconciling_path hnodup hfew hr₀ hpath ⟨_, hcall⟩
    have htask := h.task
    rw [hended] at htask
    cases htask
    cases h.phase with
    | ended _ reaches returns others =>
      constructor
      · rintro ⟨⟨statuses, hresult⟩, -⟩
        exact (reaches statuses hresult).1
      · intro hrec
        obtain ⟨statuses, hresult⟩ := returns hrec
        exact ⟨⟨statuses, hresult⟩, (reaches statuses hresult).2⟩
  · obtain ⟨stage, h⟩ := reconciling_path hnodup hfew hr₀ hpath ⟨_, hcall⟩
    exact reconcile_ends hnodup hfew hr₀ _ (Nat.le_refl _) h
  · rw [← weight_call hidle hnodup]
    exact stretches_bounded hnodup hfew hr₀ acts hcall hall

end

/-! ### A camera that had failed -/

def backDoor : CameraDefinition Nat := ⟨"back", 0⟩

/-- A worker whose capture was lost. -/
def failedView : WorkerView Nat :=
  ⟨frontDoor, 1, .failed, some ⟨.capture, "camera lost"⟩, [], false, .resolved⟩

/-- A camera is started, and its worker fails later. -/
def failedRun : List (ManagerAct Nat) :=
  [.startCamera frontDoor, .run 0 none, .run 0 none, .run 0 none, .run 0 none,
    .work 0 (viewOf frontDoor 1 .running), .run 0 none, .run 0 none, .work 0 failedView,
    .collect "door"]

def failedWorld : ManagerWorld Nat :=
  (managerMachine twoCameras).final (managerMachine twoCameras).init failedRun

/-- The world of the failed worker is reached by its run. -/
theorem failedWorld_reachable : Reachable (managerMachine twoCameras) Any failedWorld :=
  Reachable.init.final failedRun (by decide +kernel)

/-- Its one worker is the failed one. -/
theorem failedWorld_objects : failedWorld.registry.objects = [failedView] := by decide +kernel

/-- No call runs in it, and admission is open. -/
theorem failedWorld_idle : ManagerIdle twoCameras failedWorld where
  registry := (reachable_owned failedWorld_reachable).registry
  views k v hv := by
    rw [failedWorld_objects] at hv
    cases List.mem_singleton.mp (List.mem_of_getElem? hv)
    exact ⟨(by decide), (by decide)⟩
  locks := by
    have hentries : failedWorld.cameraLocks.entries = [] := by decide +kernel
    have hnone : ∀ c lock, failedWorld.cameraLocks.lookup c ≠ some lock := by
      intro c lock
      rw [AList.lookup, hentries]
      exact fun h => (by cases h)
    exact ⟨fun c lock h => absurd h (hnone c lock), fun c _ lock h _ => absurd h (hnone c lock)⟩
  tasks t ht := by
    have htasks : failedWorld.tasks = [.operation (.start frontDoor) (.ended (.returned
        (operationResult .start .started (some (viewOf frontDoor 1 .running).status)
          "door")))] := by
      decide +kernel
    rw [htasks] at ht
    cases List.mem_singleton.mp ht
    trivial
  admission := by decide +kernel

/-- The only registered worker is the one that failed. -/
theorem failedWorld_view {c : String} {v : WorkerView Nat}
    (hv : viewAt failedWorld.registry c = some v) : c = "door" ∧ v = failedView := by
  obtain ⟨k, hk, hv⟩ := Option.bind_eq_some_iff.mp hv
  obtain ⟨u, hu, hcamera⟩ := failedWorld_idle.registry.entry c k hk
  rw [hv] at hu
  cases hu
  rw [failedWorld_objects] at hv
  cases List.mem_singleton.mp (List.mem_of_getElem? hv)
  exact ⟨hcamera.symm, rfl⟩

/-- The camera is started again. -/
def restartingRun : List (ManagerAct Nat) :=
  [.run 1 none, .run 1 none, .run 2 none, .run 2 none, .run 2 none, .run 2 none, .run 2 none,
    .run 2 none, .work 1 (viewOf frontDoor 2 .running), .run 2 none, .run 2 none, .run 1 none]

def restartedWorld : ManagerWorld Nat :=
  (managerMachine twoCameras).final (failedWorld.callReconcile twoCameras [frontDoor])
    restartingRun

/-- The definitions of a `reconcile` that returned. -/
def reconciled : ManagerTask Nat → Option (List (CameraDefinition Nat))
  | .reconcile desired (.ended _) => some desired
  | _ => none

/-- A task whose definitions are read off is a `reconcile` that returned. -/
theorem reconciled_eq {t : ManagerTask Nat} {desired : List (CameraDefinition Nat)}
    (h : reconciled t = some desired) : ∃ result, t = .reconcile desired (.ended result) := by
  unfold reconciled at h
  split at h
  · cases h
    exact ⟨_, rfl⟩
  · cases h

/-- The call returned. -/
theorem restarted_returned : ∃ result, restartedWorld.tasks[failedWorld.tasks.length]? =
    some (.reconcile [frontDoor] (.ended result)) := by
  have hended : (restartedWorld.tasks[failedWorld.tasks.length]?.bind reconciled) =
      some [frontDoor] := by decide +kernel
  obtain ⟨t, ht, hreconciled⟩ := Option.bind_eq_some_iff.mp hended
  obtain ⟨result, rfl⟩ := reconciled_eq hreconciled
  exact ⟨result, ht⟩

/-- The camera runs with its desired definition again. -/
theorem restarted_reached : Reached restartedWorld.registry [frontDoor] := by
  obtain ⟨result, hreturned⟩ := restarted_returned
  refine (((reconcile_reaches failedWorld_idle (by decide) (by decide)).1 restartedWorld result
    (Machine.Path.final .refl restartingRun (by decide +kernel)) hreturned).mpr ?_).2
  constructor
  · intro c v hv hc
    obtain ⟨rfl, -⟩ := failedWorld_view hv
    exact absurd (List.mem_singleton.mpr rfl) hc
  · intro definition _ v hv
    obtain ⟨-, rfl⟩ := failedWorld_view hv
    exact .inr rfl

/-- Another camera is desired instead. -/
def replacingCall : List (ManagerAct Nat) :=
  [.run 1 none, .run 2 none, .run 2 none, .run 2 none, .run 2 none, .run 2 none, .run 1 none]

def unreplacedWorld : ManagerWorld Nat :=
  (managerMachine twoCameras).final (failedWorld.callReconcile twoCameras [backDoor])
    replacingCall

/-- The camera that had failed is closed without an error, and the call raises what the worker had
failed with before it. The desired camera is not started. -/
theorem failed_removal_raises :
    ManagerIdle twoCameras failedWorld ∧
      Path (managerMachine twoCameras) Undisturbed
        (failedWorld.callReconcile twoCameras [backDoor]) unreplacedWorld ∧
      unreplacedWorld.tasks[1]? = some (.reconcile [backDoor]
        (.ended (.error (.shutdown [⟨.capture, "camera lost"⟩])))) ∧
      unreplacedWorld.registry.workers.keys = [] :=
  ⟨failedWorld_idle, Machine.Path.final .refl replacingCall (by decide +kernel), by decide +kernel,
    by decide +kernel⟩

end Rsap.Proofs
