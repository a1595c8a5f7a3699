import Rsap.Proofs.CameraOwnership

/-!
# `Rsap.Proofs.ManagerShutdown`: shutdown is final and complete

`ManagerCases` is the inversion of a step of the manager. `ShutdownHeld` is the invariant. While
`_shutdown_impl` gathers, every camera that is still registered has a task of the `gather` that is
not over: the snapshot is taken after admission closed, so no camera comes in, and a task of the
`gather` ends without an entry of its camera. So when the shared task is over the registry is
empty, and it stays empty. A caller of `shutdown` takes its result from the shared task.
-/

set_option autoImplicit false

namespace Rsap.Proofs

open Rsap.Library
open Rsap.Library.Machine (Reachable Path Any)
open Rsap.Orchestration

section
variable {Settings : Type} {cfg : ManagerConfig}

/-! ### The steps of the manager -/

/-- A task that a caller of the manager begins. -/
inductive FreshCall : ManagerTask Settings → Prop where
  | operation (op : Operation Settings) : FreshCall (.operation op .lookup)
  | reconcile (desired : List (CameraDefinition Settings)) (stage : ReconcileStage Settings) :
      FreshCall (.reconcile desired stage)
  | shutdown : FreshCall (.shutdown .entering)

/-- What a step of the manager can do. -/
inductive ManagerCases (cfg : ManagerConfig) (w w' : ManagerWorld Settings) : Prop where
  | called (t : ManagerTask Settings) (fresh : FreshCall t) (tasks : w'.tasks = w.tasks ++ [t])
      (registry : w'.registry = w.registry) (shutdownTask : w'.shutdownTask = w.shutdownTask)
  | operated (i : Nat) (op : Operation Settings) (stage stage' : Stage Settings)
      (task : w.tasks[i]? = some (.operation op stage)) (busy : ∀ result, stage ≠ .ended result)
      (tasks : w'.tasks = w.tasks.set i (.operation op stage'))
      (registry : RegistryStep cfg op.cameraId w.registry w'.registry)
      (ended : ∀ c result, op = .shutdown c → stage' = .ended result →
        w'.registry.workers.lookup c = none)
      (shutdownTask : w'.shutdownTask = w.shutdownTask)
  | reconciled (i : Nat) (desired : List (CameraDefinition Settings))
      (stage stage' : ReconcileStage Settings) (operations : List (Operation Settings))
      (task : w.tasks[i]? = some (.reconcile desired stage))
      (tasks : w'.tasks = w.tasks.set i (.reconcile desired stage') ++
        operations.map fun op => .operation op .lookup)
      (registry : w'.registry = w.registry) (shutdownTask : w'.shutdownTask = w.shutdownTask)
  | entered (i task : Nat) (new : List (ManagerTask Settings))
      (entering : w.tasks[i]? = some (.shutdown .entering))
      (tasks : w'.tasks = w.tasks.set i (.shutdown (.awaiting task)) ++ new)
      (registry : w'.registry = { w.registry with admissionClosed := true })
      (shutdownTask : w'.shutdownTask = some task)
      (shared : w.shutdownTask = some task ∧ new = [] ∨
        w.shutdownTask = none ∧ task = w.tasks.length ∧ new = [.shutdownImpl .snapshotting])
  | awaited (i task : Nat) (failures : List OrchestrationFailure)
      (awaiting : w.tasks[i]? = some (.shutdown (.awaiting task)))
      (shared : w.tasks[task]? = some (.shutdownImpl (.ended failures)))
      (tasks : w'.tasks =
        w.tasks.set i (.shutdown (.ended (ManagerWorld.shutdownResult failures))))
      (registry : w'.registry = w.registry) (shutdownTask : w'.shutdownTask = w.shutdownTask)
  | abandoned (i : Nat) (stage : ShutdownStage) (task : w.tasks[i]? = some (.shutdown stage))
      (busy : ∀ result, stage ≠ .ended result)
      (tasks : w'.tasks = w.tasks.set i (.shutdown (.ended (.error .cancelled))))
      (registry : w'.registry = w.registry) (shutdownTask : w'.shutdownTask = w.shutdownTask)
  | snapshot (i : Nat) (task : w.tasks[i]? = some (.shutdownImpl .snapshotting))
      (tasks : w'.tasks = w.tasks.set i (.shutdownImpl (.gathering w.registry.workers.keys.reverse
          (List.range' w.tasks.length w.registry.workers.keys.length))) ++
        w.registry.workers.keys.reverse.map fun c => .operation (.shutdown c) .lookup)
      (registry : w'.registry = w.registry) (shutdownTask : w'.shutdownTask = w.shutdownTask)
  | gathered (i : Nat) (cameraIds : List String) (children : List Nat)
      (failures : List OrchestrationFailure)
      (task : w.tasks[i]? = some (.shutdownImpl (.gathering cameraIds children)))
      (settled : w.settled children = true)
      (tasks : w'.tasks = w.tasks.set i (.shutdownImpl (.ended failures)))
      (workers : w'.registry.workers = w.registry.workers)
      (objects : w'.registry.objects = w.registry.objects)
      (admission : w'.registry.admissionClosed = w.registry.admissionClosed)
      (shutdownTask : w'.shutdownTask = w.shutdownTask)
  | environment (tasks : w'.tasks = w.tasks) (workers : w'.registry.workers = w.registry.workers)
      (objects : SameWorkers w.registry.objects w'.registry.objects)
      (admission : w'.registry.admissionClosed = w.registry.admissionClosed)
      (shutdownTask : w'.shutdownTask = w.shutdownTask)

/-- A task of `_shutdown_impl` that ends leaves no entry of its camera. -/
theorem shutdown_ends {r r' : Registry Settings} {c : String}
    {closed : Option OrchestrationFailure} {place : Section Settings} {result : OperationEnd}
    (hplace : SectionHolds r c place) (hfits : PlaceFits (.shutdown c) place)
    (h : runSection cfg r (.shutdown c) closed place = some (r', .ended result)) :
    r'.workers.lookup c = none := by
  cases place with
  | finding =>
    simp only [runSection, found] at h
    split at h
    · rename_i habsent
      cases h
      exact habsent
    · obtain ⟨v, -, hrun⟩ := Option.bind_eq_some_iff.mp h
      cases hrun
  | stopping k =>
    obtain ⟨v, -, hrun⟩ := Option.bind_eq_some_iff.mp h
    split at hrun <;> cases hrun
  | removing k status failures =>
    obtain ⟨v, -, hrun⟩ := Option.map_eq_some_iff.mp h
    cases hrun
    exact removed_absent hplace.1
  | registering definition => rcases hfits with h | h <;> cases h
  | starting | cancelling | waiting | dropping | admitting | withdrawing | expelling =>
    obtain ⟨definition, h | h⟩ := hfits <;> cases h

/-- A stretch of an operation, as a case of a step. -/
theorem operation_cases {w w' : ManagerWorld Settings} {i : Nat}
    {closed : Option OrchestrationFailure} {op : Operation Settings} {stage : Stage Settings}
    (howned : Owned cfg w) (ht : w.tasks[i]? = some (.operation op stage))
    (hstep : w.runOperation cfg i closed op stage = some w') : ManagerCases cfg w w' := by
  cases stage with
  | lookup =>
    cases hstep
    -- the lock of the camera is the one in the table, or a new one
    have hlocking : ∃ lock locks count, w.getCameraLock i op =
        { w with cameraLocks := locks, locks := count }.goto i
          (.operation op (.locking lock)) := by
      unfold ManagerWorld.getCameraLock
      split <;> exact ⟨_, _, _, rfl⟩
    obtain ⟨lock, locks, count, heq⟩ := hlocking
    rw [heq]
    exact .operated i op _ (.locking lock) ht (fun _ h => by cases h) rfl (keeps_self _ _)
      (fun _ _ _ h => by cases h) rfl
  | locking lock =>
    simp only [ManagerWorld.runOperation] at hstep
    split at hstep <;> cases hstep
    exact .operated i op _ (.inside lock .finding) ht (fun _ h => by cases h) rfl
      (keeps_self _ _) (fun _ _ _ h => by cases h) rfl
  -- what the stretch does to the registry is known from the place inside the lock
  | inside lock place =>
    obtain ⟨⟨r, progress⟩, hrun, rfl⟩ := Option.map_eq_some_iff.mp hstep
    have hplace := howned.places i op lock place ht
    have hfits := howned.fits i op lock place ht
    refine .operated i op _ (progress.stage lock) ht (fun _ h => by cases h) rfl
      (section_stretch hplace hfits hrun).registry ?_ rfl
    intro c result hop hover
    subst hop
    cases progress with
    | next place => cases hover
    | ended end_ => exact shutdown_ends hplace hfits hrun
  | ended result => cases hstep

/-- A cancellation of an operation other than one of `_shutdown_impl`, as a case of a step. -/
theorem cancel_cases {w w' : ManagerWorld Settings} {i : Nat}
    {closed : Option OrchestrationFailure} {op : Operation Settings} {stage : Stage Settings}
    (howned : Owned cfg w) (ht : w.tasks[i]? = some (.operation op stage))
    (hplain : ∀ c, op ≠ .shutdown c)
    (hstep : w.cancelOperation cfg i closed op stage = some w') : ManagerCases cfg w w' := by
  have hended : ∀ (r : Registry Settings) (stage' : Stage Settings) c result,
      op = .shutdown c → stage' = .ended result → r.workers.lookup c = none :=
    fun _ _ c _ h => absurd h (hplain c)
  cases stage with
  | lookup | locking =>
    cases hstep
    exact .operated i op _ _ ht (fun _ h => by cases h) rfl (keeps_self _ _) (hended _ _) rfl
  | inside lock place =>
    obtain ⟨⟨r, progress⟩, hrun, rfl⟩ := Option.map_eq_some_iff.mp hstep
    have hstretch := cancel_stretch (howned.places i op lock place ht)
      (howned.fits i op lock place ht) hrun
    exact .operated i op _ (progress.stage lock) ht (fun _ h => by cases h) rfl
      hstretch.registry (hended _ _) rfl
  | ended result => cases hstep

/-- A step of `reconcile` goes on and begins operations. -/
structure ReconcileStep (w w' : ManagerWorld Settings) (i : Nat)
    (desired : List (CameraDefinition Settings)) (stage' : ReconcileStage Settings)
    (operations : List (Operation Settings)) : Prop where
  tasks : w'.tasks = w.tasks.set i (.reconcile desired stage') ++
    operations.map fun op => .operation op .lookup
  registry : w'.registry = w.registry
  shutdownTask : w'.shutdownTask = w.shutdownTask

/-- `reconcile` goes on and begins no operation. -/
theorem goto_reconcile (w : ManagerWorld Settings) (i : Nat)
    (desired : List (CameraDefinition Settings)) (stage' : ReconcileStage Settings) :
    ReconcileStep w (w.goto i (.reconcile desired stage')) i desired stage' [] :=
  ⟨(List.append_nil _).symm, rfl, rfl⟩

/-- `reconcile` begins the operations that it gathers. -/
theorem operate_reconcile (w : ManagerWorld Settings) (i : Nat)
    (desired : List (CameraDefinition Settings)) (operations : List (Operation Settings)) :
    ∃ stage' new, ReconcileStep w (w.operate i desired operations) i desired stage' new := by
  unfold ManagerWorld.operate
  split
  · exact ⟨_, _, goto_reconcile ..⟩
  · exact ⟨_, operations, rfl, rfl, rfl⟩

/-- `reconcile` goes on after a turn of its loop. -/
theorem scan_reconcile (w : ManagerWorld Settings) (i : Nat)
    (desired : List (CameraDefinition Settings)) (operations : List (Operation Settings))
    (remaining : List (CameraDefinition Settings)) :
    ∃ stage' new, ReconcileStep w (w.scan i desired operations remaining) i desired stage' new := by
  unfold ManagerWorld.scan
  split
  · exact operate_reconcile w i desired operations
  · exact ⟨_, _, goto_reconcile ..⟩

/-- A stretch of `reconcile` goes on and begins operations, and it is not over before. -/
theorem reconcile_cases [DecidableEq Settings] {w w' : ManagerWorld Settings} {i : Nat}
    {desired : List (CameraDefinition Settings)} {stage : ReconcileStage Settings}
    (h : w.runReconcile cfg i desired stage = some w') :
    (∀ result, stage ≠ .ended result) ∧ ∃ stage' new, ReconcileStep w w' i desired stage' new := by
  cases stage with
  | snapshotting =>
    refine ⟨fun _ h => (by cases h), ?_⟩
    simp only [ManagerWorld.runReconcile] at h
    split at h
    · cases h
      exact ⟨_, _, goto_reconcile ..⟩
    · split at h
      · cases h
        exact scan_reconcile ..
      · cases h
        exact ⟨_, ManagerWorld.removals w.registry desired, rfl, rfl, rfl⟩
  -- it raises a failure of the `gather`, returns a failed removal, or begins its loop
  | removing children cancelled =>
    refine ⟨fun _ h => (by cases h), ?_⟩
    simp only [ManagerWorld.runReconcile] at h
    split at h
    · split at h
      · cases h
        exact ⟨_, _, goto_reconcile ..⟩
      · split at h
        · cases h
          exact ⟨_, _, goto_reconcile ..⟩
        · split at h
          · cases h
            exact scan_reconcile ..
          · cases h
            exact ⟨_, _, goto_reconcile ..⟩
    · cases h
  | scanning remaining operations =>
    refine ⟨fun _ h => (by cases h), ?_⟩
    cases remaining with
    | nil => cases h
    | cons definition remaining =>
      cases h
      exact scan_reconcile ..
  -- after the last `gather` it only ends
  | operating children cancelled =>
    refine ⟨fun _ h => (by cases h), ?_⟩
    simp only [ManagerWorld.runReconcile] at h
    split at h
    · split at h
      · cases h
        exact ⟨_, _, goto_reconcile ..⟩
      · split at h <;> cases h <;> exact ⟨_, _, goto_reconcile ..⟩
    · cases h
  | ended result => cases h

/-- A stretch of a caller of `shutdown`, as a case of a step. -/
theorem shutdown_cases {w w' : ManagerWorld Settings} {i : Nat} {stage : ShutdownStage}
    (ht : w.tasks[i]? = some (.shutdown stage)) (h : w.runShutdown i stage = some w') :
    ManagerCases cfg w w' := by
  cases stage with
  | entering =>
    simp only [ManagerWorld.runShutdown] at h
    split at h
    · rename_i task hshared
      cases h
      exact .entered i task [] ht (List.append_nil _).symm rfl hshared (.inl ⟨hshared, rfl⟩)
    · rename_i hnone
      cases h
      exact .entered i _ _ ht rfl rfl rfl (.inr ⟨hnone, rfl, rfl⟩)
  | awaiting task =>
    simp only [ManagerWorld.runShutdown] at h
    split at h
    · rename_i failures hshared
      cases h
      exact .awaited i task failures ht hshared rfl rfl rfl
    · cases h
  | ended result => cases h

/-- A stretch of the shared task, as a case of a step. -/
theorem shutdownImpl_cases {w w' : ManagerWorld Settings} {i : Nat} {stage : ShutdownImplStage}
    (ht : w.tasks[i]? = some (.shutdownImpl stage))
    (h : w.runShutdownImpl cfg i stage = some w') : ManagerCases cfg w w' := by
  cases stage with
  | snapshotting =>
    cases h
    refine .snapshot i ht ?_ rfl rfl
    simp [ManagerWorld.spawnAll, ManagerWorld.goto, ManagerWorld.children, Function.comp_def]
  | gathering cameraIds children =>
    simp only [ManagerWorld.runShutdownImpl] at h
    split at h
    · rename_i hsettled
      cases h
      exact .gathered i cameraIds children _ ht hsettled rfl rfl rfl rfl rfl
    · cases h
  | ended failures => cases h

/-- Inversion of a step. -/
theorem manager_cases [DecidableEq Settings] {w w' : ManagerWorld Settings}
    {act : ManagerAct Settings}
    (howned : Owned cfg w) (hstep : w.step cfg act = some w') : ManagerCases cfg w w' := by
  -- a stretch and a cancellation of `reconcile` are one case
  have hreconcile : ∀ {i desired stage}, w.tasks[i]? = some (.reconcile desired stage) →
      (∃ stage' new, ReconcileStep w w' i desired stage' new) → ManagerCases cfg w w' := by
    intro i desired stage ht ⟨stage', new, hnew⟩
    exact .reconciled i desired stage stage' new ht hnew.tasks hnew.registry hnew.shutdownTask
  cases act with
  -- calls create their task
  | startCamera definition =>
    cases hstep
    exact .called _ (.operation (.start definition)) rfl rfl rfl
  | stopCamera cameraId =>
    cases hstep
    exact .called _ (.operation (.stop cameraId)) rfl rfl rfl
  | restartCamera definition =>
    cases hstep
    exact .called _ (.operation (.restart definition)) rfl rfl rfl
  | reconcile desired =>
    cases hstep
    unfold ManagerWorld.callReconcile
    split <;> exact .called _ (.reconcile desired _) rfl rfl rfl
  | shutdown =>
    cases hstep
    exact .called _ .shutdown rfl rfl rfl
  | run i closed =>
    obtain ⟨t, ht, hrun⟩ := Option.bind_eq_some_iff.mp hstep
    cases t with
    | operation op stage => exact operation_cases howned ht hrun
    | reconcile desired stage => exact hreconcile ht (reconcile_cases hrun).2
    | shutdown stage => exact shutdown_cases ht hrun
    | shutdownImpl stage => exact shutdownImpl_cases ht hrun
  -- the operations of `_shutdown_impl` and its task are shielded
  | cancel i closed =>
    obtain ⟨t, ht, hrun⟩ := Option.bind_eq_some_iff.mp hstep
    cases t with
    | operation op stage =>
      cases op with
      | shutdown cameraId => cases hrun
      | start | restart | stop => exact cancel_cases howned ht (fun _ h => by cases h) hrun
    | reconcile desired stage =>
      refine hreconcile ht ?_
      cases stage with
      | snapshotting | removing | scanning | operating =>
        cases hrun
        exact ⟨_, _, goto_reconcile ..⟩
      | ended result => cases hrun
    | shutdown stage =>
      cases stage with
      | entering | awaiting =>
        cases hrun
        exact .abandoned i _ ht (fun _ h => by cases h) rfl rfl rfl
      | ended => cases hrun
    | shutdownImpl stage => cases hrun
  -- workers step by themselves, and locks are collected, without a task of the manager
  | work k v' =>
    obtain ⟨v, hv, hrun⟩ := Option.bind_eq_some_iff.mp hstep
    split at hrun
    · rename_i hevolves
      cases hrun
      refine .environment rfl (setWorker_workers ..) ?_ (setWorker_admission ..) rfl
      rw [setWorker_objects]
      exact evolves_same hv hevolves
    · cases hrun
  | collect cameraId =>
    obtain ⟨lock, -, hrun⟩ := Option.bind_eq_some_iff.mp hstep
    split at hrun <;> cases hrun
    exact .environment rfl rfl (.refl _) rfl rfl

end

/-! ### The shared task -/

section
variable {Settings : Type} {cfg : ManagerConfig}

/-- What the shared task, its `gather` and the callers of `shutdown` know. -/
structure ShutdownHeld (w : ManagerWorld Settings) : Prop where
  closed : ∀ t, w.shutdownTask = some t → w.registry.admissionClosed = true
  shared : ∀ t, w.shutdownTask = some t → ∃ stage, w.tasks[t]? = some (.shutdownImpl stage)
  only : ∀ (i : Nat) stage, w.tasks[i]? = some (.shutdownImpl stage) → w.shutdownTask = some i
  awaiting : ∀ (i task : Nat), w.tasks[i]? = some (.shutdown (.awaiting task)) →
    w.shutdownTask = some task
  gathering : ∀ (t : Nat) cameraIds children,
    w.tasks[t]? = some (.shutdownImpl (.gathering cameraIds children)) →
    ∀ c, c ∈ w.registry.workers → ∃ child ∈ children, ∃ stage,
      w.tasks[child]? = some (.operation (.shutdown c) stage) ∧ ∀ result, stage ≠ .ended result
  ended : ∀ (t : Nat) failures, w.tasks[t]? = some (.shutdownImpl (.ended failures)) →
    ∀ c, c ∉ w.registry.workers
  results : ∀ (i : Nat) result, w.tasks[i]? = some (.shutdown (.ended result)) →
    result = .error .cancelled ∨ ∃ (t : Nat) (failures : List OrchestrationFailure),
      w.tasks[t]? = some (.shutdownImpl (.ended failures)) ∧
        result = ManagerWorld.shutdownResult failures

/-- Nobody has called `shutdown` of the new manager. -/
theorem shutdownHeld_init : ShutdownHeld (ManagerWorld.new : ManagerWorld Settings) where
  closed t h := by cases h
  shared t h := by cases h
  only i stage h := by cases h
  awaiting i task h := by cases h
  gathering t cameraIds children h := by cases h
  ended t failures h := by cases h
  results i result h := by cases h

/-- After admission closed no camera comes in and no worker is created. -/
theorem RegistryStep.shut {c : String} {r r' : Registry Settings} (h : RegistryStep cfg c r r')
    (hclosed : r.admissionClosed = true) :
    (∀ c', c' ∈ r'.workers → c' ∈ r.workers) ∧ r'.objects.length = r.objects.length := by
  cases h with
  | keep workers objects admission => exact ⟨fun _ h => workers ▸ h, objects.length⟩
  | remove k v lookup view done workers objects admission =>
    refine ⟨fun c' h => ?_, by rw [objects]⟩
    rw [workers] at h
    exact (AList.mem_erase.mp h).2
  | add v absent camera room admitted workers objects admission =>
    rw [hclosed] at admitted
    cases admitted

/-- A stretch of an operation neither opens nor closes admission. -/
theorem RegistryStep.admission {c : String} {r r' : Registry Settings}
    (h : RegistryStep cfg c r r') : r'.admissionClosed = r.admissionClosed := by
  cases h with
  | keep workers objects admission => exact admission
  | remove k v lookup view done workers objects admission => exact admission
  | add v absent camera room admitted workers objects admission => exact admission

/-- A step that leaves the callers of `shutdown` and the shared task. An operation of the `gather`
that ends leaves no entry of its camera. -/
structure BackgroundStep (w w' : ManagerWorld Settings) : Prop where
  shutdownTask : w'.shutdownTask = w.shutdownTask
  admission : w'.registry.admissionClosed = w.registry.admissionClosed
  callers : ∀ (i : Nat) stage, w'.tasks[i]? = some (.shutdown stage) →
    w.tasks[i]? = some (.shutdown stage) ∨ stage = .entering
  shared : ∀ (i : Nat) stage, w'.tasks[i]? = some (.shutdownImpl stage) ↔
    w.tasks[i]? = some (.shutdownImpl stage)
  gathered : ∀ (i : Nat) c stage, w.tasks[i]? = some (.operation (.shutdown c) stage) →
    (∀ result, stage ≠ .ended result) → c ∈ w'.registry.workers → ∃ stage',
      w'.tasks[i]? = some (.operation (.shutdown c) stage') ∧ ∀ result, stage' ≠ .ended result
  workers : w.registry.admissionClosed = true →
    ∀ c, c ∈ w'.registry.workers → c ∈ w.registry.workers

/-- The shared task is over or goes on as before. -/
theorem BackgroundStep.held {w w' : ManagerWorld Settings} (hb : BackgroundStep w w')
    (h : ShutdownHeld w) : ShutdownHeld w' := by
  constructor
  case closed =>
    intro t ht
    rw [hb.admission]
    exact h.closed t (hb.shutdownTask ▸ ht)
  case shared =>
    intro t ht
    obtain ⟨stage, hstage⟩ := h.shared t (hb.shutdownTask ▸ ht)
    exact ⟨stage, (hb.shared t stage).mpr hstage⟩
  case only =>
    intro i stage hi
    rw [hb.shutdownTask]
    exact h.only i stage ((hb.shared i stage).mp hi)
  case awaiting =>
    intro i task hi
    rw [hb.shutdownTask]
    rcases hb.callers i _ hi with hold | hnew
    · exact h.awaiting i task hold
    · cases hnew
  -- a camera that is still there was there before, and its operation still runs
  case gathering =>
    intro t cameraIds children ht c hc
    have hbefore := (hb.shared t _).mp ht
    have hclosed := h.closed t (h.only t _ hbefore)
    obtain ⟨child, hchild, stage, hstage, hbusy⟩ :=
      h.gathering t cameraIds children hbefore c (hb.workers hclosed c hc)
    exact ⟨child, hchild, hb.gathered child c stage hstage hbusy hc⟩
  case ended =>
    intro t failures ht c hc
    have hbefore := (hb.shared t _).mp ht
    have hclosed := h.closed t (h.only t _ hbefore)
    exact h.ended t failures hbefore c (hb.workers hclosed c hc)
  -- a caller that ended before keeps its result
  case results =>
    intro i result hi
    rcases hb.callers i _ hi with hold | hnew
    · rcases h.results i result hold with hcancelled | ⟨t, failures, ht, hresult⟩
      · exact .inl hcancelled
      · exact .inr ⟨t, failures, (hb.shared t _).mpr ht, hresult⟩
    · cases hnew

/-- The tasks after one of them went on and new ones began. -/
theorem set_append_task {tasks new : List (ManagerTask Settings)} {i j : Nat}
    {t u : ManagerTask Settings} (h : (tasks.set i t ++ new)[j]? = some u) :
    (j = i ∧ u = t) ∨ (j ≠ i ∧ tasks[j]? = some u) ∨ u ∈ new := by
  rcases Nat.lt_or_ge j (tasks.set i t).length with hlt | hge
  · rw [List.getElem?_append_left hlt] at h
    rcases set_task h with hown | hold
    · exact .inl hown
    · exact .inr (.inl hold)
  · rw [List.getElem?_append_right hge] at h
    exact .inr (.inr (List.mem_of_getElem? h))

/-- The other tasks are still there. -/
theorem set_append_other {tasks new : List (ManagerTask Settings)} {i j : Nat}
    {t u : ManagerTask Settings} (h : tasks[j]? = some u) (hne : j ≠ i) :
    (tasks.set i t ++ new)[j]? = some u := by
  have hlt := (List.getElem?_eq_some_iff.mp h).1
  rw [List.getElem?_append_left (by rw [List.length_set]; exact hlt),
    List.getElem?_set_ne (Ne.symm hne)]
  exact h

/-- The task that went on. -/
theorem set_append_self {tasks new : List (ManagerTask Settings)} {i : Nat}
    {t u : ManagerTask Settings} (h : tasks[i]? = some u) :
    (tasks.set i t ++ new)[i]? = some t := by
  have hlt := (List.getElem?_eq_some_iff.mp h).1
  rw [List.getElem?_append_left (by rw [List.length_set]; exact hlt), List.getElem?_set_self hlt]

/-- A step of a task that is no caller of `shutdown` and not the shared one. -/
theorem background_task {w w' : ManagerWorld Settings} {i : Nat} {t t' : ManagerTask Settings}
    {new : List (ManagerTask Settings)} (ht : w.tasks[i]? = some t)
    (htasks : w'.tasks = w.tasks.set i t' ++ new)
    (hplain : ∀ u ∈ [t, t'], (∀ stage, u ≠ .shutdown stage) ∧ ∀ stage, u ≠ .shutdownImpl stage)
    (hnew : ∀ u ∈ new, (∀ stage, u ≠ .shutdown stage) ∧ ∀ stage, u ≠ .shutdownImpl stage)
    (hchild : ∀ c stage, t = .operation (.shutdown c) stage → (∀ result, stage ≠ .ended result) →
      c ∈ w'.registry.workers →
      ∃ stage', t' = .operation (.shutdown c) stage' ∧ ∀ result, stage' ≠ .ended result)
    (hshutdown : w'.shutdownTask = w.shutdownTask)
    (hadmission : w'.registry.admissionClosed = w.registry.admissionClosed)
    (hworkers : w.registry.admissionClosed = true →
      ∀ c, c ∈ w'.registry.workers → c ∈ w.registry.workers) : BackgroundStep w w' := by
  refine ⟨hshutdown, hadmission, ?_, ?_, ?_, hworkers⟩
  -- neither the task that moved nor a new one is a caller of `shutdown`
  · intro j stage hj
    rw [htasks] at hj
    rcases set_append_task hj with ⟨-, heq⟩ | ⟨-, hold⟩ | hmem
    · exact absurd heq.symm ((hplain t' (by simp)).1 stage)
    · exact .inl hold
    · exact absurd rfl ((hnew _ hmem).1 stage)
  · intro j stage
    rw [htasks]
    constructor
    · intro hj
      rcases set_append_task hj with ⟨-, heq⟩ | ⟨-, hold⟩ | hmem
      · exact absurd heq.symm ((hplain t' (by simp)).2 stage)
      · exact hold
      · exact absurd rfl ((hnew _ hmem).2 stage)
    · intro hj
      refine set_append_other hj fun hij => ?_
      rw [hij, ht] at hj
      exact (hplain t (by simp)).2 stage (Option.some.inj hj)
  -- the operation of a camera that is left is the one that moved, or it did not move
  · intro j c stage hj hbusy hc
    rw [htasks]
    by_cases hij : j = i
    · subst hij
      rw [ht] at hj
      obtain ⟨stage', rfl, hbusy'⟩ := hchild c stage (Option.some.inj hj) hbusy hc
      exact ⟨stage', set_append_self ht, hbusy'⟩
    · exact ⟨stage, set_append_other hj hij, hbusy⟩

/-- A step that leaves the registry and the shared task, and takes a caller of `shutdown` to its
end. -/
theorem held_caller {w w' : ManagerWorld Settings} {i : Nat} {stage : ShutdownStage}
    {result : Except ManagerError Unit} (h : ShutdownHeld w)
    (ht : w.tasks[i]? = some (.shutdown stage))
    (htasks : w'.tasks = w.tasks.set i (.shutdown (.ended result)))
    (hregistry : w'.registry = w.registry) (hshutdown : w'.shutdownTask = w.shutdownTask)
    (hresult : result = .error .cancelled ∨ ∃ (t : Nat) (failures : List OrchestrationFailure),
      w.tasks[t]? = some (.shutdownImpl (.ended failures)) ∧
        result = ManagerWorld.shutdownResult failures) : ShutdownHeld w' := by
  -- only the caller moved
  have hold : ∀ {j : Nat} {u : ManagerTask Settings}, w'.tasks[j]? = some u →
      u ≠ .shutdown (.ended result) →
      w.tasks[j]? = some u := by
    intro j u hj hne
    rw [htasks] at hj
    rcases set_task hj with ⟨-, heq⟩ | ⟨-, h⟩
    · exact absurd heq hne
    · exact h
  -- so every other task is where it was
  have hkept : ∀ {j : Nat} {u : ManagerTask Settings}, w.tasks[j]? = some u →
      (∀ stage, u ≠ .shutdown stage) →
      w'.tasks[j]? = some u := by
    intro j u hj hne
    rw [htasks]
    have hij : i ≠ j := by
      rintro rfl
      rw [ht] at hj
      exact hne stage (Option.some.inj hj).symm
    rw [List.getElem?_set_ne hij]
    exact hj
  constructor
  case closed => rw [hregistry, hshutdown]; exact h.closed
  case shared =>
    intro t hs
    obtain ⟨stage', hstage⟩ := h.shared t (hshutdown ▸ hs)
    exact ⟨stage', hkept hstage fun _ heq => by cases heq⟩
  case only =>
    intro j stage' hj
    rw [hshutdown]
    exact h.only j stage' (hold hj fun heq => by cases heq)
  case awaiting =>
    intro j task hj
    rw [hshutdown]
    exact h.awaiting j task (hold hj fun heq => by cases heq)
  case gathering =>
    intro t cameraIds children hg c hc
    rw [hregistry] at hc
    obtain ⟨child, hchild, stage', hstage, hbusy⟩ :=
      h.gathering t cameraIds children (hold hg fun heq => by cases heq) c hc
    exact ⟨child, hchild, stage', hkept hstage (fun _ heq => by cases heq), hbusy⟩
  case ended =>
    intro t failures hover
    rw [hregistry]
    exact h.ended t failures (hold hover fun heq => by cases heq)
  -- the caller ended with the result of the shared task, or it was cancelled
  case results =>
    intro j result' hj
    have hmoved : ∀ {result' : Except ManagerError Unit}, (result' = .error .cancelled ∨
        ∃ (t : Nat) (failures : List OrchestrationFailure),
          w.tasks[t]? = some (.shutdownImpl (.ended failures)) ∧
            result' = ManagerWorld.shutdownResult failures) →
        result' = .error .cancelled ∨ ∃ (t : Nat) (failures : List OrchestrationFailure),
          w'.tasks[t]? = some (.shutdownImpl (.ended failures)) ∧
            result' = ManagerWorld.shutdownResult failures := by
      rintro result' (hcancelled | ⟨t, failures, hover, heq⟩)
      · exact .inl hcancelled
      · exact .inr ⟨t, failures, hkept hover (fun _ heq => by cases heq), heq⟩
    rw [htasks] at hj
    rcases set_task hj with ⟨-, heq⟩ | ⟨-, hold⟩
    · cases heq
      exact hmoved hresult
    · exact hmoved (h.results j result' hold)

/-- A caller closes admission. The first one creates the shared task. -/
theorem held_entered {w w' : ManagerWorld Settings} {i task : Nat}
    {new : List (ManagerTask Settings)} (h : ShutdownHeld w)
    (ht : w.tasks[i]? = some (.shutdown .entering))
    (htasks : w'.tasks = w.tasks.set i (.shutdown (.awaiting task)) ++ new)
    (hregistry : w'.registry = { w.registry with admissionClosed := true })
    (hshutdown : w'.shutdownTask = some task)
    (hshared : w.shutdownTask = some task ∧ new = [] ∨
      w.shutdownTask = none ∧ task = w.tasks.length ∧ new = [.shutdownImpl .snapshotting]) :
    ShutdownHeld w' := by
  -- only the caller moved
  have hkept : ∀ {j : Nat} {u : ManagerTask Settings}, w.tasks[j]? = some u →
      u ≠ .shutdown .entering → w'.tasks[j]? = some u := by
    intro j u hj hne
    rw [htasks]
    refine set_append_other hj fun hij => ?_
    rw [hij, ht] at hj
    exact hne (Option.some.inj hj).symm
  -- the shared task was there, or it is the new one, which begins
  have himpl : ∀ {j : Nat} {stage : ShutdownImplStage}, w'.tasks[j]? = some (.shutdownImpl stage) →
      w.tasks[j]? = some (.shutdownImpl stage) ∨ j = task ∧ stage = .snapshotting := by
    intro j stage hj
    rw [htasks] at hj
    rcases hshared with ⟨-, rfl⟩ | ⟨-, rfl, rfl⟩
    · rcases set_append_task hj with ⟨-, heq⟩ | ⟨-, hold⟩ | hmem
      · cases heq
      · exact .inl hold
      · cases hmem
    · rcases Nat.lt_or_ge j w.tasks.length with hlt | hge
      · rw [List.getElem?_append_left (by rw [List.length_set]; exact hlt)] at hj
        rcases set_task hj with ⟨-, heq⟩ | ⟨-, hold⟩
        · cases heq
        · exact .inl hold
      · have hlast := (List.getElem?_eq_some_iff.mp hj).1
        rw [List.length_append, List.length_set, List.length_singleton] at hlast
        have hjlen : j = w.tasks.length := by omega
        subst hjlen
        rw [List.getElem?_append_right (by rw [List.length_set]), List.length_set,
          Nat.sub_self] at hj
        cases hj
        exact .inr ⟨rfl, rfl⟩
  have hworkers : w'.registry.workers = w.registry.workers := by rw [hregistry]
  constructor
  case closed => exact fun _ _ => by rw [hregistry]
  case shared =>
    intro t hs
    cases hshutdown.symm.trans hs
    rcases hshared with ⟨hsome, -⟩ | ⟨-, rfl, rfl⟩
    · obtain ⟨stage, hstage⟩ := h.shared task hsome
      exact ⟨stage, hkept hstage fun heq => by cases heq⟩
    · refine ⟨.snapshotting, ?_⟩
      rw [htasks, List.getElem?_append_right (by rw [List.length_set]), List.length_set,
        Nat.sub_self]
      rfl
  -- the first caller finds no shared task, so its own is the only one
  case only =>
    intro j stage hj
    rcases himpl hj with hold | ⟨rfl, -⟩
    · rcases hshared with ⟨hsome, -⟩ | ⟨hnone, -⟩
      · rw [hshutdown, ← hsome]
        exact h.only j stage hold
      · rw [h.only j stage hold] at hnone
        cases hnone
    · exact hshutdown
  case awaiting =>
    intro j task' hj
    rw [htasks] at hj
    rcases set_append_task hj with ⟨-, heq⟩ | ⟨-, hold⟩ | hmem
    · cases heq
      exact hshutdown
    · have hsome := h.awaiting j task' hold
      rcases hshared with ⟨hsame, -⟩ | ⟨hnone, -⟩
      · rw [hshutdown, ← hsame]
        exact hsome
      · rw [hsome] at hnone
        cases hnone
    · rcases hshared with ⟨-, rfl⟩ | ⟨-, -, rfl⟩
      · cases hmem
      · cases List.mem_singleton.mp hmem
  -- a shared task that gathers is not new, and nothing else changed for it
  case gathering =>
    intro t cameraIds children hg c hc
    rw [hworkers] at hc
    rcases himpl hg with hold | ⟨-, heq⟩
    · obtain ⟨child, hchild, stage, hstage, hbusy⟩ := h.gathering t cameraIds children hold c hc
      exact ⟨child, hchild, stage, hkept hstage (fun heq => by cases heq), hbusy⟩
    · cases heq
  case ended =>
    intro t failures hover
    rw [hworkers]
    rcases himpl hover with hold | ⟨-, heq⟩
    · exact h.ended t failures hold
    · cases heq
  case results =>
    intro j result hj
    rw [htasks] at hj
    rcases set_append_task hj with ⟨-, heq⟩ | ⟨-, hold⟩ | hmem
    · cases heq
    · rcases h.results j result hold with hcancelled | ⟨t, failures, hover, heq⟩
      · exact .inl hcancelled
      · exact .inr ⟨t, failures, hkept hover (fun heq => by cases heq), heq⟩
    · rcases hshared with ⟨-, rfl⟩ | ⟨-, -, rfl⟩
      · cases hmem
      · cases List.mem_singleton.mp hmem

/-- The shared task takes its snapshot, after admission closed. -/
theorem held_snapshot {w w' : ManagerWorld Settings} {i : Nat} (h : ShutdownHeld w)
    (ht : w.tasks[i]? = some (.shutdownImpl .snapshotting))
    (htasks : w'.tasks = w.tasks.set i (.shutdownImpl (.gathering w.registry.workers.keys.reverse
        (List.range' w.tasks.length w.registry.workers.keys.length))) ++
      w.registry.workers.keys.reverse.map fun c => .operation (.shutdown c) .lookup)
    (hregistry : w'.registry = w.registry) (hshutdown : w'.shutdownTask = w.shutdownTask) :
    ShutdownHeld w' := by
  -- the new tasks are those of the `gather`, one for each camera
  have hnew : ∀ u ∈ w.registry.workers.keys.reverse.map fun c =>
      (.operation (.shutdown c) .lookup : ManagerTask Settings),
      ∃ c, u = .operation (.shutdown c) .lookup := by
    intro u hu
    obtain ⟨c, -, rfl⟩ := List.mem_map.mp hu
    exact ⟨c, rfl⟩
  have hown : w'.tasks[i]? = some (.shutdownImpl (.gathering w.registry.workers.keys.reverse
      (List.range' w.tasks.length w.registry.workers.keys.length))) := by
    rw [htasks]
    exact set_append_self ht
  -- there is one shared task
  have himpl : ∀ {j : Nat} {stage : ShutdownImplStage},
      w'.tasks[j]? = some (.shutdownImpl stage) → j = i := by
    intro j stage hj
    rw [htasks] at hj
    rcases set_append_task hj with ⟨hji, -⟩ | ⟨-, hold⟩ | hmem
    · exact hji
    · exact Option.some.inj ((h.only j stage hold).symm.trans (h.only i _ ht))
    · obtain ⟨c, heq⟩ := hnew _ hmem
      cases heq
  have hcaller : ∀ {j : Nat} {stage : ShutdownStage}, w'.tasks[j]? = some (.shutdown stage) →
      w.tasks[j]? = some (.shutdown stage) := by
    intro j stage hj
    rw [htasks] at hj
    rcases set_append_task hj with ⟨-, heq⟩ | ⟨-, hold⟩ | hmem
    · cases heq
    · exact hold
    · obtain ⟨c, heq⟩ := hnew _ hmem
      cases heq
  constructor
  case closed => rw [hregistry, hshutdown]; exact h.closed
  case shared =>
    intro t hs
    rw [hshutdown, h.only i _ ht] at hs
    cases hs
    exact ⟨_, hown⟩
  case only =>
    intro j stage hj
    rw [hshutdown, himpl hj]
    exact h.only i _ ht
  case awaiting =>
    intro j task hj
    rw [hshutdown]
    exact h.awaiting j task (hcaller hj)
  -- the cameras of the snapshot are all that are registered, so each has its operation
  case gathering =>
    intro t cameraIds children hg c hc
    obtain rfl := himpl hg
    rw [hown] at hg
    cases hg
    rw [hregistry] at hc
    obtain ⟨m, hm⟩ := List.mem_iff_getElem?.mp (List.mem_reverse.mpr (AList.mem_keys.mp hc))
    have hlt := (List.getElem?_eq_some_iff.mp hm).1
    rw [List.length_reverse] at hlt
    refine ⟨w.tasks.length + m, List.mem_range'_1.mpr ⟨Nat.le_add_right _ _, by omega⟩, .lookup,
      ?_, fun _ heq => by cases heq⟩
    rw [htasks, List.getElem?_append_right (by rw [List.length_set]; omega), List.length_set,
      Nat.add_sub_cancel_left, List.getElem?_map, hm]
    rfl
  case ended =>
    intro t failures hover
    rw [himpl hover, hown] at hover
    cases hover
  case results =>
    intro j result hj
    rcases h.results j result (hcaller hj) with hcancelled | ⟨t, failures, hover, -⟩
    · exact .inl hcancelled
    · -- the shared task is the one that takes the snapshot
      have hti := Option.some.inj ((h.only t _ hover).symm.trans (h.only i _ ht))
      rw [hti, ht] at hover
      cases hover

/-- The shared task is over. Every camera that was registered when it began is removed. -/
theorem held_gathered {w w' : ManagerWorld Settings} {i : Nat} {cameraIds : List String}
    {children : List Nat} {failures : List OrchestrationFailure} (h : ShutdownHeld w)
    (ht : w.tasks[i]? = some (.shutdownImpl (.gathering cameraIds children)))
    (hsettled : w.settled children = true)
    (htasks : w'.tasks = w.tasks.set i (.shutdownImpl (.ended failures)))
    (hworkers : w'.registry.workers = w.registry.workers)
    (hadmission : w'.registry.admissionClosed = w.registry.admissionClosed)
    (hshutdown : w'.shutdownTask = w.shutdownTask) : ShutdownHeld w' := by
  -- a camera that is left would have an operation that is not over
  have hempty : ∀ c, c ∉ w.registry.workers := by
    intro c hc
    obtain ⟨child, hchild, stage, hstage, hbusy⟩ := h.gathering i cameraIds children ht c hc
    have hend := List.all_eq_true.mp hsettled child hchild
    simp only [ManagerWorld.end?, hstage, Option.bind_some] at hend
    cases stage with
    | ended result => exact hbusy result rfl
    | lookup | locking | inside => cases hend
  have hown : w'.tasks[i]? = some (.shutdownImpl (.ended failures)) := by
    rw [htasks, List.getElem?_set_self (List.getElem?_eq_some_iff.mp ht).1]
  have himpl : ∀ {j : Nat} {stage : ShutdownImplStage},
      w'.tasks[j]? = some (.shutdownImpl stage) → j = i := by
    intro j stage hj
    rw [htasks] at hj
    rcases set_task hj with ⟨hji, -⟩ | ⟨-, hold⟩
    · exact hji
    · exact Option.some.inj ((h.only j stage hold).symm.trans (h.only i _ ht))
  have hcaller : ∀ {j : Nat} {stage : ShutdownStage}, w'.tasks[j]? = some (.shutdown stage) →
      w.tasks[j]? = some (.shutdown stage) := by
    intro j stage hj
    rw [htasks] at hj
    rcases set_task hj with ⟨-, heq⟩ | ⟨-, hold⟩
    · cases heq
    · exact hold
  constructor
  case closed => rw [hadmission, hshutdown]; exact h.closed
  case shared =>
    intro t hs
    rw [hshutdown, h.only i _ ht] at hs
    cases hs
    exact ⟨_, hown⟩
  case only =>
    intro j stage hj
    rw [hshutdown, himpl hj]
    exact h.only i _ ht
  case awaiting =>
    intro j task hj
    rw [hshutdown]
    exact h.awaiting j task (hcaller hj)
  case gathering =>
    intro t cameraIds' children' hg
    rw [himpl hg, hown] at hg
    cases hg
  -- so no camera is registered
  case ended => exact fun _ _ _ => hworkers ▸ hempty
  case results =>
    intro j result hj
    rcases h.results j result (hcaller hj) with hcancelled | ⟨t, failures', hover, -⟩
    · exact .inl hcancelled
    · have hti := Option.some.inj ((h.only t _ hover).symm.trans (h.only i _ ht))
      rw [hti, ht] at hover
      cases hover

/-- Every step keeps what the shared task and its callers know. -/
theorem shutdownHeld_step {w w' : ManagerWorld Settings} (h : ShutdownHeld w)
    (hcases : ManagerCases cfg w w') : ShutdownHeld w' := by
  cases hcases with
  -- a new task comes behind the others, and it is not a shared one
  | called t fresh tasks registry shutdownTask =>
    cases fresh with
    | operation | reconcile | shutdown =>
      refine BackgroundStep.held ⟨shutdownTask, by rw [registry], ?_, ?_, ?_, ?_⟩ h
      · intro i stage hi
        rw [tasks] at hi
        rcases Nat.lt_or_ge i w.tasks.length with hlt | hge
        · exact .inl ((List.getElem?_append_left hlt).symm.trans hi)
        · rw [List.getElem?_append_right hge] at hi
          have hmem := List.mem_singleton.mp (List.mem_of_getElem? hi)
          cases hmem
          try exact .inr rfl
      · intro i stage
        rw [tasks]
        constructor
        · intro hi
          rcases Nat.lt_or_ge i w.tasks.length with hlt | hge
          · exact (List.getElem?_append_left hlt).symm.trans hi
          · rw [List.getElem?_append_right hge] at hi
            cases List.mem_singleton.mp (List.mem_of_getElem? hi)
        · intro hi
          exact (List.getElem?_append_left (List.getElem?_eq_some_iff.mp hi).1).trans hi
      · intro i c stage hi hbusy _
        rw [tasks]
        exact ⟨stage, (List.getElem?_append_left (List.getElem?_eq_some_iff.mp hi).1).trans hi,
          hbusy⟩
      · exact fun _ c hc => by rwa [registry] at hc
  -- an operation of the `gather` is over only when its camera is gone
  | operated i op stage stage' task busy tasks registry ended shutdownTask =>
    rw [← List.append_nil (List.set _ _ _)] at tasks
    refine (background_task task tasks ?_ ?_ ?_ shutdownTask registry.admission
      fun hclosed => (registry.shut hclosed).1).held h
    · simp
    · simp
    · intro c before heq hbusy hc
      cases heq
      refine ⟨stage', rfl, fun result hover => ?_⟩
      exact AList.lookup_eq_none.mp (ended c result rfl hover) hc
  | reconciled i desired stage stage' operations task tasks registry shutdownTask =>
    refine (background_task task tasks ?_ ?_ ?_ shutdownTask (by rw [registry]) ?_).held h
    · simp
    · simp
    · intro c before heq
      cases heq
    · exact fun _ c hc => by rwa [registry] at hc
  | entered i task new entering tasks registry shutdownTask shared =>
    exact held_entered h entering tasks registry shutdownTask shared
  | awaited i task failures awaiting shared tasks registry shutdownTask =>
    exact held_caller h awaiting tasks registry shutdownTask (.inr ⟨task, failures, shared, rfl⟩)
  | abandoned i stage task busy tasks registry shutdownTask =>
    exact held_caller h task tasks registry shutdownTask (.inl rfl)
  | snapshot i task tasks registry shutdownTask =>
    exact held_snapshot h task tasks registry shutdownTask
  | gathered i cameraIds children failures task settled tasks workers objects admission
      shutdownTask =>
    exact held_gathered h task settled tasks workers admission shutdownTask
  | environment tasks workers objects admission shutdownTask =>
    refine BackgroundStep.held ⟨shutdownTask, admission, ?_, ?_, ?_, ?_⟩ h
    · exact fun i stage hi => .inl (tasks ▸ hi)
    · exact fun i stage => by rw [tasks]
    · exact fun i c stage hi hbusy _ => ⟨stage, tasks ▸ hi, hbusy⟩
    · exact fun _ c hc => workers ▸ hc

/-- After admission closed no worker is created. -/
theorem objects_shut {w w' : ManagerWorld Settings} (hcases : ManagerCases cfg w w')
    (hclosed : w.registry.admissionClosed = true) :
    w'.registry.objects.length = w.registry.objects.length := by
  cases hcases with
  | operated _ _ _ _ _ _ _ registry _ _ => exact (registry.shut hclosed).2
  | called _ _ _ registry _ | reconciled _ _ _ _ _ _ _ registry _
  | entered _ _ _ _ _ registry _ _ | awaited _ _ _ _ _ _ registry _
  | abandoned _ _ _ _ _ registry _ | snapshot _ _ _ registry _ => rw [registry]
  | gathered _ _ _ _ _ _ _ _ objects _ _ => rw [objects]
  | environment _ _ objects _ _ => exact objects.length

/-- A shared task that is over stays so. -/
theorem over_stays {w w' : ManagerWorld Settings} {t : Nat}
    {failures : List OrchestrationFailure} (hcases : ManagerCases cfg w w')
    (ht : w.tasks[t]? = some (.shutdownImpl (.ended failures))) :
    w'.tasks[t]? = some (.shutdownImpl (.ended failures)) := by
  -- every task that moves is another one
  have hset : ∀ {i u u' new}, w.tasks[i]? = some u → u ≠ .shutdownImpl (.ended failures) →
      (w.tasks.set i u' ++ new)[t]? = some (.shutdownImpl (.ended failures)) := by
    intro i u u' new hu hne
    refine set_append_other ht fun hti => ?_
    rw [← hti, ht] at hu
    exact hne (Option.some.inj hu).symm
  cases hcases with
  | called _ _ tasks _ _ =>
    rw [tasks]
    exact (List.getElem?_append_left (List.getElem?_eq_some_iff.mp ht).1).trans ht
  | operated _ _ _ _ task _ tasks _ _ _ =>
    rw [tasks, ← List.append_nil (List.set _ _ _)]
    exact hset task fun h => by cases h
  | reconciled _ _ _ _ _ task tasks _ _ =>
    rw [tasks]
    exact hset task fun h => by cases h
  | entered _ _ _ entering tasks _ _ _ =>
    rw [tasks]
    exact hset entering fun h => by cases h
  | awaited _ _ _ awaiting _ tasks _ _ =>
    rw [tasks, ← List.append_nil (List.set _ _ _)]
    exact hset awaiting fun h => by cases h
  | abandoned _ _ task _ tasks _ _ =>
    rw [tasks, ← List.append_nil (List.set _ _ _)]
    exact hset task fun h => by cases h
  | snapshot _ task tasks _ _ =>
    rw [tasks]
    exact hset task fun h => by cases h
  | gathered _ _ _ _ task _ tasks _ _ _ _ =>
    rw [tasks, ← List.append_nil (List.set _ _ _)]
    exact hset task fun h => by cases h
  | environment tasks _ _ _ _ => rw [tasks]; exact ht

variable [DecidableEq Settings]

/-- The shared task and its callers can rely on it in every reachable state. -/
theorem reachable_shutdownHeld {w : ManagerWorld Settings}
    (h : Reachable (managerMachine cfg) Any w) : ShutdownHeld w := by
  refine h.invariant shutdownHeld_init ?_
  intro w act w' hw _ hstep hinv
  exact shutdownHeld_step hinv (manager_cases (reachable_owned hw) hstep)

/-- Shutdown is final and complete, over every interleaving of callers of `shutdown` with the other
calls, with any caller cancelled. Once the shared task is over, and at any later time, no worker is
registered and none is live, no worker is created any more, and every caller of `shutdown` that was
not cancelled has the same result. -/
theorem shutdown_final {w w' : ManagerWorld Settings} {t : Nat}
    {failures : List OrchestrationFailure} (h : Reachable (managerMachine cfg) Any w)
    (ht : w.tasks[t]? = some (.shutdownImpl (.ended failures)))
    (hpath : Path (managerMachine cfg) Any w w') :
    (∀ c, c ∉ w'.registry.workers) ∧
    (∀ v ∈ w'.registry.objects, v.live = false) ∧
    w'.registry.objects.length = w.registry.objects.length ∧
    (∀ (i : Nat) result, w'.tasks[i]? = some (.shutdown (.ended result)) →
      result = .error .cancelled ∨ result = ManagerWorld.shutdownResult failures) := by
  -- along the run the shared task stays over, and no worker is created
  have hrun : Reachable (managerMachine cfg) Any w' ∧
      w'.tasks[t]? = some (.shutdownImpl (.ended failures)) ∧
      w'.registry.objects.length = w.registry.objects.length := by
    refine hpath.invariant (I := fun s => Reachable (managerMachine cfg) Any s ∧
      s.tasks[t]? = some (.shutdownImpl (.ended failures)) ∧
      s.registry.objects.length = w.registry.objects.length) ⟨h, ht, rfl⟩ ?_
    intro s act s' hok hstep ⟨hs, hover, hlength⟩
    have hcases := manager_cases (reachable_owned hs) hstep
    have hheld := reachable_shutdownHeld hs
    have hclosed := hheld.closed t (hheld.only t _ hover)
    exact ⟨hs.step act hok hstep, over_stays hcases hover,
      (objects_shut hcases hclosed).trans hlength⟩
  obtain ⟨hw', hover, hlength⟩ := hrun
  have hheld := reachable_shutdownHeld hw'
  have hempty := hheld.ended t failures hover
  refine ⟨hempty, ?_, hlength, ?_⟩
  -- a live worker would be registered
  · intro v hv
    obtain ⟨k, hk⟩ := List.mem_iff_getElem?.mp hv
    refine Bool.eq_false_iff.mpr fun hlive => ?_
    have hlookup := (reachable_owned hw').registry.live k v hk hlive
    exact hempty v.cameraId (AList.lookup_isSome.mp (by rw [hlookup]; rfl))
  -- the result of a caller is that of the only shared task
  · intro i result hi
    rcases hheld.results i result hi with hcancelled | ⟨t', failures', hover', hresult⟩
    · exact .inl hcancelled
    · cases (hheld.only t' _ hover').symm.trans (hheld.only t _ hover)
      cases hover'.symm.trans hover
      exact .inr hresult

end

/-- A camera is started while two callers of `shutdown` arrive, and one of them is cancelled. -/
def shutdownRun : List (ManagerAct Nat) :=
  [.startCamera frontDoor, .run 0 none, .run 0 none, .run 0 none, .run 0 none, .shutdown, .shutdown,
    .run 1 none, .run 2 none, .cancel 2 none, .run 3 none, .run 4 none,
    .work 0 (viewOf frontDoor 1 .running), .run 0 none, .run 0 none,
    .work 0 (viewOf frontDoor 1 .stopped), .run 0 none, .run 0 none, .run 4 none, .run 4 none,
    .run 3 none, .run 1 none]

def shutWorld : ManagerWorld Nat :=
  (managerMachine twoCameras).final (managerMachine twoCameras).init shutdownRun

/-- The manager after the shutdown is reached by its run. -/
theorem shutWorld_reachable : Reachable (managerMachine twoCameras) Any shutWorld :=
  Reachable.init.final shutdownRun (by decide +kernel)

/-- Its shared task is over, without failures. -/
theorem shutWorld_over : shutWorld.tasks[3]? = some (.shutdownImpl (.ended [])) := by
  decide +kernel

/-- Its one worker is no longer registered. -/
theorem shutWorld_final :
    (∀ c, c ∉ shutWorld.registry.workers) ∧ shutWorld.registry.objects.length = 1 :=
  ⟨(shutdown_final shutWorld_reachable shutWorld_over .refl).1, by decide +kernel⟩

end Rsap.Proofs
