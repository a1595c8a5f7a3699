import Rsap.Orchestration.Manager

/-!
# `Rsap.Proofs.CameraOwnership`: one live worker for each camera

`RegistryStep` says what a stretch inside a camera lock does to the registry: it keeps the
entries, removes the entry of its camera, whose worker is done, or adds a worker for its camera,
which has none. `SectionHolds` is what a task knows at each place inside its lock. No other task
takes it away, since all tasks of a camera refer to one lock (`Owned.alone`): the entry of the lock
in `_camera_locks` stays while a task refers to it.
-/

set_option autoImplicit false

namespace Rsap.Proofs

open Rsap.Library
open Rsap.Library.Machine (Reachable Any)
open Rsap.Orchestration

section
variable {Settings : Type} {cfg : ManagerConfig}

/-! ### The registry -/

/-- A live worker is the registered one of its camera, and the capacity is kept. -/
structure RegistryOwned (cfg : ManagerConfig) (r : Registry Settings) : Prop where
  entry : ∀ c k, r.workers.lookup c = some k → ∃ v, r.objects[k]? = some v ∧ v.cameraId = c
  live : ∀ k v, r.objects[k]? = some v → v.live = true → r.workers.lookup v.cameraId = some k
  capacity : r.workers.keys.length ≤ cfg.maxActiveWorkers.val

/-- The workers are the same ones, and none of them came to life. -/
structure SameWorkers (objects objects' : List (WorkerView Settings)) : Prop where
  length : objects'.length = objects.length
  view : ∀ (k : Nat) (v' : WorkerView Settings), objects'[k]? = some v' →
    ∃ v : WorkerView Settings, objects[k]? = some v ∧ v'.cameraId = v.cameraId ∧
      (v'.live = true → v.live = true)

/-- No worker changed. -/
theorem SameWorkers.refl (objects : List (WorkerView Settings)) : SameWorkers objects objects :=
  ⟨rfl, fun _ v h => ⟨v, h, rfl, fun hlive => hlive⟩⟩

/-- A worker that is there stays there, and it does not come to life. -/
theorem SameWorkers.forward {objects objects' : List (WorkerView Settings)}
    (h : SameWorkers objects objects') {k : Nat} {v : WorkerView Settings}
    (hv : objects[k]? = some v) :
    ∃ v', objects'[k]? = some v' ∧ v'.cameraId = v.cameraId ∧
      (v'.live = true → v.live = true) := by
  have hlt : k < objects'.length := h.length ▸ (List.getElem?_eq_some_iff.mp hv).1
  obtain ⟨v₀, hv₀, hsame⟩ := h.view k _ (List.getElem?_eq_getElem hlt)
  rw [hv] at hv₀
  cases hv₀
  exact ⟨_, List.getElem?_eq_getElem hlt, hsame⟩

/-- One worker changes. -/
theorem SameWorkers.set {objects : List (WorkerView Settings)} {k : Nat}
    {v v' : WorkerView Settings} (hv : objects[k]? = some v) (hcamera : v'.cameraId = v.cameraId)
    (hlive : v'.live = true → v.live = true) : SameWorkers objects (objects.set k v') where
  length := List.length_set
  view j u hu := by
    rw [List.getElem?_set] at hu
    split at hu
    · rename_i hk
      subst hk
      split at hu
      · cases hu
        exact ⟨v, hv, hcamera, hlive⟩
      · cases hu
    · exact ⟨u, hu, rfl, fun h => h⟩

/-- The tasks of one worker take a step. -/
theorem evolves_same {objects : List (WorkerView Settings)} {k : Nat}
    {v v' : WorkerView Settings} (hv : objects[k]? = some v) (h : v.Evolves v') :
    SameWorkers objects (objects.set k v') := by
  refine .set hv (congrArg (·.cameraId) h.definition) fun hlive => ?_
  by_contra hdone
  rw [h.finished (Bool.eq_false_iff.mpr hdone)] at hlive
  exact hdone hlive

/-- What a stretch inside the lock of the camera `c` does to the registry. -/
inductive RegistryStep (cfg : ManagerConfig) (c : String) (r r' : Registry Settings) : Prop where
  | keep (workers : r'.workers = r.workers) (objects : SameWorkers r.objects r'.objects)
      (admission : r'.admissionClosed = r.admissionClosed)
  | remove (k : Nat) (v : WorkerView Settings) (lookup : r.workers.lookup c = some k)
      (view : r.objects[k]? = some v) (done : v.live = false)
      (workers : r'.workers = r.workers.erase c) (objects : r'.objects = r.objects)
      (admission : r'.admissionClosed = r.admissionClosed)
  | add (v : WorkerView Settings) (absent : r.workers.lookup c = none) (camera : v.cameraId = c)
      (room : r.workers.keys.length < cfg.maxActiveWorkers.val)
      (admitted : r.admissionClosed = false)
      (workers : r'.workers = r.workers.insert c r.objects.length)
      (objects : r'.objects = r.objects ++ [v])
      (admission : r'.admissionClosed = r.admissionClosed)

/-- The entries stay, and no worker comes to life. -/
theorem RegistryOwned.keep {r r' : Registry Settings} (hr : RegistryOwned cfg r)
    (workers : r'.workers = r.workers) (objects : SameWorkers r.objects r'.objects) :
    RegistryOwned cfg r' := by
  constructor
  case entry =>
    intro c k hlookup
    rw [workers] at hlookup
    obtain ⟨v, hv, hcamera⟩ := hr.entry c k hlookup
    obtain ⟨v', hv', hsame, -⟩ := objects.forward hv
    exact ⟨v', hv', hsame.trans hcamera⟩
  case live =>
    intro k v' hv' hlive
    obtain ⟨v, hv, hsame, hbefore⟩ := objects.view k v' hv'
    rw [workers, hsame]
    exact hr.live k v hv (hbefore hlive)
  case capacity => rw [workers]; exact hr.capacity

/-- Such a step keeps the ownership. -/
theorem RegistryStep.owned {c : String} {r r' : Registry Settings} (h : RegistryStep cfg c r r')
    (hr : RegistryOwned cfg r) : RegistryOwned cfg r' := by
  cases h with
  | keep workers objects admission => exact hr.keep workers objects
  | remove k v lookup view done workers objects admission =>
    constructor
    case entry =>
      intro c' k' hlookup
      rw [workers] at hlookup
      by_cases hc : c' = c
      · rw [hc, AList.lookup_erase] at hlookup
        cases hlookup
      · rw [AList.lookup_erase_ne hc] at hlookup
        rw [objects]
        exact hr.entry c' k' hlookup
    case live =>
      intro k' v' hv' hlive
      rw [objects] at hv'
      have hbefore := hr.live k' v' hv' hlive
      have hc : v'.cameraId ≠ c := by
        intro hc
        -- the entry of the camera is the worker that is done
        rw [hc, lookup] at hbefore
        cases hbefore
        rw [view] at hv'
        cases hv'
        rw [done] at hlive
        cases hlive
      rw [workers, AList.lookup_erase_ne hc]
      exact hbefore
    case capacity =>
      rw [workers, AList.keys_erase]
      exact Nat.le_trans (List.length_erase_le) hr.capacity
  | add v absent camera room admitted workers objects admission =>
    have hnew : c ∉ r.workers := AList.lookup_eq_none.mp absent
    constructor
    case entry =>
      intro c' k' hlookup
      rw [workers] at hlookup
      rw [objects]
      by_cases hc : c' = c
      · subst hc
        rw [AList.lookup_insert] at hlookup
        cases hlookup
        exact ⟨v, List.getElem?_concat_length, camera⟩
      · rw [AList.lookup_insert_ne hc] at hlookup
        obtain ⟨u, hu, hcamera⟩ := hr.entry c' k' hlookup
        have hlt := (List.getElem?_eq_some_iff.mp hu).1
        exact ⟨u, (List.getElem?_append_left hlt).trans hu, hcamera⟩
    case live =>
      intro k' v' hv' hlive
      rw [objects] at hv'
      rw [workers]
      rcases Nat.lt_or_ge k' r.objects.length with hlt | hge
      · rw [List.getElem?_append_left hlt] at hv'
        have hbefore := hr.live k' v' hv' hlive
        have hc : v'.cameraId ≠ c := by
          intro hc
          rw [hc, absent] at hbefore
          cases hbefore
        rw [AList.lookup_insert_ne hc]
        exact hbefore
      · have hk : k' = r.objects.length := by
          have hlt := (List.getElem?_eq_some_iff.mp hv').1
          rw [List.length_append, List.length_singleton] at hlt
          omega
        subst hk
        rw [List.getElem?_concat_length] at hv'
        cases hv'
        rw [camera, AList.lookup_insert]
    case capacity =>
      rw [workers, AList.keys_insert, List.length_cons,
        List.erase_of_not_mem (fun hmem => hnew (AList.mem_keys.mpr hmem))]
      omega

/-! ### Inside a camera lock -/

/-- The worker is registered for the camera. -/
def Registered (r : Registry Settings) (c : String) (k : Nat) : Prop :=
  r.workers.lookup c = some k

/-- The worker is done. -/
def DoneWorker (r : Registry Settings) (k : Nat) : Prop :=
  ∃ v, r.objects[k]? = some v ∧ v.live = false

/-- What a task inside the lock of the camera `c` knows of the registry. -/
def SectionHolds (r : Registry Settings) (c : String) : Section Settings → Prop
  | .finding => True
  | .registering _ => r.workers.lookup c = none
  | .stopping k | .starting k | .cancelling k | .waiting k _ | .admitting k _
  | .withdrawing k _ => Registered r c k
  | .removing k _ _ | .dropping k _ | .expelling k _ => Registered r c k ∧ DoneWorker r k

/-- The operation starts a worker with the definition. -/
def Starts (op : Operation Settings) (definition : CameraDefinition Settings) : Prop :=
  op = .start definition ∨ op = .restart definition

/-- The operation can come to the place. -/
def PlaceFits (op : Operation Settings) : Section Settings → Prop
  | .finding | .stopping _ | .removing _ _ _ => True
  | .registering definition => Starts op definition
  | .starting _ | .cancelling _ | .waiting _ _ | .dropping _ _ | .admitting _ _
  | .withdrawing _ _ | .expelling _ _ => ∃ definition, Starts op definition

/-- The operation is about the camera of its definition. -/
theorem Starts.camera {op : Operation Settings} {definition : CameraDefinition Settings}
    (h : Starts op definition) : op.cameraId = definition.cameraId := by
  rcases h with rfl | rfl <;> rfl

/-- A worker that is done stays done. -/
theorem SameWorkers.done {r r' : Registry Settings} (h : SameWorkers r.objects r'.objects)
    {k : Nat} (hk : DoneWorker r k) : DoneWorker r' k := by
  obtain ⟨v, hv, hdone⟩ := hk
  obtain ⟨v', hv', -, hlive⟩ := h.forward hv
  refine ⟨v', hv', Bool.eq_false_iff.mpr fun h => ?_⟩
  rw [hlive h] at hdone
  cases hdone

/-- A step at another camera leaves the entry of the camera, and a worker that is done is still
done. -/
theorem RegistryStep.other {c c' : String} {r r' : Registry Settings}
    (h : RegistryStep cfg c r r') (hc : c' ≠ c) :
    r'.workers.lookup c' = r.workers.lookup c' ∧ ∀ k, DoneWorker r k → DoneWorker r' k := by
  cases h with
  | keep workers objects admission => exact ⟨by rw [workers], fun k => objects.done⟩
  | remove k v lookup view done workers objects admission =>
    refine ⟨by rw [workers, AList.lookup_erase_ne hc], fun k ⟨v, hv, hdone⟩ => ?_⟩
    exact ⟨v, objects ▸ hv, hdone⟩
  | add v absent camera room admitted workers objects admission =>
    refine ⟨by rw [workers, AList.lookup_insert_ne hc], fun k ⟨v, hv, hdone⟩ => ?_⟩
    have hlt := (List.getElem?_eq_some_iff.mp hv).1
    exact ⟨v, objects ▸ (List.getElem?_append_left hlt).trans hv, hdone⟩

/-- What a task inside its lock knows does not depend on other cameras. -/
theorem SectionHolds.congr {r r' : Registry Settings} {c : String} {place : Section Settings}
    (hlookup : r'.workers.lookup c = r.workers.lookup c)
    (hdone : ∀ k, DoneWorker r k → DoneWorker r' k) (h : SectionHolds r c place) :
    SectionHolds r' c place := by
  cases place with
  | finding => trivial
  | registering | stopping | starting | cancelling | waiting | admitting | withdrawing =>
    exact hlookup.trans h
  | removing | dropping | expelling => exact ⟨hlookup.trans h.1, hdone _ h.2⟩

/-! ### One stretch inside a camera lock -/

/-- A change of a worker leaves the entries. -/
@[simp] theorem setWorker_workers (r : Registry Settings) (k : Nat) (v v' : WorkerView Settings) :
    (r.setWorker cfg k v v').workers = r.workers := by
  unfold Registry.setWorker
  split <;> rfl

/-- One worker is replaced by its later view. -/
@[simp] theorem setWorker_objects (r : Registry Settings) (k : Nat) (v v' : WorkerView Settings) :
    (r.setWorker cfg k v v').objects = r.objects.set k v' := by
  unfold Registry.setWorker
  split <;> rfl

/-- A change of a worker leaves the admission flag. -/
@[simp] theorem setWorker_admission (r : Registry Settings) (k : Nat)
    (v v' : WorkerView Settings) :
    (r.setWorker cfg k v v').admissionClosed = r.admissionClosed := by
  unfold Registry.setWorker
  split <;> rfl

/-- Stopping a worker keeps its entry: it is removed later. -/
@[simp] theorem stopWorker_workers (r : Registry Settings) (k : Nat) (v : WorkerView Settings)
    (closed : Option OrchestrationFailure) :
    (r.stopWorker cfg k v closed).workers = r.workers := setWorker_workers r k v _

/-- `stop` leaves the definition of a worker and the life of its supervisor. -/
theorem stopped_same (v : WorkerView Settings) (closed : Option OrchestrationFailure) :
    (v.stopping.closeCapture closed).definition = v.definition ∧
      (v.stopping.closeCapture closed).live = v.live := by
  unfold WorkerView.stopping WorkerView.closeCapture
  cases closed <;> simp only <;> split_ifs <;> exact ⟨rfl, rfl⟩

/-- The worker that stops is the only one that changes. -/
@[simp] theorem stopWorker_objects (r : Registry Settings) (k : Nat) (v : WorkerView Settings)
    (closed : Option OrchestrationFailure) :
    (r.stopWorker cfg k v closed).objects =
      r.objects.set k (v.stopping.closeCapture closed) := by
  simp only [Registry.stopWorker, setWorker_objects, List.set_set]

/-- `stop` keeps the entries of the registry. -/
theorem stop_keeps {r : Registry Settings} {k : Nat} {v : WorkerView Settings}
    (hv : r.objects[k]? = some v) (closed : Option OrchestrationFailure) (c : String) :
    RegistryStep cfg c r (r.stopWorker cfg k v closed) := by
  obtain ⟨hdefinition, hlive⟩ := stopped_same v closed
  refine .keep (stopWorker_workers ..) ?_ (setWorker_admission r k v _)
  rw [stopWorker_objects]
  exact .set hv (congrArg (·.cameraId) hdefinition) fun h => hlive ▸ h

/-- A stretch that does nothing to the registry. -/
theorem keeps_self (c : String) (r : Registry Settings) : RegistryStep cfg c r r :=
  .keep rfl (.refl _) rfl

/-- Noting a status is a stretch that keeps the entries. -/
theorem remember_keeps (c : String) (r : Registry Settings) (status : CameraStatus) :
    RegistryStep cfg c r (r.remember cfg status) := .keep rfl (.refl _) rfl

variable (cfg) in
/-- `_remove_worker` of a registered worker that is done. -/
theorem remove_step {r : Registry Settings} {c : String} {k : Nat} (hk : Registered r c k)
    (hdone : DoneWorker r k) : RegistryStep cfg c r (r.removeWorker c k) := by
  obtain ⟨v, hv, hlive⟩ := hdone
  have heq : r.removeWorker c k = { r with workers := r.workers.erase c } := if_pos hk
  exact .remove k v hk hv hlive (by rw [heq]) (by rw [heq]) (by rw [heq])

/-- After the removal the camera has no entry. -/
theorem removed_absent {r : Registry Settings} {c : String} {k : Nat} (hk : Registered r c k) :
    (r.removeWorker c k).workers.lookup c = none := by
  have heq : r.removeWorker c k = { r with workers := r.workers.erase c } := if_pos hk
  rw [heq]
  exact AList.lookup_erase c r.workers

/-- The registry after a stretch and the place that it leads to. -/
structure Stretch (cfg : ManagerConfig) (op : Operation Settings) (r r' : Registry Settings)
    (progress : Progress Settings) : Prop where
  registry : RegistryStep cfg op.cameraId r r'
  place : ∀ place, progress = .next place → SectionHolds r' op.cameraId place
  fits : ∀ place, progress = .next place → PlaceFits op place

/-- A stretch that ends the operation. -/
theorem Stretch.ended {op : Operation Settings} {r r' : Registry Settings} {result : OperationEnd}
    (h : RegistryStep cfg op.cameraId r r') : Stretch cfg op r r' (.ended result) :=
  ⟨h, fun _ hplace => (by cases hplace), fun _ hplace => (by cases hplace)⟩

/-- A stretch that goes on. -/
theorem Stretch.next {op : Operation Settings} {r r' : Registry Settings}
    {place : Section Settings} (h : RegistryStep cfg op.cameraId r r')
    (hplace : SectionHolds r' op.cameraId place) (hfits : PlaceFits op place) :
    Stretch cfg op r r' (.next place) :=
  ⟨h, fun _ heq => Progress.next.inj heq ▸ hplace, fun _ heq => Progress.next.inj heq ▸ hfits⟩

variable (cfg) in
/-- The registration is a step of its camera, which has no entry. -/
theorem register_stretch {r : Registry Settings} {op : Operation Settings}
    {definition : CameraDefinition Settings} (hstarts : Starts op definition)
    (habsent : r.workers.lookup op.cameraId = none) :
    Stretch cfg op r (register cfg r definition).1 (register cfg r definition).2 := by
  have hcamera := hstarts.camera
  unfold register
  split
  · exact .ended (keeps_self _ r)
  · rename_i hopen
    split
    · exact .ended (keeps_self _ r)
    · rename_i hroom
      -- neither the gate nor the capacity refuses, and both still hold when the worker is added
      have hadmitted : r.admissionClosed = false := by
        simp only [Registry.ensureAdmissionOpen] at hopen
        split at hopen
        · split at hopen <;> cases hopen
        · rename_i hclosed
          exact Bool.eq_false_iff.mpr hclosed
      refine .next (.add (.new definition _) habsent hcamera.symm (Nat.lt_of_not_le hroom)
        hadmitted ?_ rfl rfl) ?_
        ⟨definition, hstarts⟩
      · rw [hcamera]
        rfl
      · rw [hcamera]
        exact AList.lookup_insert r.workers

/-- A start returns after it remembered the status. -/
theorem finishStart_stretch {r r' : Registry Settings} (op : Operation Settings)
    (status : CameraStatus) (h : RegistryStep cfg op.cameraId r r') :
    Stretch cfg op r (finishStart cfg r' op status).1 (finishStart cfg r' op status).2 := by
  refine .ended ?_
  cases h with
  | keep workers objects admission => exact .keep workers objects admission
  | remove k v lookup view done workers objects admission =>
    exact .remove k v lookup view done workers objects admission
  | add v absent camera room admitted workers objects admission =>
    exact .add v absent camera room admitted workers objects admission

/-- The camera of a definition is the camera of its operation. -/
theorem found_stretch {r r' : Registry Settings} {op : Operation Settings}
    {closed : Option OrchestrationFailure} {progress : Progress Settings}
    (h : found cfg r op closed = some (r', progress)) : Stretch cfg op r r' progress := by
  unfold found at h
  split at h
  -- without a worker a start goes on to register one, and a stop is over
  · rename_i habsent
    cases h
    cases op with
    | start definition => exact .next (keeps_self _ r) habsent (.inl rfl)
    | restart definition => exact .next (keeps_self _ r) habsent (.inr rfl)
    | stop cameraId | shutdown cameraId => exact .ended (keeps_self _ r)
  · rename_i k hk
    obtain ⟨v, hv, hrun⟩ := Option.bind_eq_some_iff.mp h
    -- a worker that is found is stopped, unless a start finds it running
    have hstop : Stretch cfg op r (r.stopWorker cfg k v closed) (.next (.stopping k)) :=
      .next (stop_keeps hv closed _) ((congrArg _ (stopWorker_workers ..)).trans hk) trivial
    cases op with
    | start definition =>
      simp only at hrun
      split at hrun
      · cases hrun
        exact .ended (keeps_self _ r)
      · cases hrun
        exact hstop
    | restart definition | stop cameraId | shutdown cameraId =>
      cases hrun
      exact hstop

/-- Every stretch inside the lock of a camera is a step of that camera, and the task knows at the
next place what it has to know there. -/
theorem section_stretch {r r' : Registry Settings} {op : Operation Settings}
    {closed : Option OrchestrationFailure} {place : Section Settings}
    {progress : Progress Settings} (hplace : SectionHolds r op.cameraId place)
    (hfits : PlaceFits op place) (h : runSection cfg r op closed place = some (r', progress)) :
    Stretch cfg op r r' progress := by
  cases place with
  | finding => exact found_stretch h
  -- the old worker is done, and its status is noted
  | stopping k =>
    obtain ⟨v, hv, hrun⟩ := Option.bind_eq_some_iff.mp h
    split at hrun
    · cases hrun
    · rename_i hdone
      cases hrun
      exact .next (remember_keeps _ r _) ⟨hplace, v, hv, Bool.eq_false_iff.mpr hdone⟩ trivial
  -- its entry is removed, and a start or a restart goes on to a new worker
  | removing k status failures =>
    obtain ⟨v, hv, hrun⟩ := Option.map_eq_some_iff.mp h
    cases hrun
    have hstep := remove_step cfg hplace.1 hplace.2
    have habsent := removed_absent hplace.1
    cases op with
    | start definition =>
      simp only [removed]
      split
      · exact .ended hstep
      · exact .next hstep habsent (.inl rfl)
    | restart definition =>
      simp only [removed]
      split
      · exact .ended hstep
      · exact .next hstep habsent (.inr rfl)
    | stop cameraId | shutdown cameraId => exact .ended hstep
  -- the camera has no entry here, so the new worker is the only one
  | registering definition =>
    have hstretch := register_stretch cfg hfits hplace
    rw [show register cfg r definition = (r', progress) from Option.some.inj h] at hstretch
    exact hstretch
  -- from here on the new worker is registered, and leaves by one of the ways below
  | starting k =>
    obtain ⟨v, hv, hrun⟩ := Option.bind_eq_some_iff.mp h
    split at hrun <;> cases hrun <;> exact .next (keeps_self _ r) hplace hfits
  | cancelling k =>
    obtain ⟨v, hv, hrun⟩ := Option.bind_eq_some_iff.mp h
    split at hrun <;> cases hrun
    exact .next (keeps_self _ r) hplace hfits
  | waiting k error =>
    obtain ⟨v, hv, hrun⟩ := Option.bind_eq_some_iff.mp h
    split at hrun
    · cases hrun
    · rename_i hdone
      cases hrun
      exact .next (remember_keeps _ r _) ⟨hplace, v, hv, Bool.eq_false_iff.mpr hdone⟩ hfits
  | dropping k error =>
    cases h
    exact .ended (remove_step cfg hplace.1 hplace.2)
  | admitting k status =>
    obtain ⟨v, hv, hrun⟩ := Option.map_eq_some_iff.mp h
    split at hrun <;> cases hrun
    · exact .next (stop_keeps hv closed _) ((congrArg _ (stopWorker_workers ..)).trans hplace)
        hfits
    · exact .ended (remember_keeps _ r _)
  -- admission closed meanwhile, so the new worker is stopped and removed again
  | withdrawing k status =>
    obtain ⟨v, hv, hrun⟩ := Option.bind_eq_some_iff.mp h
    split at hrun
    · cases hrun
    · rename_i hdone
      cases hrun
      exact .next (remember_keeps _ r _) ⟨hplace, v, hv, Bool.eq_false_iff.mpr hdone⟩ hfits
  | expelling k status =>
    have hstep := remove_step cfg hplace.1 hplace.2
    simp only [runSection] at h
    split at h
    · cases h
      exact .ended hstep
    · cases h
      exact finishStart_stretch op status hstep

/-- So is a cancellation. -/
theorem cancel_stretch {r r' : Registry Settings} {op : Operation Settings}
    {closed : Option OrchestrationFailure} {place : Section Settings}
    {progress : Progress Settings} (hplace : SectionHolds r op.cameraId place)
    (hfits : PlaceFits op place) (h : cancelSection cfg r closed place = some (r', progress)) :
    Stretch cfg op r r' progress := by
  cases place with
  | starting k =>
    obtain ⟨v, hv, hrun⟩ := Option.map_eq_some_iff.mp h
    cases hrun
    exact .next (stop_keeps hv closed _) ((congrArg _ (stopWorker_workers ..)).trans hplace) hfits
  | cancelling k =>
    cases h
    exact .next (keeps_self _ r) hplace hfits
  | finding | stopping | removing | registering | waiting | dropping | admitting | withdrawing
    | expelling =>
    cases h
    exact .ended (keeps_self _ r)

/-! ### All tasks -/

/-- Each task inside a camera lock knows the entry of its camera, and it is alone there. -/
structure Owned (cfg : ManagerConfig) (w : ManagerWorld Settings) : Prop where
  registry : RegistryOwned cfg w.registry
  places : ∀ (i : Nat) op lock place,
    w.tasks[i]? = some (.operation op (.inside lock place)) →
    SectionHolds w.registry op.cameraId place
  fits : ∀ (i : Nat) op lock place,
    w.tasks[i]? = some (.operation op (.inside lock place)) → PlaceFits op place
  locks : ∀ (i : Nat) op stage lock, w.tasks[i]? = some (.operation op stage) →
    (ManagerTask.operation op stage).refersTo lock = true →
    w.cameraLocks.lookup op.cameraId = some lock
  exclusive : ∀ (i j lock : Nat) t u, w.tasks[i]? = some t → w.tasks[j]? = some u →
    t.holds lock = true → u.holds lock = true → i = j

/-- A task inside a lock refers to it. -/
theorem holds_refersTo {lock : Nat} {t : ManagerTask Settings} (h : t.holds lock = true) :
    t.refersTo lock = true := by
  cases t with
  | operation op stage => cases stage <;> first | exact h | cases h
  | reconcile | shutdown | shutdownImpl => cases h

/-- No two tasks are inside locks of one camera. -/
theorem Owned.alone {w : ManagerWorld Settings} (h : Owned cfg w) {i j lock lock' : Nat}
    {op op' : Operation Settings} {place place' : Section Settings}
    (hi : w.tasks[i]? = some (.operation op (.inside lock place)))
    (hj : w.tasks[j]? = some (.operation op' (.inside lock' place')))
    (hcamera : op'.cameraId = op.cameraId) : i = j := by
  have hlock := h.locks i op _ lock hi (decide_eq_true rfl)
  have hlock' := h.locks j op' _ lock' hj (decide_eq_true rfl)
  rw [hcamera, hlock] at hlock'
  cases hlock'
  exact h.exclusive i j lock _ _ hi hj (decide_eq_true rfl) (decide_eq_true rfl)

/-- The new manager has no worker, no entry and no task. -/
theorem owned_init : Owned cfg (ManagerWorld.new : ManagerWorld Settings) where
  registry :=
    { entry := fun c k h => by cases h
      live := fun k v h => by cases h
      capacity := Nat.zero_le _ }
  places i op lock place h := by cases h
  fits i op lock place h := by cases h
  locks i op stage lock h := by cases h
  exclusive i j lock t u h := by cases h

/-- The task refers to no lock. -/
def FreeTask (t : ManagerTask Settings) : Prop := ∀ lock, t.refersTo lock = false

/-- A step that leaves the entries, the workers and the locks. Its new tasks refer to no lock. -/
structure QuietStep (w w' : ManagerWorld Settings) : Prop where
  workers : w'.registry.workers = w.registry.workers
  objects : w'.registry.objects = w.registry.objects
  cameraLocks : w'.cameraLocks = w.cameraLocks
  tasks : ∀ (i : Nat) t, w'.tasks[i]? = some t → w.tasks[i]? = some t ∨ FreeTask t

/-- Nothing changed. -/
theorem QuietStep.refl (w : ManagerWorld Settings) : QuietStep w w :=
  ⟨rfl, rfl, rfl, fun _ _ h => .inl h⟩

/-- Quiet steps compose. -/
theorem QuietStep.trans {w₁ w₂ w₃ : ManagerWorld Settings} (h : QuietStep w₁ w₂)
    (h' : QuietStep w₂ w₃) : QuietStep w₁ w₃ where
  workers := h'.workers.trans h.workers
  objects := h'.objects.trans h.objects
  cameraLocks := h'.cameraLocks.trans h.cameraLocks
  tasks i t ht := (h'.tasks i t ht).elim (h.tasks i t) .inr

/-- A task goes on at a place where it refers to no lock. -/
theorem goto_quiet (w : ManagerWorld Settings) (i : Nat) {t : ManagerTask Settings}
    (ht : FreeTask t) : QuietStep w (w.goto i t) where
  workers := rfl
  objects := rfl
  cameraLocks := rfl
  tasks j u hu := by
    rw [show (w.goto i t).tasks = w.tasks.set i t from rfl, List.getElem?_set] at hu
    split at hu
    · split at hu
      · cases hu
        exact .inr ht
      · cases hu
    · exact .inl hu

/-- New tasks refer to no lock. -/
theorem append_quiet {w w' : ManagerWorld Settings} (new : List (ManagerTask Settings))
    (hw : w' = { w with tasks := w.tasks ++ new }) (hnew : ∀ t ∈ new, FreeTask t) :
    QuietStep w w' := by
  subst hw
  refine ⟨rfl, rfl, rfl, fun i t ht => ?_⟩
  rcases Nat.lt_or_ge i w.tasks.length with hlt | hge
  · exact .inl ((List.getElem?_append_left hlt).symm.trans ht)
  · have hlast := (List.getElem?_append_right hge).symm.trans ht
    exact .inr (hnew t (List.mem_of_getElem? hlast))

/-- Creating a task that refers to no lock is quiet. -/
theorem spawn_quiet (w : ManagerWorld Settings) {t : ManagerTask Settings} (ht : FreeTask t) :
    QuietStep w (w.spawn t) :=
  append_quiet [t] rfl fun _ hu => List.mem_singleton.mp hu ▸ ht

/-- The operations of a `gather` begin without a lock. -/
theorem spawnAll_quiet (w : ManagerWorld Settings) (operations : List (Operation Settings)) :
    QuietStep w (w.spawnAll operations) := by
  refine append_quiet _ rfl fun t ht => ?_
  obtain ⟨op, -, rfl⟩ := List.mem_map.mp ht
  exact fun _ => rfl

/-- A quiet step keeps the ownership. -/
theorem owned_quiet {w w' : ManagerWorld Settings} (h : Owned cfg w) (hq : QuietStep w w') :
    Owned cfg w' := by
  -- a task that refers to a lock did not move
  have hbusy : ∀ (i lock : Nat) t, w'.tasks[i]? = some t → t.refersTo lock = true →
      w.tasks[i]? = some t := by
    intro i lock t ht hrefers
    rcases hq.tasks i t ht with hold | hfree
    · exact hold
    · rw [hfree lock] at hrefers
      cases hrefers
  have hdone : ∀ k, DoneWorker w.registry k → DoneWorker w'.registry k := by
    intro k ⟨v, hv, hlive⟩
    exact ⟨v, hq.objects ▸ hv, hlive⟩
  constructor
  case registry =>
    exact h.registry.keep hq.workers (hq.objects ▸ .refl _)
  case places =>
    intro i op lock place ht
    have hold := hbusy i lock _ ht (decide_eq_true rfl)
    exact (h.places i op lock place hold).congr (by rw [hq.workers]) hdone
  case fits =>
    intro i op lock place ht
    exact h.fits i op lock place (hbusy i lock _ ht (decide_eq_true rfl))
  case locks =>
    intro i op stage lock ht hrefers
    rw [hq.cameraLocks]
    exact h.locks i op stage lock (hbusy i lock _ ht hrefers) hrefers
  case exclusive =>
    intro i j lock t u ht hu hi hj
    exact h.exclusive i j lock t u (hbusy i lock t ht (holds_refersTo hi))
      (hbusy j lock u hu (holds_refersTo hj)) hi hj

/-- The tasks after one of them went on. -/
theorem set_task {tasks : List (ManagerTask Settings)} {i j : Nat} {t u : ManagerTask Settings}
    (h : (tasks.set i t)[j]? = some u) : (j = i ∧ u = t) ∨ (j ≠ i ∧ tasks[j]? = some u) := by
  rw [List.getElem?_set] at h
  split at h
  · rename_i hij
    split at h
    · cases h
      exact .inl ⟨hij.symm, rfl⟩
    · cases h
  · rename_i hij
    exact .inr ⟨fun heq => hij heq.symm, h⟩

/-- A stretch inside a camera lock keeps the ownership. -/
theorem owned_stretch {w : ManagerWorld Settings} {i lock : Nat} {op : Operation Settings}
    {place : Section Settings} {r : Registry Settings} {progress : Progress Settings}
    (h : Owned cfg w) (ht : w.tasks[i]? = some (.operation op (.inside lock place)))
    (hstretch : Stretch cfg op w.registry r progress) :
    Owned cfg ({ w with registry := r }.goto i (.operation op (progress.stage lock))) := by
  -- the task that moved stays inside its own lock, or leaves it
  have hlock : ∀ lock', (ManagerTask.operation op (progress.stage lock)).refersTo lock' = true →
      lock' = lock := by
    intro lock' hrefers
    cases progress with
    | next place => exact (of_decide_eq_true hrefers).symm
    | ended result => cases hrefers
  have hheld : ∀ lock', (ManagerTask.operation op (progress.stage lock)).holds lock' = true →
      lock' = lock := fun lock' hholds => hlock lock' (holds_refersTo hholds)
  constructor
  case registry => exact hstretch.registry.owned h.registry
  case places =>
    intro j op' lock' place' hj
    rcases set_task hj with ⟨rfl, heq⟩ | ⟨hne, hold⟩
    · obtain ⟨rfl, hstage⟩ := ManagerTask.operation.inj heq
      cases progress with
      | next next =>
        cases hstage
        exact hstretch.place _ rfl
      | ended result => cases hstage
    · -- a task inside another lock is at another camera
      have hcamera : op'.cameraId ≠ op.cameraId := by
        intro hc
        exact hne (h.alone ht hold hc).symm
      obtain ⟨hlookup, hdone⟩ := hstretch.registry.other hcamera
      exact (h.places j op' lock' place' hold).congr hlookup hdone
  case fits =>
    intro j op' lock' place' hj
    rcases set_task hj with ⟨-, heq⟩ | ⟨-, hold⟩
    · obtain ⟨rfl, hstage⟩ := ManagerTask.operation.inj heq
      cases progress with
      | next next =>
        cases hstage
        exact hstretch.fits _ rfl
      | ended result => cases hstage
    · exact h.fits j op' lock' place' hold
  case locks =>
    intro j op' stage lock' hj hrefers
    rcases set_task hj with ⟨rfl, heq⟩ | ⟨-, hold⟩
    · rw [heq] at hrefers
      obtain ⟨rfl, -⟩ := ManagerTask.operation.inj heq
      rw [hlock lock' hrefers]
      exact h.locks j _ _ lock ht (decide_eq_true rfl)
    · exact h.locks j op' stage lock' hold hrefers
  -- two tasks inside a lock: the one that moved was inside it before
  case exclusive =>
    intro j k lock' t u hj hk hheldj hheldk
    rcases set_task hj with ⟨rfl, rfl⟩ | ⟨-, holdj⟩ <;>
      rcases set_task hk with ⟨rfl, rfl⟩ | ⟨-, holdk⟩
    · rfl
    · rw [hheld lock' hheldj] at hheldk
      exact h.exclusive j k lock _ u ht holdk (decide_eq_true rfl) hheldk
    · rw [hheld lock' hheldk] at hheldj
      exact h.exclusive j k lock t _ holdj ht hheldj (decide_eq_true rfl)
    · exact h.exclusive j k lock' t u holdj holdk hheldj hheldk

/-- An operation waits for the lock of its camera. -/
theorem owned_locking {w : ManagerWorld Settings} {i : Nat} {op : Operation Settings}
    {locks : StringMap Nat} {lock : Nat} (count : Nat) (h : Owned cfg w)
    (hkeep : ∀ c l, w.cameraLocks.lookup c = some l → locks.lookup c = some l)
    (hlock : locks.lookup op.cameraId = some lock) :
    Owned cfg ({ w with cameraLocks := locks, locks := count }.goto i
      (.operation op (.locking lock))) where
  registry := h.registry
  places j op' lock' place hj := by
    -- only the task that took the step has a new stage, and it does not hold the lock yet
    rcases set_task hj with ⟨-, heq⟩ | ⟨-, hold⟩
    · cases heq
    · exact h.places j op' lock' place hold
  fits j op' lock' place hj := by
    rcases set_task hj with ⟨-, heq⟩ | ⟨-, hold⟩
    · cases heq
    · exact h.fits j op' lock' place hold
  locks j op' stage lock' hj hrefers := by
    rcases set_task hj with ⟨-, heq⟩ | ⟨-, hold⟩
    · cases heq
      rw [← of_decide_eq_true hrefers]
      exact hlock
    · exact hkeep _ _ (h.locks j op' stage lock' hold hrefers)
  exclusive j k lock' t u hj hk hheldj hheldk := by
    rcases set_task hj with ⟨-, rfl⟩ | ⟨-, holdj⟩
    · cases hheldj
    · rcases set_task hk with ⟨-, rfl⟩ | ⟨-, holdk⟩
      · cases hheldk
      · exact h.exclusive j k lock' t u holdj holdk hheldj hheldk

/-- `_get_camera_lock` finds the lock that the other tasks of the camera refer to. -/
theorem owned_getCameraLock {w : ManagerWorld Settings} (i : Nat) (op : Operation Settings)
    (h : Owned cfg w) : Owned cfg (w.getCameraLock i op) := by
  unfold ManagerWorld.getCameraLock
  split
  · rename_i lock hlock
    exact owned_locking w.locks h (fun _ _ h => h) hlock
  · rename_i hnone
    refine owned_locking _ h (fun c l hl => ?_) (AList.lookup_insert w.cameraLocks)
    have hc : c ≠ op.cameraId := by
      intro hc
      rw [hc, hnone] at hl
      cases hl
    rw [AList.lookup_insert_ne hc]
    exact hl

/-- A task takes a lock that no task is inside of. -/
theorem owned_enter {w : ManagerWorld Settings} {i lock : Nat} {op : Operation Settings}
    (h : Owned cfg w) (ht : w.tasks[i]? = some (.operation op (.locking lock)))
    (hfree : w.tasks.any (ManagerTask.holds lock) = false) :
    Owned cfg (w.goto i (.operation op (.inside lock .finding))) := by
  -- the lock is free
  have hnone : ∀ (j : Nat) t, w.tasks[j]? = some t → t.holds lock = true → False := by
    intro j t hj hheld
    have hany : w.tasks.any (ManagerTask.holds lock) = true :=
      List.any_eq_true.mpr ⟨t, List.mem_of_getElem? hj, hheld⟩
    rw [hfree] at hany
    cases hany
  constructor
  case registry => exact h.registry
  case places =>
    intro j op' lock' place hj
    rcases set_task hj with ⟨-, heq⟩ | ⟨-, hold⟩
    · cases heq
      trivial
    · exact h.places j op' lock' place hold
  case fits =>
    intro j op' lock' place hj
    rcases set_task hj with ⟨-, heq⟩ | ⟨-, hold⟩
    · cases heq
      trivial
    · exact h.fits j op' lock' place hold
  case locks =>
    intro j op' stage lock' hj hrefers
    rcases set_task hj with ⟨rfl, heq⟩ | ⟨-, hold⟩
    · cases heq
      rw [← of_decide_eq_true hrefers]
      exact h.locks j op _ lock ht (decide_eq_true rfl)
    · exact h.locks j op' stage lock' hold hrefers
  -- so the task that enters is the only one inside
  case exclusive =>
    intro j k lock' t u hj hk hheldj hheldk
    rcases set_task hj with ⟨rfl, rfl⟩ | ⟨-, holdj⟩ <;>
      rcases set_task hk with ⟨rfl, rfl⟩ | ⟨-, holdk⟩
    · rfl
    · rw [← of_decide_eq_true hheldj] at hheldk
      exact (hnone k u holdk hheldk).elim
    · rw [← of_decide_eq_true hheldk] at hheldj
      exact (hnone j t holdj hheldj).elim
    · exact h.exclusive j k lock' t u holdj holdk hheldj hheldk

/-- The registry keeps its entries, and no worker comes to life. -/
theorem owned_keep {w : ManagerWorld Settings} {r : Registry Settings} (h : Owned cfg w)
    (hworkers : r.workers = w.registry.workers)
    (hobjects : SameWorkers w.registry.objects r.objects) :
    Owned cfg { w with registry := r } where
  registry := h.registry.keep hworkers hobjects
  places i op lock place ht :=
    (h.places i op lock place ht).congr (by rw [hworkers]) fun _ => hobjects.done
  fits := h.fits
  locks := h.locks
  exclusive := h.exclusive

/-- A lock that no task refers to goes away. -/
theorem owned_collect {w w' : ManagerWorld Settings} {cameraId : String} (h : Owned cfg w)
    (hstep : w.collect cameraId = some w') : Owned cfg w' := by
  obtain ⟨lock, hlock, hrun⟩ := Option.bind_eq_some_iff.mp hstep
  split at hrun
  · cases hrun
  · rename_i hfree
    cases hrun
    refine ⟨h.registry, h.places, h.fits, fun i op stage lock' ht hrefers => ?_, h.exclusive⟩
    have hlookup := h.locks i op stage lock' ht hrefers
    have hc : op.cameraId ≠ cameraId := by
      intro hc
      rw [hc, hlock] at hlookup
      cases hlookup
      exact hfree (List.any_eq_true.mpr ⟨_, List.mem_of_getElem? ht, hrefers⟩)
    exact (AList.lookup_erase_ne hc).trans hlookup

/-! ### Every step -/

/-- `reconcile` begins the operations that it gathers, or returns when there are none. -/
theorem operate_quiet (w : ManagerWorld Settings) (i : Nat)
    (desired : List (CameraDefinition Settings)) (operations : List (Operation Settings)) :
    QuietStep w (w.operate i desired operations) := by
  unfold ManagerWorld.operate
  split
  · exact goto_quiet w i fun _ => rfl
  · exact (goto_quiet w i fun _ => rfl).trans (spawnAll_quiet _ _)

/-- A turn of the loop of `reconcile` only reads the registry. -/
theorem scan_quiet (w : ManagerWorld Settings) (i : Nat)
    (desired : List (CameraDefinition Settings)) (operations : List (Operation Settings))
    (remaining : List (CameraDefinition Settings)) :
    QuietStep w (w.scan i desired operations remaining) := by
  unfold ManagerWorld.scan
  split
  · exact operate_quiet w i desired operations
  · exact goto_quiet w i fun _ => rfl

/-- `reconcile` itself changes no worker. -/
theorem reconcile_quiet [DecidableEq Settings] {w w' : ManagerWorld Settings} {i : Nat}
    {desired : List (CameraDefinition Settings)} {stage : ReconcileStage Settings}
    (h : w.runReconcile cfg i desired stage = some w') : QuietStep w w' := by
  cases stage with
  -- at each stage the call goes on, begins operations outside of all locks, or ends
  | snapshotting =>
    simp only [ManagerWorld.runReconcile] at h
    split at h
    · cases h
      exact goto_quiet w i fun _ => rfl
    · split at h
      · cases h
        exact scan_quiet ..
      · cases h
        exact (goto_quiet w i fun _ => rfl).trans (spawnAll_quiet _ _)
  | removing children cancelled =>
    simp only [ManagerWorld.runReconcile] at h
    split at h
    · split at h
      · cases h
        exact goto_quiet w i fun _ => rfl
      · split at h
        · cases h
          exact goto_quiet w i fun _ => rfl
        · split at h
          · cases h
            exact scan_quiet ..
          · cases h
            exact goto_quiet w i fun _ => rfl
    · cases h
  | scanning remaining operations =>
    cases remaining with
    | nil => cases h
    | cons definition remaining =>
      cases h
      exact scan_quiet ..
  | operating children cancelled =>
    simp only [ManagerWorld.runReconcile] at h
    split at h
    · split at h
      · cases h
        exact goto_quiet w i fun _ => rfl
      · split at h <;> cases h <;> exact goto_quiet w i fun _ => rfl
    · cases h
  | ended result => cases h

/-- A cancelled `reconcile` leaves the registry to its operations. -/
theorem cancelReconcile_quiet {w w' : ManagerWorld Settings} {i : Nat}
    {desired : List (CameraDefinition Settings)} {stage : ReconcileStage Settings}
    (h : w.cancelReconcile i desired stage = some w') : QuietStep w w' := by
  cases stage with
  | snapshotting | removing | scanning | operating =>
    cases h
    exact goto_quiet w i fun _ => rfl
  | ended result => cases h

/-- A caller of `shutdown` changes no worker. -/
theorem shutdown_quiet {w w' : ManagerWorld Settings} {i : Nat} {stage : ShutdownStage}
    (h : w.runShutdown i stage = some w') : QuietStep w w' := by
  cases stage with
  | entering =>
    simp only [ManagerWorld.runShutdown] at h
    have hclose : ∀ closed task, QuietStep w { w with
        registry := { w.registry with admissionClosed := closed }, shutdownTask := task } :=
      fun _ _ => ⟨rfl, rfl, rfl, fun _ _ h => .inl h⟩
    split at h
    · cases h
      exact (hclose true w.shutdownTask).trans (goto_quiet _ i fun _ => rfl)
    · cases h
      exact ((hclose true _).trans (goto_quiet _ i fun _ => rfl)).trans
        (spawn_quiet _ fun _ => rfl)
  | awaiting task =>
    simp only [ManagerWorld.runShutdown] at h
    split at h
    · cases h
      exact goto_quiet w i fun _ => rfl
    · cases h
  | ended result => cases h

/-- `_shutdown_impl` itself changes no worker. -/
theorem shutdownImpl_quiet {w w' : ManagerWorld Settings} {i : Nat} {stage : ShutdownImplStage}
    (h : w.runShutdownImpl cfg i stage = some w') : QuietStep w w' := by
  cases stage with
  | snapshotting =>
    cases h
    exact (goto_quiet w i fun _ => rfl).trans (spawnAll_quiet _ _)
  | gathering cameraIds children =>
    simp only [ManagerWorld.runShutdownImpl] at h
    split at h
    · cases h
      have herror : ∀ error, QuietStep w { w with
          registry := { w.registry with shutdownError := error } } :=
        fun _ => ⟨rfl, rfl, rfl, fun _ _ h => .inl h⟩
      exact (herror _).trans (goto_quiet _ i fun _ => rfl)
    · cases h
  | ended failures => cases h

/-- A stretch of an operation keeps the ownership. By the place of the operation: only inside its
lock does it change the entry of its camera. -/
theorem owned_operation {w w' : ManagerWorld Settings} {i : Nat}
    {closed : Option OrchestrationFailure} {op : Operation Settings} {stage : Stage Settings}
    (h : Owned cfg w) (ht : w.tasks[i]? = some (.operation op stage))
    (hstep : w.runOperation cfg i closed op stage = some w') : Owned cfg w' := by
  cases stage with
  | lookup =>
    cases hstep
    exact owned_getCameraLock i op h
  | locking lock =>
    simp only [ManagerWorld.runOperation] at hstep
    split at hstep
    · cases hstep
    · rename_i hfree
      cases hstep
      exact owned_enter h ht (Bool.eq_false_iff.mpr hfree)
  | inside lock place =>
    obtain ⟨⟨r, progress⟩, hrun, rfl⟩ := Option.map_eq_some_iff.mp hstep
    exact owned_stretch h ht (section_stretch (h.places i op lock place ht)
      (h.fits i op lock place ht) hrun)
  | ended result => cases hstep

/-- A cancellation of an operation keeps the ownership. -/
theorem owned_cancel {w w' : ManagerWorld Settings} {i : Nat}
    {closed : Option OrchestrationFailure} {op : Operation Settings} {stage : Stage Settings}
    (h : Owned cfg w) (ht : w.tasks[i]? = some (.operation op stage))
    (hstep : w.cancelOperation cfg i closed op stage = some w') : Owned cfg w' := by
  cases stage with
  | lookup | locking =>
    cases hstep
    exact owned_quiet h (goto_quiet w i fun _ => rfl)
  | inside lock place =>
    obtain ⟨⟨r, progress⟩, hrun, rfl⟩ := Option.map_eq_some_iff.mp hstep
    exact owned_stretch h ht (cancel_stretch (h.places i op lock place ht)
      (h.fits i op lock place ht) hrun)
  | ended result => cases hstep

variable [DecidableEq Settings]

/-- Every step of the manager keeps the ownership. -/
theorem owned_step {w w' : ManagerWorld Settings} {act : ManagerAct Settings}
    (h : Owned cfg w) (hstep : w.step cfg act = some w') : Owned cfg w' := by
  cases act with
  | startCamera | stopCamera | restartCamera | shutdown =>
    cases hstep
    exact owned_quiet h (spawn_quiet w fun _ => rfl)
  | reconcile desired =>
    cases hstep
    unfold ManagerWorld.callReconcile
    split <;> exact owned_quiet h (spawn_quiet w fun _ => rfl)
  -- only a stretch of an operation changes entries
  | run i closed =>
    obtain ⟨t, ht, hrun⟩ := Option.bind_eq_some_iff.mp hstep
    cases t with
    | operation op stage => exact owned_operation h ht hrun
    | reconcile desired stage => exact owned_quiet h (reconcile_quiet hrun)
    | shutdown stage => exact owned_quiet h (shutdown_quiet hrun)
    | shutdownImpl stage => exact owned_quiet h (shutdownImpl_quiet hrun)
  | cancel i closed =>
    obtain ⟨t, ht, hrun⟩ := Option.bind_eq_some_iff.mp hstep
    cases t with
    | operation op stage =>
      cases op with
      | shutdown cameraId => cases hrun
      | start | restart | stop => exact owned_cancel h ht hrun
    | reconcile desired stage => exact owned_quiet h (cancelReconcile_quiet hrun)
    | shutdown stage =>
      cases stage with
      | entering | awaiting =>
        cases hrun
        exact owned_quiet h (goto_quiet w i fun _ => rfl)
      | ended => cases hrun
    | shutdownImpl stage => cases hrun
  -- a worker that steps stays its camera's, and none comes to life
  | work k v' =>
    obtain ⟨v, hv, hrun⟩ := Option.bind_eq_some_iff.mp hstep
    split at hrun
    · rename_i hevolves
      cases hrun
      refine owned_keep h (setWorker_workers ..) ?_
      rw [setWorker_objects]
      exact evolves_same hv hevolves
    · cases hrun
  | collect cameraId => exact owned_collect h hstep

/-- The ownership holds in every reachable state. -/
theorem reachable_owned {w : ManagerWorld Settings}
    (h : Reachable (managerMachine cfg) Any w) : Owned cfg w := by
  refine h.invariant owned_init ?_
  intro w act w' _ _ hstep hinv
  exact owned_step hinv hstep

/-- Exclusive ownership, over every interleaving of calls on any cameras with any of them
cancelled anywhere. A worker whose supervisor is not done is the registered one of its camera, so a
camera has at most one. The registry never holds more than `max_active_workers` workers. -/
theorem camera_ownership {w : ManagerWorld Settings}
    (h : Reachable (managerMachine cfg) Any w) :
    (∀ k v, w.registry.objects[k]? = some v → v.live = true →
      w.registry.workers.lookup v.cameraId = some k) ∧
    (∀ (k k' : Nat) (v v' : WorkerView Settings), w.registry.objects[k]? = some v →
      w.registry.objects[k']? = some v' → v.live = true → v'.live = true →
      v.cameraId = v'.cameraId → k = k') ∧
    w.registry.workers.keys.length ≤ cfg.maxActiveWorkers.val := by
  have hregistry := (reachable_owned h).registry
  refine ⟨hregistry.live, ?_, hregistry.capacity⟩
  intro k k' v v' hv hv' hlive hlive' hcamera
  have hk := hregistry.live k v hv hlive
  have hk' := hregistry.live k' v' hv' hlive'
  rw [hcamera, hk'] at hk
  exact (Option.some.inj hk).symm

end

/-- At most two workers. -/
def twoCameras : ManagerConfig := ⟨⟨4, Nat.le_add_left 1 3⟩, ⟨2, Nat.le_add_left 1 1⟩, id⟩

def frontDoor : CameraDefinition Nat := ⟨"door", 0⟩

/-- A worker that runs, is being stopped, or stopped. -/
def viewOf (definition : CameraDefinition Nat) (generation : Nat) (state : WorkerState) :
    WorkerView Nat :=
  ⟨definition, generation, state, none, [], state ≠ .stopped, .resolved⟩

/-- A camera runs, and a caller of `stop_camera` is cancelled while the worker stops. Two callers of
`start_camera` arrive, and the first of them waits for the old worker and starts a new one. -/
def replacingRun : List (ManagerAct Nat) :=
  [.startCamera frontDoor, .run 0 none, .run 0 none, .run 0 none, .run 0 none,
    .work 0 (viewOf frontDoor 1 .running), .run 0 none, .run 0 none, .stopCamera "door",
    .run 1 none, .run 1 none, .run 1 none, .cancel 1 none, .startCamera frontDoor,
    .startCamera frontDoor, .run 2 none, .run 3 none, .run 2 none, .run 2 none,
    .work 0 (viewOf frontDoor 1 .stopped), .run 2 none, .run 2 none, .run 2 none]

def replacedWorld : ManagerWorld Nat :=
  (managerMachine twoCameras).final (managerMachine twoCameras).init replacingRun

/-- The world after the replacement is reached by its run. -/
theorem replacedWorld_reachable : Reachable (managerMachine twoCameras) Any replacedWorld :=
  Reachable.init.final replacingRun (by decide +kernel)

/-- The new worker alone is live. It is the registered one. -/
theorem replacing_owned :
    replacedWorld.registry.objects.map (·.live) = [false, true] ∧
      (∀ k v, replacedWorld.registry.objects[k]? = some v → v.live = true →
        replacedWorld.registry.workers.lookup v.cameraId = some k) ∧
      (∀ (k k' : Nat) (v v' : WorkerView Nat), replacedWorld.registry.objects[k]? = some v →
        replacedWorld.registry.objects[k']? = some v' → v.live = true → v'.live = true →
        v.cameraId = v'.cameraId → k = k') ∧
      replacedWorld.registry.workers.keys.length ≤ twoCameras.maxActiveWorkers.val :=
  ⟨by decide +kernel, camera_ownership replacedWorld_reachable⟩

end Rsap.Proofs
