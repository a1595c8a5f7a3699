import Rsap.Proofs.Chains

/-!
# `Rsap.Proofs.LocalCameras`: the local camera table

`cameras_cases` lists what an operation does to `local_cameras`: nothing, or one of the four
writes. Camera ids are new when a camera is created, so they are unique
(`cameraIds_reachable`). A row of the queue under a camera's key needs the camera to have been
created, and hangs on no other item (`Free`).
-/

set_option autoImplicit false

namespace Rsap.Proofs

open Rsap.Library
open Rsap.Library.Machine (Reachable Any)
open Rsap.Desktop

/-- The camera that `create` inserts. -/
def createdCamera (now : Timestamp) (cameraId : Uuid) (payload : CameraCreate) : LocalCamera :=
  { toCameraFields := CameraRepository.createFields payload
    id := cameraId
    serverId := none
    syncState := .pending
    createdAt := now
    updatedAt := now }

/-- What `update` does to its camera. -/
def updatedCamera (now : Timestamp) (changes : CameraUpdate) (c : LocalCamera) : LocalCamera :=
  { c with
      toCameraFields := changes.assign c.toCameraFields
      syncState := .pending
      updatedAt := now }

/-- The local camera table after an operation. -/
inductive CamerasCases (db : Db) : Op → List LocalCamera → Prop where
  | same {op : Op} : CamerasCases db op db.localCameras
  | created (now : Timestamp) (cameraId itemId : Uuid) (payload : CameraCreate)
      (maxCameras : Int) (maxAttempts : Attempts) :
      CamerasCases db (.createCamera now cameraId itemId payload maxCameras maxAttempts)
        (db.localCameras ++ [createdCamera now cameraId payload])
  | updated (now : Timestamp) (itemId cameraId : Uuid) (changes : CameraUpdate)
      (maxAttempts : Attempts) : Alive db cameraId →
      CamerasCases db (.updateCamera now itemId cameraId changes maxAttempts)
        (updateWhere (fun c => c.id = cameraId) (updatedCamera now changes) db.localCameras)
  | deleted (now : Timestamp) (itemId cameraId : Uuid) (maxAttempts : Attempts) :
      CamerasCases db (.deleteCamera now itemId cameraId maxAttempts)
        (deleteWhere (fun c => c.id = cameraId) db.localCameras)
  | completed (now : Timestamp) (itemId token : Uuid) (owner : String) (localId serverId : Uuid) :
      ((Op.completeCamera now itemId token owner localId serverId).run db).2 = .flag true →
      CamerasCases db (.completeCamera now itemId token owner localId serverId)
        (updateWhere (fun c => c.id = localId)
          ({ · with serverId := some serverId, syncState := .synced }) db.localCameras)

/-- The camera that is found is a row of its id. -/
theorem find_alive {db : Db} {c : Uuid} {camera : LocalCamera}
    (h : (db.localCameras.find? fun camera => camera.id = c) = some camera) :
    camera ∈ db.localCameras ∧ camera.id = c :=
  ⟨List.mem_of_find?_eq_some h, by simpa using List.find?_some h⟩

/-- Every operation changes the local camera table in one of these ways. -/
theorem cameras_cases (db : Db) (op : Op) : CamerasCases db op (op.run db).1.localCameras := by
  cases op with
  | save now session validUntil =>
    simp only [Op.run, SessionRepository.save]
    split <;> exact .same
  | replaceActive | markRevocationPending | beginRevocation | setError | clear =>
    simp only [Op.run, SessionRepository.replaceActive, SessionRepository.markRevocationPending,
      SessionRepository.beginRevocation, SessionRepository.setError, SessionRepository.clear]
    split
    · split <;> exact .same
    · exact .same
  | createCamera now cameraId itemId payload maxCameras maxAttempts =>
    simp only [Op.run, CameraRepository.create]
    split
    · exact .same
    · exact .created now cameraId itemId payload maxCameras maxAttempts
  | updateCamera now itemId cameraId changes maxAttempts =>
    simp only [Op.run, CameraRepository.update]
    split
    · exact .same
    · rename_i current hfind
      exact .updated now itemId cameraId changes maxAttempts ⟨current, find_alive hfind⟩
  -- deleting a camera that is not there deletes nothing
  | deleteCamera now itemId cameraId maxAttempts =>
    simp only [Op.run, CameraRepository.delete]
    split
    · rename_i hnone
      have hself : deleteWhere (fun c => c.id = cameraId) db.localCameras = db.localCameras :=
        List.filter_eq_self.mpr fun c hc => by
          simpa using List.find?_eq_none.mp hnone c hc
      exact hself ▸ CamerasCases.deleted now itemId cameraId maxAttempts
    · exact .deleted now itemId cameraId maxAttempts
  -- what a camera reports leaves the cameras
  | addEvent now itemId eventId payload maxAttempts =>
    simp only [Op.run, AnalyticsRepository.addEvent]
    split
    · exact .same
    · cases hadd : AnalyticsRepository.add now itemId payload.cameraId
        (AnalyticsRepository.insertEvent eventId payload) .syncEvents _ (.event eventId)
        maxAttempts db with
      | error e => exact .same
      | ok db' =>
        obtain ⟨-, -, -, hcameras, -⟩ := add_queue (fun _ => insertEvent_core) hadd
        show CamerasCases _ _ db'.localCameras
        exact hcameras ▸ CamerasCases.same
  | addAlert now itemId alertId payload maxAttempts =>
    simp only [Op.run, AnalyticsRepository.addAlert]
    split
    · exact .same
    · cases hadd : AnalyticsRepository.add now itemId payload.cameraId
        (AnalyticsRepository.insertAlert alertId payload) .syncAlerts _ (.alert alertId)
        maxAttempts db with
      | error e => exact .same
      | ok db' =>
        obtain ⟨-, -, -, hcameras, -⟩ := add_queue (fun _ => insertAlert_core) hadd
        show CamerasCases _ _ db'.localCameras
        exact hcameras ▸ CamerasCases.same
  | addPeopleCount now itemId countId payload maxAttempts =>
    simp only [Op.run, AnalyticsRepository.addPeopleCount]
    cases hadd : AnalyticsRepository.add now itemId payload.cameraId
      (AnalyticsRepository.insertPeopleCount countId payload) .syncPeopleCount _ (.count countId)
      maxAttempts db with
    | error e => exact .same
    | ok db' =>
      obtain ⟨-, -, -, hcameras, -⟩ := add_queue (fun _ => insertPeopleCount_core) hadd
      show CamerasCases _ _ db'.localCameras
      exact hcameras ▸ CamerasCases.same
  | enqueueRevocation => exact .same
  | claim now token owner limit key leaseSeconds =>
    simp only [Op.run, SyncQueueRepository.claim]
    split <;> exact .same
  | complete now itemId token owner =>
    simp only [Op.run, SyncQueueRepository.complete]
    split
    · exact .same
    · split
      · simp only [Prod.map_apply, id_eq, (markSynced_core _ _).localCameras]
        exact .same
      · exact .same
  | completeCamera now itemId token owner localId serverId =>
    simp only [Op.run, SyncQueueRepository.completeCamera]
    split
    · rename_i hone
      exact .completed now itemId token owner localId serverId
        (by simp [Op.run, SyncQueueRepository.completeCamera, hone])
    · exact .same
  | completeRevocation now itemId token owner generation =>
    simp only [Op.run, SyncQueueRepository.completeRevocation]
    split <;> exact .same
  | fail now itemId token owner code message permanent =>
    simp only [Op.run, SyncQueueRepository.fail]
    split <;> exact .same
  | retryDeadLetter | discardDeadLetter | purgeRetained => exact .same

/-- Camera ids are unique and were issued. -/
structure CameraIds (s : Store) : Prop where
  unique : UniqueOn LocalCamera.id s.db.localCameras
  issued : ∀ camera ∈ s.db.localCameras, camera.id ∈ s.issued

/-- In every reachable store camera ids are unique and were issued. -/
theorem cameraIds_reachable {ok : Store → Op → Prop} {s : Store}
    (h : Reachable storeMachine ok s) : CameraIds s := by
  refine h.invariant (I := CameraIds) ⟨.nil, fun _ hc => absurd hc List.not_mem_nil⟩ ?_
  intro s op s' _ _ hstep ih
  obtain ⟨hadmits, rfl⟩ := store_step hstep
  have hcases := cameras_cases s.db op
  suffices hnew : UniqueOn LocalCamera.id (op.run s.db).1.localCameras ∧
      ∀ camera ∈ (op.run s.db).1.localCameras, camera.id ∈ s.issued ∨ camera.id ∈ op.uuids from
    ⟨hnew.1, fun camera hc => List.mem_append.mpr (hnew.2 camera hc).symm⟩
  have hold : ∀ camera ∈ s.db.localCameras, camera.id ∈ s.issued ∨ camera.id ∈ op.uuids :=
    fun camera hc => .inl (ih.issued camera hc)
  generalize (op.run s.db).1.localCameras = cameras at hcases ⊢
  cases hcases with
  | same => exact ⟨ih.unique, hold⟩
  -- the id of a new camera was not issued before
  | created now cameraId itemId payload maxCameras maxAttempts =>
    have hmem : cameraId ∈ (Op.createCamera now cameraId itemId payload maxCameras
      maxAttempts).uuids := by simp [Op.uuids]
    refine ⟨ih.unique.insert fun camera hc he => hadmits.2 _ hmem ?_, fun camera hc => ?_⟩
    · rw [← show camera.id = cameraId from he]
      exact ih.issued camera hc
    · rcases List.mem_append.mp hc with hc | hc
      · exact hold camera hc
      · rw [List.mem_singleton.mp hc]
        exact .inr hmem
  | updated now itemId cameraId changes maxAttempts =>
    refine ⟨ih.unique.update fun _ _ => rfl, fun camera hc => ?_⟩
    obtain ⟨old, hold', rfl⟩ := mem_updateWhere.mp hc
    split <;> exact hold old hold'
  | deleted => exact ⟨ih.unique.delete _, fun camera hc => hold camera (mem_deleteWhere.mp hc).1⟩
  | completed now itemId token owner localId serverId =>
    refine ⟨ih.unique.update fun _ _ => rfl, fun camera hc => ?_⟩
    obtain ⟨old, hold', rfl⟩ := mem_updateWhere.mp hc
    split <;> exact hold old hold'

/-! ### The rows of a camera -/

/-- An operation enqueues under a camera's key when it creates, updates or deletes the camera.
The item then depends on nothing. -/
theorem enqueueOf_camera {db : Db} {op : Op} {e : Enqueue} {c : Uuid}
    (h : enqueueOf db op = some e) (hkey : e.logicalKey = .camera c) :
    e.dependsOnId = none ∧ (Alive db c ∨ ∃ now itemId payload maxCameras maxAttempts,
      op = .createCamera now c itemId payload maxCameras maxAttempts) := by
  cases op <;> simp only [enqueueOf, reduceCtorEq, Option.some.injEq, Option.map_eq_some_iff] at h
  case createCamera =>
    subst h
    cases hkey
    exact ⟨rfl, .inr ⟨_, _, _, _, _, rfl⟩⟩
  case updateCamera =>
    obtain ⟨current, hfind, rfl⟩ := h
    cases hkey
    exact ⟨rfl, .inl ⟨current, find_alive hfind⟩⟩
  case deleteCamera =>
    split at h
    · rename_i camera hfind
      split at h <;> cases h
      cases hkey
      exact ⟨rfl, .inl ⟨camera, find_alive hfind⟩⟩
    · cases h
  case addEvent => split at h <;> cases h; cases hkey
  case addAlert => split at h <;> cases h; cases hkey
  case addPeopleCount => split at h <;> cases h; cases hkey
  all_goals subst h; cases hkey

/-- A row under a camera's key depends on no other item. -/
def Free (r : Row) : Prop := ∀ c, r.logicalKey = .camera c → r.dependsOnId = none

/-- The changes of an operation keep the rows of cameras free. -/
theorem makes_free {db : Db} {op : Op} {c : Change} {r : Row} (hmakes : Makes db op c r)
    (h : Free r) : Free (c.apply r) := by
  intro cameraId hkey
  have hold := h cameraId ((c.apply_fixed r).2.1 ▸ hkey)
  cases c with
  | coalesce endpoint payload now dependsOnId =>
    obtain ⟨e, he, -, hlatest, -, -, -, rfl⟩ := hmakes
    have hkey' : e.logicalKey = .camera cameraId := (latestBy_mem hlatest).2.symm.trans hkey
    show (e.dependsOnId <|> r.dependsOnId) = none
    rw [(enqueueOf_camera he hkey').1, hold]
    rfl
  | unlinkDependency => rfl
  | _ => exact hold

/-- The rows of cameras depend on nothing, in every reachable store. -/
theorem free_reachable {ok : Store → Op → Prop} {s : Store}
    (h : Reachable storeMachine ok s) : ∀ r ∈ s.db.syncQueue, Free r := by
  refine row_invariant (fun _ _ r _ hr => ?_) (fun _ _ _ _ _ hmakes _ => makes_free hmakes) h
  obtain ⟨e, _, _, he, rfl⟩ := hr
  exact fun c hkey => (enqueueOf_camera he hkey).1

/-- The camera of a row was created before the row. -/
theorem cameraKey_issued {ok : Store → Op → Prop} {s : Store} (h : Reachable storeMachine ok s) :
    ∀ r ∈ s.db.syncQueue, ∀ c, r.logicalKey = .camera c → c ∈ s.issued := by
  refine h.invariant
    (I := fun s => ∀ r ∈ s.db.syncQueue, ∀ c, r.logicalKey = .camera c → c ∈ s.issued)
    (fun _ hr => absurd hr List.not_mem_nil) ?_
  intro s op s' hreach _ hstep ih
  obtain ⟨-, hs'⟩ := store_step hstep
  have hissued : s'.issued = op.uuids ++ s.issued := by rw [hs']
  refine step_rows (P := fun r => ∀ c, r.logicalKey = .camera c → c ∈ s'.issued)
    (keyed_reachable hreach) hstep ?_ ?_ ?_
  · intro r hr c hkey
    rw [hissued]
    exact List.mem_append_right _ (ih r hr c hkey)
  · rintro r ⟨e, _, _, he, rfl⟩ c hkey
    rw [hissued]
    rcases (enqueueOf_camera he hkey).2 with ⟨camera, hc, rfl⟩ | ⟨_, _, _, _, _, rfl⟩
    · exact List.mem_append_right _ ((cameraIds_reachable hreach).issued camera hc)
    · exact List.mem_append_left _ (by simp [Op.uuids])
  · intro r change _ _ hr c hkey
    exact hr c ((change.apply_fixed r).2.1 ▸ hkey)

end Rsap.Proofs
