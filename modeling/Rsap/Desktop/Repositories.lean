import Rsap.Desktop.Database

/-!
# `Rsap.Desktop.Repositories`: sessions, cameras and analytics

The write methods of `SessionRepository`, `CameraRepository` and `AnalyticsRepository`
(`app/repositories.py`). Each is the function that one `database.write` transaction computes.
The clock readings and the values of `uuid4` are arguments. A method that raises returns an
`OpError`, and the transaction is rolled back.
-/

set_option autoImplicit false

namespace Rsap.Desktop

open Rsap.Library

/-! ### `SessionRepository` -/

namespace SessionRepository

/-- The record of the session row. -/
def record (row : SessionRow) : SessionRecord where
  session := row.session
  licenseValidUntil := row.licenseValidUntil
  generation := row.generation
  status := row.status
  lastError := row.lastError

/-- `get_record`. -/
def getRecord (db : Db) : Option SessionRecord := db.localSession.map record

/-- The states of a `session:revoke` row that a login cancels. -/
abbrev Cancellable (r : Row) : Prop :=
  r.logicalKey = .sessionRevoke ∧ (r.Waiting ∨ r.state = .deadLetter)

/-- `state='cancelled',completed_at=?`. -/
def cancelRow (now : Timestamp) (r : Row) : Row :=
  { r with state := .cancelled, completedAt := some now }

/-- `save`: install a session one generation up and cancel the waiting revocations. -/
def save (now : Timestamp) (session : LocalSession) (licenseValidUntil : Option Timestamp)
    (db : Db) : Except OpError (Db × SessionRecord) :=
  match session.userId with
  | none => .error (.valueError "central login response did not include user.id")
  | some userId =>
    let generation :=
      match db.localSession with
      | some current => current.generation + 1
      | none => 1
    let row : SessionRow :=
      { session, userId, licenseValidUntil, updatedAt := now, generation
        status := .active
        lastError := none }
    .ok ({ db with
      localSession := some row
      syncQueue := updateWhere Cancellable (cancelRow now) db.syncQueue }, record row)

/-- `replace_active`: the compare-and-swap of a refresh. -/
def replaceActive (now : Timestamp) (session : LocalSession) (licenseValidUntil : Timestamp)
    (expectedGeneration : Nat) (db : Db) : Db × Bool :=
  match db.localSession with
  | some row =>
    if row.generation = expectedGeneration ∧ row.status = .active then
      ({ db with localSession := some { row with
          session
          licenseValidUntil := some licenseValidUntil
          generation := row.generation + 1
          updatedAt := now
          lastError := none } }, true)
    else (db, false)
  | none => (db, false)

/-- `mark_revocation_pending`. -/
def markRevocationPending (now : Timestamp) (expectedGeneration : Nat) (db : Db) :
    Db × Option Nat :=
  match db.localSession with
  | some row =>
    if row.generation = expectedGeneration ∧ row.status = .active then
      ({ db with localSession := some { row with
          status := .revocationPending
          generation := row.generation + 1
          updatedAt := now
          lastError := none } }, some (expectedGeneration + 1))
    else (db, none)
  | none => (db, none)

/-- The owner of the lease that a logout takes on its own revocation. -/
def authLogout : String := "auth-logout"

/-- The lease that `begin_revocation` takes on the row it enqueued. -/
def leaseRevocation (now expires : Timestamp) (claimToken : Uuid) (r : Row) : Row :=
  { r with
      state := .inflight
      claimToken := some claimToken
      leaseOwner := some authLogout
      leaseExpiresAt := some expires
      lastAttemptAt := some now
      attemptCount := r.attemptCount + 1 }

/-- `begin_revocation`: deny authorization and create the first lease on a revocation, in one
transaction. It returns the generation, the item and the claim token. -/
def beginRevocation (now : Timestamp) (itemId claimToken : Uuid) (expectedGeneration : Nat)
    (maxAttempts : Attempts) (leaseSeconds : Nat) (db : Db) : Db × Option (Nat × Uuid × Uuid) :=
  let generation := expectedGeneration + 1
  match db.localSession with
  | some row =>
    if row.generation = expectedGeneration ∧ row.status = .active then
      let (queue, id) := enqueue
        { now, itemId, endpoint := .logout, payload := .sessionRevoke generation
          logicalKey := .sessionRevoke, maxAttempts, dependsOnId := none } db.syncQueue
      ({ db with
          localSession := some { row with
            status := .revocationPending
            generation
            updatedAt := now
            lastError := none }
          syncQueue := updateWhere (fun r => r.id = id ∧ r.state = .pending)
            (leaseRevocation now (now + seconds leaseSeconds) claimToken) queue },
        some (generation, id, claimToken))
    else (db, none)
  | none => (db, none)

/-- `set_error`. -/
def setError (now : Timestamp) (generation : Nat) (code : String) (db : Db) : Db :=
  match db.localSession with
  | some row =>
    if row.generation = generation then
      { db with localSession := some { row with
          lastError := some (String.ofList (code.toList.take 100))
          updatedAt := now } }
    else db
  | none => db

/-- `clear`, with the generation that the caller expects or without one. -/
def clear (expectedGeneration : Option Nat) (db : Db) : Db × Bool :=
  match db.localSession with
  | some row =>
    if expectedGeneration = none ∨ expectedGeneration = some row.generation then
      ({ db with localSession := none }, true)
    else (db, false)
  | none => (db, false)

end SessionRepository

/-! ### `CameraRepository` -/

namespace CameraRepository

/-- The body of the `POST` for a camera with these fields. The central create contract has no
`is_active`. -/
def centralCreate (id : Uuid) (fields : CameraFields) : CentralCameraCreate where
  id := id
  name := fields.name
  streamUrl := fields.streamUrl
  streamType := fields.streamType
  locationLabel := fields.locationLabel
  analyticsConfig := fields.analyticsConfig
  zones := fields.zones

/-- The fields of a new camera. -/
def createFields (payload : CameraCreate) : CameraFields where
  name := payload.name
  streamUrl := payload.streamUrl
  streamType := payload.streamType
  locationLabel := payload.locationLabel
  analyticsConfig := payload.analyticsConfig
  zones := payload.zones
  isActive := true

/-- `create`: insert the camera and enqueue its `POST`, under the licence's camera limit. -/
def create (now : Timestamp) (cameraId itemId : Uuid) (payload : CameraCreate)
    (maxCameras : Int) (maxAttempts : Attempts) (db : Db) : Except OpError (Db × LocalCamera) :=
  if (db.localCameras.length : Int) ≥ maxCameras then
    .error (.valueError "license camera limit reached")
  else
    let camera : LocalCamera :=
      { toCameraFields := createFields payload
        id := cameraId
        serverId := none
        syncState := .pending
        createdAt := now
        updatedAt := now }
    .ok ({ db with
      localCameras := db.localCameras ++ [camera]
      syncQueue := (enqueue
        { now, itemId, endpoint := .cameras
          payload := .cameraPost cameraId (centralCreate cameraId (createFields payload))
          logicalKey := .camera cameraId, maxAttempts, dependsOnId := none }
        db.syncQueue).1 }, camera)

/-- The update is folded into the camera's `POST`: the `POST` is the latest row of the key and
no lease ever took it. -/
def rewritesPost (serverId : Option Uuid) (latest : Option Row) : Bool :=
  match latest with
  | some row => decide (serverId = none ∧ row.Fresh ∧ row.payload.isCameraPost = true)
  | none => false

/-- The `analytics` part of a queued `PATCH`: present when the update sets one of its two
fields, the other one taken from the updated row. -/
def queuedAnalytics (changes : CameraUpdate) (updated : CameraFields) :
    Option CentralAnalyticsConfig :=
  if changes.analyticsConfig.isSome || changes.zones.isSome then
    some
      { analyticsConfig := changes.analyticsConfig.getD updated.analyticsConfig
        zones := changes.zones.getD updated.zones }
  else none

/-- What `update` queues: the endpoint and the payload. -/
def queuedUpdate (cameraId : Uuid) (changes : CameraUpdate) (updated : CameraFields)
    (serverId : Option Uuid) (latest : Option Row) : Endpoint × Payload :=
  if rewritesPost serverId latest then
    (.cameras, .cameraPost cameraId (centralCreate cameraId updated))
  else
    (.camera cameraId,
      .cameraPatch cameraId changes.central (queuedAnalytics changes updated))

/-- `update`: change the camera and enqueue the change. -/
def update (now : Timestamp) (itemId cameraId : Uuid) (changes : CameraUpdate)
    (maxAttempts : Attempts) (db : Db) : Db × Option LocalCamera :=
  match db.localCameras.find? fun c => c.id = cameraId with
  | none => (db, none)
  | some current =>
    let assigned (c : LocalCamera) : LocalCamera :=
      { c with
          toCameraFields := changes.assign c.toCameraFields
          syncState := .pending
          updatedAt := now }
    let updated := assigned current
    let queued := queuedUpdate cameraId changes updated.toCameraFields current.serverId
      (latestRow (.camera cameraId) db.syncQueue)
    ({ db with
        localCameras := updateWhere (fun c => c.id = cameraId) assigned db.localCameras
        syncQueue := (enqueue
          { now, itemId, endpoint := queued.1, payload := queued.2
            logicalKey := .camera cameraId, maxAttempts, dependsOnId := none }
          db.syncQueue).1 }, some updated)

/-- The local deletion of a camera. The foreign keys cascade to its analytics records. -/
def deleteLocal (cameraId : Uuid) (db : Db) : Db :=
  { db with
      localCameras := deleteWhere (fun c => c.id = cameraId) db.localCameras
      localAnalyticsEvents := deleteWhere (fun e => e.cameraId = cameraId)
        db.localAnalyticsEvents
      localAlerts := deleteWhere (fun a => a.cameraId = cameraId) db.localAlerts
      localPeopleCounts := deleteWhere (fun c => c.cameraId = cameraId) db.localPeopleCounts }

/-- `delete` withdraws the camera's latest row: the central side is not known to hold the
camera and the latest row waits. -/
def withdraws (serverId : Option Uuid) (latest : Row) : Prop :=
  serverId = none ∧ latest.Waiting

instance (serverId : Option Uuid) (latest : Row) : Decidable (withdraws serverId latest) :=
  inferInstanceAs (Decidable (_ ∧ _))

/-- The queue after `delete`: cancel the latest row and what depends on it, or enqueue a
`DELETE`. -/
def deleteQueue (now : Timestamp) (itemId cameraId : Uuid) (serverId : Option Uuid)
    (maxAttempts : Attempts) (queue : List Row) : List Row :=
  let queued := (enqueue
    { now, itemId, endpoint := .camera cameraId, payload := .cameraDelete cameraId
      logicalKey := .camera cameraId, maxAttempts, dependsOnId := none } queue).1
  match latestRow (.camera cameraId) queue with
  | some latest =>
    if withdraws serverId latest then
      updateWhere (fun r => (r.id = latest.id ∨ r.dependsOnId = some latest.id) ∧ r.Waiting)
        (SessionRepository.cancelRow now) queue
    else queued
  | none => queued

/-- `delete`. -/
def delete (now : Timestamp) (itemId cameraId : Uuid) (maxAttempts : Attempts) (db : Db) :
    Db × Bool :=
  match db.localCameras.find? fun c => c.id = cameraId with
  | none => (db, false)
  | some row =>
    (deleteLocal cameraId { db with
      syncQueue := deleteQueue now itemId cameraId row.serverId maxAttempts db.syncQueue }, true)

end CameraRepository

/-! ### `AnalyticsRepository` -/

/-- `require_central_image_id`. -/
def requireCentralImageId (localPath : Option String) (imageId : Option Uuid) :
    Except OpError (Option Uuid) :=
  if (localPath.any fun path => !path.isEmpty) && imageId.isNone then
    .error (.contract "capture file has no central file identifier")
  else .ok imageId

namespace AnalyticsRepository

/-- `_camera_dependency`: the row that a record of the camera must wait for. -/
def cameraDependency (cameraId : Uuid) (db : Db) : Except OpError (Option Uuid) :=
  match db.localCameras.find? fun c => c.id = cameraId with
  | none => .error (.valueError "camera does not exist")
  | some camera =>
    if camera.serverId.isSome then .ok none
    else
      match earliestRow (.camera cameraId) db.syncQueue with
      | none => .error (.valueError "camera identity has no synchronization record")
      | some row => .ok (some row.id)

/-- The shared body of `add_event`, `add_alert` and `add_people_count`: the dependency, the
local insert, and the queued central record. -/
def add (now : Timestamp) (itemId cameraId : Uuid) (insert : Db → Except OpError Db)
    (endpoint : Endpoint) (payload : Payload) (logicalKey : LogicalKey)
    (maxAttempts : Attempts) (db : Db) : Except OpError Db :=
  match cameraDependency cameraId db with
  | .error e => .error e
  | .ok dependency =>
    match insert db with
    | .error e => .error e
    | .ok db' =>
      .ok { db' with syncQueue := (enqueue
        { now, itemId, endpoint, payload, logicalKey, maxAttempts, dependsOnId := dependency }
        db'.syncQueue).1 }

/-- `INSERT INTO local_analytics_events`. -/
def insertEvent (eventId : Uuid) (payload : AnalyticsEventCreate) (db : Db) :
    Except OpError Db :=
  if db.localAnalyticsEvents.any fun e => e.id == eventId then .error .integrity
  else .ok { db with localAnalyticsEvents := db.localAnalyticsEvents ++ [
    { id := eventId, cameraId := payload.cameraId, eventType := payload.eventType
      payload := payload.payload, capturedImagePath := payload.capturedImagePath
      synced := false, createdAt := payload.createdAt
      capturedImageId := payload.capturedImageId }] }

/-- `add_event`. `eventId` is the id of the request or a new one. -/
def addEvent (now : Timestamp) (itemId eventId : Uuid) (payload : AnalyticsEventCreate)
    (maxAttempts : Attempts) (db : Db) : Except OpError Db :=
  match requireCentralImageId payload.capturedImagePath payload.capturedImageId with
  | .error e => .error e
  | .ok imageId =>
    add now itemId payload.cameraId (insertEvent eventId payload) .syncEvents
      (.events
        { id := eventId, cameraId := payload.cameraId, eventType := payload.eventType
          payload := payload.payload, capturedImageId := imageId
          createdAt := payload.createdAt })
      (.event eventId) maxAttempts db

/-- `INSERT INTO local_alerts`. -/
def insertAlert (alertId : Uuid) (payload : AlertCreate) (db : Db) : Except OpError Db :=
  if db.localAlerts.any fun a => a.id == alertId then .error .integrity
  else .ok { db with localAlerts := db.localAlerts ++ [
    { id := alertId, cameraId := payload.cameraId, zoneId := payload.zoneId
      imagePath := payload.imagePath, confidence := payload.confidence
      resolved := payload.resolved, synced := false, createdAt := payload.createdAt
      capturedImageId := payload.capturedImageId }] }

/-- `add_alert`. -/
def addAlert (now : Timestamp) (itemId alertId : Uuid) (payload : AlertCreate)
    (maxAttempts : Attempts) (db : Db) : Except OpError Db :=
  match requireCentralImageId payload.imagePath payload.capturedImageId with
  | .error e => .error e
  | .ok imageId =>
    add now itemId payload.cameraId (insertAlert alertId payload) .syncAlerts
      (.alerts
        { id := alertId, cameraId := payload.cameraId, zoneId := payload.zoneId
          capturedImageId := imageId, confidence := payload.confidence
          resolved := payload.resolved, createdAt := payload.createdAt })
      (.alert alertId) maxAttempts db

/-- `INSERT INTO local_people_counts`. -/
def insertPeopleCount (countId : Uuid) (payload : PeopleCountCreate) (db : Db) :
    Except OpError Db :=
  if db.localPeopleCounts.any fun c => c.id == countId then .error .integrity
  else .ok { db with localPeopleCounts := db.localPeopleCounts ++ [
    { id := countId, cameraId := payload.cameraId, countIn := payload.countIn
      countOut := payload.countOut, capturedAt := payload.capturedAt, synced := false }] }

/-- `add_people_count`. -/
def addPeopleCount (now : Timestamp) (itemId countId : Uuid) (payload : PeopleCountCreate)
    (maxAttempts : Attempts) (db : Db) : Except OpError Db :=
  add now itemId payload.cameraId (insertPeopleCount countId payload) .syncPeopleCount
    (.snapshots
      { id := countId, cameraId := payload.cameraId, countIn := payload.countIn
        countOut := payload.countOut, timestamp := payload.capturedAt })
    (.count countId) maxAttempts db

end AnalyticsRepository

end Rsap.Desktop
