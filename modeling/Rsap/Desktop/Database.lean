import Rsap.Desktop.Schemas
import Rsap.Library.Table
import Rsap.Library.Closure

/-!
# `Rsap.Desktop.Database`: the local tables and `_enqueue`

The tables follow the migrations. Each table is the list of its rows in insertion order
(`Rsap.Library.Table`). The single row of `local_sessions` is an `Option`.

`logical_key` is `camera:<id>`, `event:<id>`, `alert:<id>`, `count:<id>` or `session:revoke`,
so it is an inductive type. `payload_json` holds one of seven payloads. The schema's
`CHECK (max_attempts >= 1)` is the subtype `Attempts`.

`enqueue` is `_enqueue`. When the latest row of the key is pending and was never leased, it
rewrites that row in place (`Row.coalesce`). Otherwise it inserts a row one version up whose
predecessor is the latest row.
-/

set_option autoImplicit false

namespace Rsap.Desktop

open Rsap.Library

/-- `sync_queue.logical_key`. -/
inductive LogicalKey where
  | camera (id : Uuid)
  | event (id : Uuid)
  | alert (id : Uuid)
  | count (id : Uuid)
  | sessionRevoke
  deriving DecidableEq, Repr

/-- The paths of the central service that the desktop calls. -/
inductive Endpoint where
  | cameras
  | camera (id : Uuid)
  | analyticsConfig (endpoint : Endpoint)
  | syncEvents
  | syncAlerts
  | syncPeopleCount
  | logout
  deriving DecidableEq, Repr

/-- `sync_queue.payload_json`. -/
inductive Payload where
  | cameraPost (localId : Uuid) (body : CentralCameraCreate)
  | cameraPatch (localId : Uuid) (body : CentralCameraUpdate)
      (analytics : Option CentralAnalyticsConfig)
  | cameraDelete (localId : Uuid)
  | events (event : CentralAnalyticsEvent)
  | alerts (alert : CentralAlert)
  | snapshots (count : CentralPeopleCount)
  | sessionRevoke (generation : Nat)
  deriving DecidableEq

/-- `payload.get("_method") == "POST"`. -/
def Payload.isCameraPost : Payload → Bool
  | .cameraPost _ _ => true
  | _ => false

/-- `sync_queue.state`. -/
inductive QueueState where
  | pending
  | inflight
  | retryWait
  | succeeded
  | deadLetter
  | cancelled
  deriving DecidableEq, Repr

/-- `sync_queue.failure_class`. -/
inductive FailureClass where
  | transient
  | permanent
  deriving DecidableEq, Repr

/-- `CHECK (max_attempts >= 1)`. -/
abbrev Attempts := { n : Nat // 1 ≤ n }

/-- The default of `queue_max_attempts`. -/
def defaultMaxAttempts : Attempts := ⟨8, by decide⟩

/-- A row of `sync_queue`. -/
structure Row where
  id : Uuid
  endpoint : Endpoint
  payload : Payload
  logicalKey : LogicalKey
  version : Nat
  predecessorId : Option Uuid
  dependsOnId : Option Uuid
  state : QueueState
  attemptCount : Nat
  maxAttempts : Attempts
  nextAttemptAt : Timestamp
  lastAttemptAt : Option Timestamp
  leaseExpiresAt : Option Timestamp
  claimToken : Option Uuid
  leaseOwner : Option String
  lastErrorCode : Option String
  lastErrorMessage : Option String
  failureClass : Option FailureClass
  failedAt : Option Timestamp
  completedAt : Option Timestamp
  createdAt : Timestamp
  deriving DecidableEq

/-- `state IN ('pending','retry_wait')`: the row can be leased. -/
abbrev Row.Waiting (r : Row) : Prop := r.state = .pending ∨ r.state = .retryWait

/-- `state IN ('succeeded','cancelled')`: the row no longer blocks its successors. -/
abbrev Row.Done (r : Row) : Prop := r.state = .succeeded ∨ r.state = .cancelled

/-- `local_cameras.sync_state`. -/
inductive SyncState where
  | pending
  | synced
  | conflict
  deriving DecidableEq, Repr

/-- A row of `local_cameras`. -/
structure LocalCamera extends CameraFields where
  id : Uuid
  serverId : Option Uuid
  syncState : SyncState
  createdAt : Timestamp
  updatedAt : Timestamp
  deriving DecidableEq

/-- A row of `local_analytics_events`. -/
structure LocalAnalyticsEvent where
  id : Uuid
  cameraId : Uuid
  eventType : String
  payload : Dict
  capturedImagePath : Option String
  synced : Bool
  createdAt : Timestamp
  capturedImageId : Option Uuid
  deriving DecidableEq

/-- A row of `local_alerts`. -/
structure LocalAlert where
  id : Uuid
  cameraId : Uuid
  zoneId : Option String
  imagePath : Option String
  confidence : Rat
  resolved : Bool
  synced : Bool
  createdAt : Timestamp
  capturedImageId : Option Uuid
  deriving DecidableEq

/-- A row of `local_people_counts`. -/
structure LocalPeopleCount where
  id : Uuid
  cameraId : Uuid
  countIn : Nat
  countOut : Nat
  capturedAt : Timestamp
  synced : Bool
  deriving DecidableEq

/-- The row of `local_sessions`. -/
structure SessionRow where
  session : LocalSession
  userId : Uuid
  licenseValidUntil : Option Timestamp
  updatedAt : Timestamp
  generation : Nat
  status : SessionStatus
  lastError : Option String
  deriving DecidableEq

/-- The local database. -/
structure Db where
  syncQueue : List Row
  localCameras : List LocalCamera
  localAnalyticsEvents : List LocalAnalyticsEvent
  localAlerts : List LocalAlert
  localPeopleCounts : List LocalPeopleCount
  localSession : Option SessionRow
  deriving DecidableEq

/-- The database after the migrations. -/
def Db.empty : Db := ⟨[], [], [], [], [], none⟩

/-- Why a write raised. The transaction is then rolled back. -/
inductive OpError where
  | valueError (message : String)
  | contract (message : String)
  | integrity
  deriving DecidableEq, Repr

/-! ### `_enqueue` -/

/-- `SELECT * FROM sync_queue WHERE logical_key=? ORDER BY version DESC LIMIT 1`. -/
def latestRow (key : LogicalKey) (queue : List Row) : Option Row :=
  latestBy (fun r => r.logicalKey = key) Row.version queue

/-- `SELECT id FROM sync_queue WHERE logical_key=? ORDER BY version ASC LIMIT 1`. -/
def earliestRow (key : LogicalKey) (queue : List Row) : Option Row :=
  firstBy (fun r => r.logicalKey = key) Row.version queue

/-- The row waits and no lease ever took it. Only such a row may be rewritten. -/
abbrev Row.Fresh (r : Row) : Prop := r.state = .pending ∧ r.lastAttemptAt = none

/-- The assignments of the coalescing update. -/
def Row.coalesce (endpoint : Endpoint) (payload : Payload) (now : Timestamp)
    (dependsOnId : Option Uuid) (r : Row) : Row :=
  { r with
      endpoint, payload, dependsOnId
      state := .pending
      attemptCount := 0
      nextAttemptAt := now
      lastErrorCode := none
      lastErrorMessage := none
      failureClass := none
      failedAt := none }

/-- The inserted row, with the schema's defaults. -/
def Row.new (id : Uuid) (endpoint : Endpoint) (payload : Payload) (logicalKey : LogicalKey)
    (version : Nat) (predecessorId dependsOnId : Option Uuid) (maxAttempts : Attempts)
    (now : Timestamp) : Row where
  id := id
  endpoint := endpoint
  payload := payload
  logicalKey := logicalKey
  version := version
  predecessorId := predecessorId
  dependsOnId := dependsOnId
  state := .pending
  attemptCount := 0
  maxAttempts := maxAttempts
  nextAttemptAt := now
  lastAttemptAt := none
  leaseExpiresAt := none
  claimToken := none
  leaseOwner := none
  lastErrorCode := none
  lastErrorMessage := none
  failureClass := none
  failedAt := none
  completedAt := none
  createdAt := now

/-- The arguments of one `_enqueue` call, with the value that its `uuid4` would return. -/
structure Enqueue where
  now : Timestamp
  itemId : Uuid
  endpoint : Endpoint
  payload : Payload
  logicalKey : LogicalKey
  maxAttempts : Attempts
  dependsOnId : Option Uuid

/-- `_enqueue`: the queue after the call, and the id it returns. -/
def enqueue (e : Enqueue) (queue : List Row) : List Row × Uuid :=
  match latestRow e.logicalKey queue with
  | some latest =>
    if latest.Fresh then
      (updateWhere (fun r => r.id = latest.id ∧ r.Waiting)
        (Row.coalesce e.endpoint e.payload e.now (e.dependsOnId <|> latest.dependsOnId)) queue,
        latest.id)
    else
      (queue ++ [.new e.itemId e.endpoint e.payload e.logicalKey (latest.version + 1)
        (some latest.id) e.dependsOnId e.maxAttempts e.now], e.itemId)
  | none =>
    (queue ++ [.new e.itemId e.endpoint e.payload e.logicalKey 1 none e.dependsOnId
      e.maxAttempts e.now], e.itemId)

end Rsap.Desktop
