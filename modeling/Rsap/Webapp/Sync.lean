import Rsap.Webapp.Rbac
import Mathlib.Logic.Function.Basic

/-!
# `Rsap.Webapp.Sync`: the central side of the analytics synchronization

The upserts of `app/services/sync_service.py`, the HTTP routes `sync_events`, `sync_alerts` and
`sync_people_count` (`app/routers/sync.py`), the websocket's `store_message`
(`app/routers/websockets.py`), and `resolve_alert` (`app/routers/analytics.py`).

A table is the map from its primary key to its row, so two tables with the same rows are equal.
A route runs in one transaction: when it raises, the tables stay as they were. A request may
also be cut off before its commit, by a lost connection or by a value that the database
refuses. `SyncCall.interrupted` says so. A response that is lost after the commit is a call
that commits.

The upserts share one shape (`upsertAt`): insert under a new id, update under the id of the same
camera, and raise under the id of another camera.
-/

set_option autoImplicit false

namespace Rsap.Webapp

open Rsap.Desktop (Uuid Timestamp)

/-! ### Tables and items -/

/-- A row of `va.analytics_events`. The id is its key in the table. -/
structure AnalyticsEvent where
  cameraId : Option Uuid
  eventType : String
  payload : Dict
  capturedImageId : Option Uuid
  syncedAt : Option Timestamp
  createdAt : Timestamp
  deriving DecidableEq

/-- A row of `va.intrusion_alerts`. The id is its key in the table. -/
structure IntrusionAlert where
  cameraId : Option Uuid
  zoneId : Option String
  capturedImageId : Option Uuid
  confidence : Option Rat
  resolved : Bool
  createdAt : Timestamp
  deriving DecidableEq

/-- The tables that the synchronization reads and writes. `cameras` gives the owner of a
camera. -/
structure SyncTables where
  cameras : Uuid → Option Uuid
  events : Uuid → Option AnalyticsEvent
  alerts : Uuid → Option IntrusionAlert

/-- `AnalyticsEventIn`. -/
structure AnalyticsEventIn where
  id : Uuid
  cameraId : Uuid
  eventType : String
  payload : Dict
  capturedImageId : Option Uuid
  createdAt : Timestamp
  named : 1 ≤ eventType.length ∧ eventType.length ≤ 50

/-- `AlertIn`. -/
structure AlertIn where
  id : Uuid
  cameraId : Uuid
  zoneId : Option String
  capturedImageId : Option Uuid
  confidence : Option Rat
  resolved : Bool
  createdAt : Timestamp
  unit : ∀ c ∈ confidence, 0 ≤ c ∧ c ≤ 1

/-- `PeopleCountIn`. -/
structure PeopleCountIn where
  id : Uuid
  cameraId : Uuid
  countIn : Nat
  countOut : Nat
  timestamp : Timestamp

/-- A request body: between 1 and 500 items of one kind. -/
structure Batch (α : Type) where
  items : List α
  nonempty : items ≠ []
  bounded : items.length ≤ 500

/-! ### The upserts -/

section Upsert
variable {ρ : Type}

/-- `INSERT … ON CONFLICT(id) DO UPDATE … WHERE camera_id=EXCLUDED.camera_id RETURNING id`. -/
def upsertAt (table : Uuid → Option ρ) (camera : ρ → Option Uuid) (id cameraId : Uuid)
    (insert : ρ) (update : ρ → ρ) (conflict : String) : Except Failure (Uuid → Option ρ) :=
  match table id with
  | none => .ok (Function.update table id (some insert))
  | some row =>
    if camera row = some cameraId then .ok (Function.update table id (some (update row)))
    else .error (.http 409 conflict)

end Upsert

/-- `upsert_event`. -/
def upsertEvent (now : Timestamp) (db : SyncTables) (item : AnalyticsEventIn) :
    Except Failure SyncTables :=
  (upsertAt db.events AnalyticsEvent.cameraId item.id item.cameraId
    { cameraId := some item.cameraId, eventType := item.eventType, payload := item.payload,
      capturedImageId := item.capturedImageId, syncedAt := some now, createdAt := item.createdAt }
    (fun row => { row with
      payload := item.payload, capturedImageId := item.capturedImageId, syncedAt := some now })
    "Event ID belongs to another camera").map fun events => { db with events }

/-- `upsert_alert`. A resolved alert stays resolved. -/
def upsertAlert (db : SyncTables) (item : AlertIn) : Except Failure SyncTables :=
  (upsertAt db.alerts IntrusionAlert.cameraId item.id item.cameraId
    { cameraId := some item.cameraId, zoneId := item.zoneId,
      capturedImageId := item.capturedImageId, confidence := item.confidence,
      resolved := item.resolved, createdAt := item.createdAt }
    (fun row => { row with
      capturedImageId := item.capturedImageId, confidence := item.confidence,
      resolved := row.resolved || item.resolved })
    "Alert ID belongs to another camera").map fun alerts => { db with alerts }

/-- The largest value of the SQL type `int`. -/
def maxInt4 : Nat := 2147483647

/-- `jsonb_build_object('count_in', …, 'count_out', …)`. -/
def countPayload (item : PeopleCountIn) : Dict :=
  [("count_in", .int item.countIn), ("count_out", .int item.countOut)]

/-- `upsert_people_count`. A count outside the SQL type `int` raises. -/
def upsertPeopleCount (now : Timestamp) (db : SyncTables) (item : PeopleCountIn) :
    Except Failure SyncTables :=
  if maxInt4 < item.countIn ∨ maxInt4 < item.countOut then .error .raised
  else
    (upsertAt db.events AnalyticsEvent.cameraId item.id item.cameraId
      { cameraId := some item.cameraId, eventType := "people_count", payload := countPayload item,
        capturedImageId := none, syncedAt := some now, createdAt := item.timestamp }
      (fun row => { row with payload := countPayload item, syncedAt := some now })
      "Count ID belongs to another camera").map fun events => { db with events }

/-- An item of one of the three kinds. -/
inductive SyncItem where
  | event (item : AnalyticsEventIn)
  | alert (item : AlertIn)
  | peopleCount (item : PeopleCountIn)

namespace SyncItem

/-- The id of the item. -/
def id : SyncItem → Uuid
  | .event item => item.id
  | .alert item => item.id
  | .peopleCount item => item.id

/-- The camera of the item. -/
def cameraId : SyncItem → Uuid
  | .event item => item.cameraId
  | .alert item => item.cameraId
  | .peopleCount item => item.cameraId

/-- The upsert of the item's kind. -/
def upsert (now : Timestamp) (db : SyncTables) : SyncItem → Except Failure SyncTables
  | .event item => upsertEvent now db item
  | .alert item => upsertAlert db item
  | .peopleCount item => upsertPeopleCount now db item

end SyncItem

/-! ### The requests -/

/-- `ensure_owned_cameras`, for a set that is not empty. -/
def ensureOwnedCameras (db : SyncTables) (user : CurrentUser) (cameraIds : List Uuid) :
    Except Failure Unit :=
  if ∀ cameraId ∈ cameraIds, db.cameras cameraId = some user.id then .ok ()
  else .error (.http 403 "One or more cameras are not assigned to this user")

/-- The body that the three HTTP routes share: check, then upsert item by item. -/
def syncBatch (now : Timestamp) (user : CurrentUser) (db : SyncTables) (items : List SyncItem) :
    Except Failure SyncTables :=
  match authorize user "sync" "write" (some user.id) none with
  | .error failure => .error failure
  | .ok _ =>
    match ensureOwnedCameras db user (items.map SyncItem.cameraId) with
    | .error failure => .error failure
    | .ok _ => items.foldlM (SyncItem.upsert now) db

/-- `POST /sync/events`. -/
def syncEvents (now : Timestamp) (user : CurrentUser) (db : SyncTables)
    (payload : Batch AnalyticsEventIn) : Except Failure SyncTables :=
  syncBatch now user db (payload.items.map .event)

/-- `POST /sync/alerts`. -/
def syncAlerts (now : Timestamp) (user : CurrentUser) (db : SyncTables)
    (payload : Batch AlertIn) : Except Failure SyncTables :=
  syncBatch now user db (payload.items.map .alert)

/-- `POST /sync/people-count`. -/
def syncPeopleCount (now : Timestamp) (user : CurrentUser) (db : SyncTables)
    (payload : Batch PeopleCountIn) : Except Failure SyncTables :=
  syncBatch now user db (payload.items.map .peopleCount)

/-- A websocket message with one item: `validate_session` checks the permission, and
`store_message` checks the camera with `camera_owned` and raises a `PermissionError`. -/
def storeMessage (now : Timestamp) (user : CurrentUser) (db : SyncTables) (item : SyncItem) :
    Except Failure SyncTables :=
  match authorize user "sync" "write" (some user.id) none with
  | .error failure => .error failure
  | .ok _ =>
    if db.cameras item.cameraId = some user.id then item.upsert now db else .error .raised

/-- `camera_scope`, joined with the cameras: the camera exists, and the user sees it. -/
def inScope (db : SyncTables) (user : CurrentUser) (cameraId : Uuid) : Bool :=
  (db.cameras cameraId).any fun owner =>
    user.role == .admin || user.role == .superAdmin || owner == user.id

/-- `PATCH /analytics/alerts/{alert_id}/resolve`. -/
def resolveAlert (user : CurrentUser) (db : SyncTables) (alertId : Uuid) :
    Except Failure SyncTables :=
  match db.alerts alertId with
  | none => .error (.http 404 "Alert not found")
  | some row =>
    match row.cameraId with
    | none => .error (.http 404 "Alert not found")
    | some cameraId =>
      if inScope db user cameraId then
        (authorize user "analytics" "resolve" (some user.id) (some cameraId)).map fun _ =>
          { db with
            alerts := Function.update db.alerts alertId (some { row with resolved := true }) }
      else .error (.http 404 "Alert not found")

/-- A request that reaches the service. -/
inductive SyncRequest where
  | events (payload : Batch AnalyticsEventIn)
  | alerts (payload : Batch AlertIn)
  | peopleCount (payload : Batch PeopleCountIn)
  | message (item : SyncItem)
  | resolve (alertId : Uuid)

namespace SyncRequest

/-- The items that the request carries. -/
def items : SyncRequest → List SyncItem
  | .events payload => payload.items.map .event
  | .alerts payload => payload.items.map .alert
  | .peopleCount payload => payload.items.map .peopleCount
  | .message item => [item]
  | .resolve _ => []

/-- The request is a resolution. -/
def isResolve : SyncRequest → Bool
  | .resolve _ => true
  | _ => false

end SyncRequest

/-- A request with its actor, its time, and whether it is cut off before its commit. -/
structure SyncCall where
  user : CurrentUser
  now : Timestamp
  interrupted : Bool
  request : SyncRequest

namespace SyncCall

/-- The transaction of the call. -/
def serve (db : SyncTables) (call : SyncCall) : Except Failure SyncTables :=
  if call.interrupted then .error .raised
  else
    match call.request with
    | .events payload => syncEvents call.now call.user db payload
    | .alerts payload => syncAlerts call.now call.user db payload
    | .peopleCount payload => syncPeopleCount call.now call.user db payload
    | .message item => storeMessage call.now call.user db item
    | .resolve alertId => resolveAlert call.user db alertId

/-- The call commits. -/
def Commits (db : SyncTables) (call : SyncCall) : Prop := (call.serve db).isOk = true

instance (db : SyncTables) (call : SyncCall) : Decidable (call.Commits db) :=
  inferInstanceAs (Decidable (_ = _))

end SyncCall

/-- The tables after a transaction: a transaction that raises is rolled back. -/
def SyncTables.commit (db : SyncTables) : Except Failure SyncTables → SyncTables
  | .ok db' => db'
  | .error _ => db

/-- The tables after a list of calls. -/
def SyncTables.run (db : SyncTables) (calls : List SyncCall) : SyncTables :=
  calls.foldl (fun db call => db.commit (call.serve db)) db

end Rsap.Webapp
