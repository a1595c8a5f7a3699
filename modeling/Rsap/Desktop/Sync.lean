import Rsap.Desktop.Clients
import Rsap.Desktop.Store

/-!
# `Rsap.Desktop.Sync`: `SyncService.flush_once`

A pass reads the session record, claims a batch, handles its items one after another, and
purges what is past its retention (`app/services.py`).

The handling of an item is a small automaton (`Stage`): it calls the central service, one HTTP
attempt after another, and then settles the item with one write. `startItem` and
`Stage.receive` follow the control flow of the loop's body. An exception that no handler
catches ends in `raised`, and then it leaves `flush_once`.

`flushOnce` runs a whole pass on a database. The ends of the HTTP attempts and the clock
readings are arguments.
-/

set_option autoImplicit false

namespace Rsap.Desktop

/-- The settings that the queue uses, with the lower bounds that `Settings` checks and the upper
bound on a lease. -/
structure Settings where
  leaseSeconds : { n : Nat // 5 ≤ n ∧ n ≤ 600 }
  maxAttempts : Attempts
  succeededRetentionDays : Attempts
  deadLetterRetentionDays : Attempts
  retryAttempts : Attempts

/-- The default settings of the queue. -/
def defaultSettings : Settings where
  leaseSeconds := ⟨60, by decide⟩
  maxAttempts := defaultMaxAttempts
  succeededRetentionDays := ⟨7, by decide⟩
  deadLetterRetentionDays := ⟨30, by decide⟩
  retryAttempts := ⟨3, by decide⟩

/-- An item as `claim` returns it. `claim` selects by token and owner, so the item's are the
claim's. -/
structure Item where
  id : Uuid
  endpoint : Endpoint
  payload : Payload
  attemptCount : Nat
  claimToken : Uuid
  leaseOwner : String
  deriving DecidableEq

/-- The item of a leased row. -/
def Item.ofRow (token : Uuid) (owner : String) (r : Row) : Item where
  id := r.id
  endpoint := r.endpoint
  payload := r.payload
  attemptCount := r.attemptCount
  claimToken := token
  leaseOwner := owner

/-! ### Requests -/

inductive Method where
  | post
  | patch
  | delete
  deriving DecidableEq, Repr

/-- The body of a request. -/
inductive Body where
  | none
  | empty
  | create (body : CentralCameraCreate)
  | update (body : CentralCameraUpdate)
  | analytics (body : CentralAnalyticsConfig)
  | event (body : CentralAnalyticsEvent)
  | alert (body : CentralAlert)
  | count (body : CentralPeopleCount)
  deriving DecidableEq

/-- A request to the central service. -/
structure Request where
  method : Method
  endpoint : Endpoint
  body : Body
  deriving DecidableEq

/-- `payload.get("_method", "POST")`. -/
def Payload.method : Payload → Method
  | .cameraPatch .. => .patch
  | .cameraDelete .. => .delete
  | _ => .post

/-- `payload.get("body", payload)`. A revocation sends no body. -/
def Payload.body : Payload → Body
  | .cameraPost _ body => .create body
  | .cameraPatch _ body _ => .update body
  | .cameraDelete _ => .empty
  | .events event => .event event
  | .alerts alert => .alert alert
  | .snapshots count => .count count
  | .sessionRevoke _ => .none

/-- `payload.get("analytics")`. -/
def Payload.analytics : Payload → Option CentralAnalyticsConfig
  | .cameraPatch _ _ analytics => analytics
  | _ => none

/-- `method != "PATCH" or body`: the main request is made. -/
def Payload.hasMain : Payload → Bool
  | .cameraPatch _ body _ => !body.isEmpty
  | _ => true

/-- The three calls that the handling of an item makes. `analytics` comes after the main
request, whose data the code still holds. -/
inductive Call where
  | main
  | analytics (data : Json)
  | logout
  deriving DecidableEq

/-- The request of a call. -/
def Item.request (item : Item) : Call → Request
  | .main => ⟨item.payload.method, item.endpoint, item.payload.body⟩
  | .analytics _ =>
    ⟨.patch, .analyticsConfig item.endpoint,
      match item.payload.analytics with
      | some config => .analytics config
      | none => .none⟩
  | .logout => ⟨.post, .logout, .none⟩

/-- `path.startswith("/api/v1/sync/")`. -/
def Endpoint.isSync : Endpoint → Bool
  | .syncEvents | .syncAlerts | .syncPeopleCount => true
  | _ => false

/-- The attempts that `_request` may make for a call. `logout` does not ask for a retry. -/
def attempts (settings : Settings) (item : Item) (call : Call) : Nat :=
  match call with
  | .logout => 1
  | _ =>
    let request := item.request call
    if request.method ≠ .post || request.endpoint.isSync then settings.retryAttempts.val else 1

/-! ### The handling of an item -/

/-- The write that settles an item. -/
inductive Settlement where
  | complete
  | completeCamera (localId serverId : Uuid)
  | completeRevocation (generation : Nat)
  | fail (code message : String) (permanent : Bool)
  deriving DecidableEq

/-- The operation of a settlement. -/
def Settlement.op (item : Item) (now : Timestamp) : Settlement → Op
  | .complete => .complete now item.id item.claimToken item.leaseOwner
  | .completeCamera localId serverId =>
    .completeCamera now item.id item.claimToken item.leaseOwner localId serverId
  | .completeRevocation generation =>
    .completeRevocation now item.id item.claimToken item.leaseOwner generation
  | .fail code message permanent =>
    .fail now item.id item.claimToken item.leaseOwner code message permanent

/-- Where the handling of an item stands. -/
inductive Stage where
  | calling (call : Call) (attempt : Nat)
  | settling (settlement : Settlement)
  | raised
  deriving DecidableEq

/-- `str(data.get("id", local_id)) == local_id`. Only a string renders as a UUID's text. -/
def identifies (data : Json) (localId : Uuid) : Bool :=
  match data with
  | .obj fields =>
    match Dict.get fields "id" with
    | none => true
    | some (.str s) => decide (s = Uuid.text localId)
    | some _ => false
  | _ => true

/-- The settlement of a camera that the central side holds. -/
def settleCamera (data : Json) (localId : Uuid) : Settlement :=
  if identifies data localId then .completeCamera localId localId
  else .fail "contract_error" "central camera identity differs from canonical UUID" true

/-- After the requests of an item. -/
def afterRequests (item : Item) (data : Json) : Stage :=
  match item.payload with
  | .cameraPost localId _ => .settling (settleCamera data localId)
  | .cameraPatch localId _ _ => .settling (settleCamera data localId)
  | _ => .settling .complete

/-- After the main request: the analytics request, when the payload has one. -/
def afterMain (item : Item) (data : Json) : Stage :=
  match item.payload.analytics with
  | some _ => .calling (.analytics data) 0
  | none => afterRequests item data

/-- `not exc.retryable and 400 <= exc.status_code < 500`. -/
def ExternalServiceError.isPermanent (e : ExternalServiceError) : Bool :=
  !e.retryable && decide (400 ≤ e.statusCode ∧ e.statusCode < 500)

/-- `except ExternalServiceError` of the loop. -/
def failed (e : ExternalServiceError) : Stage :=
  .settling (.fail e.code "Central request failed" e.isPermanent)

/-- The generation of a revocation. -/
def Payload.generation : Payload → Nat
  | .sessionRevoke generation => generation
  | _ => 0

/-- `payload.get("_kind") == "camera"` and `method == "DELETE"`. -/
def Payload.isCameraDelete : Payload → Bool
  | .cameraDelete _ => true
  | _ => false

/-- The start of the loop's body. -/
def startItem (record : SessionRecord) (item : Item) : Stage :=
  match item.payload with
  | .sessionRevoke generation =>
    if record.status ≠ .revocationPending ∨ generation ≠ record.generation then
      .settling .complete
    else .calling .logout 0
  | payload => if payload.hasMain then .calling .main 0 else afterMain item (.obj [])

/-- The loop's body after a call. -/
def afterCall (item : Item) (call : Call) (result : CallResult) : Stage :=
  match result, call with
  | .raised, _ => .raised
  | .data data, .main => afterMain item data
  | .data _, .analytics data => afterRequests item data
  | .data _, .logout => .settling (.completeRevocation item.payload.generation)
  | .error e, .main =>
    -- a camera that is gone already is deleted
    if item.payload.isCameraDelete && e.statusCode == 404 then afterMain item (.obj [])
    else failed e
  | .error e, .analytics _ => failed e
  | .error e, .logout =>
    if e.statusCode = 401 ∨ e.statusCode = 403 then
      .settling (.completeRevocation item.payload.generation)
    else failed e

/-- One HTTP attempt of the handling. -/
def Stage.receive (settings : Settings) (item : Item) (stage : Stage)
    (outcome : AttemptOutcome) : Stage :=
  match stage with
  | .calling call attempt =>
    match CentralApiClient.settleAttempt
        (decide (attempts settings item call ≤ attempt + 1)) outcome with
    | some result => afterCall item call result
    | none => .calling call (attempt + 1)
  | stage => stage

/-! ### A pass -/

/-- The filter of a pass: while a revocation is pending, only revocations are sent. -/
def keyFilter (record : SessionRecord) : Option LogicalKey :=
  match record.status with
  | .revocationPending => some .sessionRevoke
  | .active => none

/-- What `flush_once` returns. -/
structure FlushCounts where
  claimed : Nat
  synced : Nat
  failed : Nat
  deadLettered : Nat
  deriving DecidableEq

/-- The counters after a settlement that the repository accepted. -/
def FlushCounts.count (settings : Settings) (item : Item) (settlement : Settlement)
    (counts : FlushCounts) : FlushCounts :=
  match settlement with
  | .fail code _ permanent =>
    if code = "contract_error" then { counts with deadLettered := counts.deadLettered + 1 }
    else
      { counts with
          failed := counts.failed + 1
          deadLettered := counts.deadLettered +
            if permanent || decide (settings.maxAttempts.val ≤ item.attemptCount) then 1 else 0 }
  | _ => { counts with synced := counts.synced + 1 }

/-- How `flush_once` ends. -/
inductive FlushEnd where
  | returned (counts : FlushCounts)
  | raised
  deriving DecidableEq

/-- The HTTP attempts that the handling may still make. -/
def Stage.remaining (settings : Settings) (item : Item) : Stage → Nat
  | .calling (.analytics data) attempt => attempts settings item (.analytics data) - attempt
  | .calling call attempt =>
    attempts settings item call - attempt + attempts settings item (.analytics .null)
  | _ => 0

/-- The handling of an item, for at most `n` attempts that end in `outcomes`. -/
def Stage.drive (settings : Settings) (item : Item) :
    Nat → Stage → (Nat → AttemptOutcome) → Stage
  | 0, stage, _ => stage
  | n + 1, stage, outcomes =>
    Stage.drive settings item n (stage.receive settings item (outcomes 0)) fun i =>
      outcomes (i + 1)

/-- The whole handling of an item. -/
def handleItem (settings : Settings) (record : SessionRecord) (item : Item)
    (outcomes : Nat → AttemptOutcome) : Stage :=
  (startItem record item).drive settings item
    ((startItem record item).remaining settings item) outcomes

/-- What happens to a pass from outside: the clock readings and the ends of the attempts, for
each item in turn, and the clock reading of the purge. -/
structure PassInput where
  settledAt : Nat → Timestamp
  outcomes : Nat → Nat → AttemptOutcome
  purgedAt : Timestamp

/-- The loop over the items, from the `i`-th on. -/
def flushItems (settings : Settings) (record : SessionRecord) (input : PassInput) :
    Nat → List Item → FlushCounts → Db → Db × FlushEnd
  | _, [], counts, db => (db, .returned counts)
  | i, item :: rest, counts, db =>
    match handleItem settings record item (input.outcomes i) with
    | .settling settlement =>
      let (db', reply) := (settlement.op item (input.settledAt i)).run db
      flushItems settings record input (i + 1) rest
        (if reply = .flag true then counts.count settings item settlement else counts) db'
    | _ => (db, .raised)

/-- `flush_once`. -/
def flushOnce (settings : Settings) (claimedAt : Timestamp) (token : Uuid) (owner : String)
    (limit : Nat) (input : PassInput) (db : Db) : Db × FlushEnd :=
  match SessionRepository.getRecord db with
  | none => (db, .returned ⟨0, 0, 0, 0⟩)
  | some record =>
    match (Op.claim claimedAt token owner limit (keyFilter record)
        settings.leaseSeconds.val).run db with
    | (db', .rows rows) =>
      let items := rows.map (Item.ofRow token owner)
      match flushItems settings record input 0 items ⟨items.length, 0, 0, 0⟩ db' with
      | (db'', .returned counts) =>
        ((SyncQueueRepository.purgeRetained input.purgedAt settings.succeededRetentionDays.val
          settings.deadLetterRetentionDays.val db'').1, .returned counts)
      | (db'', .raised) => (db'', .raised)
    | (db', _) => (db', .raised)

end Rsap.Desktop
