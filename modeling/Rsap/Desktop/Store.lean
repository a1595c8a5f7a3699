import Rsap.Desktop.SyncQueue
import Rsap.Library.Machine

/-!
# `Rsap.Desktop.Store`: the database under any sequence of writes

`Op` is one `database.write` transaction with its arguments, and `Op.run` its effect and its
reply. `BEGIN IMMEDIATE` serializes the writes, so a run of the local database is a sequence
of them. `storeMachine` lets any operation come next with any arguments: any caller, any
owner, any token, any clock reading.

Two parts of a `Store` are not columns. `issued` holds every value that `uuid4` returned. An
operation is only possible with values that are new, since `uuid4` does not repeat. `log`
records, newest first, the leases, settlements and dead-letter retries that the operations
report.
-/

set_option autoImplicit false

namespace Rsap.Desktop

open Rsap.Library

/-- One write transaction. -/
inductive Op where
  | save (now : Timestamp) (session : LocalSession) (licenseValidUntil : Option Timestamp)
  | replaceActive (now : Timestamp) (session : LocalSession) (licenseValidUntil : Timestamp)
      (expectedGeneration : Nat)
  | markRevocationPending (now : Timestamp) (expectedGeneration : Nat)
  | beginRevocation (now : Timestamp) (itemId claimToken : Uuid) (expectedGeneration : Nat)
      (maxAttempts : Attempts) (leaseSeconds : Nat)
  | setError (now : Timestamp) (generation : Nat) (code : String)
  | clear (expectedGeneration : Option Nat)
  | createCamera (now : Timestamp) (cameraId itemId : Uuid) (payload : CameraCreate)
      (maxCameras : Int) (maxAttempts : Attempts)
  | updateCamera (now : Timestamp) (itemId cameraId : Uuid) (changes : CameraUpdate)
      (maxAttempts : Attempts)
  | deleteCamera (now : Timestamp) (itemId cameraId : Uuid) (maxAttempts : Attempts)
  | addEvent (now : Timestamp) (itemId eventId : Uuid) (payload : AnalyticsEventCreate)
      (maxAttempts : Attempts)
  | addAlert (now : Timestamp) (itemId alertId : Uuid) (payload : AlertCreate)
      (maxAttempts : Attempts)
  | addPeopleCount (now : Timestamp) (itemId countId : Uuid) (payload : PeopleCountCreate)
      (maxAttempts : Attempts)
  | enqueueRevocation (now : Timestamp) (itemId : Uuid) (generation : Nat)
      (maxAttempts : Attempts)
  | claim (now : Timestamp) (token : Uuid) (owner : String) (limit : Nat)
      (logicalKey : Option LogicalKey) (leaseSeconds : Nat)
  | complete (now : Timestamp) (itemId token : Uuid) (owner : String)
  | completeCamera (now : Timestamp) (itemId token : Uuid) (owner : String)
      (localId serverId : Uuid)
  | completeRevocation (now : Timestamp) (itemId token : Uuid) (owner : String)
      (generation : Nat)
  | fail (now : Timestamp) (itemId token : Uuid) (owner code message : String)
      (permanent : Bool)
  | retryDeadLetter (now : Timestamp) (itemId : Uuid)
  | discardDeadLetter (now : Timestamp) (itemId : Uuid)
  | purgeRetained (now : Timestamp) (succeededDays deadLetterDays : Nat)

/-- What an operation returns to its caller. -/
inductive Reply where
  | raised (error : OpError)
  | done
  | flag (value : Bool)
  | record (record : SessionRecord)
  | generation (value : Option Nat)
  | revocation (started : Option (Nat × Uuid × Uuid))
  | camera (camera : Option LocalCamera)
  | rows (rows : List Row)
  | item (id : Uuid)
  | removed (count : Nat)
  deriving DecidableEq

/-- The reply of an operation that may raise. A raise rolls the transaction back. -/
def committed {α : Type} (db : Db) (result : Except OpError (Db × α)) (reply : α → Reply) :
    Db × Reply :=
  match result with
  | .error e => (db, .raised e)
  | .ok (db', a) => (db', reply a)

/-- The effect and the reply of an operation. -/
def Op.run (db : Db) : Op → Db × Reply
  | .save now session validUntil =>
    committed db (SessionRepository.save now session validUntil db) .record
  | .replaceActive now session validUntil generation =>
    (SessionRepository.replaceActive now session validUntil generation db).map id .flag
  | .markRevocationPending now generation =>
    (SessionRepository.markRevocationPending now generation db).map id .generation
  | .beginRevocation now itemId token generation maxAttempts leaseSeconds =>
    (SessionRepository.beginRevocation now itemId token generation maxAttempts leaseSeconds
      db).map id .revocation
  | .setError now generation code =>
    (SessionRepository.setError now generation code db, .done)
  | .clear generation => (SessionRepository.clear generation db).map id .flag
  | .createCamera now cameraId itemId payload maxCameras maxAttempts =>
    committed db (CameraRepository.create now cameraId itemId payload maxCameras maxAttempts db)
      fun camera => .camera (some camera)
  | .updateCamera now itemId cameraId changes maxAttempts =>
    (CameraRepository.update now itemId cameraId changes maxAttempts db).map id .camera
  | .deleteCamera now itemId cameraId maxAttempts =>
    (CameraRepository.delete now itemId cameraId maxAttempts db).map id .flag
  | .addEvent now itemId eventId payload maxAttempts =>
    committed db ((AnalyticsRepository.addEvent now itemId eventId payload maxAttempts db).map
      (·, ())) fun _ => .done
  | .addAlert now itemId alertId payload maxAttempts =>
    committed db ((AnalyticsRepository.addAlert now itemId alertId payload maxAttempts db).map
      (·, ())) fun _ => .done
  | .addPeopleCount now itemId countId payload maxAttempts =>
    committed db ((AnalyticsRepository.addPeopleCount now itemId countId payload maxAttempts
      db).map (·, ())) fun _ => .done
  | .enqueueRevocation now itemId generation maxAttempts =>
    (SyncQueueRepository.enqueueRevocation now itemId generation maxAttempts db).map id .item
  | .claim now token owner limit logicalKey leaseSeconds =>
    committed db (SyncQueueRepository.claim now token owner limit logicalKey leaseSeconds db)
      .rows
  | .complete now itemId token owner =>
    (SyncQueueRepository.complete now itemId token owner db).map id .flag
  | .completeCamera now itemId token owner localId serverId =>
    (SyncQueueRepository.completeCamera now itemId token owner localId serverId db).map id .flag
  | .completeRevocation now itemId token owner generation =>
    (SyncQueueRepository.completeRevocation now itemId token owner generation db).map id .flag
  | .fail now itemId token owner code message permanent =>
    (SyncQueueRepository.fail now itemId token owner code message permanent db).map id .flag
  | .retryDeadLetter now itemId =>
    (SyncQueueRepository.retryDeadLetter now itemId db).map id .flag
  | .discardDeadLetter now itemId =>
    (SyncQueueRepository.discardDeadLetter now itemId db).map id .flag
  | .purgeRetained now succeededDays deadLetterDays =>
    (SyncQueueRepository.purgeRetained now succeededDays deadLetterDays db).map id .removed

/-- The values that the operation takes from `uuid4`. The id of an analytics record may come
from the request, so it is not among them. -/
def Op.uuids : Op → List Uuid
  | .beginRevocation _ itemId claimToken _ _ _ => [itemId, claimToken]
  | .createCamera _ cameraId itemId _ _ _ => [cameraId, itemId]
  | .updateCamera _ itemId _ _ _ => [itemId]
  | .deleteCamera _ itemId _ _ => [itemId]
  | .addEvent _ itemId _ _ _ => [itemId]
  | .addAlert _ itemId _ _ _ => [itemId]
  | .addPeopleCount _ itemId _ _ _ => [itemId]
  | .enqueueRevocation _ itemId _ _ => [itemId]
  | .claim _ token _ _ _ _ => [token]
  | _ => []

/-- The four calls that settle a leased row. -/
inductive Settling where
  | complete
  | completeCamera
  | completeRevocation
  | fail
  deriving DecidableEq, Repr

/-- The settling call that an operation makes: its kind, row, token and owner. -/
def Op.settling : Op → Option (Settling × Uuid × Uuid × String)
  | .complete _ itemId token owner => some (.complete, itemId, token, owner)
  | .completeCamera _ itemId token owner _ _ => some (.completeCamera, itemId, token, owner)
  | .completeRevocation _ itemId token owner _ =>
    some (.completeRevocation, itemId, token, owner)
  | .fail _ itemId token owner _ _ _ => some (.fail, itemId, token, owner)
  | _ => none

/-- An entry of the log. A settlement also records the logical key of its row. -/
inductive Entry where
  | leased (itemId token : Uuid) (owner : String)
  | settled (how : Settling) (itemId token : Uuid) (owner : String) (key : Option LogicalKey)
  | retried (itemId : Uuid)
  deriving DecidableEq, Repr

/-- The logical key of a row. -/
def keyOf (itemId : Uuid) (queue : List Row) : Option LogicalKey :=
  (queue.find? fun r => r.id = itemId).map Row.logicalKey

/-- What an operation with this reply adds to the log. -/
def Op.entries (db : Db) (op : Op) (reply : Reply) : List Entry :=
  match op, reply with
  | .claim _ token owner _ _ _, .rows rows => rows.map fun r => .leased r.id token owner
  | .beginRevocation .., .revocation (some (_, itemId, token)) =>
    [.leased itemId token SessionRepository.authLogout]
  | .retryDeadLetter _ itemId, .flag true => [.retried itemId]
  | op, .flag true =>
    match op.settling with
    | some (how, itemId, token, owner) =>
      [.settled how itemId token owner (keyOf itemId db.syncQueue)]
    | none => []
  | _, _ => []

/-- The database with the values that `uuid4` returned and the log. -/
structure Store where
  db : Db
  issued : List Uuid
  log : List Entry
  deriving DecidableEq

/-- The `uuid4` values of the operation are new. -/
abbrev Store.Admits (s : Store) (op : Op) : Prop :=
  op.uuids.Nodup ∧ ∀ u ∈ op.uuids, u ∉ s.issued

/-- One operation on the store, with its reply. -/
def Store.apply (s : Store) (op : Op) : Option (Store × Reply) :=
  if s.Admits op then
    let (db, reply) := op.run s.db
    some ({ db, issued := op.uuids ++ s.issued, log := op.entries s.db reply ++ s.log }, reply)
  else none

/-- The store over an empty database. -/
def Store.empty : Store := ⟨.empty, [], []⟩

/-- The local database under any sequence of writes. -/
def storeMachine : Machine Store Op where
  init := .empty
  step s op := (s.apply op).map Prod.fst

/-- A step of the store, in terms of the operation's effect. -/
theorem store_step {s s' : Store} {op : Op} (h : storeMachine.step s op = some s') :
    s.Admits op ∧ s' =
      { db := (op.run s.db).1, issued := op.uuids ++ s.issued
        log := op.entries s.db (op.run s.db).2 ++ s.log } := by
  simp only [storeMachine, Store.apply] at h
  split at h
  · rename_i hadmits
    exact ⟨hadmits, by simpa using h.symm⟩
  · cases h

end Rsap.Desktop
