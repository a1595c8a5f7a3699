import Rsap.Webapp.Licenses

/-!
# `Rsap.Webapp.Outbox`: the session outbox in the database

The statements that `process_session_outbox_once` (`app/services/session_service.py`) runs for a
row, and a whole pass over the rows as one request runs it, without anything in between. The
Redis commands of a row change nothing here: they succeed or they raise. A pass that stops early,
because the error of a row could not be recorded, has fewer outcomes than rows.

`AdminRequest.perform` is a request of an administrator from its start to its response.
-/

set_option autoImplicit false

namespace Rsap.Webapp

open Rsap.Desktop (Uuid Timestamp)
open Rsap.Library

namespace Database

/-- `UPDATE auth.sessions SET expires_at=$2 WHERE user_id=$1 AND revoked_at IS NULL`. -/
def extendSessions (db : Database) (userId : Uuid) (validUntil : Timestamp) : Database :=
  { db with
    sessions := db.sessions.update (fun s => s.userId = userId ∧ s.revokedAt = none)
      (fun s => { s with expiresAt := validUntil }) fun _ => rfl }

/-- The row is done. -/
def markProcessed (db : Database) (rowId : Nat) (now : Timestamp) : Database :=
  { db with
    outbox := updateWhere (fun row => row.id = rowId)
      (fun row => { row with
        processedAt := some now, attempts := row.attempts + 1, lastError := none }) db.outbox }

/-- The row raised. It stays for a later pass. -/
def markFailed (db : Database) (rowId : Nat) (error : String) : Database :=
  { db with
    outbox := updateWhere (fun row => row.id = rowId)
      (fun row => { row with attempts := row.attempts + 1, lastError := some error }) db.outbox }

/-- `SELECT … WHERE processed_at IS NULL ORDER BY id LIMIT $1`. Ids are given in the order of the
inserts, so the table is in that order. -/
def pendingOutbox (db : Database) (limit : Nat) : List OutboxRow :=
  (db.outbox.filter fun row => row.processedAt = none).take limit

/-- The statement of a reconciliation, after its read of the licence. -/
def reconcile (db : Database) (userId : Uuid) (license : Option License) (now : Timestamp) :
    Database :=
  match license with
  | none => db.revokeSessions userId now
  | some license => db.extendSessions userId license.validUntil

end Database

/-- How the processing of a row ends: it succeeds, its Redis command raises, or its first
statement raises. -/
inductive RowOutcome where
  | done
  | redisFailed (error : String)
  | sqlFailed (error : String)
  deriving DecidableEq

/-- One row of a pass. -/
def processRow (now : Timestamp) (db : Database) (row : OutboxRow) (outcome : RowOutcome) :
    Database :=
  let touched :=
    match row.operation with
    | .revoke => db
    | .reconcile => db.reconcile row.userId (db.currentLicense row.userId now) now
  match outcome with
  | .done => touched.markProcessed row.id now
  | .redisFailed error => touched.markFailed row.id error
  | .sqlFailed error => db.markFailed row.id error

/-- `process_session_outbox_once`, with its limit of 100 rows. -/
def processSessionOutboxOnce (now : Timestamp) (outcomes : List RowOutcome) (db : Database) :
    Database :=
  ((db.pendingOutbox 100).zip outcomes).foldl
    (fun db (row, outcome) => processRow now db row outcome) db

/-- A request from its start to its response. A request that raises is rolled back. -/
def AdminRequest.perform (now : Timestamp) (admin : CurrentUser) (outcomes : List RowOutcome)
    (db : Database) (request : AdminRequest) : Database :=
  match request.serve now admin db with
  | .error _ => db
  | .ok db' => if request.drains db then processSessionOutboxOnce now outcomes db' else db'

end Rsap.Webapp
