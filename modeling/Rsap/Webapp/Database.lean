import Rsap.Library.Table
import Rsap.Webapp.Rbac

/-!
# `Rsap.Webapp.Database`: the central tables of users, licences and sessions

The rows follow `infra/postgres/init.sql`. A table carries its primary key. A session row is
found by its token, which is unique. A transaction is a function from the database to the
database or to the exception that rolls it back.

A session identifier is the SHA-256 digest of the session token. The digest is a parameter of
the functions that compute it.
-/

set_option autoImplicit false

namespace Rsap.Webapp

open Rsap.Desktop (Uuid Timestamp Token)
open Rsap.Library

/-- A SHA-256 digest. -/
abbrev Digest := Nat

/-- A row of `auth.users`. -/
structure User where
  id : Uuid
  email : String
  phone : Option String
  passwordHash : String
  role : Role
  isActive : Bool
  isDeleted : Bool
  whatsappNumber : Option String
  createdBy : Option Uuid
  createdAt : Timestamp
  updatedAt : Timestamp
  deriving DecidableEq

/-- A row of `rbac.permissions`. -/
structure PermissionRow where
  id : Uuid
  userId : Uuid
  permission : Permission
  grantedBy : Option Uuid
  createdAt : Timestamp
  deriving DecidableEq

/-- A row of `rbac.licenses`. -/
structure License where
  id : Uuid
  userId : Uuid
  licenseKey : String
  features : Dict
  maxCameras : Nat
  analyticsModules : List String
  validFrom : Timestamp
  validUntil : Timestamp
  isActive : Bool
  createdBy : Option Uuid
  createdAt : Timestamp
  updatedAt : Timestamp
  deriving DecidableEq

/-- A row of `auth.sessions`. -/
structure Session where
  sessionToken : Token
  userId : Uuid
  createdAt : Timestamp
  expiresAt : Timestamp
  revokedAt : Option Timestamp
  deriving DecidableEq

/-- Revoking a session keeps the hash of its refresh token. -/
theorem Session.revoked_token (now : Timestamp) (s : Session) :
    { s with revokedAt := some now }.sessionToken = s.sessionToken := rfl

/-- The two operations of `auth.session_outbox`. -/
inductive SessionAction where
  | revoke
  | reconcile
  deriving DecidableEq

/-- A row of `auth.session_outbox`. `sid` is the only field that a payload has. -/
structure OutboxRow where
  id : Nat
  userId : Uuid
  operation : SessionAction
  sid : Option Digest
  attempts : Nat
  lastError : Option String
  createdAt : Timestamp
  processedAt : Option Timestamp
  deriving DecidableEq

/-- The tables. `nextOutboxId` is the sequence of the outbox. -/
structure Database where
  users : KeyedTable User.id
  permissions : KeyedTable PermissionRow.id
  licenses : KeyedTable License.id
  sessions : KeyedTable Session.sessionToken
  outbox : List OutboxRow
  nextOutboxId : Nat

/-- The database without rows. -/
def Database.empty : Database := ⟨.empty, .empty, .empty, .empty, [], 1⟩

/-! ### Licences -/

/-- `valid_from <= NOW() AND valid_until > NOW()`. -/
def License.inWindow (license : License) (now : Timestamp) : Prop :=
  license.validFrom ≤ now ∧ now < license.validUntil

instance (license : License) (now : Timestamp) : Decidable (license.inWindow now) :=
  inferInstanceAs (Decidable (_ ∧ _))

/-- The licence of the user is active and its window contains the time. -/
def License.current (license : License) (userId : Uuid) (now : Timestamp) : Prop :=
  license.userId = userId ∧ license.isActive = true ∧ license.inWindow now

instance (license : License) (userId : Uuid) (now : Timestamp) :
    Decidable (license.current userId now) :=
  inferInstanceAs (Decidable (_ ∧ _))

namespace Database

/-- The user's current licence that runs longest: `ORDER BY valid_until DESC LIMIT 1`. -/
def currentLicense (db : Database) (userId : Uuid) (now : Timestamp) : Option License :=
  latestBy (fun license => license.current userId now) License.validUntil db.licenses.rows

/-- `SELECT … FROM auth.users WHERE id=$1 AND is_deleted=false FOR UPDATE`. -/
def target (db : Database) (userId : Uuid) : Except Failure User :=
  match db.users.find userId with
  | some user => if user.isDeleted then .error (.http 404 "User not found") else .ok user
  | none => .error (.http 404 "User not found")

/-- `UPDATE auth.users … WHERE id=$1 AND is_deleted=false`. -/
def updateUser (db : Database) (userId : Uuid) (f : User → User) (hf : ∀ u, (f u).id = u.id) :
    Database :=
  { db with users := db.users.update (fun u => u.id = userId ∧ u.isDeleted = false) f hf }

/-- `UPDATE auth.sessions SET revoked_at=NOW() WHERE user_id=$1 AND revoked_at IS NULL`. -/
def revokeSessions (db : Database) (userId : Uuid) (now : Timestamp) : Database :=
  { db with
    sessions := db.sessions.update (fun s => s.userId = userId ∧ s.revokedAt = none)
      (fun s => { s with revokedAt := some now }) (Session.revoked_token now) }

/-- `enqueue_session_action`. -/
def enqueueSessionAction (db : Database) (userId : Uuid) (operation : SessionAction)
    (sid : Option Digest) (now : Timestamp) : Database :=
  { db with
    outbox := db.outbox ++ [⟨db.nextOutboxId, userId, operation, sid, 0, none, now, none⟩]
    nextOutboxId := db.nextOutboxId + 1 }

end Database

end Rsap.Webapp
