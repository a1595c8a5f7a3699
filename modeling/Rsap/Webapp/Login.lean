import Rsap.Webapp.SessionWorld

/-!
# `Rsap.Webapp.Login`: one login and the points where it fails

The route `login` of `app/routers/auth.py` after the password check, with nothing else under way.
The SQL transaction and the Redis transaction are two stores: the second is applied inside the
first, and an exception after it runs the compensation. `LoginFault` is where the attempt raises.

`LoginFault.acts` are the same attempts as steps of the system of `Rsap.Webapp.SessionWorld`.
-/

set_option autoImplicit false

namespace Rsap.Webapp

open Rsap.Desktop (Uuid Timestamp Token)
open Rsap.Library

/-- Where a login raises, besides its own checks.

A statement of the SQL transaction before the Redis commands raises. The Redis transaction raises
without effect (`rejected`), or is applied and its reply is lost. The `COMMIT` raises, applied or
not, and the compensation is carried out or raises without effect. The query of the permissions
after the commit raises. -/
inductive LoginFault where
  | statement
  | rejected
  | lost
  | commit (applied compensated : Bool)
  | permissions
  deriving DecidableEq, Repr

namespace LoginFault

/-- The fault comes after the Redis transaction was applied. -/
def afterRedis : LoginFault → Bool
  | .statement | .rejected => false
  | .lost | .commit _ _ | .permissions => true

/-- The fault leaves the row and the keys of the new session. -/
def keepsSession : LoginFault → Bool
  | .commit applied compensated => applied && !compensated
  | .permissions => true
  | _ => false

/-- The attempt as steps of the login with the index `i`. -/
def acts (i : Nat) : LoginFault → List SessionAct
  | .statement | .rejected => [.loginRaise i]
  | .lost => [.activate i true]
  | .commit applied compensated =>
    [.activate i false, if applied then .commit i true else .loginRaise i,
      if compensated then .compensate i else .loginRaise i]
  | .permissions => [.activate i false, .commit i false]

end LoginFault

/-- What an attempt leaves behind, and whether it raised. -/
structure LoginResult where
  raised : Bool
  db : Database
  pair : Pair

/-- The checks and the statements of a login before its Redis commands: `decode_token` of its own
refresh token, the locked user, the licence, and the insert of the session. The result is the
licence and the database as it commits. -/
def prepareLogin (now : Timestamp) (task : LoginTask) (db : Database) :
    Option (License × Database) :=
  if task.refreshToken.exp ≤ seconds now then none
  else
    (db.loginLicense now task.userId).bind fun license =>
      (db.openSession now task.userId task.sessionToken license.validUntil).map (license, ·)

/-- `login`. -/
def login (settings : SessionSettings) (now : Timestamp) (task : LoginTask)
    (fault : Option LoginFault) (db : Database) (pair : Pair) : LoginResult :=
  match prepareLogin now task db with
  | none => ⟨true, db, pair⟩
  | some (license, opened) =>
    let activated := task.pair settings license
    match fault with
    | none => ⟨false, opened, activated⟩
    | some .statement | some .rejected => ⟨true, db, pair⟩
    -- the exception leaves the flag `activated` unset, so nothing compensates
    | some .lost => ⟨true, db, activated⟩
    | some (.commit applied compensated) =>
      { raised := true
        db := if applied then opened else db
        pair :=
          if compensated then
            (deleteIfSid now (settings.sha256 task.sessionToken) activated).getD activated
          else activated }
    -- the query stands behind the `try`
    | some .permissions => ⟨true, opened, activated⟩

/-- `validate_session_state` accepts the session token. -/
def TokenValidates (settings : SessionSettings) (now : Timestamp) (db : Database) (pair : Pair)
    (userId : Uuid) (sessionToken : Token) : Prop :=
  ∃ state ∈ loadJson now pair.session,
    ∃ licenseId ∈ validateState settings now sessionToken none state,
      db.Validates now userId sessionToken licenseId

instance (settings : SessionSettings) (now : Timestamp) (db : Database) (pair : Pair)
    (userId : Uuid) (sessionToken : Token) :
    Decidable (TokenValidates settings now db pair userId sessionToken) :=
  inferInstanceAs (Decidable (∃ state ∈ loadJson now pair.session, _))

end Rsap.Webapp
