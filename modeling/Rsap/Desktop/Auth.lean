import Rsap.Desktop.Clients
import Rsap.Desktop.Store

/-!
# `Rsap.Desktop.Auth`: `AuthService`

`login`, `logout`, `refresh` and `authenticate` (`app/services.py`). The first three hold the
mutation lock from their start to their end, so at most one of them runs. `AuthTask` is the
point that it has reached: the central call or the database write that comes next. A function
whose name starts with `after` continues it.

A call that ends in an exception which the method does not catch ends the task: the lock is
released. The parsed expiry of a licence and the parsed answer of a refresh are arguments.
-/

set_option autoImplicit false

namespace Rsap.Desktop

/-- The point that a `login`, a `logout` or a `refresh` has reached. -/
inductive AuthTask where
  | loginLicense (session : LocalSession)
  | loginSave (session : LocalSession) (expiry : Timestamp)
  | loginUndo (session : LocalSession)
  | logoutBegin (record : SessionRecord)
  | logoutCall (record : SessionRecord) (generation : Nat) (itemId claimToken : Uuid)
  | logoutComplete (record : SessionRecord) (generation : Nat) (itemId claimToken : Uuid)
  | logoutSetError (generation : Nat) (itemId claimToken : Uuid) (code : String)
  | logoutFail (itemId claimToken : Uuid) (code : String)
  | refreshCall (record : SessionRecord) (licenseValidUntil : Timestamp)
  | refreshClear (record : SessionRecord)
  | refreshReplace (record : SessionRecord) (licenseValidUntil : Timestamp)
      (replacement : LocalSession)
  deriving DecidableEq

namespace AuthService

/-- `not license or license.get("is_active") is False`. -/
def inactiveLicense (session : LocalSession) : Bool :=
  match session.license with
  | none => true
  | some license => license.isEmpty || Dict.get license "is_active" == some (.bool false)

/-! ### `login` -/

/-- After the licence call of a login. The result is the licence with its parsed expiry, or none
when the call or the parsing raised. -/
def afterLicense (session : LocalSession) (now : Timestamp)
    (result : Option (Dict × Timestamp)) : AuthTask :=
  match result with
  | some (license, expiry) =>
    if expiry ≤ now ∨ Dict.get license "is_active" ≠ some (.bool true) then .loginUndo session
    else .loginSave { session with license := some license } expiry
  | none => .loginUndo session

/-- After `save`: the login returns, or it undoes the central login and raises. -/
def afterSave (session : LocalSession) : Reply → Option AuthTask
  | .record _ => none
  | _ => some (.loginUndo session)

/-! ### `logout` -/

/-- The start of a logout. Without an active session it returns at once. -/
def logout (record : Option SessionRecord) : Option AuthTask :=
  match record with
  | some record => if record.status = .active then some (.logoutBegin record) else none
  | none => none

/-- After `begin_revocation`. -/
def afterBegin (record : SessionRecord) : Reply → Option AuthTask
  | .revocation (some (generation, itemId, claimToken)) =>
    some (.logoutCall record generation itemId claimToken)
  | _ => none

/-- After the central logout. It is a single attempt. -/
def afterLogout (record : SessionRecord) (generation : Nat) (itemId claimToken : Uuid)
    (outcome : AttemptOutcome) : Option AuthTask :=
  match CentralApiClient.settleAttempt true outcome with
  | some (.data _) => some (.logoutComplete record generation itemId claimToken)
  | some (.error e) =>
    if e.statusCode = 401 ∨ e.statusCode = 403 then
      some (.logoutComplete record generation itemId claimToken)
    else some (.logoutSetError generation itemId claimToken e.code)
  | _ => none

/-! ### `refresh` -/

/-- The start of a refresh: the checks on the record. -/
def refresh (now : Timestamp) (refreshToken sessionToken : Token)
    (record : Option SessionRecord) : Option AuthTask :=
  match record with
  | none => none
  | some record =>
    if record.status ≠ .active ∨ record.session.refreshToken ≠ some refreshToken ∨
        record.session.sessionToken ≠ sessionToken then none
    else
      match record.licenseValidUntil with
      | none => some (.refreshClear record)
      | some validUntil =>
        if validUntil ≤ now ∨ inactiveLicense record.session then
          some (.refreshClear record)
        else some (.refreshCall record validUntil)

/-- How `central.refresh` ends: the new tokens, the client's own error, or another
exception. -/
inductive RefreshResult where
  | tokens (accessToken refreshToken : Token) (accessExpiresAt : Timestamp)
  | error (error : ExternalServiceError)
  | raised
  deriving DecidableEq

/-- After the central refresh. -/
def afterRefresh (record : SessionRecord) (validUntil : Timestamp) :
    RefreshResult → Option AuthTask
  | .tokens accessToken refreshToken accessExpiresAt =>
    some (.refreshReplace record validUntil
      { record.session with accessToken, refreshToken := some refreshToken, accessExpiresAt })
  | .error e =>
    if e.code = "refresh_uncertain" ∨ e.statusCode = 401 ∨ e.statusCode = 403 then
      some (.refreshClear record)
    else none
  | .raised => none

/-! ### `authenticate` -/

/-- How `authenticate` decides: it returns the session, it raises, or it clears the session row
of the record's generation and raises. -/
inductive Decision where
  | session (session : LocalSession)
  | denied
  | clear (record : SessionRecord)
  deriving DecidableEq

/-- `authenticate`, on the record that it read. -/
def authenticate (now : Timestamp) (bearerToken sessionToken : Token)
    (record : Option SessionRecord) : Decision :=
  match record with
  | none => .denied
  | some record =>
    if record.status ≠ .active then .denied
    else if inactiveLicense record.session then .clear record
    else if record.licenseValidUntil.all (· ≤ now) then .clear record
    else if record.session.accessExpiresAt ≤ now then .denied
    else if record.session.accessToken ≠ bearerToken ∨
        record.session.sessionToken ≠ sessionToken then .denied
    else .session record.session

end AuthService

namespace AuthTask

/-- The database write that comes next, when the task is at one. -/
def op (maxAttempts : Attempts) (leaseSeconds : Nat) (now : Timestamp) (itemId claimToken : Uuid) :
    AuthTask → Option Op
  | .loginSave session expiry => some (.save now session (some expiry))
  | .logoutBegin record =>
    some (.beginRevocation now itemId claimToken record.generation maxAttempts leaseSeconds)
  | .logoutComplete _ generation itemId claimToken =>
    some (.completeRevocation now itemId claimToken SessionRepository.authLogout generation)
  | .logoutSetError generation _ _ code => some (.setError now generation code)
  | .logoutFail itemId claimToken code =>
    some (.fail now itemId claimToken SessionRepository.authLogout code
      "Central revocation failed" false)
  | .refreshClear record => some (.clear (some record.generation))
  | .refreshReplace record validUntil replacement =>
    some (.replaceActive now replacement validUntil record.generation)
  | _ => none

/-- The task after its write. -/
def afterWrite (reply : Reply) : AuthTask → Option AuthTask
  | .loginSave session _ => AuthService.afterSave session reply
  | .logoutBegin record => AuthService.afterBegin record reply
  | .logoutSetError _ itemId claimToken code => some (.logoutFail itemId claimToken code)
  | _ => none

/-- The session under which the task makes its `logout` call, when it is at one. -/
def logoutSession : AuthTask → Option LocalSession
  | .loginUndo session => some session
  | .logoutCall record _ _ _ => some record.session
  | _ => none

/-- The task after its `logout` call. -/
def afterLogout (outcome : AttemptOutcome) : AuthTask → Option AuthTask
  | .logoutCall record generation itemId claimToken =>
    AuthService.afterLogout record generation itemId claimToken outcome
  | _ => none

end AuthTask

end Rsap.Desktop
