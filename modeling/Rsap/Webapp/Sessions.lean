import Rsap.Webapp.Outbox

/-!
# `Rsap.Webapp.Sessions`: the session pairs in Redis

Redis holds two keys for a user, `session:{user_id}` and `refresh:{user_id}`. This module has the
values of the keys, the scripts of `app/services/session_service.py` that change them, the two
halves of `validate_session_state`, and the statements of a login.

A script runs atomically, so it is a function of the pair. The expiry of a key is in whole
seconds, and Redis compares it with its clock in milliseconds. A value that does not decode is
`none`: none of these functions writes one, and the scripts handle it all the same.
-/

set_option autoImplicit false

namespace Rsap.Webapp

open Rsap.Desktop (Uuid Timestamp Token)
open Rsap.Library

/-- Unix time in whole seconds: `int(t.timestamp())`, and `TIME` of Redis. -/
def seconds (t : Timestamp) : Nat := t / 1000000

/-! ### Tokens -/

/-- The claims of a refresh token. Only the server signs them. -/
structure RefreshToken where
  sub : Uuid
  sid : Digest
  jti : Uuid
  exp : Nat
  deriving DecidableEq

/-- The hash of `session_identifier` and `token_hash`, the signed text of a refresh token, and
`jwt_refresh_expire_days` in microseconds. -/
structure SessionSettings where
  sha256 : Token → Digest
  encode : RefreshToken → Token
  refreshExpire : Nat

namespace SessionSettings

/-- `token_hash` of a refresh token. -/
def refreshHash (settings : SessionSettings) (token : RefreshToken) : Digest :=
  settings.sha256 (settings.encode token)

/-- `issue_token_pair`, without the access token. -/
def issue (settings : SessionSettings) (now : Timestamp) (userId : Uuid) (sid : Digest)
    (jti : Uuid) : RefreshToken :=
  ⟨userId, sid, jti, seconds (now + settings.refreshExpire)⟩

end SessionSettings

/-! ### Pairs -/

/-- `session_state`. Its `session_id` is the `sid` again. -/
structure SessionState where
  sid : Digest
  userId : Uuid
  tokenHash : Digest
  licenseId : Uuid
  licenseValidFrom : Nat
  licenseExpiresAt : Nat
  sessionExpiresAt : Nat
  refreshExpiresAt : Nat
  deriving DecidableEq

/-- `refresh_state`. -/
structure RefreshState where
  tokenHash : Digest
  jti : Uuid
  sid : Digest
  refreshExpiresAt : Nat
  deriving DecidableEq

/-- A key with its expiry. -/
structure Entry (α : Type) where
  value : Option α
  expireAt : Nat
  deriving DecidableEq

/-- The two keys of a user. -/
structure Pair where
  session : Option (Entry SessionState)
  refresh : Option (Entry RefreshState)
  deriving DecidableEq

/-- `DEL` of both keys. -/
def Pair.empty : Pair := ⟨none, none⟩

/-- `GET`. A key is gone once the clock is past its expiry. -/
def redisGet {α : Type} (now : Timestamp) (key : Option (Entry α)) : Option (Entry α) :=
  key.filter fun entry => now / 1000 ≤ entry.expireAt * 1000

/-- `load_json`. -/
def loadJson {α : Type} (now : Timestamp) (key : Option (Entry α)) : Option α :=
  (redisGet now key).bind Entry.value

/-! ### Scripts -/

/-- `activate_session`. -/
def activateSession (state : SessionState) (refresh : RefreshState)
    (sessionExpiresAt refreshExpiresAt : Nat) : Pair :=
  ⟨some ⟨some state, sessionExpiresAt⟩, some ⟨some refresh, refreshExpiresAt⟩⟩

/-- `ROTATE_REFRESH_LUA`, with its result. -/
def rotateRefresh (now : Timestamp) (tokenHash : Digest) (jti : Uuid) (sid : Digest)
    (replacement : RefreshState) (pair : Pair) : Bool × Pair :=
  match redisGet now pair.refresh, redisGet now pair.session with
  | some ⟨some refresh, _⟩, some ⟨some session, _⟩ =>
    if refresh.tokenHash ≠ tokenHash ∨ refresh.jti ≠ jti ∨ refresh.sid ≠ sid ∨
        session.sid ≠ sid ∨ replacement.sid ≠ sid then
      (false, pair)
    else
      let refreshExpiry := min replacement.refreshExpiresAt session.licenseExpiresAt
      let sessionExpiry := min session.sessionExpiresAt session.licenseExpiresAt
      if refreshExpiry ≤ seconds now ∨ sessionExpiry ≤ seconds now then (false, pair)
      else
        (true, activateSession
          { session with refreshExpiresAt := replacement.refreshExpiresAt } replacement
          sessionExpiry refreshExpiry)
  -- a value that does not decode
  | some _, some _ => (false, .empty)
  | _, _ => (false, pair)

/-- `DELETE_IF_SID_LUA`. It raises, here `none`, when the session does not decode. -/
def deleteIfSid (now : Timestamp) (sid : Digest) (pair : Pair) : Option Pair :=
  match redisGet now pair.session with
  | none => some { pair with refresh := none }
  | some ⟨none, _⟩ => none
  | some ⟨some session, _⟩ => if session.sid ≠ sid then some pair else some .empty

/-- `RECONCILE_LUA`. The `sid` of the row's payload may be missing. -/
def reconcilePair (now : Timestamp) (sid : Option Digest) (license : License) (pair : Pair) :
    Pair :=
  match redisGet now pair.session, redisGet now pair.refresh with
  | some ⟨some session, _⟩, some ⟨some refresh, _⟩ =>
    if session.sid ≠ refresh.sid ∨ ∃ expected ∈ sid, session.sid ≠ expected then .empty
    else
      let licenseExpiry := seconds license.validUntil
      if seconds now < seconds license.validFrom ∨ licenseExpiry ≤ seconds now then pair
      else
        let sessionExpiry := min session.sessionExpiresAt licenseExpiry
        let refreshExpiry := min refresh.refreshExpiresAt licenseExpiry
        if sessionExpiry ≤ seconds now ∨ refreshExpiry ≤ seconds now then .empty
        else
          activateSession
            { session with
              licenseId := license.id
              licenseValidFrom := seconds license.validFrom
              licenseExpiresAt := licenseExpiry
              refreshExpiresAt := refresh.refreshExpiresAt }
            refresh sessionExpiry refreshExpiry
  | _, _ => .empty

/-! ### Validation -/

/-- The first half of `validate_session_state`: what it checks of the state that it read. The
result is the licence for the query. -/
def validateState (settings : SessionSettings) (now : Timestamp) (sessionToken : Token)
    (expectedSid : Option Digest) (state : SessionState) : Option Uuid :=
  let sid := settings.sha256 sessionToken
  if state.tokenHash = settings.sha256 sessionToken ∧ state.sid = sid ∧
      (∀ expected ∈ expectedSid, expected = sid) ∧
      state.licenseValidFrom * 1000000 ≤ now ∧ now < state.licenseExpiresAt * 1000000 then
    some state.licenseId
  else none

/-- The second half of `validate_session_state`: its query finds a row. -/
def Database.Validates (db : Database) (now : Timestamp) (userId : Uuid) (sessionToken : Token)
    (licenseId : Uuid) : Prop :=
  (∃ user ∈ db.users.rows, user.id = userId ∧ user.isActive = true ∧ user.isDeleted = false) ∧
    (∃ session ∈ db.sessions.rows, session.userId = userId ∧
      session.sessionToken = sessionToken ∧ session.revokedAt = none ∧ now < session.expiresAt) ∧
    ∃ license ∈ db.licenses.rows, license.id = licenseId ∧ license.current userId now

instance (db : Database) (now : Timestamp) (userId : Uuid) (sessionToken : Token)
    (licenseId : Uuid) : Decidable (db.Validates now userId sessionToken licenseId) :=
  inferInstanceAs (Decidable (_ ∧ _ ∧ _))

/-! ### The statements of a login -/

namespace Database

/-- The checks of a login under the lock of the user: the licence that bounds the session. -/
def loginLicense (db : Database) (now : Timestamp) (userId : Uuid) : Option License :=
  if ∃ user ∈ db.users.rows, user.id = userId ∧ user.isActive = true ∧ user.isDeleted = false then
    -- `int(…total_seconds()) <= 0` is a licence that ends within a second
    (db.currentLicense userId now).filter fun license => now + 1000000 ≤ license.validUntil
  else none

/-- The writes of a login: the other sessions of the user are revoked, and the new one is
inserted. It raises when a session with this token exists. -/
def openSession (db : Database) (now : Timestamp) (userId : Uuid) (sessionToken : Token)
    (expiresAt : Timestamp) : Option Database :=
  let db := db.revokeSessions userId now
  (db.sessions.insert ⟨sessionToken, userId, now, expiresAt, none⟩).map fun sessions =>
    { db with sessions }

/-- `UPDATE auth.sessions SET revoked_at=NOW() WHERE user_id=$1 AND session_token=$2 AND
revoked_at IS NULL`, and the outbox row for the session. -/
def closeSession (db : Database) (now : Timestamp) (userId : Uuid) (sessionToken : Token)
    (sid : Digest) : Database :=
  { db with
    sessions := db.sessions.update
      (fun s => s.userId = userId ∧ s.sessionToken = sessionToken ∧ s.revokedAt = none)
      (fun s => { s with revokedAt := some now })
      (Session.revoked_token now) }.enqueueSessionAction
        userId .revoke (some sid) now

end Database

end Rsap.Webapp
