import Rsap.Library.Machine
import Rsap.Webapp.Sessions

/-!
# `Rsap.Webapp.SessionWorld`: logins, logouts, refreshes and the outbox, step by step

The central database and Redis, and the requests that are under way. A step is a transaction, a
statement outside one, or a Redis command or script. Between two steps of a request any other
request may run.

A login activates its pair in Redis inside its transaction, before the commit. From there to the
commit it holds the row lock of its user (`SELECT … FOR UPDATE`). The transactions that lock the
same row, or insert an outbox row that refers to it, wait.

A command or a commit that raises may have been applied all the same: its reply is `lost`. One
that raises without effect is the step `raise` of its task.

The world has a history: the tokens that were drawn and issued, the refresh tokens that
`rotate_refresh` accepted, the logins that committed, and the sessions in Redis that were deleted
before their expiry or given an earlier one, each with what did it.
-/

set_option autoImplicit false

namespace Rsap.Webapp

open Rsap.Desktop (Uuid Timestamp Token)
open Rsap.Library

/-! ### Tasks -/

/-- The point that a login has reached. -/
inductive LoginPhase where
  | started
  | activated (at_ : Timestamp) (license : License)
  | compensating
  | ended
  deriving DecidableEq

/-- A `login`, after it checked the password and drew its tokens. -/
structure LoginTask where
  userId : Uuid
  sessionToken : Token
  refreshToken : RefreshToken
  phase : LoginPhase
  deriving DecidableEq

/-- The two routes that a session authenticates. A logout has the `sid` of its access token. -/
inductive RequestKind where
  | logout (accessSid : Digest)
  | refresh (token : RefreshToken)
  deriving DecidableEq

/-- The answers. `unauthorized` comes before the rotation. `consumed` is the 401 after it, with
what the request read again. -/
inductive Answer where
  | loggedOut
  | rotated
  | unauthorized
  | consumed (reread : Option RefreshState)
  | raised
  deriving DecidableEq

/-- The point that a logout or a refresh has reached. -/
inductive RequestPhase where
  | arrived
  | loaded (licenseId : Uuid)
  | validated
  | issued (replacement : RefreshToken)
  | unrotated
  | replayed (reread : Option RefreshState)
  | answered (answer : Answer)
  deriving DecidableEq

/-- A logout or a refresh. -/
structure SessionRequest where
  userId : Uuid
  sessionToken : Token
  kind : RequestKind
  phase : RequestPhase
  deriving DecidableEq

/-- The session identifier in the token of the request. -/
def SessionRequest.sid (request : SessionRequest) : Digest :=
  match request.kind with
  | .logout accessSid => accessSid
  | .refresh token => token.sid

/-- The point that a pass over the outbox has reached in its first row. -/
inductive RowPhase where
  | ready
  | licensed (license : Option License)
  | updated (license : Option License)
  | applied
  | raised (error : String)
  deriving DecidableEq

/-- A `process_session_outbox_once`: the rows that are left, and the point in the first one. -/
structure OutboxPass where
  rows : List OutboxRow
  phase : RowPhase
  deriving DecidableEq

/-! ### History -/

/-- A login that committed, with the next id of the outbox at that time. -/
structure Commit where
  userId : Uuid
  sid : Digest
  mark : Nat
  deriving DecidableEq

/-- What deleted a pair or brought its end forward. -/
inductive KillCause where
  | row (row : OutboxRow)
  | compensation
  | rotation
  deriving DecidableEq

/-- A session that was deleted from Redis before its expiry, or that `EXPIREAT` gave an earlier
one. -/
structure Kill where
  userId : Uuid
  sid : Digest
  cause : KillCause
  deriving DecidableEq

/-- The database, Redis, the tasks and the history. -/
structure SessionWorld where
  now : Timestamp
  db : Database
  redis : Uuid → Pair
  logins : List LoginTask
  requests : List SessionRequest
  passes : List OutboxPass
  drawn : List Token
  issued : List RefreshToken
  accepted : List RefreshToken
  commits : List Commit
  kills : List Kill

/-- The steps. -/
inductive SessionAct where
  | tick (now : Timestamp)
  | login (userId : Uuid) (sessionToken : Token) (jti : Uuid)
  | activate (login : Nat) (lost : Bool)
  | commit (login : Nat) (lost : Bool)
  | compensate (login : Nat)
  | loginRaise (login : Nat)
  | loginCancel (login : Nat)
  | request (userId : Uuid) (sessionToken : Token) (kind : RequestKind)
  | load (request : Nat)
  | validate (request : Nat)
  | logout (request : Nat) (lost : Bool)
  | issue (request : Nat) (jti : Uuid)
  | rotate (request : Nat) (lost : Bool)
  | reread (request : Nat)
  | revoke (request : Nat) (lost : Bool)
  | requestRaise (request : Nat)
  | admin (actor : CurrentUser) (request : AdminRequest)
  | fetch
  | query (pass : Nat)
  | update (pass : Nat)
  | command (pass : Nat) (lost : Option String)
  | rowRaise (pass : Nat) (error : String)
  | mark (pass : Nat)
  | passEnd (pass : Nat)

/-! ### What the tasks do -/

/-- The login holds the row lock of its user. -/
def LoginTask.holdsLock (task : LoginTask) : Bool :=
  match task.phase with
  | .activated _ _ => true
  | _ => false

/-- The login goes on. -/
def LoginTask.to (task : LoginTask) (phase : LoginPhase) : LoginTask := { task with phase }

/-- The request goes on. -/
def SessionRequest.to (request : SessionRequest) (phase : RequestPhase) : SessionRequest :=
  { request with phase }

/-- The user whose row an administrative transaction locks. -/
def AdminRequest.lockedUser (db : Database) : AdminRequest → Option Uuid
  | .createUser .. => none
  | .updateUser userId _ => some userId
  | .deleteUser userId => some userId
  | .toggleActive userId => some userId
  | .grantPermission userId _ _ => some userId
  | .revokePermission userId _ => some userId
  | .createLicense payload _ _ => some payload.userId
  | .updateLicense licenseId _ => (db.licenses.find licenseId).map License.userId
  | .expireLicense licenseId => (db.licenses.find licenseId).map License.userId

/-- The Redis command of an outbox row. `DELETE_IF_SID_LUA` may raise. -/
def OutboxRow.command (row : OutboxRow) (now : Timestamp) (license : Option License)
    (pair : Pair) : Option Pair :=
  match row.operation, row.sid, license with
  | .revoke, some sid, _ => deleteIfSid now sid pair
  | .revoke, none, _ => some .empty
  | .reconcile, _, none => some .empty
  | .reconcile, sid, some license => some (reconcilePair now sid license pair)

/-- The session key is gone, or it expires before the time. A pair is over with its session key,
since a rotation needs both. -/
def Pair.EndsBefore (pair : Pair) (expireAt : Nat) : Prop :=
  ∀ entry ∈ pair.session, entry.expireAt < expireAt

instance (pair : Pair) (expireAt : Nat) : Decidable (pair.EndsBefore expireAt) :=
  inferInstanceAs (Decidable (∀ entry ∈ pair.session, entry.expireAt < expireAt))

/-- The session state of a login: `session_state`. -/
def LoginTask.state (settings : SessionSettings) (task : LoginTask) (license : License) :
    SessionState :=
  { sid := settings.sha256 task.sessionToken
    userId := task.userId
    tokenHash := settings.sha256 task.sessionToken
    licenseId := license.id
    licenseValidFrom := seconds license.validFrom
    licenseExpiresAt := seconds license.validUntil
    sessionExpiresAt := task.refreshToken.exp
    refreshExpiresAt := task.refreshToken.exp }

/-- `refresh_state`. -/
def RefreshToken.state (settings : SessionSettings) (token : RefreshToken) : RefreshState :=
  ⟨settings.refreshHash token, token.jti, token.sid, token.exp⟩

/-- The pair of a login. -/
def LoginTask.pair (settings : SessionSettings) (task : LoginTask) (license : License) : Pair :=
  let expiry := min task.refreshToken.exp (seconds license.validUntil)
  activateSession (task.state settings license) (task.refreshToken.state settings) expiry expiry

namespace SessionWorld

/-- A login of the user is between its activation and its commit. -/
def locked (w : SessionWorld) (userId : Uuid) : Bool :=
  w.logins.any fun task => task.userId = userId && task.holdsLock

/-- The keys of one user change. -/
def setPair (w : SessionWorld) (userId : Uuid) (pair : Pair) : SessionWorld :=
  { w with redis := fun other => if other = userId then pair else w.redis other }

/-- The live session that the new pair of the user lacks or ends earlier. -/
def killed (w : SessionWorld) (userId : Uuid) (pair : Pair) (cause : KillCause) : List Kill :=
  match (w.redis userId).session with
  | some ⟨some state, expireAt⟩ =>
    if seconds w.now < expireAt ∧ pair.EndsBefore expireAt then [⟨userId, state.sid, cause⟩]
    else []
  | _ => []

/-- A command on the keys of one user that may delete them or bring their end forward. -/
def runCommand (w : SessionWorld) (userId : Uuid) (pair : Pair) (cause : KillCause) :
    SessionWorld :=
  { w.setPair userId pair with kills := w.killed userId pair cause ++ w.kills }

def setLogin (w : SessionWorld) (i : Nat) (task : LoginTask) : SessionWorld :=
  { w with logins := w.logins.set i task }

def setRequest (w : SessionWorld) (i : Nat) (request : SessionRequest) : SessionWorld :=
  { w with requests := w.requests.set i request }

def setPass (w : SessionWorld) (i : Nat) (pass : OutboxPass) : SessionWorld :=
  { w with passes := w.passes.set i pass }

/-- The transaction of a login up to its Redis commands. -/
def activate (settings : SessionSettings) (w : SessionWorld) (i : Nat) (task : LoginTask)
    (lost : Bool) : SessionWorld :=
  match w.db.loginLicense w.now task.userId with
  | none => w.setLogin i (task.to .ended)
  | some license =>
    match w.db.openSession w.now task.userId task.sessionToken license.validUntil with
    | none => w.setLogin i (task.to .ended)
    | some _ =>
      (w.setPair task.userId (task.pair settings license)).setLogin i
        -- the exception leaves `activated` false, so nothing compensates
        (task.to (if lost then .ended else .activated w.now license))

/-- The commit of a login. -/
def commit (settings : SessionSettings) (w : SessionWorld) (i : Nat) (task : LoginTask)
    (startedAt : Timestamp) (license : License) (lost : Bool) : SessionWorld :=
  match w.db.openSession startedAt task.userId task.sessionToken license.validUntil with
  | none => w.setLogin i (task.to .compensating)
  | some db =>
    { w with
      db
      commits := ⟨task.userId, settings.sha256 task.sessionToken, db.nextOutboxId⟩ :: w.commits
    }.setLogin i (task.to (if lost then .compensating else .ended))

/-- The compensation of a login. -/
def compensate (settings : SessionSettings) (w : SessionWorld) (i : Nat) (task : LoginTask) :
    SessionWorld :=
  match deleteIfSid w.now (settings.sha256 task.sessionToken) (w.redis task.userId) with
  | none => w.setLogin i (task.to .ended)
  | some pair => (w.runCommand task.userId pair .compensation).setLogin i (task.to .ended)

/-- The transaction that revokes the session of a request. -/
def close (w : SessionWorld) (i : Nat) (request : SessionRequest) (answer : Answer) :
    SessionWorld :=
  { w with db := w.db.closeSession w.now request.userId request.sessionToken request.sid
  }.setRequest i (request.to (.answered answer))

/-- `rotate_refresh`. -/
def rotate (settings : SessionSettings) (w : SessionWorld) (i : Nat) (request : SessionRequest)
    (token replacement : RefreshToken) (lost : Bool) : SessionWorld :=
  let result := rotateRefresh w.now (settings.refreshHash token) token.jti token.sid
    (replacement.state settings) (w.redis request.userId)
  let phase := if lost then .answered .raised else if result.1 then .answered .rotated
    else .unrotated
  { w.runCommand request.userId result.2 .rotation with
    accepted := if result.1 then token :: w.accepted else w.accepted
  }.setRequest i (request.to phase)

/-- The Redis command of the first row of a pass. -/
def command (w : SessionWorld) (i : Nat) (row : OutboxRow) (rest : List OutboxRow)
    (license : Option License) (lost : Option String) : SessionWorld :=
  match row.command w.now license (w.redis row.userId) with
  | none => w.setPass i ⟨row :: rest, .raised (lost.getD "")⟩
  | some pair =>
    (w.runCommand row.userId pair (.row row)).setPass i
      ⟨row :: rest, lost.elim .applied .raised⟩

/-- A step of a login. -/
def stepLogin (settings : SessionSettings) (w : SessionWorld) (i : Nat) (task : LoginTask) :
    SessionAct → Option SessionWorld
  | .activate _ lost =>
    if task.phase = .started ∧ w.locked task.userId = false then
      some (w.activate settings i task lost)
    else none
  | .commit _ lost =>
    match task.phase with
    | .activated startedAt license => some (w.commit settings i task startedAt license lost)
    | _ => none
  | .compensate _ =>
    if task.phase = .compensating then some (w.compensate settings i task) else none
  | .loginRaise _ =>
    -- a transaction that activated the pair is compensated, any other one only rolled back
    some (w.setLogin i (task.to (if task.holdsLock then .compensating else .ended)))
  | .loginCancel _ => some (w.setLogin i (task.to .ended))
  | _ => none

/-- The time to live that Redis answers, in seconds. -/
def sessionTtl (w : SessionWorld) (userId : Uuid) : Nat :=
  match redisGet w.now (w.redis userId).session with
  | some entry => (entry.expireAt * 1000 - w.now / 1000 + 500) / 1000
  | none => 0

/-- `decode_token` accepts a refresh token that the server signed, until it expires. -/
def genuine (w : SessionWorld) (userId : Uuid) : RequestKind → Bool
  | .logout _ => true
  | .refresh token => token ∈ w.issued ∧ token.sub = userId ∧ seconds w.now ≤ token.exp

/-- A step of a logout or of a refresh. -/
def stepRequest (settings : SessionSettings) (w : SessionWorld) (i : Nat)
    (request : SessionRequest) : SessionAct → Option SessionWorld
  | .load _ =>
    if request.phase = .arrived then
      let licenseId := (loadJson w.now (w.redis request.userId).session).bind
        (validateState settings w.now request.sessionToken (some request.sid))
      some (w.setRequest i (request.to (licenseId.elim (.answered .unauthorized) .loaded)))
    else none
  | .validate _ =>
    match request.phase with
    | .loaded licenseId =>
      let valid := w.db.Validates w.now request.userId request.sessionToken licenseId
      some (w.setRequest i (request.to (if valid then .validated else .answered .unauthorized)))
    | _ => none
  | .logout _ lost =>
    match request.phase, request.kind with
    | .validated, .logout _ =>
      if w.locked request.userId then none
      else some (w.close i request (if lost then .raised else .loggedOut))
    | _, _ => none
  | .issue _ jti =>
    match request.phase, request.kind with
    | .validated, .refresh token =>
      if w.sessionTtl request.userId = 0 then
        some (w.setRequest i (request.to (.answered .unauthorized)))
      else if jti ∈ w.issued.map RefreshToken.jti then none
      else
        let replacement := settings.issue w.now request.userId token.sid jti
        some ({ w with issued := replacement :: w.issued
          }.setRequest i (request.to (.issued replacement)))
    | _, _ => none
  | .rotate _ lost =>
    match request.phase, request.kind with
    | .issued replacement, .refresh token =>
      some (w.rotate settings i request token replacement lost)
    | _, _ => none
  | .reread _ =>
    if request.phase = .unrotated then
      let current := loadJson w.now (w.redis request.userId).refresh
      some (w.setRequest i (request.to
        (if ∃ state ∈ current, state.sid ≠ request.sid then .answered (.consumed current)
          else .replayed current)))
    else none
  | .revoke _ lost =>
    match request.phase with
    | .replayed current =>
      if w.locked request.userId then none
      else some (w.close i request (if lost then .raised else .consumed current))
    | _ => none
  | .requestRaise _ =>
    match request.phase with
    | .answered _ => none
    | _ => some (w.setRequest i (request.to (.answered .raised)))
  | _ => none

/-- A step of a pass with the first row. -/
def stepPass (w : SessionWorld) (i : Nat) (row : OutboxRow) (rest : List OutboxRow)
    (phase : RowPhase) : SessionAct → Option SessionWorld
  | .query _ =>
    if phase = .ready ∧ row.operation = .reconcile then
      some (w.setPass i ⟨row :: rest, .licensed (w.db.currentLicense row.userId w.now)⟩)
    else none
  | .update _ =>
    match phase with
    | .licensed license =>
      some ({ w with db := w.db.reconcile row.userId license w.now
        }.setPass i ⟨row :: rest, .updated license⟩)
    | _ => none
  | .command _ lost =>
    match phase, row.operation with
    | .ready, .revoke => some (w.command i row rest none lost)
    | .updated license, .reconcile => some (w.command i row rest license lost)
    | _, _ => none
  | .rowRaise _ error => some (w.setPass i ⟨row :: rest, .raised error⟩)
  | .mark _ =>
    match phase with
    | .applied => some ({ w with db := w.db.markProcessed row.id w.now }.setPass i ⟨rest, .ready⟩)
    | .raised error =>
      some ({ w with db := w.db.markFailed row.id error }.setPass i ⟨rest, .ready⟩)
    | _ => none
  | _ => none

/-- One step. -/
def step (settings : SessionSettings) (w : SessionWorld) (a : SessionAct) : Option SessionWorld :=
  match a with
  | .tick now => if w.now ≤ now then some { w with now } else none
  | .login userId sessionToken jti =>
    if (∃ user ∈ w.db.users.rows, user.id = userId ∧ user.isActive = true ∧
          user.isDeleted = false) ∧
        sessionToken ∉ w.drawn ∧ jti ∉ w.issued.map RefreshToken.jti then
      let token := settings.issue w.now userId (settings.sha256 sessionToken) jti
      some { w with
        drawn := sessionToken :: w.drawn
        issued := token :: w.issued
        logins := w.logins ++ [⟨userId, sessionToken, token, .started⟩] }
    else none
  | .activate i _ | .commit i _ | .compensate i | .loginRaise i | .loginCancel i =>
    match w.logins[i]? with
    | some task => w.stepLogin settings i task a
    | none => none
  | .request userId sessionToken kind =>
    if w.genuine userId kind then
      some { w with requests := w.requests ++ [⟨userId, sessionToken, kind, .arrived⟩] }
    else none
  | .load i | .validate i | .logout i _ | .issue i _ | .rotate i _ | .reread i | .revoke i _
  | .requestRaise i =>
    match w.requests[i]? with
    | some request => w.stepRequest settings i request a
    | none => none
  | .admin actor request =>
    if ∃ userId ∈ request.lockedUser w.db, w.locked userId then none
    else
      match request.serve w.now actor w.db with
      | .ok db => some { w with db }
      | .error _ => some w
  | .fetch => some { w with passes := w.passes ++ [⟨w.db.pendingOutbox 100, .ready⟩] }
  | .query i | .update i | .command i _ | .rowRaise i _ | .mark i =>
    match w.passes[i]? with
    | some ⟨row :: rest, phase⟩ => w.stepPass i row rest phase a
    | _ => none
  | .passEnd i => some { w with passes := w.passes.eraseIdx i }

end SessionWorld

/-- The system, from a database without sessions and without outbox rows. -/
def sessionMachine (settings : SessionSettings) (db : Database) (now : Timestamp) :
    Machine SessionWorld SessionAct where
  init :=
    { now, db := { db with sessions := .empty, outbox := [] }, redis := fun _ => .empty
      logins := [], requests := [], passes := [], drawn := [], issued := [], accepted := []
      commits := [], kills := [] }
  step := SessionWorld.step settings

end Rsap.Webapp
