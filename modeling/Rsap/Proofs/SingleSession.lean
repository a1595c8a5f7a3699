import Rsap.Proofs.SessionSteps

/-!
# `Rsap.Proofs.SingleSession`: one live session per user

The table of the sessions decides which token is valid: `validate_session_state` joins the row of
the token, and the row must not be revoked. Every transaction keeps the rows or revokes them
(`SessionsKept`), except the commit of a login, which revokes every other open row of the user
before it inserts its own.

So a user has at most one row that is not revoked, a token validates for at most one of them, and
a revoked row stays revoked. Redis plays no part in the argument: the state that a validation read
there may be any state.
-/

set_option autoImplicit false

namespace Rsap.Proofs

open Rsap.Desktop (Uuid Timestamp Token)
open Rsap.Library Rsap.Library.Machine
open Rsap.Webapp

/-! ### The table of the sessions -/

/-- A user has at most one session that is not revoked. -/
def OneOpen (db : Database) : Prop :=
  ∀ s ∈ db.sessions, ∀ s' ∈ db.sessions, s.userId = s'.userId → s.revokedAt = none →
    s'.revokedAt = none → s = s'

/-- The session of the token is revoked. -/
def Revoked (db : Database) (sessionToken : Token) : Prop :=
  ∃ s ∈ db.sessions, s.sessionToken = sessionToken ∧ s.revokedAt ≠ none

section
variable {db db' : Database} {now : Timestamp}

/-- The rows after a login: the old ones, of which the user's are revoked, and the new one. -/
theorem mem_openSession {userId : Uuid} {sessionToken : Token} {expiresAt : Timestamp}
    (h : db.openSession now userId sessionToken expiresAt = some db') (s : Session) :
    s ∈ db'.sessions ↔ s ∈ (db.revokeSessions userId now).sessions ∨
      s = ⟨sessionToken, userId, now, expiresAt, none⟩ := by
  obtain ⟨sessions, hinsert, rfl⟩ := Option.map_eq_some_iff.mp h
  exact KeyedTable.mem_insert hinsert

/-- An old row keeps its token, and stays if it is revoked. -/
theorem openSession_forth {userId : Uuid} {sessionToken : Token} {expiresAt : Timestamp}
    (h : db.openSession now userId sessionToken expiresAt = some db') {s : Session}
    (hs : s ∈ db.sessions) : ∃ s' ∈ db'.sessions, SessionKept s s' := by
  obtain ⟨s', hs', hkept⟩ := (revokeSessions_kept now userId).forth s hs rfl
  exact ⟨s', (mem_openSession h s').mpr (.inl hs'), hkept⟩

/-- A revoked session of the user of a login is an old one. -/
theorem revokeSessions_revoked {userId : Uuid} {s : Session}
    (hs : s ∈ (db.revokeSessions userId now).sessions) (huser : s.userId = userId) :
    s.revokedAt ≠ none := by
  have hrow : s ∈ updateWhere (fun s => s.userId = userId ∧ s.revokedAt = none)
      (fun s => { s with revokedAt := some now }) db.sessions.rows := hs
  obtain ⟨old, hold, heq⟩ := mem_updateWhere.mp hrow
  split at heq
  · rw [← heq]
    exact Option.some_ne_none now
  · rename_i hnot
    subst heq
    exact fun hopen => hnot ⟨huser, hopen⟩

/-- At most one session stays open while sessions are only closed or cut short. -/
theorem oneOpen_kept (h : OneOpen db) (hkept : ∀ userId, SessionsKept db db' userId) :
    OneOpen db' := by
  intro s hs s' hs' huser hopen hopen'
  obtain ⟨old, hold, hk⟩ := (hkept _).back s hs rfl
  obtain ⟨old', hold', hk'⟩ := (hkept _).back s' hs' rfl
  -- an open row was open before
  have hwas : ∀ {r r' : Session}, SessionKept r r' → r'.revokedAt = none → r.revokedAt = none := by
    intro r r' hr hopen
    by_contra hrevoked
    exact hrevoked (hr.revoked hrevoked ▸ hopen)
  have heq : old = old' := h old hold old' hold' (hk.user.symm.trans (huser.trans hk'.user))
    (hwas hk hopen) (hwas hk' hopen')
  refine db'.sessions.eq_of_key hs hs' ?_
  rw [hk.token, hk'.token, heq]

/-- A login closes the open session before it opens its own. -/
theorem oneOpen_openSession {userId : Uuid} {sessionToken : Token} {expiresAt : Timestamp}
    (hopen : db.openSession now userId sessionToken expiresAt = some db') (h : OneOpen db) :
    OneOpen db' := by
  have hrest : OneOpen (db.revokeSessions userId now) :=
    oneOpen_kept h fun _ => revokeSessions_kept now userId
  intro s hs s' hs' huser hnone hnone'
  rcases (mem_openSession hopen s).mp hs with hold | rfl
  · rcases (mem_openSession hopen s').mp hs' with hold' | rfl
    · exact hrest s hold s' hold' huser hnone hnone'
    · exact absurd hnone (revokeSessions_revoked hold huser)
  · rcases (mem_openSession hopen s').mp hs' with hold' | rfl
    · exact absurd hnone' (revokeSessions_revoked hold' huser.symm)
    · rfl

/-- A session that is revoked stays so. -/
theorem revoked_forth {sessionToken : Token} (h : Revoked db sessionToken)
    (hforth : ∀ s ∈ db.sessions, ∃ s' ∈ db'.sessions, SessionKept s s') :
    Revoked db' sessionToken := by
  obtain ⟨s, hs, htoken, hrevoked⟩ := h
  obtain ⟨s', hs', hkept⟩ := hforth s hs
  refine ⟨s', hs', hkept.token.trans htoken, ?_⟩
  rw [hkept.revoked hrevoked]
  exact hrevoked

/-- A validation finds an open row. -/
theorem validates_open {userId licenseId : Uuid} {sessionToken : Token}
    (h : db.Validates now userId sessionToken licenseId) :
    ∃ s ∈ db.sessions, s.userId = userId ∧ s.sessionToken = sessionToken ∧ s.revokedAt = none := by
  obtain ⟨-, ⟨s, hs, huser, htoken, hopen, -⟩, -⟩ := h
  exact ⟨s, hs, huser, htoken, hopen⟩

/-- A revoked token does not validate. -/
theorem Revoked.not_validates {userId licenseId : Uuid} {sessionToken : Token}
    (h : Revoked db sessionToken) : ¬ db.Validates now userId sessionToken licenseId := by
  intro hvalid
  obtain ⟨s, hs, htoken, hrevoked⟩ := h
  obtain ⟨s', hs', -, htoken', hopen⟩ := validates_open hvalid
  rw [db.sessions.eq_of_key hs hs' (htoken.trans htoken'.symm)] at hrevoked
  exact hrevoked hopen

end

/-! ### The steps -/

/-- What a transaction does to the sessions: it keeps their rows, or a login commits. -/
inductive SessionsStep (db db' : Database) : Prop where
  | kept : (∀ userId, SessionsKept db db' userId) → SessionsStep db db'
  | opened {now : Timestamp} {userId : Uuid} {sessionToken : Token} {expiresAt : Timestamp} :
      db.openSession now userId sessionToken expiresAt = some db' → SessionsStep db db'

section
variable {db db' : Database} {now : Timestamp}

/-- No session changed. -/
theorem SessionsStep.rfl : SessionsStep db db := .kept fun _ => .rfl

/-- The sessions of a user were revoked. -/
theorem sessionsKept_revoke {userId other : Uuid}
    (hsessions : db'.sessions = (db.revokeSessions userId now).sessions) :
    SessionsKept db db' other := by
  refine sessionsKept_update ?_ ?_ hsessions
  · exact fun _ => Eq.refl _
  · intro s hopen
    exact ⟨Eq.refl _, Eq.refl _, Eq.refl _, fun h => absurd hopen.2 h⟩

/-- The transactions of the administrators. -/
theorem serve_sessions {admin : CurrentUser} {request : AdminRequest}
    (h : ServeCases now admin db request db') (userId : Uuid) : SessionsKept db db' userId := by
  have hsame : ∀ {db'' : Database}, db''.sessions = db.sessions → SessionsKept db db'' userId := by
    intro db'' hsessions
    exact SameSessions.kept fun s _ => by rw [hsessions]
  cases h with
  | createUser => exact hsame rfl
  | updateUser => exact hsame rfl
  | deleteUser => exact sessionsKept_revoke rfl
  | disableUser => exact sessionsKept_revoke rfl
  | enableUser => exact hsame rfl
  | grantPermission => exact hsame rfl
  | revokePermission => exact hsame rfl
  | createLicense => exact hsame rfl
  | updateLicense => exact hsame rfl
  | expireLicense => exact sessionsKept_revoke rfl

/-- A logout keeps every row. -/
theorem closeSession_sessions (userId : Uuid) (sessionToken : Token) (sid : Digest)
    (other : Uuid) : SessionsKept db (db.closeSession now userId sessionToken sid) other := by
  refine sessionsKept_update ?_ ?_ rfl
  · exact fun _ => rfl
  · intro s hopen
    exact ⟨rfl, rfl, rfl, fun h => absurd hopen.2.2 h⟩

/-- A reconciliation keeps every row. -/
theorem reconcile_sessions (userId : Uuid) (license : Option License) (other : Uuid) :
    SessionsKept db (db.reconcile userId license now) other := by
  cases license with
  | none => exact revokeSessions_kept now userId
  | some license => exact extendSessions_kept license.validUntil userId

/-- A row of the outbox was marked. -/
theorem mark_sessions {rowId : Nat} (h : db' = db.markProcessed rowId now ∨
    ∃ error, db' = db.markFailed rowId error) (other : Uuid) : SessionsKept db db' other := by
  refine SameSessions.kept fun s _ => ?_
  rcases h with rfl | ⟨error, rfl⟩
  · exact Iff.rfl
  · exact Iff.rfl

/-- Every transaction leaves at most one session open. -/
theorem OneOpen.step (h : OneOpen db) (hstep : SessionsStep db db') : OneOpen db' := by
  cases hstep with
  | kept hkept => exact oneOpen_kept h hkept
  | opened hopen => exact oneOpen_openSession hopen h

/-- Every session keeps its row in a transaction. -/
theorem SessionsStep.forth (hstep : SessionsStep db db') {s : Session} (hs : s ∈ db.sessions) :
    ∃ s' ∈ db'.sessions, SessionKept s s' := by
  cases hstep with
  | kept hkept => exact (hkept s.userId).forth s hs (Eq.refl _)
  | opened hopen => exact openSession_forth hopen hs

end

section
variable {settings : SessionSettings} {w w' : SessionWorld} {a : SessionAct}

/-- Every step of the system is one of the two. -/
theorem step_sessions (h : SessionCases settings w a w') : SessionsStep w.db w'.db := by
  cases h with
  | tick => exact .rfl
  | login => exact .rfl
  | loginMoved => exact .rfl
  | activated => exact .rfl
  | committed _ _ hopen => exact .opened hopen
  | compensated => exact .rfl
  | requested => exact .rfl
  | requestMoved => exact .rfl
  | closed => exact .kept (closeSession_sessions _ _ _)
  | issued => exact .rfl
  | rotated => exact .rfl
  | admin hserve => exact .kept (serve_sessions hserve)
  | adminRaised => exact .rfl
  | fetched => exact .rfl
  | passMoved => exact .rfl
  | updated => exact .kept (reconcile_sessions _ _)
  | commanded => exact .rfl
  | marked _ hdb => exact .kept (mark_sessions hdb)
  | passEnded => exact .rfl

/-! ### One live session -/

/-- `validate_session_state` succeeds for the token, whatever state it read from Redis before. -/
def ValidateSucceeds (settings : SessionSettings) (w : SessionWorld) (userId : Uuid)
    (sessionToken : Token) : Prop :=
  ∃ (state : SessionState) (readAt : Timestamp) (expectedSid : Option Digest) (licenseId : Uuid),
    validateState settings readAt sessionToken expectedSid state = some licenseId ∧
      w.db.Validates w.now userId sessionToken licenseId

/-- One live session of the user: one open row, one valid token, and no way back for a revoked
one. -/
structure SingleSession (settings : SessionSettings) (M : Machine SessionWorld SessionAct)
    (w : SessionWorld) (userId : Uuid) : Prop where
  row : ∀ s ∈ w.db.sessions, ∀ s' ∈ w.db.sessions, s.userId = userId → s'.userId = userId →
    s.revokedAt = none → s'.revokedAt = none → s = s'
  token : ∀ sessionToken sessionToken', ValidateSucceeds settings w userId sessionToken →
    ValidateSucceeds settings w userId sessionToken' → sessionToken = sessionToken'
  revoked : ∀ s ∈ w.db.sessions, s.revokedAt ≠ none → ∀ w', Path M Any w w' →
    ∀ other, ¬ ValidateSucceeds settings w' other s.sessionToken

/-- In every reachable state, each user has one live session at most. -/
theorem single_session {db : Database} {now : Timestamp}
    (h : Reachable (sessionMachine settings db now) Any w) (userId : Uuid) :
    SingleSession settings (sessionMachine settings db now) w userId := by
  have hone : OneOpen w.db := by
    refine h.invariant (I := fun w => OneOpen w.db) ?_ ?_
    · intro s hs
      exact absurd hs List.not_mem_nil
    · intro w a w' _ _ hstep hopen
      exact hopen.step (step_sessions (session_cases hstep))
  constructor
  · intro s hs s' hs' huser huser'
    exact hone s hs s' hs' (huser.trans huser'.symm)
  · rintro sessionToken sessionToken' ⟨_, _, _, _, -, hvalid⟩ ⟨_, _, _, _, -, hvalid'⟩
    obtain ⟨s, hs, huser, rfl, hopen⟩ := validates_open hvalid
    obtain ⟨s', hs', huser', rfl, hopen'⟩ := validates_open hvalid'
    rw [hone s hs s' hs' (huser.trans huser'.symm) hopen hopen']
  · intro s hs hrevoked w' hpath other
    have hstill : Revoked w'.db s.sessionToken := by
      refine hpath.invariant (I := fun w => Revoked w.db s.sessionToken) ⟨s, hs, rfl, hrevoked⟩ ?_
      intro w a w' _ hstep hrow
      exact revoked_forth hrow fun r hr => (step_sessions (session_cases hstep)).forth hr
    rintro ⟨_, _, _, _, -, hvalid⟩
    exact hstill.not_validates hvalid

end

/-! ### Two logins -/

/-- The identity as hash, the token identifier as text, and 600 seconds for a refresh token. -/
def plainSettings : SessionSettings := ⟨id, RefreshToken.jti, 600000000⟩

/-- An administrator and a member of the staff. The licence of the latter ends after 1000
seconds. -/
def staffAccounts : Database :=
  { Database.empty with
    users := ⟨[account 1 "a@x.org" .admin, account 2 "b@x.org" .staff], by unfold UniqueOn; decide⟩
    licenses := ⟨[⟨11, 2, "k", [], 8, [], 0, 1000000000, true, none, 0, 0⟩],
      by unfold UniqueOn; decide⟩ }

/-- A login with the token that is under way as the `i`-th one. -/
def loginRun (i : Nat) (sessionToken : Token) (jti : Uuid) : List SessionAct :=
  [.login 2 sessionToken jti, .activate i false, .commit i false]

/-- The second login of the user revokes the first one. -/
theorem single_session_relogin :
    SingleSession plainSettings (sessionMachine plainSettings staffAccounts 5000000)
      ((sessionMachine plainSettings staffAccounts 5000000).final
        (sessionMachine plainSettings staffAccounts 5000000).init
        (loginRun 0 101 1 ++ loginRun 1 102 2)) 2 :=
  single_session (Reachable.init.final (loginRun 0 101 1 ++ loginRun 1 102 2) (by decide)) 2

example :
    (((sessionMachine plainSettings staffAccounts 5000000).final
        (sessionMachine plainSettings staffAccounts 5000000).init
        (loginRun 0 101 1 ++ loginRun 1 102 2)).db.sessions.rows.map fun s =>
          (s.sessionToken, s.revokedAt)) = [(101, some 5000000), (102, none)] := by decide

end Rsap.Proofs
