import Rsap.Proofs.SuperAdmin

/-!
# `Rsap.Proofs.Peers`: what plain administrators cannot touch

A plain administrator manages staff and video-analytics users only, and turns nobody into an
administrator. So a sequence of requests of plain administrators leaves the administrators, their
rows, their permissions and their licences as they are.

Their sessions have one exception. Five routes drain the session outbox before they answer, and
the outbox holds the rows of every user. A `reconcile` row that another request left behind for
an administrator is then processed by the plain administrator's request: it revokes or extends
the open sessions of that user (`drain_revokes_peer`). `peers_kept` states what remains true: the
sessions of an administrator without such a row are untouched, and no request adds one.
-/

set_option autoImplicit false

namespace Rsap.Proofs

open Rsap.Desktop (Uuid Timestamp)
open Rsap.Library Rsap.Library.Machine
open Rsap.Webapp

/-- The two administrator roles. -/
def Privileged (role : Role) : Prop := role = .admin ∨ role = .superAdmin

instance (role : Role) : Decidable (Privileged role) := inferInstanceAs (Decidable (_ ∨ _))

/-- No reconciliation of the user waits in the outbox. -/
def Quiet (db : Database) (userId : Uuid) : Prop :=
  ∀ row ∈ db.outbox, row.userId = userId → row.operation = .reconcile → row.processedAt ≠ none

/-- The sessions of the user are the same. -/
def SameSessions (db db' : Database) (userId : Uuid) : Prop :=
  ∀ session : Session, session.userId = userId → (session ∈ db'.sessions ↔ session ∈ db.sessions)

/-- A session as a reconciliation leaves it: only the end of an open session changes. -/
structure SessionKept (session session' : Session) : Prop where
  token : session'.sessionToken = session.sessionToken
  user : session'.userId = session.userId
  created : session'.createdAt = session.createdAt
  revoked : session.revokedAt ≠ none → session' = session

/-- Every session of the user is still there, and there is no new one. -/
structure SessionsKept (db db' : Database) (userId : Uuid) : Prop where
  forth : ∀ session ∈ db.sessions, session.userId = userId →
    ∃ session' ∈ db'.sessions, SessionKept session session'
  back : ∀ session' ∈ db'.sessions, session'.userId = userId →
    ∃ session ∈ db.sessions, SessionKept session session'

/-- What two databases agree on about the sessions and the waiting reconciliations of a user. -/
structure UserKept (db db' : Database) (userId : Uuid) : Prop where
  sessions : SessionsKept db db' userId
  quiet : Quiet db userId → SameSessions db db' userId ∧ Quiet db' userId

/-- What two databases agree on about the users of the administrator roles. -/
structure PeersKept (db db' : Database) : Prop where
  users : ∀ user : User, Privileged user.role → (user ∈ db'.users ↔ user ∈ db.users)
  permissions : ∀ user ∈ db.users, Privileged user.role → ∀ row : PermissionRow,
    row.userId = user.id → (row ∈ db'.permissions ↔ row ∈ db.permissions)
  licenses : ∀ user ∈ db.users, Privileged user.role → ∀ license : License,
    license.userId = user.id → (license ∈ db'.licenses ↔ license ∈ db.licenses)
  sessions : ∀ user ∈ db.users, Privileged user.role → UserKept db db' user.id

/-! ### Sessions -/

section
variable {db db' db'' : Database} {userId : Uuid}

/-- A session is kept by doing nothing. -/
theorem SessionKept.rfl {session : Session} : SessionKept session session :=
  ⟨Eq.refl _, Eq.refl _, Eq.refl _, fun _ => Eq.refl _⟩

/-- Sessions that are kept twice are kept. -/
theorem SessionKept.trans {s s' s'' : Session} (h : SessionKept s s') (h' : SessionKept s' s'') :
    SessionKept s s'' := by
  refine ⟨h'.token.trans h.token, h'.user.trans h.user, h'.created.trans h.created, ?_⟩
  intro hrevoked
  have heq := h.revoked hrevoked
  subst heq
  exact h'.revoked hrevoked

/-- The sessions are kept by doing nothing. -/
theorem SessionsKept.rfl : SessionsKept db db userId :=
  ⟨fun s hs _ => ⟨s, hs, .rfl⟩, fun s hs _ => ⟨s, hs, .rfl⟩⟩

/-- Sessions are kept along two steps. -/
theorem SessionsKept.trans (h : SessionsKept db db' userId) (h' : SessionsKept db' db'' userId) :
    SessionsKept db db'' userId := by
  refine ⟨fun s hs huser => ?_, fun s'' hs'' huser => ?_⟩
  · obtain ⟨s', hs', hkept⟩ := h.forth s hs huser
    obtain ⟨s'', hs'', hkept'⟩ := h'.forth s' hs' (hkept.user.trans huser)
    exact ⟨s'', hs'', hkept.trans hkept'⟩
  · obtain ⟨s', hs', hkept'⟩ := h'.back s'' hs'' huser
    obtain ⟨s, hs, hkept⟩ := h.back s' hs' (hkept'.user.symm.trans huser)
    exact ⟨s, hs, hkept.trans hkept'⟩

/-- An update of open sessions. -/
theorem sessionsKept_update {p : Session → Prop} [DecidablePred p] {f : Session → Session}
    (hf : ∀ s, (f s).sessionToken = s.sessionToken) (hkept : ∀ s, p s → SessionKept s (f s))
    (hsessions : db'.sessions = db.sessions.update p f hf) : SessionsKept db db' userId := by
  have hone : ∀ s, SessionKept s (if p s then f s else s) := by
    intro s
    split
    · rename_i h
      exact hkept s h
    · exact .rfl
  refine ⟨fun s hs _ => ⟨_, ?_, hone s⟩, fun s' hs' _ => ?_⟩
  · rw [hsessions]
    exact KeyedTable.mem_update.mpr ⟨s, hs, Eq.refl _⟩
  · rw [hsessions] at hs'
    obtain ⟨s, hs, heq⟩ := KeyedTable.mem_update.mp hs'
    exact ⟨s, hs, heq ▸ hone s⟩

/-- An update of the open sessions of another user. -/
theorem sameSessions_update {other : Uuid} (hne : other ≠ userId) {f : Session → Session}
    (hf : ∀ s, (f s).sessionToken = s.sessionToken) (huser : ∀ s, (f s).userId = s.userId)
    (hsessions : db'.sessions = db.sessions.update
      (fun s => s.userId = other ∧ s.revokedAt = none) f hf) : SameSessions db db' userId := by
  intro session hsession
  rw [hsessions, KeyedTable.mem_update]
  constructor
  · rintro ⟨s, hs, heq⟩
    split at heq
    · rename_i h
      exact absurd (h.1.symm.trans ((huser s).symm.trans (heq ▸ hsession))) hne
    · exact heq ▸ hs
  · intro hs
    exact ⟨session, hs, if_neg fun h => hne (h.1.symm.trans hsession)⟩

/-- The same sessions are kept sessions. -/
theorem SameSessions.kept (h : SameSessions db db' userId) : SessionsKept db db' userId :=
  ⟨fun s hs huser => ⟨s, (h s huser).mpr hs, .rfl⟩, fun s hs huser => ⟨s, (h s huser).mp hs, .rfl⟩⟩

/-- Revoking the sessions of any user keeps every row. -/
theorem revokeSessions_kept (now : Timestamp) (other : Uuid) :
    SessionsKept db (db.revokeSessions other now) userId := by
  refine sessionsKept_update ?_ ?_ rfl
  · exact fun _ => rfl
  · intro s hopen
    exact ⟨rfl, rfl, rfl, fun h => absurd hopen.2 h⟩

/-- Changing the end of the sessions of any user keeps every row. -/
theorem extendSessions_kept (validUntil : Timestamp) (other : Uuid) :
    SessionsKept db (db.extendSessions other validUntil) userId := by
  refine sessionsKept_update ?_ ?_ rfl
  · exact fun _ => rfl
  · intro s hopen
    exact ⟨rfl, rfl, rfl, fun h => absurd hopen.2 h⟩

/-- Revoking the sessions of another user leaves this user's. -/
theorem revokeSessions_same (now : Timestamp) {other : Uuid} (hne : other ≠ userId) :
    SameSessions db (db.revokeSessions other now) userId := by
  refine sameSessions_update hne ?_ ?_ rfl
  · exact fun _ => rfl
  · exact fun _ => rfl

/-- Changing the end of the sessions of another user leaves this user's. -/
theorem extendSessions_same (validUntil : Timestamp) {other : Uuid} (hne : other ≠ userId) :
    SameSessions db (db.extendSessions other validUntil) userId := by
  refine sameSessions_update hne ?_ ?_ rfl
  · exact fun _ => rfl
  · exact fun _ => rfl

end

/-! ### The drain -/

section
variable {db db' db'' : Database} {userId : Uuid}

/-- Nothing of the user changed. -/
theorem UserKept.rfl : UserKept db db userId :=
  ⟨.rfl, fun hquiet => ⟨fun _ _ => Iff.rfl, hquiet⟩⟩

/-- A user is kept along two steps. -/
theorem UserKept.trans (h : UserKept db db' userId) (h' : UserKept db' db'' userId) :
    UserKept db db'' userId := by
  refine ⟨h.sessions.trans h'.sessions, fun hquiet => ?_⟩
  obtain ⟨hsame, hquiet'⟩ := h.quiet hquiet
  obtain ⟨hsame', hquiet''⟩ := h'.quiet hquiet'
  exact ⟨fun s hs => (hsame' s hs).trans (hsame s hs), hquiet''⟩

/-- The user's sessions are the same, and no reconciliation of his was added. -/
theorem UserKept.of_same (hsame : SameSessions db db' userId)
    (hquiet : Quiet db userId → Quiet db' userId) : UserKept db db' userId :=
  ⟨hsame.kept, fun h => ⟨hsame, hquiet h⟩⟩

/-- A new outbox row of another user, or a new revocation. -/
theorem enqueue_kept {other : Uuid} {operation : SessionAction} (sid : Option Digest)
    (now : Timestamp) (h : other ≠ userId ∨ operation = .revoke) :
    UserKept db (db.enqueueSessionAction other operation sid now) userId := by
  refine .of_same (fun _ _ => Iff.rfl) fun hquiet row hrow huser hreconcile => ?_
  rcases List.mem_append.mp hrow with hold | hnew
  · exact hquiet row hold huser hreconcile
  · cases List.mem_singleton.mp hnew
    rcases h with hne | hrevoke
    · exact absurd huser hne
    · exact absurd (hrevoke.symm.trans hreconcile) (by simp)

/-- An outbox row that is marked keeps its user, its operation, and its being processed. -/
theorem mark_kept {p : OutboxRow → Prop} [DecidablePred p] {f : OutboxRow → OutboxRow}
    (huser : ∀ row, (f row).userId = row.userId)
    (hoperation : ∀ row, (f row).operation = row.operation)
    (hprocessed : ∀ row, row.processedAt ≠ none → (f row).processedAt ≠ none)
    (hsessions : db'.sessions = db.sessions) (houtbox : db'.outbox = updateWhere p f db.outbox) :
    UserKept db db' userId := by
  refine .of_same (fun s _ => by rw [hsessions]) fun hquiet row' hrow' huser' hreconcile => ?_
  rw [houtbox] at hrow'
  obtain ⟨row, hrow, heq⟩ := mem_updateWhere.mp hrow'
  split at heq
  · subst heq
    exact hprocessed row
      (hquiet row hrow ((huser row).symm.trans huser') ((hoperation row).symm.trans hreconcile))
  · subst heq
    exact hquiet row hrow huser' hreconcile

/-- Marking a row as processed touches no session and makes no row wait. -/
theorem markProcessed_kept (rowId : Nat) (now : Timestamp) :
    UserKept db (db.markProcessed rowId now) userId := by
  refine mark_kept ?_ ?_ ?_ rfl rfl
  · exact fun _ => rfl
  · exact fun _ => rfl
  · exact fun _ _ => Option.some_ne_none now

/-- Marking a row as failed touches no session and makes no row wait. -/
theorem markFailed_kept (rowId : Nat) (error : String) :
    UserKept db (db.markFailed rowId error) userId := by
  refine mark_kept ?_ ?_ ?_ rfl rfl
  · exact fun _ => rfl
  · exact fun _ => rfl
  · exact fun _ h => h

/-- The end of a row: it is marked as processed or as failed. -/
theorem processRow_mark (db : Database) (userId : Uuid) (now : Timestamp) (row : OutboxRow)
    (outcome : RowOutcome) :
    ∃ touched, (touched = db ∨ row.operation = .reconcile ∧
        touched = db.reconcile row.userId (db.currentLicense row.userId now) now) ∧
      UserKept touched (processRow now db row outcome) userId := by
  unfold processRow
  cases hoperation : row.operation with
  | revoke =>
    refine ⟨db, .inl rfl, ?_⟩
    cases outcome with
    | done => exact markProcessed_kept row.id now
    | redisFailed error => exact markFailed_kept row.id error
    | sqlFailed error => exact markFailed_kept row.id error
  | reconcile =>
    cases outcome with
    | done => exact ⟨_, .inr ⟨rfl, rfl⟩, markProcessed_kept row.id now⟩
    | redisFailed error => exact ⟨_, .inr ⟨rfl, rfl⟩, markFailed_kept row.id error⟩
    | sqlFailed error => exact ⟨db, .inl rfl, markFailed_kept row.id error⟩

/-- Processing a row ends or revokes open sessions at most. -/
theorem processRow_sessions (now : Timestamp) (row : OutboxRow) (outcome : RowOutcome) :
    SessionsKept db (processRow now db row outcome) userId := by
  obtain ⟨touched, htouched, hmark⟩ := processRow_mark db userId now row outcome
  rcases htouched with rfl | ⟨-, rfl⟩
  · exact hmark.sessions
  · refine SessionsKept.trans ?_ hmark.sessions
    cases db.currentLicense row.userId now with
    | none => exact revokeSessions_kept now row.userId
    | some license => exact extendSessions_kept license.validUntil row.userId

/-- Processing a row that is no reconciliation of the user leaves his sessions as they are. -/
theorem processRow_kept (now : Timestamp) (row : OutboxRow) (outcome : RowOutcome)
    (hrow : row.userId = userId → row.operation ≠ .reconcile) :
    UserKept db (processRow now db row outcome) userId := by
  obtain ⟨touched, htouched, hmark⟩ := processRow_mark db userId now row outcome
  rcases htouched with rfl | ⟨hreconcile, rfl⟩
  · exact hmark
  · have hne : row.userId ≠ userId := fun huser => hrow huser hreconcile
    refine UserKept.trans ?_ hmark
    cases db.currentLicense row.userId now with
    | none => exact .of_same (revokeSessions_same now hne) id
    | some license => exact .of_same (extendSessions_same license.validUntil hne) id

/-- A pass over the outbox keeps every session. -/
theorem foldl_sessions (now : Timestamp) (pass : List (OutboxRow × RowOutcome)) (db : Database) :
    SessionsKept db (pass.foldl (fun db head => processRow now db head.1 head.2) db) userId := by
  induction pass generalizing db with
  | nil => exact .rfl
  | cons head pass ih => exact (processRow_sessions now head.1 head.2).trans (ih _)

/-- A pass without a reconciliation of the user keeps the user's sessions as they are. -/
theorem foldl_kept (now : Timestamp) {pass : List (OutboxRow × RowOutcome)}
    (hpass : ∀ head ∈ pass, head.1.userId = userId → head.1.operation ≠ .reconcile)
    (db : Database) :
    UserKept db (pass.foldl (fun db head => processRow now db head.1 head.2) db) userId := by
  induction pass generalizing db with
  | nil => exact .rfl
  | cons head pass ih =>
    have hhead : UserKept db (processRow now db head.1 head.2) userId :=
      processRow_kept now head.1 head.2 (hpass head List.mem_cons_self)
    exact hhead.trans (ih (fun row hrow => hpass row (List.mem_cons_of_mem _ hrow)) _)

/-- The drain touches a user only through his waiting reconciliations. -/
theorem drain_kept (now : Timestamp) (outcomes : List RowOutcome) (db : Database) :
    UserKept db (processSessionOutboxOnce now outcomes db) userId := by
  refine ⟨foldl_sessions now _ db, fun hquiet => (foldl_kept now ?_ db).quiet hquiet⟩
  intro head hhead huser hreconcile
  -- a row of the pass waited in the outbox when the pass started
  have hmem : head.1 ∈ db.pendingOutbox 100 := (List.of_mem_zip (b := head.2) hhead).1
  obtain ⟨hrow, hwaits⟩ := List.mem_filter.mp (List.mem_of_mem_take hmem)
  exact hquiet head.1 hrow huser hreconcile (by simpa using hwaits)

end

/-! ### The requests -/

section
variable {now : Timestamp} {admin : CurrentUser} {db db' db'' : Database}

/-- Nothing of the administrators changed. -/
theorem PeersKept.rfl : PeersKept db db :=
  ⟨fun _ _ => Iff.rfl, fun _ _ _ _ _ => Iff.rfl, fun _ _ _ _ _ => Iff.rfl, fun _ _ _ => .rfl⟩

/-- The administrators are kept along two requests. -/
theorem PeersKept.trans (h : PeersKept db db') (h' : PeersKept db' db'') : PeersKept db db'' := by
  have hmem : ∀ user ∈ db.users, Privileged user.role → user ∈ db'.users :=
    fun user huser hrole => (h.users user hrole).mpr huser
  constructor
  · intro user hrole
    exact (h'.users user hrole).trans (h.users user hrole)
  · intro user huser hrole row hrow
    exact (h'.permissions user (hmem user huser hrole) hrole row hrow).trans
      (h.permissions user huser hrole row hrow)
  · intro user huser hrole license hlicense
    exact (h'.licenses user (hmem user huser hrole) hrole license hlicense).trans
      (h.licenses user huser hrole license hlicense)
  · intro user huser hrole
    exact (h.sessions user huser hrole).trans (h'.sessions user (hmem user huser hrole) hrole)

/-- The drain keeps the administrators. -/
theorem drain_peers (now : Timestamp) (outcomes : List RowOutcome) (db : Database) :
    PeersKept db (processSessionOutboxOnce now outcomes db) := by
  have hsame := drain_accounts now outcomes db
  constructor
  · intro user _
    rw [hsame.users]
  · intro user _ _ row _
    rw [hsame.permissions]
  · intro user _ _ license _
    rw [hsame.licenses]
  · intro user _ _
    exact drain_kept now outcomes db

/-- A plain administrator manages no administrator. -/
theorem Manages.ordinary {role : Role} (h : Manages admin.role role)
    (hadmin : admin.role = .admin) :
    ¬ Privileged role := by
  rcases h with hsuper | ⟨-, hstaff | hva⟩
  · rw [hadmin] at hsuper
    cases hsuper
  · rw [hstaff]
    decide
  · rw [hva]
    decide

/-- No administrator has the id of a user who is none. -/
theorem ordinary_ne {user peer : User} (huser : user ∈ db.users)
    (hordinary : ¬ Privileged user.role)
    (hpeer : peer ∈ db.users) (hrole : Privileged peer.role) : user.id ≠ peer.id := by
  intro hkey
  rw [db.users.eq_of_key huser hpeer hkey] at hordinary
  exact hordinary hrole

/-- An update of a user who is no administrator and does not become one. -/
theorem updateUser_peers {userId : Uuid} {user : User} {f : User → User}
    (hf : ∀ u, (f u).id = u.id) (huser : user ∈ db.users) (hkey : user.id = userId)
    (hordinary : ¬ Privileged user.role) (hnew : ¬ Privileged (f user).role)
    (husers : db'.users = (db.updateUser userId f hf).users) {peer : User}
    (hrole : Privileged peer.role) : peer ∈ db'.users ↔ peer ∈ db.users := by
  rw [husers]
  show peer ∈ db.users.update (fun u => u.id = userId ∧ u.isDeleted = false) f hf ↔ _
  rw [KeyedTable.mem_update]
  constructor
  · rintro ⟨other, hother, heq⟩
    split at heq
    · rename_i hcond
      rw [db.users.eq_of_key hother huser (hcond.1.trans hkey.symm)] at heq
      rw [← heq] at hrole
      exact absurd hrole hnew
    · rwa [← heq]
  · intro hpeer
    refine ⟨peer, hpeer, if_neg fun hcond => ?_⟩
    exact ordinary_ne huser hordinary hpeer hrole (hkey.trans hcond.1.symm)

/-- Changes of the other tables touch no session. -/
theorem tables_kept {userId : Uuid} (hsessions : db'.sessions = db.sessions)
    (houtbox : db'.outbox = db.outbox) : UserKept db db' userId := by
  refine .of_same (fun s _ => by rw [hsessions]) ?_
  unfold Quiet
  rw [houtbox]
  exact id

/-- The reconciliation of a user who is no administrator. -/
theorem reconcile_peers {userId : Uuid} {peer : User} (hne : userId ≠ peer.id)
    (hsessions : db'.sessions = db.sessions) (houtbox : db'.outbox = db.outbox) :
    UserKept db (db'.enqueueSessionAction userId .reconcile none now) peer.id :=
  (tables_kept hsessions houtbox).trans (enqueue_kept none now (.inl hne))

/-- The revocation of the sessions of a user who is no administrator, with its outbox row. -/
theorem revoke_peers {userId : Uuid} {peer : User} (hne : userId ≠ peer.id)
    (hsessions : db'.sessions = db.sessions) (houtbox : db'.outbox = db.outbox) :
    UserKept db ((db'.revokeSessions userId now).enqueueSessionAction userId .revoke none now)
      peer.id := by
  have hrevoked : UserKept db' (db'.revokeSessions userId now) peer.id :=
    .of_same (revokeSessions_same now hne) id
  have hboth := (tables_kept hsessions houtbox).trans hrevoked
  exact hboth.trans (enqueue_kept none now (.inl hne))

/-- A licence row of one user is no licence of another. -/
theorem updateLicense_peers {licenseId : Uuid} {f : License → License} (hf : ∀ l, (f l).id = l.id)
    (huser : ∀ l, (f l).userId = l.userId) {license : License} (hmem : license ∈ db.licenses)
    (hkey : license.id = licenseId) {userId : Uuid} (hne : license.userId ≠ userId)
    (hlicenses : db'.licenses = db.licenses.update (fun l => l.id = licenseId) f hf)
    {other : License} (hother : other.userId = userId) :
    other ∈ db'.licenses ↔ other ∈ db.licenses := by
  rw [hlicenses, KeyedTable.mem_update]
  constructor
  · rintro ⟨l, hl, heq⟩
    split at heq
    · rename_i hcond
      rw [db.licenses.eq_of_key hl hmem (hcond.trans hkey.symm)] at heq
      rw [← heq, huser] at hother
      exact absurd hother hne
    · rwa [← heq]
  · intro hl
    refine ⟨other, hl, if_neg fun hcond => hne ?_⟩
    rw [← db.licenses.eq_of_key hl hmem (hcond.trans hkey.symm)]
    exact hother

/-- An assignment of a plain administrator makes no administrator. -/
theorem assign_ordinary {payload : UserUpdate} {user : User} (hordinary : ¬ Privileged user.role)
    (hpayload : payload.role = some .admin → admin.role = .superAdmin)
    (hadmin : admin.role = .admin) : ¬ Privileged (payload.assign now user).role := by
  show ¬ Privileged (payload.role.getD user.role)
  cases hset : payload.role with
  | none => exact hordinary
  | some role =>
    rintro (hrole | hrole)
    · have hsuper := hpayload (hset.trans (congrArg some hrole))
      rw [hadmin] at hsuper
      cases hsuper
    · exact payload.manageable (hset.trans (congrArg some hrole))

/-- A transaction of a plain administrator that commits keeps the administrators. -/
theorem serve_peers {request : AdminRequest} (h : ServeCases now admin db request db')
    (hadmin : admin.role = .admin) : PeersKept db db' := by
  cases h with
  -- the new user is of the staff or of the visitors' desk
  | @createUser payload id passwordHash user users hrole hinsert =>
    refine ⟨fun peer hpeer => ?_, fun _ _ _ _ _ => Iff.rfl, fun _ _ _ _ _ => Iff.rfl,
      fun _ _ _ => .of_same (fun _ _ => Iff.rfl) fun h => h⟩
    show peer ∈ users ↔ _
    rw [KeyedTable.mem_insert hinsert]
    refine or_iff_left ?_
    rintro rfl
    rw [hrole] at hpeer
    rcases payload.plain with hstaff | hva
    · rw [hstaff] at hpeer
      exact absurd hpeer (by decide)
    · rw [hva] at hpeer
      exact absurd hpeer (by decide)
  -- the other requests are about a user whom the actor manages, so not about a peer
  | updateUser htarget hassign hprotect =>
    have hordinary := htarget.managed.ordinary hadmin
    refine ⟨fun peer hpeer => ?_, fun _ _ _ _ _ => Iff.rfl, fun _ _ _ _ _ => Iff.rfl,
      fun _ _ _ => .of_same (fun _ _ => Iff.rfl) fun h => h⟩
    exact updateUser_peers _ htarget.mem htarget.key hordinary
      (assign_ordinary hordinary hassign hadmin) rfl hpeer
  | deleteUser htarget hprotect =>
    have hordinary := htarget.managed.ordinary hadmin
    refine ⟨fun peer hpeer => ?_, fun _ _ _ _ _ => Iff.rfl, fun _ _ _ _ _ => Iff.rfl,
      fun peer hpeer hrole => ?_⟩
    · refine updateUser_peers ?_ htarget.mem htarget.key hordinary ?_ rfl hpeer
      · exact fun _ => rfl
      · exact hordinary
    · refine revoke_peers ?_ rfl rfl
      rw [← htarget.key]
      exact ordinary_ne htarget.mem hordinary hpeer hrole
  | disableUser htarget hactive hprotect =>
    have hordinary := htarget.managed.ordinary hadmin
    refine ⟨fun peer hpeer => ?_, fun _ _ _ _ _ => Iff.rfl, fun _ _ _ _ _ => Iff.rfl,
      fun peer hpeer hrole => ?_⟩
    · refine updateUser_peers ?_ htarget.mem htarget.key hordinary ?_ rfl hpeer
      · exact fun _ => rfl
      · exact hordinary
    · refine revoke_peers ?_ rfl rfl
      rw [← htarget.key]
      exact ordinary_ne htarget.mem hordinary hpeer hrole
  | enableUser htarget hinactive =>
    have hordinary := htarget.managed.ordinary hadmin
    refine ⟨fun peer hpeer => ?_, fun _ _ _ _ _ => Iff.rfl, fun _ _ _ _ _ => Iff.rfl,
      fun _ _ _ => .of_same (fun _ _ => Iff.rfl) fun h => h⟩
    refine updateUser_peers _ htarget.mem htarget.key hordinary ?_ rfl hpeer
    exact hordinary
  | grantPermission htarget hrow hinsert =>
    have hordinary := htarget.managed.ordinary hadmin
    refine ⟨fun _ _ => Iff.rfl, fun peer hpeer hrole other hother => ?_, fun _ _ _ _ _ => Iff.rfl,
      fun _ _ _ => .of_same (fun _ _ => Iff.rfl) fun h => h⟩
    refine (KeyedTable.mem_insert hinsert).trans (or_iff_left ?_)
    intro heq
    rw [heq, hrow, ← htarget.key] at hother
    exact ordinary_ne htarget.mem hordinary hpeer hrole hother
  -- what is deleted or inserted belongs to that user
  | revokePermission htarget =>
    have hordinary := htarget.managed.ordinary hadmin
    refine ⟨fun _ _ => Iff.rfl, fun peer hpeer hrole other hother => ?_, fun _ _ _ _ _ => Iff.rfl,
      fun _ _ _ => .of_same (fun _ _ => Iff.rfl) fun h => h⟩
    refine KeyedTable.mem_delete.trans (and_iff_left ?_)
    rintro ⟨-, hkey⟩
    rw [hkey, ← htarget.key] at hother
    exact ordinary_ne htarget.mem hordinary hpeer hrole hother
  | createLicense htarget huser hinsert =>
    have hne := fun {peer : User} (hpeer : peer ∈ db.users) (hrole : Privileged peer.role) =>
      htarget.key ▸ ordinary_ne htarget.mem (htarget.managed.ordinary hadmin) hpeer hrole
    refine ⟨fun _ _ => Iff.rfl, fun _ _ _ _ _ => Iff.rfl, fun peer hpeer hrole other hother => ?_,
      fun peer hpeer hrole => ?_⟩
    · refine (KeyedTable.mem_insert hinsert).trans (or_iff_left ?_)
      intro heq
      rw [heq, huser] at hother
      exact hne hpeer hrole hother
    · exact reconcile_peers (hne hpeer hrole) rfl rfl
  | updateLicense hlicensee hprotect =>
    have hne := fun {peer : User} (hpeer : peer ∈ db.users) (hrole : Privileged peer.role) =>
      hlicensee.user_key ▸
        ordinary_ne hlicensee.user_mem (hlicensee.managed.ordinary hadmin) hpeer hrole
    refine ⟨fun _ _ => Iff.rfl, fun _ _ _ _ _ => Iff.rfl, fun peer hpeer hrole other hother => ?_,
      fun peer hpeer hrole => ?_⟩
    · refine updateLicense_peers ?_ ?_ hlicensee.mem hlicensee.key (hne hpeer hrole) rfl hother
      · exact fun _ => rfl
      · exact fun _ => rfl
    · exact reconcile_peers (hne hpeer hrole) rfl rfl
  | expireLicense hlicensee hprotect =>
    have hne := fun {peer : User} (hpeer : peer ∈ db.users) (hrole : Privileged peer.role) =>
      hlicensee.user_key ▸
        ordinary_ne hlicensee.user_mem (hlicensee.managed.ordinary hadmin) hpeer hrole
    refine ⟨fun _ _ => Iff.rfl, fun _ _ _ _ _ => Iff.rfl, fun peer hpeer hrole other hother => ?_,
      fun peer hpeer hrole => ?_⟩
    · refine updateLicense_peers ?_ ?_ hlicensee.mem hlicensee.key (hne hpeer hrole) rfl hother
      · exact fun _ => rfl
      · exact fun _ => rfl
    · exact revoke_peers (hne hpeer hrole) rfl rfl

/-- A request of a plain administrator, with its drain. -/
theorem perform_peers {outcomes : List RowOutcome} (request : AdminRequest)
    (hadmin : admin.role = .admin) : PeersKept db (request.perform now admin outcomes db) := by
  unfold AdminRequest.perform
  split
  · exact .rfl
  · rename_i db' hserve
    have hcommitted := serve_peers (serve_cases hserve) hadmin
    split
    · exact hcommitted.trans (drain_peers now outcomes db')
    · exact hcommitted

end

/-- A sequence of requests of plain administrators keeps the administrators: their rows, their
permissions and their licences are the same, and their sessions change at most as a waiting
reconciliation changes them. -/
theorem peers_kept (start : AdminState) (calls : List AdminCall)
    (hadmins : ∀ call ∈ calls, call.admin.role = .admin) :
    PeersKept start.db ((adminMachine start).final start calls).db := by
  have hrun : ∀ (calls : List AdminCall) (s : AdminState),
      (∀ call ∈ calls, call.admin.role = .admin) →
      PeersKept s.db ((adminMachine start).final s calls).db := by
    intro calls
    induction calls with
    | nil => exact fun _ _ => .rfl
    | cons call calls ih =>
      intro s hcalls
      have hhead : PeersKept s.db (call.request.perform call.now call.admin call.outcomes s.db) :=
        perform_peers call.request (hcalls call List.mem_cons_self)
      refine hhead.trans (ih ⟨_, call.now⟩ fun other hother => ?_)
      exact hcalls other (List.mem_cons_of_mem _ hother)
  exact hrun calls start hadmins

/-! ### A reconciliation that waits -/

/-- Nothing of the administrators changed. -/
structure PeersUntouched (db db' : Database) : Prop where
  users : ∀ user : User, Privileged user.role → (user ∈ db'.users ↔ user ∈ db.users)
  permissions : ∀ user ∈ db.users, Privileged user.role → ∀ row : PermissionRow,
    row.userId = user.id → (row ∈ db'.permissions ↔ row ∈ db.permissions)
  licenses : ∀ user ∈ db.users, Privileged user.role → ∀ license : License,
    license.userId = user.id → (license ∈ db'.licenses ↔ license ∈ db.licenses)
  sessions : ∀ user ∈ db.users, Privileged user.role → SameSessions db db' user.id

/-- A user of the role. -/
def account (id : Uuid) (email : String) (role : Role) : User :=
  ⟨id, email, none, "", role, true, false, none, none, 0, 0⟩

/-- An open session of the first user. -/
def openSession : Session := ⟨7, 1, 10, 200, none⟩

/-- A super administrator with an open session, whose licence was cut short, and the
reconciliation that an earlier drain could not process. A plain administrator and a member of
the staff. -/
def waitingReconcile : AdminState where
  db := { Database.empty with
    users := ⟨[account 1 "a@x.org" .superAdmin, account 2 "b@x.org" .admin,
      account 3 "c@x.org" .staff], by unfold UniqueOn; decide⟩
    licenses := ⟨[operatorLicense 11 1 "k"], by unfold UniqueOn; decide⟩
    sessions := ⟨[openSession], by unfold UniqueOn; decide⟩
    outbox := [⟨1, 1, .reconcile, none, 1, some "redis", 40, none⟩]
    nextOutboxId := 2 }
  now := 95

/-- The plain administrator disables the member of the staff. -/
def disableStaff : List AdminCall :=
  [⟨95, ⟨2, .admin, []⟩, [.done, .done], .toggleActive 3⟩]

/-- The drain of that request revokes the session of the super administrator. -/
theorem drain_revokes_peer : ¬ ∀ (start : AdminState) (calls : List AdminCall),
    (∀ call ∈ calls, call.admin.role = .admin) →
    PeersUntouched start.db ((adminMachine start).final start calls).db := by
  intro hclaim
  have hsame := (hclaim waitingReconcile disableStaff (by decide)).sessions
    (account 1 "a@x.org" .superAdmin) (by show _ ∈ waitingReconcile.db.users.rows; decide)
    (by decide) openSession rfl
  have hgone : openSession ∉
      ((adminMachine waitingReconcile).final waitingReconcile disableStaff).db.sessions.rows := by
    decide
  exact hgone (hsame.mpr (by show _ ∈ waitingReconcile.db.sessions.rows; decide))

/-- The session is still there, and only its end changed. -/
theorem peers_kept_disableStaff : PeersKept waitingReconcile.db
    ((adminMachine waitingReconcile).final waitingReconcile disableStaff).db :=
  peers_kept waitingReconcile disableStaff (by decide)

end Rsap.Proofs
