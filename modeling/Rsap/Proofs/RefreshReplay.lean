import Mathlib.Logic.Function.Basic
import Rsap.Proofs.RefreshTokens

/-!
# `Rsap.Proofs.RefreshReplay`: a refresh token that comes again revokes its session

A refresh that `rotate_refresh` refused reads the refresh key once more. When it finds no key, or
its own session, it revokes the row of the session before it answers 401. When it finds another
session, it answers 401 at once: a newer login has replaced the pair, and the commit of that login
has revoked the row.

The newer login activates its pair before it commits, so the last step of that argument fails
between the two (`replay_during_login`). `refresh_single_use` states what remains: at the 401 the
row is revoked, or the key belonged to a login of the user that has not committed.

`Holders` is the invariant. A login that has activated its pair holds the lock of its user and the
key, and an open row of a user belongs to the session in his key when that session has committed.
-/

set_option autoImplicit false

namespace Rsap.Proofs

open Rsap.Desktop (Uuid Timestamp Token)
open Rsap.Library Rsap.Library.Machine
open Rsap.Webapp

/-! ### Rows of a request -/

/-- The session of the request has a row. -/
def HasRow (db : Database) (request : SessionRequest) : Prop :=
  ∃ s ∈ db.sessions, s.userId = request.userId ∧ s.sessionToken = request.sessionToken

/-- The row of the session of the request is revoked. -/
def RowRevoked (db : Database) (request : SessionRequest) : Prop :=
  ∃ s ∈ db.sessions, s.userId = request.userId ∧ s.sessionToken = request.sessionToken ∧
    s.revokedAt ≠ none

/-- The session belongs to a login of the user that has not committed. -/
def Uncommitted (w : SessionWorld) (userId : Uuid) (sid : Digest) : Prop :=
  ∀ c ∈ w.commits, c.userId = userId → c.sid ≠ sid

/-- What a request knows at each point: the token is the one of its session, the session has a
row, and at the 401 after the rotation the row is revoked, or the key that it read again belongs
to a login under way. -/
def RequestFits (settings : SessionSettings) (w : SessionWorld) (request : SessionRequest) : Prop :=
  match request.phase with
  | .arrived => True
  | .loaded _ => settings.sha256 request.sessionToken = request.sid
  | .validated | .issued _ | .unrotated | .replayed _ =>
    settings.sha256 request.sessionToken = request.sid ∧ HasRow w.db request
  | .answered (.consumed reread) => HasRow w.db request ∧ (RowRevoked w.db request ∨
      ∃ state, reread = some state ∧ state.sid ≠ request.sid ∧
        Uncommitted w request.userId state.sid)
  | .answered _ => True

/-- The pair of the login has left its hands. -/
def LoginPhase.Settled (phase : LoginPhase) : Prop := phase = .ended ∨ phase = .compensating

/-- Who holds the refresh key of a user. -/
structure Holders (settings : SessionSettings) (w : SessionWorld) : Prop where
  drawn : ∀ (i : Nat) (task : LoginTask), w.logins[i]? = some task → task.sessionToken ∈ w.drawn
  distinct : ∀ (i j : Nat) (task task' : LoginTask), w.logins[i]? = some task →
    w.logins[j]? = some task' → task.sessionToken = task'.sessionToken → i = j
  sid : ∀ (i : Nat) (task : LoginTask), w.logins[i]? = some task →
    task.refreshToken.sid = settings.sha256 task.sessionToken
  lock : ∀ (i j : Nat) (task task' : LoginTask), w.logins[i]? = some task →
    w.logins[j]? = some task' → task.holdsLock = true → task'.holdsLock = true →
    task.userId = task'.userId → i = j
  held : ∀ (i : Nat) (task : LoginTask) (state : RefreshState), w.logins[i]? = some task →
    task.holdsLock = true → currentRefresh w task.userId = some state →
    state.sid = settings.sha256 task.sessionToken
  commits : ∀ c ∈ w.commits, ∃ (i : Nat) (task : LoginTask), w.logins[i]? = some task ∧
    c.userId = task.userId ∧ c.sid = settings.sha256 task.sessionToken ∧
    LoginPhase.Settled task.phase
  current : ∀ (userId : Uuid) (state : RefreshState) (c : Commit),
    currentRefresh w userId = some state → c ∈ w.commits → c.userId = userId →
    c.sid = state.sid → ∀ s ∈ w.db.sessions, s.userId = userId → s.revokedAt = none →
    settings.sha256 s.sessionToken = state.sid
  requests : ∀ request ∈ w.requests, RequestFits settings w request

/-! ### Steps that activate no login and commit none -/

/-- The logins are the same, up to some whose pair has left their hands. -/
def LoginsKept (w w' : SessionWorld) : Prop :=
  ∀ i : Nat, w'.logins[i]? = w.logins[i]? ∨ ∃ (task : LoginTask) (phase : LoginPhase),
    w.logins[i]? = some task ∧ w'.logins[i]? = some (task.to phase) ∧ LoginPhase.Settled phase

/-- A step that activates no login and commits none. -/
structure HolderStep (settings : SessionSettings) (w w' : SessionWorld) : Prop where
  drawn : w'.drawn = w.drawn
  commits : w'.commits = w.commits
  current : ∀ (userId : Uuid) (state : RefreshState), currentRefresh w' userId = some state →
    ∃ state₀, currentRefresh w userId = some state₀ ∧ state₀.sid = state.sid
  logins : LoginsKept w w'
  sessions : ∀ userId, SessionsKept w.db w'.db userId
  requests : ∀ request ∈ w'.requests, request ∈ w.requests ∨ RequestFits settings w' request

section
variable {settings : SessionSettings} {w w' : SessionWorld}

/-- No login moved. -/
theorem LoginsKept.same (h : w'.logins = w.logins) : LoginsKept w w' :=
  fun i => .inl (by rw [h])

/-- One login moved on past its pair. -/
theorem LoginsKept.set {i : Nat} {task : LoginTask} {phase : LoginPhase}
    (htask : w.logins[i]? = some task) (hphase : LoginPhase.Settled phase)
    (hlogins : w'.logins = w.logins.set i (task.to phase)) : LoginsKept w w' := by
  intro j
  rw [hlogins]
  by_cases hij : i = j
  · subst hij
    refine .inr ⟨task, phase, htask, ?_, hphase⟩
    rw [List.getElem?_set_self (List.getElem?_eq_some_iff.mp htask).1]
  · exact .inl (List.getElem?_set_ne hij)

/-- A login after the step, with what it was before. -/
theorem LoginsKept.back (h : LoginsKept w w') {i : Nat} {task' : LoginTask}
    (htask' : w'.logins[i]? = some task') : ∃ task, w.logins[i]? = some task ∧
      task'.userId = task.userId ∧ task'.sessionToken = task.sessionToken ∧
      task'.refreshToken = task.refreshToken ∧ (task'.holdsLock = true → task' = task) := by
  rcases h i with heq | ⟨task, phase, htask, hset, hphase⟩
  · rw [heq] at htask'
    exact ⟨task', htask', rfl, rfl, rfl, fun _ => rfl⟩
  · cases hset.symm.trans htask'
    refine ⟨task, htask, rfl, rfl, rfl, fun hlock => ?_⟩
    rcases hphase with rfl | rfl <;> cases hlock

/-- A login that is settled stays so. -/
theorem LoginsKept.forth (h : LoginsKept w w') {i : Nat} {task : LoginTask}
    (htask : w.logins[i]? = some task) (hsettled : LoginPhase.Settled task.phase) :
    ∃ task', w'.logins[i]? = some task' ∧ task'.userId = task.userId ∧
      task'.sessionToken = task.sessionToken ∧ LoginPhase.Settled task'.phase := by
  rcases h i with heq | ⟨other, phase, hother, hset, hphase⟩
  · exact ⟨task, heq.trans htask, rfl, rfl, hsettled⟩
  · cases hother.symm.trans htask
    exact ⟨_, hset, rfl, rfl, hphase⟩

/-! ### Rows over a step -/

/-- The session of a request keeps its row while rows are only changed. -/
theorem HasRow.forth {db db' : Database} {request : SessionRequest} (h : HasRow db request)
    (hforth : ∀ s ∈ db.sessions, ∃ s' ∈ db'.sessions, SessionKept s s') : HasRow db' request := by
  obtain ⟨s, hs, huser, htoken⟩ := h
  obtain ⟨s', hs', hkept⟩ := hforth s hs
  exact ⟨s', hs', hkept.user.trans huser, hkept.token.trans htoken⟩

/-- A row that is revoked stays so. -/
theorem RowRevoked.forth {db db' : Database} {request : SessionRequest} (h : RowRevoked db request)
    (hforth : ∀ s ∈ db.sessions, ∃ s' ∈ db'.sessions, SessionKept s s') :
    RowRevoked db' request := by
  obtain ⟨s, hs, huser, htoken, hrevoked⟩ := h
  obtain ⟨s', hs', hkept⟩ := hforth s hs
  refine ⟨s', hs', hkept.user.trans huser, hkept.token.trans htoken, ?_⟩
  rw [hkept.revoked hrevoked]
  exact hrevoked

/-- What a request knows stays true while the rows are kept, unless a login of its user commits. -/
theorem RequestFits.forth {request : SessionRequest} (h : RequestFits settings w request)
    (hforth : ∀ s ∈ w.db.sessions, ∃ s' ∈ w'.db.sessions, SessionKept s s')
    (hcommit : ∀ sid, HasRow w.db request → Uncommitted w request.userId sid →
      RowRevoked w'.db request ∨ Uncommitted w' request.userId sid) :
    RequestFits settings w' request := by
  unfold RequestFits at h ⊢
  split at h
  · trivial
  · exact h
  · exact ⟨h.1, h.2.forth hforth⟩
  · exact ⟨h.1, h.2.forth hforth⟩
  · exact ⟨h.1, h.2.forth hforth⟩
  · exact ⟨h.1, h.2.forth hforth⟩
  · obtain ⟨hrow, hrevoked | ⟨state, hstate, hne, huncommitted⟩⟩ := h
    · exact ⟨hrow.forth hforth, .inl (hrevoked.forth hforth)⟩
    · refine ⟨hrow.forth hforth, ?_⟩
      rcases hcommit state.sid hrow huncommitted with hrevoked | hstill
      · exact .inl hrevoked
      · exact .inr ⟨state, hstate, hne, hstill⟩
  · trivial

/-- The invariant over a step that activates no login and commits none. -/
theorem Holders.mono (hh : Holders settings w) (h : HolderStep settings w w') :
    Holders settings w' := by
  -- in the order of the fields: logins keep their tokens and locks, commits do not change, pairs
  -- and sessions are old ones
  constructor
  · intro i task' htask'
    obtain ⟨task, htask, -, htoken, -⟩ := h.logins.back htask'
    rw [h.drawn, htoken]
    exact hh.drawn i task htask
  · intro i j task task' htask htask' heq
    obtain ⟨old, hold, -, htoken, -⟩ := h.logins.back htask
    obtain ⟨old', hold', -, htoken', -⟩ := h.logins.back htask'
    exact hh.distinct i j old old' hold hold' (htoken.symm.trans (heq.trans htoken'))
  · intro i task' htask'
    obtain ⟨task, htask, -, htoken, hrefresh, -⟩ := h.logins.back htask'
    rw [hrefresh, htoken]
    exact hh.sid i task htask
  · intro i j task task' htask htask' hlock hlock' huser
    obtain ⟨old, hold, -, -, -, hsame⟩ := h.logins.back htask
    obtain ⟨old', hold', -, -, -, hsame'⟩ := h.logins.back htask'
    cases hsame hlock
    cases hsame' hlock'
    exact hh.lock i j task task' hold hold' hlock hlock' huser
  · intro i task' state htask' hlock hstate
    obtain ⟨task, htask, -, -, -, hsame⟩ := h.logins.back htask'
    obtain ⟨state₀, hstate₀, hsid⟩ := h.current _ state hstate
    cases hsame hlock
    rw [← hsid]
    exact hh.held i task' state₀ htask hlock hstate₀
  · intro c hc
    rw [h.commits] at hc
    obtain ⟨i, task, htask, huser, hsid, hsettled⟩ := hh.commits c hc
    obtain ⟨task', htask', huser', htoken, hsettled'⟩ := h.logins.forth htask hsettled
    rw [← huser'] at huser
    rw [← htoken] at hsid
    exact ⟨i, task', htask', huser, hsid, hsettled'⟩
  · intro userId state c hstate hc huser hsid s' hs' huser' hopen
    rw [h.commits] at hc
    obtain ⟨state₀, hstate₀, hsame⟩ := h.current userId state hstate
    obtain ⟨s, hs, hkept⟩ := (h.sessions userId).back s' hs' huser'
    -- a session that is open now was open before
    have hwas : s.revokedAt = none := by
      by_contra hrevoked
      exact hrevoked (hkept.revoked hrevoked ▸ hopen)
    rw [hkept.token, ← hsame]
    exact hh.current userId state₀ c hstate₀ hc huser (hsid.trans hsame.symm) s hs
      (hkept.user.symm.trans huser') hwas
  · intro request hrequest
    rcases h.requests request hrequest with hold | hnew
    · refine (hh.requests request hold).forth (fun s hs => (h.sessions s.userId).forth s hs rfl) ?_
      intro sid _ huncommitted
      unfold Uncommitted
      rw [h.commits]
      exact .inr huncommitted
    · exact hnew

/-- A command on one key that writes no other session's state. -/
theorem current_setPair {userId : Uuid} {pair : Pair}
    (hpair : ∀ state, Pair.refreshState pair = some state →
      ∃ state₀, currentRefresh w userId = some state₀ ∧ state₀.sid = state.sid)
    (hredis : w'.redis = (w.setPair userId pair).redis) (other : Uuid) (state : RefreshState)
    (hstate : currentRefresh w' other = some state) :
    ∃ state₀, currentRefresh w other = some state₀ ∧ state₀.sid = state.sid := by
  unfold currentRefresh at hstate
  rw [hredis] at hstate
  by_cases hsame : other = userId
  · subst hsame
    exact hpair state ((congrArg Pair.refreshState (if_pos rfl)).symm.trans hstate)
  · exact ⟨state, (congrArg Pair.refreshState (if_neg hsame)).symm.trans hstate, rfl⟩

/-- A step that leaves requests and logins hands over no refresh key. -/
theorem HolderStep.of_same (hdrawn : w'.drawn = w.drawn) (hcommits : w'.commits = w.commits)
    (hcurrent : ∀ (userId : Uuid) (state : RefreshState), currentRefresh w' userId = some state →
      ∃ state₀, currentRefresh w userId = some state₀ ∧ state₀.sid = state.sid)
    (hlogins : LoginsKept w w') (hrequests : w'.requests = w.requests)
    (hsessions : ∀ userId, SessionsKept w.db w'.db userId) : HolderStep settings w w' :=
  ⟨hdrawn, hcommits, hcurrent, hlogins, hsessions, fun _ hrequest => .inl (hrequests ▸ hrequest)⟩

/-- A step of one request hands over no refresh key when it stores none. -/
theorem HolderStep.of_request (hdrawn : w'.drawn = w.drawn) (hcommits : w'.commits = w.commits)
    (hcurrent : ∀ (userId : Uuid) (state : RefreshState), currentRefresh w' userId = some state →
      ∃ state₀, currentRefresh w userId = some state₀ ∧ state₀.sid = state.sid)
    (hlogins : w'.logins = w.logins) (hsessions : ∀ userId, SessionsKept w.db w'.db userId)
    {i : Nat} {request : SessionRequest} (hrequests : w'.requests = w.requests.set i request)
    (hfits : RequestFits settings w' request) : HolderStep settings w w' := by
  refine ⟨hdrawn, hcommits, hcurrent, .same hlogins, hsessions, fun other hother => ?_⟩
  rw [hrequests] at hother
  rcases List.mem_or_eq_of_mem_set hother with hold | rfl
  · exact .inl hold
  · exact .inr hfits

/-- A key that did not change. -/
theorem current_same (hredis : w'.redis = w.redis) (userId : Uuid) (state : RefreshState)
    (hstate : currentRefresh w' userId = some state) :
    ∃ state₀, currentRefresh w userId = some state₀ ∧ state₀.sid = state.sid := by
  unfold currentRefresh at hstate
  rw [hredis] at hstate
  exact ⟨state, hstate, rfl⟩

/-! ### The steps of a request -/

/-- The first half of a validation compares the token with the session of the request. -/
theorem validateState_sid {now : Timestamp} {sessionToken : Token} {sid : Digest}
    {state : SessionState} {licenseId : Uuid}
    (h : validateState settings now sessionToken (some sid) state = some licenseId) :
    settings.sha256 sessionToken = sid ∧ state.sid = sid := by
  unfold validateState at h
  dsimp only at h
  split at h
  · rename_i hchecks
    have hsid : sid = settings.sha256 sessionToken := hchecks.2.2.1 sid rfl
    exact ⟨hsid.symm, hchecks.2.1.trans hsid.symm⟩
  · cases h

/-- A request whose session has a row reads another session that has committed: the row is
revoked. -/
theorem superseded_fits (hh : Holders settings w) {request : SessionRequest}
    (hsid : settings.sha256 request.sessionToken = request.sid) (hrow : HasRow w.db request)
    {state : RefreshState} (hcurrent : currentRefresh w request.userId = some state)
    (hne : state.sid ≠ request.sid) :
    RowRevoked w.db request ∨ Uncommitted w request.userId state.sid := by
  by_cases hcommitted : Uncommitted w request.userId state.sid
  · exact .inr hcommitted
  · unfold Uncommitted at hcommitted
    push Not at hcommitted
    obtain ⟨c, hc, huser, hstate⟩ := hcommitted
    obtain ⟨s, hs, hsUser, hsToken⟩ := hrow
    refine .inl ⟨s, hs, hsUser, hsToken, fun hopen => hne ?_⟩
    have hopenSid := hh.current request.userId state c hcurrent hc huser hstate s hs hsUser hopen
    rw [← hopenSid, hsToken]
    exact hsid

/-- What a request knows after a step that reads only. -/
theorem RequestMoves.fits (hh : Holders settings w) {request : SessionRequest}
    (hmem : request ∈ w.requests) {phase : RequestPhase}
    (h : RequestMoves settings w request phase) : RequestFits settings w (request.to phase) := by
  have hfits := hh.requests request hmem
  unfold RequestFits at hfits
  cases h with
  | loaded _ _ hvalid => exact (validateState_sid hvalid).1
  | validated hphase hvalid =>
    rw [hphase] at hfits
    obtain ⟨s, hs, huser, htoken, -⟩ := validates_open hvalid
    exact ⟨hfits, s, hs, huser, htoken⟩
  | unauthorized => trivial
  | @superseded state hphase hcurrent hne =>
    rw [hphase] at hfits
    refine ⟨hfits.2, ?_⟩
    rcases superseded_fits hh hfits.1 hfits.2 (loadJson_refresh hcurrent) hne with
      hrevoked | huncommitted
    · exact .inl hrevoked
    · exact .inr ⟨state, rfl, hne, huncommitted⟩
  | replayed hphase =>
    rw [hphase] at hfits
    exact hfits
  | raised => trivial

/-- The transaction of a replay revokes the row. -/
theorem closeSession_revokes {db : Database} {now : Timestamp} {request : SessionRequest}
    (hrow : HasRow db request) (sid : Digest) :
    RowRevoked (db.closeSession now request.userId request.sessionToken sid) request := by
  obtain ⟨s, hs, huser, htoken⟩ := hrow
  let closed := fun s : Session => { s with revokedAt := some now }
  have hmem : ∀ s', (if s.userId = request.userId ∧ s.sessionToken = request.sessionToken ∧
      s.revokedAt = none then closed s else s) = s' →
      s' ∈ (db.closeSession now request.userId request.sessionToken sid).sessions :=
    fun s' heq => mem_updateWhere.mpr ⟨s, hs, heq⟩
  by_cases hopen : s.revokedAt = none
  · exact ⟨closed s, hmem _ (if_pos ⟨huser, htoken, hopen⟩), huser, htoken,
      Option.some_ne_none now⟩
  · exact ⟨s, hmem _ (if_neg fun h => hopen h.2.2), huser, htoken, hopen⟩

/-- What a request knows after its transaction. -/
theorem Closes.fits (hh : Holders settings w) {request : SessionRequest}
    (hmem : request ∈ w.requests) {answer : Answer} (h : Closes request answer) (i : Nat) :
    RequestFits settings (w.close i request answer) (request.to (.answered answer)) := by
  have hfits := hh.requests request hmem
  unfold RequestFits at hfits
  cases h with
  | logout _ _ hanswer =>
    rcases hanswer with rfl | rfl
    · trivial
    · trivial
  | replay hphase hanswer =>
    rw [hphase] at hfits
    have hforth : ∀ s ∈ w.db.sessions, ∃ s' ∈ (w.close i request answer).db.sessions,
        SessionKept s s' :=
      fun s hs => (closeSession_sessions _ _ _ s.userId).forth s hs rfl
    rcases hanswer with rfl | rfl
    · exact ⟨hfits.2.forth hforth, .inl (closeSession_revokes hfits.2 request.sid)⟩
    · trivial

/-- What a rotation leaves in the key belongs to the session that was there. -/
theorem rotate_current {now : Timestamp} {jti : Uuid} {sid : Digest} {replacement : RefreshState}
    {userId : Uuid} {result : Bool × Pair}
    (h : RotateCases now jti sid replacement (w.redis userId) result) (state : RefreshState)
    (hstate : Pair.refreshState result.2 = some state) :
    ∃ state₀, currentRefresh w userId = some state₀ ∧ state₀.sid = state.sid := by
  cases h with
  | refused => exact ⟨state, hstate, rfl⟩
  | cleared => exact absurd hstate refreshState_empty
  | @rotated refresh _ _ _ hrefresh _ _ hsid _ hnew =>
    refine ⟨refresh, ?_, ?_⟩
    · unfold currentRefresh Pair.refreshState
      rw [redisGet_eq_some hrefresh]
      rfl
    · cases hstate
      exact hsid.trans hnew.symm

/-! ### The steps of a login -/

/-- A login that begins holds no key yet. -/
theorem holders_login (hh : Holders settings w) {userId : Uuid} {sessionToken : Token} {jti : Uuid}
    {token : RefreshToken} (hfresh : sessionToken ∉ w.drawn)
    (htoken : token = settings.issue w.now userId (settings.sha256 sessionToken) jti) :
    Holders settings { w with
      drawn := sessionToken :: w.drawn
      issued := token :: w.issued
      logins := w.logins ++ [⟨userId, sessionToken, token, .started⟩] } := by
  -- the session token is fresh, so no other login has it
  have hother : ∀ {i : Nat} {task : LoginTask}, w.logins[i]? = some task →
      task.sessionToken ≠ sessionToken := by
    intro i task htask heq
    exact hfresh (heq ▸ hh.drawn i task htask)
  -- the new login has drawn its token and holds no lock yet
  constructor
  · intro i task htask
    rcases getElem?_append_cases htask with hold | ⟨-, rfl⟩
    · exact List.mem_cons_of_mem _ (hh.drawn i task hold)
    · exact List.mem_cons_self
  · intro i j task task' htask htask' heq
    rcases getElem?_append_cases htask with hold | ⟨hi, rfl⟩
    · rcases getElem?_append_cases htask' with hold' | ⟨-, rfl⟩
      · exact hh.distinct i j task task' hold hold' heq
      · exact absurd heq (hother hold)
    · rcases getElem?_append_cases htask' with hold' | ⟨hj, -⟩
      · exact absurd heq.symm (hother hold')
      · exact hi.trans hj.symm
  · intro i task htask
    rcases getElem?_append_cases htask with hold | ⟨-, rfl⟩
    · exact hh.sid i task hold
    · rw [htoken]
      rfl
  · intro i j task task' htask htask' hlock hlock' huser
    rcases getElem?_append_cases htask with hold | ⟨-, rfl⟩
    · rcases getElem?_append_cases htask' with hold' | ⟨-, rfl⟩
      · exact hh.lock i j task task' hold hold' hlock hlock' huser
      · cases hlock'
    · cases hlock
  · intro i task state htask hlock hstate
    rcases getElem?_append_cases htask with hold | ⟨-, rfl⟩
    · exact hh.held i task state hold hlock hstate
    · cases hlock
  · intro c hc
    obtain ⟨i, task, htask, hrest⟩ := hh.commits c hc
    have hlt := (List.getElem?_eq_some_iff.mp htask).1
    exact ⟨i, task, (List.getElem?_append_left hlt).trans htask, hrest⟩
  · exact hh.current
  · intro request hrequest
    exact (hh.requests request hrequest).forth (fun s hs => ⟨s, hs, .rfl⟩) fun _ _ h => .inr h

/-- No other login of the user holds the lock. -/
theorem not_locked {userId : Uuid} (hlock : w.locked userId = false) {i : Nat} {task : LoginTask}
    (htask : w.logins[i]? = some task) (huser : task.userId = userId) :
    task.holdsLock = false := by
  unfold SessionWorld.locked at hlock
  have hall := List.any_eq_false.mp hlock task (List.mem_of_getElem? htask)
  simpa [huser] using hall

/-- A login that activates its pair holds the key from then on. -/
theorem holders_activated (hinj : Function.Injective settings.sha256) (hh : Holders settings w)
    {i : Nat} {task : LoginTask} {license : License} {phase : LoginPhase}
    (htask : w.logins[i]? = some task) (hstarted : task.phase = .started)
    (hlock : w.locked task.userId = false) :
    Holders settings ((w.setPair task.userId (task.pair settings license)).setLogin i
      (task.to phase)) := by
  have hset : ∀ {j : Nat} {task' : LoginTask}, (w.logins.set i (task.to phase))[j]? = some task' →
      j = i ∧ task' = task.to phase ∨ j ≠ i ∧ w.logins[j]? = some task' :=
    fun h => getElem?_set_cases h
  -- the key of the user holds the new session, and the other keys what they held
  have hread : ∀ (userId : Uuid) (state : RefreshState),
      currentRefresh ((w.setPair task.userId (task.pair settings license)).setLogin i
        (task.to phase)) userId = some state →
      userId = task.userId ∧ state.sid = settings.sha256 task.sessionToken ∨
        userId ≠ task.userId ∧ currentRefresh w userId = some state := by
    intro userId state hstate
    by_cases hsame : userId = task.userId
    · refine .inl ⟨hsame, ?_⟩
      have hpair := (congrArg Pair.refreshState (if_pos hsame)).symm.trans hstate
      cases hpair
      exact hh.sid i task htask
    · exact .inr ⟨hsame, (congrArg Pair.refreshState (if_neg hsame)).symm.trans hstate⟩
  constructor
  · intro j task' htask'
    rcases hset htask' with ⟨rfl, rfl⟩ | ⟨-, hold⟩
    · exact hh.drawn j task htask
    · exact hh.drawn j task' hold
  · intro j k task' task'' htask' htask'' heq
    rcases hset htask' with ⟨rfl, rfl⟩ | ⟨-, hold⟩
    · rcases hset htask'' with ⟨rfl, -⟩ | ⟨-, hold'⟩
      · rfl
      · exact hh.distinct j k task task'' htask hold' heq
    · rcases hset htask'' with ⟨rfl, rfl⟩ | ⟨-, hold'⟩
      · exact hh.distinct j k task' task hold htask heq
      · exact hh.distinct j k task' task'' hold hold' heq
  · intro j task' htask'
    rcases hset htask' with ⟨rfl, rfl⟩ | ⟨-, hold⟩
    · exact hh.sid j task htask
    · exact hh.sid j task' hold
  · intro j k task' task'' htask' htask'' hlock' hlock'' huser
    rcases hset htask' with ⟨rfl, rfl⟩ | ⟨-, hold⟩
    · rcases hset htask'' with ⟨rfl, -⟩ | ⟨-, hold'⟩
      · rfl
      · rw [not_locked hlock hold' huser.symm] at hlock''
        cases hlock''
    · rcases hset htask'' with ⟨rfl, rfl⟩ | ⟨-, hold'⟩
      · rw [not_locked hlock hold huser] at hlock'
        cases hlock'
      · exact hh.lock j k task' task'' hold hold' hlock' hlock'' huser
  · intro j task' state htask' hlock' hstate
    rcases hread _ state hstate with ⟨huser, hsid⟩ | ⟨hne, hold⟩
    · rcases hset htask' with ⟨rfl, rfl⟩ | ⟨-, hold'⟩
      · exact hsid
      · rw [not_locked hlock hold' huser] at hlock'
        cases hlock'
    · rcases hset htask' with ⟨rfl, rfl⟩ | ⟨-, hold'⟩
      · exact absurd rfl hne
      · exact hh.held j task' state hold' hlock' hold
  · intro c hc
    obtain ⟨j, task', htask', huser, hsid, hsettled⟩ := hh.commits c hc
    refine ⟨j, task', ?_, huser, hsid, hsettled⟩
    have hne : i ≠ j := by
      rintro rfl
      cases htask.symm.trans htask'
      rw [hstarted] at hsettled
      rcases hsettled with h | h <;> cases h
    exact (List.getElem?_set_ne hne).trans htask'
  · intro userId state c hstate hc huser hsid s hs hsUser hopen
    rcases hread userId state hstate with ⟨rfl, hnew⟩ | ⟨-, hold⟩
    · -- no commit has the session of a login that has yet to activate it
      obtain ⟨j, task', htask', -, hcSid, hsettled⟩ := hh.commits c hc
      have htokens := hinj (hcSid.symm.trans (hsid.trans hnew))
      cases hh.distinct j i task' task htask' htask htokens
      cases htask.symm.trans htask'
      rw [hstarted] at hsettled
      rcases hsettled with h | h <;> cases h
    · exact hh.current userId state c hold hc huser hsid s hs hsUser hopen
  · intro request hrequest
    exact (hh.requests request hrequest).forth (fun s hs => ⟨s, hs, .rfl⟩) fun _ _ h => .inr h

/-- A login that commits hands its key over to the row of its session. -/
theorem holders_committed (hh : Holders settings w) {i : Nat} {task : LoginTask}
    {startedAt : Timestamp} {license : License} {db : Database} {phase : LoginPhase}
    (htask : w.logins[i]? = some task) (hactivated : task.phase = .activated startedAt license)
    (hopen : w.db.openSession startedAt task.userId task.sessionToken license.validUntil = some db)
    (hphase : LoginPhase.Settled phase) :
    Holders settings ({ w with
      db
      commits := ⟨task.userId, settings.sha256 task.sessionToken, db.nextOutboxId⟩ :: w.commits
    }.setLogin i (task.to phase)) := by
  have hlogins : LoginsKept w ({ w with
      db
      commits := ⟨task.userId, settings.sha256 task.sessionToken, db.nextOutboxId⟩ :: w.commits
    }.setLogin i (task.to phase)) := .set htask hphase rfl
  have hlock : task.holdsLock = true := by
    unfold LoginTask.holdsLock
    rw [hactivated]
  -- an open row of the user is the new one
  have hrow : ∀ s ∈ db.sessions, s.userId = task.userId → s.revokedAt = none →
      s.sessionToken = task.sessionToken := by
    intro s hs huser hnone
    rcases (mem_openSession hopen s).mp hs with hold | rfl
    · exact absurd hnone (revokeSessions_revoked hold huser)
    · rfl
  constructor
  · intro j task' htask'
    obtain ⟨old, hold, -, htoken, -⟩ := hlogins.back htask'
    rw [htoken]
    exact hh.drawn j old hold
  · intro j k task' task'' htask' htask'' heq
    obtain ⟨old, hold, -, htoken, -⟩ := hlogins.back htask'
    obtain ⟨old', hold', -, htoken', -⟩ := hlogins.back htask''
    exact hh.distinct j k old old' hold hold' (htoken.symm.trans (heq.trans htoken'))
  · intro j task' htask'
    obtain ⟨old, hold, -, htoken, hrefresh, -⟩ := hlogins.back htask'
    rw [hrefresh, htoken]
    exact hh.sid j old hold
  · intro j k task' task'' htask' htask'' hlock' hlock'' huser
    obtain ⟨old, hold, -, -, -, hsame⟩ := hlogins.back htask'
    obtain ⟨old', hold', -, -, -, hsame'⟩ := hlogins.back htask''
    cases hsame hlock'
    cases hsame' hlock''
    exact hh.lock j k task' task'' hold hold' hlock' hlock'' huser
  · intro j task' state htask' hlock' hstate
    obtain ⟨old, hold, -, -, -, hsame⟩ := hlogins.back htask'
    cases hsame hlock'
    exact hh.held j task' state hold hlock' hstate
  · intro c hc
    rcases List.mem_cons.mp hc with rfl | hold
    · refine ⟨i, task.to phase, ?_, rfl, rfl, hphase⟩
      exact List.getElem?_set_self (List.getElem?_eq_some_iff.mp htask).1
    · obtain ⟨j, task', htask', huser, hsid, hsettled⟩ := hh.commits c hold
      obtain ⟨task'', htask'', huser', htoken, hsettled'⟩ := hlogins.forth htask' hsettled
      rw [← huser'] at huser
      rw [← htoken] at hsid
      exact ⟨j, task'', htask'', huser, hsid, hsettled'⟩
  · intro userId state c hstate hc huser hsid s hs hsUser hnone
    have hstate₀ : currentRefresh w userId = some state := hstate
    by_cases hsame : userId = task.userId
    · subst hsame
      rw [hrow s hs hsUser hnone]
      exact (hh.held i task state htask hlock hstate₀).symm
    · rcases List.mem_cons.mp hc with rfl | hold
      · exact absurd huser.symm hsame
      · rcases (mem_openSession hopen s).mp hs with hkept | rfl
        · obtain ⟨s₀, hs₀, hk⟩ :=
            (revokeSessions_kept startedAt task.userId).back s hkept hsUser
          have hwas : s₀.revokedAt = none := by
            by_contra hrevoked
            exact hrevoked (hk.revoked hrevoked ▸ hnone)
          rw [hk.token]
          exact hh.current userId state c hstate₀ hold huser hsid s₀ hs₀
            (hk.user.symm.trans hsUser) hwas
        · exact absurd hsUser.symm hsame
  · intro request hrequest
    refine (hh.requests request hrequest).forth (fun s hs => openSession_forth hopen hs) ?_
    intro sid hhas huncommitted
    by_cases huser : task.userId = request.userId
    · -- the commit revokes the rows of its user
      obtain ⟨s, hs, hsUser, hsToken⟩ := hhas
      obtain ⟨s', hs', hkept⟩ := (revokeSessions_kept startedAt task.userId).forth s hs hsUser
      refine .inl ⟨s', (mem_openSession hopen s').mpr (.inl hs'), hkept.user.trans hsUser,
        hkept.token.trans hsToken, ?_⟩
      exact revokeSessions_revoked hs' (hkept.user.trans (hsUser.trans huser.symm))
    · refine .inr fun c hc hcUser => ?_
      rcases List.mem_cons.mp hc with rfl | hold
      · exact absurd hcUser huser
      · exact huncommitted c hold hcUser

/-! ### The runs -/

/-- The phase of a request whose rotation ended. -/
theorem rotate_fits (hh : Holders settings w) {request : SessionRequest}
    (hmem : request ∈ w.requests) {replacement : RefreshToken}
    (hphase : request.phase = .issued replacement) (lost rotated : Bool) (hdb : w'.db = w.db) :
    RequestFits settings w' (request.to (if lost then .answered .raised
      else if rotated then .answered .rotated else .unrotated)) := by
  have hfits := hh.requests request hmem
  unfold RequestFits at hfits
  rw [hphase] at hfits
  cases lost with
  | true => trivial
  | false =>
    cases rotated with
    | true => trivial
    | false => exact ⟨hfits.1, show HasRow w'.db _ by rw [hdb]; exact hfits.2⟩

/-- Every step keeps the invariant. -/
theorem holders_step (hinj : Function.Injective settings.sha256) (hh : Holders settings w)
    {a : SessionAct} (h : SessionCases settings w a w') : Holders settings w' := by
  -- logins take locks and write pairs, requests only note what they have seen
  cases h with
  | tick =>
    exact hh.mono (.of_same rfl rfl (current_same rfl) (.same rfl) rfl fun _ => .rfl)
  | login hfresh _ htoken => exact holders_login hh hfresh htoken
  | loginMoved htask hphase =>
    exact hh.mono (.of_same rfl rfl (current_same rfl) (.set htask hphase rfl) rfl fun _ => .rfl)
  | activated htask hstarted hlock _ _ => exact holders_activated hinj hh htask hstarted hlock
  | committed htask hactivated hopen hphase =>
    exact holders_committed hh htask hactivated hopen hphase
  | compensated htask _ hdelete =>
    refine hh.mono (.of_same rfl rfl (current_setPair ?_ rfl) (.set htask (.inl rfl) rfl) rfl
      fun _ => .rfl)
    exact fun state hstate => ⟨state, (deleteIfSid_cases hdelete).refreshState hstate, rfl⟩
  | requested hgenuine =>
    refine hh.mono ⟨rfl, rfl, current_same rfl, .same rfl, fun _ => .rfl, fun other hother => ?_⟩
    rcases List.mem_append.mp hother with hold | hnew
    · exact .inl hold
    · rw [List.mem_singleton.mp hnew]
      exact .inr trivial
  | requestMoved hrequest hmoves =>
    have hfits := hmoves.fits hh (List.mem_of_getElem? hrequest)
    exact hh.mono (.of_request rfl rfl (current_same rfl) rfl (fun _ => .rfl) rfl hfits)
  | @closed _ i request answer hrequest hcloses =>
    have hfits := hcloses.fits hh (List.mem_of_getElem? hrequest) i
    refine hh.mono (.of_request rfl rfl (current_same rfl) rfl ?_ rfl hfits)
    exact closeSession_sessions _ _ _
  | @issued i jti request token replacement hrequest hphase _ _ _ =>
    have hfits := hh.requests request (List.mem_of_getElem? hrequest)
    unfold RequestFits at hfits
    rw [hphase] at hfits
    exact hh.mono (.of_request rfl rfl (current_same rfl) rfl (fun _ => .rfl) rfl hfits)
  -- the rotation compares and replaces the refresh state of one pair
  | @rotated i lost request token replacement hrequest hphase hkind =>
    refine hh.mono (.of_request rfl rfl (current_setPair ?_ rfl) rfl (fun _ => .rfl) rfl ?_)
    · exact rotate_current (rotateRefresh_cases _ _ _ _)
    · exact rotate_fits hh (List.mem_of_getElem? hrequest) hphase lost _ rfl
  | admin hserve =>
    exact hh.mono (.of_same rfl rfl (current_same rfl) (.same rfl) rfl (serve_sessions hserve))
  | adminRaised => exact hh
  | fetched =>
    exact hh.mono (.of_same rfl rfl (current_same rfl) (.same rfl) rfl fun _ => .rfl)
  | passMoved =>
    exact hh.mono (.of_same rfl rfl (current_same rfl) (.same rfl) rfl fun _ => .rfl)
  | updated =>
    exact hh.mono (.of_same rfl rfl (current_same rfl) (.same rfl) rfl (reconcile_sessions _ _))
  | commanded _ _ hcommand =>
    refine hh.mono (.of_same rfl rfl (current_setPair ?_ rfl) (.same rfl) rfl fun _ => .rfl)
    exact fun state hstate => ⟨state, (rowCommand_cases hcommand).refreshState hstate, rfl⟩
  | marked _ hdb =>
    exact hh.mono (.of_same rfl rfl (current_same rfl) (.same rfl) rfl (mark_sessions hdb))
  | passEnded =>
    exact hh.mono (.of_same rfl rfl (current_same rfl) (.same rfl) rfl fun _ => .rfl)

/-- The invariant of the reachable states. -/
theorem holders_reachable (hinj : Function.Injective settings.sha256) {db : Database}
    {now : Timestamp} (h : Reachable (sessionMachine settings db now) Any w) :
    Holders settings w := by
  refine h.invariant (I := Holders settings) ?_
    fun s a s' _ _ hstep hh => holders_step hinj hh (session_cases hstep)
  constructor
  all_goals
    intros
    simp_all [sessionMachine]

/-- A refresh token is accepted once at most. A request that is told that its token was already
consumed finds the row of its session revoked, or it has read in the refresh key of the user
another session, of a login that has not committed. -/
theorem refresh_single_use (hinj : Function.Injective settings.sha256) {db : Database}
    {now : Timestamp} (h : Reachable (sessionMachine settings db now) Any w) :
    w.accepted.Nodup ∧ ∀ request ∈ w.requests, ∀ token reread, request.kind = .refresh token →
      request.phase = .answered (.consumed reread) → RowRevoked w.db request ∨
        ∃ current, reread = some current ∧ current.sid ≠ token.sid ∧
          Uncommitted w request.userId current.sid := by
  refine ⟨(tokens_reachable h).once, fun request hrequest token reread hkind hphase => ?_⟩
  have hfits := (holders_reachable hinj h).requests request hrequest
  unfold RequestFits at hfits
  rw [hphase] at hfits
  have hsid : request.sid = token.sid := by
    unfold SessionRequest.sid
    rw [hkind]
  rw [← hsid]
  exact hfits.2

end

/-! ### A replay during another login -/

/-- A refresh of the user's session that draws `jti`, up to its rotation. -/
def refreshRun (i : Nat) (sessionToken : Token) (token : RefreshToken) (jti : Uuid) :
    List SessionAct :=
  [.request 2 sessionToken (.refresh token), .load i, .validate i, .issue i jti]

/-- The first refresh token. -/
def firstToken : RefreshToken := ⟨2, 101, 1, 605⟩

/-- A login, and a refresh. -/
def refreshed : List SessionAct :=
  loginRun 0 101 1 ++ refreshRun 0 101 firstToken 2 ++ [.rotate 0 false]

/-- The first token comes again. Before its rotation, another login of the user activates its
pair. -/
def replayRun : List SessionAct :=
  refreshed ++ refreshRun 1 101 firstToken 3 ++ [.login 2 102 4, .activate 1 false, .rotate 1 false,
    .reread 1]

/-- The replay is told that its token was consumed, and the row of its session is open. -/
theorem replay_during_login : ¬ ∀ settings : SessionSettings, Function.Injective settings.sha256 →
    ∀ (db : Database) (now : Timestamp) (w : SessionWorld),
      Reachable (sessionMachine settings db now) Any w →
      w.accepted.Nodup ∧ ∀ request ∈ w.requests, ∀ token reread, request.kind = .refresh token →
        request.phase = .answered (.consumed reread) → RowRevoked w.db request := by
  intro hclaim
  let M := sessionMachine plainSettings staffAccounts 5000000
  have hreach : Reachable M Any (M.final M.init replayRun) :=
    Reachable.init.final replayRun (by decide)
  obtain ⟨-, hrevoked⟩ := hclaim plainSettings Function.injective_id staffAccounts 5000000 _ hreach
  let replay : SessionRequest := ⟨2, 101, .refresh firstToken,
    .answered (.consumed (some ⟨4, 4, 102, 605⟩))⟩
  have hmem : replay ∈ (M.final M.init replayRun).requests := by decide
  obtain ⟨s, hs, -, htoken, hclosed⟩ := hrevoked replay hmem firstToken _ rfl rfl
  have hopen : ∀ s ∈ (M.final M.init replayRun).db.sessions.rows,
      s.sessionToken = 101 → s.revokedAt = none := by decide
  exact hclosed (hopen s hs htoken)

/-- The second use of the first token without another login: it revokes the row. -/
theorem refresh_single_use_replay :
    let M := sessionMachine plainSettings staffAccounts 5000000
    let w := M.final M.init (refreshed ++ refreshRun 1 101 firstToken 3 ++
      [.rotate 1 false, .reread 1, .revoke 1 false])
    w.accepted.Nodup ∧ ∀ request ∈ w.requests, ∀ token reread, request.kind = .refresh token →
      request.phase = .answered (.consumed reread) → RowRevoked w.db request ∨
        ∃ current, reread = some current ∧ current.sid ≠ token.sid ∧
          Uncommitted w request.userId current.sid :=
  @refresh_single_use plainSettings _ Function.injective_id _ _
    (Reachable.init.final _ (by decide))

end Rsap.Proofs
