import Rsap.Proofs.PairExpiry
import Rsap.Webapp.PairWorld

/-!
# `Rsap.Proofs.PairCoherence`: the two keys of a user belong together

Every command that writes a key writes both of them or keeps what ties them together: one `sid`,
one `refresh_expires_at`, and the two expiries that the stored licence allows (`Tied`). The
`session_expires_at` of the session is the one that its login stored (`Anchors`), so no refresh
and no reconciliation moves it.

`pair_coherent` is the result for the keys that Redis shows. `world_pair` says that the keys of a
user among all logins, requests and outbox passes are such a pair.
-/

set_option autoImplicit false

namespace Rsap.Proofs

open Rsap.Desktop (Uuid Timestamp Token)
open Rsap.Library Rsap.Library.Machine
open Rsap.Webapp

/-- The values and the expiries of the two keys belong together. -/
structure Tied (session : Entry SessionState) (refresh : Entry RefreshState) : Prop where
  fit : ∃ state refreshState, session.value = some state ∧ refresh.value = some refreshState ∧
    state.sid = refreshState.sid ∧ state.refreshExpiresAt = refreshState.refreshExpiresAt ∧
      session.expireAt = min state.sessionExpiresAt state.licenseExpiresAt ∧
      refresh.expireAt = min refreshState.refreshExpiresAt state.licenseExpiresAt

/-- The session key holds the session of the login, and expires with it or before. -/
structure Anchors (login : SessionState) (session : Entry SessionState) : Prop where
  held : ∃ state, session.value = some state ∧ state.sid = login.sid ∧
    state.sessionExpiresAt = login.sessionExpiresAt
  bounded : session.expireAt ≤ login.sessionExpiresAt

/-- What holds of the stored keys. -/
structure PairSound (w : PairWorld) : Prop where
  tied : ∀ session refresh, w.pair.session = some session → w.pair.refresh = some refresh →
    Tied session refresh
  anchored : ∀ session, w.pair.session = some session →
    ∃ login, w.logins.head? = some login ∧ Anchors login session

section
variable {settings : SessionSettings} {userId : Uuid} {w w' : PairWorld} {pair : Pair}

/-- A command that only removes keys keeps what is left. -/
theorem PairSound.sub (h : PairSound w)
    (hsession : ∀ entry, pair.session = some entry → w.pair.session = some entry)
    (hrefresh : ∀ entry, pair.refresh = some entry → w.pair.refresh = some entry) :
    PairSound { w with pair } where
  tied session refresh hs hr := h.tied session refresh (hsession session hs) (hrefresh refresh hr)
  anchored session hs := h.anchored session (hsession session hs)

/-- A command that writes both keys anew for the session that it found. -/
theorem PairSound.rewrite (h : PairSound w) {old state : SessionState} {sessionAt : Nat}
    {refresh : RefreshState} (hold : w.pair.session = some ⟨some old, sessionAt⟩)
    (hsid : state.sid = old.sid) (hexpires : state.sessionExpiresAt = old.sessionExpiresAt)
    (hpair : state.sid = refresh.sid) (hlast : state.refreshExpiresAt = refresh.refreshExpiresAt)
    {sessionAt' refreshAt' : Nat}
    (hs' : sessionAt' = min state.sessionExpiresAt state.licenseExpiresAt)
    (hr' : refreshAt' = min refresh.refreshExpiresAt state.licenseExpiresAt) :
    PairSound { w with pair := activateSession state refresh sessionAt' refreshAt' } := by
  constructor
  · intro session' refresh' hs hr
    cases hs
    cases hr
    exact ⟨state, refresh, rfl, rfl, hpair, hlast, hs', hr'⟩
  · intro session' hs
    cases hs
    obtain ⟨login, hlogin, ⟨old', hvalue, hsid', hexpires'⟩, -⟩ := h.anchored _ hold
    cases hvalue
    refine ⟨login, hlogin, ⟨state, rfl, hsid.trans hsid', hexpires.trans hexpires'⟩, ?_⟩
    show sessionAt' ≤ login.sessionExpiresAt
    omega

/-- `activate_session`, as a login calls it. -/
theorem pairSound_activate (w : PairWorld) {sessionToken : Token} {refreshToken : RefreshToken}
    (hsid : refreshToken.sid = settings.sha256 sessionToken) (license : License) :
    PairSound { w with
      pair := LoginTask.pair settings ⟨userId, sessionToken, refreshToken, .started⟩ license
      logins := LoginTask.state settings ⟨userId, sessionToken, refreshToken, .started⟩ license ::
        w.logins } := by
  constructor
  · intro session refresh hs hr
    cases hs
    cases hr
    exact ⟨_, _, rfl, rfl, hsid.symm, rfl, rfl, rfl⟩
  · intro session hs
    cases hs
    refine ⟨_, rfl, ⟨_, rfl, rfl, rfl⟩, ?_⟩
    show min refreshToken.exp (seconds license.validUntil) ≤ refreshToken.exp
    omega

/-- `ROTATE_REFRESH_LUA`. -/
theorem pairSound_rotate (h : PairSound w) (tokenHash : Digest) (jti : Uuid) (sid : Digest)
    (replacement : RefreshState) :
    PairSound { w with pair := (rotateRefresh w.now tokenHash jti sid replacement w.pair).2 } := by
  have hcases : RotateCases w.now jti sid replacement w.pair
      (rotateRefresh w.now tokenHash jti sid replacement w.pair) :=
    rotateRefresh_cases tokenHash jti sid replacement
  generalize rotateRefresh w.now tokenHash jti sid replacement w.pair = result at hcases ⊢
  cases hcases with
  | refused => exact h
  | cleared => exact h.sub nofun nofun
  | rotated _ hsession _ _ hsid hnew =>
    refine h.rewrite (redisGet_eq_some hsession) ?_ ?_ ?_ ?_ ?_ ?_
    · rfl
    · rfl
    · exact hsid.trans hnew.symm
    all_goals rfl

/-- `RECONCILE_LUA`. -/
theorem pairSound_reconcile (h : PairSound w) (sid : Option Digest) (license : License) :
    PairSound { w with pair := reconcilePair w.now sid license w.pair } := by
  unfold reconcilePair
  split
  · rename_i session sessionAt refresh refreshAt hsession hrefresh
    split
    · exact h.sub nofun nofun
    · rename_i hsame
      rw [not_or, not_not] at hsame
      dsimp only
      split
      · exact h
      · split
        · exact h.sub nofun nofun
        · -- the licence is written into the session, and both keys get their new expiry
          refine h.rewrite (redisGet_eq_some hsession) ?_ ?_ ?_ ?_ ?_ ?_
          · rfl
          · rfl
          · exact hsame.1
          all_goals rfl
  · exact h.sub nofun nofun

/-- `DELETE_IF_SID_LUA`. -/
theorem pairSound_deleteIfSid (h : PairSound w) (sid : Digest) :
    PairSound { w with pair := (deleteIfSid w.now sid w.pair).getD w.pair } := by
  cases hdelete : deleteIfSid w.now sid w.pair with
  | none => exact h
  | some pair =>
    show PairSound { w with pair }
    cases deleteIfSid_cases hdelete with
    | unseen => exact h.sub (fun _ hs => hs) nofun
    | other => exact h
    | deleted => exact h.sub nofun nofun

/-- Every command keeps the keys together. -/
theorem pairSound_step {now : Timestamp} {a : PairAct}
    (hstep : (pairMachine settings userId now).step w a = some w') (h : PairSound w) :
    PairSound w' := by
  cases a with
  | tick later =>
    simp only [pairMachine, PairWorld.step] at hstep
    split at hstep <;> cases hstep
    exact ⟨h.tied, h.anchored⟩
  | activate sessionToken refreshToken license =>
    simp only [pairMachine, PairWorld.step] at hstep
    split at hstep
    · rename_i hsid
      cases hstep
      exact pairSound_activate w hsid license
    · cases hstep
  | rotate tokenHash jti sid replacement =>
    cases hstep
    exact pairSound_rotate h tokenHash jti sid replacement
  | reconcile sid license =>
    cases hstep
    exact pairSound_reconcile h sid license
  | deleteIfSid sid =>
    cases hstep
    exact pairSound_deleteIfSid h sid
  -- a deletion or an expiry leaves nothing that could be out of step
  | delete =>
    cases hstep
    exact h.sub nofun nofun
  | expire =>
    cases hstep
    exact h.sub (fun _ hs => redisGet_eq_some hs) fun _ hr => redisGet_eq_some hr

/-- The pair is coherent in every reachable state. -/
theorem pairSound_reachable {now : Timestamp}
    (h : Reachable (pairMachine settings userId now) Any w) : PairSound w :=
  h.invariant ⟨fun _ _ hs => (by cases hs), fun _ hs => (by cases hs)⟩
    fun _ _ _ _ _ hstep => pairSound_step hstep

/-- The keys of a user are coherent and bounded. Whenever Redis shows both, they carry one `sid`
and one `refresh_expires_at`, and each expires at its own end or at that of the stored licence,
whichever is first. A session key that Redis shows has the `session_expires_at` of the last login,
and neither its expiry nor the clock is past it. -/
theorem pair_coherent {now : Timestamp} (h : Reachable (pairMachine settings userId now) Any w) :
    (∀ session refresh, redisGet w.now w.pair.session = some session →
      redisGet w.now w.pair.refresh = some refresh →
      ∃ state refreshState, session.value = some state ∧ refresh.value = some refreshState ∧
        state.sid = refreshState.sid ∧ state.refreshExpiresAt = refreshState.refreshExpiresAt ∧
        session.expireAt = min state.sessionExpiresAt state.licenseExpiresAt ∧
        refresh.expireAt = min refreshState.refreshExpiresAt state.licenseExpiresAt) ∧
    ∀ session, redisGet w.now w.pair.session = some session →
      ∃ state login, session.value = some state ∧ w.logins.head? = some login ∧
        state.sid = login.sid ∧ state.sessionExpiresAt = login.sessionExpiresAt ∧
        session.expireAt ≤ login.sessionExpiresAt ∧
        w.now / 1000 ≤ login.sessionExpiresAt * 1000 := by
  have hsound := pairSound_reachable h
  constructor
  · intro session refresh hs hr
    exact (hsound.tied session refresh (redisGet_eq_some hs) (redisGet_eq_some hr)).fit
  · intro session hs
    obtain ⟨login, hlogin, ⟨state, hvalue, hsid, hexpires⟩, hle⟩ :=
      hsound.anchored session (redisGet_eq_some hs)
    refine ⟨state, login, hvalue, hlogin, hsid, hexpires, hle, ?_⟩
    have hvisible : w.now / 1000 ≤ session.expireAt * 1000 :=
      of_decide_eq_true (Option.filter_eq_some_iff.mp hs).2
    exact hvisible.trans (Nat.mul_le_mul_right 1000 hle)

/-- A session under a licence of 500 seconds is refreshed, and then the licence is extended to 900
seconds. The refresh token would last 700 seconds, and the session of the login 600. -/
def extendedSession : List PairAct :=
  let license : License := ⟨11, 2, "k", [], 8, [], 0, 500000000, true, none, 0, 0⟩
  [.activate 40 ⟨2, 40, 50, 600⟩ license, .tick 100000000,
    .rotate 50 50 40 ⟨51, 51, 40, 700⟩,
    .reconcile (some 40) { license with validUntil := 900000000 }]

/-- A pair whose licence is extended. -/
theorem pair_coherent_extended :
    let w := (pairMachine plainSettings 2 0).final ⟨0, .empty, []⟩ extendedSession
    w.pair.session.map Entry.expireAt = some 600 ∧ w.pair.refresh.map Entry.expireAt = some 700 ∧
      ∀ session, redisGet w.now w.pair.session = some session →
        ∃ login, w.logins.head? = some login ∧ session.expireAt ≤ login.sessionExpiresAt := by
  refine ⟨by decide +kernel, by decide +kernel, fun session hs => ?_⟩
  have hreach : Reachable (pairMachine plainSettings 2 0) Any
      ((pairMachine plainSettings 2 0).final ⟨0, .empty, []⟩ extendedSession) :=
    .final .init extendedSession (by decide +kernel)
  obtain ⟨_, login, -, hlogin, -, -, hle, -⟩ := (pair_coherent hreach).2 session hs
  exact ⟨login, hlogin, hle⟩

/-! ### The keys among logins, requests and outbox passes -/

/-- A command of an outbox row is a command on the keys. -/
theorem command_pair {now : Timestamp} (hreach : Reachable (pairMachine settings userId now) Any w)
    {row : OutboxRow} {license : Option License}
    (h : row.command w.now license w.pair = some pair) :
    ∃ w', Reachable (pairMachine settings userId now) Any w' ∧ w'.now = w.now ∧ w'.pair = pair := by
  unfold OutboxRow.command at h
  split at h
  · rename_i sid _ _
    refine ⟨_, hreach.step (.deleteIfSid sid) trivial rfl, rfl, ?_⟩
    show (deleteIfSid w.now sid w.pair).getD w.pair = pair
    rw [h]
    rfl
  · cases h
    exact ⟨_, hreach.step .delete trivial rfl, rfl, rfl⟩
  · cases h
    exact ⟨_, hreach.step .delete trivial rfl, rfl, rfl⟩
  · rename_i current _
    cases h
    exact ⟨_, hreach.step (.reconcile row.sid current) trivial rfl, rfl, rfl⟩

/-- The keys of a user in a reachable state of the whole system are a reachable pair. -/
theorem world_pair (hinj : Function.Injective settings.sha256) {db : Database} {now : Timestamp}
    {s : SessionWorld} (h : Reachable (sessionMachine settings db now) Any s) (userId : Uuid) :
    ∃ w, Reachable (pairMachine settings userId now) Any w ∧ w.now = s.now ∧
      w.pair = s.redis userId := by
  induction h with
  | init => exact ⟨_, .init, rfl, rfl⟩
  | @step s s' a hreach _ hstep ih =>
    obtain ⟨w, hw, hnow, hpair⟩ := ih
    -- a command on the keys of one user is one on these keys, or it leaves them alone
    have hset : ∀ (user : Uuid) (pair : Pair), s'.now = s.now →
        s'.redis = (s.setPair user pair).redis →
        (user = userId → ∃ w', Reachable (pairMachine settings userId now) Any w' ∧
          w'.now = w.now ∧ w'.pair = pair) →
        ∃ w', Reachable (pairMachine settings userId now) Any w' ∧ w'.now = s'.now ∧
          w'.pair = s'.redis userId := by
      intro user pair hnow' hredis hcommand
      by_cases hsame : userId = user
      · obtain ⟨w', hw', hnow'', hpair'⟩ := hcommand hsame.symm
        refine ⟨w', hw', (hnow''.trans hnow).trans hnow'.symm, ?_⟩
        rw [hpair', hredis]
        exact (if_pos hsame).symm
      · refine ⟨w, hw, hnow.trans hnow'.symm, ?_⟩
        rw [hpair, hredis]
        exact (if_neg hsame).symm
    cases session_cases hstep with
    | @tick later hle =>
      refine ⟨{ w with now := later }, hw.step (.tick later) trivial ?_, rfl, hpair⟩
      exact if_pos (hnow ▸ hle)
    | @activated i _ task license _ htask =>
      refine hset task.userId (task.pair settings license) rfl rfl ?_
      rintro rfl
      refine ⟨_, hw.step (.activate task.sessionToken task.refreshToken license) trivial
        (if_pos ((holders_reachable hinj hreach).sid i task htask)), rfl, rfl⟩
    | @compensated _ task pair _ _ hdelete =>
      refine hset task.userId pair rfl rfl ?_
      rintro rfl
      refine ⟨_, hw.step (.deleteIfSid (settings.sha256 task.sessionToken)) trivial rfl, rfl, ?_⟩
      show (deleteIfSid w.now (settings.sha256 task.sessionToken) w.pair).getD w.pair = pair
      rw [hnow, hpair, hdelete]
      rfl
    | @rotated _ _ request token replacement =>
      refine hset request.userId _ rfl rfl ?_
      rintro rfl
      refine ⟨_, hw.step (.rotate (settings.refreshHash token) token.jti token.sid
        (replacement.state settings)) trivial rfl, rfl, ?_⟩
      show (rotateRefresh w.now _ _ _ _ w.pair).2 = _
      rw [hnow, hpair]
    | @commanded _ _ row _ _ _ license pair _ _ hcommand =>
      refine hset row.userId pair rfl rfl ?_
      rintro rfl
      rw [← hnow, ← hpair] at hcommand
      exact command_pair hw hcommand
    | login | loginMoved | committed | requested | requestMoved | closed | issued | admin
      | adminRaised | fetched | passMoved | updated | marked | passEnded =>
      exact ⟨w, hw, hnow, hpair⟩

end

end Rsap.Proofs
