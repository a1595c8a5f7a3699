import Rsap.Proofs.SessionRow

/-!
# `Rsap.Proofs.Logout`: a logout is final

`step_sessionRow` says what a step makes of the session row: the row descends from the old one,
with the same session token and user, or the login that holds the lock has installed it.

Once `begin_revocation` has committed for a session, a row with the session's token is pending
(`RevokedStay`). A refresh cannot bring the session back, since `replace_active` asks for an
active row, and a login brings a fresh token. The store alone carries this, so a crash changes
nothing. `logout_final` says it of `authenticate`.
-/

set_option autoImplicit false

namespace Rsap.Proofs

open Rsap.Library
open Rsap.Library.Machine (Reachable Path Any)
open Rsap.Desktop

/-! ### What a step makes of the session row -/

/-- The row goes on with the session of the old row, with the old status or pending. -/
structure Descends (row row' : SessionRow) : Prop where
  token : row'.session.sessionToken = row.session.sessionToken
  userId : row'.userId = row.userId
  status : row'.status = row.status ∨ row'.status = .revocationPending

/-- The login of this session holds the lock, and its `save` made the row. -/
structure Installed (w : World) (row' : SessionRow) : Prop where
  login : ∃ expiry, w.auth = some (.loginSave row'.session expiry)
  userId : row'.session.userId = some row'.userId
  status : row'.status = .active

section Worlds
variable {settings : Settings} {ok : World → Act → Prop} {w w' : World} {a : Act}

/-- A row that is kept descends from the one before. -/
theorem RowKept.descends {row row' : SessionRow} (h : RowKept row row') : Descends row row' :=
  ⟨congrArg LocalSession.sessionToken h.session, h.userId, .inl h.status⟩

/-- The row after a step descends from the old row, or the login that holds the lock has
installed it. -/
theorem step_sessionRow (hbound : AuthBound w) (hstep : StepCases settings w a w')
    {row' : SessionRow} (h : w'.store.db.localSession = some row') :
    (∃ row, w.store.db.localSession = some row ∧ Descends row row') ∨ Installed w row' := by
  cases step_write hstep with
  | none hstore =>
    rw [hstore] at h
    exact .inl ⟨row', h, rfl, rfl, .inl rfl⟩
  | free happly hfree =>
    obtain ⟨row, hrow, hkept⟩ := freeWrite_session (.inr ⟨_, _, happly, hfree⟩) h
    exact .inl ⟨row, hrow, hkept.descends⟩
  | @auth task op reply now itemId claimToken _ hauth hop happly =>
    obtain ⟨-, -, -, hdb, -, -⟩ := apply_step happly
    rw [hdb] at h
    have hcases := sessionRow_cases w.store.db op
    rw [h] at hcases
    generalize hbefore : w.store.db.localSession = before at hcases
    cases hcases with
    | kept => exact .inl ⟨row', rfl, rfl, rfl, .inl rfl⟩
    | saved huser =>
      cases task <;> cases hop
      exact .inr ⟨⟨_, hauth⟩, huser, rfl⟩
    | @replaced _ session _ row hrow hactive =>
      -- the row is of the generation that the refresh read, so it holds the same session
      cases task with
      | refreshReplace record validUntil replacement =>
        simp only [AuthTask.op, Option.some.injEq, Op.replaceActive.injEq] at hop
        obtain ⟨-, rfl, -, hgeneration⟩ := hop
        have hold := (hbound.bound _ hauth _ _ rfl row (hbefore.trans hrow)).2 hgeneration.symm
        have hnew := hbound.replacement _ _ _ hauth
        exact .inl ⟨row, hrow, hnew.trans hold.symm, rfl, .inl rfl⟩
      | _ => cases hop
    | marked hrow | revoked hrow => exact .inl ⟨_, hrow, rfl, rfl, .inr rfl⟩
    | noted hrow => exact .inl ⟨_, hrow, rfl, rfl, .inl rfl⟩

/-- Issued session tokens stay issued. -/
theorem issued_mono (hstep : StepCases settings w a w') {token : Token}
    (h : token ∈ w.central.issued) : token ∈ w'.central.issued := by
  -- an answer issues no token
  have hanswer : ∀ {session request applied outcome central},
      w.central.answer session request applied outcome = some central →
      central.issued = w.central.issued := by
    intro session request applied outcome central hanswer
    simp only [Central.answer] at hanswer
    have hnote : ∀ c : Central, (Central.note session request applied outcome c).issued =
        c.issued := fun c => by
      unfold Central.note
      split <;> rfl
    split at hanswer
    · obtain ⟨handled, hhandle, rfl⟩ := Option.map_eq_some_iff.mp hanswer
      rw [hnote]
      simp only [Central.handle] at hhandle
      split at hhandle
      · obtain ⟨cameras, -, rfl⟩ := Option.map_eq_some_iff.mp hhandle
        rfl
      · cases hhandle
    · split at hanswer <;> cases hanswer
      exact hnote _
  cases hstep with
  | op | flush | claimed | claimRaised | settled | purged | license | logout | refresh | authWrite
    | authenticate | clear | expire | crash => exact h
  | attempted _ _ hcentral | attemptRaised _ _ hcentral | authLogout _ _ hcentral =>
    show token ∈ Central.issued _
    rw [hanswer hcentral]
    exact h
  -- a login and a refresh add one
  | login => exact List.mem_cons_of_mem _ h
  | authRefresh _ hcentral => rcases hcentral with rfl | ⟨_, rfl⟩ <;> exact h

/-! ### Revoked sessions -/

/-- The session that a login goes on to install. -/
def loginSession : AuthTask → Option LocalSession
  | .loginLicense session => some session
  | .loginSave session _ => some session
  | _ => none

/-- Revoked sessions are not installed, and a row that still holds one is pending. -/
structure RevokedStay (w : World) : Prop where
  rowIssued : ∀ row, w.store.db.localSession = some row →
    row.session.sessionToken ∈ w.central.issued
  issued : ∀ r ∈ w.revocations, r.sessionToken ∈ w.central.issued
  loginIssued : ∀ task, w.auth = some task → ∀ session, loginSession task = some session →
    session.sessionToken ∈ w.central.issued
  login : ∀ task, w.auth = some task → ∀ session, loginSession task = some session →
    ∀ r ∈ w.revocations, r.sessionToken ≠ session.sessionToken
  pending : ∀ r ∈ w.revocations, ∀ row, w.store.db.localSession = some row →
    row.session.sessionToken = r.sessionToken → row.status = .revocationPending

/-- A revocation after a step is an old one, or the logout that holds the lock has started it:
the row holds its session, and it is pending after the step. -/
theorem step_revocations (hstep : StepCases settings w a w') {r : Revocation}
    (hr : r ∈ w'.revocations) :
    r ∈ w.revocations ∨ ∃ record row row', w.auth = some (.logoutBegin record) ∧
      w.store.db.localSession = some row ∧ row.session.sessionToken = r.sessionToken ∧
      row.userId = r.userId ∧ w'.store.db.localSession = some row' ∧
      row'.status = .revocationPending := by
  cases step_write hstep with
  | none _ hrevocations | free _ _ hrevocations => exact .inl (hrevocations ▸ hr)
  | auth _ hauth hop happly _ hrevocations =>
    rw [hrevocations] at hr
    refine (List.mem_append.mp hr).symm.imp_right fun hnew => ?_
    unfold World.started at hnew
    split at hnew
    · rename_i record generation itemId token row hrow _
      cases hop
      cases List.mem_singleton.mp hnew
      obtain ⟨-, hreply, -, hdb, -, -⟩ := apply_step happly
      obtain ⟨_, hfound, -, -, -, -, hrun⟩ := beginRevocation_started hreply.symm
      cases hrow.symm.trans hfound
      have hafter := congrArg Db.localSession (hdb.trans (congrArg Prod.fst hrun))
      exact ⟨record, row, _, hauth, hrow, rfl, rfl, hafter, rfl⟩
    · cases hnew

/-- A step keeps revoked sessions from coming back. -/
theorem revokedStay_step (hbound : AuthBound w) (hstep : StepCases settings w a w')
    (h : RevokedStay w) : RevokedStay w' := by
  have hmono : ∀ {token}, token ∈ w.central.issued → token ∈ w'.central.issued :=
    issued_mono hstep
  refine ⟨fun row' hrow' => ?_, fun r hr => ?_, fun task' htask' session hsession => ?_,
    fun task' htask' session hsession r hr => ?_, fun r hr row' hrow' htoken => ?_⟩
  · rcases step_sessionRow hbound hstep hrow' with ⟨row, hrow, hdescends⟩ | hinstalled
    · rw [hdescends.token]
      exact hmono (h.rowIssued row hrow)
    · obtain ⟨expiry, hauth⟩ := hinstalled.login
      exact hmono (h.loginIssued _ hauth _ rfl)
  · rcases step_revocations hstep hr with hold | ⟨record, row, row', -, hrow, htoken, -⟩
    · exact hmono (h.issued r hold)
    · rw [← htoken]
      exact hmono (h.rowIssued row hrow)
  · cases step_task hstep htask' with
    | kept hauth => exact hmono (h.loginIssued _ hauth _ hsession)
    | login _ hissued =>
      cases hsession
      exact hissued
    | licensed hauth =>
      cases hsession
      have hissued := h.loginIssued _ hauth _ rfl
      exact hmono hissued
    | undo | logout | began | loggedOut | refused | noted | refresh | expired | rejected
      | refreshed => cases hsession
  · cases step_task hstep htask' with
    | kept hauth _ hrevocations => exact h.login _ hauth _ hsession r (hrevocations ▸ hr)
    | login hnew _ hrevocations =>
      -- a fresh token is not that of an old session
      cases hsession
      intro heq
      exact hnew (heq ▸ h.issued r (hrevocations ▸ hr))
    | licensed hauth hrevocations =>
      cases hsession
      have hfresh := h.login _ hauth _ rfl r (hrevocations ▸ hr)
      exact hfresh
    | undo | logout | began | loggedOut | refused | noted | refresh | expired | rejected
      | refreshed => cases hsession
  · rcases step_revocations hstep hr with
      hold | ⟨record, row, started, -, -, -, -, hstarted, hpending⟩
    · rcases step_sessionRow hbound hstep hrow' with ⟨row, hrow, hdescends⟩ | hinstalled
      · have hpending := h.pending r hold row hrow (hdescends.token.symm.trans htoken)
        rcases hdescends.status with hstatus | hstatus
        · rw [hstatus]
          exact hpending
        · exact hstatus
      · obtain ⟨expiry, hauth⟩ := hinstalled.login
        exact absurd htoken.symm (h.login _ hauth _ rfl r hold)
    · cases hstarted.symm.trans hrow'
      exact hpending

/-- Revoked sessions do not come back in any run. -/
theorem revokedStay_reachable (h : Reachable (worldMachine settings) ok w) : RevokedStay w := by
  refine h.invariant (I := RevokedStay) ⟨?_, ?_, ?_, ?_, ?_⟩ fun _ _ _ hreach _ hstep =>
    revokedStay_step (authBound_reachable hreach) (step_cases hstep)
  · intro row hrow
    cases hrow
  · intro r hr
    cases hr
  · intro task htask
    cases htask
  · intro task htask
    cases htask
  · intro r hr
    cases hr

/-- The history of revocations only grows. -/
theorem revocations_mono (hstep : StepCases settings w a w') {r : Revocation}
    (hr : r ∈ w.revocations) : r ∈ w'.revocations := by
  cases step_write hstep with
  | none _ hrevocations | free _ _ hrevocations => exact hrevocations ▸ hr
  | auth _ _ _ _ _ hrevocations =>
    rw [hrevocations]
    exact List.mem_append_right _ hr

/-- `authenticate` accepts the token of the record's session only, and only while the record is
active. -/
theorem authenticate_session {now : Timestamp} {bearerToken sessionToken : Token}
    {read : Option SessionRecord} {session : LocalSession}
    (h : AuthService.authenticate now bearerToken sessionToken read = .session session) :
    ∃ record, read = some record ∧ record.status = .active ∧
      record.session.sessionToken = sessionToken := by
  -- each check that is passed rules out one way to be refused
  unfold AuthService.authenticate at h
  cases read with
  | none => cases h
  | some record =>
    dsimp only at h
    split at h
    · cases h
    · rename_i hactive
      split at h
      · cases h
      · split at h
        · cases h
        · split at h
          · cases h
          · split at h
            · cases h
            · rename_i htokens
              exact ⟨record, rfl, not_not.mp hactive,
                not_not.mp fun hne => htokens (.inr hne)⟩

/-! ### Logout is final -/

/-- Once `begin_revocation` has committed for a session, no later `authenticate` with the
session's token succeeds, whatever runs in between: logins, refreshes, logouts, passes, crashes
and restarts. -/
theorem logout_final (h : Reachable (worldMachine settings) Any w) {r : Revocation}
    (hr : r ∈ w.revocations) (hpath : Path (worldMachine settings) Any w w') (now : Timestamp)
    (bearerToken : Token) (session : LocalSession) :
    AuthService.authenticate now bearerToken r.sessionToken w'.record ≠ .session session := by
  have hlater : Reachable (worldMachine settings) Any w' ∧ r ∈ w'.revocations :=
    hpath.invariant (I := fun w => Reachable (worldMachine settings) Any w ∧ r ∈ w.revocations)
      ⟨h, hr⟩ fun _ a _ hok hstep ⟨hreach, hmem⟩ =>
        ⟨.step a hreach hok hstep, revocations_mono (step_cases hstep) hmem⟩
  intro haccept
  obtain ⟨record, hread, hactive, htoken⟩ := authenticate_session haccept
  obtain ⟨row, hrow, rfl⟩ := Option.map_eq_some_iff.mp hread
  have hpending := (revokedStay_reachable hlater.1).pending r hlater.2 row hrow htoken
  cases hactive.symm.trans hpending

end Worlds

/-! ### A logout that a crash cuts short -/

/-- A session of user 3. -/
def userSession : LocalSession := ⟨1, 2, some 4, 1000, some 3, none⟩

/-- The user logs in and logs out. -/
def cutLogout : List Act :=
  [.login 3 userSession true, .license 0 (some ([("is_active", .bool true)], 1000)),
    .authWrite 0 0 0, .logout, .authWrite 1 10 11]

/-- The backend crashes before the central logout. -/
theorem logout_final_crash :
    let w := (worldMachine defaultSettings).final .empty cutLogout
    let w' := (worldMachine defaultSettings).final w [.crash, .authenticate 2 1 2]
    AuthService.authenticate 2 1 2 w'.record ≠ .session userSession :=
  logout_final (.final .init cutLogout (by decide)) (r := ⟨10, 2, 3⟩) (by decide)
    (.final .refl [.crash, .authenticate 2 1 2] (by decide)) 2 1 userSession

end Rsap.Proofs
