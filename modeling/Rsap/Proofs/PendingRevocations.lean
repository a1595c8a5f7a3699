import Rsap.Proofs.Logout
import Rsap.Proofs.PurgeSafety

/-!
# `Rsap.Proofs.PendingRevocations`: the item of a revocation is settled for a reason

A logout that cannot reach the central service leaves an item in the queue, and the item holds a
generation only. The tokens are in the session row, which the next login overwrites. So what ends
the item need not be the end of the central session (`SessionOver`). Three steps end it too
early: a login of another user cancels it (`revocation_lost`), a pass completes it under a record
of another session or generation (`revocation_unsent`), and a purge withdraws it behind an
expired dead letter. `KeepsRevocations` is the condition that no step does any of this.

`Open` is what holds of a revocation until its central session has ended: its row is not done,
every pass that holds the item sends it under the session of the revocation, and no completion of
it is on its way. `open_step` keeps it along such steps.
-/

set_option autoImplicit false

namespace Rsap.Proofs

open Rsap.Library
open Rsap.Library.Machine (Reachable Any)
open Rsap.Desktop
open SyncQueueRepository (purgeCandidate descendantIds linkedRow)

/-! ### The end of a central session -/

/-- The service has accepted a login of the user of the revocation, after the login of its
session. -/
def LaterLogin (r : Revocation) : List CentralEvent → Prop
  | [] => False
  | .login user _ :: earlier =>
    (user = r.userId ∧ .login r.userId r.sessionToken ∈ earlier) ∨ LaterLogin r earlier
  | .logout _ :: earlier => LaterLogin r earlier

instance LaterLogin.decidable (r : Revocation) :
    ∀ events, Decidable (LaterLogin r events)
  | [] => .isFalse id
  | .login _ _ :: earlier =>
    have := LaterLogin.decidable r earlier
    inferInstanceAs (Decidable (_ ∨ _))
  | .logout _ :: earlier => LaterLogin.decidable r earlier

/-- The central service has accepted or refused a logout of the session, or it has accepted a
later login of the session's user. -/
abbrev SessionOver (events : List CentralEvent) (r : Revocation) : Prop :=
  .logout r.sessionToken ∈ events ∨ LaterLogin r events

/-- A login of the user ends the sessions of the logins before it. -/
theorem LaterLogin.intro {r : Revocation} {earlier : List CentralEvent}
    (h : .login r.userId r.sessionToken ∈ earlier) (token : Token) (later : List CentralEvent) :
    LaterLogin r (later ++ .login r.userId token :: earlier) := by
  induction later with
  | nil => exact .inl ⟨rfl, h⟩
  | cons e later ih =>
    cases e with
    | login user token => exact .inr ih
    | logout token => exact ih

/-- What has ended stays so. -/
theorem SessionOver.append {events : List CentralEvent} {r : Revocation} (h : SessionOver events r)
    (new : List CentralEvent) : SessionOver (new ++ events) r := by
  induction new with
  | nil => exact h
  | cons e new ih =>
    refine ih.imp (List.mem_cons_of_mem _) fun hlater => ?_
    cases e with
    | login user token => exact .inr hlater
    | logout token => exact hlater

/-- An attempt adds to the history of the service. A logout that ends its session is in it. -/
theorem answer_events {central central' : Central} {session : LocalSession} {request : Request}
    {applied : Bool} {outcome : AttemptOutcome}
    (h : central.answer session request applied outcome = some central') :
    ∃ new, central'.events = new ++ central.events ∧ (request.endpoint = .logout →
      Central.endsSession applied outcome = true → .logout session.sessionToken ∈ new) := by
  -- an answer that ends the session is noted for a logout, and no other
  have hnote : ∀ c : Central, c.events = central.events →
      ∃ new, (Central.note session request applied outcome c).events = new ++ central.events ∧
        (request.endpoint = .logout → Central.endsSession applied outcome = true →
          .logout session.sessionToken ∈ new) := by
    intro c hc
    unfold Central.note
    split
    · exact ⟨[.logout session.sessionToken], by rw [← hc]; rfl,
        fun _ _ => List.mem_singleton_self _⟩
    · rename_i hnot
      exact ⟨[], hc, fun hendpoint hends => absurd ⟨hendpoint, hends⟩ hnot⟩
  simp only [Central.answer] at h
  split at h
  · obtain ⟨handled, hhandle, rfl⟩ := Option.map_eq_some_iff.mp h
    refine hnote handled ?_
    simp only [Central.handle] at hhandle
    split at hhandle
    · obtain ⟨cameras, -, rfl⟩ := Option.map_eq_some_iff.mp hhandle
      rfl
    · cases hhandle
  · split at h <;> cases h
    exact hnote central rfl

section Worlds
variable {settings : Settings} {ok : World → Act → Prop} {w w' : World} {a : Act}
  {r : Revocation}

/-- The history of the service only grows. -/
theorem step_events (hstep : StepCases settings w a w') :
    ∃ new, w'.central.events = new ++ w.central.events := by
  cases hstep with
  | op | flush | claimed | claimRaised | settled | purged | license | logout | refresh | authWrite
    | authenticate | clear | expire | crash => exact ⟨[], rfl⟩
  | attempted _ _ hcentral | attemptRaised _ _ hcentral | authLogout _ _ hcentral =>
    obtain ⟨new, hnew, -⟩ := answer_events hcentral
    exact ⟨new, hnew⟩
  | @login user session => exact ⟨[.login user session.sessionToken], rfl⟩
  | authRefresh _ hcentral => rcases hcentral with rfl | ⟨_, rfl⟩ <;> exact ⟨[], rfl⟩

/-- A session that is over stays over. -/
theorem over_step (hstep : StepCases settings w a w') (h : SessionOver w.central.events r) :
    SessionOver w'.central.events r := by
  obtain ⟨new, hnew⟩ := step_events hstep
  rw [hnew]
  exact h.append new

/-! ### Logins in the history -/

/-- The sessions of the row, of the revocations and of a running login are in the history of the
service. The running login is later than the logins of the revoked sessions. -/
structure LoginsNoted (w : World) : Prop where
  row : ∀ row, w.store.db.localSession = some row →
    .login row.userId row.session.sessionToken ∈ w.central.events
  revoked : ∀ r ∈ w.revocations, .login r.userId r.sessionToken ∈ w.central.events
  login : ∀ task, w.auth = some task → ∀ session, loginSession task = some session →
    ∃ user later earlier, w.central.events = later ++ .login user session.sessionToken :: earlier ∧
      (session.userId = none ∨ session.userId = some user) ∧
      ∀ r ∈ w.revocations, .login r.userId r.sessionToken ∈ earlier

/-- A login that holds the lock after a step held it before, or the step is its central login. -/
theorem step_login (hstep : StepCases settings w a w') {task' : AuthTask}
    (htask : w'.auth = some task') {session' : LocalSession}
    (hsession : loginSession task' = some session') :
    (w'.revocations = w.revocations ∧ ∃ task session, w.auth = some task ∧
      loginSession task = some session ∧ session'.sessionToken = session.sessionToken ∧
      session'.userId = session.userId) ∨
    (w'.revocations = w.revocations ∧ ∃ user,
      w'.central.events = .login user session'.sessionToken :: w.central.events ∧
      (session'.userId = none ∨ session'.userId = some user)) := by
  cases hstep with
  | op | flush | claimed | claimRaised | attempted | attemptRaised | settled | purged
    | authenticate | clear | expire => exact .inl ⟨rfl, task', session', htask, hsession, rfl, rfl⟩
  | crash => cases htask
  -- the central login begins the task, and the other steps leave or end it
  | @login user session delivered _ _ huser =>
    cases delivered <;> cases htask
    cases hsession
    exact .inr ⟨rfl, user, rfl, huser⟩
  | license hauth =>
    cases htask
    simp only [AuthService.afterLicense] at hsession
    split at hsession
    · split at hsession <;> cases hsession
      exact .inl ⟨rfl, _, _, hauth, rfl, rfl, rfl⟩
    · cases hsession
  | logout =>
    simp only [AuthService.logout] at htask
    split at htask
    · split at htask <;> cases htask
      cases hsession
    · cases htask
  | refresh =>
    simp only [AuthService.refresh] at htask
    split at htask
    · cases htask
    · split at htask
      · cases htask
      · split at htask
        · cases htask
          cases hsession
        · split at htask <;> cases htask <;> cases hsession
  | @authWrite now newId claimToken task op store reply hauth hop happly =>
    cases task <;> simp only [AuthTask.afterWrite, reduceCtorEq] at htask
    case loginSave =>
      simp only [AuthService.afterSave] at htask
      split at htask <;> cases htask
      cases hsession
    case logoutBegin =>
      simp only [AuthService.afterBegin] at htask
      split at htask <;> cases htask
      cases hsession
    case logoutSetError =>
      cases htask
      cases hsession
  | @authLogout applied outcome task session central hauth =>
    cases task <;> simp only [AuthTask.afterLogout, reduceCtorEq] at htask
    simp only [AuthService.afterLogout] at htask
    split at htask
    · cases htask
      cases hsession
    · split at htask <;> cases htask <;> cases hsession
    · cases htask
  | authRefresh =>
    simp only [AuthService.afterRefresh] at htask
    split at htask
    · cases htask
      cases hsession
    · split at htask <;> cases htask
      cases hsession
    · cases htask

/-- A step keeps the logins noted. -/
theorem loginsNoted_step (hbound : AuthBound w) (hstep : StepCases settings w a w')
    (h : LoginsNoted w) : LoginsNoted w' := by
  -- events are only added, in front
  obtain ⟨new, hnew⟩ := step_events hstep
  refine ⟨fun row' hrow' => ?_, fun r hr => ?_, fun task' htask session' hsession => ?_⟩
  · rw [hnew]
    refine List.mem_append_right _ ?_
    -- the row is the old one's, or the running login installed it
    rcases step_sessionRow hbound hstep hrow' with ⟨row, hrow, hdescends⟩ | hinstalled
    · rw [hdescends.token, hdescends.userId]
      exact h.row row hrow
    · obtain ⟨expiry, hauth⟩ := hinstalled.login
      obtain ⟨user, later, earlier, hevents, huser, -⟩ := h.login _ hauth _ rfl
      rw [hinstalled.userId] at huser
      rcases huser with hnone | hsome
      · cases hnone
      · rw [hevents, Option.some.inj hsome]
        simp
  · rw [hnew]
    refine List.mem_append_right _ ?_
    rcases step_revocations hstep hr with hold | ⟨record, row, row', -, hrow, htoken, huser, -⟩
    · exact h.revoked r hold
    · rw [← htoken, ← huser]
      exact h.row row hrow
  · rcases step_login hstep htask hsession with
      ⟨hrevocations, task, session, hauth, hold, htoken, huserId⟩ |
      ⟨hrevocations, user, hevents, huser⟩
    · obtain ⟨user, later, earlier, hevents, huser, hearlier⟩ := h.login task hauth session hold
      refine ⟨user, new ++ later, earlier, ?_, ?_, ?_⟩
      · rw [hnew, hevents, htoken, List.append_assoc]
      · rw [huserId]
        exact huser
      · rw [hrevocations]
        exact hearlier
    · refine ⟨user, [], w.central.events, hevents, huser, ?_⟩
      rw [hrevocations]
      exact h.revoked

/-- Logins are noted in every reachable world. -/
theorem loginsNoted_reachable (h : Reachable (worldMachine settings) ok w) : LoginsNoted w := by
  refine h.invariant (I := LoginsNoted) ⟨?_, ?_, ?_⟩ fun _ _ _ hreach _ hstep =>
    loginsNoted_step (authBound_reachable hreach) (step_cases hstep)
  · intro row hrow
    cases hrow
  · intro r hr
    cases hr
  · intro task htask
    cases htask

/-- A login that installs a session of the revocation's user has ended the revoked session. -/
theorem over_login (h : LoginsNoted w) {session : LocalSession} {expiry : Timestamp}
    (hauth : w.auth = some (.loginSave session expiry)) (hr : r ∈ w.revocations)
    (huser : session.userId = some r.userId) : SessionOver w.central.events r := by
  obtain ⟨user, later, earlier, hevents, hown, hearlier⟩ := h.login _ hauth session rfl
  rw [huser] at hown
  rcases hown with hnone | hsome
  · cases hnone
  · obtain rfl := Option.some.inj hsome
    rw [hevents]
    exact .inr (.intro (hearlier r hr) session.sessionToken later)

end Worlds

/-! ### The item of a revocation -/

section Items
variable {s s' : Store} {op : Op} {itemId : Uuid} {generation : Nat}

/-- A revocation is enqueued without a dependency. -/
theorem enqueueOf_revoke {db : Db} {e : Enqueue} (h : enqueueOf db op = some e)
    (hkey : e.logicalKey = .sessionRevoke) : e.dependsOnId = none := by
  cases op <;> simp only [enqueueOf, reduceCtorEq, Option.some.injEq, Option.map_eq_some_iff] at h
  case updateCamera => obtain ⟨current, -, rfl⟩ := h; cases hkey
  case deleteCamera =>
    split at h
    · split at h <;> cases h
      cases hkey
    · cases h
  case addEvent => split at h <;> cases h; cases hkey
  case addAlert => split at h <;> cases h; cases hkey
  case addPeopleCount => split at h <;> cases h; cases hkey
  case createCamera => subst h; cases hkey
  all_goals subst h; rfl

/-- The rows of revocations depend on nothing. -/
theorem revoke_undepending {ok : Store → Op → Prop} (h : Reachable storeMachine ok s) :
    ∀ q ∈ s.db.syncQueue, q.logicalKey = .sessionRevoke → q.dependsOnId = none := by
  refine row_invariant (P := fun q => q.logicalKey = .sessionRevoke → q.dependsOnId = none)
    (fun _ _ q _ hq hkey => ?_) (fun _ _ q c _ hmakes _ hold hkey => ?_) h
  · obtain ⟨e, _, _, he, rfl⟩ := hq
    exact enqueueOf_revoke he hkey
  · have hnone := hold ((c.apply_fixed q).2.1 ▸ hkey)
    cases c with
    | coalesce endpoint payload now dependsOnId =>
      obtain ⟨e, he, -, hlatest, -, -, -, rfl⟩ := hmakes
      have hekey : e.logicalKey = .sessionRevoke := (latestBy_mem hlatest).2.symm.trans hkey
      show (e.dependsOnId <|> q.dependsOnId) = none
      rw [enqueueOf_revoke he hekey, hnone]
      rfl
    | unlinkDependency => rfl
    | _ => exact hnone

/-- The changes after which a row is done. -/
def Change.ends : Change → Bool
  | .succeed _ => true
  | .cancel _ => true
  | .withdraw _ => true
  | _ => false

/-- A row that a change leaves done was done before, unless the change ends it. -/
theorem Change.not_done {c : Change} {q : Row} (hends : c.ends = false) (h : ¬ q.Done) :
    ¬ (c.apply q).Done := by
  cases c with
  | succeed | cancel | withdraw => cases hends
  | coalesce | release | lease | retry => rintro (hd | hd) <;> cases hd
  | fail now code message permanent =>
    simp only [Change.apply, SyncQueueRepository.failRow]
    split <;> simp
  | unlinkPredecessor | unlinkDependency => exact h

/-- The operations that end the row of a revocation: a completion, a login, a discard or a
purge. -/
theorem ends_cases {db : Db} {c : Change} {q : Row} (hmakes : Makes db op c q)
    (hends : c.ends = true) (hkey : ∀ t ∈ db.syncQueue, t.id = q.id → t.logicalKey = .sessionRevoke)
    (hdep : q.dependsOnId = none) :
    (∃ how token owner, op.settling = some (how, q.id, token, owner) ∧ how ≠ .fail) ∨
      (∃ now session validUntil, op = .save now session validUntil) ∨
      (∃ now, op = .discardDeadLetter now q.id) ∨
      ∃ now succeededDays deadLetterDays, op = .purgeRetained now succeededDays deadLetterDays := by
  cases c with
  | succeed now =>
    cases op <;> simp only [Makes] at hmakes
    case complete =>
      obtain ⟨-, -, howned⟩ := hmakes
      exact .inl ⟨_, _, _, by rw [howned.1]; rfl, by simp⟩
    case completeCamera =>
      obtain ⟨-, -, howned⟩ := hmakes
      exact .inl ⟨_, _, _, by rw [howned.1]; rfl, by simp⟩
    case completeRevocation =>
      obtain ⟨-, -, howned⟩ := hmakes
      exact .inl ⟨_, _, _, by rw [howned.1]; rfl, by simp⟩
  -- a deletion cancels rows of its camera, which the row of a revocation is not
  | cancel now =>
    cases op <;> simp only [Makes] at hmakes
    case save => exact .inr (.inl ⟨_, _, _, rfl⟩)
    case deleteCamera =>
      obtain ⟨-, camera, latest, -, hlatest, -, hid | hlink⟩ := hmakes
      · obtain ⟨hmem, hcamera⟩ := latestBy_mem hlatest
        cases (hkey latest hmem hid.symm).symm.trans hcamera
      · rw [hdep] at hlink
        cases hlink
    case discardDeadLetter =>
      obtain ⟨rfl, -⟩ := hmakes
      exact .inr (.inr (.inl ⟨_, rfl⟩))
  | withdraw now =>
    cases op <;> cases hmakes
    exact .inr (.inr (.inr ⟨_, _, _, rfl⟩))
  | _ => cases hends

/-- What is known of the rows of a tracked revocation. -/
theorem Tracked.revoke (hreach : Reachable storeMachine Any s)
    (h : Tracked s itemId .logout (.sessionRevoke generation)) :
    ∀ q ∈ s.db.syncQueue, q.id = itemId → q.logicalKey = .sessionRevoke ∧ q.dependsOnId = none := by
  intro q hq hid
  have hfits := fits_reachable hreach q hq
  rw [(h.row q hq hid).2.2] at hfits
  exact ⟨hfits.1, revoke_undepending hreach q hq hfits.1⟩

/-- An operation that does not end the item keeps its row open. -/
theorem item_step (hreach : Reachable storeMachine Any s)
    (htracked : Tracked s itemId .logout (.sessionRevoke generation))
    (hstep : storeMachine.step s op = some s')
    (hsettling : ∀ how token owner, op.settling = some (how, itemId, token, owner) → how = .fail)
    (hsave : ∀ now session validUntil, op ≠ .save now session validUntil)
    (hdiscard : ∀ now, op ≠ .discardDeadLetter now itemId)
    (hpurge : ∀ now d d', op ≠ .purgeRetained now d d')
    (h : ∀ q ∈ s.db.syncQueue, q.id = itemId → ¬ q.Done) :
    ∀ q ∈ s'.db.syncQueue, q.id = itemId → ¬ q.Done := by
  have hkey := htracked.revoke hreach
  suffices hrows : ∀ q ∈ s'.db.syncQueue, q.id = itemId →
      q.dependsOnId = none ∧ q.lastAttemptAt ≠ none ∧ ¬ q.Done from
    fun q hq hid => (hrows q hq hid).2.2
  refine step_rows (P := fun q => q.id = itemId →
    q.dependsOnId = none ∧ q.lastAttemptAt ≠ none ∧ ¬ q.Done)
    (keyed_reachable hreach) hstep ?_ ?_ ?_
  · exact fun q hq hid => ⟨(hkey q hq hid).2, (htracked.row q hq hid).1, h q hq hid⟩
  · -- the id of a new row is new
    rintro q ⟨e, _, _, he, rfl⟩ hid
    exact absurd htracked.issued (hid ▸ (store_step hstep).1.2 e.itemId (enqueueOf_uuid he))
  · intro q c hmakes hguard hold hid
    have hid' : q.id = itemId := (c.apply_fixed q).1 ▸ hid
    obtain ⟨hdep, hlast, hopen⟩ := hold hid'
    -- a change that ends the row would be one of the excluded operations
    have hends : c.ends = false := by
      cases hc : c.ends with
      | false => rfl
      | true =>
        rcases ends_cases hmakes hc (fun t ht htid => (hkey t ht (htid.trans hid')).1) hdep with
          ⟨how, token, owner, hop, hne⟩ | ⟨_, _, _, hop⟩ | ⟨_, hop⟩ | ⟨_, _, _, hop⟩
        · rw [hid'] at hop
          exact absurd (hsettling _ _ _ hop) hne
        · exact absurd hop (hsave _ _ _)
        · rw [hid'] at hop
          exact absurd hop (hdiscard _)
        · exact absurd hop (hpurge _ _ _)
    refine ⟨?_, ?_, Change.not_done hends hopen⟩
    · cases c with
      | coalesce => exact absurd hguard.2 hlast
      | unlinkDependency => rfl
      | _ => exact hdep
    · cases c with
      | coalesce => exact absurd hguard.2 hlast
      | lease => simp [Change.apply, SyncQueueRepository.lease]
      | _ => exact hlast

/-- The operation completes, cancels and purges nothing. -/
def quiet : Op → Bool
  | .save .. => false
  | .complete .. => false
  | .completeCamera .. => false
  | .completeRevocation .. => false
  | .discardDeadLetter .. => false
  | .purgeRetained .. => false
  | _ => true

/-- A quiet operation keeps the row of a revocation open. -/
theorem item_quiet (hreach : Reachable storeMachine Any s)
    (htracked : Tracked s itemId .logout (.sessionRevoke generation))
    (hquiet : quiet op = true) (hstep : storeMachine.step s op = some s')
    (h : ∀ q ∈ s.db.syncQueue, q.id = itemId → ¬ q.Done) :
    ∀ q ∈ s'.db.syncQueue, q.id = itemId → ¬ q.Done := by
  refine item_step hreach htracked hstep (fun how token owner hop => ?_) (fun _ _ _ hop => ?_)
    (fun _ hop => ?_) (fun _ _ _ hop => ?_) h
  · cases op with
    | complete | completeCamera | completeRevocation => cases hquiet
    | fail =>
      cases hop
      rfl
    | _ => cases hop
  all_goals
    subst hop
    cases hquiet

/-- A login keeps the row of a revocation open when it does not cancel it. -/
theorem item_save {now : Timestamp} {session : LocalSession} {validUntil : Option Timestamp}
    (hspared : ∀ q ∈ s.db.syncQueue, q.id = itemId → ¬ SessionRepository.Cancellable q)
    (hstep : storeMachine.step s (.save now session validUntil) = some s')
    (h : ∀ q ∈ s.db.syncQueue, q.id = itemId → ¬ q.Done) :
    ∀ q ∈ s'.db.syncQueue, q.id = itemId → ¬ q.Done := by
  obtain ⟨-, rfl⟩ := store_step hstep
  intro q' hq' hid
  simp only [Op.run, SessionRepository.save] at hq'
  split at hq'
  · exact h q' hq' hid
  · obtain ⟨q, hq, rfl⟩ := mem_updateWhere.mp hq'
    split at hid
    · rename_i hcancellable
      exact absurd hcancellable (hspared q hq hid)
    · rename_i hkept
      rw [if_neg hkept]
      exact h q hq hid

/-- The item hangs on a dead letter that the purge removes. -/
def Expires (db : Db) (now : Timestamp) (succeededDays deadLetterDays : Nat) (itemId : Uuid) :
    Prop :=
  ∃ cand ∈ SyncQueueRepository.purgeCandidates (now - days succeededDays)
    (now - days deadLetterDays) db.syncQueue,
    cand.2 = .deadLetter ∧ itemId ∈ descendantIds cand.1 db.syncQueue

instance (db : Db) (now : Timestamp) (succeededDays deadLetterDays : Nat) (itemId : Uuid) :
    Decidable (Expires db now succeededDays deadLetterDays itemId) :=
  inferInstanceAs (Decidable (∃ cand ∈ _, _))

/-- A purge keeps the row of a revocation open when it hangs on no expired dead letter. -/
theorem item_purge {now : Timestamp} {succeededDays deadLetterDays : Nat}
    (hreach : Reachable storeMachine Any s)
    (htracked : Tracked s itemId .logout (.sessionRevoke generation))
    (hspared : ¬ Expires s.db now succeededDays deadLetterDays itemId)
    (hstep : storeMachine.step s (.purgeRetained now succeededDays deadLetterDays) = some s')
    (h : ∀ q ∈ s.db.syncQueue, q.id = itemId → ¬ q.Done) :
    ∀ q ∈ s'.db.syncQueue, q.id = itemId → ¬ q.Done := by
  obtain ⟨-, rfl⟩ := store_step hstep
  intro q' hq' hid
  obtain ⟨q, hq, hleft, rfl⟩ := mem_turns.mp hq'
  rw [(afterTurns_fixed _ _ _ q).1] at hid
  -- the purge withdraws the row, or leaves its state
  rcases afterTurns_state now s.db.syncQueue (SyncQueueRepository.purgeCandidates
    (now - days succeededDays) (now - days deadLetterDays) s.db.syncQueue) q with
    ⟨⟨before, cand, after, hcands, -, hwithdrawn⟩, -⟩ | ⟨-, hstate⟩
  · have hcand : cand ∈ SyncQueueRepository.purgeCandidates (now - days succeededDays)
        (now - days deadLetterDays) s.db.syncQueue := by simp [hcands]
    -- withdrawn as a descendant, which the condition excludes, or by its dependency, and it has
    -- none
    rcases hwithdrawn with ⟨hdead, hmem⟩ | ⟨-, hlink⟩
    · rw [(afterTurns_fixed _ _ _ q).1, hid] at hmem
      exact absurd ⟨cand, hcand, hdead,
        mem_descendants.mpr (descends_turns (mem_descendants.mp hmem))⟩ hspared
    · rw [(afterTurns_links _ _ _ q cand.1).2, (htracked.revoke hreach q hq hid).2] at hlink
      cases hlink.1
  · have hopen := h q hq hid
    simp only [Row.Done] at hopen ⊢
    rw [hstate]
    exact hopen

end Items

/-! ### KeepsRevocations steps -/

/-- Under the record, the item of the revocation leads to a logout of the revoked session. -/
abbrev SendsLogout (record : SessionRecord) (generation : Nat) (r : Revocation) : Prop :=
  record.status = .revocationPending ∧ record.generation = generation ∧
    record.session.sessionToken = r.sessionToken

/-- Under the record, the item is sent as a logout of the revoked session. -/
def SendsItem (record : SessionRecord) (item : Item) (r : Revocation) : Prop :=
  ∃ generation, item.payload = .sessionRevoke generation ∧ SendsLogout record generation r

/-- The purge spares the revocations whose session has not ended. -/
def SparesRevocations (w : World) (now : Timestamp) (succeededDays deadLetterDays : Nat) : Prop :=
  ∀ r ∈ w.revocations, ¬ SessionOver w.central.events r →
    ¬ Expires w.store.db now succeededDays deadLetterDays r.itemId

/-- The pass leases the revocations whose session has not ended under their own records. -/
def ClaimsOwn (w : World) (pass : Pass) (now : Timestamp) : Prop :=
  ∀ q ∈ SyncQueueRepository.sweep now w.store.db.syncQueue,
    q.id ∈ SyncQueueRepository.selected now pass.limit (keyFilter pass.record)
      (SyncQueueRepository.sweep now w.store.db.syncQueue) →
    ∀ r ∈ w.revocations, ¬ SessionOver w.central.events r → q.id = r.itemId →
      SendsLogout pass.record q.payload.generation r

/-- The session that the holder of the lock is about to save. -/
def savingSession (w : World) : Option LocalSession :=
  match w.auth with
  | some (.loginSave session _) => some session
  | _ => none

/-- The login is of the user of every revocation that its `save` cancels. -/
def SavesOwn (w : World) (session : LocalSession) : Prop :=
  ∀ r ∈ w.revocations, ¬ SessionOver w.central.events r → ∀ q ∈ w.store.db.syncQueue,
    q.id = r.itemId → SessionRepository.Cancellable q → session.userId = some r.userId

/-- An operator discards no revocation. -/
def Undiscarded (w : World) : Act → Prop
  | .op (.discardDeadLetter _ itemId) => ∀ r ∈ w.revocations, r.itemId ≠ itemId
  | _ => True

/-- The step settles no revocation whose central session has not ended, and leads to no such
settlement. -/
def KeepsRevocations (settings : Settings) (w : World) (a : Act) : Prop :=
  Undiscarded w a ∧
    match a with
    | .op (.purgeRetained now succeededDays deadLetterDays) =>
      SparesRevocations w now succeededDays deadLetterDays
    | .purge _ now =>
      SparesRevocations w now settings.succeededRetentionDays.val
        settings.deadLetterRetentionDays.val
    | .claim i now _ => ∀ pass ∈ w.passes[i]?, ClaimsOwn w pass now
    | .authWrite .. => ∀ session ∈ savingSession w, SavesOwn w session
    | _ => True

instance (w : World) (now : Timestamp) (succeededDays deadLetterDays : Nat) :
    Decidable (SparesRevocations w now succeededDays deadLetterDays) :=
  inferInstanceAs (Decidable (∀ r ∈ w.revocations, _))

instance (w : World) (pass : Pass) (now : Timestamp) : Decidable (ClaimsOwn w pass now) :=
  inferInstanceAs (Decidable (∀ q ∈ SyncQueueRepository.sweep now w.store.db.syncQueue, _))

instance (w : World) (session : LocalSession) : Decidable (SavesOwn w session) :=
  inferInstanceAs (Decidable (∀ r ∈ w.revocations, _))

instance (w : World) (a : Act) : Decidable (Undiscarded w a) := by
  unfold Undiscarded
  split <;> infer_instance

instance KeepsRevocations.decidable (settings : Settings) (w : World) :
    ∀ a, Decidable (KeepsRevocations settings w a)
  | .op (.purgeRetained ..) => inferInstanceAs (Decidable (_ ∧ SparesRevocations ..))
  | .purge .. => inferInstanceAs (Decidable (_ ∧ SparesRevocations ..))
  | .claim i now _ =>
    inferInstanceAs (Decidable (_ ∧ ∀ pass ∈ w.passes[i]?, ClaimsOwn w pass now))
  | .authWrite .. =>
    inferInstanceAs (Decidable (_ ∧ ∀ session ∈ savingSession w, SavesOwn w session))
  | .op (.save ..) | .op (.replaceActive ..) | .op (.markRevocationPending ..)
  | .op (.beginRevocation ..) | .op (.setError ..) | .op (.clear ..) | .op (.createCamera ..)
  | .op (.updateCamera ..) | .op (.deleteCamera ..) | .op (.addEvent ..) | .op (.addAlert ..)
  | .op (.addPeopleCount ..) | .op (.enqueueRevocation ..) | .op (.claim ..) | .op (.complete ..)
  | .op (.completeCamera ..) | .op (.completeRevocation ..) | .op (.fail ..)
  | .op (.retryDeadLetter ..) | .op (.discardDeadLetter ..) | .flush .. | .attempt .. | .settle ..
  | .login .. | .license .. | .logout .. | .refresh .. | .authLogout .. | .authRefresh ..
  | .authenticate .. | .clear .. | .expire .. | .crash .. =>
    inferInstanceAs (Decidable (_ ∧ True))

/-! ### Open revocations -/

/-- The handling of the item has not settled it, and is not about to settle it as done. -/
def Unsettled : Stage → Prop
  | .calling .logout _ => True
  | .settling (.fail ..) => True
  | .raised => True
  | _ => False

/-- What holds of a revocation while its central session lives. -/
structure Open (w : World) (r : Revocation) : Prop where
  item : ∀ q ∈ w.store.db.syncQueue, q.id = r.itemId → ¬ q.Done
  sends : ∀ pass ∈ w.passes, ∀ item ∈ passItems pass, item.id = r.itemId →
    SendsItem pass.record item r
  stages : ∀ pass ∈ w.passes, ∀ item stage rest, pass.stage = .working item stage rest →
    item.id = r.itemId → Unsettled stage
  call : ∀ record generation token,
    w.auth = some (.logoutCall record generation r.itemId token) →
    record.session.sessionToken = r.sessionToken
  complete : ∀ record generation token,
    w.auth ≠ some (.logoutComplete record generation r.itemId token)

/-- The logout of an item is one attempt. It leaves the item unsettled, or the service is done
with the session. -/
theorem receive_logout (settings : Settings) (item : Item) (attempt : Nat) (applied : Bool)
    (outcome : AttemptOutcome) :
    Unsettled ((Stage.calling .logout attempt).receive settings item outcome) ∨
      Central.endsSession applied outcome = true := by
  have hlast : decide (attempts settings item .logout ≤ attempt + 1) = true := by
    simp [attempts]
  simp only [Stage.receive, hlast]
  cases hresult : CentralApiClient.settleAttempt true outcome with
  | none => exact .inl trivial
  | some result =>
    cases result with
    | raised => exact .inl trivial
    | data data =>
      refine .inr ?_
      simp [Central.endsSession, Central.successData, hresult]
    | error e =>
      simp only [afterCall]
      split
      · rename_i hstatus
        refine .inr ?_
        rcases hstatus with h | h <;> simp [Central.endsSession, Central.errorStatus, hresult, h]
      · exact .inl trivial

/-- The central call of a logout completes the revocation only when the service is done with the
session. -/
theorem afterLogout_complete {record record' : SessionRecord} {generation generation' : Nat}
    {itemId itemId' token token' : Uuid} {outcome : AttemptOutcome}
    (h : AuthService.afterLogout record generation itemId token outcome =
      some (.logoutComplete record' generation' itemId' token')) (applied : Bool) :
    itemId' = itemId ∧ Central.endsSession applied outcome = true := by
  unfold AuthService.afterLogout at h
  split at h
  · rename_i hresult
    cases h
    exact ⟨rfl, by simp [Central.endsSession, Central.successData, hresult]⟩
  · rename_i e hresult
    split at h <;> cases h
    rename_i hstatus
    refine ⟨rfl, ?_⟩
    rcases hstatus with h | h <;> simp [Central.endsSession, Central.errorStatus, hresult, h]
  · cases h

/-- A pass that sends the item starts with the logout. -/
theorem startItem_sends {record : SessionRecord} {item : Item} {r : Revocation}
    (h : SendsItem record item r) : Unsettled (startItem record item) := by
  obtain ⟨generation, hpayload, hstatus, hgeneration, -⟩ := h
  unfold startItem
  rw [hpayload]
  simp only [hstatus, hgeneration, ne_eq, not_true_eq_false, or_self, if_false]
  trivial

section Worlds
variable {settings : Settings} {ok : World → Act → Prop} {w w' : World} {a : Act}
  {r : Revocation}

/-- A revocation after a step is an old one, or the logout that holds the lock has started it. -/
theorem step_started (hbound : AuthBound w) (hstep : StepCases settings w a w')
    (hr : r ∈ w'.revocations) :
    r ∈ w.revocations ∨ ∃ record now newId claimToken generation token,
      w.store.apply (.beginRevocation now newId claimToken record.generation settings.maxAttempts
        settings.leaseSeconds.val) =
          some (w'.store, .revocation (some (generation, r.itemId, token))) ∧
      w'.auth = some (.logoutCall record generation r.itemId token) ∧ w'.passes = w.passes ∧
      record.session.sessionToken = r.sessionToken := by
  cases hstep with
  -- only the write of a logout starts a revocation
  | authWrite hauth hop happly =>
    refine (List.mem_append.mp hr).symm.imp_right fun hnew => ?_
    unfold World.started at hnew
    split at hnew
    · rename_i record generation itemId token row hrow
      cases hop
      cases List.mem_singleton.mp hnew
      obtain ⟨-, hreply, -, -, -, -⟩ := apply_step happly
      obtain ⟨row', hrow', hgeneration, -⟩ := beginRevocation_started hreply.symm
      cases hrow.symm.trans hrow'
      exact ⟨record, _, _, _, generation, token, happly, rfl, rfl,
        ((hbound.bound _ hauth _ _ rfl row hrow).2 hgeneration).symm⟩
    · cases hnew
  | op | flush | claimed | claimRaised | attempted | attemptRaised | settled | purged | login
    | license | logout | refresh | authLogout | authRefresh | authenticate | clear | expire
    | crash => exact .inl hr

/-- The item of every revocation is tracked. -/
theorem revocations_tracked (h : Reachable (worldMachine settings) ok w) :
    ∀ r ∈ w.revocations,
      ∃ generation, Tracked w.store r.itemId .logout (.sessionRevoke generation) := by
  refine h.invariant (I := fun w => ∀ r ∈ w.revocations,
    ∃ generation, Tracked w.store r.itemId .logout (.sessionRevoke generation))
    (fun _ hr => absurd hr List.not_mem_nil) fun w a w' hreach _ hstep ih r hr => ?_
  have hkeyed := keyed_reachable (store_reachable hreach)
  rcases step_started (authBound_reachable hreach) (step_cases hstep) hr with
    hold | ⟨record, now, newId, claimToken, generation, token, happly, -⟩
  · obtain ⟨generation, htracked⟩ := ih r hold
    refine ⟨generation, ?_⟩
    rcases step_store (step_cases hstep) with heq | ⟨op, reply, happly⟩
    · rw [heq]
      exact htracked
    · exact htracked.step hkeyed happly
  · exact ⟨generation, beginRevocation_tracked hkeyed happly⟩

/-- The item of a revocation that starts is no tracked item. -/
theorem began_new {s s' : Store} {now : Timestamp} {newId claimToken itemId token : Uuid}
    {expected generation : Nat} {maxAttempts : Attempts} {leaseSeconds : Nat} {id : Uuid}
    {endpoint : Endpoint} {payload : Payload} (htracked : Tracked s id endpoint payload)
    (happly : s.apply (.beginRevocation now newId claimToken expected maxAttempts leaseSeconds) =
      some (s', .revocation (some (generation, itemId, token)))) : id ≠ itemId := by
  obtain ⟨-, hreply, hadmits, -⟩ := apply_step happly
  obtain ⟨row, -, -, -, -, rfl, -⟩ := beginRevocation_started hreply.symm
  rintro rfl
  unfold enqueue at htracked
  split at htracked
  · rename_i latest hlatest
    split at htracked
    · rename_i hfresh
      exact (htracked.row latest (latestBy_mem hlatest).1 rfl).1 hfresh.2
    · exact hadmits.2 newId (by simp [Op.uuids]) htracked.issued
  · exact hadmits.2 newId (by simp [Op.uuids]) htracked.issued

/-- A claim, with the pass that makes it. -/
theorem claim_step {i : Nat} {now : Timestamp} {token : Uuid}
    (h : w.step settings (.claim i now token) = some w') :
    ∃ pass reply, w.passes[i]? = some pass ∧
      w.store.apply (.claim now token pass.owner pass.limit (keyFilter pass.record)
        settings.leaseSeconds.val) = some (w'.store, reply) ∧
      ∀ pass' ∈ w'.passes, pass' ∈ w.passes ∨ ∃ rows, reply = .rows rows ∧
        pass' = pass.next (rows.map (Item.ofRow token pass.owner)) := by
  simp only [World.step] at h
  split at h
  · rename_i pass hpass
    split at h
    · obtain ⟨store, reply, happly, rfl⟩ := World.write_eq h
      refine ⟨pass, reply, hpass, ?_, fun pass' hpass' => ?_⟩
      · split <;> exact happly
      · split at hpass'
        · rename_i rows
          exact (mem_set hpass').symm.imp_right fun heq => ⟨rows, rfl, heq⟩
        · exact .inl (List.mem_of_mem_eraseIdx hpass')
    · cases h
  · cases h

/-- A pass that goes on with items which it sends keeps the revocation open. -/
theorem next_open {pass : Pass} {items : List Item}
    (h : ∀ item ∈ items, item.id = r.itemId →
      SendsItem pass.record item r) :
    (∀ item ∈ passItems (pass.next items), item.id = r.itemId →
      SendsItem (pass.next items).record item r) ∧
    ∀ item stage rest, (pass.next items).stage = .working item stage rest →
      item.id = r.itemId → Unsettled stage := by
  constructor
  · rw [passItems_next, next_record]
    exact h
  · intro item stage rest hstage hid
    cases items with
    | nil => cases hstage
    | cons first items =>
      cases hstage
      exact startItem_sends (h item List.mem_cons_self hid)

/-- The items that such a claim returns are sent under their own records. -/
theorem claim_sends (hreach : Reachable (worldMachine settings) ok w) (hr : r ∈ w.revocations)
    (hover : ¬ SessionOver w.central.events r) {pass : Pass} {now : Timestamp} {token : Uuid}
    {store : Store} {rows : List Row} (howns : ClaimsOwn w pass now)
    (happly : w.store.apply (.claim now token pass.owner pass.limit (keyFilter pass.record)
      settings.leaseSeconds.val) = some (store, .rows rows)) :
    ∀ item ∈ rows.map (Item.ofRow token pass.owner), item.id = r.itemId →
      SendsItem pass.record item r := by
  have hstore := store_reachable hreach
  obtain ⟨-, hreply, hadmits, -⟩ := apply_step happly
  have hfresh := claim_fresh (tokensIssued_reachable hstore) hadmits
  obtain ⟨generation, htracked⟩ := revocations_tracked hreach r hr
  intro item hitem hid
  obtain ⟨q, hq, rfl⟩ := List.mem_map.mp hitem
  obtain ⟨q₀, hq₀, hsel, rfl⟩ :=
    claim_selected (keyed_reachable hstore).unique hfresh (claim_run hreply.symm) q hq
  -- the claimed row is the one of the revocation, so it has its payload
  have hpayload : q₀.payload = .sessionRevoke generation := by
    obtain ⟨q₁, hq₁, rfl⟩ := mem_updateWhere.mp hq₀
    have hid₁ : q₁.id = r.itemId := by
      rw [← hid]
      show q₁.id = (if _ then SyncQueueRepository.release now q₁ else q₁).id
      split <;> rfl
    rw [← (htracked.row q₁ hq₁ hid₁).2.2]
    split <;> rfl
  have hsends := howns q₀ hq₀ hsel r hr hover hid
  rw [hpayload] at hsends
  exact ⟨generation, hpayload, hsends⟩

/-- A step that keeps revocations keeps the row of an open revocation open. -/
theorem open_item (hreach : Reachable (worldMachine settings) ok w)
    (hkeeps : KeepsRevocations settings w a) (hstep : StepCases settings w a w')
    (hr : r ∈ w.revocations) (hover : ¬ SessionOver w.central.events r) (h : Open w r) :
    ∀ q ∈ w'.store.db.syncQueue, q.id = r.itemId → ¬ q.Done := by
  have hstore := store_reachable hreach
  obtain ⟨generation, htracked⟩ := revocations_tracked hreach r hr
  have hquiet : ∀ {op : Op} {store : Store} {reply : Reply},
      w.store.apply op = some (store, reply) → quiet op = true →
      ∀ q ∈ store.db.syncQueue, q.id = r.itemId → ¬ q.Done :=
    fun happly hop => item_quiet hstore htracked hop (apply_step happly).1 h.item
  -- a completion that names another item
  have hother : ∀ {op : Op} {store : Store} {reply : Reply} {how token owner} {itemId : Uuid},
      w.store.apply op = some (store, reply) →
      op.settling = some (how, itemId, token, owner) → (itemId = r.itemId → how = .fail) →
      ∀ q ∈ store.db.syncQueue, q.id = r.itemId → ¬ q.Done := by
    intro op store reply how token owner itemId happly hop hfail
    refine item_step hstore htracked (apply_step happly).1 (fun _ _ _ hsettling => ?_)
      (fun _ _ _ he => ?_) (fun _ he => ?_) (fun _ _ _ he => ?_) h.item
    · cases hop.symm.trans hsettling
      exact hfail rfl
    all_goals
      subst he
      cases hop
  cases hstep with
  | flush | attempted | attemptRaised | login | license | logout | refresh | authLogout
    | authRefresh | authenticate | expire | crash => exact h.item
  | @op op store reply hlocal happly =>
    cases op with
    | discardDeadLetter now itemId =>
      refine item_step hstore htracked (apply_step happly).1 (fun _ _ _ he => ?_)
        (fun _ _ _ he => ?_) (fun _ he => ?_) (fun _ _ _ he => ?_) h.item
      · cases he
      · cases he
      · cases he
        exact hkeeps.1 r hr rfl
      · cases he
    | purgeRetained now d d' =>
      exact item_purge hstore htracked (hkeeps.2 r hr hover) (apply_step happly).1 h.item
    | createCamera | updateCamera | deleteCamera | addEvent | addAlert | addPeopleCount
      | retryDeadLetter => exact hquiet happly rfl
    | _ => cases hlocal
  | claimed _ _ happly | claimRaised _ happly | clear _ happly => exact hquiet happly rfl
  | @settled i now pass item settlement rest store reply hmem hstage happly =>
    have hunsettled : item.id = r.itemId → Unsettled (.settling settlement) :=
      h.stages pass hmem item _ rest hstage
    cases settlement with
    | fail => exact hquiet happly rfl
    | complete | completeCamera | completeRevocation =>
      exact hother happly rfl fun hid => (hunsettled hid).elim
  | purged happly =>
    exact item_purge hstore htracked (hkeeps.2 r hr hover) (apply_step happly).1 h.item
  | @authWrite now newId claimToken task op store reply hauth hop happly =>
    cases task with
    | loginSave session expiry =>
      cases hop
      refine item_save (fun q hq hid hcancellable => hover ?_) (apply_step happly).1 h.item
      exact over_login (loginsNoted_reachable hreach) hauth hr
        (hkeeps.2 session (by rw [savingSession, hauth]; rfl) r hr hover q hq hid hcancellable)
    | logoutComplete record generation itemId token =>
      cases hop
      refine hother happly rfl fun hid => ?_
      subst hid
      exact absurd hauth (h.complete _ _ _)
    | logoutBegin | logoutSetError | logoutFail | refreshClear | refreshReplace =>
      cases hop
      exact hquiet happly rfl
    | loginLicense | loginUndo | logoutCall | refreshCall => cases hop

/-- A step that keeps revocations keeps the passes sending the item of an open revocation. -/
theorem open_passes (hreach : Reachable (worldMachine settings) ok w)
    (hkeeps : KeepsRevocations settings w a) (hstep : w.step settings a = some w')
    (hr : r ∈ w.revocations) (hover : ¬ SessionOver w'.central.events r) (h : Open w r) :
    ∀ pass ∈ w'.passes, (∀ item ∈ passItems pass, item.id = r.itemId →
        SendsItem pass.record item r) ∧
      ∀ item stage rest, pass.stage = .working item stage rest → item.id = r.itemId →
        Unsettled stage := by
  have hold : ∀ pass ∈ w.passes, _ := fun pass hmem => And.intro (h.sends pass hmem)
    (h.stages pass hmem)
  have hlive : ¬ SessionOver w.central.events r := fun he => hover (over_step (step_cases hstep) he)
  by_cases hclaim : ∃ i now token, a = .claim i now token
  · obtain ⟨i, now, token, rfl⟩ := hclaim
    obtain ⟨pass, reply, hpass, happly, hpasses⟩ := claim_step hstep
    intro pass' hpass'
    rcases hpasses pass' hpass' with hmem | ⟨rows, rfl, rfl⟩
    · exact hold pass' hmem
    · exact next_open (claim_sends hreach hr hlive (hkeeps.2 pass hpass) happly)
  intro pass' hpass'
  cases step_cases hstep with
  | op | login | license | logout | refresh | authWrite | authLogout | authRefresh | authenticate
    | clear | expire => exact hold pass' hpass'
  | crash => cases hpass'
  | claimed | claimRaised => exact absurd ⟨_, _, _, rfl⟩ hclaim
  | attemptRaised | purged => exact hold pass' (List.mem_of_mem_eraseIdx hpass')
  | flush =>
    rcases List.mem_append.mp hpass' with hmem | hnew
    · exact hold pass' hmem
    · rw [List.mem_singleton.mp hnew]
      exact ⟨fun _ hitem => absurd hitem List.not_mem_nil, fun _ _ _ hstage => by cases hstage⟩
  | settled hmem hstage =>
    rcases mem_set hpass' with rfl | hmem'
    · refine next_open fun item hitem hid => h.sends _ hmem item ?_ hid
      rw [passItems, hstage]
      exact List.mem_cons_of_mem _ hitem
    · exact hold pass' hmem'
  | @attempted i applied outcome pass item call attempt rest central stage hmem hstage hanswer
      hreceive =>
    rcases mem_set hpass' with rfl | hmem'
    · have hsends : ∀ item' ∈ item :: rest, item'.id = r.itemId → _ := fun item' hitem' hid =>
        h.sends pass hmem item' (by rw [passItems, hstage]; exact hitem') hid
      refine ⟨hsends, fun item' stage' rest' heq hid => ?_⟩
      cases heq
      -- the item is at its logout, and a logout that ends the session would be in the history
      have hunsettled := h.stages pass hmem item _ rest hstage hid
      cases call with
      | main | analytics => exact hunsettled.elim
      | logout =>
        rw [← hreceive]
        refine (receive_logout settings item attempt applied outcome).resolve_right fun hends => ?_
        obtain ⟨generation, -, -, -, htoken⟩ := hsends item List.mem_cons_self hid
        obtain ⟨new, hevents, hlogout⟩ := answer_events hanswer
        refine hover (.inl ?_)
        show _ ∈ central.events
        rw [hevents, ← htoken]
        exact List.mem_append_left _ (hlogout rfl hends)
    · exact hold pass' hmem'

/-- A logout completes its revocation only when the service is done with the session. -/
theorem step_loggedOut (hstep : StepCases settings w a w') {record : SessionRecord}
    {generation : Nat} {itemId token : Uuid}
    (htask : w'.auth = some (.logoutComplete record generation itemId token)) :
    w.auth = some (.logoutComplete record generation itemId token) ∨
      (w.auth = some (.logoutCall record generation itemId token) ∧
        .logout record.session.sessionToken ∈ w'.central.events) := by
  cases step_task hstep htask with
  | kept hauth => exact .inl hauth
  -- the task moved on because the call of its own logout was answered
  | loggedOut hauth =>
    refine .inr ⟨hauth, ?_⟩
    cases hstep with
    | @authLogout applied outcome task session central hcall hsession hanswer =>
      cases hcall.symm.trans hauth
      cases hsession
      obtain ⟨-, hends⟩ := afterLogout_complete htask applied
      obtain ⟨new, hevents, hlogout⟩ := answer_events hanswer
      show _ ∈ central.events
      rw [hevents]
      exact List.mem_append_left _ (hlogout rfl hends)
    | op | flush | claimed | claimRaised | attempted | attemptRaised | settled | purged
      | authenticate | clear | expire => cases htask.symm.trans hauth
    | crash => cases htask
    | login hnone | logout hnone | refresh hnone => cases hnone.symm.trans hauth
    | license hcall | authRefresh hcall => cases hcall.symm.trans hauth
    | authWrite hcall hop =>
      cases hcall.symm.trans hauth
      cases hop

/-- The revocation that a logout starts is open. -/
theorem open_started (hreach : Reachable (worldMachine settings) ok w) {record : SessionRecord}
    {now : Timestamp} {newId claimToken token : Uuid} {generation : Nat}
    (happly : w.store.apply (.beginRevocation now newId claimToken record.generation
      settings.maxAttempts settings.leaseSeconds.val) =
        some (w'.store, .revocation (some (generation, r.itemId, token))))
    (hauth : w'.auth = some (.logoutCall record generation r.itemId token))
    (hpasses : w'.passes = w.passes)
    (htoken : record.session.sessionToken = r.sessionToken) : Open w' r := by
  have hkeyed := keyed_reachable (store_reachable hreach)
  -- no pass holds the new item
  have hnew : ∀ pass ∈ w'.passes, ∀ item ∈ passItems pass, item.id ≠ r.itemId := by
    rw [hpasses]
    intro pass hpass item hitem
    exact began_new ((coherent_reachable hreach).passes pass hpass item hitem) happly
  refine ⟨fun q hq hid => ?_,
    fun pass hpass item hitem hid => absurd hid (hnew pass hpass item hitem),
    fun pass hpass item stage rest hstage hid => absurd hid (hnew pass hpass item ?_), ?_, ?_⟩
  · obtain ⟨-, hreply, hadmits, hdb, -⟩ := apply_step happly
    obtain ⟨row, -, -, -, -, heq, hrun⟩ := beginRevocation_started hreply.symm
    rw [hdb, hrun] at hq
    obtain ⟨q₀, hq₀, rfl⟩ := mem_updateWhere.mp hq
    have hid₀ : q₀.id = r.itemId := by
      split at hid <;> exact hid
    have hnewId : ∀ t ∈ w.store.db.syncQueue, t.id ≠ newId := fun t ht he =>
      hadmits.2 newId (by simp [Op.uuids]) (he ▸ hkeyed.issued t ht)
    have hfresh := (enqueue_row hkeyed.unique hnewId hq₀ (hid₀.trans heq)).2.1
    rw [if_pos ⟨hid₀, hfresh.1⟩]
    rintro (hd | hd) <;> cases hd
  · rw [passItems, hstage]
    exact List.mem_cons_self
  · intro record' generation' token' htask
    cases hauth.symm.trans htask
    exact htoken
  · intro record' generation' token' htask
    cases hauth.symm.trans htask

/-- A step that keeps revocations ends the central session of an open revocation or keeps the
revocation open. -/
theorem open_step (hreach : Reachable (worldMachine settings) ok w)
    (hkeeps : KeepsRevocations settings w a) (hstep : w.step settings a = some w')
    (hr : r ∈ w.revocations) (hover : ¬ SessionOver w'.central.events r) (h : Open w r) :
    Open w' r := by
  have hcases := step_cases hstep
  have hlive : ¬ SessionOver w.central.events r := fun he => hover (over_step hcases he)
  have hpasses := open_passes hreach hkeeps hstep hr hover h
  refine ⟨open_item hreach hkeeps hcases hr hlive h, fun pass hpass => (hpasses pass hpass).1,
    fun pass hpass => (hpasses pass hpass).2, ?_, ?_⟩
  · intro record generation token htask
    cases step_task hcases htask with
    | kept hauth => exact h.call _ _ _ hauth
    | began _ happly =>
      obtain ⟨_, htracked⟩ := revocations_tracked hreach r hr
      exact absurd rfl (began_new htracked happly)
  · intro record generation token htask
    rcases step_loggedOut hcases htask with hauth | ⟨hauth, hlogout⟩
    · exact h.complete _ _ _ hauth
    · rw [h.call _ _ _ hauth] at hlogout
      exact hover (.inl hlogout)

/-! ### KeepsRevocations runs -/

/-- In a run that keeps revocations every revocation is open until its central session has ended. -/
theorem open_reachable (h : Reachable (worldMachine settings) (KeepsRevocations settings) w) :
    ∀ r ∈ w.revocations, SessionOver w.central.events r ∨ Open w r := by
  refine h.invariant (I := fun w => ∀ r ∈ w.revocations, SessionOver w.central.events r ∨ Open w r)
    (fun _ hr => absurd hr List.not_mem_nil) fun w a w' hreach hkeeps hstep ih r hr => ?_
  by_cases hover : SessionOver w'.central.events r
  · exact .inl hover
  refine .inr ?_
  rcases step_started (authBound_reachable hreach) (step_cases hstep) hr with
    hold | ⟨record, now, newId, claimToken, generation, token, happly, hauth, hpasses, htoken⟩
  · rcases ih r hold with he | hopen
    · exact absurd (over_step (step_cases hstep) he) hover
    · exact open_step hreach hkeeps hstep hold hover hopen
  · exact open_started hreach happly hauth hpasses htoken

/-- A pending revocation is not lost in such a run. When its item has succeeded or was
cancelled, the central service has accepted or refused a logout of the session, or has accepted a
later login of the session's user. -/
theorem revocation_kept (h : Reachable (worldMachine settings) (KeepsRevocations settings) w) :
    ∀ r ∈ w.revocations, ∀ q ∈ w.store.db.syncQueue, q.id = r.itemId → q.Done →
      SessionOver w.central.events r :=
  fun r hr q hq hid hdone =>
    (open_reachable h r hr).resolve_right fun hopen => hopen.item q hq hid hdone

end Worlds

/-! ### A login of another user -/

/-- A session of user 3, and a session of user 5. -/
def heldSession : LocalSession := ⟨1, 2, some 4, 1000000000, some 3, none⟩

def otherSession : LocalSession := ⟨11, 12, some 14, 1000000000, some 5, none⟩

/-- A login under a licence that ends late. -/
def loginActs (user : Uuid) (session : LocalSession) (now : Timestamp) : List Act :=
  [.login user session true, .license now (some ([("is_active", .bool true)], 1000000000)),
    .authWrite now 0 0]

/-- A logout that does not reach the central service. -/
def offlineLogout (now : Timestamp) (itemId claimToken : Uuid) : List Act :=
  [.logout, .authWrite now itemId claimToken, .authLogout false (.raised .network),
    .authWrite now 0 0, .authWrite now 0 0]

/-- The user logs out offline, and a later pass sends the logout. -/
def sentLogout : List Act :=
  loginActs 3 heldSession 0 ++ offlineLogout 1 10 11 ++
    [.flush "worker" 100, .claim 0 5000000 13,
      .attempt 0 true (.response ⟨200, "application/json",
        .value (.obj [("success", .bool true)])⟩), .settle 0 5000001]

/-- The item has succeeded, and the central session has ended. -/
theorem revocation_kept_sent :
    let w := (worldMachine defaultSettings).final .empty sentLogout
    (∃ q ∈ w.store.db.syncQueue, q.id = 10 ∧ q.Done) ∧ SessionOver w.central.events ⟨10, 2, 3⟩ := by
  intro w
  have hdone : ∃ q ∈ w.store.db.syncQueue, q.id = 10 ∧ q.Done := by decide +kernel
  obtain ⟨q, hq, hid, hd⟩ := hdone
  exact ⟨⟨q, hq, hid, hd⟩, revocation_kept (.final .init sentLogout (by decide +kernel)) ⟨10, 2, 3⟩
    (by decide +kernel) q hq hid hd⟩

/-- The user logs out offline, and another user logs in. -/
def lostLogout : List Act :=
  loginActs 3 heldSession 0 ++ offlineLogout 1 10 11 ++ loginActs 5 otherSession 2

/-- The login cancels the item, and the first session lives on at the central service. -/
theorem revocation_lost :
    ¬ ∀ w, Reachable (worldMachine defaultSettings) Undiscarded w →
      ∀ r ∈ w.revocations, ∀ q ∈ w.store.db.syncQueue, q.id = r.itemId → q.Done →
        SessionOver w.central.events r := by
  intro h
  have hlost : ∃ r ∈ ((worldMachine defaultSettings).final .empty lostLogout).revocations,
      ∃ q ∈ ((worldMachine defaultSettings).final .empty lostLogout).store.db.syncQueue,
        q.id = r.itemId ∧ q.Done ∧ ¬ SessionOver
          ((worldMachine defaultSettings).final .empty lostLogout).central.events r := by
    decide +kernel
  obtain ⟨r, hr, q, hq, hid, hdone, hlive⟩ := hlost
  exact hlive (h _ (.final .init lostLogout (by decide +kernel)) r hr q hq hid hdone)

/-- A pass that read the session before the logout claims the item after it, and completes the
item without a call. -/
def staleLogout : List Act :=
  loginActs 3 heldSession 0 ++ [.flush "worker" 100] ++ offlineLogout 1 10 11 ++
    [.claim 0 5000000 13, .settle 0 5000001]

/-- The item has succeeded although no logout reached the central service. -/
theorem revocation_unsent :
    let w := (worldMachine defaultSettings).final .empty staleLogout
    (∃ q ∈ w.store.db.syncQueue, q.id = 10 ∧ q.state = .succeeded) ∧
      ¬ SessionOver w.central.events ⟨10, 2, 3⟩ := by
  decide +kernel

end Rsap.Proofs
