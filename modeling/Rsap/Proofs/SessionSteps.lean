import Rsap.Proofs.Peers
import Rsap.Webapp.SessionWorld

/-!
# `Rsap.Proofs.SessionSteps`: what a step of the session system does

`session_cases` lists the steps that can be taken, each with what the step checked and with the
world after it. Every invariant of the session system is proved over this list. The steps that
only move one task on are grouped: `RequestMoves` has those of logouts and refreshes.
-/

set_option autoImplicit false

namespace Rsap.Proofs

open Rsap.Desktop (Uuid Timestamp Token)
open Rsap.Library
open Rsap.Webapp

/-- A task of a list in which one was replaced: the new one, or an old one at another place. -/
theorem getElem?_set_cases {α : Type} {l : List α} {i j : Nat} {a b : α}
    (h : (l.set i a)[j]? = some b) : j = i ∧ b = a ∨ j ≠ i ∧ l[j]? = some b := by
  rw [List.getElem?_set] at h
  split at h
  · rename_i hij
    split at h
    · cases h
      exact .inl ⟨hij.symm, rfl⟩
    · cases h
  · rename_i hij
    exact .inr ⟨fun heq => hij heq.symm, h⟩

/-- A task of a list to which one was appended. -/
theorem getElem?_append_cases {α : Type} {l : List α} {j : Nat} {a b : α}
    (h : (l ++ [a])[j]? = some b) : l[j]? = some b ∨ j = l.length ∧ b = a := by
  rcases Nat.lt_or_ge j l.length with hlt | hge
  · rw [List.getElem?_append_left hlt] at h
    exact .inl h
  · rw [List.getElem?_append_right hge] at h
    obtain ⟨hlt, hval⟩ := List.getElem?_eq_some_iff.mp h
    have hj : j = l.length := by
      rw [List.length_singleton] at hlt
      omega
    subst hj
    exact .inr ⟨rfl, by simpa using hval.symm⟩

/-- The steps of a request that read only, with the phase after them. -/
inductive RequestMoves (settings : SessionSettings) (w : SessionWorld) (request : SessionRequest) :
    RequestPhase → Prop where
  | loaded {state : SessionState} {licenseId : Uuid} : request.phase = .arrived →
      loadJson w.now (w.redis request.userId).session = some state →
      validateState settings w.now request.sessionToken (some request.sid) state =
        some licenseId →
      RequestMoves settings w request (.loaded licenseId)
  | validated {licenseId : Uuid} : request.phase = .loaded licenseId →
      w.db.Validates w.now request.userId request.sessionToken licenseId →
      RequestMoves settings w request .validated
  | unauthorized : RequestMoves settings w request (.answered .unauthorized)
  | superseded {state : RefreshState} : request.phase = .unrotated →
      loadJson w.now (w.redis request.userId).refresh = some state → state.sid ≠ request.sid →
      RequestMoves settings w request (.answered (.consumed (some state)))
  | replayed {current : Option RefreshState} : request.phase = .unrotated →
      RequestMoves settings w request (.replayed current)
  | raised : RequestMoves settings w request (.answered .raised)

/-- The transactions that revoke the session of a request, with the answers after them. -/
inductive Closes (request : SessionRequest) : Answer → Prop where
  | logout {accessSid : Digest} {answer : Answer} : request.phase = .validated →
      request.kind = .logout accessSid → answer = .loggedOut ∨ answer = .raised →
      Closes request answer
  | replay {current : Option RefreshState} {answer : Answer} : request.phase = .replayed current →
      answer = .consumed current ∨ answer = .raised → Closes request answer

/-- The licence with which the first row of a pass is at its Redis command. -/
inductive AtCommand (row : OutboxRow) : RowPhase → Option License → Prop where
  | revoke : row.operation = .revoke → AtCommand row .ready none
  | reconcile {license : Option License} : row.operation = .reconcile →
      AtCommand row (.updated license) license

/-- The steps that can be taken. -/
inductive SessionCases (settings : SessionSettings) (w : SessionWorld) :
    SessionAct → SessionWorld → Prop where
  | tick {now : Timestamp} : w.now ≤ now → SessionCases settings w (.tick now) { w with now }
  | login {userId : Uuid} {sessionToken : Token} {jti : Uuid} {token : RefreshToken} :
      sessionToken ∉ w.drawn → jti ∉ w.issued.map RefreshToken.jti →
      token = settings.issue w.now userId (settings.sha256 sessionToken) jti →
      SessionCases settings w (.login userId sessionToken jti)
        { w with
          drawn := sessionToken :: w.drawn
          issued := token :: w.issued
          logins := w.logins ++ [⟨userId, sessionToken, token, .started⟩] }
  | loginMoved {a : SessionAct} {i : Nat} {task : LoginTask} {phase : LoginPhase} :
      w.logins[i]? = some task → phase = .ended ∨ phase = .compensating →
      SessionCases settings w a (w.setLogin i (task.to phase))
  | activated {i : Nat} {lost : Bool} {task : LoginTask} {license : License} {phase : LoginPhase} :
      w.logins[i]? = some task → task.phase = .started → w.locked task.userId = false →
      w.db.loginLicense w.now task.userId = some license →
      phase = .ended ∨ phase = .activated w.now license →
      SessionCases settings w (.activate i lost)
        ((w.setPair task.userId (task.pair settings license)).setLogin i (task.to phase))
  | committed {i : Nat} {lost : Bool} {task : LoginTask} {startedAt : Timestamp}
      {license : License} {db : Database} {phase : LoginPhase} :
      w.logins[i]? = some task → task.phase = .activated startedAt license →
      w.db.openSession startedAt task.userId task.sessionToken license.validUntil = some db →
      phase = .ended ∨ phase = .compensating →
      SessionCases settings w (.commit i lost)
        ({ w with
          db
          commits := ⟨task.userId, settings.sha256 task.sessionToken, db.nextOutboxId⟩ :: w.commits
        }.setLogin i (task.to phase))
  | compensated {i : Nat} {task : LoginTask} {pair : Pair} : w.logins[i]? = some task →
      task.phase = .compensating →
      deleteIfSid w.now (settings.sha256 task.sessionToken) (w.redis task.userId) = some pair →
      SessionCases settings w (.compensate i)
        ((w.runCommand task.userId pair .compensation).setLogin i (task.to .ended))
  | requested {userId : Uuid} {sessionToken : Token} {kind : RequestKind} :
      (∀ token, kind = .refresh token → token ∈ w.issued ∧ token.sub = userId) →
      SessionCases settings w (.request userId sessionToken kind)
        { w with requests := w.requests ++ [⟨userId, sessionToken, kind, .arrived⟩] }
  | requestMoved {a : SessionAct} {i : Nat} {request : SessionRequest} {phase : RequestPhase} :
      w.requests[i]? = some request → RequestMoves settings w request phase →
      SessionCases settings w a (w.setRequest i (request.to phase))
  | closed {a : SessionAct} {i : Nat} {request : SessionRequest} {answer : Answer} :
      w.requests[i]? = some request → Closes request answer →
      SessionCases settings w a (w.close i request answer)
  | issued {i : Nat} {jti : Uuid} {request : SessionRequest} {token replacement : RefreshToken} :
      w.requests[i]? = some request → request.phase = .validated → request.kind = .refresh token →
      jti ∉ w.issued.map RefreshToken.jti →
      replacement = settings.issue w.now request.userId token.sid jti →
      SessionCases settings w (.issue i jti)
        ({ w with issued := replacement :: w.issued
        }.setRequest i (request.to (.issued replacement)))
  | rotated {i : Nat} {lost : Bool} {request : SessionRequest} {token replacement : RefreshToken} :
      w.requests[i]? = some request → request.phase = .issued replacement →
      request.kind = .refresh token →
      SessionCases settings w (.rotate i lost) (w.rotate settings i request token replacement lost)
  | admin {actor : CurrentUser} {request : AdminRequest} {db : Database} :
      ServeCases w.now actor w.db request db →
      SessionCases settings w (.admin actor request) { w with db }
  | adminRaised {actor : CurrentUser} {request : AdminRequest} :
      SessionCases settings w (.admin actor request) w
  | fetched : SessionCases settings w .fetch
      { w with passes := w.passes ++ [⟨w.db.pendingOutbox 100, .ready⟩] }
  | passMoved {a : SessionAct} {i : Nat} {row : OutboxRow} {rest : List OutboxRow}
      {phase phase' : RowPhase} : w.passes[i]? = some ⟨row :: rest, phase⟩ →
      SessionCases settings w a (w.setPass i ⟨row :: rest, phase'⟩)
  | updated {i : Nat} {row : OutboxRow} {rest : List OutboxRow} {license : Option License} :
      w.passes[i]? = some ⟨row :: rest, .licensed license⟩ →
      SessionCases settings w (.update i)
        ({ w with db := w.db.reconcile row.userId license w.now
        }.setPass i ⟨row :: rest, .updated license⟩)
  | commanded {i : Nat} {lost : Option String} {row : OutboxRow} {rest : List OutboxRow}
      {phase phase' : RowPhase} {license : Option License} {pair : Pair} :
      w.passes[i]? = some ⟨row :: rest, phase⟩ → AtCommand row phase license →
      row.command w.now license (w.redis row.userId) = some pair →
      SessionCases settings w (.command i lost)
        ((w.runCommand row.userId pair (.row row)).setPass i ⟨row :: rest, phase'⟩)
  | marked {i : Nat} {row : OutboxRow} {rest : List OutboxRow} {phase : RowPhase}
      {db : Database} : w.passes[i]? = some ⟨row :: rest, phase⟩ →
      (db = w.db.markProcessed row.id w.now ∨ ∃ error, db = w.db.markFailed row.id error) →
      SessionCases settings w (.mark i) ({ w with db }.setPass i ⟨rest, .ready⟩)
  | passEnded {i : Nat} :
      SessionCases settings w (.passEnd i) { w with passes := w.passes.eraseIdx i }

section
variable {settings : SessionSettings} {w w' : SessionWorld} {i : Nat}

/-- The activation of a login, as a case of a step. -/
theorem activate_cases {task : LoginTask} {lost : Bool} (htask : w.logins[i]? = some task)
    (hphase : task.phase = .started) (hlock : w.locked task.userId = false) :
    SessionCases settings w (.activate i lost) (w.activate settings i task lost) := by
  unfold SessionWorld.activate
  split
  · exact .loginMoved htask (.inl rfl)
  · rename_i license hlicense
    split
    · exact .loginMoved htask (.inl rfl)
    · refine .activated htask hphase hlock hlicense ?_
      cases lost with
      | true => exact .inl rfl
      | false => exact .inr rfl

/-- The commit of a login, as a case of a step. -/
theorem commit_cases {task : LoginTask} {lost : Bool} {startedAt : Timestamp} {license : License}
    (htask : w.logins[i]? = some task) (hphase : task.phase = .activated startedAt license) :
    SessionCases settings w (.commit i lost)
      (w.commit settings i task startedAt license lost) := by
  unfold SessionWorld.commit
  split
  · exact .loginMoved htask (.inr rfl)
  · rename_i db hopen
    refine .committed htask hphase hopen ?_
    cases lost with
    | true => exact .inr rfl
    | false => exact .inl rfl

/-- The compensation of a login, as a case of a step. -/
theorem compensate_cases {task : LoginTask} (htask : w.logins[i]? = some task)
    (hphase : task.phase = .compensating) :
    SessionCases settings w (.compensate i) (w.compensate settings i task) := by
  unfold SessionWorld.compensate
  split
  · exact .loginMoved htask (.inl rfl)
  · rename_i pair hpair
    exact .compensated htask hphase hpair

/-- The load of the session, as a case of a step. -/
theorem load_cases {request : SessionRequest} (hrequest : w.requests[i]? = some request)
    (h : w.stepRequest settings i request (.load i) = some w') :
    SessionCases settings w (.load i) w' := by
  simp only [SessionWorld.stepRequest] at h
  split at h
  · rename_i hphase
    cases h
    refine .requestMoved hrequest ?_
    cases hstate : loadJson w.now (w.redis request.userId).session with
    | none => exact .unauthorized
    | some state =>
      show RequestMoves settings w request (Option.elim (validateState settings w.now
        request.sessionToken (some request.sid) state) _ _)
      cases hlicense : validateState settings w.now request.sessionToken (some request.sid) state
      with
      | none => exact .unauthorized
      | some licenseId => exact .loaded hphase hstate hlicense
  · cases h

/-- The validation against Redis, as a case of a step. -/
theorem validate_cases {request : SessionRequest} (hrequest : w.requests[i]? = some request)
    (h : w.stepRequest settings i request (.validate i) = some w') :
    SessionCases settings w (.validate i) w' := by
  simp only [SessionWorld.stepRequest] at h
  split at h
  · rename_i licenseId hphase
    cases h
    refine .requestMoved hrequest ?_
    split
    · rename_i hvalid
      exact .validated hphase hvalid
    · exact .unauthorized
  · cases h

/-- The transaction of a logout, as a case of a step. -/
theorem logout_cases {request : SessionRequest} {lost : Bool}
    (hrequest : w.requests[i]? = some request)
    (h : w.stepRequest settings i request (.logout i lost) = some w') :
    SessionCases settings w (.logout i lost) w' := by
  simp only [SessionWorld.stepRequest] at h
  split at h
  · rename_i accessSid hphase hkind
    split at h
    · cases h
    · cases h
      refine .closed hrequest (.logout hphase hkind ?_)
      cases lost with
      | true => exact .inr rfl
      | false => exact .inl rfl
  · cases h

/-- The issue of a refresh token, as a case of a step. -/
theorem issue_cases {request : SessionRequest} {jti : Uuid}
    (hrequest : w.requests[i]? = some request)
    (h : w.stepRequest settings i request (.issue i jti) = some w') :
    SessionCases settings w (.issue i jti) w' := by
  simp only [SessionWorld.stepRequest] at h
  split at h
  · rename_i token hphase hkind
    split at h
    · cases h
      exact .requestMoved hrequest .unauthorized
    · split at h
      · cases h
      · rename_i hfresh
        cases h
        exact .issued hrequest hphase hkind hfresh rfl
  · cases h

/-- The rotation of the refresh key, as a case of a step. -/
theorem rotate_cases {request : SessionRequest} {lost : Bool}
    (hrequest : w.requests[i]? = some request)
    (h : w.stepRequest settings i request (.rotate i lost) = some w') :
    SessionCases settings w (.rotate i lost) w' := by
  simp only [SessionWorld.stepRequest] at h
  split at h
  · rename_i replacement token hphase hkind
    cases h
    exact .rotated hrequest hphase hkind
  · cases h

/-- The second read of the refresh key, as a case of a step. -/
theorem reread_cases {request : SessionRequest} (hrequest : w.requests[i]? = some request)
    (h : w.stepRequest settings i request (.reread i) = some w') :
    SessionCases settings w (.reread i) w' := by
  simp only [SessionWorld.stepRequest] at h
  split at h
  · rename_i hphase
    cases h
    refine .requestMoved hrequest ?_
    split
    · rename_i hother
      obtain ⟨state, hstate, hne⟩ := hother
      have hcurrent := Option.mem_def.mp hstate
      rw [hcurrent]
      exact .superseded hphase hcurrent hne
    · exact .replayed hphase
  · cases h

/-- The transaction of a detected replay, as a case of a step. -/
theorem revoke_cases {request : SessionRequest} {lost : Bool}
    (hrequest : w.requests[i]? = some request)
    (h : w.stepRequest settings i request (.revoke i lost) = some w') :
    SessionCases settings w (.revoke i lost) w' := by
  simp only [SessionWorld.stepRequest] at h
  split at h
  · rename_i current hphase
    split at h
    · cases h
    · cases h
      refine .closed hrequest (.replay hphase ?_)
      cases lost with
      | true => exact .inr rfl
      | false => exact .inl rfl
  · cases h

/-- The command of an outbox row, as a case of a step. -/
theorem command_cases {row : OutboxRow} {rest : List OutboxRow} {phase : RowPhase}
    {license : Option License} {lost : Option String}
    (hpass : w.passes[i]? = some ⟨row :: rest, phase⟩) (hat : AtCommand row phase license) :
    SessionCases settings w (.command i lost) (w.command i row rest license lost) := by
  unfold SessionWorld.command
  split
  · exact .passMoved hpass
  · rename_i pair hpair
    exact .commanded hpass hat hpair

/-- A step of a pass is one of the listed ones. -/
theorem stepPass_cases {row : OutboxRow} {rest : List OutboxRow} {phase : RowPhase}
    (hpass : w.passes[i]? = some ⟨row :: rest, phase⟩) {a : SessionAct}
    (ha : a = .query i ∨ a = .update i ∨ (∃ lost, a = .command i lost) ∨
      (∃ error, a = .rowRaise i error) ∨ a = .mark i)
    (h : w.stepPass i row rest phase a = some w') : SessionCases settings w a w' := by
  -- the acts of a pass: read the licence, update the row, send the command, raise, mark
  rcases ha with rfl | rfl | ⟨lost, rfl⟩ | ⟨error, rfl⟩ | rfl
  · simp only [SessionWorld.stepPass] at h
    split at h
    · cases h
      exact .passMoved hpass
    · cases h
  · simp only [SessionWorld.stepPass] at h
    split at h
    · cases h
      exact .updated hpass
    · cases h
  · simp only [SessionWorld.stepPass] at h
    split at h
    · rename_i hoperation
      cases h
      exact command_cases hpass (.revoke hoperation)
    · rename_i license hoperation
      cases h
      exact command_cases hpass (.reconcile hoperation)
    · cases h
  · cases h
    exact .passMoved hpass
  · simp only [SessionWorld.stepPass] at h
    split at h
    · cases h
      exact .marked hpass (.inl rfl)
    · rename_i error
      cases h
      exact .marked hpass (.inr ⟨error, rfl⟩)
    · cases h

/-- Every step that can be taken is one of the listed ones. -/
theorem session_cases {a : SessionAct} (h : w.step settings a = some w') :
    SessionCases settings w a w' := by
  cases a with
  | tick now =>
    simp only [SessionWorld.step] at h
    split at h
    · rename_i hle
      cases h
      exact .tick hle
    · cases h
  -- a login: its start, then the three awaits, and the ways it ends
  | login userId sessionToken jti =>
    simp only [SessionWorld.step] at h
    split at h
    · rename_i hguard
      cases h
      exact .login hguard.2.1 hguard.2.2 rfl
    · cases h
  | activate i lost =>
    simp only [SessionWorld.step] at h
    split at h
    · rename_i task htask
      simp only [SessionWorld.stepLogin] at h
      split at h
      · rename_i hguard
        cases h
        exact activate_cases htask hguard.1 hguard.2
      · cases h
    · cases h
  | commit i lost =>
    simp only [SessionWorld.step] at h
    split at h
    · rename_i task htask
      simp only [SessionWorld.stepLogin] at h
      split at h
      · rename_i startedAt license hphase
        cases h
        exact commit_cases htask hphase
      · cases h
    · cases h
  | compensate i =>
    simp only [SessionWorld.step] at h
    split at h
    · rename_i task htask
      simp only [SessionWorld.stepLogin] at h
      split at h
      · rename_i hphase
        cases h
        exact compensate_cases htask hphase
      · cases h
    · cases h
  | loginRaise i =>
    simp only [SessionWorld.step] at h
    split at h
    · rename_i task htask
      cases h
      refine .loginMoved htask ?_
      split
      · exact .inr rfl
      · exact .inl rfl
    · cases h
  | loginCancel i =>
    simp only [SessionWorld.step] at h
    split at h
    · rename_i task htask
      cases h
      exact .loginMoved htask (.inl rfl)
    · cases h
  -- a request with the tokens that it carries
  | request userId sessionToken kind =>
    simp only [SessionWorld.step] at h
    split at h
    · rename_i hgenuine
      cases h
      refine .requested fun token hkind => ?_
      subst hkind
      have hall : token ∈ w.issued ∧ token.sub = userId ∧ seconds w.now ≤ token.exp := by
        simpa [SessionWorld.genuine, and_assoc] using hgenuine
      exact ⟨hall.1, hall.2.1⟩
    · cases h
  -- the awaits of a request, each with its own inversion lemma
  | load i =>
    simp only [SessionWorld.step] at h
    split at h
    · rename_i request hrequest
      exact load_cases hrequest h
    · cases h
  | validate i =>
    simp only [SessionWorld.step] at h
    split at h
    · rename_i request hrequest
      exact validate_cases hrequest h
    · cases h
  | logout i lost =>
    simp only [SessionWorld.step] at h
    split at h
    · rename_i request hrequest
      exact logout_cases hrequest h
    · cases h
  | issue i jti =>
    simp only [SessionWorld.step] at h
    split at h
    · rename_i request hrequest
      exact issue_cases hrequest h
    · cases h
  | rotate i lost =>
    simp only [SessionWorld.step] at h
    split at h
    · rename_i request hrequest
      exact rotate_cases hrequest h
    · cases h
  | reread i =>
    simp only [SessionWorld.step] at h
    split at h
    · rename_i request hrequest
      exact reread_cases hrequest h
    · cases h
  | revoke i lost =>
    simp only [SessionWorld.step] at h
    split at h
    · rename_i request hrequest
      exact revoke_cases hrequest h
    · cases h
  | requestRaise i =>
    simp only [SessionWorld.step] at h
    split at h
    · rename_i request hrequest
      simp only [SessionWorld.stepRequest] at h
      split at h
      · cases h
      · cases h
        exact .requestMoved hrequest .raised
    · cases h
  -- a request of an administrator is one transaction
  | admin actor request =>
    simp only [SessionWorld.step] at h
    split at h
    · cases h
    · split at h
      · rename_i db hserve
        cases h
        exact .admin (serve_cases hserve)
      · cases h
        exact .adminRaised
  -- the worker of the outbox: a batch, and for each row the acts of a pass
  | fetch =>
    cases h
    exact .fetched
  | query i =>
    simp only [SessionWorld.step] at h
    split at h
    · rename_i row rest phase hpass
      exact stepPass_cases hpass (.inl rfl) h
    · cases h
  | update i =>
    simp only [SessionWorld.step] at h
    split at h
    · rename_i row rest phase hpass
      exact stepPass_cases hpass (.inr (.inl rfl)) h
    · cases h
  | command i lost =>
    simp only [SessionWorld.step] at h
    split at h
    · rename_i row rest phase hpass
      exact stepPass_cases hpass (.inr (.inr (.inl ⟨lost, rfl⟩))) h
    · cases h
  | rowRaise i error =>
    simp only [SessionWorld.step] at h
    split at h
    · rename_i row rest phase hpass
      exact stepPass_cases hpass (.inr (.inr (.inr (.inl ⟨error, rfl⟩)))) h
    · cases h
  | mark i =>
    simp only [SessionWorld.step] at h
    split at h
    · rename_i row rest phase hpass
      exact stepPass_cases hpass (.inr (.inr (.inr (.inr rfl)))) h
    · cases h
  | passEnd i =>
    cases h
    exact .passEnded

end

end Rsap.Proofs
