import Rsap.Proofs.Pairs
import Rsap.Proofs.SingleSession
import Rsap.Webapp.Login

/-!
# `Rsap.Proofs.FailedLogin`: what a login that raises leaves behind

The Redis transaction of a login overwrites the keys of the user's old session. Whatever raises
after it, no token of the old session validates any more: the compensation deletes the new keys
and does not bring the old ones back. If the commit was applied and the keys stay, the new token
validates though the login raised.

`failed_login` says exactly when a login that raises changes nothing. `login_world` connects the
attempts with the steps of the whole system.
-/

set_option autoImplicit false

namespace Rsap.Proofs

open Rsap.Desktop (Uuid Timestamp Token)
open Rsap.Library Rsap.Library.Machine
open Rsap.Webapp

section
variable {settings : SessionSettings} {now : Timestamp} {task : LoginTask} {db opened : Database}
  {pair : Pair} {license : License}

/-- What the checks of a login establish. -/
structure Prepared (now : Timestamp) (task : LoginTask) (db : Database) (license : License)
    (opened : Database) : Prop where
  unexpired : seconds now < task.refreshToken.exp
  user : ∃ user ∈ db.users.rows, user.id = task.userId ∧ user.isActive = true ∧
    user.isDeleted = false
  license_eq : db.loginLicense now task.userId = some license
  license_mem : license ∈ db.licenses.rows
  current : license.current task.userId now
  lasting : now + 1000000 ≤ license.validUntil
  opened_eq : db.openSession now task.userId task.sessionToken license.validUntil = some opened

/-- A login is prepared only with its checks passed. -/
theorem prepareLogin_prepared (h : prepareLogin now task db = some (license, opened)) :
    Prepared now task db license opened := by
  unfold prepareLogin at h
  split at h
  · cases h
  · rename_i hexp
    obtain ⟨license', hlicense, hopen⟩ := Option.bind_eq_some_iff.mp h
    obtain ⟨opened', hopened, heq⟩ := Option.map_eq_some_iff.mp hopen
    cases heq
    have hfound := hlicense
    unfold Database.loginLicense at hfound
    split at hfound
    · rename_i huser
      obtain ⟨hcurrent, hlasting⟩ := Option.filter_eq_some_iff.mp hfound
      obtain ⟨hmem, hwindow⟩ := latestBy_mem hcurrent
      exact ⟨Nat.lt_of_not_le hexp, huser, hlicense, hmem, hwindow, of_decide_eq_true hlasting,
        hopened⟩
    · cases hfound

/-- A time that is a second later has later seconds. -/
theorem seconds_lt {s t : Nat} (h : s + 1000000 ≤ t) :
    seconds s < seconds t ∧ s < seconds t * 1000000 := by
  unfold seconds
  omega

/-- The new keys are visible. -/
theorem Prepared.visible (h : Prepared now task db license opened) :
    redisGet now (task.pair settings license).session =
      some ⟨some (task.state settings license),
        min task.refreshToken.exp (seconds license.validUntil)⟩ := by
  refine redisGet_of_live ?_
  have hlicense : seconds now < seconds license.validUntil := (seconds_lt h.lasting).1
  exact lt_min h.unexpired hlicense

/-- The session of the login is new. -/
theorem Prepared.fresh (h : Prepared now task db license opened) :
    ∀ s ∈ db.sessions, s.sessionToken ≠ task.sessionToken := by
  intro s hs htoken
  obtain ⟨sessions, hinsert, -⟩ := Option.map_eq_some_iff.mp h.opened_eq
  obtain ⟨s', hs', hkept⟩ := (revokeSessions_kept now task.userId).forth s hs rfl
  exact (KeyedTable.insert_some hinsert).2 s' hs' (hkept.token.trans htoken)

/-- After the Redis transaction only the new token can validate, and only while its keys are
there and its row is. -/
theorem Prepared.validates_new (h : Prepared now task db license opened)
    (hinj : Function.Injective settings.sha256) {db' : Database} {pair' : Pair}
    (hpair : pair' = task.pair settings license ∨ pair' = .empty) {token : Token}
    (hvalid : TokenValidates settings now db' pair' task.userId token) :
    pair' = task.pair settings license ∧
      ∃ s ∈ db'.sessions, s.sessionToken = task.sessionToken := by
  obtain ⟨state, hstate, licenseId, hlicenseId, hdb⟩ := hvalid
  rcases hpair with rfl | rfl
  · refine ⟨rfl, ?_⟩
    have hread : loadJson now (task.pair settings license).session =
        some (task.state settings license) := by
      rw [loadJson, h.visible]
      rfl
    cases hread.symm.trans hstate
    have hhash : settings.sha256 task.sessionToken = settings.sha256 token := by
      by_contra hne
      rw [Option.mem_def, validateState, if_neg fun hchecked => hne hchecked.1] at hlicenseId
      cases hlicenseId
    obtain ⟨s, hs, -, htoken, -⟩ := validates_open hdb
    exact ⟨s, hs, htoken.trans (hinj hhash).symm⟩
  · cases hstate

/-- The row and the keys of the login make its token valid. -/
theorem Prepared.validates_opened (h : Prepared now task db license opened) :
    TokenValidates settings now opened (task.pair settings license) task.userId
      task.sessionToken := by
  refine ⟨task.state settings license, ?_, license.id, ?_, ?_, ?_, ?_⟩
  · show loadJson now (task.pair settings license).session = some _
    rw [loadJson, h.visible]
    rfl
  · have hfrom : seconds license.validFrom * 1000000 ≤ now :=
      (Nat.div_mul_le_self _ _).trans h.current.2.2.1
    exact if_pos ⟨rfl, rfl, nofun, hfrom, (seconds_lt h.lasting).2⟩
  · obtain ⟨sessions, -, rfl⟩ := Option.map_eq_some_iff.mp h.opened_eq
    exact h.user
  · exact ⟨_, (mem_openSession h.opened_eq _).mpr (.inr rfl), rfl, rfl, rfl, h.current.2.2.2⟩
  · obtain ⟨sessions, -, rfl⟩ := Option.map_eq_some_iff.mp h.opened_eq
    exact ⟨license, h.license_mem, rfl, h.current⟩

/-- The compensation deletes the new keys. -/
theorem Prepared.compensated (h : Prepared now task db license opened) :
    deleteIfSid now (settings.sha256 task.sessionToken) (task.pair settings license) =
      some .empty := by
  unfold deleteIfSid
  rw [h.visible]
  show (if settings.sha256 task.sessionToken ≠ settings.sha256 task.sessionToken then
    some (task.pair settings license) else some Pair.empty) = some Pair.empty
  rw [if_neg (fun hne => hne rfl)]

/-! ### When nothing changes -/

/-- The attempt passes its checks and fails after its Redis transaction was applied. -/
def ReachesRedis (now : Timestamp) (task : LoginTask) (fault : Option LoginFault)
    (db : Database) : Prop :=
  (prepareLogin now task db).isSome = true ∧ fault.any LoginFault.afterRedis = true

/-- The attempt fails before its Redis transaction, or the user had no valid token and the fault
does not leave the new session behind. -/
def Harmless (settings : SessionSettings) (now : Timestamp) (task : LoginTask)
    (fault : Option LoginFault) (db : Database) (pair : Pair) : Prop :=
  ¬ ReachesRedis now task fault db ∨
    (fault.any LoginFault.keepsSession = false ∧
      ∀ token, ¬ TokenValidates settings now db pair task.userId token)

/-- The same tokens of the user validate. -/
def SameTokens (settings : SessionSettings) (now : Timestamp) (userId : Uuid) (db : Database)
    (pair : Pair) (db' : Database) (pair' : Pair) : Prop :=
  ∀ token, TokenValidates settings now db' pair' userId token ↔
    TokenValidates settings now db pair userId token

/-- A fault that leaves the new session behind makes its token valid. -/
theorem Prepared.not_same (h : Prepared now task db license opened) :
    ¬ SameTokens settings now task.userId db pair opened (task.pair settings license) := by
  intro hsame
  obtain ⟨_, -, _, -, hdb⟩ := (hsame task.sessionToken).mp h.validates_opened
  obtain ⟨s, hs, -, htoken, -⟩ := validates_open hdb
  exact h.fresh s hs htoken

/-- Without the row or without the keys no token validates, so nothing changes when none did
before. -/
theorem Prepared.same_iff (h : Prepared now task db license opened)
    (hinj : Function.Injective settings.sha256) {db' : Database} {pair' : Pair}
    (hleft : pair' = .empty ∨ db' = db ∧ pair' = task.pair settings license) :
    SameTokens settings now task.userId db pair db' pair' ↔
      ∀ token, ¬ TokenValidates settings now db pair task.userId token := by
  have hnone : ∀ token, ¬ TokenValidates settings now db' pair' task.userId token := by
    intro token hvalid
    rcases hleft with rfl | ⟨rfl, rfl⟩
    · obtain ⟨state, hstate, -⟩ := hvalid
      cases hstate
    · obtain ⟨-, s, hs, htoken⟩ := h.validates_new hinj (.inl rfl) hvalid
      exact h.fresh s hs htoken
  constructor
  · exact fun hsame token hvalid => hnone token ((hsame token).mpr hvalid)
  · exact fun hbefore token => iff_of_false (hnone token) (hbefore token)

/-- A login that raises changes nothing for its user exactly when it fails before its Redis
transaction, or no token of the user was valid and the new session is not left behind. -/
theorem failed_login (hinj : Function.Injective settings.sha256) {fault : Option LoginFault}
    (hraised : (login settings now task fault db pair).raised = true) :
    SameTokens settings now task.userId db pair (login settings now task fault db pair).db
        (login settings now task fault db pair).pair ↔
      Harmless settings now task fault db pair := by
  -- without a licence or a user nothing is written
  cases hprepare : prepareLogin now task db with
  | none =>
    have hresult : login settings now task fault db pair = ⟨true, db, pair⟩ := by
      rw [login, hprepare]
    rw [hresult]
    refine iff_of_true (fun _ => Iff.rfl) (.inl fun hreaches => ?_)
    rw [ReachesRedis, hprepare] at hreaches
    cases hreaches.1
  | some result =>
    obtain ⟨license, opened⟩ := result
    have hprepared := prepareLogin_prepared hprepare
    have hreaches : ReachesRedis now task fault db ↔ fault.any LoginFault.afterRedis = true := by
      rw [ReachesRedis, hprepare]
      exact ⟨And.right, fun h => ⟨rfl, h⟩⟩
    rw [Harmless, hreaches]
    simp only [login, hprepare] at hraised ⊢
    -- each fault leaves the pair and the session where its await stood
    cases fault with
    | none => cases hraised
    | some fault =>
      cases fault with
      | statement => exact iff_of_true (fun _ => Iff.rfl) (.inl nofun)
      | rejected => exact iff_of_true (fun _ => Iff.rfl) (.inl nofun)
      -- the reply is lost after the pair was written, and the old session is still open
      | lost =>
        rw [hprepared.same_iff hinj (.inr ⟨rfl, rfl⟩)]
        simp [LoginFault.afterRedis, LoginFault.keepsSession]
      -- the commit took effect, so the new tokens are the ones that work
      | permissions =>
        refine iff_of_false hprepared.not_same ?_
        simp [LoginFault.afterRedis, LoginFault.keepsSession]
      | commit applied compensated =>
        -- the compensation ran, or the process died before it
        cases compensated with
        | true =>
          show SameTokens settings now task.userId db pair (if applied then opened else db)
            ((deleteIfSid now (settings.sha256 task.sessionToken)
              (task.pair settings license)).getD (task.pair settings license)) ↔ _
          rw [hprepared.compensated, Option.getD_some, hprepared.same_iff hinj (.inl rfl)]
          simp [LoginFault.afterRedis, LoginFault.keepsSession]
        | false =>
          cases applied with
          | true =>
            refine iff_of_false hprepared.not_same ?_
            simp [LoginFault.afterRedis, LoginFault.keepsSession]
          | false =>
            show SameTokens settings now task.userId db pair db (task.pair settings license) ↔ _
            rw [hprepared.same_iff hinj (.inr ⟨rfl, rfl⟩)]
            simp [LoginFault.afterRedis, LoginFault.keepsSession]

end

/-- A login of the staff member with the token. -/
def staffLogin (sessionToken : Token) (jti : Uuid) : LoginTask :=
  ⟨2, sessionToken, plainSettings.issue 5000000 2 sessionToken jti, .started⟩

/-- The member of the staff is logged in. -/
def staffSession : LoginResult :=
  login plainSettings 5000000 (staffLogin 101 1) none staffAccounts .empty

/-- The commit of a second login raises, and the compensation is carried out. -/
def staffRetry : LoginResult :=
  login plainSettings 5000000 (staffLogin 102 2) (some (.commit false true)) staffSession.db
    staffSession.pair

/-- The token of the first login validates before the second login and not after it. -/
theorem failed_login_loses_session :
    ¬ ∀ (settings : SessionSettings) (now : Timestamp) (task : LoginTask)
      (fault : Option LoginFault) (db : Database) (pair : Pair),
      Function.Injective settings.sha256 →
      (login settings now task fault db pair).raised = true →
      SameTokens settings now task.userId db pair (login settings now task fault db pair).db
        (login settings now task fault db pair).pair := by
  intro hclaim
  have hsame := hclaim plainSettings 5000000 (staffLogin 102 2) (some (.commit false true))
    staffSession.db staffSession.pair Function.injective_id rfl
  have hbefore : TokenValidates plainSettings 5000000 staffSession.db staffSession.pair 2 101 := by
    decide
  have hafter : ¬ TokenValidates plainSettings 5000000 staffRetry.db staffRetry.pair 2 101 := by
    decide
  exact hafter ((hsame 101).mpr hbefore)

/-- A second login that Redis rejects leaves the first one alone. -/
theorem failed_login_rejected :
    SameTokens plainSettings 5000000 2 staffSession.db staffSession.pair
        (login plainSettings 5000000 (staffLogin 102 2) (some .rejected) staffSession.db
          staffSession.pair).db
        (login plainSettings 5000000 (staffLogin 102 2) (some .rejected) staffSession.db
          staffSession.pair).pair ↔
      Harmless plainSettings 5000000 (staffLogin 102 2) (some .rejected) staffSession.db
        staffSession.pair :=
  failed_login Function.injective_id rfl

/-! ### The attempts as runs -/

section
variable {settings : SessionSettings} {w : SessionWorld} {i : Nat} {task : LoginTask}
  {license : License} {opened : Database}

/-- A login whose checks pass activates its keys. -/
theorem Prepared.step_activate (h : Prepared w.now task w.db license opened)
    (htask : w.logins[i]? = some task) (hphase : task.phase = .started)
    (hfree : w.locked task.userId = false) (lost : Bool) :
    w.step settings (.activate i lost) =
      some ((w.setPair task.userId (task.pair settings license)).setLogin i
        (task.to (if lost then .ended else .activated w.now license))) := by
  have hactivate : w.activate settings i task lost =
      (w.setPair task.userId (task.pair settings license)).setLogin i
        (task.to (if lost then .ended else .activated w.now license)) := by
    simp only [SessionWorld.activate, h.license_eq, h.opened_eq]
  simp only [SessionWorld.step, htask, SessionWorld.stepLogin, hphase, hfree, and_self, if_true,
    hactivate]

/-- A login that raises before its commit is compensated when it holds the lock. -/
theorem step_loginRaise (htask : w.logins[i]? = some task) :
    w.step settings (.loginRaise i) =
      some (w.setLogin i (task.to (if task.holdsLock then .compensating else .ended))) := by
  simp only [SessionWorld.step, htask, SessionWorld.stepLogin]

/-- The commit of a login whose session is new. -/
theorem step_commit {at_ : Timestamp} (htask : w.logins[i]? = some task)
    (hphase : task.phase = .activated at_ license)
    (hopen : w.db.openSession at_ task.userId task.sessionToken license.validUntil = some opened)
    (lost : Bool) :
    w.step settings (.commit i lost) =
      some ({ w with
        db := opened
        commits := ⟨task.userId, settings.sha256 task.sessionToken, opened.nextOutboxId⟩ ::
          w.commits }.setLogin i (task.to (if lost then .compensating else .ended))) := by
  simp only [SessionWorld.step, htask, SessionWorld.stepLogin, hphase, SessionWorld.commit, hopen]

/-- The compensation of a login. -/
theorem step_compensate {pair : Pair} (htask : w.logins[i]? = some task)
    (hphase : task.phase = .compensating)
    (hdelete : deleteIfSid w.now (settings.sha256 task.sessionToken) (w.redis task.userId) =
      some pair) :
    w.step settings (.compensate i) =
      some ((w.runCommand task.userId pair .compensation).setLogin i (task.to .ended)) := by
  simp only [SessionWorld.step, htask, SessionWorld.stepLogin, hphase, if_true,
    SessionWorld.compensate, hdelete]

/-- The login that moved is at its new phase. -/
theorem setLogin_get (htask : w.logins[i]? = some task) (task' : LoginTask) :
    (w.setLogin i task').logins[i]? = some task' := by
  show (w.logins.set i task')[i]? = some task'
  have hlt : i < w.logins.length := (List.getElem?_eq_some_iff.mp htask).1
  simp [hlt]

/-- After the commit, or instead of it, the compensation is carried out or raises. -/
theorem compensation_run (db : Database) (now : Timestamp) (htask : w.logins[i]? = some task)
    (hphase : task.phase = .compensating)
    (hredis : w.redis task.userId = task.pair settings license)
    (hdelete : deleteIfSid w.now (settings.sha256 task.sessionToken) (task.pair settings license) =
      some .empty) (compensated : Bool) :
    let M := sessionMachine settings db now
    let acts := [if compensated then SessionAct.compensate i else .loginRaise i]
    M.Allows Any w acts ∧ (M.final w acts).db = w.db ∧
      (M.final w acts).redis task.userId =
        if compensated then .empty else task.pair settings license := by
  intro M acts
  cases compensated with
  | true =>
    have hstep : M.step w (.compensate i) =
        some ((w.runCommand task.userId .empty .compensation).setLogin i (task.to .ended)) :=
      step_compensate htask hphase (hredis ▸ hdelete)
    simp only [acts, if_true, Machine.Allows, Machine.final, hstep]
    exact ⟨⟨trivial, trivial⟩, rfl, if_pos rfl⟩
  | false =>
    have hstep : M.step w (.loginRaise i) = some (w.setLogin i (task.to _)) :=
      step_loginRaise htask
    simp only [acts, Bool.false_eq_true, if_false, Machine.Allows, Machine.final, hstep]
    exact ⟨⟨trivial, trivial⟩, rfl, hredis⟩

/-- A login whose checks pass, as steps of the system: `login` gives the database and the keys
that the run leaves. -/
theorem login_world (h : prepareLogin w.now task w.db = some (license, opened))
    (htask : w.logins[i]? = some task) (hphase : task.phase = .started)
    (hfree : w.locked task.userId = false) (fault : LoginFault) (db : Database)
    (now : Timestamp) :
    let M := sessionMachine settings db now
    let w' := M.final w (fault.acts i)
    let result := login settings w.now task (some fault) w.db (w.redis task.userId)
    M.Allows Any w (fault.acts i) ∧ w'.db = result.db ∧ w'.redis task.userId = result.pair := by
  intro M w' result
  have hprepared := prepareLogin_prepared h
  have hraise : M.step w (.loginRaise i) = some (w.setLogin i (task.to _)) :=
    step_loginRaise htask
  have hlost : M.step w (.activate i true) =
      some ((w.setPair task.userId (task.pair settings license)).setLogin i (task.to .ended)) :=
    hprepared.step_activate htask hphase hfree true
  -- the states that the run passes through, one for each await
  let waiting := task.to (.activated w.now license)
  let activated := (w.setPair task.userId (task.pair settings license)).setLogin i waiting
  have hactivate : M.step w (.activate i false) = some activated :=
    hprepared.step_activate htask hphase hfree false
  have hget : activated.logins[i]? = some waiting := setLogin_get htask _
  let rolledBack := activated.setLogin i (waiting.to .compensating)
  have hrollback : M.step activated (.loginRaise i) = some rolledBack := step_loginRaise hget
  let committed := fun phase => { activated with
    db := opened
    commits := ⟨waiting.userId, settings.sha256 waiting.sessionToken, opened.nextOutboxId⟩ ::
      activated.commits }.setLogin i (waiting.to phase)
  have hcommit : ∀ lost, M.step activated (.commit i lost) =
      some (committed (if lost then .compensating else .ended)) :=
    step_commit hget rfl hprepared.opened_eq
  simp only [w', result, login, h]
  -- and each fault is a run of the system through some of them
  cases fault with
  | statement =>
    rw [LoginFault.acts, final_cons hraise]
    exact ⟨.cons trivial hraise trivial, rfl, rfl⟩
  | rejected =>
    rw [LoginFault.acts, final_cons hraise]
    exact ⟨.cons trivial hraise trivial, rfl, rfl⟩
  | lost =>
    rw [LoginFault.acts, final_cons hlost]
    exact ⟨.cons trivial hlost trivial, rfl, if_pos rfl⟩
  | permissions =>
    rw [LoginFault.acts, final_cons hactivate, final_cons (hcommit false)]
    exact ⟨.cons trivial hactivate (.cons trivial (hcommit false) trivial), rfl, if_pos rfl⟩
  | commit applied compensated =>
    rw [hprepared.compensated]
    have hredis : activated.redis task.userId = task.pair settings license := if_pos rfl
    cases applied with
    | true =>
      have hat : (committed .compensating).logins[i]? = some (waiting.to .compensating) :=
        setLogin_get hget _
      obtain ⟨hallows, hleft⟩ :=
        compensation_run db now hat rfl hredis hprepared.compensated compensated
      rw [LoginFault.acts, if_pos rfl, final_cons hactivate, final_cons (hcommit true)]
      exact ⟨.cons trivial hactivate (.cons trivial (hcommit true) hallows), hleft⟩
    | false =>
      have hat : rolledBack.logins[i]? = some (waiting.to .compensating) := setLogin_get hget _
      obtain ⟨hallows, hleft⟩ :=
        compensation_run db now hat rfl hredis hprepared.compensated compensated
      rw [LoginFault.acts, if_neg Bool.false_ne_true, final_cons hactivate, final_cons hrollback]
      exact ⟨.cons trivial hactivate (.cons trivial hrollback hallows), hleft⟩

end

end Rsap.Proofs
