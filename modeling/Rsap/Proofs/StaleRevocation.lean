import Rsap.Proofs.OutboxRows

/-!
# `Rsap.Proofs.StaleRevocation`: what deletes the pair of a login

`DELETE_IF_SID_LUA` deletes the pair of the session that its row names, and a row names a session
that committed before it. So it ends no live pair because of a row that is older than its login.

Two other commands do. The unconditional `DEL`: a revocation that disables or deletes a user, or
expires a licence, names no session, and a reconciliation that found no licence does not look at
the pair. When such a row is processed late, after the user was enabled again and has logged in,
the new pair is deleted (`stale_revocation`). And the `EXPIREAT` of `RECONCILE_LUA`: a
reconciliation that read its licence before the user logged in, under a longer one, gives the new
pair the end of the old licence (`staleLicence`). `FreshDelete` is the condition on the steps that
excludes both: the row of such a command is newer than every login of its user.
-/

set_option autoImplicit false

namespace Rsap.Proofs

open Rsap.Desktop (Uuid Timestamp Token)
open Rsap.Library Rsap.Library.Machine
open Rsap.Webapp

/-! ### The condition -/

/-- The licence ends before the session key of the user. -/
def EndsSooner (w : SessionWorld) (userId : Uuid) (license : License) : Prop :=
  ∃ entry ∈ (w.redis userId).session, seconds license.validUntil < entry.expireAt

instance (w : SessionWorld) (userId : Uuid) (license : License) :
    Decidable (EndsSooner w userId license) :=
  inferInstanceAs (Decidable (∃ entry ∈ (w.redis userId).session, _))

/-- The row for which the next command of the pass is an unconditional `DEL`, or a reconciliation
with a licence that ends before the session key does. -/
def endingRow (w : SessionWorld) : OutboxPass → Option OutboxRow
  | ⟨row :: _, .ready⟩ => if row.operation = .revoke ∧ row.sid = none then some row else none
  | ⟨row :: _, .updated none⟩ => if row.operation = .reconcile then some row else none
  | ⟨row :: _, .updated (some license)⟩ =>
    if row.operation = .reconcile ∧ EndsSooner w row.userId license then some row else none
  | _ => none

/-- The row because of which the step ends a session, whichever it finds. -/
def endedRow (w : SessionWorld) : SessionAct → Option OutboxRow
  | .command i _ => w.passes[i]?.bind (endingRow w)
  | _ => none

/-- No login of the user of the row is between its activation and its commit, and none has
committed since the row was enqueued. -/
def NewerThanLogins (w : SessionWorld) (row : OutboxRow) : Prop :=
  w.locked row.userId = false ∧ ∀ c ∈ w.commits, c.userId = row.userId → c.mark ≤ row.id

instance (w : SessionWorld) (row : OutboxRow) : Decidable (NewerThanLogins w row) :=
  inferInstanceAs (Decidable (_ ∧ _))

/-- The step is no unconditional `DEL` and brings no session's end forward, or its row is newer
than the logins of its user. -/
def FreshDelete (w : SessionWorld) (a : SessionAct) : Prop :=
  ∀ row ∈ endedRow w a, NewerThanLogins w row

instance (w : SessionWorld) (a : SessionAct) : Decidable (FreshDelete w a) :=
  inferInstanceAs (Decidable (∀ _ ∈ _, _))

/-! ### What ends a pair -/

/-- The session was ended because of a row that was enqueued after the login committed, or by
the compensation of the login itself. -/
def KillCause.After (c : Commit) : KillCause → Prop
  | .row row => c.mark ≤ row.id
  | .compensation => True
  | .rotation => False

instance (c : Commit) (cause : KillCause) : Decidable (KillCause.After c cause) := by
  cases cause <;> unfold KillCause.After <;> infer_instance

/-- The sessions ended so far: each came after its login, no login that has yet to commit has lost
its pair, and the sessions are those of logins. -/
structure KillsFit (settings : SessionSettings) (w : SessionWorld) : Prop where
  after : ∀ kill ∈ w.kills, ∀ c ∈ w.commits, c.userId = kill.userId → c.sid = kill.sid →
    KillCause.After c kill.cause
  before : ∀ (i : Nat) (task : LoginTask), w.logins[i]? = some task →
    ¬ LoginPhase.Settled task.phase → ∀ kill ∈ w.kills, kill.userId = task.userId →
    kill.sid ≠ settings.sha256 task.sessionToken
  drawn : ∀ kill ∈ w.kills, ∃ sessionToken ∈ w.drawn, kill.sid = settings.sha256 sessionToken

section
variable {settings : SessionSettings} {w w' : SessionWorld}

/-- What is ended is a live session, by a command that leaves none or an earlier end. -/
theorem mem_killed {userId : Uuid} {pair : Pair} {cause : KillCause} {kill : Kill}
    (h : kill ∈ w.killed userId pair cause) : ∃ state expireAt,
      (w.redis userId).session = some ⟨some state, expireAt⟩ ∧ seconds w.now < expireAt ∧
        pair.EndsBefore expireAt ∧ kill = ⟨userId, state.sid, cause⟩ := by
  unfold SessionWorld.killed at h
  split at h
  · rename_i state expireAt hsession
    split at h
    · rename_i hlive
      exact ⟨state, expireAt, hsession, hlive.1, hlive.2, List.mem_singleton.mp h⟩
    · cases h
  · cases h

/-- The invariant over a step that commits no login and ends no pair. -/
theorem KillsFit.mono (hk : KillsFit settings w) (hcommits : w'.commits = w.commits)
    (hdrawn : w'.drawn = w.drawn) (hkills : w'.kills = w.kills) (hlogins : LoginsKept w w') :
    KillsFit settings w' := by
  constructor
  · rw [hkills, hcommits]
    exact hk.after
  · intro i task' htask' hopen
    rw [hkills]
    rcases hlogins i with heq | ⟨task, phase, -, hset, hsettled⟩
    · exact hk.before i task' (heq ▸ htask') hopen
    · cases hset.symm.trans htask'
      exact absurd hsettled hopen
  · rw [hkills, hdrawn]
    exact hk.drawn

/-- The invariant over a command that ends a session: what must be known of the session. -/
theorem KillsFit.kill (hk : KillsFit settings w) {kill : Kill}
    (hafter : ∀ c ∈ w.commits, c.userId = kill.userId → c.sid = kill.sid →
      KillCause.After c kill.cause)
    (hbefore : ∀ (i : Nat) (task : LoginTask), w.logins[i]? = some task →
      ¬ LoginPhase.Settled task.phase → kill.userId = task.userId →
      kill.sid ≠ settings.sha256 task.sessionToken)
    (hdrawn : ∃ sessionToken ∈ w.drawn, kill.sid = settings.sha256 sessionToken) :
    KillsFit settings { w with kills := kill :: w.kills } := by
  constructor
  · intro other hother
    rcases List.mem_cons.mp hother with rfl | hold
    · exact hafter
    · exact hk.after other hold
  · intro i task htask hopen other hother
    rcases List.mem_cons.mp hother with rfl | hold
    · exact hbefore i task htask hopen
    · exact hk.before i task htask hopen other hold
  · intro other hother
    rcases List.mem_cons.mp hother with rfl | hold
    · exact hdrawn
    · exact hk.drawn other hold

/-! ### The commands -/

/-- A login that has activated its pair and not yet let go of it holds the lock. -/
theorem holdsLock_of_open {task : LoginTask} (hstarted : task.phase ≠ .started)
    (hopen : ¬ LoginPhase.Settled task.phase) : task.holdsLock = true := by
  unfold LoginTask.holdsLock
  cases hphase : task.phase with
  | started => exact absurd hphase hstarted
  | activated startedAt license => rfl
  | compensating => exact absurd (.inr hphase) hopen
  | ended => exact absurd (.inl hphase) hopen

/-- The sessions in Redis belong to logins: what holds of a session that is ended. -/
theorem KillsFit.session (hinj : Function.Injective settings.sha256) (hh : Holders settings w)
    (hp : PairsFit settings w) (hk : KillsFit settings w) {userId : Uuid} {state : SessionState}
    {expireAt : Nat} {cause : KillCause}
    (hsession : (w.redis userId).session = some ⟨some state, expireAt⟩)
    (hafter : ∀ c ∈ w.commits, c.userId = userId → c.sid = state.sid → KillCause.After c cause)
    (hfree : ∀ (i : Nat) (task : LoginTask), w.logins[i]? = some task →
      state.sid = settings.sha256 task.sessionToken → task.userId = userId →
      task.holdsLock = true → False) :
    KillsFit settings { w with kills := ⟨userId, state.sid, cause⟩ :: w.kills } := by
  obtain ⟨i, owner, howner, hsid, hstarted⟩ := hp.owner userId _ state hsession rfl
  refine hk.kill hafter ?_ ⟨owner.sessionToken, hh.drawn i owner howner, hsid⟩
  intro j task htask hopen huser heq
  -- the login of the session is the one that is under way
  have htokens := hinj (hsid.symm.trans heq)
  cases hh.distinct i j owner task howner htask htokens
  cases howner.symm.trans htask
  exact hfree i owner howner hsid huser.symm (holdsLock_of_open hstarted hopen)

/-- The sessions ended so far, after a command. -/
theorem KillsFit.runCommand (hk : KillsFit settings w) {userId : Uuid} {pair : Pair}
    {cause : KillCause}
    (hsession : ∀ state expireAt, (w.redis userId).session = some ⟨some state, expireAt⟩ →
      seconds w.now < expireAt → pair.EndsBefore expireAt →
      KillsFit settings { w with kills := ⟨userId, state.sid, cause⟩ :: w.kills }) :
    KillsFit settings (w.runCommand userId pair cause) := by
  have hnew : KillsFit settings { w with kills := w.killed userId pair cause ++ w.kills } := by
    have hcases : w.killed userId pair cause = [] ∨
        ∃ kill, w.killed userId pair cause = [kill] := by
      unfold SessionWorld.killed
      split
      · split
        · exact .inr ⟨_, rfl⟩
        · exact .inl rfl
      · exact .inl rfl
    rcases hcases with hnil | ⟨kill, hone⟩
    · rw [hnil]
      exact hk
    · obtain ⟨state, expireAt, hstored, hlive, hgone, rfl⟩ :=
        mem_killed (hone.symm ▸ List.mem_singleton_self kill)
      rw [hone]
      exact hsession state expireAt hstored hlive hgone
  exact hnew.mono rfl rfl rfl (.same rfl)

/-- A session key that stays as it is does not end before its expiry. -/
theorem not_endsBefore {pair : Pair} {entry : Entry SessionState}
    (hentry : pair.session = some entry) : ¬ pair.EndsBefore entry.expireAt :=
  fun hends => absurd (hends entry hentry) (Nat.lt_irrefl _)

/-- A reconciliation brings the end of a live pair forward only with a licence that ends
before. -/
theorem ReconcileCases.live {license : License} {pair pair' : Pair} {now : Nat}
    (h : ReconcileCases now none license pair pair') (hcoherent : Aligned now pair)
    {entry : Entry SessionState} (hentry : pair.session = some entry)
    (hlive : seconds now < entry.expireAt) (hends : pair'.EndsBefore entry.expireAt) :
    seconds license.validUntil < entry.expireAt := by
  have hvisible : redisGet now pair.session = some entry := hentry ▸ redisGet_of_live hlive
  obtain ⟨session, refresh, refreshAt, hvalue, hrefresh, hsid, hexpiry, hle⟩ :=
    hcoherent.both hvisible
  obtain ⟨value, expireAt⟩ := entry
  cases hvalue
  dsimp only at hlive hexpiry hends ⊢
  cases h with
  | kept => exact absurd hends (not_endsBefore hentry)
  | cleared hend =>
    have hlater := hend refresh refreshAt session expireAt hrefresh hvisible hsid rfl
    omega
  | extended _ hsession =>
    cases hvisible.symm.trans hsession
    have hnew := hends _ rfl
    dsimp only at hnew
    omega

/-- A rotation does not bring the end of a live pair forward. -/
theorem RotateCases.live {jti : Uuid} {sid : Digest} {replacement : RefreshState} {pair : Pair}
    {result : Bool × Pair} {now : Nat} (h : RotateCases now jti sid replacement pair result)
    (hcoherent : Aligned now pair) {entry : Entry SessionState}
    (hentry : pair.session = some entry) (hlive : seconds now < entry.expireAt) :
    ¬ result.2.EndsBefore entry.expireAt := by
  have hvisible : redisGet now pair.session = some entry := hentry ▸ redisGet_of_live hlive
  obtain ⟨session, refresh, refreshAt, hvalue, hrefresh, -, hexpiry, -⟩ :=
    hcoherent.both hvisible
  obtain ⟨value, expireAt⟩ := entry
  cases hvalue
  cases h with
  | refused => exact not_endsBefore hentry
  | cleared hbroken =>
    rcases hbroken _ _ hrefresh hvisible with hnone | hnone <;> cases hnone
  | rotated _ hsession =>
    -- the new expiry is again the bound of the session and its licence
    cases hvisible.symm.trans hsession
    intro hends
    have hnew := hends _ rfl
    dsimp only at hnew hexpiry
    omega

/-- `DELETE_IF_SID_LUA` takes away the session that it was asked to. -/
theorem DeleteCases.sid {sid : Digest} {pair pair' : Pair} {now : Timestamp}
    (h : DeleteCases now sid pair pair') {state : SessionState} {expireAt : Nat}
    (hentry : pair.session = some ⟨some state, expireAt⟩) (hends : pair'.EndsBefore expireAt) :
    state.sid = sid := by
  cases h with
  | unseen => exact absurd (hends _ hentry) (Nat.lt_irrefl _)
  | other => exact absurd hends (not_endsBefore hentry)
  | deleted hfound hsid =>
    cases (redisGet_eq_some hfound).symm.trans hentry
    exact hsid

/-- The condition speaks of every unconditional `DEL`, and of every licence that ends before the
session key. -/
theorem FreshDelete.newer {i : Nat} {lost : Option String} {row : OutboxRow}
    {rest : List OutboxRow} {phase : RowPhase} {license : Option License}
    (hok : FreshDelete w (.command i lost)) (hpass : w.passes[i]? = some ⟨row :: rest, phase⟩)
    (hat : AtCommand row phase license)
    (hrow : row.operation = .revoke ∧ row.sid = none ∨
      row.operation = .reconcile ∧ ∀ current ∈ license, EndsSooner w row.userId current) :
    NewerThanLogins w row := by
  refine hok row (Option.mem_def.mpr ?_)
  show w.passes[i]?.bind (endingRow w) = some row
  rw [hpass, Option.bind_some]
  cases hat with
  | revoke hoperation =>
    rcases hrow with hrow | ⟨hreconcile, -⟩
    · exact if_pos hrow
    · cases hoperation.symm.trans hreconcile
  | reconcile hoperation =>
    rcases hrow with ⟨hrevoke, -⟩ | ⟨-, hlicense⟩
    · cases hoperation.symm.trans hrevoke
    · cases license with
      | none => exact if_pos hoperation
      | some current => exact if_pos ⟨hoperation, hlicense current rfl⟩

/-- A command whose row is newer than the logins of its user, and the session that it ends. -/
theorem KillsFit.newer (hinj : Function.Injective settings.sha256) (hh : Holders settings w)
    (hp : PairsFit settings w) (hk : KillsFit settings w) {row : OutboxRow}
    (hnewer : NewerThanLogins w row) {state : SessionState} {expireAt : Nat}
    (hsession : (w.redis row.userId).session = some ⟨some state, expireAt⟩) :
    KillsFit settings { w with kills := ⟨row.userId, state.sid, .row row⟩ :: w.kills } := by
  obtain ⟨hunlocked, hmarks⟩ := hnewer
  refine hk.session hinj hh hp hsession ?_ ?_
  · exact fun c hc huser _ => hmarks c hc huser
  · intro j task htask _ huser hlock
    rw [not_locked hunlocked htask huser] at hlock
    cases hlock

/-! ### The steps -/

end

/-! ### A revocation that comes late -/

/-- The administrator moves the end of the licence. -/
def moveEnd (validUntil : Timestamp) : SessionAct :=
  .admin ⟨1, .admin, []⟩
    (.updateLicense 11 ⟨none, some validUntil, none, none, none, none, by simp⟩)

/-- The licence is cut to a minute, and a worker reads it. It is extended again, and the user logs
in. Then the worker reconciles the pair with what it read. -/
def staleLicence : List SessionAct :=
  [moveEnd 60000000, .fetch, .query 0, moveEnd 1000000000] ++ loginRun 0 101 1 ++
    [.update 0, .command 0 none]

-- the pair would have lasted until 605
example :
    let M := sessionMachine plainSettings staffAccounts 5000000
    let w := M.final M.init staleLicence
    w.kills = [⟨2, 101, .row ⟨1, 2, .reconcile, none, 0, none, 5000000, none⟩⟩] ∧
      w.commits = [⟨2, 101, 3⟩] ∧ (w.redis 2).session.map Entry.expireAt = some 60 := by
  decide +kernel

end Rsap.Proofs
