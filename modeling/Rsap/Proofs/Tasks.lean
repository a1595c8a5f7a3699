import Rsap.Desktop.World

/-!
# `Rsap.Proofs.Tasks`: where the tasks of a world come from

A step moves at most one task. `step_pass` says where a pass of the next world comes from,
`step_task` says the same for the holder of the authentication lock, and `step_write` says which
write the step makes.

Three operations are made under the lock only: `save`, `replace_active` and `begin_revocation`
(`Op.locked`). So a task that holds the lock sees no other login, no other refresh and no other
logout. It may still see the session row go.
-/

set_option autoImplicit false

namespace Rsap.Proofs

open Rsap.Library
open Rsap.Desktop

/-- The operations that only the holder of the lock makes, and the two that no task makes. -/
def locked : Op → Bool
  | .save .. => true
  | .replaceActive .. => true
  | .markRevocationPending .. => true
  | .beginRevocation .. => true
  | .enqueueRevocation .. => true
  | _ => false

/-- The store stays, or an operation writes it that needs no lock. -/
def FreeWrite (s s' : Store) : Prop :=
  s' = s ∨ ∃ op reply, s.apply op = some (s', reply) ∧ locked op = false

/-- Where a pass of the world after a step comes from. -/
inductive PassStep (settings : Settings) (w w' : World) : Pass → Prop where
  | kept {pass : Pass} : pass ∈ w.passes → PassStep settings w w' pass
  | started {record : SessionRecord} {owner : String} {limit : Nat} : w.record = some record →
      w'.store = w.store → PassStep settings w w' ⟨record, owner, limit, .claiming⟩
  | claimed {pass : Pass} {now : Timestamp} {token : Uuid} {rows : List Row} : pass ∈ w.passes →
      pass.stage = .claiming →
      w.store.apply (.claim now token pass.owner pass.limit (keyFilter pass.record)
        settings.leaseSeconds.val) = some (w'.store, .rows rows) →
      PassStep settings w w' (pass.next (rows.map (Item.ofRow token pass.owner)))
  | attempted {pass : Pass} {item : Item} {stage : Stage} {rest : List Item}
      {outcome : AttemptOutcome} : pass ∈ w.passes → pass.stage = .working item stage rest →
      PassStep settings w w'
        { pass with stage := .working item (stage.receive settings item outcome) rest }
  | settled {pass : Pass} {item : Item} {settlement : Settlement} {rest : List Item} :
      pass ∈ w.passes → pass.stage = .working item (.settling settlement) rest →
      PassStep settings w w' (pass.next rest)

/-- Where the holder of the lock after a step comes from. -/
inductive TaskStep (settings : Settings) (w w' : World) : AuthTask → Prop where
  | kept {task : AuthTask} : w.auth = some task → FreeWrite w.store w'.store →
      w'.revocations = w.revocations → TaskStep settings w w' task
  | login {session : LocalSession} : session.sessionToken ∉ w.central.issued →
      session.sessionToken ∈ w'.central.issued → w'.revocations = w.revocations →
      TaskStep settings w w' (.loginLicense session)
  | licensed {session : LocalSession} {license : Dict} {expiry : Timestamp} :
      w.auth = some (.loginLicense session) → w'.revocations = w.revocations →
      TaskStep settings w w' (.loginSave { session with license := some license } expiry)
  | undo {session : LocalSession} : TaskStep settings w w' (.loginUndo session)
  | logout {record : SessionRecord} : w.record = some record → record.status = .active →
      w'.store = w.store → TaskStep settings w w' (.logoutBegin record)
  | began {record : SessionRecord} {now : Timestamp} {newId claimToken itemId token : Uuid}
      {generation : Nat} : w.auth = some (.logoutBegin record) →
      w.store.apply (.beginRevocation now newId claimToken record.generation settings.maxAttempts
        settings.leaseSeconds.val) =
          some (w'.store, .revocation (some (generation, itemId, token))) →
      TaskStep settings w w' (.logoutCall record generation itemId token)
  | loggedOut {record : SessionRecord} {generation : Nat} {itemId token : Uuid} :
      w.auth = some (.logoutCall record generation itemId token) → w'.store = w.store →
      TaskStep settings w w' (.logoutComplete record generation itemId token)
  | refused {record : SessionRecord} {generation : Nat} {itemId token : Uuid} {code : String} :
      w.auth = some (.logoutCall record generation itemId token) → w'.store = w.store →
      TaskStep settings w w' (.logoutSetError generation itemId token code)
  | noted {generation : Nat} {itemId token : Uuid} {code : String} :
      w.auth = some (.logoutSetError generation itemId token code) →
      TaskStep settings w w' (.logoutFail itemId token code)
  | refresh {record : SessionRecord} {validUntil : Timestamp} : w.record = some record →
      w'.store = w.store → TaskStep settings w w' (.refreshCall record validUntil)
  | expired {record : SessionRecord} : w.record = some record → w'.store = w.store →
      TaskStep settings w w' (.refreshClear record)
  | rejected {record : SessionRecord} {validUntil : Timestamp} :
      w.auth = some (.refreshCall record validUntil) → w'.store = w.store →
      TaskStep settings w w' (.refreshClear record)
  | refreshed {record : SessionRecord} {validUntil : Timestamp} {replacement : LocalSession} :
      w.auth = some (.refreshCall record validUntil) → w'.store = w.store →
      replacement.sessionToken = record.session.sessionToken →
      TaskStep settings w w' (.refreshReplace record validUntil replacement)

/-- The write of a step: none, one without the lock, or one of the lock's holder. -/
inductive WriteStep (settings : Settings) (w : World) (a : Act) (w' : World) : Prop where
  | none : w'.store = w.store → w'.revocations = w.revocations → WriteStep settings w a w'
  | free {op : Op} {reply : Reply} : w.store.apply op = some (w'.store, reply) →
      locked op = false → w'.revocations = w.revocations → WriteStep settings w a w'
  | auth {task : AuthTask} {op : Op} {reply : Reply} {now : Timestamp} {itemId claimToken : Uuid} :
      a = .authWrite now itemId claimToken → w.auth = some task →
      task.op settings.maxAttempts settings.leaseSeconds.val now itemId claimToken = some op →
      w.store.apply op = some (w'.store, reply) → w'.auth = task.afterWrite reply →
      w'.revocations = w.started task reply ++ w.revocations → WriteStep settings w a w'

section Steps
variable {settings : Settings} {w w' : World} {a : Act}

/-- An operation that the user or the capture pipeline asks for needs no lock. -/
theorem isLocal_free {op : Op} (h : op.isLocal = true) : locked op = false := by
  cases op <;> first | rfl | cases h

/-- A settlement needs no lock. -/
theorem settlement_free (settlement : Settlement) (item : Item) (now : Timestamp) :
    locked (settlement.op item now) = false := by
  cases settlement <;> rfl

/-- A pass in a list with one entry replaced is the new one or an old one. -/
theorem mem_set {pass pass' : Pass} {passes : List Pass} {i : Nat}
    (h : pass' ∈ passes.set i pass) : pass' = pass ∨ pass' ∈ passes :=
  (List.mem_or_eq_of_mem_set h).symm

/-- Where the passes after a step come from. -/
theorem step_pass (h : StepCases settings w a w') {pass' : Pass} (hpass : pass' ∈ w'.passes) :
    PassStep settings w w' pass' := by
  cases h with
  | op | login | license | logout | refresh | authWrite | authLogout | authRefresh
    | authenticate | clear | expire => exact .kept hpass
  | crash => cases hpass
  | claimRaised | attemptRaised | purged => exact .kept (List.mem_of_mem_eraseIdx hpass)
  | flush hrecord =>
    rcases List.mem_append.mp hpass with hold | hnew
    · exact .kept hold
    · rw [List.mem_singleton.mp hnew]
      exact .started hrecord rfl
  | claimed hmem hstage happly =>
    rcases mem_set hpass with rfl | hold
    · exact .claimed hmem hstage happly
    · exact .kept hold
  | attempted hmem hstage _ hreceive =>
    rcases mem_set hpass with rfl | hold
    · rw [← hreceive]
      exact .attempted hmem hstage
    · exact .kept hold
  | settled hmem hstage =>
    rcases mem_set hpass with rfl | hold
    · exact .settled hmem hstage
    · exact .kept hold

/-- Where the holder of the lock after a step comes from. -/
theorem step_task (h : StepCases settings w a w') {task' : AuthTask}
    (htask : w'.auth = some task') : TaskStep settings w w' task' := by
  cases h with
  | flush | attempted | attemptRaised | authenticate | expire =>
    exact .kept htask (.inl rfl) rfl
  | op hlocal happly => exact .kept htask (.inr ⟨_, _, happly, isLocal_free hlocal⟩) rfl
  | claimed _ _ happly | claimRaised _ happly | purged happly | clear _ happly =>
    exact .kept htask (.inr ⟨_, _, happly, rfl⟩) rfl
  | settled _ _ happly => exact .kept htask (.inr ⟨_, _, happly, settlement_free _ _ _⟩) rfl
  | crash => cases htask
  | @login user session delivered _ hnew =>
    cases delivered <;> cases htask
    exact .login hnew List.mem_cons_self rfl
  | license hauth =>
    cases htask
    simp only [AuthService.afterLicense]
    split
    · split
      · exact .undo
      · exact .licensed hauth rfl
    · exact .undo
  | logout =>
    simp only [AuthService.logout] at htask
    split at htask
    · rename_i record hrecord
      split at htask <;> cases htask
      rename_i hactive
      exact .logout hrecord hactive rfl
    · cases htask
  -- a refresh without a session, or with one that has expired, ends at once
  | refresh =>
    simp only [AuthService.refresh] at htask
    split at htask
    · cases htask
    · rename_i record hrecord
      split at htask
      · cases htask
      · split at htask
        · cases htask
          exact .expired hrecord rfl
        · split at htask <;> cases htask
          · exact .expired hrecord rfl
          · exact .refresh hrecord rfl
  -- what follows a write depends on its reply only
  | @authWrite now newId claimToken task op store reply hauth hop happly =>
    cases task <;> simp only [AuthTask.afterWrite, reduceCtorEq] at htask
    case loginSave session expiry =>
      simp only [AuthService.afterSave] at htask
      split at htask <;> cases htask
      exact .undo
    case logoutBegin record =>
      cases hop
      simp only [AuthService.afterBegin] at htask
      split at htask <;> cases htask
      exact .began hauth happly
    case logoutSetError generation id token code =>
      cases htask
      exact .noted hauth
  | @authLogout applied outcome task session central hauth hsession =>
    cases task <;> simp only [AuthTask.afterLogout, reduceCtorEq] at htask
    simp only [AuthService.afterLogout] at htask
    split at htask
    · cases htask
      exact .loggedOut hauth rfl
    · split at htask <;> cases htask
      · exact .loggedOut hauth rfl
      · exact .refused hauth rfl
    · cases htask
  | @authRefresh result record validUntil central hauth =>
    simp only [AuthService.afterRefresh] at htask
    split at htask
    · cases htask
      exact .refreshed hauth rfl rfl
    · split at htask <;> cases htask
      exact .rejected hauth rfl
    · cases htask

/-- The write of a step. -/
theorem step_write (h : StepCases settings w a w') : WriteStep settings w a w' := by
  cases h with
  | flush | attempted | attemptRaised | login | license | logout | refresh | authLogout
    | authRefresh | authenticate | expire | crash => exact .none rfl rfl
  | op hlocal happly => exact .free happly (isLocal_free hlocal) rfl
  | claimed _ _ happly | claimRaised _ happly | purged happly | clear _ happly =>
    exact .free happly rfl rfl
  | settled _ _ happly => exact .free happly (settlement_free _ _ _) rfl
  | authWrite hauth hop happly => exact .auth rfl hauth hop happly rfl rfl

/-- A stage of an item that every start and every attempt keep is the stage of every pass. -/
theorem stage_step {P : SessionRecord → Item → Stage → Prop}
    (hstart : ∀ record item, P record item (startItem record item))
    (hreceive : ∀ record item stage outcome, P record item stage →
      P record item (Stage.receive settings item stage outcome))
    (hstep : StepCases settings w a w')
    (h : ∀ pass ∈ w.passes, ∀ item stage rest, pass.stage = .working item stage rest →
      P pass.record item stage) :
    ∀ pass ∈ w'.passes, ∀ item stage rest, pass.stage = .working item stage rest →
      P pass.record item stage := by
  have hnext : ∀ (pass : Pass) (items : List Item) item stage rest,
      (pass.next items).stage = .working item stage rest → P (pass.next items).record item stage
      := by
    intro pass items item stage rest heq
    cases items with
    | nil => cases heq
    | cons first items =>
      cases heq
      exact hstart pass.record _
  intro pass' hpass item stage rest heq
  cases step_pass hstep hpass with
  | kept hmem => exact h pass' hmem item stage rest heq
  | started => cases heq
  | claimed | settled => exact hnext _ _ _ _ _ heq
  | attempted hmem hstage =>
    cases heq
    exact hreceive _ _ _ _ (h _ hmem _ _ _ hstage)

end Steps

end Rsap.Proofs
