import Rsap.Desktop.Auth
import Rsap.Desktop.Central

/-!
# `Rsap.Desktop.World`: the desktop backend and the central service, step by step

The whole system: the local store, the central service, the running `flush_once` passes, the
holder of the authentication lock, and the records of the `authenticate` calls that are about to
clear the session. A step is a database transaction, an HTTP attempt or the start of a call. Between
two steps of a task any other task may run, as `asyncio` allows at every `await`.

A crash drops every task. The database and the central service stay.

`revocations` is a history: the revocations that `begin_revocation` started, with the queue
item, the session token and the user of each.
-/

set_option autoImplicit false

namespace Rsap.Desktop

open Rsap.Library

/-- The point that a pass has reached: before its claim, at an item with the rest of the batch,
or before its purge. -/
inductive PassStage where
  | claiming
  | working (item : Item) (stage : Stage) (rest : List Item)
  | purging
  deriving DecidableEq

/-- A running `flush_once`. -/
structure Pass where
  record : SessionRecord
  owner : String
  limit : Nat
  stage : PassStage
  deriving DecidableEq

/-- The pass goes on with the items. -/
def Pass.next (pass : Pass) : List Item → Pass
  | [] => { pass with stage := .purging }
  | item :: rest => { pass with stage := .working item (startItem pass.record item) rest }

/-- A revocation that a logout started. -/
structure Revocation where
  itemId : Uuid
  sessionToken : Token
  userId : Uuid
  deriving DecidableEq

/-- The whole system. -/
structure World where
  store : Store
  central : Central
  passes : List Pass
  auth : Option AuthTask
  clears : List SessionRecord
  revocations : List Revocation

/-- The system before the first step. -/
def World.empty : World := ⟨.empty, .empty, [], none, [], []⟩

/-- The operations that the user, the operator and the capture pipeline ask for. -/
def Op.isLocal : Op → Bool
  | .createCamera .. => true
  | .updateCamera .. => true
  | .deleteCamera .. => true
  | .addEvent .. => true
  | .addAlert .. => true
  | .addPeopleCount .. => true
  | .retryDeadLetter .. => true
  | .discardDeadLetter .. => true
  | .purgeRetained .. => true
  | _ => false

/-- A step of the system. -/
inductive Act where
  | op (op : Op)
  | flush (owner : String) (limit : Nat)
  | claim (pass : Nat) (now : Timestamp) (token : Uuid)
  | attempt (pass : Nat) (applied : Bool) (outcome : AttemptOutcome)
  | settle (pass : Nat) (now : Timestamp)
  | purge (pass : Nat) (now : Timestamp)
  | login (user : Uuid) (session : LocalSession) (delivered : Bool)
  | license (now : Timestamp) (result : Option (Dict × Timestamp))
  | logout
  | refresh (now : Timestamp) (refreshToken sessionToken : Token)
  | authWrite (now : Timestamp) (itemId claimToken : Uuid)
  | authLogout (applied : Bool) (outcome : AttemptOutcome)
  | authRefresh (result : AuthService.RefreshResult)
  | authenticate (now : Timestamp) (bearerToken sessionToken : Token)
  | clear (call : Nat)
  | expire (accessToken : Token)
  | crash

namespace World

/-- A database write, and what its caller does with the reply. -/
def write (w : World) (op : Op) (next : Reply → World → World) : Option World :=
  (w.store.apply op).map fun (store, reply) => next reply { w with store }

/-- The session record of the database. -/
def record (w : World) : Option SessionRecord := SessionRepository.getRecord w.store.db

/-- The claim of a pass. A claim that raises ends the pass. -/
def claim (settings : Settings) (w : World) (i : Nat) (pass : Pass) (now : Timestamp)
    (token : Uuid) : Option World :=
  w.write (.claim now token pass.owner pass.limit (keyFilter pass.record)
      settings.leaseSeconds.val) fun reply w =>
    match reply with
    | .rows rows =>
      { w with passes := w.passes.set i (pass.next (rows.map (Item.ofRow token pass.owner))) }
    | _ => { w with passes := w.passes.eraseIdx i }

/-- An HTTP attempt of a pass. An exception that nothing catches ends the pass. -/
def attempt (settings : Settings) (w : World) (i : Nat) (pass : Pass) (item : Item)
    (stage : Stage) (call : Call) (rest : List Item) (applied : Bool)
    (outcome : AttemptOutcome) : Option World :=
  (w.central.answer pass.record.session (item.request call) applied outcome).map fun central =>
    match stage.receive settings item outcome with
    | .raised => { w with central, passes := w.passes.eraseIdx i }
    | stage =>
      { w with central, passes := w.passes.set i { pass with stage := .working item stage rest } }

/-- The revocation that the write of an authentication task starts. -/
def started (w : World) (task : AuthTask) (reply : Reply) : List Revocation :=
  match task, reply, w.store.db.localSession with
  | .logoutBegin _, .revocation (some (_, itemId, _)), some row =>
    [⟨itemId, row.session.sessionToken, row.userId⟩]
  | _, _, _ => []

/-- The write of the authentication task. -/
def authWrite (settings : Settings) (w : World) (task : AuthTask) (now : Timestamp)
    (itemId claimToken : Uuid) : Option World :=
  match task.op settings.maxAttempts settings.leaseSeconds.val now itemId claimToken with
  | some op =>
    w.write op fun reply w' =>
      { w' with
        auth := task.afterWrite reply
        revocations := w.started task reply ++ w.revocations }
  | none => none

/-- One step. -/
def step (settings : Settings) (w : World) : Act → Option World
  | .op op => if op.isLocal then w.write op fun _ w => w else none
  | .flush owner limit =>
    w.record.map fun record => { w with passes := w.passes ++ [⟨record, owner, limit, .claiming⟩] }
  | .claim i now token =>
    match w.passes[i]? with
    | some pass => if pass.stage = .claiming then w.claim settings i pass now token else none
    | none => none
  | .attempt i applied outcome =>
    match w.passes[i]? with
    | some pass =>
      match pass.stage with
      | .working item (.calling call attempt) rest =>
        w.attempt settings i pass item (.calling call attempt) call rest applied outcome
      | _ => none
    | none => none
  | .settle i now =>
    match w.passes[i]? with
    | some pass =>
      match pass.stage with
      | .working item (.settling settlement) rest =>
        w.write (settlement.op item now) fun _ w =>
          { w with passes := w.passes.set i (pass.next rest) }
      | _ => none
    | none => none
  | .purge i now =>
    match w.passes[i]? with
    | some pass =>
      if pass.stage = .purging then
        w.write (.purgeRetained now settings.succeededRetentionDays.val
          settings.deadLetterRetentionDays.val) fun _ w =>
            { w with passes := w.passes.eraseIdx i }
      else none
    | none => none
  | .login user session delivered =>
    -- the response may be lost, and it may lack the user
    if w.auth = none ∧ session.sessionToken ∉ w.central.issued ∧
        (session.userId = none ∨ session.userId = some user) then
      some { w with
        central := w.central.login user session
        auth := if delivered then some (.loginLicense session) else none }
    else none
  | .license now result =>
    match w.auth with
    | some (.loginLicense session) =>
      some { w with auth := some (AuthService.afterLicense session now result) }
    | _ => none
  | .logout =>
    if w.auth = none then some { w with auth := AuthService.logout w.record } else none
  | .refresh now refreshToken sessionToken =>
    if w.auth = none then
      some { w with auth := AuthService.refresh now refreshToken sessionToken w.record }
    else none
  | .authWrite now itemId claimToken =>
    match w.auth with
    | some task => w.authWrite settings task now itemId claimToken
    | none => none
  | .authLogout applied outcome =>
    match w.auth with
    | some task =>
      match task.logoutSession with
      | some session =>
        (w.central.answer session ⟨.post, .logout, .none⟩ applied outcome).map fun central =>
          { w with central, auth := task.afterLogout outcome }
      | none => none
    | none => none
  | .authRefresh result =>
    match w.auth with
    | some (.refreshCall record validUntil) =>
      some { w with
        central :=
          match result with
          | .tokens accessToken _ _ =>
            w.central.refresh accessToken record.session.sessionToken
          | _ => w.central
        auth := AuthService.afterRefresh record validUntil result }
    | _ => none
  | .authenticate now bearerToken sessionToken =>
    match AuthService.authenticate now bearerToken sessionToken w.record with
    | .clear record => some { w with clears := record :: w.clears }
    | _ => some w
  | .clear i =>
    match w.clears[i]? with
    | some record =>
      w.write (.clear (some record.generation)) fun _ w =>
        { w with clears := w.clears.eraseIdx i }
    | none => none
  | .expire accessToken => some { w with central := w.central.expire accessToken }
  | .crash => some { w with passes := [], auth := none, clears := [] }

end World

/-! ### What a step does -/

/-- The steps that succeed, with what each does. -/
inductive StepCases (settings : Settings) (w : World) : Act → World → Prop where
  | op {op : Op} {store : Store} {reply : Reply} : op.isLocal = true →
      w.store.apply op = some (store, reply) → StepCases settings w (.op op) { w with store }
  | flush {owner : String} {limit : Nat} {record : SessionRecord} : w.record = some record →
      StepCases settings w (.flush owner limit)
        { w with passes := w.passes ++ [⟨record, owner, limit, .claiming⟩] }
  | claimed {i : Nat} {now : Timestamp} {token : Uuid} {pass : Pass} {store : Store}
      {rows : List Row} : pass ∈ w.passes → pass.stage = .claiming →
      w.store.apply (.claim now token pass.owner pass.limit (keyFilter pass.record)
        settings.leaseSeconds.val) = some (store, .rows rows) →
      StepCases settings w (.claim i now token)
        { w with
          store, passes := w.passes.set i (pass.next (rows.map (Item.ofRow token pass.owner))) }
  | claimRaised {i : Nat} {now : Timestamp} {token : Uuid} {pass : Pass} {store : Store}
      {reply : Reply} : pass ∈ w.passes →
      w.store.apply (.claim now token pass.owner pass.limit (keyFilter pass.record)
        settings.leaseSeconds.val) = some (store, reply) →
      StepCases settings w (.claim i now token) { w with store, passes := w.passes.eraseIdx i }
  | attempted {i : Nat} {applied : Bool} {outcome : AttemptOutcome} {pass : Pass} {item : Item}
      {call : Call} {attempt : Nat} {rest : List Item} {central : Central} {stage : Stage} :
      pass ∈ w.passes → pass.stage = .working item (.calling call attempt) rest →
      w.central.answer pass.record.session (item.request call) applied outcome = some central →
      (Stage.calling call attempt).receive settings item outcome = stage → stage ≠ .raised →
      StepCases settings w (.attempt i applied outcome)
        { w with
          central, passes := w.passes.set i { pass with stage := .working item stage rest } }
  | attemptRaised {i : Nat} {applied : Bool} {outcome : AttemptOutcome} {pass : Pass}
      {item : Item} {call : Call} {attempt : Nat} {rest : List Item} {central : Central} :
      pass ∈ w.passes → pass.stage = .working item (.calling call attempt) rest →
      w.central.answer pass.record.session (item.request call) applied outcome = some central →
      StepCases settings w (.attempt i applied outcome)
        { w with central, passes := w.passes.eraseIdx i }
  | settled {i : Nat} {now : Timestamp} {pass : Pass} {item : Item} {settlement : Settlement}
      {rest : List Item} {store : Store} {reply : Reply} : pass ∈ w.passes →
      pass.stage = .working item (.settling settlement) rest →
      w.store.apply (settlement.op item now) = some (store, reply) →
      StepCases settings w (.settle i now)
        { w with store, passes := w.passes.set i (pass.next rest) }
  | purged {i : Nat} {now : Timestamp} {store : Store} {reply : Reply} :
      w.store.apply (.purgeRetained now settings.succeededRetentionDays.val
        settings.deadLetterRetentionDays.val) = some (store, reply) →
      StepCases settings w (.purge i now) { w with store, passes := w.passes.eraseIdx i }
  | login {user : Uuid} {session : LocalSession} {delivered : Bool} : w.auth = none →
      session.sessionToken ∉ w.central.issued →
      (session.userId = none ∨ session.userId = some user) →
      StepCases settings w (.login user session delivered)
        { w with
          central := w.central.login user session
          auth := if delivered then some (.loginLicense session) else none }
  | license {now : Timestamp} {result : Option (Dict × Timestamp)} {session : LocalSession} :
      w.auth = some (.loginLicense session) →
      StepCases settings w (.license now result)
        { w with auth := some (AuthService.afterLicense session now result) }
  | logout : w.auth = none →
      StepCases settings w .logout { w with auth := AuthService.logout w.record }
  | refresh {now : Timestamp} {refreshToken sessionToken : Token} : w.auth = none →
      StepCases settings w (.refresh now refreshToken sessionToken)
        { w with auth := AuthService.refresh now refreshToken sessionToken w.record }
  | authWrite {now : Timestamp} {itemId claimToken : Uuid} {task : AuthTask} {op : Op}
      {store : Store} {reply : Reply} : w.auth = some task →
      task.op settings.maxAttempts settings.leaseSeconds.val now itemId claimToken = some op →
      w.store.apply op = some (store, reply) →
      StepCases settings w (.authWrite now itemId claimToken)
        { w with
          store, auth := task.afterWrite reply
          revocations := w.started task reply ++ w.revocations }
  | authLogout {applied : Bool} {outcome : AttemptOutcome} {task : AuthTask}
      {session : LocalSession} {central : Central} : w.auth = some task →
      task.logoutSession = some session →
      w.central.answer session ⟨.post, .logout, .none⟩ applied outcome = some central →
      StepCases settings w (.authLogout applied outcome)
        { w with central, auth := task.afterLogout outcome }
  | authRefresh {result : AuthService.RefreshResult} {record : SessionRecord}
      {validUntil : Timestamp} {central : Central} :
      w.auth = some (.refreshCall record validUntil) →
      (central = w.central ∨ ∃ accessToken,
        central = w.central.refresh accessToken record.session.sessionToken) →
      StepCases settings w (.authRefresh result)
        { w with central, auth := AuthService.afterRefresh record validUntil result }
  | authenticate {now : Timestamp} {bearerToken sessionToken : Token}
      {clears : List SessionRecord} :
      (clears = w.clears ∨ ∃ record, w.record = some record ∧ clears = record :: w.clears) →
      StepCases settings w (.authenticate now bearerToken sessionToken) { w with clears }
  | clear {i : Nat} {record : SessionRecord} {store : Store} {reply : Reply} :
      record ∈ w.clears → w.store.apply (.clear (some record.generation)) = some (store, reply) →
      StepCases settings w (.clear i) { w with store, clears := w.clears.eraseIdx i }
  | expire {accessToken : Token} :
      StepCases settings w (.expire accessToken)
        { w with central := w.central.expire accessToken }
  | crash : StepCases settings w .crash { w with passes := [], auth := none, clears := [] }

/-- A write that succeeds. -/
theorem World.write_eq {w w' : World} {op : Op} {next : Reply → World → World}
    (h : w.write op next = some w') :
    ∃ store reply, w.store.apply op = some (store, reply) ∧ w' = next reply { w with store } := by
  obtain ⟨⟨store, reply⟩, happly, heq⟩ := Option.map_eq_some_iff.mp h
  exact ⟨store, reply, happly, heq.symm⟩

/-- `authenticate` clears the session of the record that it read. -/
theorem authenticate_clear {now : Timestamp} {bearerToken sessionToken : Token}
    {read : Option SessionRecord} {record : SessionRecord}
    (h : AuthService.authenticate now bearerToken sessionToken read = .clear record) :
    read = some record := by
  unfold AuthService.authenticate at h
  cases read with
  | none => cases h
  | some read =>
    dsimp only at h
    split at h
    · cases h
    · split at h
      · cases h
        rfl
      · split at h
        · cases h
          rfl
        · split at h
          · cases h
          · split at h <;> cases h

/-- Every step that succeeds is one of the listed ones. -/
theorem step_cases {settings : Settings} {w w' : World} {a : Act}
    (h : w.step settings a = some w') : StepCases settings w a w' := by
  cases a with
  -- a write of the local API
  | op op =>
    simp only [World.step] at h
    split at h
    · rename_i hlocal
      obtain ⟨store, reply, happly, rfl⟩ := World.write_eq h
      exact .op hlocal happly
    · cases h
  -- a flush: it starts, claims, sends every attempt and settles its answer
  | flush owner limit =>
    obtain ⟨record, hrecord, rfl⟩ := Option.map_eq_some_iff.mp h
    exact .flush hrecord
  | claim i now token =>
    simp only [World.step] at h
    split at h
    · rename_i pass hpass
      split at h
      · rename_i hstage
        have hmem := List.mem_of_getElem? hpass
        obtain ⟨store, reply, happly, rfl⟩ := World.write_eq h
        split
        · exact .claimed hmem hstage happly
        · exact .claimRaised hmem happly
      · cases h
    · cases h
  | attempt i applied outcome =>
    simp only [World.step] at h
    split at h
    · rename_i pass hpass
      have hmem := List.mem_of_getElem? hpass
      split at h
      · rename_i item call attempt rest hstage
        obtain ⟨central, hanswer, rfl⟩ := Option.map_eq_some_iff.mp h
        split
        · exact .attemptRaised hmem hstage hanswer
        · rename_i hraised
          exact .attempted hmem hstage hanswer rfl hraised
      · cases h
    · cases h
  | settle i now =>
    simp only [World.step] at h
    split at h
    · rename_i pass hpass
      split at h
      · rename_i item settlement rest hstage
        obtain ⟨store, reply, happly, rfl⟩ := World.write_eq h
        exact .settled (List.mem_of_getElem? hpass) hstage happly
      · cases h
    · cases h
  -- its last act removes the rows whose retention is over
  | purge i now =>
    simp only [World.step] at h
    split at h
    · split at h
      · obtain ⟨store, reply, happly, rfl⟩ := World.write_eq h
        exact .purged happly
      · cases h
    · cases h
  -- the requests of the user, which end in a write of the session
  | login user session delivered =>
    simp only [World.step] at h
    split at h
    · rename_i hguard
      cases h
      exact .login hguard.1 hguard.2.1 hguard.2.2
    · cases h
  | license now result =>
    simp only [World.step] at h
    split at h
    · rename_i session hauth
      cases h
      exact .license hauth
    · cases h
  | logout =>
    simp only [World.step] at h
    split at h
    · rename_i hauth
      cases h
      exact .logout hauth
    · cases h
  | refresh now refreshToken sessionToken =>
    simp only [World.step] at h
    split at h
    · rename_i hauth
      cases h
      exact .refresh hauth
    · cases h
  -- the awaits of those requests
  | authWrite now itemId claimToken =>
    simp only [World.step] at h
    split at h
    · rename_i task hauth
      simp only [World.authWrite] at h
      split at h
      · rename_i op hop
        obtain ⟨store, reply, happly, rfl⟩ := World.write_eq h
        exact .authWrite hauth hop happly
      · cases h
    · cases h
  | authLogout applied outcome =>
    simp only [World.step] at h
    split at h
    · rename_i task hauth
      split at h
      · rename_i session hsession
        obtain ⟨central, hanswer, rfl⟩ := Option.map_eq_some_iff.mp h
        exact .authLogout hauth hsession hanswer
      · cases h
    · cases h
  | authRefresh result =>
    simp only [World.step] at h
    split at h
    · rename_i record validUntil hauth
      cases h
      refine .authRefresh hauth ?_
      cases result with
      | tokens accessToken => exact .inr ⟨accessToken, rfl⟩
      | _ => exact .inl rfl
    · cases h
  -- a check of a bearer token, which may leave a clearing to do
  | authenticate now bearerToken sessionToken =>
    simp only [World.step] at h
    split at h <;> cases h
    · rename_i record hclear
      exact .authenticate (.inr ⟨record, authenticate_clear hclear, rfl⟩)
    · exact .authenticate (.inl rfl)
  | clear i =>
    simp only [World.step] at h
    split at h
    · rename_i record hrecord
      obtain ⟨store, reply, happly, rfl⟩ := World.write_eq h
      exact .clear (List.mem_of_getElem? hrecord) happly
    · cases h
  -- the central service forgets a token, and the process may die at any await
  | expire accessToken =>
    cases h
    exact .expire
  | crash =>
    cases h
    exact .crash

/-- The system as a machine. -/
def worldMachine (settings : Settings) : Machine World Act where
  init := .empty
  step := World.step settings

end Rsap.Desktop
