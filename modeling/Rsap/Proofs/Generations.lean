import Rsap.Proofs.Completions
import Rsap.Proofs.SessionRow

/-!
# `Rsap.Proofs.Generations`: the compare-and-swap by generation

Three kinds of tasks write the session row by the generation of a record that they read before:
the holder of the lock, an `authenticate` that is about to clear the row, and a pass that has
read a pending revocation (`casRecord`). While the row is not deleted its generation grows, so
the write finds the session of the record or nothing.

A `save` into an absent row starts at generation 1 again. So a login after a deletion can
install a generation that an old record still carries. `FreshInstall` asks that no task outside
of the lock holds a record at such a `save`. Then the writes touch the session of their record
only (`cas_touches_own`). `second_clear` is a run in which an old record deletes the session of
a new login.
-/

set_option autoImplicit false

namespace Rsap.Proofs

open Rsap.Library
open Rsap.Library.Machine (Reachable Any)
open Rsap.Desktop

/-! ### The writes by generation -/

/-- The generation that the operation compares with that of the row. -/
def expectedGeneration : Op → Option Nat
  | .replaceActive _ _ _ generation => some generation
  | .markRevocationPending _ generation => some generation
  | .beginRevocation _ _ _ generation _ _ => some generation
  | .setError _ generation _ => some generation
  | .clear generation => generation
  | .completeRevocation _ _ _ _ generation => some generation
  | _ => none

/-- An operation that changes the row found the generation that it expects. -/
theorem cas_generation {db : Db} {op : Op} {generation : Nat} {row : SessionRow}
    (hop : expectedGeneration op = some generation) (hrow : db.localSession = some row)
    (hchange : (op.run db).1.localSession ≠ some row) : row.generation = generation := by
  have hcases := sessionRow_cases db op
  generalize (op.run db).1.localSession = after at hcases hchange
  cases hcases with
  | kept => exact absurd hrow hchange
  | saved => cases hop
  | cleared hfound hexpected =>
    cases hfound.symm.trans hrow
    rcases hexpected with hany | hsome
    · cases hop.symm.trans hany
    · exact Option.some.inj (hsome.symm.trans hop)
  | replaced hfound | marked hfound | revoked hfound | noted hfound | completed hfound =>
    cases hfound.symm.trans hrow
    exact Option.some.inj hop

/-- The record that a task under the lock writes by. -/
def taskRecord : AuthTask → Option SessionRecord
  | .logoutBegin record => some record
  | .logoutComplete record _ _ _ => some record
  | .refreshClear record => some record
  | .refreshReplace record _ _ => some record
  | _ => none

/-- The record that a pass writes by, when it is about to complete a revocation. -/
def passRecord? (pass : Pass) : Option SessionRecord :=
  match pass.stage with
  | .working _ (.settling (.completeRevocation _)) _ => some pass.record
  | _ => none

/-- The record whose generation the write of a step compares with the row: `clear`,
`replace_active`, `begin_revocation` or `complete_revocation`. -/
def casRecord (w : World) : Act → Option SessionRecord
  | .clear i => w.clears[i]?
  | .authWrite _ _ _ => w.auth.bind taskRecord
  | .settle i _ => w.passes[i]?.bind passRecord?
  | _ => none

/-- When the step writes the row by the generation of a record, the row is of the record's
session. -/
def TouchesOwn (w : World) (a : Act) (w' : World) : Prop :=
  ∀ record row, casRecord w a = some record → w.store.db.localSession = some row →
    w'.store.db.localSession ≠ some row →
    row.session.sessionToken = record.session.sessionToken

/-! ### The tasks outside of the lock -/

/-- A task outside of the lock holds the record and may write by its generation. -/
inductive Reader (w : World) : SessionRecord → Prop where
  | clear {record : SessionRecord} : record ∈ w.clears → Reader w record
  | pass {pass : Pass} : pass ∈ w.passes → pass.record.status = .revocationPending →
      pass.stage ≠ .purging → Reader w pass.record

/-- The pass holds a pending revocation and has items to handle. -/
abbrev Pass.Revoking (pass : Pass) : Prop :=
  pass.record.status = .revocationPending ∧ pass.stage ≠ .purging

/-- The next write under the lock installs a session where there is none. -/
def installsNext (w : World) : Bool :=
  match w.auth, w.store.db.localSession with
  | some (.loginSave _ _), none => true
  | _, _ => false

/-- A login installs a session into an absent row only when no task outside of the lock holds a
record. -/
def FreshInstall (w : World) : Act → Prop
  | .authWrite _ _ _ => installsNext w = true →
    w.clears = [] ∧ ∀ pass ∈ w.passes, ¬ Pass.Revoking pass
  | _ => True

instance (w : World) (a : Act) : Decidable (FreshInstall w a) := by
  cases a <;> simp only [FreshInstall] <;> infer_instance

/-- The stage of an item that a pass handles under its record: a revocation is sent and
completed only for a pending record of the item's generation. -/
def OwnGeneration (record : SessionRecord) (item : Item) : Stage → Prop
  | .calling .logout _ => record.status = .revocationPending ∧
      item.payload.generation = record.generation
  | .settling (.completeRevocation generation) => record.status = .revocationPending ∧
      generation = record.generation
  | _ => True

section Stages
variable {record : SessionRecord} {item : Item}

/-- Behind its requests an item that is no revocation has no revocation to complete. -/
theorem afterRequests_own (data : Json) : OwnGeneration record item (afterRequests item data) := by
  unfold afterRequests settleCamera
  split
  · split <;> trivial
  · split <;> trivial
  · trivial

/-- A revocation is sent for its own record only, so its settlement is for that record's
generation. -/
theorem afterMain_own (data : Json) : OwnGeneration record item (afterMain item data) := by
  unfold afterMain
  split
  · trivial
  · exact afterRequests_own data

/-- A revocation begins only for the pending record of its generation. -/
theorem startItem_own (record : SessionRecord) (item : Item) :
    OwnGeneration record item (startItem record item) := by
  unfold startItem
  split
  · rename_i generation heq
    split
    · trivial
    · rename_i hown
      obtain ⟨hstatus, hgeneration⟩ := not_or.mp hown
      refine ⟨not_not.mp hstatus, ?_⟩
      rw [heq]
      exact not_not.mp hgeneration
  · split
    · trivial
    · exact afterMain_own _

/-- An attempt keeps the stage under the record. -/
theorem receive_own (settings : Settings) {stage : Stage} (outcome : AttemptOutcome)
    (h : OwnGeneration record item stage) :
    OwnGeneration record item (stage.receive settings item outcome) := by
  cases stage with
  | settling | raised => exact h
  | calling call attempt =>
    simp only [Stage.receive]
    split
    · rename_i result hresult
      -- a completion is only settled with the generation of the item
      cases result with
      | raised => trivial
      | data data =>
        cases call with
        | main => exact afterMain_own data
        | analytics data => exact afterRequests_own data
        | logout => exact h
      | error e =>
        cases call with
        | main =>
          simp only [afterCall]
          split
          · exact afterMain_own _
          · trivial
        | analytics => trivial
        | logout =>
          simp only [afterCall]
          split
          · exact h
          · trivial
    · cases call <;> exact h

end Stages

section Worlds
variable {settings : Settings} {ok : World → Act → Prop} {w w' : World} {a : Act}

/-- Every pass handles its item under its record. -/
theorem ownGeneration_reachable (h : Reachable (worldMachine settings) ok w) :
    ∀ pass ∈ w.passes, ∀ item stage rest, pass.stage = .working item stage rest →
      OwnGeneration pass.record item stage := by
  refine h.invariant (I := fun w => ∀ pass ∈ w.passes, ∀ item stage rest,
      pass.stage = .working item stage rest → OwnGeneration pass.record item stage)
    (fun _ hpass => absurd hpass List.not_mem_nil) fun _ _ _ _ _ hstep ih => ?_
  exact stage_step startItem_own (fun _ _ _ outcome hown => receive_own settings outcome hown)
    (step_cases hstep) ih

/-- A record that a task outside of the lock holds was held before the step, or the step has read
it. -/
theorem step_reader (hstep : StepCases settings w a w') {record : SessionRecord}
    (h : Reader w' record) :
    Reader w record ∨ w.record = some record ∧ w'.store = w.store := by
  cases h with
  | clear hmem =>
    cases hstep with
    | op | flush | claimed | claimRaised | attempted | attemptRaised | settled | purged | login
      | license | logout | refresh | authWrite | authLogout | authRefresh | expire =>
      exact .inl (.clear hmem)
    | crash => cases hmem
    | clear => exact .inl (.clear (List.mem_of_mem_eraseIdx hmem))
    -- a clearing starts from a record that was just read
    | authenticate hclears =>
      rcases hclears with rfl | ⟨read, hread, rfl⟩
      · exact .inl (.clear hmem)
      · rcases List.mem_cons.mp hmem with rfl | hold
        · exact .inr ⟨hread, rfl⟩
        · exact .inl (.clear hold)
  | pass hpass hstatus hpurging =>
    -- and so does a pass
    cases step_pass hstep hpass with
    | kept hold => exact .inl (.pass hold hstatus hpurging)
    | started hrecord hstore => exact .inr ⟨hrecord, hstore⟩
    | claimed hold hstage | settled hold hstage =>
      rw [next_record] at hstatus ⊢
      refine .inl (.pass hold hstatus ?_)
      rw [hstage]
      intro heq
      cases heq
    | @attempted pass item stage rest outcome hold hstage =>
      refine .inl (@Reader.pass w pass hold hstatus ?_)
      rw [hstage]
      intro heq
      cases heq

/-- What the tasks outside of the lock have read still binds the row. -/
def ReadersBound (w : World) : Prop :=
  ∀ record, Reader w record →
    Bound w.store.db.localSession record.generation record.session.sessionToken

/-- A step under `FreshInstall` keeps the readers bound. -/
theorem readersBound_step (hok : FreshInstall w a) (hstep : StepCases settings w a w')
    (h : ReadersBound w) : ReadersBound w' := by
  intro record hreader
  rcases step_reader hstep hreader with hold | ⟨hread, hstore⟩
  · have hbound := h record hold
    cases step_write hstep with
    | none hstore =>
      rw [hstore]
      exact hbound
    | free happly hfree => exact hbound.freeWrite (.inr ⟨_, _, happly, hfree⟩)
    | @auth task op reply now itemId claimToken hact hauth hop happly =>
      obtain ⟨-, -, -, hdb, -, -⟩ := apply_step happly
      rw [hdb]
      refine hbound.run fun hinstalls => ?_
      -- only a login installs, and then nobody holds a record
      have hnext : installsNext w = true := by
        cases task <;> cases hop <;> simp only [Installs] at hinstalls
        simp only [installsNext, hauth, hinstalls]
      rw [hact] at hok
      obtain ⟨hclears, hpasses⟩ := hok hnext
      cases hold with
      | clear hmem => exact absurd (hclears ▸ hmem) List.not_mem_nil
      | pass hpass hstatus hpurging => exact hpasses _ hpass ⟨hstatus, hpurging⟩
  · rw [hstore]
    exact bound_read hread

/-- What the tasks have read binds the row, in every reachable world. -/
theorem readersBound_reachable (h : Reachable (worldMachine settings) FreshInstall w) :
    ReadersBound w := by
  refine h.invariant (I := ReadersBound) (fun record hreader => ?_) fun _ _ _ _ hok hstep =>
    readersBound_step hok (step_cases hstep)
  intro row hrow
  cases hrow

/-- The write of a task under the lock compares with the generation that the task goes on
with. -/
theorem taskRecord_claim {task : AuthTask} {record : SessionRecord}
    (hrecord : taskRecord task = some record) {maxAttempts : Attempts} {leaseSeconds : Nat}
    {now : Timestamp} {itemId claimToken : Uuid} {op : Op}
    (hop : task.op maxAttempts leaseSeconds now itemId claimToken = some op) :
    ∃ generation, expectedGeneration op = some generation ∧
      authClaim task = some (generation, record.session.sessionToken) := by
  cases task <;> cases hrecord <;> cases hop <;> exact ⟨_, rfl, rfl⟩

/-- The write of a step by generation is of an operation whose generation binds the row. -/
theorem casRecord_bound (h : Reachable (worldMachine settings) FreshInstall w)
    (hstep : w.step settings a = some w') {record : SessionRecord}
    (hrecord : casRecord w a = some record) :
    ∃ op generation, w'.store.db = (op.run w.store.db).1 ∧
      expectedGeneration op = some generation ∧
      Bound w.store.db.localSession generation record.session.sessionToken := by
  cases a with
  -- the three places where a record is compared and replaced
  | clear i =>
    have hi : w.clears[i]? = some record := hrecord
    simp only [World.step, hi] at hstep
    obtain ⟨store, reply, happly, rfl⟩ := World.write_eq hstep
    exact ⟨_, record.generation, (apply_step happly).2.2.2.1, rfl,
      readersBound_reachable h record (.clear (List.mem_of_getElem? hi))⟩
  | authWrite now itemId claimToken =>
    obtain ⟨task, hauth, htask⟩ := Option.bind_eq_some_iff.mp hrecord
    simp only [World.step, hauth, World.authWrite] at hstep
    split at hstep
    · rename_i op hop
      obtain ⟨store, reply, happly, rfl⟩ := World.write_eq hstep
      obtain ⟨generation, hexpected, hclaim⟩ := taskRecord_claim htask hop
      exact ⟨op, generation, (apply_step happly).2.2.2.1, hexpected,
        (authBound_reachable h).bound task hauth _ _ hclaim⟩
    · cases hstep
  | settle i now =>
    obtain ⟨pass, hpass, hworks⟩ := Option.bind_eq_some_iff.mp hrecord
    have hmem := List.mem_of_getElem? hpass
    unfold passRecord? at hworks
    split at hworks
    · rename_i item generation rest hstage
      cases hworks
      simp only [World.step, hpass, hstage] at hstep
      obtain ⟨store, reply, happly, rfl⟩ := World.write_eq hstep
      obtain ⟨hstatus, hgeneration⟩ := ownGeneration_reachable h pass hmem _ _ _ hstage
      have hworking : pass.stage ≠ .purging := by
        rw [hstage]
        intro heq
        cases heq
      exact ⟨_, pass.record.generation, (apply_step happly).2.2.2.1, congrArg some hgeneration,
        readersBound_reachable h _ (.pass hmem hstatus hworking)⟩
    · cases hworks
  | _ => cases hrecord

/-! ### The row still belongs to the record's session -/

/-- A write by generation touches the session of the record that its caller read. -/
theorem cas_touches_own (h : Reachable (worldMachine settings) FreshInstall w)
    (hstep : w.step settings a = some w') : TouchesOwn w a w' := by
  intro record row hrecord hrow hchange
  obtain ⟨op, generation, hdb, hexpected, hbound⟩ := casRecord_bound h hstep hrecord
  rw [hdb] at hchange
  exact (hbound row hrow).2 (cas_generation hexpected hrow hchange)

end Worlds

/-! ### An old record against a new login -/

/-- A session of user 3, and a later one. -/
def firstSession : LocalSession := ⟨1, 2, some 4, 1000, some 3, none⟩

def secondSession : LocalSession := ⟨11, 12, some 14, 1000, some 3, none⟩

/-- A login, under a licence that ends at the given time. -/
def installActs (session : LocalSession) (now expiry : Timestamp) : List Act :=
  [.login 3 session true, .license now (some ([("is_active", .bool true)], expiry)),
    .authWrite now 0 0]

/-- The user logs in, and the licence ends. Two `authenticate` calls read the session, and the
first clears it. -/
def endedLicense : List Act :=
  installActs firstSession 0 5 ++ [.authenticate 6 1 2, .authenticate 6 1 2, .clear 0]

/-- Both calls have cleared the row when the user logs in again and logs out. -/
def cleanRelogin : List Act :=
  endedLicense ++ [.clear 0] ++ installActs secondSession 7 1000 ++ [.logout]

/-- The logout then writes the row of its own session. -/
theorem cas_touches_own_logout :
    let w := (worldMachine defaultSettings).final .empty cleanRelogin
    ∃ w', w.step defaultSettings (.authWrite 8 10 11) = some w' ∧
      TouchesOwn w (.authWrite 8 10 11) w' := by
  intro w
  have hstep : (w.step defaultSettings (.authWrite 8 10 11)).isSome := by decide
  refine ⟨_, (Option.some_get hstep).symm, ?_⟩
  exact cas_touches_own (.final .init cleanRelogin (by decide)) (Option.some_get hstep).symm

/-- The row of the second session. It is at generation 1 again. -/
def secondRow : SessionRow :=
  ⟨{ secondSession with license := some [("is_active", .bool true)] }, 3, some 1000, 7, 1,
    .active, none⟩

/-- When the user logs in before the second call has cleared the row, the second call deletes the
new session. -/
theorem second_clear :
    let w := (worldMachine defaultSettings).final .empty
      (endedLicense ++ installActs secondSession 7 1000)
    Reachable (worldMachine defaultSettings) Any w ∧
      ∃ w', w.step defaultSettings (.clear 0) = some w' ∧ ¬ TouchesOwn w (.clear 0) w' := by
  intro w
  have hdeleted : (w.step defaultSettings (.clear 0)).map
      (fun w' => w'.store.db.localSession) = some none := by decide
  have hold : (w.clears[0]?).map (fun record => record.session.sessionToken) = some 2 := by decide
  obtain ⟨w', hstep, hnone⟩ := Option.map_eq_some_iff.mp hdeleted
  obtain ⟨record, hrecord, htoken⟩ := Option.map_eq_some_iff.mp hold
  refine ⟨.final .init (endedLicense ++ installActs secondSession 7 1000) (by decide), w', hstep,
    fun h => ?_⟩
  have hgone : w'.store.db.localSession ≠ some secondRow := by
    rw [hnone]
    intro heq
    cases heq
  have hown := h record secondRow hrecord (by decide) hgone
  exact absurd (hown.trans htoken) (by decide)

end Rsap.Proofs
