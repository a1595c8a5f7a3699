import Rsap.Proofs.Attempts
import Rsap.Proofs.Tasks

/-!
# `Rsap.Proofs.Items`: the rows behind the items that tasks hold

A payload belongs to one kind of logical key and endpoint (`Fits`). A task that leased a row
holds a copy of it, and the copy stays true while other tasks run: nothing rewrites a payload
once the row was leased (`Tracked`). `coherent_reachable` says so for every pass and for the
logout that holds the lock.

The store of a reachable world is a reachable store (`store_reachable`), so the results about
the queue hold in it.
-/

set_option autoImplicit false

namespace Rsap.Proofs

open Rsap.Library
open Rsap.Library.Machine (Reachable Any)
open Rsap.Desktop

/-! ### Payloads and keys -/

/-- The payload belongs under the key and goes to the endpoint. -/
def Fits (key : LogicalKey) (endpoint : Endpoint) : Payload → Prop
  | .cameraPost localId body => key = .camera localId ∧ endpoint = .cameras ∧ body.id = localId
  | .cameraPatch localId _ _ => key = .camera localId ∧ endpoint = .camera localId
  | .cameraDelete localId => key = .camera localId ∧ endpoint = .camera localId
  | .events event => key = .event event.id ∧ endpoint = .syncEvents
  | .alerts alert => key = .alert alert.id ∧ endpoint = .syncAlerts
  | .snapshots count => key = .count count.id ∧ endpoint = .syncPeopleCount
  | .sessionRevoke _ => key = .sessionRevoke ∧ endpoint = .logout

/-- What an operation enqueues fits. -/
theorem enqueueOf_fits {db : Db} {op : Op} {e : Enqueue} (h : enqueueOf db op = some e) :
    Fits e.logicalKey e.endpoint e.payload := by
  cases op <;> simp only [enqueueOf, reduceCtorEq, Option.some.injEq, Option.map_eq_some_iff] at h
  case updateCamera =>
    obtain ⟨current, -, rfl⟩ := h
    simp only [CameraRepository.queuedUpdate]
    split
    · exact ⟨rfl, rfl, rfl⟩
    · exact ⟨rfl, rfl⟩
  case createCamera => subst h; exact ⟨rfl, rfl, rfl⟩
  case deleteCamera =>
    split at h
    · split at h <;> cases h
      exact ⟨rfl, rfl⟩
    · cases h
  case addEvent => split at h <;> cases h; exact ⟨rfl, rfl⟩
  case addAlert => split at h <;> cases h; exact ⟨rfl, rfl⟩
  case addPeopleCount => split at h <;> cases h; exact ⟨rfl, rfl⟩
  all_goals subst h; exact ⟨rfl, rfl⟩

/-- The changes of an operation keep a row fitting. -/
theorem makes_fits {db : Db} {op : Op} {c : Change} {r : Row} (hmakes : Makes db op c r)
    (h : Fits r.logicalKey r.endpoint r.payload) :
    Fits (c.apply r).logicalKey (c.apply r).endpoint (c.apply r).payload := by
  cases c with
  | coalesce endpoint payload now dependsOnId =>
    obtain ⟨e, he, -, hlatest, rfl, rfl, -, -⟩ := hmakes
    have hkey : r.logicalKey = e.logicalKey := (latestBy_mem hlatest).2
    show Fits r.logicalKey e.endpoint e.payload
    rw [hkey]
    exact enqueueOf_fits he
  | _ => exact h

/-- Every row of a reachable store fits. -/
theorem fits_reachable {ok : Store → Op → Prop} {s : Store} (h : Reachable storeMachine ok s) :
    ∀ r ∈ s.db.syncQueue, Fits r.logicalKey r.endpoint r.payload := by
  refine row_invariant (P := fun r => Fits r.logicalKey r.endpoint r.payload)
    (fun _ _ r _ hr => ?_) (fun _ _ _ _ _ hmakes _ hr => makes_fits hmakes hr) h
  obtain ⟨e, _, _, he, rfl⟩ := hr
  exact enqueueOf_fits he

/-! ### Steps of the store and of the world -/

/-- A write of the store is a step of its machine. -/
theorem apply_step {s s' : Store} {op : Op} {reply : Reply} (h : s.apply op = some (s', reply)) :
    storeMachine.step s op = some s' ∧ reply = (op.run s.db).2 ∧ s.Admits op ∧
      s'.db = (op.run s.db).1 ∧ s'.issued = op.uuids ++ s.issued ∧
      s'.log = op.entries s.db reply ++ s.log := by
  have hstep : storeMachine.step s op = some s' := by simp [storeMachine, h]
  obtain ⟨hadmits, hs'⟩ := store_step hstep
  have hreply : reply = (op.run s.db).2 := by
    simp only [Store.apply, if_pos hadmits, Option.some.injEq, Prod.mk.injEq] at h
    exact h.2.symm
  subst hs'
  exact ⟨hstep, hreply, hadmits, rfl, rfl, by rw [hreply]⟩

section Worlds
variable {settings : Settings} {ok : World → Act → Prop} {w w' : World} {a : Act}

/-- A step of the world writes the store at most once. -/
theorem step_store (h : StepCases settings w a w') :
    w'.store = w.store ∨ ∃ op reply, w.store.apply op = some (w'.store, reply) := by
  cases h with
  | op _ happly | claimed _ _ happly | claimRaised _ happly | settled _ _ happly
    | purged happly | authWrite _ _ happly | clear _ happly => exact .inr ⟨_, _, happly⟩
  | flush | attempted | attemptRaised | login | license | logout | refresh | authLogout
    | authRefresh | authenticate | expire | crash => exact .inl rfl

/-- The store of a reachable world is reachable. -/
theorem store_reachable (h : Reachable (worldMachine settings) ok w) :
    Reachable storeMachine Any w.store := by
  refine h.simulate (N := storeMachine) (fun w => w.store) rfl fun w a w' _ hstep => ?_
  refine (step_store (step_cases hstep)).imp_right fun ⟨op, _, happly⟩ => ⟨op, ?_⟩
  exact (apply_step happly).1

end Worlds

/-! ### Tracked rows -/

/-- The row with this id, when it is there, was leased and holds this payload. -/
structure Tracked (s : Store) (itemId : Uuid) (endpoint : Endpoint) (payload : Payload) :
    Prop where
  issued : itemId ∈ s.issued
  row : ∀ r ∈ s.db.syncQueue, r.id = itemId →
    r.lastAttemptAt ≠ none ∧ r.endpoint = endpoint ∧ r.payload = payload

section Tracking
variable {s s' : Store} {op : Op} {reply : Reply} {itemId : Uuid} {endpoint : Endpoint}
  {payload : Payload}

/-- Every operation keeps a tracked row tracked. -/
theorem Tracked.step (h : Tracked s itemId endpoint payload) (hkeyed : Keyed s)
    (happly : s.apply op = some (s', reply)) : Tracked s' itemId endpoint payload := by
  obtain ⟨hstep, -, hadmits, -, hissued, -⟩ := apply_step happly
  refine ⟨hissued ▸ List.mem_append_right _ h.issued, ?_⟩
  refine step_rows (P := fun r => r.id = itemId →
    r.lastAttemptAt ≠ none ∧ r.endpoint = endpoint ∧ r.payload = payload) hkeyed hstep h.row ?_ ?_
  · rintro r ⟨e, _, _, he, rfl⟩ hid
    exact absurd h.issued (hid ▸ hadmits.2 e.itemId (enqueueOf_uuid he))
  · intro r c _ hg hr hid
    cases c with
    | coalesce => exact absurd hg.2 (hr hid).1
    | lease => exact ⟨nofun, (hr hid).2⟩
    | _ => exact hr hid

/-- The rows that a claim returns are tracked. -/
theorem claim_tracked {now : Timestamp} {token : Uuid} {owner : String} {limit : Nat}
    {key : Option LogicalKey} {leaseSeconds : Nat} {rows : List Row} (hkeyed : Keyed s)
    (htokens : TokensIssued s)
    (happly : s.apply (.claim now token owner limit key leaseSeconds) = some (s', .rows rows))
    {r : Row} (hr : r ∈ rows) : Tracked s' r.id r.endpoint r.payload := by
  obtain ⟨hstep, hreply, hadmits, hdb, -, -⟩ := apply_step happly
  have hkeyed' := keyed_step hstep hkeyed
  have hfresh := claim_fresh htokens hadmits
  have hrun := claim_run hreply.symm
  have hmem : r ∈ s'.db.syncQueue := by
    obtain ⟨-, -, hreturned⟩ := claimRows_returned hkeyed.unique hfresh hrun
    rw [hdb]
    exact ((hreturned r).mp hr).1
  refine ⟨hkeyed'.issued r hmem, fun t ht hid => ?_⟩
  rw [hkeyed'.unique.eq ht hmem hid]
  obtain ⟨r₀, -, -, rfl⟩ := claim_ready hkeyed.unique hfresh hrun r hr
  exact ⟨nofun, rfl, rfl⟩

/-- The `_enqueue` call of a revocation. -/
def revocationItem (now : Timestamp) (itemId : Uuid) (generation : Nat) (maxAttempts : Attempts) :
    Enqueue where
  now := now
  itemId := itemId
  endpoint := .logout
  payload := .sessionRevoke generation
  logicalKey := .sessionRevoke
  maxAttempts := maxAttempts
  dependsOnId := none

/-- A logout that starts a revocation finds an active session of the expected generation. It
leaves it pending one generation up, and leases the item that it enqueues. -/
theorem beginRevocation_started {now : Timestamp} {claimToken : Uuid} {expected generation : Nat}
    {id token : Uuid} {maxAttempts : Attempts} {leaseSeconds : Nat} {db : Db}
    (h : ((Op.beginRevocation now itemId claimToken expected maxAttempts leaseSeconds).run
      db).2 = .revocation (some (generation, id, token))) :
    ∃ row, db.localSession = some row ∧ row.generation = expected ∧ row.status = .active ∧
      generation = expected + 1 ∧
      id = (enqueue (revocationItem now itemId generation maxAttempts) db.syncQueue).2 ∧
      (Op.beginRevocation now itemId claimToken expected maxAttempts leaseSeconds).run db =
        ({ db with
            localSession := some { row with
              status := .revocationPending, generation, updatedAt := now, lastError := none }
            syncQueue := updateWhere (fun r => r.id = id ∧ r.state = .pending)
              (SessionRepository.leaseRevocation now (now + seconds leaseSeconds) claimToken)
              (enqueue (revocationItem now itemId generation maxAttempts) db.syncQueue).1 },
          .revocation (some (generation, id, claimToken))) := by
  simp only [Op.run, SessionRepository.beginRevocation] at h ⊢
  -- only an active session of this generation is revoked
  cases hrow : db.localSession with
  | none =>
    rw [hrow] at h
    cases h
  | some row =>
    simp only [hrow] at h ⊢
    split at h
    · rename_i hactive
      rw [if_pos hactive]
      obtain ⟨rfl, hstatus⟩ := hactive
      cases h
      exact ⟨row, rfl, rfl, hstatus, rfl, rfl, rfl⟩
    · cases h

/-- The item of a revocation that starts is tracked. -/
theorem beginRevocation_tracked {now : Timestamp} {claimToken : Uuid} {expected generation : Nat}
    {id token : Uuid} {maxAttempts : Attempts} {leaseSeconds : Nat} (hkeyed : Keyed s)
    (happly : s.apply (.beginRevocation now itemId claimToken expected maxAttempts leaseSeconds) =
      some (s', .revocation (some (generation, id, token)))) :
    Tracked s' id .logout (.sessionRevoke generation) := by
  obtain ⟨hstep, hreply, hadmits, hdb, -, -⟩ := apply_step happly
  have hkeyed' := keyed_step hstep hkeyed
  obtain ⟨row, -, -, -, -, rfl, hrun⟩ := beginRevocation_started hreply.symm
  have hqueue := congrArg (fun p => p.1.syncQueue) hrun
  -- the item id is fresh, so the row is the one that was just enqueued
  have hnew : ∀ r ∈ s.db.syncQueue, r.id ≠ itemId := fun r hr he =>
    hadmits.2 itemId (by simp [Op.uuids]) (he ▸ hkeyed.issued r hr)
  refine ⟨?_, fun t ht hid => ?_⟩
  · obtain ⟨r, hr, hid⟩ := enqueue_mem (revocationItem now itemId generation maxAttempts)
      s.db.syncQueue
    rw [← hid]
    have hmem : (if r.id = r.id ∧ r.state = .pending then SessionRepository.leaseRevocation now
        (now + seconds leaseSeconds) claimToken r else r) ∈ s'.db.syncQueue := by
      rw [hdb, hqueue, ← hid]
      exact mem_updateWhere.mpr ⟨r, hr, rfl⟩
    have hissued := hkeyed'.issued _ hmem
    split at hissued <;> exact hissued
  · rw [hdb, hqueue] at ht
    obtain ⟨r, hr, rfl⟩ := mem_updateWhere.mp ht
    have hrid : r.id = (enqueue (revocationItem now itemId generation maxAttempts)
        s.db.syncQueue).2 := by
      split at hid <;> exact hid
    obtain ⟨-, hfresh, hendpoint, hpayload⟩ := enqueue_row hkeyed.unique hnew hr hrid
    rw [if_pos ⟨hrid, hfresh.1⟩]
    exact ⟨(by intro h; cases h), hendpoint, hpayload⟩

end Tracking

/-! ### The items of the tasks -/

/-- The items that the pass still holds. -/
def passItems (pass : Pass) : List Item :=
  match pass.stage with
  | .working item _ rest => item :: rest
  | _ => []

/-- The queue item that a logout holds. -/
def authItem : AuthTask → Option Uuid
  | .logoutCall _ _ itemId _ => some itemId
  | .logoutComplete _ _ itemId _ => some itemId
  | .logoutSetError _ itemId _ _ => some itemId
  | .logoutFail itemId _ _ => some itemId
  | _ => none

/-- The row behind every item that a task holds is tracked. -/
structure Coherent (w : World) : Prop where
  passes : ∀ pass ∈ w.passes, ∀ item ∈ passItems pass,
    Tracked w.store item.id item.endpoint item.payload
  auth : ∀ task, w.auth = some task → ∀ itemId, authItem task = some itemId →
    ∃ generation, Tracked w.store itemId .logout (.sessionRevoke generation)

/-- A pass that goes on has the items it is left with. -/
@[simp] theorem passItems_next (pass : Pass) (items : List Item) :
    passItems (pass.next items) = items := by
  cases items <;> rfl

/-- It keeps the session record that it has read. -/
@[simp] theorem next_record (pass : Pass) (items : List Item) :
    (pass.next items).record = pass.record := by
  cases items <;> rfl

section Worlds
variable {settings : Settings} {ok : World → Act → Prop} {w w' : World} {a : Act}

/-- The items of a pass after a step are items that it held before, or rows that its claim
returned. -/
theorem step_items (h : StepCases settings w a w') {pass' : Pass} (hpass : pass' ∈ w'.passes)
    {item : Item} (hitem : item ∈ passItems pass') :
    (∃ pass ∈ w.passes, pass.record = pass'.record ∧ item ∈ passItems pass) ∨
      ∃ pass ∈ w.passes, pass.record = pass'.record ∧ ∃ now token rows,
        w.store.apply (.claim now token pass.owner pass.limit (keyFilter pass.record)
          settings.leaseSeconds.val) = some (w'.store, .rows rows) ∧
        ∃ r ∈ rows, item = Item.ofRow token pass.owner r := by
  cases step_pass h hpass with
  | kept hmem => exact .inl ⟨pass', hmem, rfl, hitem⟩
  | started => cases hitem
  | @claimed pass now token rows hmem hstage happly =>
    rw [passItems_next] at hitem
    obtain ⟨r, hr, rfl⟩ := List.mem_map.mp hitem
    exact .inr ⟨pass, hmem, (next_record _ _).symm, now, token, rows, happly, r, hr, rfl⟩
  | @attempted pass item stage rest outcome hmem hstage =>
    exact .inl ⟨pass, hmem, rfl, by rw [passItems, hstage]; exact hitem⟩
  | @settled pass item settlement rest hmem hstage =>
    rw [passItems_next] at hitem
    refine .inl ⟨pass, hmem, (next_record _ _).symm, ?_⟩
    rw [passItems, hstage]
    exact List.mem_cons_of_mem _ hitem

/-- The item of the logout after a step is the one that it held before, or the one of the
revocation that it started. -/
theorem step_authItem (h : StepCases settings w a w') {task' : AuthTask}
    (htask : w'.auth = some task') {itemId : Uuid} (hitem : authItem task' = some itemId) :
    (∃ task, w.auth = some task ∧ authItem task = some itemId) ∨
      ∃ record now newId claimToken generation token,
        w.auth = some (.logoutBegin record) ∧
        w.store.apply (.beginRevocation now newId claimToken record.generation
            settings.maxAttempts settings.leaseSeconds.val) =
          some (w'.store, .revocation (some (generation, itemId, token))) := by
  cases step_task h htask with
  | kept hauth => exact .inl ⟨task', hauth, hitem⟩
  | login | licensed | undo | logout | refresh | expired | rejected | refreshed => cases hitem
  | @began record now newId claimToken id token generation hauth happly =>
    cases hitem
    exact .inr ⟨record, now, newId, claimToken, generation, token, hauth, happly⟩
  | loggedOut hauth | refused hauth | noted hauth => exact .inl ⟨_, hauth, hitem⟩

/-- A step keeps the items of the tasks tracked. -/
theorem coherent_step (hkeyed : Keyed w.store) (htokens : TokensIssued w.store)
    (hstep : StepCases settings w a w') (h : Coherent w) : Coherent w' := by
  have hkeep : ∀ itemId endpoint payload, Tracked w.store itemId endpoint payload →
      Tracked w'.store itemId endpoint payload := fun itemId endpoint payload ht => by
    rcases step_store hstep with heq | ⟨op, reply, happly⟩
    · rw [heq]
      exact ht
    · exact ht.step hkeyed happly
  refine ⟨fun pass' hpass item hitem => ?_, fun task' htask itemId hitem => ?_⟩
  · rcases step_items hstep hpass hitem with
      ⟨pass, hmem, -, hold⟩ | ⟨pass, -, -, now, token, rows, happly, r, hr, rfl⟩
    · exact hkeep _ _ _ (h.passes pass hmem item hold)
    · exact claim_tracked hkeyed htokens happly hr
  · rcases step_authItem hstep htask hitem with
      ⟨task, hauth, hold⟩ | ⟨record, now, newId, claimToken, generation, token, -, happly⟩
    · obtain ⟨generation, ht⟩ := h.auth task hauth itemId hold
      exact ⟨generation, hkeep _ _ _ ht⟩
    · exact ⟨generation, beginRevocation_tracked hkeyed happly⟩

/-- The items of the tasks are tracked in every reachable world. -/
theorem coherent_reachable (h : Reachable (worldMachine settings) ok w) : Coherent w := by
  refine h.invariant (I := Coherent) ⟨fun _ hpass => absurd hpass List.not_mem_nil, ?_⟩
    fun w a w' hreach _ hstep hcoherent => ?_
  · intro task htask
    cases htask
  · have hstore := store_reachable hreach
    exact coherent_step (keyed_reachable hstore) (tokensIssued_reachable hstore)
      (step_cases hstep) hcoherent

end Worlds

end Rsap.Proofs
