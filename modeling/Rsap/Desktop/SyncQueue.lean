import Mathlib.Algebra.Group.Nat.Defs
import Rsap.Desktop.Repositories

/-!
# `Rsap.Desktop.SyncQueue`: `SyncQueueRepository`

The write methods of `SyncQueueRepository` (`app/repositories.py`): `claim`, the completions,
`fail`, the two dead-letter operations and `purge_retained`.

A lease is the triple of `claim_token`, `lease_owner` and `lease_expires_at`. `claim` first
returns every expired lease to `retry_wait` (`release`). Then it leases the ready rows
(`lease`). `Owned` is `_owned_clause`.

`purge_retained` selects its candidates once, with their states, and handles them one after
another (`purgeCandidate`). A later candidate is handled by the state that the selection saw.
-/

set_option autoImplicit false

namespace Rsap.Desktop

open Rsap.Library

namespace SyncQueueRepository

/-- `enqueue_revocation`. -/
def enqueueRevocation (now : Timestamp) (itemId : Uuid) (generation : Nat)
    (maxAttempts : Attempts) (db : Db) : Db × Uuid :=
  let (queue, id) := enqueue
    { now, itemId, endpoint := .logout, payload := .sessionRevoke generation
      logicalKey := .sessionRevoke, maxAttempts, dependsOnId := none } db.syncQueue
  ({ db with syncQueue := queue }, id)

/-! ### `claim` -/

/-- `state='inflight' AND lease_expires_at < ?`. -/
abbrev Expired (now : Timestamp) (r : Row) : Prop :=
  r.state = .inflight ∧ (r.leaseExpiresAt.any fun e => e < now) = true

/-- The assignments that return an expired lease to `retry_wait`. -/
def release (now : Timestamp) (r : Row) : Row :=
  { r with
      state := .retryWait
      claimToken := none
      leaseOwner := none
      leaseExpiresAt := none
      nextAttemptAt := now }

/-- The queue once the expired leases are returned. -/
def sweep (now : Timestamp) (queue : List Row) : List Row :=
  updateWhere (Expired now) (release now) queue

/-- The predecessor link lets the row go: it is null or names a row that is done. -/
abbrev Unblocked (queue : List Row) (r : Row) : Prop :=
  r.predecessorId = none ∨ ∃ p ∈ queue, r.predecessorId = some p.id ∧ p.Done

/-- The dependency link lets the row go: it is null or names a row that succeeded. -/
abbrev DependencyMet (queue : List Row) (r : Row) : Prop :=
  r.dependsOnId = none ∨ ∃ d ∈ queue, r.dependsOnId = some d.id ∧ d.state = .succeeded

/-- The `WHERE` clause of the claim's selection. -/
abbrev Ready (now : Timestamp) (logicalKey : Option LogicalKey) (queue : List Row) (r : Row) :
    Prop :=
  r.Waiting ∧ r.nextAttemptAt ≤ now ∧ (logicalKey = none ∨ logicalKey = some r.logicalKey) ∧
    Unblocked queue r ∧ DependencyMet queue r

/-- `ORDER BY created_at,version,id`. -/
def claimOrder (r s : Row) : Prop :=
  r.createdAt < s.createdAt ∨ r.createdAt = s.createdAt ∧
    (r.version < s.version ∨ r.version = s.version ∧ r.id ≤ s.id)

instance : DecidableRel claimOrder := fun _ _ => inferInstanceAs (Decidable (_ ∨ _))

/-- The ids that a claim selects. -/
def selected (now : Timestamp) (limit : Nat) (logicalKey : Option LogicalKey)
    (queue : List Row) : List Uuid :=
  (((queue.filter fun r => Ready now logicalKey queue r).insertionSort claimOrder).take
    limit).map Row.id

/-- The assignments of a lease. -/
def lease (now expires : Timestamp) (token : Uuid) (owner : String) (r : Row) : Row :=
  { r with
      state := .inflight
      claimToken := some token
      leaseOwner := some owner
      leaseExpiresAt := some expires
      lastAttemptAt := some now
      attemptCount := r.attemptCount + 1 }

/-- The queue and the leased rows of a claim, once its arguments are checked. -/
def claimRows (now : Timestamp) (token : Uuid) (owner : String) (limit : Nat)
    (logicalKey : Option LogicalKey) (leaseSeconds : Nat) (queue : List Row) :
    List Row × List Row :=
  let swept := sweep now queue
  let ids := selected now limit logicalKey swept
  if ids.isEmpty then (swept, [])
  else
    let leased := updateWhere (fun r => r.id ∈ ids ∧ r.Waiting)
      (lease now (now + seconds leaseSeconds) token owner) swept
    (leased, (leased.filter fun r => r.claimToken = some token ∧ r.leaseOwner = some owner)
      |>.insertionSort claimOrder)

/-- `claim`. -/
def claim (now : Timestamp) (token : Uuid) (owner : String) (limit : Nat)
    (logicalKey : Option LogicalKey) (leaseSeconds : Nat) (db : Db) :
    Except OpError (Db × List Row) :=
  if owner = "" ∨ limit < 1 ∨ 500 < limit then
    .error (.valueError "owner and claim limit are invalid")
  else
    let (queue, rows) := claimRows now token owner limit logicalKey leaseSeconds db.syncQueue
    .ok ({ db with syncQueue := queue }, rows)

/-! ### Completions and failures -/

/-- `_owned_clause`: the row is leased under this token and owner, and the lease lives. -/
abbrev Owned (itemId token : Uuid) (owner : String) (now : Timestamp) (r : Row) : Prop :=
  r.id = itemId ∧ r.claimToken = some token ∧ r.leaseOwner = some owner ∧
    r.state = .inflight ∧ (r.leaseExpiresAt.any fun e => now < e) = true

/-- The assignments of a completion. -/
def succeed (now : Timestamp) (r : Row) : Row :=
  { r with
      state := .succeeded
      completedAt := some now
      claimToken := none
      leaseOwner := none
      leaseExpiresAt := none }

/-- The completing `UPDATE`, and whether it touched one row. -/
def succeedOwned (now : Timestamp) (itemId token : Uuid) (owner : String) (queue : List Row) :
    List Row × Bool :=
  (updateWhere (Owned itemId token owner now) (succeed now) queue,
    rowcount (Owned itemId token owner now) queue = 1)

/-- `UPDATE {table} SET synced=1` for the record behind a logical key. -/
def markSynced (logicalKey : LogicalKey) (db : Db) : Db :=
  match logicalKey with
  | .event id =>
    { db with
        localAnalyticsEvents :=
          updateWhere (fun e => e.id = id) ({ · with synced := true }) db.localAnalyticsEvents }
  | .alert id =>
    { db with
        localAlerts :=
          updateWhere (fun a => a.id = id) ({ · with synced := true }) db.localAlerts }
  | .count id =>
    { db with
        localPeopleCounts :=
          updateWhere (fun c => c.id = id) ({ · with synced := true }) db.localPeopleCounts }
  | _ => db

/-- `complete`. -/
def complete (now : Timestamp) (itemId token : Uuid) (owner : String) (db : Db) : Db × Bool :=
  match db.syncQueue.find? fun r => Owned itemId token owner now r with
  | none => (db, false)
  | some row =>
    let (queue, one) := succeedOwned now itemId token owner db.syncQueue
    if one then (markSynced row.logicalKey { db with syncQueue := queue }, true)
    else ({ db with syncQueue := queue }, false)

/-- `complete_camera`. -/
def completeCamera (now : Timestamp) (itemId token : Uuid) (owner : String)
    (localId serverId : Uuid) (db : Db) : Db × Bool :=
  let (queue, one) := succeedOwned now itemId token owner db.syncQueue
  if one then
    ({ db with
        syncQueue := queue
        localCameras := updateWhere (fun c => c.id = localId)
          ({ · with serverId := some serverId, syncState := .synced }) db.localCameras }, true)
  else ({ db with syncQueue := queue }, false)

/-- `DELETE FROM local_sessions WHERE generation=? AND status='revocation_pending'`. -/
def deleteRevoked (generation : Nat) (session : Option SessionRow) : Option SessionRow :=
  match session with
  | some row =>
    if row.generation = generation ∧ row.status = .revocationPending then none else some row
  | none => none

/-- `complete_revocation`. -/
def completeRevocation (now : Timestamp) (itemId token : Uuid) (owner : String)
    (generation : Nat) (db : Db) : Db × Bool :=
  let (queue, one) := succeedOwned now itemId token owner db.syncQueue
  if one then
    ({ db with syncQueue := queue, localSession := deleteRevoked generation db.localSession },
      true)
  else ({ db with syncQueue := queue }, false)

/-- The backoff of a failed attempt, in seconds. -/
def backoff (attemptCount : Nat) : Nat := min 300 (2 ^ min attemptCount 8)

/-- `permanent or attempt_count >= max_attempts`. -/
def exhausted (permanent : Bool) (r : Row) : Bool :=
  permanent || decide (r.maxAttempts.val ≤ r.attemptCount)

/-- The assignments of a failure, computed from the selected row. -/
def failRow (now : Timestamp) (selected : Row) (code message : String) (permanent : Bool)
    (r : Row) : Row :=
  { r with
      state := if exhausted permanent selected then .deadLetter else .retryWait
      claimToken := none
      leaseOwner := none
      leaseExpiresAt := none
      nextAttemptAt := now + seconds (backoff selected.attemptCount)
      lastErrorCode := some (String.ofList (code.toList.take 100))
      lastErrorMessage := some (String.ofList (message.toList.take 200))
      failureClass := some (if permanent then .permanent else .transient)
      failedAt := if exhausted permanent selected then some now else none }

/-- The condition of the failing `UPDATE`. It does not check the state or the expiry again. -/
abbrev Claimed (itemId token : Uuid) (owner : String) (r : Row) : Prop :=
  r.id = itemId ∧ r.claimToken = some token ∧ r.leaseOwner = some owner

/-- `fail`. -/
def fail (now : Timestamp) (itemId token : Uuid) (owner code message : String)
    (permanent : Bool) (db : Db) : Db × Bool :=
  match db.syncQueue.find? fun r => Owned itemId token owner now r with
  | none => (db, false)
  | some row =>
    ({ db with
        syncQueue := updateWhere (Claimed itemId token owner)
          (failRow now row code message permanent) db.syncQueue },
      rowcount (Claimed itemId token owner) db.syncQueue = 1)

/-! ### Dead letters and retention -/

/-- The assignments that return a dead letter to the queue. `last_attempt_at` stays. -/
def retryRow (now : Timestamp) (r : Row) : Row :=
  { r with
      state := .pending
      attemptCount := 0
      nextAttemptAt := now
      failedAt := none
      failureClass := none
      lastErrorCode := none
      lastErrorMessage := none }

/-- `id=? AND state='dead_letter'`. -/
abbrev DeadLetter (itemId : Uuid) (r : Row) : Prop := r.id = itemId ∧ r.state = .deadLetter

/-- `retry_dead_letter`. -/
def retryDeadLetter (now : Timestamp) (itemId : Uuid) (db : Db) : Db × Bool :=
  ({ db with syncQueue := updateWhere (DeadLetter itemId) (retryRow now) db.syncQueue },
    rowcount (DeadLetter itemId) db.syncQueue = 1)

/-- `discard_dead_letter`. -/
def discardDeadLetter (now : Timestamp) (itemId : Uuid) (db : Db) : Db × Bool :=
  ({ db with
      syncQueue :=
        updateWhere (DeadLetter itemId) (SessionRepository.cancelRow now) db.syncQueue },
    rowcount (DeadLetter itemId) db.syncQueue = 1)

/-- The row names the item as predecessor or as dependency. -/
def linkedRow (itemId : Uuid) (r : Row) : Bool :=
  r.predecessorId = some itemId ∨ r.dependsOnId = some itemId

/-- The recursive query: the rows that hang on the item through links. -/
def descendantIds (itemId : Uuid) (queue : List Row) : List Uuid :=
  descendants Row.id linkedRow queue itemId

/-- The cancellation of a row that hangs on an expired item. -/
def withdrawRow (now : Timestamp) (r : Row) : Row :=
  { r with
      state := .cancelled
      completedAt := some now
      claimToken := none
      leaseOwner := none
      leaseExpiresAt := none }

/-- What the purge cancels for a candidate, by the state that the selection saw. -/
def withdrawFor (now : Timestamp) (itemId : Uuid) (state : QueueState) (queue : List Row) :
    List Row :=
  match state with
  | .deadLetter =>
    updateWhere (fun r => r.id ∈ descendantIds itemId queue ∧ r.state ≠ .inflight)
      (withdrawRow now) queue
  | .cancelled =>
    updateWhere (fun r => r.dependsOnId = some itemId ∧ r.state ≠ .inflight)
      (withdrawRow now) queue
  | _ => queue

/-- The links to an item are cut. -/
def unlink (itemId : Uuid) (queue : List Row) : List Row :=
  updateWhere (fun r => r.dependsOnId = some itemId) ({ · with dependsOnId := none })
    (updateWhere (fun r => r.predecessorId = some itemId) ({ · with predecessorId := none })
      queue)

/-- One turn of the purge's loop. -/
def purgeCandidate (now : Timestamp) (queue : List Row) (candidate : Uuid × QueueState) :
    List Row :=
  deleteWhere (fun r => r.id = candidate.1)
    (unlink candidate.1 (withdrawFor now candidate.1 candidate.2 queue))

/-- The row is past its retention. -/
abbrev Retired (succeededBefore deadBefore : Timestamp) (r : Row) : Prop :=
  (r.Done ∧ (r.completedAt.any fun t => t < succeededBefore) = true) ∨
    (r.state = .deadLetter ∧ (r.failedAt.any fun t => t < deadBefore) = true)

/-- `ORDER BY created_at,id`. -/
def purgeOrder (r s : Row) : Prop :=
  r.createdAt < s.createdAt ∨ r.createdAt = s.createdAt ∧ r.id ≤ s.id

instance : DecidableRel purgeOrder := fun _ _ => inferInstanceAs (Decidable (_ ∨ _))

/-- The candidates of the purge with their states. -/
def purgeCandidates (succeededBefore deadBefore : Timestamp) (queue : List Row) :
    List (Uuid × QueueState) :=
  ((queue.filter fun r => Retired succeededBefore deadBefore r).insertionSort
    purgeOrder).map fun r => (r.id, r.state)

/-- The queue after `purge_retained`. -/
def purgeQueue (now : Timestamp) (succeededDays deadLetterDays : Nat) (queue : List Row) :
    List Row :=
  (purgeCandidates (now - days succeededDays) (now - days deadLetterDays) queue).foldl
    (purgeCandidate now) queue

/-- `purge_retained`, with the number of rows it removed. -/
def purgeRetained (now : Timestamp) (succeededDays deadLetterDays : Nat) (db : Db) : Db × Nat :=
  let queue := purgeQueue now succeededDays deadLetterDays db.syncQueue
  ({ db with syncQueue := queue }, db.syncQueue.length - queue.length)

end SyncQueueRepository

end Rsap.Desktop
