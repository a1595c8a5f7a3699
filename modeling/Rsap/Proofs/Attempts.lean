import Rsap.Proofs.Leases

/-!
# `Rsap.Proofs.Attempts`: the attempt bound

`claim` increments `attempt_count` and `fail` compares it with `max_attempts`. Between the two
a lease may expire. The sweep of the next claim then returns the row to `retry_wait` without
the comparison, and a row that used its last attempt is leased again
(`attempts_exceed`).

`SweepsNoExhausted` excludes that step. Under it a waiting row always has an attempt left
(`Budgeted`), so no row exceeds its bound. The counter is the number of leases since the last
dead-letter retry (`counted_reachable`), so the bound is one on leases too.
-/

set_option autoImplicit false

namespace Rsap.Proofs

open Rsap.Library
open Rsap.Library.Machine (Reachable Any)
open Rsap.Desktop
open Relation (ReflTransGen)

/-- The counter is within the bound, and below it while the row waits. -/
structure Budgeted (r : Row) : Prop where
  bound : r.attemptCount ≤ r.maxAttempts.val
  left : r.Waiting → r.attemptCount < r.maxAttempts.val

/-- The row was leased before its counter left zero. -/
def Untried (r : Row) : Prop := r.lastAttemptAt = none → r.attemptCount = 0

/-- A claim finds no expired lease on a row whose counter has reached the bound. -/
def SweepsNoExhausted (s : Store) : Op → Prop
  | .claim now _ owner limit _ _ =>
    ¬ (owner = "" ∨ limit < 1 ∨ 500 < limit) →
      ∀ r ∈ s.db.syncQueue, SyncQueueRepository.Expired now r →
        r.attemptCount < r.maxAttempts.val
  | _ => True

instance (s : Store) (op : Op) : Decidable (SweepsNoExhausted s op) := by
  cases op with
  | claim => exact inferInstanceAs (Decidable (_ → _))
  | _ => exact .isTrue trivial

/-- A row with an attempt left that is not leased keeps within the bound. -/
theorem Budgeted.of_lt {r : Row} (h : r.attemptCount < r.maxAttempts.val) : Budgeted r :=
  ⟨Nat.le_of_lt h, fun _ => h⟩

/-- A change keeps a row within its budget, when a release leaves it an attempt. -/
theorem Change.budgeted {c : Change} {r : Row} (hg : c.Guard r)
    (hrelease : ∀ now, c = .release now → r.attemptCount < r.maxAttempts.val)
    (h : Budgeted r) : Budgeted (c.apply r) := by
  cases c with
  | coalesce => exact .of_lt r.maxAttempts.property
  | release now => exact .of_lt (hrelease now rfl)
  | lease => exact ⟨h.left hg, fun hw => by rcases hw with hw | hw <;> cases hw⟩
  | succeed => exact ⟨h.bound, fun hw => by rcases hw with hw | hw <;> cases hw⟩
  | fail now code message permanent =>
    refine ⟨h.bound, fun hw => ?_⟩
    cases hexh : SyncQueueRepository.exhausted permanent r with
    | true => simp [Change.apply, SyncQueueRepository.failRow, hexh, Row.Waiting] at hw
    | false =>
      have hnot : ¬ r.maxAttempts.val ≤ r.attemptCount := by
        simp only [SyncQueueRepository.exhausted, Bool.or_eq_false_iff, decide_eq_false_iff_not]
          at hexh
        exact hexh.2
      exact Nat.lt_of_not_le hnot
  | cancel => exact ⟨h.bound, fun hw => by rcases hw with hw | hw <;> cases hw⟩
  | withdraw => exact ⟨h.bound, fun hw => by rcases hw with hw | hw <;> cases hw⟩
  | retry => exact .of_lt r.maxAttempts.property
  | unlinkPredecessor => exact ⟨h.bound, h.left⟩
  | unlinkDependency => exact ⟨h.bound, h.left⟩

/-- Every row of a run without exhausted sweeps is within its budget. -/
theorem budgeted_reachable {s : Store} (h : Reachable storeMachine SweepsNoExhausted s) :
    ∀ r ∈ s.db.syncQueue, Budgeted r := by
  refine row_invariant (fun _ _ r _ hr => ?_) (fun s op r c hok hmakes hg hr => ?_) h
  · obtain ⟨e, _, _, _, rfl⟩ := hr
    exact .of_lt e.maxAttempts.property
  · refine Change.budgeted hg (fun now hc => ?_) hr
    subst hc
    cases op <;> simp only [Makes] at hmakes
    obtain ⟨rfl, hmem, hexp, hargs⟩ := hmakes
    exact hok hargs r hmem hexp

/-- A row that was never leased has used no attempt. -/
theorem untried_reachable {ok : Store → Op → Prop} {s : Store}
    (h : Reachable storeMachine ok s) : ∀ r ∈ s.db.syncQueue, Untried r := by
  refine row_invariant (fun _ _ r _ hr => ?_) (fun _ _ r c _ _ _ hr => ?_) h
  · obtain ⟨_, _, _, _, rfl⟩ := hr
    exact fun _ => rfl
  · cases c with
    | coalesce => exact fun _ => rfl
    | lease => exact nofun
    | retry => exact fun _ => rfl
    | _ => exact hr

/-! ### The counter and the log -/

/-- The number of leases of a row since its last dead-letter retry. -/
def leasesSinceRetry (itemId : Uuid) (log : List Entry) : Nat :=
  (leasesOf itemId (log.takeWhile fun e => e ≠ .retried itemId)).length

/-- Entries without a retry of the row add their leases to the count. -/
theorem leasesSinceRetry_append {itemId : Uuid} {entries log : List Entry}
    (h : .retried itemId ∉ entries) : leasesSinceRetry itemId (entries ++ log) =
      (leasesOf itemId entries).length + leasesSinceRetry itemId log := by
  have hall : ∀ e ∈ entries, decide (e ≠ Entry.retried itemId) = true := by
    intro e he
    rw [decide_eq_true_iff]
    rintro rfl
    exact h he
  rw [leasesSinceRetry, List.takeWhile_append_of_pos hall, leasesOf_append, List.length_append]
  rfl

/-- A row without a lease in the log counts zero leases. -/
theorem leasesSinceRetry_eq_zero {itemId : Uuid} {log : List Entry}
    (h : ∀ t o, .leased itemId t o ∉ log) : leasesSinceRetry itemId log = 0 := by
  rw [leasesSinceRetry, List.length_eq_zero_iff, leasesOf, List.filterMap_eq_nil_iff]
  intro e he
  cases e with
  | leased id t o =>
    have hne : id ≠ itemId := fun hid => h t o (hid ▸ (List.takeWhile_subset _ he))
    simp [hne]
  | _ => rfl

/-- `_enqueue` returns the id of a row of the new queue. -/
theorem enqueue_mem (e : Enqueue) (q : List Row) :
    ∃ r ∈ (enqueue e q).1, r.id = (enqueue e q).2 := by
  unfold enqueue
  split
  · rename_i latest hlatest
    have hmem := (latestBy_mem hlatest).1
    split
    · refine ⟨_, mem_updateWhere.mpr ⟨latest, hmem, rfl⟩, ?_⟩
      split <;> rfl
    · exact ⟨_, List.mem_append_right _ (List.mem_singleton.mpr rfl), rfl⟩
  · exact ⟨_, List.mem_append_right _ (List.mem_singleton.mpr rfl), rfl⟩

/-- A lease in the entries of an operation names a row of the new queue. -/
theorem entries_leased {db : Db} {op : Op} {id t : Uuid} {o : String}
    (h : .leased id t o ∈ op.entries db (op.run db).2) :
    ∃ r ∈ (op.run db).1.syncQueue, r.id = id := by
  -- only a claim and the start of a revocation lease a row
  cases hop : leasing op with
  | false =>
    have hnone := @leasesOf_entries db op (op.run db).2 id hop
    rw [leasesOf, List.filterMap_eq_nil_iff] at hnone
    simpa using hnone _ h
  | true =>
    cases op with
    | claim now token owner limit key leaseSeconds =>
      by_cases hbad : owner = "" ∨ limit < 1 ∨ 500 < limit
      · simp only [Op.run, SyncQueueRepository.claim, if_pos hbad] at h
        cases h
      · simp only [Op.run, SyncQueueRepository.claim, if_neg hbad, committed] at h ⊢
        obtain ⟨r, hr, heq⟩ := List.mem_map.mp h
        cases heq
        exact ⟨r, claimRows_subset hr, rfl⟩
    | beginRevocation now itemId token generation maxAttempts leaseSeconds =>
      cases hrow : db.localSession with
      | none =>
        simp only [Op.run, SessionRepository.beginRevocation, hrow] at h
        cases h
      | some row =>
        by_cases hactive : row.generation = generation ∧ row.status = .active
        · simp only [Op.run, SessionRepository.beginRevocation, hrow, if_pos hactive] at h ⊢
          cases List.mem_singleton.mp h
          obtain ⟨r, hr, hid⟩ := enqueue_mem _ db.syncQueue
          refine ⟨_, mem_updateWhere.mpr ⟨r, hr, rfl⟩, ?_⟩
          rw [← hid]
          split <;> rfl
        · simp only [Op.run, SessionRepository.beginRevocation, hrow, if_neg hactive] at h
          cases h
    | _ => cases hop

/-- The rows in the leases of the log were issued. -/
theorem leased_issued {ok : Store → Op → Prop} {s : Store}
    (h : Reachable storeMachine ok s) : ∀ id t o, .leased id t o ∈ s.log → id ∈ s.issued := by
  refine h.invariant (I := fun s => ∀ id t o, .leased id t o ∈ s.log → id ∈ s.issued)
    (fun _ _ _ he => absurd he List.not_mem_nil) fun s op s' hreach _ hstep ih id t o he => ?_
  have hkeyed := keyed_step hstep (keyed_reachable hreach)
  obtain ⟨-, rfl⟩ := store_step hstep
  rcases List.mem_append.mp he with he | he
  · obtain ⟨r, hr, rfl⟩ := entries_leased he
    exact hkeyed.issued r hr
  · exact List.mem_append_right _ (ih id t o he)

/-- A retry in the entries of an operation is a `retry_dead_letter` of the row. -/
theorem entries_retried {db : Db} {op : Op} {reply : Reply} {id : Uuid}
    (h : .retried id ∈ op.entries db reply) : ∃ now, op = .retryDeadLetter now id := by
  unfold Op.entries at h
  split at h
  · obtain ⟨_, _, heq⟩ := List.mem_map.mp h
    cases heq
  · cases List.mem_singleton.mp h
  · cases List.mem_singleton.mp h
    exact ⟨_, rfl⟩
  · split at h
    · cases List.mem_singleton.mp h
    · cases h
  · cases h

/-- The counter of each row is the number of its leases since the last retry. -/
def Counted (s : Store) : Prop :=
  ∀ r ∈ s.db.syncQueue, leasesSinceRetry r.id s.log = r.attemptCount

/-- A retry of a dead letter keeps the counters in line with the log. -/
theorem counted_retry {s : Store} (hkeyed : Keyed s) (h : Counted s) (now : Timestamp)
    (itemId : Uuid) : ∀ r ∈ ((Op.retryDeadLetter now itemId).run s.db).1.syncQueue,
      leasesSinceRetry r.id ((Op.retryDeadLetter now itemId).entries s.db
        ((Op.retryDeadLetter now itemId).run s.db).2 ++ s.log) = r.attemptCount := by
  intro r' hr'
  obtain ⟨r, hr, rfl⟩ := mem_updateWhere.mp hr'
  -- the dead letter starts to count again, and all other rows go on
  by_cases hdead : SyncQueueRepository.DeadLetter itemId r
  · have hone : rowcount (SyncQueueRepository.DeadLetter itemId) s.db.syncQueue = 1 :=
      hkeyed.unique.rowcount_eq_one hr hdead fun s hs => hs.1.trans hdead.1.symm
    have hentries : (Op.retryDeadLetter now itemId).entries s.db
        ((Op.retryDeadLetter now itemId).run s.db).2 = [.retried itemId] := by
      simp [Op.run, SyncQueueRepository.retryDeadLetter, hone, Op.entries]
    rw [if_pos hdead, hentries]
    simp [leasesSinceRetry, SyncQueueRepository.retryRow, hdead.1]
  · rw [if_neg hdead, leasesSinceRetry_append, leasesOf_entries rfl]
    · simpa using h r hr
    · intro hret
      by_cases hone : rowcount (SyncQueueRepository.DeadLetter itemId) s.db.syncQueue = 1
      · obtain ⟨_, hop⟩ := entries_retried hret
        obtain rfl : itemId = r.id := by cases hop; rfl
        have hsome : ∃ d ∈ s.db.syncQueue, SyncQueueRepository.DeadLetter r.id d := by
          by_contra hnone
          push Not at hnone
          rw [rowcount_eq_zero.mpr fun d hd hp => hnone d hd hp] at hone
          cases hone
        obtain ⟨d, hd, hdid, hdstate⟩ := hsome
        exact hdead ⟨rfl, hkeyed.unique.eq hd hr hdid ▸ hdstate⟩
      · simp [Op.run, SyncQueueRepository.retryDeadLetter, hone, Op.entries] at hret

/-- Without a lease and without a retry, an operation keeps the counters. -/
theorem unleasing_attempts {db : Db} {op : Op}
    (hop : ∀ now itemId, op ≠ .retryDeadLetter now itemId)
    {r₀ r : Row} (h : ReflTransGen (RowStep (Unleasing db op)) r₀ r) (h₀ : Untried r₀) :
    r.attemptCount = r₀.attemptCount := by
  refine (rowSteps_keep (P := fun r => r.attemptCount = r₀.attemptCount ∧ Untried r) ?_ h
    ⟨rfl, h₀⟩).1
  intro r c hmay hguard ih
  cases c with
  | coalesce => exact ⟨(ih.2 hguard.2).symm.trans ih.1, fun _ => rfl⟩
  | lease => cases hmay.2
  | retry =>
    obtain ⟨hmakes, -⟩ := hmay
    cases op <;> simp only [Makes] at hmakes
    exact absurd rfl (hop _ _)
  | _ => exact ih

/-- A step keeps the counters in line with the log. -/
theorem counted_step {s s' : Store} {op : Op} (hreach : Reachable storeMachine Any s)
    (hstep : storeMachine.step s op = some s') (h : Counted s) : Counted s' := by
  have hkeyed := keyed_reachable hreach
  have hlease := lease_step hkeyed (tokensIssued_reachable hreach) hstep
  obtain ⟨hadmits, rfl⟩ := store_step hstep
  by_cases hretry : ∃ now itemId, op = .retryDeadLetter now itemId
  · obtain ⟨now, itemId, rfl⟩ := hretry
    exact counted_retry hkeyed h now itemId
  · intro r' hr'
    obtain ⟨r₀, r, hr₀, hsteps, hlogged⟩ := hlease r' hr'
    have hop : ∀ now itemId, op ≠ .retryDeadLetter now itemId :=
      fun now itemId he => hretry ⟨now, itemId, he⟩
    have hsince : ∀ id, leasesSinceRetry id (op.entries s.db (op.run s.db).2 ++ s.log) =
        (leasesOf id (op.entries s.db (op.run s.db).2)).length + leasesSinceRetry id s.log :=
      fun id => leasesSinceRetry_append fun hret => by
        obtain ⟨now, he⟩ := entries_retried hret
        exact hop now id he
    -- the old row counts its leases, and an inserted row has none in the log
    have hold : Untried r₀ ∧ leasesSinceRetry r₀.id s.log = r₀.attemptCount := by
      rcases hr₀ with hr₀ | ⟨e, _, _, he, rfl⟩
      · exact ⟨untried_reachable hreach r₀ hr₀, h r₀ hr₀⟩
      · refine ⟨fun _ => rfl, leasesSinceRetry_eq_zero fun t o hmem => ?_⟩
        exact hadmits.2 _ (enqueueOf_uuid he) (leased_issued hreach _ t o hmem)
    have hcount := unleasing_attempts hop hsteps hold.1
    have hid : r'.id = r₀.id := by
      rcases hlogged with ⟨_, rfl⟩ | ⟨_, _, _, _, _, _, _, rfl⟩ <;> exact (rowSteps_fixed hsteps).1
    rw [hsince]
    rcases hlogged with ⟨hnone, rfl⟩ | ⟨_, _, _, _, hone, _, _, rfl⟩
    · rw [hnone, hid, hold.2, hcount]
      exact Nat.zero_add _
    · rw [hone, hid, hold.2]
      show 1 + r₀.attemptCount = r.attemptCount + 1
      rw [hcount, Nat.add_comm]

/-- In every reachable store the counter of a row is the number of its leases since the last
retry. -/
theorem counted_reachable {s : Store} (h : Reachable storeMachine Any s) : Counted s :=
  h.invariant (fun _ hr => nomatch hr) fun _ _ _ hreach _ hstep => counted_step hreach hstep

/-- Attempts are bounded in every run whose claims sweep no exhausted row: no row exceeds its
bound, and no row was leased more often since its last retry. -/
theorem attempts_bounded {s : Store} (h : Reachable storeMachine SweepsNoExhausted s) :
    ∀ r ∈ s.db.syncQueue, r.attemptCount ≤ r.maxAttempts.val ∧
      leasesSinceRetry r.id s.log ≤ r.maxAttempts.val := by
  intro r hr
  have hbound := (budgeted_reachable h r hr).bound
  exact ⟨hbound, by rwa [counted_reachable h.any r hr]⟩

/-- A camera whose queued creation may be tried once. -/
def singleAttempt : Op :=
  .createCamera 0 1 2 ⟨"gate", "rtsp://gate", .rtsp, none, [], []⟩ 4 ⟨1, by decide⟩

/-- The only attempt fails, and its row is dead. -/
def failedAttempt : List Op :=
  [singleAttempt, .claim 0 3 "worker" 1 none 60,
    .fail 1 2 3 "worker" "central_unavailable" "Central request failed" false]

/-- A row that failed as often as it may. -/
theorem attempts_bounded_failed :
    let s := storeMachine.final .empty failedAttempt
    ∀ r ∈ s.db.syncQueue,
      r.attemptCount ≤ r.maxAttempts.val ∧ leasesSinceRetry r.id s.log ≤ r.maxAttempts.val :=
  attempts_bounded (.final .init failedAttempt (by decide))

/-- The only attempt is not settled, its lease expires after sixty seconds, and the next claim
leases the row a second time. -/
theorem attempts_exceed :
    ¬ ∀ s, Reachable storeMachine Any s →
      ∀ r ∈ s.db.syncQueue, r.attemptCount ≤ r.maxAttempts.val := by
  intro h
  have hreach : Reachable storeMachine Any (storeMachine.final .empty
      [singleAttempt, .claim 0 3 "worker" 1 none 60,
        .claim (seconds 61) 4 "worker" 1 none 60]) := .final .init _ (by decide)
  exact absurd (h _ hreach) (by decide)

end Rsap.Proofs
