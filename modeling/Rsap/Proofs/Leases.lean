import Rsap.Proofs.Statements

/-!
# `Rsap.Proofs.Leases`: lease fencing

A lease is the triple of token, owner and expiry on an inflight row. `Op.outcome` is what a
settling call does to the row that it owns, and `settle_cases` says that such a call either
changes nothing and returns false, or owns a row, settles it, and returns true.

`lease_step` lines the queue up with the log. After an operation, each row was either leased
by the operation, with one entry in the log, or it comes from an old row without a lease.
`Fenced` follows: a leased row carries the token and the owner of its latest lease in the log,
and nothing in the log settled it under that token.
-/

set_option autoImplicit false

namespace Rsap.Proofs

open Rsap.Library
open Rsap.Library.Machine (Reachable Any)
open Rsap.Desktop
open Relation (ReflTransGen)

/-! ### The lease columns -/

/-- The three lease columns are all set on an inflight row and all null on any other. -/
def LeaseColumns (r : Row) : Prop :=
  (r.state = .inflight ∧ r.claimToken.isSome ∧ r.leaseOwner.isSome ∧ r.leaseExpiresAt.isSome) ∨
    (r.state ≠ .inflight ∧ r.claimToken = none ∧ r.leaseOwner = none ∧ r.leaseExpiresAt = none)

/-- Every change keeps the lease columns together. -/
theorem Change.leaseColumns {c : Change} {r : Row} (hg : c.Guard r) (h : LeaseColumns r) :
    LeaseColumns (c.apply r) := by
  have hclear : r.state ≠ .inflight → r.claimToken = none ∧ r.leaseOwner = none ∧
      r.leaseExpiresAt = none := fun hne => by
    rcases h with h | h
    · exact absurd h.1 hne
    · exact h.2
  cases c with
  | coalesce => exact .inr ⟨(by intro h; cases h), hclear (by simp [hg.1])⟩
  | release => exact .inr ⟨(by intro h; cases h), rfl, rfl, rfl⟩
  | lease => exact .inl ⟨rfl, rfl, rfl, rfl⟩
  | succeed => exact .inr ⟨(by intro h; cases h), rfl, rfl, rfl⟩
  | fail now code message permanent =>
    refine .inr ⟨?_, rfl, rfl, rfl⟩
    simp only [Change.apply, SyncQueueRepository.failRow]
    split <;> intro h <;> cases h
  | cancel => exact .inr ⟨(by intro h; cases h),
    hclear (by rcases hg with (h | h) | h <;> simp [h])⟩
  | withdraw => exact .inr ⟨(by intro h; cases h), rfl, rfl, rfl⟩
  | retry => exact .inr ⟨(by intro h; cases h),
    hclear (by simp [show r.state = .deadLetter from hg])⟩
  | unlinkPredecessor => exact h
  | unlinkDependency => exact h

/-- A lease is a whole triple, in every reachable store. -/
theorem leaseColumns_reachable {ok : Store → Op → Prop} {s : Store}
    (h : Reachable storeMachine ok s) : ∀ r ∈ s.db.syncQueue, LeaseColumns r := by
  refine row_invariant (fun _ _ r _ hr => ?_) (fun _ _ _ _ _ _ hg hr => Change.leaseColumns hg hr) h
  obtain ⟨_, _, _, _, rfl⟩ := hr
  exact .inr ⟨(by intro h; cases h), rfl, rfl, rfl⟩

/-! ### Settling calls -/

/-- What a settling call does to the row that it owns. -/
def outcome : Op → Row → Row
  | .complete now _ _ _, r => SyncQueueRepository.succeed now r
  | .completeCamera now _ _ _ _ _, r => SyncQueueRepository.succeed now r
  | .completeRevocation now _ _ _ _, r => SyncQueueRepository.succeed now r
  | .fail now _ _ _ code message permanent, r =>
    SyncQueueRepository.failRow now r code message permanent r
  | _, r => r

/-- The clock reading of a settling call. -/
def settledAt : Op → Timestamp
  | .complete now _ _ _ => now
  | .completeCamera now _ _ _ _ _ => now
  | .completeRevocation now _ _ _ _ => now
  | .fail now _ _ _ _ _ _ => now
  | _ => 0

section Settling
variable {q : List Row} {itemId token : Uuid} {owner : String} {now : Timestamp}

/-- Under unique ids, updating the owned row is updating the row with its id. -/
theorem updateWhere_owned (hq : UniqueOn Row.id q) {r : Row} (hr : r ∈ q) {p : Row → Prop}
    [DecidablePred p] (hp : p r) (hid : ∀ s, p s → s.id = r.id) {f g : Row → Row}
    (hfg : f r = g r) : updateWhere p f q = updateWhere (fun s => s.id = r.id) g q := by
  refine List.map_congr_left fun s hs => ?_
  by_cases hsid : s.id = r.id
  · have hsr : s = r := hq.eq hs hr hsid
    subst hsr
    rw [if_pos hp, if_pos rfl, hfg]
  · rw [if_neg fun h => hsid (hid s h), if_neg hsid]

/-- The completing `UPDATE`: it misses and changes nothing, or settles the owned row. -/
theorem succeedOwned_cases (hq : UniqueOn Row.id q) (now : Timestamp) (itemId token : Uuid)
    (owner : String) :
    ((∀ r ∈ q, ¬ SyncQueueRepository.Owned itemId token owner now r) ∧
        SyncQueueRepository.succeedOwned now itemId token owner q = (q, false)) ∨
      ∃ r ∈ q, SyncQueueRepository.Owned itemId token owner now r ∧
        SyncQueueRepository.succeedOwned now itemId token owner q =
          (updateWhere (fun s => s.id = itemId) (SyncQueueRepository.succeed now) q, true) := by
  by_cases h : ∃ r ∈ q, SyncQueueRepository.Owned itemId token owner now r
  · obtain ⟨r, hr, howned⟩ := h
    refine .inr ⟨r, hr, howned, ?_⟩
    have hid : ∀ s, SyncQueueRepository.Owned itemId token owner now s → s.id = r.id :=
      fun s hs => hs.1.trans howned.1.symm
    rw [SyncQueueRepository.succeedOwned, updateWhere_owned hq hr howned hid rfl,
      hq.rowcount_eq_one hr howned hid, howned.1]
    rfl
  · have hnone : ∀ r ∈ q, ¬ SyncQueueRepository.Owned itemId token owner now r :=
      fun r hr howned => h ⟨r, hr, howned⟩
    refine .inl ⟨hnone, ?_⟩
    rw [SyncQueueRepository.succeedOwned, updateWhere_eq_self hnone, rowcount_eq_zero.mpr hnone]
    rfl

/-- A settling call owns no row, changes nothing and returns false, or it owns a row, settles
it, and returns true. -/
theorem settle_cases {db : Db} (hq : UniqueOn Row.id db.syncQueue) {op : Op} {how : Settling}
    (h : op.settling = some (how, itemId, token, owner)) :
    ((∀ r ∈ db.syncQueue, ¬ SyncQueueRepository.Owned itemId token owner (settledAt op) r) ∧
        op.run db = (db, .flag false)) ∨
      ∃ r ∈ db.syncQueue, SyncQueueRepository.Owned itemId token owner (settledAt op) r ∧
        (op.run db).1.syncQueue =
          updateWhere (fun s => s.id = itemId) (outcome op) db.syncQueue ∧
        (op.run db).2 = .flag true := by
  cases op with
  | complete now itemId token owner =>
    cases h
    cases hfind : db.syncQueue.find? fun r =>
      SyncQueueRepository.Owned itemId token owner now r with
    | none =>
      refine .inl ⟨fun r hr howned => ?_, ?_⟩
      · exact List.find?_eq_none.mp hfind r hr (decide_eq_true howned)
      · simp only [Op.run, SyncQueueRepository.complete, hfind]
        rfl
    | some row =>
      rcases succeedOwned_cases hq now itemId token owner with
        ⟨hnone, hmiss⟩ | ⟨r, hr, howned, hq'⟩
      · refine .inl ⟨hnone, ?_⟩
        simp only [Op.run, SyncQueueRepository.complete, hfind, hmiss]
        rfl
      · refine .inr ⟨r, hr, howned, ?_, ?_⟩
        · simp only [Op.run, SyncQueueRepository.complete, hfind, hq', if_true, Prod.map_apply,
            id_eq, (markSynced_core _ _).syncQueue]
          rfl
        · simp only [Op.run, SyncQueueRepository.complete, hfind, hq']
          rfl
  | completeCamera now itemId token owner localId serverId =>
    cases h
    rcases succeedOwned_cases hq now itemId token owner with
      ⟨hnone, hmiss⟩ | ⟨r, hr, howned, hq'⟩
    · exact .inl ⟨hnone, by simp [Op.run, SyncQueueRepository.completeCamera, hmiss]⟩
    · refine .inr ⟨r, hr, howned, ?_, ?_⟩ <;>
        simp only [Op.run, SyncQueueRepository.completeCamera, hq'] <;> rfl
  | completeRevocation now itemId token owner generation =>
    cases h
    rcases succeedOwned_cases hq now itemId token owner with
      ⟨hnone, hmiss⟩ | ⟨r, hr, howned, hq'⟩
    · exact .inl ⟨hnone, by simp [Op.run, SyncQueueRepository.completeRevocation, hmiss]⟩
    · refine .inr ⟨r, hr, howned, ?_, ?_⟩ <;>
        simp only [Op.run, SyncQueueRepository.completeRevocation, hq'] <;> rfl
  | fail now itemId token owner code message permanent =>
    cases h
    cases hfind : db.syncQueue.find? fun r =>
      SyncQueueRepository.Owned itemId token owner now r with
    | none =>
      refine .inl ⟨fun r hr howned => ?_, ?_⟩
      · exact List.find?_eq_none.mp hfind r hr (decide_eq_true howned)
      · simp only [Op.run, SyncQueueRepository.fail, hfind]
        rfl
    | some row =>
      have hrow := List.mem_of_find?_eq_some hfind
      have howned : SyncQueueRepository.Owned itemId token owner now row := by
        simpa using List.find?_some hfind
      obtain rfl := howned.1
      -- the `UPDATE` checks less than the `SELECT`, but it names the same row
      have hclaimed : SyncQueueRepository.Claimed row.id token owner row :=
        ⟨rfl, howned.2.1, howned.2.2.1⟩
      have hid : ∀ s, SyncQueueRepository.Claimed row.id token owner s → s.id = row.id :=
        fun s hs => hs.1
      refine .inr ⟨row, hrow, howned, ?_, ?_⟩
      · simp only [Op.run, SyncQueueRepository.fail, hfind, Prod.map_apply, id_eq]
        exact updateWhere_owned hq hrow hclaimed hid rfl
      · simp only [Op.run, SyncQueueRepository.fail, hfind, Prod.map_apply,
          hq.rowcount_eq_one hrow hclaimed hid, decide_true]
  | _ => cases h

/-- A settled row holds no lease. -/
theorem outcome_unleased {op : Op} {how : Settling}
    (h : op.settling = some (how, itemId, token, owner)) (r : Row) :
    (outcome op r).claimToken = none := by
  cases op <;> first | rfl | cases h

end Settling

/-! ### Leases and the log -/

/-- The leases of a row in a log, newest first. -/
def leasesOf (itemId : Uuid) (log : List Entry) : List (Uuid × String) :=
  log.filterMap fun
    | .leased id token owner => if id = itemId then some (token, owner) else none
    | _ => none

/-- The change is a lease. -/
def Change.isLease : Change → Bool
  | .lease .. => true
  | _ => false

/-- The changes of an operation other than leases. -/
def Unleasing (db : Db) (op : Op) (c : Change) (r : Row) : Prop :=
  Makes db op c r ∧ c.isLease = false

/-- Every token on a row was issued. -/
def TokensIssued (s : Store) : Prop :=
  ∀ r ∈ s.db.syncQueue, ∀ t, r.claimToken = some t → t ∈ s.issued

/-- A row goes to the same row without an entry in the log, or a lease takes it, with one
entry. -/
def Logged (op : Op) (entries : List Entry) (r r' : Row) : Prop :=
  (leasesOf r'.id entries = [] ∧ r' = r) ∨
    ∃ now expires token owner, leasesOf r'.id entries = [(token, owner)] ∧ token ∈ op.uuids ∧
      r.Waiting ∧ r' = SyncQueueRepository.lease now expires token owner r

/-- Nothing has been leased in an empty log. -/
@[simp] theorem leasesOf_nil (itemId : Uuid) : leasesOf itemId [] = [] := rfl

/-- The leases of two logs are those of the one and then of the other. -/
@[simp] theorem leasesOf_append (itemId : Uuid) (log log' : List Entry) :
    leasesOf itemId (log ++ log') = leasesOf itemId log ++ leasesOf itemId log' :=
  List.filterMap_append

/-- The entries of a claim for a row: one for each time the claim returns the row. -/
theorem leasesOf_rows (itemId token : Uuid) (owner : String) (rows : List Row) :
    leasesOf itemId (rows.map fun r => Entry.leased r.id token owner) =
      (rows.filter fun r => r.id = itemId).map fun _ => (token, owner) := by
  induction rows with
  | nil => rfl
  | cons r rows ih =>
    rw [leasesOf] at ih ⊢
    by_cases h : r.id = itemId <;> simp [h, ih]

/-- Tokens stay issued. -/
theorem tokensIssued_step {s s' : Store} {op : Op} (hkeyed : Keyed s)
    (hstep : storeMachine.step s op = some s') (h : TokensIssued s) : TokensIssued s' := by
  obtain ⟨-, hs'⟩ := store_step hstep
  refine step_rows (P := fun r => ∀ t, r.claimToken = some t → t ∈ s'.issued) hkeyed hstep ?_ ?_ ?_
  · intro r hr t ht
    rw [hs']
    exact List.mem_append_right _ (h r hr t ht)
  · rintro r ⟨_, _, _, _, rfl⟩ t ht
    cases ht
  · intro r c hmakes _ hr t ht
    cases c with
    | lease now expires token owner =>
      obtain rfl := Option.some.inj ht
      rw [hs']
      refine List.mem_append_left _ ?_
      cases op <;> simp only [Makes, Leases] at hmakes
      case claim => obtain ⟨-, -, rfl, -⟩ := hmakes; simp [Op.uuids]
      case beginRevocation => obtain ⟨rfl, -⟩ := hmakes; simp [Op.uuids]
    | release | succeed | fail | withdraw => cases ht
    | coalesce | cancel | retry | unlinkPredecessor | unlinkDependency => exact hr t ht

/-- In every reachable store every token on a row was issued. -/
theorem tokensIssued_reachable {ok : Store → Op → Prop} {s : Store}
    (h : Reachable storeMachine ok s) : TokensIssued s :=
  h.invariant (fun _ hr => nomatch hr) fun _ _ _ hreach _ hstep =>
    tokensIssued_step (keyed_reachable hreach) hstep

section Claim
variable {q : List Row} {token : Uuid}

/-- A sweep puts no token on a row. -/
theorem sweep_token (hfresh : ∀ r ∈ q, r.claimToken ≠ some token) (now : Timestamp) :
    ∀ r ∈ SyncQueueRepository.sweep now q, r.claimToken ≠ some token := by
  intro r hr
  obtain ⟨r₀, hr₀, rfl⟩ := mem_updateWhere.mp hr
  split
  · nofun
  · exact hfresh r₀ hr₀

/-- Under a new token, a claim returns the rows that carry it. -/
theorem claimRows_rows (hfresh : ∀ r ∈ q, r.claimToken ≠ some token) (now : Timestamp)
    (owner : String) (limit : Nat) (key : Option LogicalKey) (leaseSeconds : Nat) :
    (SyncQueueRepository.claimRows now token owner limit key leaseSeconds q).2 =
      ((SyncQueueRepository.claimRows now token owner limit key leaseSeconds q).1.filter
        fun r => r.claimToken = some token ∧ r.leaseOwner = some owner).insertionSort
          SyncQueueRepository.claimOrder := by
  simp only [SyncQueueRepository.claimRows]
  split
  · have hnil : (SyncQueueRepository.sweep now q).filter
        (fun r => r.claimToken = some token ∧ r.leaseOwner = some owner) = [] :=
      List.filter_eq_nil_iff.mpr fun r hr => by simp [sweep_token hfresh now r hr]
    rw [hnil]
    rfl
  · rfl

/-- A claim returns rows of the new queue. -/
theorem claimRows_subset {now : Timestamp} {owner : String} {limit : Nat}
    {key : Option LogicalKey} {leaseSeconds : Nat} {r : Row}
    (hr : r ∈ (SyncQueueRepository.claimRows now token owner limit key leaseSeconds q).2) :
    r ∈ (SyncQueueRepository.claimRows now token owner limit key leaseSeconds q).1 := by
  simp only [SyncQueueRepository.claimRows] at hr ⊢
  split at hr
  · cases hr
  · rename_i hsome
    rw [if_neg hsome]
    exact (List.mem_filter.mp ((List.mem_insertionSort _).mp hr)).1

/-- Under a new token, the returned rows are the rows with the token and the owner, each one
once. -/
theorem claimRows_returned (hq : UniqueOn Row.id q) (hfresh : ∀ r ∈ q, r.claimToken ≠ some token)
    {now : Timestamp} {owner : String} {limit : Nat} {key : Option LogicalKey}
    {leaseSeconds : Nat} {queue rows : List Row}
    (h : SyncQueueRepository.claimRows now token owner limit key leaseSeconds q = (queue, rows)) :
    UniqueOn Row.id queue ∧ UniqueOn Row.id rows ∧
      ∀ r, r ∈ rows ↔ r ∈ queue ∧ r.claimToken = some token ∧ r.leaseOwner = some owner := by
  have hrows := claimRows_rows hfresh now owner limit key leaseSeconds
  have hqueue := claimRows_queue now token owner limit key leaseSeconds q
  simp only [h] at hrows hqueue
  have hunique : UniqueOn Row.id queue := by
    rw [hqueue]
    exact (sweep_unique hq now).update fun _ _ => rfl
  refine ⟨hunique, ?_, fun r => ?_⟩
  · rw [UniqueOn, hrows, ((List.perm_insertionSort _ _).map _).nodup_iff]
    exact List.Nodup.sublist (List.Sublist.map _ List.filter_sublist) hunique
  · rw [hrows, List.mem_insertionSort, List.mem_filter, decide_eq_true_iff]

/-- A claim that returns rows is `claimRows` on the queue. -/
theorem claim_run {db : Db} {now : Timestamp} {owner : String} {limit : Nat}
    {key : Option LogicalKey} {leaseSeconds : Nat} {rows : List Row}
    (h : ((Op.claim now token owner limit key leaseSeconds).run db).2 = .rows rows) :
    SyncQueueRepository.claimRows now token owner limit key leaseSeconds db.syncQueue =
      (((Op.claim now token owner limit key leaseSeconds).run db).1.syncQueue, rows) := by
  simp only [Op.run, SyncQueueRepository.claim] at h ⊢
  split at h
  · cases h
  · rename_i hargs
    simp only [committed, Reply.rows.injEq] at h ⊢
    rw [if_neg hargs, ← h]

/-- The rows that a claim returns: selected rows of the swept queue, leased. -/
theorem claim_selected (hq : UniqueOn Row.id q) (hfresh : ∀ r ∈ q, r.claimToken ≠ some token)
    {now : Timestamp} {owner : String} {limit : Nat} {key : Option LogicalKey}
    {leaseSeconds : Nat} {queue rows : List Row}
    (h : SyncQueueRepository.claimRows now token owner limit key leaseSeconds q = (queue, rows)) :
    ∀ r ∈ rows, ∃ r₀ ∈ SyncQueueRepository.sweep now q,
      r₀.id ∈ SyncQueueRepository.selected now limit key (SyncQueueRepository.sweep now q) ∧
      r = SyncQueueRepository.lease now (now + seconds leaseSeconds) token owner r₀ := by
  intro r hr
  obtain ⟨-, -, hreturned⟩ := claimRows_returned hq hfresh h
  obtain ⟨hmem, htoken, -⟩ := (hreturned r).mp hr
  have hqueue := claimRows_queue now token owner limit key leaseSeconds q
  simp only [h] at hqueue
  rw [hqueue] at hmem
  obtain ⟨r₀, hr₀, rfl⟩ := mem_updateWhere.mp hmem
  split at htoken
  · rename_i hsel
    rw [if_pos hsel]
    exact ⟨r₀, hr₀, hsel.1, rfl⟩
  · exact absurd htoken (sweep_token hfresh now r₀ hr₀)

/-- The rows that a claim returns were ready. -/
theorem claim_ready (hq : UniqueOn Row.id q) (hfresh : ∀ r ∈ q, r.claimToken ≠ some token)
    {now : Timestamp} {owner : String} {limit : Nat} {key : Option LogicalKey}
    {leaseSeconds : Nat} {queue rows : List Row}
    (h : SyncQueueRepository.claimRows now token owner limit key leaseSeconds q = (queue, rows)) :
    ∀ r ∈ rows, ∃ r₀ ∈ SyncQueueRepository.sweep now q,
      SyncQueueRepository.Ready now key (SyncQueueRepository.sweep now q) r₀ ∧
      r = SyncQueueRepository.lease now (now + seconds leaseSeconds) token owner r₀ := by
  intro r hr
  obtain ⟨r₀, hr₀, hsel, rfl⟩ := claim_selected hq hfresh h r hr
  exact ⟨r₀, hr₀, selected_ready (sweep_unique hq now) hr₀ hsel, rfl⟩

end Claim

/-- The token of an admitted claim is on no row. -/
theorem claim_fresh {s : Store} (htokens : TokensIssued s) {now : Timestamp} {token : Uuid}
    {owner : String} {limit : Nat} {key : Option LogicalKey} {leaseSeconds : Nat}
    (hadmits : s.Admits (.claim now token owner limit key leaseSeconds)) :
    ∀ r ∈ s.db.syncQueue, r.claimToken ≠ some token := fun r hr htoken =>
  hadmits.2 token (by simp [Op.uuids]) (htokens r hr token htoken)

/-- The two operations that take leases. -/
def leasing : Op → Bool
  | .claim .. => true
  | .beginRevocation .. => true
  | _ => false

/-- The entries of an operation that takes no lease. -/
theorem leasesOf_entries {db : Db} {op : Op} {reply : Reply} {itemId : Uuid}
    (h : leasing op = false) : leasesOf itemId (op.entries db reply) = [] := by
  unfold Op.entries
  split
  · cases h
  · cases h
  · rfl
  · split <;> rfl
  · rfl

/-- An operation that takes no lease makes no lease. -/
theorem makes_unleasing {db : Db} {op : Op} {c : Change} {r : Row} (h : leasing op = false)
    (hmakes : Makes db op c r) : Unleasing db op c r := by
  refine ⟨hmakes, ?_⟩
  cases c with
  | lease now expires token owner =>
    cases op <;> first | exact absurd hmakes id | cases h
  | _ => rfl

/-- A row after an operation comes from an old or an inserted row without a lease, and then
either nothing more happened to it, or the operation leased it and logged the lease. -/
def LeaseStep (db : Db) (op : Op) (r' : Row) : Prop :=
  ∃ r₀ r, (r₀ ∈ db.syncQueue ∨ Bears db op r₀) ∧
    ReflTransGen (RowStep (Unleasing db op)) r₀ r ∧
    Logged op (op.entries db (op.run db).2) r r'

/-- The rows of a claim: each returned row is leased, and no other row is. -/
theorem claim_leaseStep {db : Db} (hq : UniqueOn Row.id db.syncQueue) {now : Timestamp}
    {token : Uuid} {owner : String} {limit : Nat} {key : Option LogicalKey} {leaseSeconds : Nat}
    (hfresh : ∀ r ∈ db.syncQueue, r.claimToken ≠ some token) {r' : Row}
    (hr' : r' ∈ ((Op.claim now token owner limit key leaseSeconds).run db).1.syncQueue) :
    LeaseStep db (.claim now token owner limit key leaseSeconds) r' := by
  unfold LeaseStep
  -- arguments out of range change nothing
  by_cases hbad : owner = "" ∨ limit < 1 ∨ 500 < limit
  · simp only [Op.run, SyncQueueRepository.claim, if_pos hbad] at hr' ⊢
    exact ⟨r', r', .inl hr', .refl, .inl ⟨rfl, rfl⟩⟩
  simp only [Op.run, SyncQueueRepository.claim, if_neg hbad, committed] at hr' ⊢
  have hqueue := claimRows_queue now token owner limit key leaseSeconds db.syncQueue
  cases hclaim : SyncQueueRepository.claimRows now token owner limit key leaseSeconds
    db.syncQueue with | mk queue rows =>
  obtain ⟨hunique, huniqueRows, hreturned⟩ := claimRows_returned hq hfresh hclaim
  simp only [hclaim] at hr' hqueue ⊢
  have hr'' := hr'
  rw [hqueue] at hr''
  obtain ⟨r, hr, hleased⟩ := mem_updateWhere.mp hr''
  obtain ⟨r₀, hr₀, hreleased⟩ := mem_updateWhere.mp hr
  refine ⟨r₀, r, .inl hr₀, ?_, ?_⟩
  -- an expired lease is released first
  · by_cases hexp : SyncQueueRepository.Expired now r₀
    · rw [if_pos hexp] at hreleased
      exact .single ⟨.release now, ⟨⟨rfl, hr₀, hexp, hbad⟩, rfl⟩, hexp.1, hreleased.symm⟩
    · rw [if_neg hexp] at hreleased
      exact hreleased ▸ .refl
  -- and then the row is leased, if it is among the selected ones
  · by_cases hsel : r.id ∈ SyncQueueRepository.selected now limit key
        (SyncQueueRepository.sweep now db.syncQueue) ∧ r.Waiting
    · rw [if_pos hsel] at hleased
      have hmem : r' ∈ rows := (hreturned r').mpr ⟨hr', by rw [← hleased]; exact ⟨rfl, rfl⟩⟩
      refine .inr ⟨now, _, token, owner, ?_, by simp [Op.uuids], hsel.2, hleased.symm⟩
      exact (leasesOf_rows _ _ _ _).trans (by rw [huniqueRows.filter_eq_singleton hmem]; rfl)
    · rw [if_neg hsel] at hleased
      subst hleased
      refine .inl ⟨(leasesOf_rows _ _ _ _).trans ?_, rfl⟩
      rw [List.map_eq_nil_iff, List.filter_eq_nil_iff]
      intro s hs hid
      obtain ⟨hs, htoken, -⟩ := (hreturned s).mp hs
      rw [hunique.eq hs hr' (by simpa using hid)] at htoken
      exact sweep_token hfresh now r hr htoken

/-- The lease of a logout takes the row that the operation enqueued. -/
theorem beginRevocation_leaseStep {db : Db} (hq : UniqueOn Row.id db.syncQueue)
    {now : Timestamp} {itemId token : Uuid} {generation : Nat} {maxAttempts : Attempts}
    {leaseSeconds : Nat} (hnew : ∀ r ∈ db.syncQueue, r.id ≠ itemId) {r' : Row}
    (hr' : r' ∈ ((Op.beginRevocation now itemId token generation maxAttempts
      leaseSeconds).run db).1.syncQueue) :
    LeaseStep db (.beginRevocation now itemId token generation maxAttempts leaseSeconds) r' := by
  unfold LeaseStep
  cases hrow : db.localSession with
  | none =>
    simp only [Op.run, SessionRepository.beginRevocation, hrow] at hr' ⊢
    exact ⟨r', r', .inl hr', .refl, .inl ⟨rfl, rfl⟩⟩
  | some row =>
    -- only for the active session of that generation is a row enqueued
    by_cases hactive : row.generation = generation ∧ row.status = .active
    · simp only [Op.run, SessionRepository.beginRevocation, hrow, if_pos hactive] at hr' ⊢
      obtain ⟨r, hr, hleased⟩ := mem_updateWhere.mp hr'
      have hstatements : Statements
          (Unleasing db (.beginRevocation now itemId token generation maxAttempts leaseSeconds))
          (Bears db (.beginRevocation now itemId token generation maxAttempts leaseSeconds))
          db.syncQueue _ :=
        enqueue_statements hq
          { now, itemId, endpoint := .logout, payload := .sessionRevoke (generation + 1)
            logicalKey := .sessionRevoke, maxAttempts, dependsOnId := none } hnew
          (fun _ hr hlatest => ⟨⟨_, rfl, hr, hlatest, rfl, rfl, rfl, rfl⟩, rfl⟩)
          fun version pred => ⟨_, version, pred, rfl, rfl⟩
      obtain ⟨r₀, hr₀, hsteps⟩ := hstatements.rows r hr
      refine ⟨r₀, r, hr₀, hsteps, ?_⟩
      have hentry : ∀ id, leasesOf r'.id
          [Entry.leased id token SessionRepository.authLogout] =
            if id = r'.id then [(token, SessionRepository.authLogout)] else [] := fun id => by
        by_cases h : id = r'.id <;> simp [leasesOf, h]
      have hid : r'.id = r.id := by
        rw [← hleased]
        split <;> rfl
      -- and it is leased to the logout at once
      by_cases htaken : r.id = (enqueue
          { now, itemId, endpoint := .logout, payload := .sessionRevoke (generation + 1)
            logicalKey := .sessionRevoke, maxAttempts, dependsOnId := none } db.syncQueue).2
      · have hpending := (enqueue_row hq hnew hr htaken).2.1.1
        rw [if_pos ⟨htaken, hpending⟩] at hleased
        refine .inr ⟨now, _, token, SessionRepository.authLogout, (hentry _).trans ?_,
          by simp [Op.uuids], .inl hpending, hleased.symm⟩
        rw [if_pos (htaken.symm.trans hid.symm)]
      · rw [if_neg fun h => htaken h.1] at hleased
        refine .inl ⟨(hentry _).trans ?_, hleased.symm⟩
        rw [if_neg fun h => htaken (hid.symm.trans h.symm)]
    · simp only [Op.run, SessionRepository.beginRevocation, hrow, if_neg hactive] at hr' ⊢
      exact ⟨r', r', .inl hr', .refl, .inl ⟨rfl, rfl⟩⟩

/-- Every row after an operation is accounted for in the log. -/
theorem lease_step {s s' : Store} {op : Op} (hkeyed : Keyed s) (htokens : TokensIssued s)
    (hstep : storeMachine.step s op = some s') : ∀ r' ∈ s'.db.syncQueue, LeaseStep s.db op r' := by
  intro r' hr'
  obtain ⟨hadmits, rfl⟩ := store_step hstep
  by_cases hop : leasing op = false
  · obtain ⟨r₀, hr₀, hsteps⟩ := (hkeyed.statements hadmits).rows r' hr'
    have hunleasing : ∀ r r₁, RowStep (Makes s.db op) r r₁ → RowStep (Unleasing s.db op) r r₁ := by
      rintro r _ ⟨c, hmakes, hguard, rfl⟩
      exact ⟨c, makes_unleasing hop hmakes, hguard, rfl⟩
    exact ⟨r₀, r', hr₀, ReflTransGen.mono hunleasing _ _ hsteps, .inl ⟨leasesOf_entries hop, rfl⟩⟩
  · cases op with
    | claim now token owner limit key leaseSeconds =>
      have hfresh : token ∉ s.issued := hadmits.2 token (by simp [Op.uuids])
      exact claim_leaseStep hkeyed.unique (fun r hr ht => hfresh (htokens r hr token ht)) hr'
    | beginRevocation now itemId token generation maxAttempts leaseSeconds =>
      exact beginRevocation_leaseStep hkeyed.unique
        (fun r hr he => hadmits.2 r.id (by simp [Op.uuids, he]) (hkeyed.issued r hr)) hr'
    | _ => exact absurd rfl hop

end Rsap.Proofs
