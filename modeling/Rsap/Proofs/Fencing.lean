import Rsap.Proofs.Leases

/-!
# `Rsap.Proofs.Fencing`: one settlement for each lease

`Fenced` ties the lease on a row to the log. A row that carries a token was leased last under
that token, and nothing settled it under that token. A settling call that returns true owns
its row, so it meets both conditions, and it removes the token. Hence a lease is settled at
most once, and never after a later claim took the row.
-/

set_option autoImplicit false

namespace Rsap.Proofs

open Rsap.Library
open Rsap.Library.Machine (Reachable Any)
open Rsap.Desktop
open Relation (ReflTransGen)

/-- The entry settles the row under the token. -/
def settlesUnder (itemId token : Uuid) : Entry → Bool
  | .settled _ id token' _ _ => decide (id = itemId ∧ token' = token)
  | _ => false

/-- The number of settlements of a row under a token. -/
def settlements (itemId token : Uuid) (log : List Entry) : Nat :=
  log.countP (settlesUnder itemId token)

/-- The settlements of two logs add up. -/
@[simp] theorem settlements_append (itemId token : Uuid) (log log' : List Entry) :
    settlements itemId token (log ++ log') =
      settlements itemId token log + settlements itemId token log' :=
  List.countP_append

/-- What the log says about the leases on the rows. -/
structure Fenced (s : Store) : Prop where
  latest : ∀ r ∈ s.db.syncQueue, ∀ t o, r.claimToken = some t → r.leaseOwner = some o →
    (leasesOf r.id s.log).head? = some (t, o)
  unsettled : ∀ r ∈ s.db.syncQueue, ∀ t, r.claimToken = some t → settlements r.id t s.log = 0
  issued : ∀ how id t o key, .settled how id t o key ∈ s.log → t ∈ s.issued
  once : ∀ id t, settlements id t s.log ≤ 1

section Entries
variable {db : Db} {op : Op} {reply : Reply} {itemId token : Uuid} {owner : String}
  {how : Settling}

/-- A settlement in the entries of an operation is the call that the operation makes. -/
theorem entries_settled {key : Option LogicalKey}
    (h : .settled how itemId token owner key ∈ op.entries db reply) :
    op.settling = some (how, itemId, token, owner) ∧ reply = .flag true := by
  unfold Op.entries at h
  split at h
  · obtain ⟨_, _, heq⟩ := List.mem_map.mp h
    cases heq
  · cases List.mem_singleton.mp h
  · cases List.mem_singleton.mp h
  · split at h
    · rename_i hsettling
      cases List.mem_singleton.mp h
      exact ⟨hsettling, rfl⟩
    · cases h
  · cases h

/-- The entries of a settling call that returned true. -/
theorem entries_of_settling (h : op.settling = some (how, itemId, token, owner)) :
    op.entries db (.flag true) =
      [.settled how itemId token owner (keyOf itemId db.syncQueue)] := by
  cases op <;> cases h <;> rfl

/-- An operation that settles nothing under the token adds no settlement. -/
theorem settlements_entries
    (h : ∀ how owner, op.settling = some (how, itemId, token, owner) → reply ≠ .flag true) :
    settlements itemId token (op.entries db reply) = 0 := by
  rw [settlements, List.countP_eq_zero]
  intro e he hset
  cases e with
  | settled how id t o key =>
    obtain ⟨rfl, rfl⟩ : id = itemId ∧ t = token := by simpa [settlesUnder] using hset
    exact h how o (entries_settled he).1 (entries_settled he).2
  | _ => cases hset

end Entries

/-- Without a lease, an operation puts no token on a row. -/
theorem unleasing_token {db : Db} {op : Op} {r₀ r : Row}
    (h : ReflTransGen (RowStep (Unleasing db op)) r₀ r) (hr : r.claimToken ≠ none) :
    r₀.claimToken = r.claimToken ∧ r₀.leaseOwner = r.leaseOwner := by
  refine rowSteps_keep (P := fun r => r.claimToken ≠ none →
    r₀.claimToken = r.claimToken ∧ r₀.leaseOwner = r.leaseOwner) ?_ h (fun _ => ⟨rfl, rfl⟩) hr
  intro r c hmay _ ih hr
  cases c with
  | lease => cases hmay.2
  | release | succeed | fail | withdraw => exact absurd rfl hr
  | coalesce | cancel | retry | unlinkPredecessor | unlinkDependency => exact ih hr

/-- A settling call that returns true owns a row under the token, and leaves no token on it. -/
theorem settled_row {db : Db} {op : Op} {how : Settling} {itemId token : Uuid} {owner : String}
    (hq : UniqueOn Row.id db.syncQueue) (h : op.settling = some (how, itemId, token, owner))
    (htrue : (op.run db).2 = .flag true) :
    (∃ r ∈ db.syncQueue, SyncQueueRepository.Owned itemId token owner (settledAt op) r) ∧
      ∀ r' ∈ (op.run db).1.syncQueue, r'.id = itemId → r'.claimToken = none := by
  rcases settle_cases hq h with ⟨-, hmiss⟩ | ⟨r, hr, howned, hqueue, -⟩
  · rw [hmiss] at htrue
    cases htrue
  · refine ⟨⟨r, hr, howned⟩, fun r' hr' hid => ?_⟩
    rw [hqueue] at hr'
    obtain ⟨s, _, rfl⟩ := mem_updateWhere.mp hr'
    by_cases hs : s.id = itemId
    · rw [if_pos hs]
      exact outcome_unleased h s
    · rw [if_neg hs] at hid
      exact absurd hid hs

/-- A step keeps the store fenced. -/
theorem fenced_step {s s' : Store} {op : Op} (hkeyed : Keyed s) (htokens : TokensIssued s)
    (hstep : storeMachine.step s op = some s') (h : Fenced s) : Fenced s' := by
  have hlease := lease_step hkeyed htokens hstep
  obtain ⟨hadmits, rfl⟩ := store_step hstep
  -- a call that settles owns its row, so the token is issued and was not settled before
  have hsettled : ∀ how id t o, op.settling = some (how, id, t, o) →
      (op.run s.db).2 = .flag true → t ∈ s.issued ∧ settlements id t s.log = 0 := by
    intro how id t o hop htrue
    obtain ⟨⟨r, hr, howned⟩, -⟩ := settled_row hkeyed.unique hop htrue
    exact ⟨htokens r hr t howned.2.1, howned.1 ▸ h.unsettled r hr t howned.2.1⟩
  refine ⟨?_, ?_, ?_, ?_⟩
  · intro r' hr' t o ht ho
    obtain ⟨r₀, r, hr₀, hsteps, hlogged⟩ := hlease r' hr'
    simp only [leasesOf_append]
    rcases hlogged with ⟨hnone, rfl⟩ | ⟨now, expires, token, owner, hone, _, _, rfl⟩
    · obtain ⟨htoken, howner⟩ := unleasing_token hsteps (by simp [ht])
      rw [hnone, List.nil_append, (rowSteps_fixed hsteps).1]
      rcases hr₀ with hr₀ | ⟨_, _, _, _, rfl⟩
      · exact h.latest r₀ hr₀ t o (htoken.trans ht) (howner.trans ho)
      · cases htoken.trans ht
    · rw [hone, ← Option.some.inj ht, ← Option.some.inj ho]
      rfl
  · intro r' hr' t ht
    obtain ⟨r₀, r, hr₀, hsteps, hlogged⟩ := hlease r' hr'
    have hentries : settlements r'.id t (op.entries s.db (op.run s.db).2) = 0 := by
      refine settlements_entries fun how owner hop htrue => ?_
      have hnone := (settled_row hkeyed.unique hop htrue).2 r' hr' rfl
      rw [hnone] at ht
      cases ht
    simp only [settlements_append, hentries, Nat.zero_add]
    rcases hlogged with ⟨_, rfl⟩ | ⟨now, expires, token, owner, _, hnew, _, rfl⟩
    · obtain ⟨htoken, -⟩ := unleasing_token hsteps (by simp [ht])
      rw [(rowSteps_fixed hsteps).1]
      rcases hr₀ with hr₀ | ⟨_, _, _, _, rfl⟩
      · exact h.unsettled r₀ hr₀ t (htoken.trans ht)
      · cases htoken.trans ht
    · obtain rfl := Option.some.inj ht
      refine List.countP_eq_zero.mpr fun e he hset => ?_
      cases e with
      | settled how id t o key =>
        obtain ⟨-, rfl⟩ : id = _ ∧ t = token := by simpa [settlesUnder] using hset
        exact hadmits.2 t hnew (h.issued how id t o key he)
      | _ => cases hset
  · intro how id t o key he
    rcases List.mem_append.mp he with he | he
    · obtain ⟨hop, htrue⟩ := entries_settled he
      exact List.mem_append_right _ (hsettled how id t o hop htrue).1
    · exact List.mem_append_right _ (h.issued how id t o key he)
  · intro id t
    simp only [settlements_append]
    by_cases hop : ∃ how o, op.settling = some (how, id, t, o) ∧ (op.run s.db).2 = .flag true
    · obtain ⟨how, o, hop, htrue⟩ := hop
      rw [(hsettled how id t o hop htrue).2, htrue, entries_of_settling hop]
      simp [settlements, settlesUnder]
    · rw [settlements_entries fun how o h1 h2 => hop ⟨how, o, h1, h2⟩, Nat.zero_add]
      exact h.once id t

/-- Every reachable store is fenced. -/
theorem fenced_reachable {ok : Store → Op → Prop} {s : Store}
    (h : Reachable storeMachine ok s) : Fenced s := by
  refine h.invariant ⟨?_, ?_, ?_, ?_⟩ fun _ _ _ hreach _ hstep =>
    fenced_step (keyed_reachable hreach) (tokensIssued_reachable hreach) hstep
  · exact fun _ hr => nomatch hr
  · exact fun _ hr => nomatch hr
  · exact fun _ _ _ _ _ he => nomatch he
  · exact fun _ _ => Nat.zero_le _

/-- Lease fencing. In every reachable store a row has all three lease columns exactly when it
is inflight, and they are those of its latest lease. A settling call that returns true names
the latest lease of its row, and no earlier call settled the row under that token. So a row is
settled at most once under a token. Any other settling call changes nothing. -/
theorem lease_fencing {s : Store} (h : Reachable storeMachine Any s) :
    (∀ r ∈ s.db.syncQueue, LeaseColumns r ∧ ∀ t o, r.claimToken = some t → r.leaseOwner = some o →
      (leasesOf r.id s.log).head? = some (t, o)) ∧
    (∀ (op : Op) how itemId token owner, op.settling = some (how, itemId, token, owner) →
      (op.run s.db).2 = .flag true →
        (leasesOf itemId s.log).head? = some (token, owner) ∧
          settlements itemId token s.log = 0) ∧
    (∀ itemId token, settlements itemId token s.log ≤ 1) ∧
    (∀ (op : Op) how itemId token owner, op.settling = some (how, itemId, token, owner) →
      (op.run s.db).2 ≠ .flag true → op.run s.db = (s.db, .flag false)) := by
  have hfenced := fenced_reachable h
  have hkeyed := keyed_reachable h
  refine ⟨fun r hr => ⟨leaseColumns_reachable h r hr, hfenced.latest r hr⟩, ?_, hfenced.once, ?_⟩
  · intro op how itemId token owner hop htrue
    obtain ⟨⟨r, hr, hid, htoken, howner, -⟩, -⟩ := settled_row hkeyed.unique hop htrue
    subst hid
    exact ⟨hfenced.latest r hr token owner htoken howner, hfenced.unsettled r hr token htoken⟩
  · intro op how itemId token owner hop hfalse
    rcases settle_cases hkeyed.unique hop with ⟨-, hmiss⟩ | ⟨_, _, _, _, htrue⟩
    · exact hmiss
    · exact absurd htrue hfalse

/-- A worker holds the only lease of a revocation. -/
def leasedRun : List Op :=
  [.enqueueRevocation 0 1 1 defaultMaxAttempts, .claim 0 2 "worker" 1 none 60]

/-- A row that is leased and not settled yet. -/
theorem lease_fencing_leased :
    (leasesOf 1 (storeMachine.final .empty leasedRun).log).head? = some (2, "worker") ∧
      settlements 1 2 (storeMachine.final .empty leasedRun).log = 0 :=
  (lease_fencing (.final .init leasedRun (by decide))).2.1
    (.complete 1 1 2 "worker") .complete 1 2 "worker" rfl (by decide)

end Rsap.Proofs
