import Rsap.Proofs.Handling
import Rsap.Proofs.Purge

/-!
# `Rsap.Proofs.Flush`: what a pass leaves of its claim

A pass claims a batch, settles the items one after another, and purges. Two things go wrong.
An attempt that escapes the client leaves `flush_once`, and the row at hand and all later rows
of the batch stay leased (`flushItems_raised`). And the purge withdraws every row that hangs on
an expired dead letter, a row that was settled a moment ago among them (`purge_withdraws`).

When neither happens, every claimed row is settled. `flush_settles` says that this condition is
exact.
-/

set_option autoImplicit false

namespace Rsap.Proofs

open Rsap.Library
open Rsap.Library.Machine (Reachable Any)
open Rsap.Desktop
open SyncQueueRepository (purgeCandidate descendantIds)

/-- The states in which a pass leaves a row that it settled. -/
abbrev SettledState (r : Row) : Prop :=
  r.state = .succeeded ∨ r.state = .retryWait ∨ r.state = .deadLetter

/-- What a settlement at `now` makes of a row. -/
structure SettledBy (now : Timestamp) (r r' : Row) : Prop where
  id : r'.id = r.id
  predecessorId : r'.predecessorId = r.predecessorId
  dependsOnId : r'.dependsOnId = r.dependsOnId
  unleased : r'.claimToken = none
  state : SettledState r'
  completedAt : r'.state = .succeeded → r'.completedAt = some now
  failedAt : r'.state = .deadLetter → r'.failedAt = some now

/-- Success settles a row. -/
theorem succeed_settledBy (now : Timestamp) (r : Row) :
    SettledBy now r (SyncQueueRepository.succeed now r) :=
  ⟨rfl, rfl, rfl, rfl, .inl rfl, fun _ => rfl, nofun⟩

/-- A failure settles a row: it waits again or is dead. -/
theorem failRow_settledBy (now : Timestamp) (code message : String) (permanent : Bool) (r : Row) :
    SettledBy now r (SyncQueueRepository.failRow now r code message permanent r) := by
  refine ⟨rfl, rfl, rfl, rfl, ?_, ?_, ?_⟩ <;>
    cases h : SyncQueueRepository.exhausted permanent r <;>
    simp [SettledState, SyncQueueRepository.failRow, h]

/-- The settling call of a settlement. -/
theorem settlement_op (settlement : Settlement) (item : Item) (now : Timestamp) :
    (∃ how, (settlement.op item now).settling =
        some (how, item.id, item.claimToken, item.leaseOwner)) ∧
      settledAt (settlement.op item now) = now ∧
      ∀ r, SettledBy now r (outcome (settlement.op item now) r) := by
  cases settlement with
  | complete => exact ⟨⟨_, rfl⟩, rfl, succeed_settledBy now⟩
  | completeCamera => exact ⟨⟨_, rfl⟩, rfl, succeed_settledBy now⟩
  | completeRevocation => exact ⟨⟨_, rfl⟩, rfl, succeed_settledBy now⟩
  | fail code message permanent =>
    exact ⟨⟨_, rfl⟩, rfl, failRow_settledBy now code message permanent⟩

/-! ### The loop over the items -/

/-- The row is leased for the item until `expires`. -/
structure HeldRow (expires : Timestamp) (item : Item) (r : Row) : Prop where
  id : r.id = item.id
  token : r.claimToken = some item.claimToken
  owner : r.leaseOwner = some item.leaseOwner
  state : r.state = .inflight
  expiry : r.leaseExpiresAt = some expires

/-- Every item has its leased row, and no two items are of one row. -/
structure Held (expires : Timestamp) (items : List Item) (q : List Row) : Prop where
  nodup : (items.map Item.id).Nodup
  rows : ∀ item ∈ items, ∃ r ∈ q, HeldRow expires item r

section Loop
variable {settings : Settings} {record : SessionRecord} {input : PassInput}
  {expires : Timestamp} {item : Item} {items : List Item} {db : Db}

/-- Before its expiry the lease of the item is owned. -/
theorem HeldRow.owned {r : Row} (h : HeldRow expires item r) {now : Timestamp}
    (hnow : now < expires) :
    SyncQueueRepository.Owned item.id item.claimToken item.leaseOwner now r :=
  ⟨h.id, h.token, h.owner, h.state, by simp [h.expiry, hnow]⟩

/-- The settlement of the first item rewrites its row and leaves the other leases alone. -/
theorem Held.settle (h : Held expires (item :: items) db.syncQueue)
    (hq : UniqueOn Row.id db.syncQueue) {now : Timestamp} (hnow : now < expires)
    (settlement : Settlement) :
    ((settlement.op item now).run db).1.syncQueue =
        updateWhere (fun r => r.id = item.id) (outcome (settlement.op item now)) db.syncQueue ∧
      UniqueOn Row.id ((settlement.op item now).run db).1.syncQueue ∧
      Held expires items ((settlement.op item now).run db).1.syncQueue := by
  obtain ⟨⟨how, hsettling⟩, hat, hsettled⟩ := settlement_op settlement item now
  obtain ⟨hnot, hnodup⟩ := List.nodup_cons.mp h.nodup
  have hqueue : ((settlement.op item now).run db).1.syncQueue =
      updateWhere (fun r => r.id = item.id) (outcome (settlement.op item now)) db.syncQueue := by
    rcases settle_cases hq hsettling with ⟨hnone, -⟩ | ⟨_, _, _, hqueue, -⟩
    · -- the call owns the row of the item, so it does not miss
      obtain ⟨r, hr, hheld⟩ := h.rows item List.mem_cons_self
      exact absurd (hheld.owned hnow) (hat ▸ hnone r hr)
    · exact hqueue
  -- the rows of the other items are not touched
  refine ⟨hqueue, ?_, hnodup, fun other hother => ?_⟩
  · rw [hqueue]
    exact hq.update fun r _ => (hsettled r).id
  · obtain ⟨r, hr, hheld⟩ := h.rows other (List.mem_cons_of_mem _ hother)
    refine ⟨r, ?_, hheld⟩
    rw [hqueue]
    refine mem_updateWhere.mpr ⟨r, hr, if_neg fun hid => hnot ?_⟩
    rw [← hid, hheld.id]
    exact List.mem_map_of_mem hother

/-- The loop settles every item when no handling raises: it returns, and it rewrites the rows of
the items only. -/
theorem flushItems_settled (hclock : ∀ i, input.settledAt i < expires) {j : Nat}
    (hno : ∀ i item, items[i]? = some item →
      handleItem settings record item (input.outcomes (j + i)) ≠ .raised)
    (h : Held expires items db.syncQueue) (hq : UniqueOn Row.id db.syncQueue)
    (counts : FlushCounts) :
    ∃ counts' g, (flushItems settings record input j items counts db).2 = .returned counts' ∧
      (flushItems settings record input j items counts db).1.syncQueue = db.syncQueue.map g ∧
      ∀ r, (r.id ∉ items.map Item.id → g r = r) ∧
        (r.id ∈ items.map Item.id → ∃ i, SettledBy (input.settledAt i) r (g r)) := by
  -- the items are settled one after the other, each its own row
  induction items generalizing j counts db with
  | nil => exact ⟨counts, id, rfl, (List.map_id _).symm, fun r => ⟨fun _ => rfl, nofun⟩⟩
  | cons item items ih =>
    rcases handleItem_cases settings record item (input.outcomes j) with ⟨settlement, heq⟩ | heq
    · obtain ⟨hqueue, hq', hheld⟩ := h.settle hq (hclock j) settlement
      have hsettled := (settlement_op settlement item (input.settledAt j)).2.2
      have hnot := (List.nodup_cons.mp h.nodup).1
      obtain ⟨counts', g, hend, hmap, hg⟩ := ih
        (fun i other hi => by
          rw [Nat.add_assoc, Nat.add_comm 1 i]
          exact hno (i + 1) other hi) hheld hq' _
      simp only [flushItems, heq]
      refine ⟨counts', fun r => g (if r.id = item.id then
        outcome (settlement.op item (input.settledAt j)) r else r), hend, ?_, fun r => ?_⟩
      · rw [hmap, hqueue, updateWhere, List.map_map]
        rfl
      · beta_reduce
        -- the row of this item, which no later one has
        by_cases hid : r.id = item.id
        · have hsame := (hsettled r).id.trans hid
          refine ⟨fun hmem => absurd ?_ hmem, fun _ => ⟨j, ?_⟩⟩
          · simp [hid]
          · rw [if_pos hid, (hg _).1 (by rwa [hsame])]
            exact hsettled r
        · rw [if_neg hid]
          refine ⟨fun hmem => (hg r).1 fun h => hmem (List.mem_cons_of_mem _ h), fun hmem => ?_⟩
          exact (hg r).2 ((List.mem_cons.mp hmem).resolve_left hid)
    · exact absurd heq (hno 0 item rfl)

/-- The loop raises when a handling raises, and then it leaves a row of an item leased. -/
theorem flushItems_raised (hclock : ∀ i, input.settledAt i < expires) {j : Nat}
    (hraised : ∃ i item, items[i]? = some item ∧
      handleItem settings record item (input.outcomes (j + i)) = .raised)
    (h : Held expires items db.syncQueue) (hq : UniqueOn Row.id db.syncQueue)
    (counts : FlushCounts) :
    (flushItems settings record input j items counts db).2 = .raised ∧
      ∃ item ∈ items, ∃ r ∈ (flushItems settings record input j items counts db).1.syncQueue,
        HeldRow expires item r := by
  -- the first item that raises ends the pass, and the rest stay leased
  induction items generalizing j counts db with
  | nil =>
    obtain ⟨i, item, hi, -⟩ := hraised
    cases hi
  | cons item items ih =>
    rcases handleItem_cases settings record item (input.outcomes j) with ⟨settlement, heq⟩ | heq
    · obtain ⟨-, hq', hheld⟩ := h.settle hq (hclock j) settlement
      obtain ⟨i, other, hi, hother⟩ := hraised
      cases i with
      | zero =>
        cases hi
        rw [Nat.add_zero, heq] at hother
        cases hother
      | succ i =>
        rw [Nat.add_comm i 1, ← Nat.add_assoc] at hother
        obtain ⟨hend, other', hmem, hrow⟩ := ih ⟨i, other, hi, hother⟩ hheld hq'
          (if ((settlement.op item (input.settledAt j)).run db).2 = .flag true then
            counts.count settings item settlement else counts)
        simp only [flushItems, heq]
        exact ⟨hend, other', List.mem_cons_of_mem _ hmem, hrow⟩
    · simp only [flushItems, heq]
      obtain ⟨r, hr, hheld⟩ := h.rows item List.mem_cons_self
      exact ⟨trivial, item, List.mem_cons_self, r, hr, hheld⟩

end Loop

/-! ### The claim of the pass -/

section Claim
variable {q queue rows : List Row} {now : Timestamp} {token : Uuid} {owner : String}
  {limit : Nat} {key : Option LogicalKey} {leaseSeconds : Nat}

/-- The rows of the items are leased for them. -/
theorem claim_held (hq : UniqueOn Row.id q) (hfresh : ∀ r ∈ q, r.claimToken ≠ some token)
    (h : SyncQueueRepository.claimRows now token owner limit key leaseSeconds q = (queue, rows)) :
    Held (now + seconds leaseSeconds) (rows.map (Item.ofRow token owner)) queue := by
  obtain ⟨-, hunique, hreturned⟩ := claimRows_returned hq hfresh h
  refine ⟨by rwa [List.map_map], fun item hitem => ?_⟩
  obtain ⟨r, hr, rfl⟩ := List.mem_map.mp hitem
  refine ⟨r, ((hreturned r).mp hr).1, ?_⟩
  obtain ⟨r₀, -, -, rfl⟩ := claim_ready hq hfresh h r hr
  exact ⟨rfl, rfl, rfl, rfl, rfl⟩

/-- A claim keeps the links of every row, and it touches no row that is done or a dead letter
and makes no row one. -/
theorem claim_map (now : Timestamp) (token : Uuid) (owner : String) (limit : Nat)
    (key : Option LogicalKey) (leaseSeconds : Nat) (q : List Row) :
    ∃ g, (SyncQueueRepository.claimRows now token owner limit key leaseSeconds q).1 = q.map g ∧
      ∀ r, (g r).id = r.id ∧ (g r).predecessorId = r.predecessorId ∧
        (g r).dependsOnId = r.dependsOnId ∧ (Settled r → g r = r) ∧
        (¬ Settled r → ¬ Settled (g r)) := by
  have hrelease : ∀ r, ¬ Settled (SyncQueueRepository.release now r) := fun r => by
    simp [Settled, SyncQueueRepository.release]
  have hlease : ∀ r, ¬ Settled (SyncQueueRepository.lease now (now + seconds leaseSeconds)
      token owner r) := fun r => by
    simp [Settled, SyncQueueRepository.lease]
  refine ⟨_, by rw [claimRows_queue, SyncQueueRepository.sweep, updateWhere, updateWhere,
    List.map_map], fun r => ?_⟩
  simp only [Function.comp_apply]
  -- an expired row is released, and it may be leased again at once
  by_cases hexp : SyncQueueRepository.Expired now r
  · have hnot : ¬ Settled r := by simp [Settled, hexp.1]
    rw [if_pos hexp]
    split
    · exact ⟨rfl, rfl, rfl, fun h => absurd h hnot, fun _ => hlease _⟩
    · exact ⟨rfl, rfl, rfl, fun h => absurd h hnot, fun _ => hrelease r⟩
  · rw [if_neg hexp]
    split
    · rename_i hsel
      refine ⟨rfl, rfl, rfl, fun h => ?_, fun _ => hlease r⟩
      rcases hsel.2 with hw | hw <;> rcases h with (h | h) | h <;> rw [hw] at h <;> cases h
    · exact ⟨rfl, rfl, rfl, fun _ => rfl, id⟩

end Claim

/-! ### The pass -/

/-- What a pass owes to the rows that it claimed: none is left leased under the token of the
claim, and each is there and settled. -/
structure PassSettles (token : Uuid) (rows q : List Row) : Prop where
  unleased : ∀ r ∈ q, r.id ∈ rows.map Row.id → ¬ (r.state = .inflight ∧ r.claimToken = some token)
  settled : ∀ r ∈ rows, ∃ r' ∈ q, r'.id = r.id ∧ SettledState r'

/-- The leases do not expire during the pass. -/
structure InLease (settings : Settings) (claimedAt : Timestamp) (input : PassInput) : Prop where
  begun : ∀ i, claimedAt ≤ input.settledAt i
  settled : ∀ i, input.settledAt i < claimedAt + seconds settings.leaseSeconds.val
  purged : input.purgedAt < claimedAt + seconds settings.leaseSeconds.val

/-- No attempt that the pass makes escapes the client. -/
def Contained (settings : Settings) (record : SessionRecord) (input : PassInput)
    (items : List Item) : Prop :=
  ∀ i item, items[i]? = some item → ∀ k,
    Attempted settings record item (input.outcomes i) k → (input.outcomes i k).escapes = false

/-- At no turn of the purge of the queue does the item hang on an expired dead letter. -/
def Spared (settings : Settings) (now : Timestamp) (q : List Row) (itemId : Uuid) : Prop :=
  ∀ before c after, SyncQueueRepository.purgeCandidates
      (now - days settings.succeededRetentionDays.val)
      (now - days settings.deadLetterRetentionDays.val) q = before ++ c :: after →
    c.2 = .deadLetter → itemId ∉ descendantIds c.1 (before.foldl (purgeCandidate now) q)

section Pass
variable {settings : Settings} {record : SessionRecord} {input : PassInput}
  {claimedAt : Timestamp} {token : Uuid} {owner : String} {limit : Nat} {db db' : Db}
  {rows : List Row}

/-- The handlings of the items do not raise exactly when no attempt escapes. -/
theorem contained_iff {items : List Item} : Contained settings record input items ↔
    ∀ i item, items[i]? = some item →
      handleItem settings record item (input.outcomes i) ≠ .raised := by
  refine forall_congr' fun i => forall_congr' fun item => forall_congr' fun _ => ?_
  rw [Ne, handleItem_raised, not_exists]
  exact forall_congr' fun k => by rw [not_and, Bool.not_eq_true]

/-- What is past its retention at the end of a pass was settled before the pass. -/
theorem InLease.retention (h : InLease settings claimedAt input) (n : Attempts) (i : Nat) :
    input.purgedAt - days n.val ≤ input.settledAt i := by
  have hdays : seconds settings.leaseSeconds.val ≤ days n.val := by
    have hlease := settings.leaseSeconds.property.2
    have hn := n.property
    simp only [days, seconds]
    omega
  exact Nat.sub_le_of_le_add (calc
    input.purgedAt ≤ claimedAt + seconds settings.leaseSeconds.val := Nat.le_of_lt h.purged
    _ ≤ input.settledAt i + days n.val := Nat.add_le_add (h.begun i) hdays)

/-- A settlement of the pass is within its retention. -/
theorem InLease.not_retired (h : InLease settings claimedAt input) {i : Nat} {r r' : Row}
    (hsettled : SettledBy (input.settledAt i) r r') :
    ¬ SyncQueueRepository.Retired (input.purgedAt - days settings.succeededRetentionDays.val)
      (input.purgedAt - days settings.deadLetterRetentionDays.val) r' := by
  have hsucceeded := h.retention settings.succeededRetentionDays i
  have hdead := h.retention settings.deadLetterRetentionDays i
  rintro (⟨hdone, hpast⟩ | ⟨hstate, hpast⟩)
  · have hstate : r'.state = .succeeded := by
      rcases hdone with hd | hd
      · exact hd
      · rcases hsettled.state with hs | hs | hs <;> rw [hs] at hd <;> cases hd
    rw [hsettled.completedAt hstate] at hpast
    rw [Option.any_some, decide_eq_true_eq] at hpast
    exact Nat.not_lt_of_le hsucceeded hpast
  · rw [hsettled.failedAt hstate] at hpast
    rw [Option.any_some, decide_eq_true_eq] at hpast
    exact Nat.not_lt_of_le hdead hpast

/-- A pass whose loop returns ends with the purge. -/
theorem flushOnce_returned (hrecord : SessionRepository.getRecord db = some record)
    (hclaim : (Op.claim claimedAt token owner limit (keyFilter record)
      settings.leaseSeconds.val).run db = (db', .rows rows)) {counts : FlushCounts}
    (h : (flushItems settings record input 0 (rows.map (Item.ofRow token owner))
      ⟨(rows.map (Item.ofRow token owner)).length, 0, 0, 0⟩ db').2 = .returned counts) :
    (flushOnce settings claimedAt token owner limit input db).1.syncQueue =
      SyncQueueRepository.purgeQueue input.purgedAt settings.succeededRetentionDays.val
        settings.deadLetterRetentionDays.val
        (flushItems settings record input 0 (rows.map (Item.ofRow token owner))
          ⟨(rows.map (Item.ofRow token owner)).length, 0, 0, 0⟩ db').1.syncQueue := by
  simp only [flushOnce, hrecord, hclaim]
  split
  · rename_i heq
    rw [heq]
    rfl
  · rename_i heq
    rw [heq] at h
    cases h

/-- A pass whose loop raises ends with the loop. -/
theorem flushOnce_raised (hrecord : SessionRepository.getRecord db = some record)
    (hclaim : (Op.claim claimedAt token owner limit (keyFilter record)
      settings.leaseSeconds.val).run db = (db', .rows rows))
    (h : (flushItems settings record input 0 (rows.map (Item.ofRow token owner))
      ⟨(rows.map (Item.ofRow token owner)).length, 0, 0, 0⟩ db').2 = .raised) :
    (flushOnce settings claimedAt token owner limit input db).1 =
      (flushItems settings record input 0 (rows.map (Item.ofRow token owner))
        ⟨(rows.map (Item.ofRow token owner)).length, 0, 0, 0⟩ db').1 := by
  simp only [flushOnce, hrecord, hclaim]
  split
  · rename_i heq
    rw [heq] at h
    cases h
  · rename_i heq
    rw [heq]

/-- The claimed rows and the whole queue before the purge, when no handling raised. -/
structure BeforePurge (settings : Settings) (now : Timestamp) (rows q q' : List Row) : Prop where
  links : q'.map links = q.map links
  candidates : SyncQueueRepository.purgeCandidates
      (now - days settings.succeededRetentionDays.val)
      (now - days settings.deadLetterRetentionDays.val) q' =
    SyncQueueRepository.purgeCandidates (now - days settings.succeededRetentionDays.val)
      (now - days settings.deadLetterRetentionDays.val) q
  unique : UniqueOn Row.id q'
  settled : ∀ r ∈ rows, ∃ r' ∈ q', r'.id = r.id ∧ r'.dependsOnId = r.dependsOnId ∧
    r'.claimToken = none ∧ SettledState r'

/-- The loop settles the claimed rows and changes nothing that the purge looks at. -/
theorem beforePurge (hq : UniqueOn Row.id db.syncQueue)
    (hfresh : ∀ r ∈ db.syncQueue, r.claimToken ≠ some token)
    (hclaim : (Op.claim claimedAt token owner limit (keyFilter record)
      settings.leaseSeconds.val).run db = (db', .rows rows))
    (hlease : InLease settings claimedAt input)
    (hno : Contained settings record input (rows.map (Item.ofRow token owner)))
    (counts : FlushCounts) :
    ∃ counts' db'', flushItems settings record input 0 (rows.map (Item.ofRow token owner))
        counts db' = (db'', .returned counts') ∧
      BeforePurge settings input.purgedAt rows db.syncQueue db''.syncQueue := by
  have hrun : SyncQueueRepository.claimRows claimedAt token owner limit (keyFilter record)
      settings.leaseSeconds.val db.syncQueue = (db'.syncQueue, rows) := by
    have h := claim_run (congrArg Prod.snd hclaim)
    rwa [hclaim] at h
  obtain ⟨hq', -, hreturned⟩ := claimRows_returned hq hfresh hrun
  have hheld := claim_held hq hfresh hrun
  have hids : (rows.map (Item.ofRow token owner)).map Item.id = rows.map Row.id := by
    rw [List.map_map]
    rfl
  obtain ⟨counts', g, hend, hmap, hg⟩ := flushItems_settled (j := 0) hlease.settled
    (by simpa only [Nat.zero_add] using contained_iff.mp hno) hheld hq' counts
  rw [hids] at hg
  refine ⟨counts', _, Prod.ext rfl hend, ?_⟩
  obtain ⟨g₁, hg₁, hclaimed⟩ := claim_map claimedAt token owner limit (keyFilter record)
    settings.leaseSeconds.val db.syncQueue
  replace hg₁ : db'.syncQueue = db.syncQueue.map g₁ := (congrArg Prod.fst hrun).symm.trans hg₁
  -- a row of the batch is leased, so it was neither done nor a dead letter before the pass
  have hnot : ∀ r ∈ db.syncQueue, Settled r → r.id ∉ rows.map Row.id := by
    intro r hr hsettled hmem
    obtain ⟨t, ht, hid⟩ := List.mem_map.mp hmem
    have hsame : r ∈ db'.syncQueue := by
      rw [hg₁]
      exact List.mem_map.mpr ⟨r, hr, (hclaimed r).2.2.2.1 hsettled⟩
    rw [hq'.eq hsame ((hreturned t).mp ht).1 hid.symm] at hsettled
    obtain ⟨_, -, -, rfl⟩ := claim_ready hq hfresh hrun t ht
    rcases hsettled with (h | h) | h <;> cases h
  have hfinal : (flushItems settings record input 0 (rows.map (Item.ofRow token owner)) counts
      db').1.syncQueue = db.syncQueue.map fun r => g (g₁ r) := by
    rw [hmap, hg₁, List.map_map]
    rfl
  have hlinks : ∀ r, links (g r) = links r := fun r => by
    by_cases hmem : r.id ∈ rows.map Row.id
    · obtain ⟨i, hs⟩ := (hg r).2 hmem
      simp only [links, hs.id, hs.predecessorId, hs.dependsOnId]
    · rw [(hg r).1 hmem]
  have hids₁ : ∀ r, (g₁ r).id = r.id := fun r => (hclaimed r).1
  refine ⟨?_, ?_, ?_, fun r hr => ?_⟩
  · rw [hfinal, List.map_map]
    refine List.map_congr_left fun r _ => ?_
    obtain ⟨h1, h2, h3, -⟩ := hclaimed r
    simp only [Function.comp_apply, hlinks]
    simp only [links, h1, h2, h3]
  · rw [hfinal]
    unfold SyncQueueRepository.purgeCandidates
    rw [filter_map_of_fixed]
    · intro r hr hretired
      have hsettled := retired_settled hretired
      rw [(hclaimed r).2.2.2.1 hsettled, (hg r).1 (hnot r hr hsettled)]
    · intro r hr hret hretired
      by_cases hmem : (g₁ r).id ∈ rows.map Row.id
      · obtain ⟨i, hs⟩ := (hg (g₁ r)).2 hmem
        exact hlease.not_retired hs hretired
      · rw [(hg (g₁ r)).1 hmem] at hretired
        by_cases hsettled : Settled r
        · rw [(hclaimed r).2.2.2.1 hsettled] at hretired
          exact hret hretired
        · exact (hclaimed r).2.2.2.2 hsettled (retired_settled hretired)
  · have hsame : (db'.syncQueue.map g).map Row.id = db'.syncQueue.map Row.id := by
      rw [List.map_map]
      exact List.map_congr_left fun r _ => congrArg Prod.fst (hlinks r)
    rw [hmap, UniqueOn, hsame]
    exact hq'
  · have hmem := List.mem_map_of_mem (f := Row.id) hr
    obtain ⟨i, hs⟩ := (hg r).2 hmem
    exact ⟨g r, hmap ▸ List.mem_map_of_mem ((hreturned r).mp hr).1, hs.id, hs.dependsOnId,
      hs.unleased, hs.state⟩

/-- A claimed row is not among the candidates of the purge, and it does not depend on a cancelled
one. -/
theorem claimed_candidates (hq : UniqueOn Row.id db.syncQueue)
    (hfresh : ∀ r ∈ db.syncQueue, r.claimToken ≠ some token)
    (hclaim : (Op.claim claimedAt token owner limit (keyFilter record)
      settings.leaseSeconds.val).run db = (db', .rows rows))
    {succeededBefore deadBefore : Timestamp} {r : Row} (hr : r ∈ rows) {c : Uuid × QueueState}
    (hc : c ∈ SyncQueueRepository.purgeCandidates succeededBefore deadBefore db.syncQueue) :
    r.id ≠ c.1 ∧ (c.2 = .cancelled → r.dependsOnId ≠ some c.1) := by
  have hrun := claim_run (congrArg Prod.snd hclaim)
  obtain ⟨s, hs, hready, rfl⟩ := claim_ready hq hfresh hrun r hr
  obtain ⟨t, ht, hsettled, rfl⟩ := purgeCandidates_mem hc
  have hswept : t ∈ SyncQueueRepository.sweep claimedAt db.syncQueue := by
    refine mem_updateWhere.mpr ⟨t, ht, if_neg fun hexp => ?_⟩
    rcases hsettled with (h | h) | h <;> rw [hexp.1] at h <;> cases h
  have hunique := sweep_unique hq claimedAt
  refine ⟨fun hid => ?_, fun hcancelled hlink => ?_⟩
  · have hsame : s = t := hunique.eq hs hswept hid
    rcases hready.1 with hw | hw <;> rcases hsettled with (h | h) | h <;>
      rw [← hsame, hw] at h <;> cases h
  · rcases hready.2.2.2.2 with hnone | ⟨d, hd, hdep, hsucceeded⟩
    · cases hlink.symm.trans hnone
    · have hid : some t.id = some d.id := hlink.symm.trans hdep
      rw [← hunique.eq hswept hd (Option.some.inj hid)] at hsucceeded
      cases hsucceeded.symm.trans hcancelled

/-- What a pass leaves of its claim. When the leases do not expire during the pass, it settles
every claimed row if and only if no attempt that it makes escapes the client and its purge
finds no claimed row hanging on an expired dead letter. -/
theorem flush_settles {s : Store} (h : Reachable storeMachine Any s)
    (hrecord : SessionRepository.getRecord s.db = some record)
    (hadmits : s.Admits (.claim claimedAt token owner limit (keyFilter record)
      settings.leaseSeconds.val))
    (hclaim : ((Op.claim claimedAt token owner limit (keyFilter record)
      settings.leaseSeconds.val).run s.db).2 = .rows rows)
    (hlease : InLease settings claimedAt input) :
    PassSettles token rows
        (flushOnce settings claimedAt token owner limit input s.db).1.syncQueue ↔
      Contained settings record input (rows.map (Item.ofRow token owner)) ∧
        ∀ r ∈ rows, Spared settings input.purgedAt s.db.syncQueue r.id := by
  have hq := (keyed_reachable h).unique
  have hfresh := claim_fresh (tokensIssued_reachable h) hadmits
  cases hrun : (Op.claim claimedAt token owner limit (keyFilter record)
    settings.leaseSeconds.val).run s.db with | mk db' reply =>
  rw [hrun] at hclaim
  obtain rfl : reply = .rows rows := hclaim
  by_cases hno : Contained settings record input (rows.map (Item.ofRow token owner))
  · obtain ⟨counts, db'', hflush, hbefore⟩ := beforePurge hq hfresh hrun hlease hno
      ⟨(rows.map (Item.ofRow token owner)).length, 0, 0, 0⟩
    rw [flushOnce_returned hrecord hrun (by rw [hflush]), hflush, SyncQueueRepository.purgeQueue,
      hbefore.candidates]
    have hsame : ∀ (c : Uuid × QueueState) (before : List (Uuid × QueueState)),
        descendantIds c.1 (before.foldl (purgeCandidate input.purgedAt) db''.syncQueue) =
          descendantIds c.1 (before.foldl (purgeCandidate input.purgedAt) s.db.syncQueue) :=
      fun c before => by
        rw [descendantIds_links, descendantIds_links, purge_links hbefore.links]
    have hnot : ∀ r', SettledState r' → r'.state ≠ .inflight := by
      rintro r' (hs | hs | hs) <;> rw [hs] <;> nofun
    have hunique : UniqueOn Row.id (SyncQueueRepository.purgeQueue input.purgedAt
        settings.succeededRetentionDays.val settings.deadLetterRetentionDays.val
        db''.syncQueue) :=
      @Statements.unique (fun _ _ => True) (fun _ => False) _ _
        (purgeQueue_statements _ _ (fun _ => trivial) (fun _ => trivial) fun _ => trivial)
        hbefore.unique
    rw [SyncQueueRepository.purgeQueue, hbefore.candidates] at hunique
    refine ⟨fun hpass => ⟨hno, fun r hr before c after hcs hdead hmem => ?_⟩,
      fun hspared => ?_⟩
    · -- a row that hangs on an expired dead letter ends up cancelled
      obtain ⟨r', hr', hid, hdep, -, hstate⟩ := hbefore.settled r hr
      rw [← hid, ← hsame] at hmem
      obtain ⟨t, ht, htid, hcancelled⟩ := purge_withdraws hr'
        (fun c' hc' => hid ▸ (claimed_candidates hq hfresh hrun hr hc').1) (hnot r' hstate) hcs
        hdead hmem
      obtain ⟨t', ht', htid', hsettled⟩ := hpass.settled r hr
      rw [hunique.eq ht' ht (htid'.trans (hid.symm.trans htid.symm))] at hsettled
      rcases hsettled with hs | hs | hs <;> rw [hcancelled] at hs <;> cases hs
    · have hsettled : ∀ r ∈ rows, ∃ r' ∈ (SyncQueueRepository.purgeCandidates
          (input.purgedAt - days settings.succeededRetentionDays.val)
          (input.purgedAt - days settings.deadLetterRetentionDays.val) s.db.syncQueue).foldl
            (purgeCandidate input.purgedAt) db''.syncQueue, r'.id = r.id ∧ SettledState r' := by
        intro r hr
        obtain ⟨r', hr', hid, hdep, -, hstate⟩ := hbefore.settled r hr
        obtain ⟨t, ht, htid, htstate⟩ := purge_spares hr'
          (fun c' hc' => hid ▸ (claimed_candidates hq hfresh hrun hr hc').1)
          (fun c' hc' => hdep ▸ (claimed_candidates hq hfresh hrun hr hc').2)
          (fun before c after hcs hdead => by
            rw [hid, hsame]
            exact hspared.2 r hr before c after hcs hdead)
        exact ⟨t, ht, htid.trans hid, by rw [SettledState, htstate]; exact hstate⟩
      refine ⟨fun t ht hmem hleased => ?_, hsettled⟩
      obtain ⟨r, hr, hid⟩ := List.mem_map.mp hmem
      obtain ⟨r', hr', hid', hstate⟩ := hsettled r hr
      rw [hunique.eq hr' ht (hid'.trans hid)] at hstate
      exact hnot t hstate hleased.1
  · refine iff_of_false (fun hpass => ?_) fun h => hno h.1
    -- some handling raises, and it leaves its row leased
    have hraised : ∃ i item, (rows.map (Item.ofRow token owner))[i]? = some item ∧
        handleItem settings record item (input.outcomes (0 + i)) = .raised := by
      rw [contained_iff] at hno
      simp only [not_forall, not_not] at hno
      obtain ⟨i, item, hi, heq⟩ := hno
      exact ⟨i, item, hi, by rwa [Nat.zero_add]⟩
    have hclaimRows := claim_run (congrArg Prod.snd hrun)
    rw [hrun] at hclaimRows
    obtain ⟨hq', -, -⟩ := claimRows_returned hq hfresh hclaimRows
    obtain ⟨hend, item, hitem, r, hr, hheld⟩ := flushItems_raised hlease.settled hraised
      (claim_held hq hfresh hclaimRows) hq' ⟨(rows.map (Item.ofRow token owner)).length, 0, 0, 0⟩
    rw [← flushOnce_raised hrecord hrun hend] at hr
    obtain ⟨t, ht, rfl⟩ := List.mem_map.mp hitem
    exact hpass.unleased r hr (List.mem_map.mpr ⟨t, ht, hheld.id.symm⟩)
      ⟨hheld.state, hheld.token⟩

end Pass

/-! ### One camera in a pass -/

/-- A user is logged in, and a camera was created. -/
def cameraRun : List Op :=
  [.save 0 ⟨1, 2, none, 1000000000, some 3, none⟩ none,
    .createCamera 0 4 5 ⟨"gate", "rtsp://gate", .rtsp, none, [], []⟩ 1 defaultMaxAttempts]

/-- The record that the pass reads. -/
def passRecord : SessionRecord := ⟨⟨1, 2, none, 1000000000, some 3, none⟩, none, 1, .active, none⟩

/-- The batch of a pass over the camera. -/
def claimedCamera : List Row :=
  (SyncQueueRepository.claimRows 0 6 "worker" 100 none 60
    (storeMachine.final .empty cameraRun).db.syncQueue).2

/-- Every attempt ends like this, at the time of the claim. -/
def passInput (outcome : AttemptOutcome) : PassInput := ⟨fun _ => 0, fun _ _ => outcome, 0⟩

/-- The pass over the camera keeps its lease. -/
theorem passInput_inLease (outcome : AttemptOutcome) :
    InLease defaultSettings 0 (passInput outcome) :=
  ⟨fun _ => Nat.le_refl _, fun _ => show (0 : Nat) < 0 + seconds 60 by decide,
    show (0 : Nat) < 0 + seconds 60 by decide⟩

/-- A pass in which the request of a camera times out. -/
theorem flush_settles_timeout :
    PassSettles 6 claimedCamera (flushOnce defaultSettings 0 6 "worker" 100
      (passInput (.raised .timeout)) (storeMachine.final .empty cameraRun).db).1.syncQueue :=
  (flush_settles (.final .init cameraRun (by decide))
    (rfl : SessionRepository.getRecord _ = some passRecord) (by decide) rfl
    (passInput_inLease _)).mpr
    ⟨fun _ _ _ _ _ => rfl, fun _ _ before c after hcs => by
      have hnone : SyncQueueRepository.purgeCandidates (0 - days 7) (0 - days 30)
        (storeMachine.final .empty cameraRun).db.syncQueue = [] := by decide
      cases before <;> cases hnone.symm.trans hcs⟩

/-- When the central side closes the connection in the middle of a response, the pass leaves
the camera's row leased. -/
theorem protocol_error_strands :
    Reachable storeMachine Any (storeMachine.final .empty cameraRun) ∧
      InLease defaultSettings 0 (passInput (.raised .protocol)) ∧
      ¬ PassSettles 6 claimedCamera (flushOnce defaultSettings 0 6 "worker" 100
        (passInput (.raised .protocol)) (storeMachine.final .empty cameraRun).db).1.syncQueue := by
  refine ⟨.final .init cameraRun (by decide), passInput_inLease _, fun h => ?_⟩
  have hleased : ∃ r ∈ (flushOnce defaultSettings 0 6 "worker" 100
      (passInput (.raised .protocol)) (storeMachine.final .empty cameraRun).db).1.syncQueue,
      r.id ∈ claimedCamera.map Row.id ∧ r.state = .inflight ∧ r.claimToken = some 6 := by decide
  obtain ⟨r, hr, hmem, hinflight⟩ := hleased
  exact h.unleased r hr hmem hinflight

end Rsap.Proofs
