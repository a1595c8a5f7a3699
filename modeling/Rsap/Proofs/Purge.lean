import Rsap.Proofs.Leases

/-!
# `Rsap.Proofs.Purge`: the turns of the purge

The purge handles its candidates one after another. `turnRow` is what one turn makes of a row
that it does not remove: it withdraws the row, or keeps its state, and cuts its links to the
candidate (`purgeCandidate_eq`). The links of the rows alone decide what hangs on what
(`descendantIds_links`), and no turn reads anything else of the other rows, so two queues with
the same links go through the same turns (`purge_links`).

A row that no turn removes keeps its state when it hangs on no expired dead letter
(`purge_spares`), and is withdrawn when it does (`purge_withdraws`).
-/

set_option autoImplicit false

namespace Rsap.Proofs

open Rsap.Library
open Rsap.Library.Machine (Reachable Any)
open Rsap.Desktop
open SyncQueueRepository (purgeCandidate descendantIds)

/-- The row is done or a dead letter. -/
abbrev Settled (r : Row) : Prop := r.Done ∨ r.state = .deadLetter

/-- A row past its retention is settled. -/
theorem retired_settled {succeededBefore deadBefore : Timestamp} {r : Row}
    (h : SyncQueueRepository.Retired succeededBefore deadBefore r) : Settled r :=
  h.imp And.left And.left

/-- The candidates of the purge are settled rows of the queue. -/
theorem purgeCandidates_mem {succeededBefore deadBefore : Timestamp} {q : List Row}
    {c : Uuid × QueueState}
    (h : c ∈ SyncQueueRepository.purgeCandidates succeededBefore deadBefore q) :
    ∃ r ∈ q, Settled r ∧ c = (r.id, r.state) := by
  obtain ⟨r, hr, rfl⟩ := List.mem_map.mp h
  obtain ⟨hmem, hretired⟩ := List.mem_filter.mp ((List.mem_insertionSort _).mp hr)
  exact ⟨r, hmem, retired_settled (of_decide_eq_true hretired), rfl⟩

/-! ### One turn -/

/-- A link without the item. -/
def cut (itemId : Uuid) (link : Option Uuid) : Option Uuid :=
  if link = some itemId then none else link

/-- The turn of the candidate withdraws the row. -/
def WithdrawnBy (q : List Row) (c : Uuid × QueueState) (r : Row) : Prop :=
  r.state ≠ .inflight ∧ ((c.2 = .deadLetter ∧ r.id ∈ descendantIds c.1 q) ∨
    (c.2 = .cancelled ∧ r.dependsOnId = some c.1))

instance (q : List Row) (c : Uuid × QueueState) (r : Row) : Decidable (WithdrawnBy q c r) :=
  inferInstanceAs (Decidable (_ ∧ _))

/-- What the turn of the candidate makes of a row. -/
def turnRow (now : Timestamp) (q : List Row) (c : Uuid × QueueState) (r : Row) : Row :=
  { if WithdrawnBy q c r then SyncQueueRepository.withdrawRow now r else r with
      predecessorId := cut c.1 r.predecessorId
      dependsOnId := cut c.1 r.dependsOnId }

section Turn
variable {now : Timestamp} {q : List Row} {c : Uuid × QueueState} {r : Row}

/-- A turn rewrites every row and removes the candidate. -/
theorem purgeCandidate_eq (now : Timestamp) (q : List Row) (c : Uuid × QueueState) :
    purgeCandidate now q c = deleteWhere (fun r => r.id = c.1) (q.map (turnRow now q c)) := by
  have hwithdraw : SyncQueueRepository.withdrawFor now c.1 c.2 q = q.map fun r =>
      if WithdrawnBy q c r then SyncQueueRepository.withdrawRow now r else r := by
    unfold SyncQueueRepository.withdrawFor
    split
    · rename_i hstate
      exact List.map_congr_left fun r _ => by simp [WithdrawnBy, hstate, and_comm]
    · rename_i hstate
      exact List.map_congr_left fun r _ => by simp [WithdrawnBy, hstate, and_comm]
    · rename_i hdead hcancelled
      conv_lhs => rw [← List.map_id q]
      refine List.map_congr_left fun r _ => (if_neg ?_).symm
      rintro ⟨-, ⟨h, -⟩ | ⟨h, -⟩⟩
      · exact hdead h
      · exact hcancelled h
  rw [purgeCandidate, hwithdraw, SyncQueueRepository.unlink, updateWhere, updateWhere,
    List.map_map, List.map_map]
  congr 1
  refine List.map_congr_left fun r _ => ?_
  by_cases hw : WithdrawnBy q c r <;> by_cases hp : r.predecessorId = some c.1 <;>
    by_cases hd : r.dependsOnId = some c.1 <;>
    simp [turnRow, cut, SyncQueueRepository.withdrawRow, hw, hp, hd]

/-- A turn keeps the columns that name a row and say what it sends. -/
theorem turnRow_fixed (now : Timestamp) (q : List Row) (c : Uuid × QueueState) (r : Row) :
    (turnRow now q c r).id = r.id ∧ (turnRow now q c r).logicalKey = r.logicalKey ∧
      (turnRow now q c r).payload = r.payload ∧
      (turnRow now q c r).lastAttemptAt = r.lastAttemptAt := by
  unfold turnRow
  split <;> exact ⟨rfl, rfl, rfl, rfl⟩

/-- A turn keeps the state of a row that it does not withdraw. -/
theorem turnRow_state (now : Timestamp) (q : List Row) (c : Uuid × QueueState) (r : Row) :
    (turnRow now q c r).state = if WithdrawnBy q c r then .cancelled else r.state := by
  unfold turnRow
  split <;> rfl

/-- The rows after a turn. -/
theorem mem_purgeCandidate {r' : Row} : r' ∈ purgeCandidate now q c ↔
    ∃ r ∈ q, r.id ≠ c.1 ∧ turnRow now q c r = r' := by
  rw [purgeCandidate_eq, mem_deleteWhere, List.mem_map]
  constructor
  · rintro ⟨⟨r, hr, rfl⟩, hid⟩
    exact ⟨r, hr, fun h => hid ((turnRow_fixed now q c r).1.trans h), rfl⟩
  · rintro ⟨r, hr, hid, rfl⟩
    exact ⟨⟨r, hr, rfl⟩, fun h => hid ((turnRow_fixed now q c r).1.symm.trans h)⟩

end Turn

/-! ### The links -/

/-- The columns of a row that the purge follows: its name and its two links. -/
def links (r : Row) : Uuid × Option Uuid × Option Uuid := (r.id, r.predecessorId, r.dependsOnId)

section Purge
variable {now : Timestamp} {q : List Row} {r : Row} {c : Uuid × QueueState}
  {cs : List (Uuid × QueueState)}

/-- What hangs on an item is read off the links. -/
theorem descendantIds_links (itemId : Uuid) (q : List Row) :
    descendantIds itemId q = descendants Prod.fst
      (fun k l => decide (l.2.1 = some k ∨ l.2.2 = some k)) (q.map links) itemId := by
  rw [descendants_map]
  rfl

/-- A turn cuts the links to the item and removes it. -/
theorem purgeCandidate_links (now : Timestamp) (q : List Row) (c : Uuid × QueueState) :
    (purgeCandidate now q c).map links =
      ((q.map links).map fun l => (l.1, cut c.1 l.2.1, cut c.1 l.2.2)).filter
        fun l => l.1 ≠ c.1 := by
  have hturn : ∀ r, links (turnRow now q c r) =
      ((links r).1, cut c.1 (links r).2.1, cut c.1 (links r).2.2) := fun r => by
    simp only [links, (turnRow_fixed now q c r).1]
    rfl
  have hmap : (q.map links).map (fun l => (l.1, cut c.1 l.2.1, cut c.1 l.2.2)) =
      (q.map (turnRow now q c)).map links := by
    rw [List.map_map, List.map_map]
    exact List.map_congr_left fun r _ => (hturn r).symm
  rw [purgeCandidate_eq, hmap, List.filter_map]
  congr 1

/-- Two queues with the same links have the same links after the same turns. -/
theorem purge_links {q' : List Row} (h : q'.map links = q.map links)
    (cs : List (Uuid × QueueState)) :
    (cs.foldl (purgeCandidate now) q').map links = (cs.foldl (purgeCandidate now) q).map links := by
  induction cs generalizing q q' with
  | nil => exact h
  | cons c cs ih => exact ih (by rw [purgeCandidate_links, purgeCandidate_links, h])

/-! ### The fate of a row -/

/-- A row that no turn removes is withdrawn or keeps its state. -/
theorem purge_row (now : Timestamp) (cs : List (Uuid × QueueState)) (hr : r ∈ q)
    (hid : ∀ c ∈ cs, r.id ≠ c.1)
    (hstate : r.state ≠ .inflight) : ∃ r' ∈ cs.foldl (purgeCandidate now) q, r'.id = r.id ∧
      (r'.state = r.state ∨ r'.state = .cancelled) := by
  -- the candidates are taken in turn, and the row is none of them
  induction cs generalizing q r with
  | nil => exact ⟨r, hr, rfl, .inl rfl⟩
  | cons c cs ih =>
    have hid₁ := (turnRow_fixed now q c r).1
    have hcases : (turnRow now q c r).state = r.state ∨
        (turnRow now q c r).state = .cancelled := by
      rw [turnRow_state]
      split
      · exact .inr rfl
      · exact .inl rfl
    obtain ⟨r', hr', hid', hstate'⟩ := ih
      (mem_purgeCandidate.mpr ⟨r, hr, hid c List.mem_cons_self, rfl⟩)
      (fun c hc => hid₁ ▸ hid c (List.mem_cons_of_mem _ hc)) (by
        rcases hcases with h | h <;> rw [h]
        · exact hstate
        · nofun)
    refine ⟨r', hr', hid'.trans hid₁, ?_⟩
    rcases hstate' with h | h
    · rw [h]
      exact hcases
    · exact .inr h

/-- The purge spares a row that hangs on no expired dead letter and depends on no cancelled
candidate. -/
theorem purge_spares (hr : r ∈ q) (hid : ∀ c ∈ cs, r.id ≠ c.1)
    (hdep : ∀ c ∈ cs, c.2 = .cancelled → r.dependsOnId ≠ some c.1)
    (hspared : ∀ before c after, cs = before ++ c :: after → c.2 = .deadLetter →
      r.id ∉ descendantIds c.1 (before.foldl (purgeCandidate now) q)) :
    ∃ r' ∈ cs.foldl (purgeCandidate now) q, r'.id = r.id ∧ r'.state = r.state := by
  -- no turn withdraws the row, as none reaches it
  induction cs generalizing q r with
  | nil => exact ⟨r, hr, rfl, rfl⟩
  | cons c cs ih =>
    have hid₁ := (turnRow_fixed now q c r).1
    have hstate₁ : (turnRow now q c r).state = r.state := by
      rw [turnRow_state, if_neg]
      rintro ⟨-, ⟨hdead, hmem⟩ | ⟨hcancelled, hlink⟩⟩
      · exact hspared [] c cs rfl hdead hmem
      · exact hdep c List.mem_cons_self hcancelled hlink
    obtain ⟨r', hr', hid', hstate'⟩ := ih
      (mem_purgeCandidate.mpr ⟨r, hr, hid c List.mem_cons_self, rfl⟩)
      (fun c hc => hid₁ ▸ hid c (List.mem_cons_of_mem _ hc))
      (fun c' hc' hcancelled hlink => by
        refine hdep c' (List.mem_cons_of_mem _ hc') hcancelled ?_
        -- a link that is left after the cut was there before
        have hcut : cut c.1 r.dependsOnId = some c'.1 := hlink
        unfold cut at hcut
        split at hcut
        · cases hcut
        · exact hcut)
      (fun before c' after hcs hdead => by
        rw [hid₁]
        exact hspared (c :: before) c' after (by rw [hcs]; rfl) hdead)
    exact ⟨r', hr', hid'.trans hid₁, hstate'.trans hstate₁⟩

/-- The purge withdraws a row that hangs on an expired dead letter at its turn. -/
theorem purge_withdraws (hr : r ∈ q) (hid : ∀ c ∈ cs, r.id ≠ c.1) (hstate : r.state ≠ .inflight)
    {before after : List (Uuid × QueueState)} (hcs : cs = before ++ c :: after)
    (hdead : c.2 = .deadLetter)
    (hmem : r.id ∈ descendantIds c.1 (before.foldl (purgeCandidate now) q)) :
    ∃ r' ∈ cs.foldl (purgeCandidate now) q, r'.id = r.id ∧ r'.state = .cancelled := by
  subst hcs
  rw [List.foldl_append, List.foldl_cons]
  obtain ⟨r₁, hr₁, hid₁, hstate₁⟩ := purge_row now before hr
    (fun c hc => hid c (List.mem_append_left _ hc)) hstate
  generalize before.foldl (purgeCandidate now) q = q₁ at hmem hr₁
  have hid₂ : ∀ c' ∈ c :: after, r₁.id ≠ c'.1 := fun c' hc' =>
    hid₁ ▸ hid c' (List.mem_append_right _ hc')
  have hne : r₁.state ≠ .inflight := by
    rcases hstate₁ with h | h <;> rw [h]
    · exact hstate
    · nofun
  have hturn := (turnRow_fixed now q₁ c r₁).1
  -- the turn of its ancestor withdraws the row, and the later turns leave it cancelled
  have hstate₂ : (turnRow now q₁ c r₁).state = .cancelled := by
    rw [turnRow_state, if_pos ⟨hne, .inl ⟨hdead, hid₁ ▸ hmem⟩⟩]
  obtain ⟨r', hr', hid', hstate'⟩ := purge_row now after
    (mem_purgeCandidate.mpr ⟨r₁, hr₁, hid₂ c List.mem_cons_self, rfl⟩)
    (fun c' hc' => hturn ▸ hid₂ c' (List.mem_cons_of_mem _ hc')) (by rw [hstate₂]; nofun)
  refine ⟨r', hr', hid'.trans (hturn.trans hid₁), ?_⟩
  rcases hstate' with h | h
  · rw [h, hstate₂]
  · exact h

end Purge

end Rsap.Proofs
