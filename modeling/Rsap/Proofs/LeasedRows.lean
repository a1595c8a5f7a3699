import Rsap.Proofs.Attempts
import Rsap.Proofs.Chains

/-!
# `Rsap.Proofs.LeasedRows`: a row that was leased is not rewritten

Only `_enqueue` rewrites what a row holds, and it rewrites a pending row without a
`last_attempt_at`. Every lease sets this column and nothing clears it: `Dated` says that the column
tells whether the log has a lease of the row. `Frozen` is what holds of such a row along every run.

A mutation of the same key goes to another row. As long as the leased row is there this row has a
larger version, since the latest row of the key has. After the purge of all rows of a key versions
start again at one (`version_restarts`).
-/

set_option autoImplicit false

namespace Rsap.Proofs

open Rsap.Library
open Rsap.Library.Machine (Reachable Path Any)
open Rsap.Desktop

/-- A row with a lease in the log has its `last_attempt_at`. -/
def Dated (s : Store) : Prop :=
  ∀ r ∈ s.db.syncQueue, leasesOf r.id s.log ≠ [] → r.lastAttemptAt ≠ none

/-- No change but a lease touches `last_attempt_at`. -/
theorem unleasing_lastAttempt {db : Db} {op : Op} {r₀ r : Row}
    (h : Relation.ReflTransGen (RowStep (Unleasing db op)) r₀ r) :
    r.lastAttemptAt = r₀.lastAttemptAt := by
  refine rowSteps_keep (P := fun r => r.lastAttemptAt = r₀.lastAttemptAt) ?_ h rfl
  intro r c hmay _ ih
  cases c with
  | lease => cases hmay.2
  | coalesce | release | succeed | fail | cancel | withdraw | retry | unlinkPredecessor
    | unlinkDependency => exact ih

/-- A lease in the log is the lease of an issued row. -/
theorem leasesOf_issued {s : Store} (h : Reachable storeMachine Any s) {id : Uuid}
    (hleased : leasesOf id s.log ≠ []) : id ∈ s.issued := by
  obtain ⟨⟨token, owner⟩, hmem⟩ := List.exists_mem_of_ne_nil _ hleased
  obtain ⟨e, he, heq⟩ := List.mem_filterMap.mp hmem
  cases e with
  | leased id' t o =>
    simp only at heq
    split at heq
    · rename_i hid
      subst hid
      exact leased_issued h id' t o he
    · cases heq
  | settled | retried => cases heq

/-- Leased rows are dated in every reachable store. -/
theorem dated_reachable {s : Store} (h : Reachable storeMachine Any s) : Dated s := by
  refine h.invariant (I := Dated) (fun _ hr => absurd hr List.not_mem_nil) ?_
  intro s op s' hreach _ hstep ih r' hr' hleased
  have hkeyed := keyed_reachable hreach
  obtain ⟨r₀, r, hr₀, hsteps, hlogged⟩ :=
    lease_step hkeyed (tokensIssued_reachable hreach) hstep r' hr'
  obtain ⟨hadmits, rfl⟩ := store_step hstep
  rcases hlogged with ⟨hnone, rfl⟩ | ⟨now, expires, token, owner, -, -, -, rfl⟩
  · rw [leasesOf_append, hnone, List.nil_append, (rowSteps_fixed hsteps).1] at hleased
    rw [unleasing_lastAttempt hsteps]
    rcases hr₀ with hold | ⟨e, _, _, he, rfl⟩
    · exact ih r₀ hold hleased
    · -- the id of a new row was not issued before
      exact absurd (leasesOf_issued hreach hleased) (hadmits.2 _ (enqueueOf_uuid he))
  · exact fun hnone => (by cases hnone)

/-- The row was leased, and it holds what it held when `r` was read. -/
structure Frozen (r : Row) (s : Store) : Prop where
  keyed : Keyed s
  versioned : Versioned s.db.syncQueue
  issued : r.id ∈ s.issued
  row : ∀ r' ∈ s.db.syncQueue, r'.id = r.id → r'.endpoint = r.endpoint ∧
    r'.payload = r.payload ∧ r'.logicalKey = r.logicalKey ∧ r'.version = r.version ∧
      r'.lastAttemptAt ≠ none

/-- Every write keeps the row frozen. -/
theorem frozen_step {r : Row} {s s' : Store} {op : Op} (hstep : storeMachine.step s op = some s')
    (h : Frozen r s) : Frozen r s' where
  keyed := keyed_step hstep h.keyed
  versioned := queue_step h.keyed hstep (fun _ _ hu => hu.versioned)
    (fun e _ => enqueue_versioned e) (fun now _ candidate => purgeCandidate_versioned now candidate)
    h.versioned
  issued := by
    obtain ⟨-, rfl⟩ := store_step hstep
    exact List.mem_append_right _ h.issued
  row := by
    have hadmits := (store_step hstep).1
    refine step_rows h.keyed hstep h.row ?_ ?_
    · rintro _ ⟨e, _, _, he, rfl⟩ hid
      have hfresh := hadmits.2 _ (enqueueOf_uuid he)
      rw [show e.itemId = r.id from hid] at hfresh
      exact absurd h.issued hfresh
    · intro t c _ hguard ih hid
      have hsame := ih ((c.apply_fixed t).1.symm.trans hid)
      cases c with
      | coalesce => exact absurd hguard.2 hsame.2.2.2.2
      | lease => exact ⟨hsame.1, hsame.2.1, hsame.2.2.1, hsame.2.2.2.1, fun h => (by cases h)⟩
      | release | succeed | fail | cancel | withdraw | retry | unlinkPredecessor
        | unlinkDependency => exact hsame

/-- A mutation of the key goes to another row, which has a larger version while the leased row is
there. -/
theorem frozen_enqueue {r : Row} {s : Store} (h : Frozen r s) (e : Enqueue)
    (hnew : e.itemId ∉ s.issued) (hkey : e.logicalKey = r.logicalKey) :
    ∃ stored ∈ (enqueue e s.db.syncQueue).1, stored.id = (enqueue e s.db.syncQueue).2 ∧
      stored.endpoint = e.endpoint ∧ stored.payload = e.payload ∧ stored.id ≠ r.id ∧
        ((∃ r' ∈ s.db.syncQueue, r'.id = r.id) → r.version < stored.version) := by
  have hother : ∀ t ∈ s.db.syncQueue, t.id ≠ e.itemId :=
    fun t ht hid => hnew (hid ▸ h.keyed.issued t ht)
  obtain ⟨stored, hmem, hid⟩ := enqueue_mem e s.db.syncQueue
  obtain ⟨-, -, hendpoint, hpayload⟩ := enqueue_row h.keyed.unique hother hmem hid
  have hne : r.id ≠ e.itemId := fun heq => hnew (heq ▸ h.issued)
  refine ⟨stored, hmem, hid, hendpoint, hpayload, ?_⟩
  unfold enqueue at hmem hid
  split at hmem
  · rename_i latest hlatest
    obtain ⟨hlmem, hlkey⟩ := latestBy_mem hlatest
    simp only [hlatest] at hid
    -- the latest row of the key is at least as late as the leased row
    have hle : ∀ r' ∈ s.db.syncQueue, r'.id = r.id → r.version ≤ latest.version := by
      intro r' hr' hrid
      obtain ⟨-, -, hrkey, hversion, -⟩ := h.row r' hr' hrid
      rw [← hversion]
      exact latestBy_le hlatest hr' (hrkey.trans hkey.symm)
    split at hmem
    · rename_i hfresh
      simp only [if_pos hfresh] at hid
      have hnot : latest.id ≠ r.id :=
        fun heq => (h.row latest hlmem heq).2.2.2.2 hfresh.2
      obtain ⟨t, ht, rfl⟩ := mem_updateWhere.mp hmem
      have htid : t.id = latest.id := by
        split at hid <;> exact hid
      have htl : t = latest := h.keyed.unique.eq ht hlmem htid
      subst htl
      rw [if_pos ⟨rfl, .inl hfresh.1⟩]
      refine ⟨hnot, ?_⟩
      rintro ⟨r', hr', hrid⟩
      obtain ⟨-, -, hrkey, hversion, -⟩ := h.row r' hr' hrid
      refine Nat.lt_of_le_of_ne (hle r' hr' hrid) fun heq => ?_
      have hsame : r' = t := version_inj h.versioned
        (mem_chain.mpr ⟨hr', hrkey⟩) (mem_chain.mpr ⟨hlmem, hlkey.trans hkey⟩) (hversion.trans heq)
      exact hnot (hsame ▸ hrid)
    · rename_i hfresh
      simp only [if_neg hfresh] at hid
      rcases List.mem_append.mp hmem with hold | hlast
      · exact absurd hid (hother stored hold)
      · rw [List.mem_singleton.mp hlast]
        refine ⟨hne.symm, ?_⟩
        rintro ⟨r', hr', hrid⟩
        exact Nat.lt_succ_of_le (hle r' hr' hrid)
  · rename_i hnone
    simp only [hnone] at hid
    rcases List.mem_append.mp hmem with hold | hlast
    · exact absurd hid (hother stored hold)
    · rw [List.mem_singleton.mp hlast]
      refine ⟨hne.symm, ?_⟩
      rintro ⟨r', hr', hrid⟩
      exact absurd ((h.row r' hr' hrid).2.2.1.trans hkey.symm) (latestBy_eq_none.mp hnone r' hr')

/-- Once a row was leased, no write changes its endpoint, payload, key or version. A mutation of
its key that is enqueued later is stored in another row, with a larger version while the leased row
exists. -/
theorem leased_immutable {s t : Store} {r : Row} (hs : Reachable storeMachine Any s)
    (hr : r ∈ s.db.syncQueue) (hleased : leasesOf r.id s.log ≠ [])
    (hpath : Path storeMachine Any s t) :
    (∀ r' ∈ t.db.syncQueue, r'.id = r.id → r'.endpoint = r.endpoint ∧ r'.payload = r.payload ∧
      r'.logicalKey = r.logicalKey ∧ r'.version = r.version) ∧
    ∀ e : Enqueue, e.itemId ∉ t.issued → e.logicalKey = r.logicalKey →
      ∃ stored ∈ (enqueue e t.db.syncQueue).1, stored.id = (enqueue e t.db.syncQueue).2 ∧
        stored.endpoint = e.endpoint ∧ stored.payload = e.payload ∧ stored.id ≠ r.id ∧
          ((∃ r' ∈ t.db.syncQueue, r'.id = r.id) → r.version < stored.version) := by
  have hkeyed := keyed_reachable hs
  have hfrozen : Frozen r s := by
    refine ⟨hkeyed, versioned_reachable hs, hkeyed.issued r hr, fun r' hr' hid => ?_⟩
    rw [hkeyed.unique.eq hr' hr hid]
    exact ⟨rfl, rfl, rfl, rfl, dated_reachable hs r hr hleased⟩
  have hlater : Frozen r t := hpath.invariant hfrozen fun _ _ _ _ hstep => frozen_step hstep
  refine ⟨fun r' hr' hid => ?_, fun e hnew hkey => frozen_enqueue hlater e hnew hkey⟩
  obtain ⟨hendpoint, hpayload, hkey, hversion, -⟩ := hlater.row r' hr' hid
  exact ⟨hendpoint, hpayload, hkey, hversion⟩

/-- A camera is created and its row is leased. -/
def leasedCreation : List Op :=
  [.createCamera 0 1 2 ⟨"gate", "rtsp://gate", .rtsp, none, [], []⟩ 4 defaultMaxAttempts,
    .claim 1 3 "worker" 1 none 60]

/-- Its name changes. -/
def renamingOp (itemId : Uuid) (now : Timestamp) : Op :=
  .updateCamera now itemId 1
    { name := some "door", streamUrl := none, streamType := none, locationLabel := none
      analyticsConfig := none, zones := none, isActive := none, supplied := rfl } defaultMaxAttempts

def leasedStore : Store := storeMachine.final .empty leasedCreation

/-- The store with the leased row is reached by its run. -/
theorem leasedStore_reachable : Reachable storeMachine Any leasedStore :=
  Reachable.init.final leasedCreation (by decide +kernel)

/-- The row of the creation. -/
def creationRow : Row :=
  SyncQueueRepository.lease 1 (1 + seconds 60) 3 "worker"
    (.new 2 .cameras (.cameraPost 1 ⟨1, "gate", "rtsp://gate", .rtsp, none, [], []⟩) (.camera 1) 1
      none none defaultMaxAttempts 0)

/-- The store after the name changed. -/
def renamedStore : Store := storeMachine.final leasedStore [renamingOp 4 2]

/-- A later edit gets a row of its own, and the leased row keeps its payload. -/
theorem renamed_elsewhere :
    renamedStore.db.syncQueue.length = 2 ∧
      ∀ r' ∈ renamedStore.db.syncQueue, r'.id = 2 → r'.payload = creationRow.payload :=
  ⟨by decide +kernel, fun r' hr' hid => ((leased_immutable leasedStore_reachable
    (r := creationRow) (by decide +kernel) (by decide +kernel)
    (Machine.Path.final .refl [renamingOp 4 2] (by decide +kernel))).1 r' hr' hid).2.1⟩

/-- The row is settled and purged a year later, and then the name changes. -/
def purgedStore : Store :=
  storeMachine.final leasedStore
    [.completeCamera 2 2 3 "worker" 1 1, .purgeRetained (days 365) 30 30, renamingOp 4 (days 366)]

/-- The row that was leased had version one, and so has the row of the later mutation. -/
theorem version_restarts :
    creationRow ∈ leasedStore.db.syncQueue ∧
      Path storeMachine Any leasedStore purgedStore ∧
      purgedStore.db.syncQueue.map (fun r => (r.id, r.logicalKey, r.version)) =
        [(4, .camera 1, 1)] ∧ creationRow.version = 1 :=
  ⟨by decide +kernel, Machine.Path.final .refl _ (by decide +kernel), by decide +kernel, rfl⟩

end Rsap.Proofs
