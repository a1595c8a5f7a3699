import Rsap.Proofs.Statements

/-!
# `Rsap.Proofs.Chains`: the rows of one key, in version order

`chain key q` is the list of the rows of a key. Versions grow along the queue
(`versioned_reachable`), so the list is in version order and its last element is the latest
row (`latestRow_chain`). Updates map the chain (`Updates.chain_map`), and an `_enqueue` call
rewrites its last row or appends one (`chain_enqueue`). `Linked` says that a predecessor link
names an older row of the chain.
-/

set_option autoImplicit false

namespace Rsap.Proofs

open Rsap.Library
open Rsap.Library.Machine (Reachable Any)
open Rsap.Desktop
open Relation (ReflTransGen)

/-- The rows of a key, in the order of the table. -/
def chain (key : LogicalKey) (queue : List Row) : List Row :=
  queue.filter fun r => r.logicalKey = key

/-- The camera exists in the local table. -/
def Alive (db : Db) (c : Uuid) : Prop := ∃ camera ∈ db.localCameras, camera.id = c

/-- Versions grow along the rows of a key. -/
def Versioned (queue : List Row) : Prop :=
  queue.Pairwise fun r s => r.logicalKey = s.logicalKey → r.version < s.version

section Chain
variable {may : Change → Row → Prop} {q q' : List Row} {key : LogicalKey} {r : Row}

/-- The chain of a key consists of the rows of that key. -/
theorem mem_chain : r ∈ chain key q ↔ r ∈ q ∧ r.logicalKey = key := by
  simp [chain]

/-- An update that keeps the key acts on the chain. -/
theorem chain_updateWhere {p : Row → Prop} [DecidablePred p] {f : Row → Row}
    (hf : ∀ r ∈ q, p r → (f r).logicalKey = r.logicalKey) :
    chain key (updateWhere p f q) = updateWhere p f (chain key q) := by
  rw [chain, chain, updateWhere, updateWhere, List.filter_map]
  congr 1
  refine List.filter_congr fun r hr => ?_
  by_cases h : p r
  · simp [h, hf r hr h]
  · simp [h]

/-- A map of rows that keeps the key acts on the chain. -/
theorem chain_map {f : Row → Row} (hf : ∀ r, (f r).logicalKey = r.logicalKey) :
    chain key (q.map f) = (chain key q).map f := by
  rw [chain, chain, List.filter_map]
  simp [Function.comp_def, hf]

/-- A deletion acts on the chain. -/
theorem chain_deleteWhere {p : Row → Prop} [DecidablePred p] :
    chain key (deleteWhere p q) = deleteWhere p (chain key q) :=
  List.filter_comm _ _ _

/-- Updates map the rows of the queue, each by admitted changes. -/
theorem Updates.map (h : Updates may q q') :
    ∃ f : Row → Row, q' = q.map f ∧ ∀ r ∈ q, ReflTransGen (RowStep may) r (f r) := by
  induction h with
  | refl => exact ⟨id, by simp, fun _ _ => .refl⟩
  | tail _ hu ih =>
    obtain ⟨f, rfl, hsteps⟩ := ih
    obtain ⟨p, g, hg⟩ := hu
    refine ⟨fun r => if p (f r) then g (f r) else f r, ?_, fun r hr => ?_⟩
    · rw [updateWhere, List.map_map]
      rfl
    · by_cases hp : p (f r)
      · simp only [if_pos hp]
        exact (hsteps r hr).tail (hg _ (List.mem_map_of_mem hr) hp)
      · simp only [if_neg hp]
        exact hsteps r hr

/-- Updates map the rows of a chain, each by admitted changes. -/
theorem Updates.chain_map (h : Updates may q q') (key : LogicalKey) :
    ∃ f : Row → Row, chain key q' = (chain key q).map f ∧
      ∀ r ∈ chain key q, ReflTransGen (RowStep may) r (f r) := by
  obtain ⟨f, rfl, hsteps⟩ := h.map
  refine ⟨f, ?_, fun r hr => hsteps r (mem_chain.mp hr).1⟩
  rw [chain, chain, List.filter_map]
  congr 1
  refine List.filter_congr fun r hr => ?_
  simp [(rowSteps_fixed (hsteps r hr)).2.1]

/-- Versions grow along a chain. -/
theorem chain_sorted (h : Versioned q) :
    (chain key q).Pairwise fun r t => r.version < t.version := by
  refine List.Pairwise.imp_of_mem (fun hr ht hlt => hlt ?_) (h.filter _)
  exact (mem_chain.mp hr).2.trans (mem_chain.mp ht).2.symm

/-- Rows of a key with one version are the same row. -/
theorem version_inj (h : Versioned q) {r t : Row} (hr : r ∈ chain key q) (ht : t ∈ chain key q)
    (heq : r.version = t.version) : r = t := by
  have hunique : UniqueOn Row.version (chain key q) :=
    List.pairwise_map.mpr ((chain_sorted h).imp fun hlt => Nat.ne_of_lt hlt)
  exact hunique.eq hr ht heq

/-- Under growing versions the latest row of a key is the last row of its chain. -/
theorem latestRow_chain (key : LogicalKey) (h : Versioned q) :
    latestRow key q = (chain key q).getLast? := by
  cases hl : latestRow key q with
  | none =>
    have hnil : chain key q = [] := List.filter_eq_nil_iff.mpr fun r hr => by
      simpa using latestBy_eq_none.mp hl r hr
    rw [hnil]
    rfl
  | some r =>
    obtain ⟨hr, hkey⟩ := latestBy_mem hl
    have hmem : r ∈ chain key q := mem_chain.mpr ⟨hr, hkey⟩
    rcases List.eq_nil_or_concat (chain key q) with hnil | ⟨init, last, hconcat⟩
    · rw [hnil] at hmem
      cases hmem
    · rw [List.concat_eq_append] at hconcat
      have hsorted : (chain key q).Pairwise _ := h.filter _
      rw [hconcat, List.pairwise_append] at hsorted
      rw [hconcat] at hmem
      rw [hconcat, List.getLast?_append_of_ne_nil _ (by simp)]
      -- versions grow along the chain, so the latest row is the last one
      rcases List.mem_append.mp hmem with hinit | hlast
      · have hlastmem : last ∈ q ∧ last.logicalKey = key := mem_chain.mp (by simp [hconcat])
        have hlt := hsorted.2.2 r hinit last (by simp) (hkey.trans hlastmem.2.symm)
        exact absurd (latestBy_le hl hlastmem.1 hlastmem.2) (Nat.not_le_of_lt hlt)
      · rw [List.mem_singleton.mp hlast]
        rfl

/-- Updates keep the versions growing. -/
theorem Updates.versioned (h : Updates may q q') (hv : Versioned q) : Versioned q' := by
  induction h with
  | refl => exact hv
  | tail _ hu ih =>
    obtain ⟨p, f, hf⟩ := hu
    rw [Versioned, updateWhere, List.pairwise_map]
    refine List.Pairwise.imp_of_mem ?_ ih
    intro r s hr hs hlt
    have hfixed : ∀ t ∈ _, (if p t then f t else t).logicalKey = t.logicalKey ∧
        (if p t then f t else t).version = t.version := fun t ht => by
      by_cases hp : p t
      · rw [if_pos hp]
        exact ⟨(hf t ht hp).fixed.2.1, (hf t ht hp).fixed.2.2.1⟩
      · rw [if_neg hp]
        exact ⟨rfl, rfl⟩
    rw [(hfixed r hr).1, (hfixed s hs).1, (hfixed r hr).2, (hfixed s hs).2]
    exact hlt

/-- A row of the key appended to the queue is appended to the chain. -/
theorem chain_insert (h : r.logicalKey = key) : chain key (q ++ [r]) = chain key q ++ [r] := by
  simp [chain, h]

/-- An `_enqueue` call leaves the chains of other keys alone. -/
theorem chain_enqueue_of_ne {e : Enqueue} (hq : UniqueOn Row.id q) (h : e.logicalKey ≠ key) :
    chain key (enqueue e q).1 = chain key q := by
  unfold enqueue
  split
  · rename_i latest hlatest
    obtain ⟨hmem, hkey⟩ := latestBy_mem hlatest
    split
    · refine filter_updateWhere_of_not fun r hr hp => ?_
      have hne : r.logicalKey ≠ key := by rwa [hq.eq hr hmem hp.1, hkey]
      exact ⟨hne, hne⟩
    · simp [chain, Row.new, h]
  · simp [chain, Row.new, h]

/-- An `_enqueue` call rewrites the last row of the chain when no lease ever took it. Otherwise
it appends a row whose predecessor is the last row. -/
theorem chain_enqueue {e : Enqueue} (hq : UniqueOn Row.id q) (hv : Versioned q)
    (h : e.logicalKey = key) :
    (∃ init last, chain key q = init ++ [last] ∧ last.Fresh ∧ chain key (enqueue e q).1 =
        init ++ [last.coalesce e.endpoint e.payload e.now (e.dependsOnId <|> last.dependsOnId)]) ∨
      ((∀ last, (chain key q).getLast? = some last → ¬ last.Fresh) ∧
        ∃ version, chain key (enqueue e q).1 = chain key q ++
          [.new e.itemId e.endpoint e.payload e.logicalKey version
            ((chain key q).getLast?.map Row.id) e.dependsOnId e.maxAttempts e.now]) := by
  subst h
  have hlast := latestRow_chain e.logicalKey hv
  unfold enqueue
  cases hl : latestRow e.logicalKey q with
  | none =>
    rw [hl] at hlast
    exact .inr ⟨by simp [← hlast], 1, by rw [← hlast]; exact chain_insert rfl⟩
  | some latest =>
    rw [hl] at hlast
    obtain ⟨hmem, hkey⟩ := latestBy_mem hl
    by_cases hfresh : latest.Fresh
    · obtain ⟨init, hinit⟩ : ∃ init, chain e.logicalKey q = init ++ [latest] := by
        obtain ⟨hne, heq⟩ := List.getLast?_eq_some_iff.mp hlast.symm
        exact ⟨hne, heq⟩
      refine .inl ⟨init, latest, hinit, hfresh, ?_⟩
      simp only [if_pos hfresh]
      rw [chain_updateWhere (f := Row.coalesce _ _ _ _) fun _ _ _ => rfl, hinit,
        updateWhere_append]
      -- the other rows of the chain have other ids
      have hnodup : UniqueOn Row.id (init ++ [latest]) := by
        rw [← hinit]
        exact List.Nodup.sublist (List.Sublist.map _ List.filter_sublist) hq
      rw [UniqueOn, List.map_append, List.nodup_append] at hnodup
      congr 1
      · refine updateWhere_eq_self fun r hr hp => ?_
        exact hnodup.2.2 r.id (List.mem_map_of_mem hr) latest.id (by simp) hp.1
      · simp [updateWhere, hfresh.1]
    · refine .inr ⟨fun last hsome => ?_, latest.version + 1, ?_⟩
      · rw [hsome] at hlast
        exact Option.some.inj hlast ▸ hfresh
      · simp only [if_neg hfresh]
        rw [← hlast]
        exact chain_insert rfl

/-- An `_enqueue` call keeps the versions growing. -/
theorem enqueue_versioned (e : Enqueue) (hv : Versioned q) : Versioned (enqueue e q).1 := by
  unfold enqueue
  split
  · rename_i latest hlatest
    split
    · exact pairwise_updateWhere (fun r s hlt => by split <;> split <;> exact hlt) hv
    · refine pairwise_insert hv fun s hs hkey => ?_
      exact Nat.lt_succ_of_le (latestBy_le hlatest hs hkey)
  · rename_i hnone
    exact pairwise_insert hv fun s hs hkey => absurd hkey (latestBy_eq_none.mp hnone s hs)

/-- Each predecessor link names an older row of the same key. -/
def Linked (queue : List Row) : Prop :=
  ∀ r ∈ queue, ∀ p, r.predecessorId = some p →
    ∃ t ∈ queue, t.id = p ∧ t.logicalKey = r.logicalKey ∧ t.version < r.version

/-- A change sets no predecessor link. -/
theorem Change.predecessorId (c : Change) (r : Row) :
    (c.apply r).predecessorId = r.predecessorId ∨ (c.apply r).predecessorId = none := by
  cases c <;> first | exact .inl rfl | exact .inr rfl

/-- Updates keep the queue linked. -/
theorem Updates.linked (h : Updates may q q') (hl : Linked q) : Linked q' := by
  induction h with
  | refl => exact hl
  | tail _ hu ih =>
    obtain ⟨p, f, hf⟩ := hu
    intro r' hr' pid hpred
    obtain ⟨r, hr, rfl⟩ := mem_updateWhere.mp hr'
    -- no change adds a link
    have hold : r.predecessorId = some pid := by
      by_cases hp : p r
      · rw [if_pos hp] at hpred
        obtain ⟨c, _, _, hc⟩ := hf r hr hp
        rw [hc] at hpred
        rcases c.predecessorId r with h | h
        · exact h ▸ hpred
        · rw [h] at hpred
          cases hpred
      · rwa [if_neg hp] at hpred
    -- and none touches id, key or version of the row that is linked to
    have hfixed : ∀ s ∈ _, (if p s then f s else s).id = s.id ∧
        (if p s then f s else s).logicalKey = s.logicalKey ∧
        (if p s then f s else s).version = s.version := fun s hs => by
      by_cases hp : p s
      · rw [if_pos hp]
        obtain ⟨h1, h2, h3, -⟩ := (hf s hs hp).fixed
        exact ⟨h1, h2, h3⟩
      · rw [if_neg hp]
        exact ⟨rfl, rfl, rfl⟩
    obtain ⟨t, ht, htid, htkey, htver⟩ := ih r hr pid hold
    refine ⟨_, mem_updateWhere.mpr ⟨t, ht, rfl⟩, ?_⟩
    rw [(hfixed t ht).1, (hfixed t ht).2.1, (hfixed t ht).2.2, (hfixed r hr).2.1,
      (hfixed r hr).2.2]
    exact ⟨htid, htkey, htver⟩

/-- An `_enqueue` call keeps the queue linked. -/
theorem enqueue_linked (e : Enqueue) (hq : UniqueOn Row.id q) (hl : Linked q) :
    Linked (enqueue e q).1 := by
  unfold enqueue
  split
  · rename_i latest hlatest
    obtain ⟨hmem, hkey⟩ := latestBy_mem hlatest
    split
    -- the new content keeps the links of the fresh row, and a new row links to the latest
    · rename_i hfresh
      refine @Updates.linked (fun _ _ => True) q _ (.one _ _ fun r hr hp => ?_) hl
      rw [hq.eq hr hmem hp.1]
      exact ⟨.coalesce _ _ _ _, trivial, hfresh, rfl⟩
    · intro r hr p hpred
      rcases List.mem_append.mp hr with hr | hr
      · obtain ⟨t, ht, hrest⟩ := hl r hr p hpred
        exact ⟨t, List.mem_append_left _ ht, hrest⟩
      · rw [List.mem_singleton.mp hr] at hpred ⊢
        exact ⟨latest, List.mem_append_left _ hmem, Option.some.inj hpred, hkey,
          Nat.lt_succ_self _⟩
  · intro r hr p hpred
    rcases List.mem_append.mp hr with hr | hr
    · obtain ⟨t, ht, hrest⟩ := hl r hr p hpred
      exact ⟨t, List.mem_append_left _ ht, hrest⟩
    · rw [List.mem_singleton.mp hr] at hpred
      cases hpred

/-- One turn of the purge keeps the queue linked: the links to the deleted row are cut. -/
theorem purgeCandidate_linked (now : Timestamp) (candidate : Uuid × QueueState) (hl : Linked q) :
    Linked (SyncQueueRepository.purgeCandidate now q candidate) := by
  obtain ⟨q₁, hupdates, hcut, heq⟩ := @purgeCandidate_cases (fun _ _ => True) q now candidate
    (fun _ => trivial) (fun _ => trivial) fun _ => trivial
  rw [heq]
  intro r hr p hpred
  obtain ⟨hr, -⟩ := mem_deleteWhere.mp hr
  obtain ⟨t, ht, htid, hrest⟩ := hupdates.linked hl r hr p hpred
  refine ⟨t, mem_deleteWhere.mpr ⟨ht, fun hid => (hcut r hr).1 ?_⟩, htid, hrest⟩
  rw [hpred, ← htid, hid]

/-- One turn of the purge keeps the versions growing. -/
theorem purgeCandidate_versioned (now : Timestamp) (candidate : Uuid × QueueState)
    (hv : Versioned q) : Versioned (SyncQueueRepository.purgeCandidate now q candidate) := by
  obtain ⟨q₁, hupdates, -, heq⟩ := @purgeCandidate_cases (fun _ _ => True) q now candidate
    (fun _ => trivial) (fun _ => trivial) fun _ => trivial
  rw [heq]
  exact pairwise_deleteWhere (hupdates.versioned hv)

end Chain

/-- A property of queues that each turn of a purge keeps holds after the purge. -/
theorem purgeQueue_keep {I : List Row → Prop} {now : Timestamp}
    (hturn : ∀ q candidate, I q → I (SyncQueueRepository.purgeCandidate now q candidate))
    (succeededDays deadLetterDays : Nat) {q : List Row} (h : I q) :
    I (SyncQueueRepository.purgeQueue now succeededDays deadLetterDays q) := by
  unfold SyncQueueRepository.purgeQueue
  generalize SyncQueueRepository.purgeCandidates _ _ q = candidates
  induction candidates generalizing q with
  | nil => exact h
  | cons c rest ih => exact ih (hturn q c h)

/-- A property of queues that updates, `_enqueue` calls and purges keep is kept by every
operation on a keyed store. -/
theorem queue_step {I : List Row → Prop} {s s' : Store} {op : Op} (hkeyed : Keyed s)
    (hstep : storeMachine.step s op = some s')
    (hupdates : ∀ q q', Updates (Makes s.db op) q q' → I q → I q')
    (henqueue : ∀ e, UniqueOn Row.id s.db.syncQueue → I s.db.syncQueue →
      I (enqueue e s.db.syncQueue).1)
    (hturn : ∀ now q candidate, I q → I (SyncQueueRepository.purgeCandidate now q candidate))
    (h : I s.db.syncQueue) : I s'.db.syncQueue := by
  obtain ⟨hadmits, rfl⟩ := store_step hstep
  have hcases := op_cases s.db op hkeyed.unique
    fun r hr hmem => hadmits.2 _ hmem (hkeyed.issued r hr)
  show I (op.run s.db).1.syncQueue
  generalize (op.run s.db).1.syncQueue = q' at hcases ⊢
  cases hcases with
  | updates hu => exact hupdates _ _ hu h
  | enqueued e _ => exact henqueue e hkeyed.unique h
  | revoked e _ _ hu => exact hupdates _ _ hu (henqueue e hkeyed.unique h)
  | purged now succeededDays deadLetterDays _ =>
    exact purgeQueue_keep (hturn now) succeededDays deadLetterDays h

/-- In every reachable store versions grow along the rows of each key. -/
theorem versioned_reachable {ok : Store → Op → Prop} {s : Store}
    (h : Reachable storeMachine ok s) : Versioned s.db.syncQueue := by
  refine h.invariant (I := fun s => Versioned s.db.syncQueue) ?_ ?_
  · exact List.Pairwise.nil
  intro _ _ _ hreach _ hstep
  exact queue_step (keyed_reachable hreach) hstep (fun _ _ hu => hu.versioned)
    (fun e _ => enqueue_versioned e) fun now _ candidate => purgeCandidate_versioned now candidate

/-- Every reachable store is linked. -/
theorem linked_reachable {ok : Store → Op → Prop} {s : Store}
    (h : Reachable storeMachine ok s) : Linked s.db.syncQueue := by
  refine h.invariant (I := fun s => Linked s.db.syncQueue)
    (fun _ hr => absurd hr List.not_mem_nil) ?_
  intro _ _ _ hreach _ hstep
  exact queue_step (keyed_reachable hreach) hstep (fun _ _ hu => hu.linked)
    (fun e hq => enqueue_linked e hq) fun now _ candidate => purgeCandidate_linked now candidate

/-- The chain of a camera after an operation: mapped by changes, extended by an `_enqueue` call
under its key, or purged. -/
inductive ChainCases (db : Db) (op : Op) (c : Uuid) : List Row → Prop where
  | changed (f : Row → Row) :
      (∀ r ∈ chain (.camera c) db.syncQueue, ReflTransGen (RowStep (Makes db op)) r (f r)) →
      ChainCases db op c ((chain (.camera c) db.syncQueue).map f)
  | enqueued (e : Enqueue) : enqueueOf db op = some e → e.logicalKey = .camera c →
      ChainCases db op c (chain (.camera c) (enqueue e db.syncQueue).1)
  | purged (now : Timestamp) (succeededDays deadLetterDays : Nat) :
      op = .purgeRetained now succeededDays deadLetterDays →
      ChainCases db op c (chain (.camera c)
        (SyncQueueRepository.purgeQueue now succeededDays deadLetterDays db.syncQueue))

/-- Every operation changes the chain of a camera in one of the three ways. -/
theorem chain_cases {s s' : Store} {op : Op} (hkeyed : Keyed s)
    (hstep : storeMachine.step s op = some s') (c : Uuid) :
    ChainCases s.db op c (chain (.camera c) s'.db.syncQueue) := by
  obtain ⟨hadmits, rfl⟩ := store_step hstep
  have hcases := op_cases s.db op hkeyed.unique
    fun r hr hmem => hadmits.2 _ hmem (hkeyed.issued r hr)
  show ChainCases s.db op c (chain (.camera c) (op.run s.db).1.syncQueue)
  generalize (op.run s.db).1.syncQueue = q' at hcases ⊢
  cases hcases with
  | updates hu =>
    obtain ⟨f, hmap, hsteps⟩ := hu.chain_map (.camera c)
    exact hmap ▸ .changed f hsteps
  | enqueued e he =>
    by_cases hkey : e.logicalKey = .camera c
    · exact .enqueued e he hkey
    · rw [chain_enqueue_of_ne hkeyed.unique hkey]
      exact (List.map_id (chain (.camera c) s.db.syncQueue)) ▸ .changed id fun _ _ => .refl
  | revoked e he hkey hu =>
    obtain ⟨f, hmap, hsteps⟩ := hu.chain_map (.camera c)
    rw [chain_enqueue_of_ne hkeyed.unique (by simp [hkey])] at hmap hsteps
    exact hmap ▸ .changed f hsteps
  | purged now succeededDays deadLetterDays hop =>
    exact .purged now succeededDays deadLetterDays hop

end Rsap.Proofs
