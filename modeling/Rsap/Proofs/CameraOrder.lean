import Rsap.Proofs.LocalCameras
import Rsap.Proofs.Leases

/-!
# `Rsap.Proofs.CameraOrder`: the items of a camera are sent in order

A claim looks one predecessor link back. That this is enough rests on the form that the chain
of a camera has in every reachable store (`Shape`): a list of done rows, then at most one open
row, then at most one row more. The last row either was never leased and names the open row as
its predecessor, so it is blocked, or the deletion of the camera cancelled it.

`Shape.map` moves the form along changes of rows (`RowMoves`), `shape_enqueue` along an
`_enqueue` call, and `shape_purgeCandidate` along one turn of a purge. The order of leases
(`camera_order`) is read off the form.
-/

set_option autoImplicit false

namespace Rsap.Proofs

open Rsap.Library
open Rsap.Library.Machine (Reachable Any)
open Rsap.Desktop
open Relation (ReflTransGen)

/-! ### The form of a chain -/

/-- The row was leased before and is not done. -/
abbrev Tried (r : Row) : Prop := ¬ r.Done ∧ r.lastAttemptAt ≠ none

/-- A row that no lease ever took is pending or cancelled. -/
def Classified (r : Row) : Prop :=
  r.lastAttemptAt = none → r.state = .pending ∨ r.state = .cancelled

/-- A row that waits for its first attempt is not done. -/
theorem fresh_not_done {r : Row} (h : r.Fresh) : ¬ r.Done := by
  rintro (hd | hd) <;> rw [h.1] at hd <;> cases hd

/-- Done rows, then at most one open row, then at most one row behind it. -/
inductive Shape (alive : Prop) : List Row → Prop where
  | settled {ds : List Row} : (∀ d ∈ ds, d.Done) → Shape alive ds
  | opened {ds : List Row} {r : Row} : (∀ d ∈ ds, d.Done) → ¬ r.Done → Shape alive (ds ++ [r])
  | queued {ds : List Row} {r t : Row} : (∀ d ∈ ds, d.Done) → Tried r → t.Fresh →
      t.predecessorId = some r.id → Shape alive (ds ++ [r, t])
  | withdrawn {ds : List Row} {r t : Row} : (∀ d ∈ ds, d.Done) → Tried r → t.Done → ¬ alive →
      Shape alive (ds ++ [r, t])

/-- Every change keeps a row classified. -/
theorem Change.classified {c : Change} {r : Row} (hg : c.Guard r) (h : Classified r) :
    Classified (c.apply r) := by
  intro hnone
  cases c with
  | coalesce => exact .inl rfl
  | lease => cases hnone
  | cancel => exact .inr rfl
  | withdraw => exact .inr rfl
  | retry => exact .inl rfl
  | release | succeed | fail =>
    have hstate : r.state = .inflight := hg
    rcases h hnone with h | h <;> rw [hstate] at h <;> cases h
  | unlinkPredecessor | unlinkDependency => exact h hnone

/-- Every row of a reachable store is of one of the kinds. -/
theorem classified_reachable {ok : Store → Op → Prop} {s : Store}
    (h : Reachable storeMachine ok s) : ∀ r ∈ s.db.syncQueue, Classified r := by
  refine row_invariant (fun _ _ r _ hr => ?_) (fun _ _ _ _ _ _ hg hr => Change.classified hg hr) h
  obtain ⟨_, _, _, _, rfl⟩ := hr
  exact fun _ => .inl rfl

/-- A row is done, tried or fresh. -/
theorem Classified.cases {r : Row} (h : Classified r) : r.Done ∨ Tried r ∨ r.Fresh := by
  by_cases hdone : r.Done
  · exact .inl hdone
  · cases hlast : r.lastAttemptAt with
    | some t => exact .inr (.inl ⟨hdone, by simp [hlast]⟩)
    | none =>
      rcases h hlast with hp | hc
      · exact .inr (.inr ⟨hp, hlast⟩)
      · exact absurd (.inr hc) hdone

/-- How the rows of a chain may change without an insertion or a deletion. A row that was never
leased is leased only when no row of the chain that it names as predecessor is open, and is
withdrawn only with its camera. -/
structure RowMoves (alive : Prop) (l : List Row) (r r' : Row) : Prop where
  id : r'.id = r.id
  predecessorId : r'.predecessorId = r.predecessorId
  done : r.Done → r'.Done
  tried : Tried r → Tried r' ∨ r'.Done
  fresh : r.Fresh → r'.Fresh ∨ (∀ t ∈ l, r.predecessorId = some t.id → t.Done) ∨
    (¬ alive ∧ r'.Done)

/-- What holds of a list and of one more row holds of both. -/
theorem forall_mem_concat {P : Row → Prop} {ds : List Row} {r : Row} (hds : ∀ d ∈ ds, P d)
    (hr : P r) : ∀ d ∈ ds ++ [r], P d := by
  intro d hd
  rcases List.mem_append.mp hd with hd | hd
  · exact hds d hd
  · rw [List.mem_singleton.mp hd]
    exact hr

/-- Moves compose. -/
theorem RowMoves.trans {alive : Prop} {l : List Row} {r₁ r₂ r₃ : Row} (h : RowMoves alive l r₁ r₂)
    (h' : RowMoves alive l r₂ r₃) : RowMoves alive l r₁ r₃ where
  id := h'.id.trans h.id
  predecessorId := h'.predecessorId.trans h.predecessorId
  done hr := h'.done (h.done hr)
  tried hr := (h.tried hr).elim h'.tried fun hd => .inr (h'.done hd)
  fresh hr := by
    rcases h.fresh hr with hf | hu | ⟨ha, hd⟩
    · rcases h'.fresh hf with hf' | hu | had
      · exact .inl hf'
      · exact .inr (.inl (h.predecessorId ▸ hu))
      · exact .inr (.inr had)
    · exact .inr (.inl hu)
    · exact .inr (.inr ⟨ha, h'.done hd⟩)

/-- Under its guard a change is a move, when a lease finds the predecessors done and only a
deletion cancels a row that was never leased. -/
theorem Change.rowMoves {alive : Prop} {l : List Row} {r : Row} {c : Change} (hg : c.Guard r)
    (hlease : c.isLease → ∀ t ∈ l, r.predecessorId = some t.id → t.Done)
    (hcancel : ∀ now, c = .cancel now → r.Fresh → ¬ alive)
    (hpurge : ∀ now, c ≠ .withdraw now ∧ c ≠ .unlinkPredecessor) :
    RowMoves alive l r (c.apply r) := by
  cases c with
  | coalesce =>
    have hopen : ¬ r.Done := by simp [hg.1]
    exact ⟨rfl, rfl, fun h => absurd h hopen, fun h => absurd hg.2 h.2, fun h => .inl ⟨rfl, h.2⟩⟩
  -- an expired lease is open again under its old links
  | release now =>
    have hstate : r.state = .inflight := hg
    refine ⟨rfl, rfl, by simp [hstate], fun h => .inl ⟨?_, h.2⟩, by simp [hstate]⟩
    simp [Change.apply, SyncQueueRepository.release]
  -- only a waiting row can be leased, so a row that is done stays done
  | lease now expires token owner =>
    refine ⟨rfl, rfl, fun h => ?_, fun _ => .inl ⟨?_, by intro h; cases h⟩,
      fun _ => .inr (.inl (hlease rfl))⟩
    · rcases hg with hg | hg <;> rcases h with h | h <;> rw [hg] at h <;> cases h
    · simp [Change.apply, SyncQueueRepository.lease]
  | succeed now =>
    have hstate : r.state = .inflight := hg
    exact ⟨rfl, rfl, fun _ => .inl rfl, fun _ => .inr (.inl rfl), by simp [hstate]⟩
  | fail now code message permanent =>
    have hstate : r.state = .inflight := hg
    refine ⟨rfl, rfl, by simp [hstate], fun h => .inl ⟨?_, h.2⟩, by simp [hstate]⟩
    simp only [Change.apply, SyncQueueRepository.failRow]
    split <;> simp
  | cancel now =>
    exact ⟨rfl, rfl, fun _ => .inr rfl, fun _ => .inr (.inr rfl),
      fun h => .inr (.inr ⟨hcancel now rfl h, .inr rfl⟩)⟩
  -- withdrawing and unlinking are steps of a purge, which the hypothesis excludes
  | withdraw now => exact absurd rfl (hpurge now).1
  | retry now =>
    have hstate : r.state = .deadLetter := hg
    refine ⟨rfl, rfl, by simp [hstate], fun h => .inl ⟨?_, h.2⟩, by simp [hstate]⟩
    simp [Change.apply, SyncQueueRepository.retryRow]
  | unlinkPredecessor => exact absurd rfl (hpurge 0).2
  | unlinkDependency => exact ⟨rfl, rfl, fun h => h, .inl, .inl⟩

namespace Shape
variable {alive alive' : Prop} {l : List Row} {f : Row → Row}

/-- Done rows stay done. -/
theorem map_done {ds : List Row} (hds : ∀ d ∈ ds, d.Done)
    (hf : ∀ r ∈ ds, RowMoves alive' l r (f r)) : ∀ d ∈ ds.map f, d.Done := by
  intro d' hd'
  obtain ⟨d, hd, rfl⟩ := List.mem_map.mp hd'
  exact (hf d hd).done (hds d hd)

/-- A last row that is open or done. -/
theorem concat {ds : List Row} {r : Row} (hds : ∀ d ∈ ds, d.Done) :
    Shape alive (ds ++ [r]) := by
  by_cases hdone : r.Done
  · exact .settled (forall_mem_concat hds hdone)
  · exact .opened hds hdone

/-- While the camera is alive, none of its rows is withdrawn. -/
theorem of_alive (h : Shape alive l) (halive : alive) : Shape alive' l := by
  cases h with
  | settled hds => exact .settled hds
  | opened hds hr => exact .opened hds hr
  | queued hds hr ht hpred => exact .queued hds hr ht hpred
  | withdrawn _ _ _ hdead => exact absurd halive hdead

/-- The form moves along changes of rows. -/
theorem map (h : Shape alive l) (halive : ¬ alive → ¬ alive')
    (hf : ∀ r ∈ l, RowMoves alive' l r (f r)) : Shape alive' (l.map f) := by
  cases h with
  | settled hds => exact .settled (map_done hds hf)
  | @opened ds r hds hr =>
    rw [List.map_append]
    exact concat (map_done hds fun d hd => hf d (by simp [hd]))
  | @queued ds r t hds hr ht hpred =>
    have hds' := map_done hds fun d hd => hf d (by simp [hd])
    have hr' := hf r (by simp)
    have ht' := hf t (by simp)
    -- the last row is blocked by the open row, so nothing but the deletion of the camera moves it
    have hfresh : (f t).Fresh ∨ (¬ alive' ∧ (f t).Done) := by
      rcases ht'.fresh ht with h | h | h
      · exact .inl h
      · exact absurd (h r (by simp) hpred) hr.1
      · exact .inr h
    rw [List.map_append, List.map_cons, List.map_singleton]
    rcases hr'.tried hr with htried | hdone
    · rcases hfresh with hfresh | ⟨hdead, hdone⟩
      · exact .queued hds' htried hfresh (by rw [ht'.predecessorId, hpred, hr'.id])
      · exact .withdrawn hds' htried hdone hdead
    · rw [List.append_cons]
      exact concat (forall_mem_concat hds' hdone)
  | @withdrawn ds r t hds hr ht hdead =>
    have hds' := map_done hds fun d hd => hf d (by simp [hd])
    have hdone := (hf t (by simp)).done ht
    rw [List.map_append, List.map_cons, List.map_singleton]
    rcases (hf r (by simp)).tried hr with htried | hr'
    · exact .withdrawn hds' htried hdone (halive hdead)
    · rw [List.append_cons]
      exact concat (forall_mem_concat hds' hr')

/-- Of two open rows the younger one is fresh and names the older one as its predecessor. -/
theorem open_pair (h : Shape alive l) (hl : l.Pairwise fun r t => r.version < t.version)
    {r t : Row} (hr : r ∈ l) (ht : t ∈ l) (hr' : ¬ r.Done) (ht' : ¬ t.Done)
    (hlt : r.version < t.version) : t.Fresh ∧ t.predecessorId = some r.id := by
  cases h with
  -- two open rows of one camera exist only in the shape of a queued successor
  | settled hds => exact absurd (hds r hr) hr'
  | @opened ds x hds _ =>
    have heq : ∀ s ∈ ds ++ [x], ¬ s.Done → s = x := fun s hs hopen => by
      rcases List.mem_append.mp hs with hs | hs
      · exact absurd (hds s hs) hopen
      · exact List.mem_singleton.mp hs
    rw [heq r hr hr', heq t ht ht'] at hlt
    exact absurd hlt (Nat.lt_irrefl _)
  | @queued ds x y hds _ hy hpred =>
    have heq : ∀ s ∈ ds ++ [x, y], ¬ s.Done → s = x ∨ s = y := fun s hs hopen => by
      rcases List.mem_append.mp hs with hs | hs
      · exact absurd (hds s hs) hopen
      · simpa using hs
    have hxy : x.version < y.version := by
      have hpair := (List.pairwise_append.mp hl).2.1
      simpa using hpair
    rcases heq r hr hr' with rfl | rfl <;> rcases heq t ht ht' with rfl | rfl
    · exact absurd hlt (Nat.lt_irrefl _)
    · exact ⟨hy, hpred⟩
    · exact absurd hxy (Nat.not_lt_of_gt hlt)
    · exact absurd hlt (Nat.lt_irrefl _)
  | @withdrawn ds x y hds _ hy _ =>
    have heq : ∀ s ∈ ds ++ [x, y], ¬ s.Done → s = x := fun s hs hopen => by
      rcases List.mem_append.mp hs with hs | hs
      · exact absurd (hds s hs) hopen
      · rcases List.mem_cons.mp hs with hs | hs
        · exact hs
        · exact absurd (List.mem_singleton.mp hs ▸ hy) hopen
    rw [heq r hr hr', heq t ht ht'] at hlt
    exact absurd hlt (Nat.lt_irrefl _)

end Shape

/-! ### Operations keep the form -/

section Steps
variable {db : Db} {op : Op} {c : Uuid} {alive : Prop}

/-- A lease of an operation finds no open predecessor in the chain of a camera. -/
theorem leases_unblocked (hq : UniqueOn Row.id db.syncQueue) {now expires : Timestamp}
    {token : Uuid} {owner : String} {r : Row} (h : Leases db op now expires token owner r)
    (hkey : r.logicalKey = .camera c) :
    ∀ t ∈ chain (.camera c) db.syncQueue, r.predecessorId = some t.id → t.Done := by
  intro t ht hpred
  cases op with
  | claim now' token' owner' limit key leaseSeconds =>
    obtain ⟨-, -, -, -, -, -, -, -, hunblocked, -⟩ := h
    -- a claim leases rows without a predecessor, or with one that is done
    rcases hunblocked with hnone | ⟨p, hp, hpid, hdone⟩
    · rw [hnone] at hpred
      cases hpred
    -- the sweep before the claim only releases expired leases, so done rows stay done
    · obtain ⟨p₀, hp₀, rfl⟩ := mem_updateWhere.mp hp
      have hid : p₀.id = t.id := by
        rw [hpred] at hpid
        rw [Option.some.inj hpid]
        split <;> rfl
      obtain rfl := hq.eq hp₀ (mem_chain.mp ht).1 hid
      split at hdone
      · rcases hdone with h | h <;> cases h
      · exact hdone
  | beginRevocation =>
    obtain ⟨-, -, h⟩ := h
    rw [hkey] at h
    cases h
  | _ => cases h

/-- A row of a camera that was never leased is cancelled by the deletion of the camera only. -/
theorem cancels_fresh (hq : UniqueOn Row.id db.syncQueue) {now : Timestamp} {r r₁ : Row}
    (hr : r ∈ chain (.camera c) db.syncQueue) (hid : r₁.id = r.id)
    (hkey : r₁.logicalKey = .camera c) (hfree : Free r₁) (hfresh : r₁.Fresh)
    (h : Makes db op (.cancel now) r₁) :
    ∃ now itemId maxAttempts, op = .deleteCamera now itemId c maxAttempts := by
  cases op with
  | save =>
    rw [Makes, hkey] at h
    cases h
  | deleteCamera now' itemId cameraId maxAttempts =>
    obtain ⟨-, camera, latest, -, hlatest, -, hlatestId | hdep⟩ := h
    · obtain ⟨hmem, hkey'⟩ := latestBy_mem hlatest
      obtain ⟨hr, hrkey⟩ := mem_chain.mp hr
      rw [hq.eq hr hmem (hid.symm.trans hlatestId), hkey'] at hrkey
      cases hrkey
      exact ⟨_, _, _, rfl⟩
    · rw [hfree c hkey] at hdep
      cases hdep
  | discardDeadLetter =>
    obtain ⟨-, hdead⟩ := h
    rw [hfresh.1] at hdead
    cases hdead
  | _ => cases h

/-- An operation other than a purge moves the rows of a camera as `RowMoves` says. -/
theorem rowMoves_of_steps (hq : UniqueOn Row.id db.syncQueue)
    (hop : ∀ now d d', op ≠ .purgeRetained now d d')
    (hdead : ∀ now itemId maxAttempts, op = .deleteCamera now itemId c maxAttempts → ¬ alive)
    {r r' : Row} (hr : r ∈ chain (.camera c) db.syncQueue) (hfree : Free r)
    (hsteps : ReflTransGen (RowStep (Makes db op)) r r') :
    RowMoves alive (chain (.camera c) db.syncQueue) r r' := by
  obtain ⟨-, hkey⟩ := mem_chain.mp hr
  induction hsteps with
  | refl => exact ⟨rfl, rfl, fun h => h, .inl, .inl⟩
  | @tail r₁ r₂ hsteps hstep ih =>
    obtain ⟨change, hmakes, hguard, rfl⟩ := hstep
    obtain ⟨hid, hkey₁, -⟩ := rowSteps_fixed hsteps
    have hfree₁ : Free r₁ := rowSteps_keep (fun _ _ hm _ => makes_free hm) hsteps hfree
    refine ih.trans (Change.rowMoves hguard (fun hlease => ?_) (fun now hc hfresh => ?_) ?_)
    · cases change with
      | lease => exact leases_unblocked hq hmakes (hkey₁.trans hkey)
      | _ => cases hlease
    · subst hc
      obtain ⟨_, _, _, he⟩ := cancels_fresh hq hr hid (hkey₁.trans hkey) hfree₁ hfresh hmakes
      exact hdead _ _ _ he
    · refine fun now => ⟨?_, ?_⟩ <;> rintro rfl <;> cases op <;> cases hmakes <;>
        exact hop _ _ _ rfl

/-- An `_enqueue` call keeps the form: it rewrites a fresh last row, or it appends a fresh row
behind an open row or behind done rows. -/
theorem shape_enqueue {q : List Row} (hq : UniqueOn Row.id q) (hv : Versioned q)
    (hclass : ∀ r ∈ q, Classified r) {e : Enqueue} (hkey : e.logicalKey = .camera c)
    (h : Shape True (chain (.camera c) q)) : Shape alive (chain (.camera c) (enqueue e q).1) := by
  have hclass' : ∀ r ∈ chain (.camera c) q, Classified r := fun r hr =>
    hclass r (mem_chain.mp hr).1
  -- the write coalesces into a fresh last row, or appends a new row
  rcases chain_enqueue hq hv hkey with ⟨init, last, hchain, hfresh, hnew⟩ | ⟨hlast, version, hnew⟩
  · rw [hnew]
    rw [hchain] at h
    generalize hl : init ++ [last] = l at h
    cases h with
    -- a chain that is done up to its last row takes the new content there
    | settled hds =>
      exact Shape.concat fun d hd => hds d (hl ▸ List.mem_append_left _ hd)
    | opened hds =>
      obtain ⟨rfl, -⟩ := List.append_inj' hl rfl
      exact Shape.concat hds
    -- the successor is the fresh last row, and it keeps its predecessor
    | @queued ds r t hds hr ht hpred =>
      obtain ⟨rfl, hlast⟩ := List.append_inj' (hl.trans (List.append_cons ds r [t])) rfl
      obtain rfl := List.singleton_inj.mp hlast
      rw [← List.append_cons]
      exact .queued hds hr ⟨rfl, ht.2⟩ hpred
    | withdrawn _ _ _ hdead => exact absurd trivial hdead
  · rw [hnew]
    generalize chain (.camera c) q = l at h hlast hclass' ⊢
    cases h with
    -- nothing is open, so the new row stands alone
    | settled hds => exact Shape.concat hds
    -- the open row was tried already, so the new one waits for it
    | @opened ds r hds hr =>
      have htried : Tried r := by
        rcases (hclass' r (by simp)).cases with hd | ht | hf
        · exact absurd hd hr
        · exact ht
        · exact absurd hf (hlast r (by simp))
      rw [← List.append_cons]
      exact .queued hds htried ⟨rfl, rfl⟩ (by simp [Row.new])
    | @queued ds r t hds hr ht hpred => exact absurd ht (hlast t (by simp))
    | withdrawn _ _ _ hdead => exact absurd trivial hdead

end Steps

/-! ### The purge keeps the form -/

section Purge
variable {q : List Row} {now : Timestamp} {itemId : Uuid} {state : QueueState} {c : Uuid}
  {alive : Prop}

/-- The links of a row to an item are cut. -/
def cutLinks (itemId : Uuid) (r : Row) : Row :=
  { r with
      predecessorId := if r.predecessorId = some itemId then none else r.predecessorId
      dependsOnId := if r.dependsOnId = some itemId then none else r.dependsOnId }

/-- Unlinking rewrites the links of each row alone. -/
theorem unlink_eq (itemId : Uuid) (q : List Row) :
    SyncQueueRepository.unlink itemId q = q.map (cutLinks itemId) := by
  rw [SyncQueueRepository.unlink, updateWhere, updateWhere, List.map_map]
  refine List.map_congr_left fun r _ => ?_
  by_cases hp : r.predecessorId = some itemId <;> by_cases hd : r.dependsOnId = some itemId <;>
    simp [cutLinks, hp, hd]

/-- A row of a camera hangs only on rows of that camera. -/
theorem descends_camera (hq : UniqueOn Row.id q) (hl : Linked q) (hfree : ∀ r ∈ q, Free r)
    {k : Uuid} (h : Descends Row.id SyncQueueRepository.linkedRow q itemId k) :
    ∀ r ∈ chain (.camera c) q, r.id = k → ∃ d ∈ chain (.camera c) q, d.id = itemId := by
  -- each link of a row of a camera is a predecessor link, which names a row of the same camera
  have hlink : ∀ r ∈ chain (.camera c) q, ∀ k, SyncQueueRepository.linkedRow k r = true →
      ∃ d ∈ chain (.camera c) q, d.id = k := by
    intro r hr k hk
    obtain ⟨hmem, hkey⟩ := mem_chain.mp hr
    have hpred : r.predecessorId = some k := by
      simpa [SyncQueueRepository.linkedRow, hfree r hmem c hkey] using hk
    obtain ⟨d, hd, hid, hdkey, -⟩ := hl r hmem k hpred
    exact ⟨d, mem_chain.mpr ⟨hd, hdkey.trans hkey⟩, hid⟩
  induction h with
  | child hn hlinked =>
    intro r hr hid
    rw [← hq.eq (mem_chain.mp hr).1 hn hid] at hlinked
    exact hlink r hr itemId hlinked
  | step _ hn hlinked ih =>
    intro r hr hid
    rw [← hq.eq (mem_chain.mp hr).1 hn hid] at hlinked
    obtain ⟨d, hd, hdid⟩ := hlink r hr _ hlinked
    exact ih d hd hdid

/-- The withdrawals of a purge reach the rows of a camera only from a dead letter of that
camera. -/
theorem chain_withdrawFor (hq : UniqueOn Row.id q) (hl : Linked q) (hfree : ∀ r ∈ q, Free r)
    (h : state ≠ .deadLetter ∨ ∀ d ∈ chain (.camera c) q, d.id ≠ itemId) :
    chain (.camera c) (SyncQueueRepository.withdrawFor now itemId state q) =
      chain (.camera c) q := by
  unfold SyncQueueRepository.withdrawFor
  split
  · rw [chain_updateWhere (f := SyncQueueRepository.withdrawRow now) fun _ _ _ => rfl]
    refine updateWhere_eq_self fun r hr hp => ?_
    obtain ⟨d, hd, hid⟩ := descends_camera hq hl hfree (mem_descendants.mp hp.1) r hr rfl
    exact (h.resolve_left fun hne => hne rfl) d hd hid
  · rw [chain_updateWhere (f := SyncQueueRepository.withdrawRow now) fun _ _ _ => rfl]
    refine updateWhere_eq_self fun r hr hp => ?_
    obtain ⟨hmem, hkey⟩ := mem_chain.mp hr
    rw [hfree r hmem c hkey] at hp
    cases hp.1
  · rfl

/-- The chain of a camera after one turn of the purge. -/
theorem chain_purgeCandidate : chain (.camera c)
    (SyncQueueRepository.purgeCandidate now q (itemId, state)) =
      deleteWhere (fun r => r.id = itemId) ((chain (.camera c)
        (SyncQueueRepository.withdrawFor now itemId state q)).map (cutLinks itemId)) := by
  rw [SyncQueueRepository.purgeCandidate, chain_deleteWhere, unlink_eq,
    chain_map (f := cutLinks _) fun _ => rfl]

/-- A done row may leave a chain of this form. -/
theorem Shape.delete {l : List Row} (h : Shape alive l) (hl : UniqueOn Row.id l)
    (hdone : ∀ d ∈ l, d.id = itemId → d.Done) :
    Shape alive (deleteWhere (fun r => r.id = itemId) (l.map (cutLinks itemId))) := by
  have hds' : ∀ {ds : List Row}, (∀ d ∈ ds, d.Done) →
      ∀ d ∈ deleteWhere (fun r => r.id = itemId) (ds.map (cutLinks itemId)), d.Done := by
    intro ds hds d hd
    obtain ⟨d₀, hd₀, rfl⟩ := List.mem_map.mp (mem_deleteWhere.mp hd).1
    exact hds d₀ hd₀
  -- the purge deletes one row that is done and cuts the links to it
  have hkeep : ∀ r : Row, r.id ≠ itemId →
      deleteWhere (fun r => r.id = itemId) [cutLinks itemId r] = [cutLinks itemId r] := by
    intro r hr
    simp [deleteWhere, cutLinks, hr]
  have happend : ∀ l₁ l₂ : List Row,
      deleteWhere (fun r => r.id = itemId) ((l₁ ++ l₂).map (cutLinks itemId)) =
        deleteWhere (fun r => r.id = itemId) (l₁.map (cutLinks itemId)) ++
          deleteWhere (fun r => r.id = itemId) (l₂.map (cutLinks itemId)) := by
    intro l₁ l₂
    simp [deleteWhere]
  cases h with
  | settled hds => exact .settled (hds' hds)
  | @opened ds r hds hr =>
    have hne : r.id ≠ itemId := fun he => hr (hdone r (by simp) he)
    rw [happend, List.map_singleton, hkeep r hne]
    exact concat (hds' hds)
  -- both open rows stay, and so does the link between them
  | @queued ds r t hds hr ht hpred =>
    have hne : r.id ≠ itemId := fun he => hr.1 (hdone r (by simp) he)
    have hne' : t.id ≠ itemId := fun he => fresh_not_done ht (hdone t (by simp) he)
    rw [List.append_cons, happend, happend, List.map_singleton, List.map_singleton, hkeep r hne,
      hkeep t hne', ← List.append_cons]
    exact .queued (hds' hds) hr ht (by simp [cutLinks, hpred, hne])
  -- the dead successor may be the row that is deleted
  | @withdrawn ds r t hds hr ht hdead =>
    have hne : r.id ≠ itemId := fun he => hr.1 (hdone r (by simp) he)
    rw [List.append_cons, happend, happend, List.map_singleton, List.map_singleton, hkeep r hne]
    by_cases hne' : t.id = itemId
    · have hnil : deleteWhere (fun r => r.id = itemId) [cutLinks itemId t] = [] := by
        simp [deleteWhere, cutLinks, hne']
      rw [hnil, List.append_nil]
      exact concat (hds' hds)
    · rw [hkeep t hne', ← List.append_cons]
      exact .withdrawn (hds' hds) hr ht hdead

/-- The withdrawals for a dead letter leave no open row in the chain of its camera but the dead
letter. -/
theorem Shape.withdraw {d : Row} (hd : d ∈ chain (.camera c) q)
    (hdead : d.state = .deadLetter ∨ ∀ r ∈ chain (.camera c) q, r.Done)
    (h : Shape alive (chain (.camera c) q)) :
    ∀ r ∈ chain (.camera c) (SyncQueueRepository.withdrawFor now d.id .deadLetter q),
      r.id = d.id ∨ r.Done := by
  intro r' hr'
  rw [SyncQueueRepository.withdrawFor,
    chain_updateWhere (f := SyncQueueRepository.withdrawRow now) fun _ _ _ => rfl] at hr'
  obtain ⟨r, hr, rfl⟩ := mem_updateWhere.mp hr'
  by_cases hwithdrawn : r.id ∈ SyncQueueRepository.descendantIds d.id q ∧ r.state ≠ .inflight
  · rw [if_pos hwithdrawn]
    exact .inr (.inr rfl)
  rw [if_neg hwithdrawn]
  rcases hdead with hdead | hall
  · have hopen : ¬ d.Done := by
      rintro (hd | hd) <;> rw [hdead] at hd <;> cases hd
    have hmem : ∀ x ∈ chain (.camera c) q, x ∈ q := fun x hx => (mem_chain.mp hx).1
    generalize chain (.camera c) q = l at hd hr h hmem
    cases h with
    | settled hds => exact .inr (hds r hr)
    | @opened ds x hds _ =>
      rcases List.mem_append.mp hd with hd | hd
      · exact absurd (hds d hd) hopen
      rcases List.mem_append.mp hr with hr | hr
      · exact .inr (hds r hr)
      · rw [List.mem_singleton.mp hd, List.mem_singleton.mp hr]
        exact .inl rfl
    | @queued ds x t hds _ ht hpred =>
      obtain rfl : d = x := by
        rcases List.mem_append.mp hd with hd | hd
        · exact absurd (hds d hd) hopen
        · rcases List.mem_cons.mp hd with hd | hd
          · exact hd
          · rw [List.mem_singleton.mp hd, ht.1] at hdead
            cases hdead
      rcases List.mem_append.mp hr with hr | hr
      · exact .inr (hds r hr)
      rcases List.mem_cons.mp hr with rfl | hr
      · exact .inl rfl
      -- the row behind the dead letter hangs on it
      · rw [List.mem_singleton.mp hr] at hwithdrawn
        refine absurd ⟨mem_descendants.mpr (.child (hmem t (by simp)) ?_), ?_⟩ hwithdrawn
        · simp [SyncQueueRepository.linkedRow, hpred]
        · rw [ht.1]
          nofun
    | @withdrawn ds x t hds _ ht _ =>
      have hx : ∀ y ∈ ds ++ [x, t], y = x ∨ y.Done := by
        intro y hy
        rcases List.mem_append.mp hy with hy | hy
        · exact .inr (hds y hy)
        · rcases List.mem_cons.mp hy with hy | hy
          · exact .inl hy
          · exact .inr (List.mem_singleton.mp hy ▸ ht)
      rcases hx r hr with hr | hr
      · rw [hr, (hx d hd).resolve_right hopen]
        exact .inl rfl
      · exact .inr hr
  · exact .inr (hall r hr)

/-- What holds in a purge before the candidates that are left. A candidate that was done is done,
and a candidate that was dead still is, or its whole chain is done. -/
structure PurgeState (alive : Uuid → Prop) (q : List Row)
    (candidates : List (Uuid × QueueState)) : Prop where
  unique : UniqueOn Row.id q
  linked : Linked q
  free : ∀ r ∈ q, Free r
  shape : ∀ c, Shape (alive c) (chain (.camera c) q)
  left : ∀ cand ∈ candidates, ∀ c, ∀ r ∈ chain (.camera c) q, r.id = cand.1 →
    (cand.2 ≠ .deadLetter → r.Done) ∧
      (cand.2 = .deadLetter → r.state = .deadLetter ∨ ∀ t ∈ chain (.camera c) q, t.Done)

/-- One turn of the purge leaves the chain of a camera done, or withdraws none of its rows. -/
theorem purgeCandidate_chain {alive : Uuid → Prop} {cand : Uuid × QueueState}
    {rest : List (Uuid × QueueState)} (h : PurgeState alive q (cand :: rest)) (c : Uuid) :
    (∀ r ∈ chain (.camera c) (SyncQueueRepository.purgeCandidate now q cand), r.Done) ∨
      ((∀ d ∈ chain (.camera c) q, d.id = cand.1 → d.Done) ∧
        chain (.camera c) (SyncQueueRepository.purgeCandidate now q cand) =
          deleteWhere (fun r => r.id = cand.1)
            ((chain (.camera c) q).map (cutLinks cand.1))) := by
  obtain ⟨itemId, state⟩ := cand
  rw [chain_purgeCandidate]
  have hleft := h.left (itemId, state) (by simp) c
  by_cases hhit : state ≠ .deadLetter ∨ ∀ d ∈ chain (.camera c) q, d.id ≠ itemId
  · rw [chain_withdrawFor h.unique h.linked h.free hhit]
    refine .inr ⟨fun d hd hid => ?_, rfl⟩
    rcases hhit with hne | hnone
    · exact (hleft d hd hid).1 hne
    · exact absurd hid (hnone d hd)
  · push Not at hhit
    obtain ⟨rfl, d, hd, rfl⟩ := hhit
    refine .inl fun r hr => ?_
    obtain ⟨hr, hne⟩ := mem_deleteWhere.mp hr
    obtain ⟨r₀, hr₀, rfl⟩ := List.mem_map.mp hr
    have hdead := (hleft d hd rfl).2 rfl
    exact ((h.shape c).withdraw hd hdead r₀ hr₀).resolve_left hne

/-- One turn of the purge keeps what holds in a purge. -/
theorem purgeState_turn {alive : Uuid → Prop} {cand : Uuid × QueueState}
    {rest : List (Uuid × QueueState)} (h : PurgeState alive q (cand :: rest)) :
    PurgeState alive (SyncQueueRepository.purgeCandidate now q cand) rest := by
  -- the turn is made of the statements of a purge
  have hstatements : Statements (Makes .empty (.purgeRetained now 0 0)) (fun _ => False) q
      (SyncQueueRepository.purgeCandidate now q cand) :=
    purgeCandidate_statements cand (fun _ => trivial) (fun _ => trivial) fun _ => trivial
  refine ⟨hstatements.unique h.unique, purgeCandidate_linked now cand h.linked, ?_, ?_, ?_⟩
  · intro r' hr'
    obtain ⟨r, hr, hsteps⟩ := hstatements.rows r' hr'
    exact rowSteps_keep (fun _ _ hm _ => makes_free hm) hsteps
      (hr.elim (h.free r) fun hf => hf.elim)
  · intro c
    -- a chain that the purge touches is done, or loses one row that is done
    rcases purgeCandidate_chain h c with hdone | ⟨hdone, hchain⟩
    · exact .settled hdone
    · rw [hchain]
      exact (h.shape c).delete
        (List.Nodup.sublist (List.Sublist.map _ List.filter_sublist) h.unique) hdone
  · intro cand' hcand' c r' hr' hid
    rcases purgeCandidate_chain h c with hdone | ⟨-, hchain⟩
    · exact ⟨fun _ => hdone r' hr', fun _ => .inr hdone⟩
    · rw [hchain] at hr' ⊢
      obtain ⟨r, hr, rfl⟩ := List.mem_map.mp (mem_deleteWhere.mp hr').1
      obtain ⟨hleft, hdead⟩ := h.left cand' (List.mem_cons_of_mem _ hcand') c r hr hid
      refine ⟨hleft, fun hst => (hdead hst).imp_right fun hall t ht => ?_⟩
      obtain ⟨t₀, ht₀, rfl⟩ := List.mem_map.mp (mem_deleteWhere.mp ht).1
      exact hall t₀ ht₀

/-- A purge keeps the form of the chains. -/
theorem shape_purge {alive : Uuid → Prop} (hq : UniqueOn Row.id q) (hl : Linked q)
    (hfree : ∀ r ∈ q, Free r) (h : ∀ c, Shape (alive c) (chain (.camera c) q))
    (succeededDays deadLetterDays : Nat) (c : Uuid) : Shape (alive c)
      (chain (.camera c) (SyncQueueRepository.purgeQueue now succeededDays deadLetterDays q)) := by
  have hstate : PurgeState alive q (SyncQueueRepository.purgeCandidates
      (now - days succeededDays) (now - days deadLetterDays) q) := by
    refine ⟨hq, hl, hfree, h, fun cand hcand c r hr hid => ?_⟩
    obtain ⟨r₀, hr₀, rfl⟩ := List.mem_map.mp hcand
    obtain ⟨hmem, hretired⟩ := List.mem_filter.mp ((List.mem_insertionSort _).mp hr₀)
    obtain rfl := hq.eq (mem_chain.mp hr).1 hmem hid
    refine ⟨fun hne => ?_, fun hdead => .inl hdead⟩
    rcases of_decide_eq_true hretired with hdone | hdead
    · exact hdone.1
    · exact absurd hdead.1 hne
  unfold SyncQueueRepository.purgeQueue
  generalize SyncQueueRepository.purgeCandidates _ _ q = candidates at hstate
  clear hq hl hfree h
  induction candidates generalizing q with
  | nil => exact hstate.shape c
  | cons cand rest ih => exact ih (purgeState_turn hstate)

end Purge

/-! ### Every reachable store -/

/-- A camera is alive after an operation only when it was before or the operation creates it. -/
theorem alive_run {db : Db} {op : Op} {c : Uuid} (h : Alive (op.run db).1 c) :
    Alive db c ∨ ∃ now itemId payload maxCameras maxAttempts,
      op = .createCamera now c itemId payload maxCameras maxAttempts := by
  obtain ⟨camera, hcamera, hid⟩ := h
  have hcases := cameras_cases db op
  generalize (op.run db).1.localCameras = cameras at hcases hcamera
  cases hcases with
  | same => exact .inl ⟨camera, hcamera, hid⟩
  | created now cameraId itemId payload maxCameras maxAttempts =>
    rcases List.mem_append.mp hcamera with hold | hnew
    · exact .inl ⟨camera, hold, hid⟩
    · rw [List.mem_singleton.mp hnew] at hid
      cases hid
      exact .inr ⟨_, _, _, _, _, rfl⟩
  | updated | completed =>
    obtain ⟨old, hold, rfl⟩ := mem_updateWhere.mp hcamera
    refine .inl ⟨old, hold, ?_⟩
    split at hid <;> exact hid
  | deleted => exact .inl ⟨camera, (mem_deleteWhere.mp hcamera).1, hid⟩

/-- `delete` leaves no camera with the id. -/
theorem delete_dead (db : Db) (now : Timestamp) (itemId c : Uuid) (maxAttempts : Attempts) :
    ¬ Alive ((Op.deleteCamera now itemId c maxAttempts).run db).1 c := by
  rintro ⟨camera, hcamera, hid⟩
  simp only [Op.run, CameraRepository.delete] at hcamera
  split at hcamera
  · rename_i hnone
    simpa [hid] using List.find?_eq_none.mp hnone camera hcamera
  · exact (mem_deleteWhere.mp hcamera).2 hid

/-- The chain of every camera has the form, in every reachable store. -/
theorem shape_reachable {ok : Store → Op → Prop} {s : Store} (h : Reachable storeMachine ok s) :
    ∀ c, Shape (Alive s.db c) (chain (.camera c) s.db.syncQueue) := by
  refine h.invariant
    (I := fun s => ∀ c, Shape (Alive s.db c) (chain (.camera c) s.db.syncQueue))
    (fun _ => .settled fun _ hd => absurd hd List.not_mem_nil) ?_
  intro s op s' hreach _ hstep ih c
  have hkeyed := keyed_reachable hreach
  have hfree := free_reachable hreach
  have hcases := chain_cases hkeyed hstep c
  obtain ⟨hadmits, rfl⟩ := store_step hstep
  -- a camera is created before its first row
  have hcreated : ∀ now itemId payload maxCameras maxAttempts,
      op = .createCamera now c itemId payload maxCameras maxAttempts →
        chain (.camera c) s.db.syncQueue = [] := by
    rintro now itemId payload maxCameras maxAttempts rfl
    refine List.filter_eq_nil_iff.mpr fun r hr hkey => ?_
    exact hadmits.2 c (by simp [Op.uuids])
      (cameraKey_issued hreach r hr c (of_decide_eq_true hkey))
  show Shape (Alive (op.run s.db).1 c) (chain (.camera c) (op.run s.db).1.syncQueue)
  by_cases hpurge : ∃ now d d', op = .purgeRetained now d d'
  · obtain ⟨now, d, d', rfl⟩ := hpurge
    exact shape_purge hkeyed.unique (linked_reachable hreach) hfree ih d d' c
  generalize chain (.camera c) (op.run s.db).1.syncQueue = l' at hcases ⊢
  cases hcases with
  | changed f hsteps =>
    by_cases hnil : chain (.camera c) s.db.syncQueue = []
    · rw [hnil]
      exact .settled fun _ hd => absurd hd List.not_mem_nil
    refine (ih c).map (fun hdead halive => ?_) fun r hr =>
      rowMoves_of_steps hkeyed.unique (fun now d d' he => hpurge ⟨now, d, d', he⟩) ?_ hr
        (hfree r (mem_chain.mp hr).1) (hsteps r hr)
    · rcases alive_run halive with h | ⟨_, _, _, _, _, hop⟩
      · exact hdead h
      · exact hnil (hcreated _ _ _ _ _ hop)
    · rintro now itemId maxAttempts rfl
      exact delete_dead _ _ _ _ _
  | enqueued e he hkey =>
    refine shape_enqueue hkeyed.unique (versioned_reachable hreach)
      (classified_reachable hreach) hkey ?_
    rcases (enqueueOf_camera he hkey).2 with halive | ⟨_, _, _, _, _, hop⟩
    · exact (ih c).of_alive halive
    · rw [hcreated _ _ _ _ _ hop]
      exact .settled fun _ hd => absurd hd List.not_mem_nil
  | purged now d d' hop => exact absurd ⟨now, d, d', hop⟩ hpurge

/-! ### The order of leases -/

/-- The items of a camera are sent in order. In every reachable store, for the rows of a
camera: at most one is inflight; a claim leases a row only when every older row is done;
versions are distinct; and a predecessor link names an older row of the camera. -/
theorem camera_order {s : Store} (h : Reachable storeMachine Any s) (c : Uuid) :
    (∀ r ∈ s.db.syncQueue, ∀ t ∈ s.db.syncQueue, r.logicalKey = .camera c →
      t.logicalKey = .camera c → r.state = .inflight → t.state = .inflight → r = t) ∧
    (∀ now token owner limit key leaseSeconds rows,
      s.Admits (.claim now token owner limit key leaseSeconds) →
      ((Op.claim now token owner limit key leaseSeconds).run s.db).2 = .rows rows →
      ∀ r ∈ rows, r.logicalKey = .camera c →
        ∀ t ∈ s.db.syncQueue, t.logicalKey = .camera c → t.version < r.version → t.Done) ∧
    (∀ r ∈ s.db.syncQueue, ∀ t ∈ s.db.syncQueue, r.logicalKey = .camera c →
      t.logicalKey = .camera c → r.version = t.version → r = t) ∧
    (∀ r ∈ s.db.syncQueue, r.logicalKey = .camera c → r.predecessorId = none ∨
      ∃ t ∈ s.db.syncQueue, r.predecessorId = some t.id ∧ t.logicalKey = .camera c ∧
        t.version < r.version) := by
  have hkeyed := keyed_reachable h
  have hversioned := versioned_reachable h
  have hsorted : (chain (.camera c) s.db.syncQueue).Pairwise _ := chain_sorted hversioned
  have hopen : ∀ r : Row, r.state = .inflight → ¬ r.Done := by
    rintro r hr (hd | hd) <;> rw [hr] at hd <;> cases hd
  refine ⟨?_, ?_, ?_, ?_⟩
  · intro r hr t ht hrkey htkey hri hti
    have hr' := mem_chain.mpr ⟨hr, hrkey⟩
    have ht' := mem_chain.mpr ⟨ht, htkey⟩
    rcases Nat.lt_trichotomy r.version t.version with hlt | heq | hgt
    · have hfresh := ((shape_reachable h c).open_pair hsorted hr' ht' (hopen r hri) (hopen t hti)
        hlt).1
      rw [hfresh.1] at hti
      cases hti
    · exact version_inj hversioned hr' ht' heq
    · have hfresh := ((shape_reachable h c).open_pair hsorted ht' hr' (hopen t hti) (hopen r hri)
        hgt).1
      rw [hfresh.1] at hri
      cases hri
  · intro now token owner limit key leaseSeconds rows hadmits hrows r hr hkey t ht htkey hlt
    obtain ⟨r₀, hr₀, hready, rfl⟩ :=
      claim_ready hkeyed.unique (claim_fresh (tokensIssued_reachable h) hadmits)
        (claim_run hrows) r hr
    by_contra hdone
    obtain ⟨r₁, hr₁, hswept⟩ := mem_updateWhere.mp hr₀
    have hsame : r₁.logicalKey = r₀.logicalKey ∧ r₁.version = r₀.version ∧
        r₁.predecessorId = r₀.predecessorId ∧ ¬ r₁.Done := by
      by_cases hexp : SyncQueueRepository.Expired now r₁
      · rw [if_pos hexp] at hswept
        rw [← hswept]
        exact ⟨rfl, rfl, rfl, hopen r₁ hexp.1⟩
      · rw [if_neg hexp] at hswept
        refine hswept ▸ ⟨rfl, rfl, rfl, ?_⟩
        rcases hready.1 with hw | hw <;> rintro (hd | hd) <;> rw [hswept, hw] at hd <;> cases hd
    -- an older open row would be the predecessor that blocks the row
    obtain ⟨-, hpred⟩ := (shape_reachable h c).open_pair hsorted (mem_chain.mpr ⟨ht, htkey⟩)
      (mem_chain.mpr ⟨hr₁, hsame.1.trans hkey⟩) hdone hsame.2.2.2 (hsame.2.1 ▸ hlt)
    have hlease : Leases s.db (.claim now token owner limit key leaseSeconds) now
        (now + seconds leaseSeconds) token owner r₀ := ⟨rfl, rfl, rfl, rfl, hr₀, hready⟩
    exact hdone (leases_unblocked hkeyed.unique hlease hkey t (mem_chain.mpr ⟨ht, htkey⟩)
      (hsame.2.2.1 ▸ hpred))
  · intro r hr t ht hrkey htkey heq
    exact version_inj hversioned (mem_chain.mpr ⟨hr, hrkey⟩) (mem_chain.mpr ⟨ht, htkey⟩) heq
  · intro r hr hkey
    cases hpred : r.predecessorId with
    | none => exact .inl rfl
    | some p =>
      obtain ⟨t, ht, rfl, htkey, hlt⟩ := linked_reachable h r hr p hpred
      exact .inr ⟨t, ht, rfl, htkey.trans hkey, hlt⟩

/-- A camera is created, its `POST` is leased, and an edit is queued behind it. -/
def editedRun : List Op :=
  [.createCamera 0 1 2 ⟨"gate", "rtsp://gate", .rtsp, none, [], []⟩ 4 defaultMaxAttempts,
    .claim 0 3 "worker" 100 none 60,
    .updateCamera 1 4 1 ⟨some "door", none, none, none, none, none, none, by decide⟩
      defaultMaxAttempts]

/-- A camera that is edited while its creation waits. -/
theorem camera_order_edited :
    let queue := (storeMachine.final .empty editedRun).db.syncQueue
    ∀ r ∈ queue, r.logicalKey = .camera 1 →
      r.predecessorId = none ∨ ∃ t ∈ queue,
        r.predecessorId = some t.id ∧ t.logicalKey = .camera 1 ∧ t.version < r.version :=
  (camera_order (.final .init editedRun (by decide)) 1).2.2.2

end Rsap.Proofs
