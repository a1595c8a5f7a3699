import Rsap.Desktop.Store

/-!
# `Rsap.Proofs.Statements`: what a write does to the queue

`Change` lists the ways in which the code rewrites a row of `sync_queue`: `Change.apply` is
the assignment and `Change.Guard` the condition on the row that the code checks first. Every
operation changes the queue by a sequence of statements of three kinds (`Statement`): an
update that makes one change on each touched row, an insert of a new row, a deletion.

`Makes db op` says which changes the operation makes on which rows, and `Bears db op` which
rows it inserts. `op_statements` is the fact that these describe every operation. The row
invariants below rest on it alone, so a method of the source that changes needs one new case
there.

Consequences: ids stay unique and stay among the issued values (`keyed_reachable`), and a
property of rows that new rows have and every change keeps holds of every row
(`row_invariant`).
-/

set_option autoImplicit false

namespace Rsap.Proofs

open Rsap.Library
open Rsap.Library.Machine (Reachable Any)
open Rsap.Desktop
open Relation (ReflTransGen)

/-- A way in which the code rewrites a row of the queue. -/
inductive Change where
  | coalesce (endpoint : Endpoint) (payload : Payload) (now : Timestamp)
      (dependsOnId : Option Uuid)
  | release (now : Timestamp)
  | lease (now expires : Timestamp) (token : Uuid) (owner : String)
  | succeed (now : Timestamp)
  | fail (now : Timestamp) (code message : String) (permanent : Bool)
  | cancel (now : Timestamp)
  | withdraw (now : Timestamp)
  | retry (now : Timestamp)
  | unlinkPredecessor
  | unlinkDependency

namespace Change

/-- The assignments of a change. -/
def apply : Change → Row → Row
  | .coalesce endpoint payload now dependsOnId, r => r.coalesce endpoint payload now dependsOnId
  | .release now, r => SyncQueueRepository.release now r
  | .lease now expires token owner, r => SyncQueueRepository.lease now expires token owner r
  | .succeed now, r => SyncQueueRepository.succeed now r
  | .fail now code message permanent, r =>
    SyncQueueRepository.failRow now r code message permanent r
  | .cancel now, r => SessionRepository.cancelRow now r
  | .withdraw now, r => SyncQueueRepository.withdrawRow now r
  | .retry now, r => SyncQueueRepository.retryRow now r
  | .unlinkPredecessor, r => { r with predecessorId := none }
  | .unlinkDependency, r => { r with dependsOnId := none }

/-- The condition under which the code makes the change. -/
def Guard : Change → Row → Prop
  | .coalesce .., r => r.Fresh
  | .release _, r => r.state = .inflight
  | .lease .., r => r.Waiting
  | .succeed _, r => r.state = .inflight
  | .fail .., r => r.state = .inflight
  | .cancel _, r => r.Waiting ∨ r.state = .deadLetter
  | .withdraw _, r => r.state ≠ .inflight
  | .retry _, r => r.state = .deadLetter
  | .unlinkPredecessor, _ => True
  | .unlinkDependency, _ => True

/-- The columns that no change writes. -/
theorem apply_fixed (c : Change) (r : Row) :
    (c.apply r).id = r.id ∧ (c.apply r).logicalKey = r.logicalKey ∧
      (c.apply r).version = r.version ∧ (c.apply r).maxAttempts = r.maxAttempts := by
  cases c <;> exact ⟨rfl, rfl, rfl, rfl⟩

end Change

/-- A row goes to another one by a change that `may` admits. -/
def RowStep (may : Change → Row → Prop) (r r' : Row) : Prop :=
  ∃ c : Change, may c r ∧ c.Guard r ∧ r' = c.apply r

/-- An update of the queue whose changes `may` admits. -/
inductive Update (may : Change → Row → Prop) : List Row → List Row → Prop where
  | mk {q : List Row} (p : Row → Prop) [DecidablePred p] (f : Row → Row) :
      (∀ r ∈ q, p r → RowStep may r (f r)) → Update may q (updateWhere p f q)

/-- A sequence of updates. -/
abbrev Updates (may : Change → Row → Prop) := ReflTransGen (Update may)

/-- One statement on the queue: an update whose changes `may` admits, an insert of a row that
`bears` admits, or a deletion. -/
inductive Statement (may : Change → Row → Prop) (bears : Row → Prop) :
    List Row → List Row → Prop where
  | update {q : List Row} (p : Row → Prop) [DecidablePred p] (f : Row → Row) :
      (∀ r ∈ q, p r → RowStep may r (f r)) → Statement may bears q (updateWhere p f q)
  | insert {q : List Row} (r : Row) : bears r → (∀ s ∈ q, s.id ≠ r.id) →
      Statement may bears q (q ++ [r])
  | delete {q : List Row} (p : Row → Prop) [DecidablePred p] :
      Statement may bears q (deleteWhere p q)

/-- A sequence of statements. -/
abbrev Statements (may : Change → Row → Prop) (bears : Row → Prop) :=
  ReflTransGen (Statement may bears)

section Rules
variable {may : Change → Row → Prop} {bears : Row → Prop} {q q' : List Row}

/-- No statement changes the identity of a row. -/
theorem RowStep.fixed {r r' : Row} (h : RowStep may r r') :
    r'.id = r.id ∧ r'.logicalKey = r.logicalKey ∧ r'.version = r.version ∧
      r'.maxAttempts = r.maxAttempts := by
  obtain ⟨c, _, _, rfl⟩ := h
  exact c.apply_fixed r

/-- Updates are statements. -/
theorem Updates.statements (h : Updates may q q') : Statements may bears q q' :=
  ReflTransGen.mono (fun _ _ hu => by obtain ⟨p, f, hf⟩ := hu; exact .update p f hf) _ _ h

/-- One update is a sequence of updates. -/
theorem Updates.one (p : Row → Prop) [DecidablePred p] (f : Row → Row)
    (h : ∀ r ∈ q, p r → RowStep may r (f r)) : Updates may q (updateWhere p f q) :=
  .single (.mk p f h)

/-- One update is a sequence of statements. -/
theorem Statements.update (p : Row → Prop) [DecidablePred p] (f : Row → Row)
    (h : ∀ r ∈ q, p r → RowStep may r (f r)) : Statements may bears q (updateWhere p f q) :=
  .single (.update p f h)

/-- Statements keep ids unique. -/
theorem Statements.unique (h : Statements may bears q q') (hq : UniqueOn Row.id q) :
    UniqueOn Row.id q' := by
  induction h with
  | refl => exact hq
  | tail _ hst ih =>
    cases hst with
    | update p f hf =>
      rw [UniqueOn, updateWhere, List.map_map]
      have hmap : ∀ r ∈ _, (Row.id ∘ fun r => if p r then f r else r) r = r.id := fun r hr => by
        by_cases hp : p r
        · simpa [hp] using (hf r hr hp).fixed.1
        · simp [hp]
      rw [List.map_congr_left hmap]
      exact ih
    | insert r _ hr => exact ih.insert hr
    | delete p => exact ih.delete p

/-- Every row after statements comes from an old row or an inserted one by admitted changes. -/
theorem Statements.rows (h : Statements may bears q q') :
    ∀ r' ∈ q', ∃ r, (r ∈ q ∨ bears r) ∧ ReflTransGen (RowStep may) r r' := by
  induction h with
  | refl => exact fun r hr => ⟨r, .inl hr, .refl⟩
  | tail _ hst ih =>
    intro r' hr'
    cases hst with
    | update p f hf =>
      obtain ⟨s, hs, rfl⟩ := mem_updateWhere.mp hr'
      obtain ⟨r, hr, hsteps⟩ := ih s hs
      by_cases hp : p s
      · rw [if_pos hp]
        exact ⟨r, hr, hsteps.tail (hf s hs hp)⟩
      · rw [if_neg hp]
        exact ⟨r, hr, hsteps⟩
    | insert r hborn _ =>
      rcases List.mem_append.mp hr' with hr' | hr'
      · exact ih r' hr'
      · rw [List.mem_singleton.mp hr']
        exact ⟨r, .inr hborn, .refl⟩
    | delete p => exact ih r' (mem_deleteWhere.mp hr').1

/-- A property of a row that every admitted change keeps. -/
theorem rowSteps_keep {P : Row → Prop} {r r' : Row}
    (hstep : ∀ r c, may c r → c.Guard r → P r → P (c.apply r))
    (h : ReflTransGen (RowStep may) r r') (hr : P r) : P r' := by
  induction h with
  | refl => exact hr
  | tail _ hst ih =>
    obtain ⟨c, hmay, hguard, rfl⟩ := hst
    exact hstep _ c hmay hguard ih

/-- Changes keep the columns that no change writes. -/
theorem rowSteps_fixed {r r' : Row} (h : ReflTransGen (RowStep may) r r') :
    r'.id = r.id ∧ r'.logicalKey = r.logicalKey ∧ r'.version = r.version ∧
      r'.maxAttempts = r.maxAttempts :=
  rowSteps_keep (P := fun s => s.id = r.id ∧ s.logicalKey = r.logicalKey ∧
      s.version = r.version ∧ s.maxAttempts = r.maxAttempts)
    (fun s c _ _ hs => by
      obtain ⟨h1, h2, h3, h4⟩ := c.apply_fixed s
      exact ⟨h1.trans hs.1, h2.trans hs.2.1, h3.trans hs.2.2.1, h4.trans hs.2.2.2⟩)
    h ⟨rfl, rfl, rfl, rfl⟩

end Rules

/-! ### The operations -/

/-- The `_enqueue` call of an operation, when it makes one in `db`. -/
def enqueueOf (db : Db) : Op → Option Enqueue
  | .beginRevocation now itemId _ generation maxAttempts _ => some
      { now, itemId, endpoint := .logout, payload := .sessionRevoke (generation + 1)
        logicalKey := .sessionRevoke, maxAttempts, dependsOnId := none }
  | .createCamera now cameraId itemId payload _ maxAttempts => some
      { now, itemId, endpoint := .cameras
        payload := .cameraPost cameraId
          (CameraRepository.centralCreate cameraId (CameraRepository.createFields payload))
        logicalKey := .camera cameraId, maxAttempts, dependsOnId := none }
  | .updateCamera now itemId cameraId changes maxAttempts =>
    (db.localCameras.find? fun c => c.id = cameraId).map fun current =>
      let queued := CameraRepository.queuedUpdate cameraId changes
        (changes.assign current.toCameraFields) current.serverId
        (latestRow (.camera cameraId) db.syncQueue)
      { now, itemId, endpoint := queued.1, payload := queued.2
        logicalKey := .camera cameraId, maxAttempts, dependsOnId := none }
  | .deleteCamera now itemId cameraId maxAttempts =>
    match db.localCameras.find? fun c => c.id = cameraId with
    | some camera =>
      if (latestRow (.camera cameraId) db.syncQueue).any fun latest =>
        CameraRepository.withdraws camera.serverId latest then none
      else some
        { now, itemId, endpoint := .camera cameraId, payload := .cameraDelete cameraId
          logicalKey := .camera cameraId, maxAttempts, dependsOnId := none }
    | none => none
  | .addEvent now itemId eventId payload maxAttempts =>
    match requireCentralImageId payload.capturedImagePath payload.capturedImageId,
      AnalyticsRepository.cameraDependency payload.cameraId db with
    | .ok imageId, .ok dependsOnId => some
        { now, itemId, endpoint := .syncEvents
          payload := .events
            { id := eventId, cameraId := payload.cameraId, eventType := payload.eventType
              payload := payload.payload, capturedImageId := imageId
              createdAt := payload.createdAt }
          logicalKey := .event eventId, maxAttempts, dependsOnId }
    | _, _ => none
  | .addAlert now itemId alertId payload maxAttempts =>
    match requireCentralImageId payload.imagePath payload.capturedImageId,
      AnalyticsRepository.cameraDependency payload.cameraId db with
    | .ok imageId, .ok dependsOnId => some
        { now, itemId, endpoint := .syncAlerts
          payload := .alerts
            { id := alertId, cameraId := payload.cameraId, zoneId := payload.zoneId
              capturedImageId := imageId, confidence := payload.confidence
              resolved := payload.resolved, createdAt := payload.createdAt }
          logicalKey := .alert alertId, maxAttempts, dependsOnId }
    | _, _ => none
  | .addPeopleCount now itemId countId payload maxAttempts =>
    match AnalyticsRepository.cameraDependency payload.cameraId db with
    | .ok dependsOnId => some
        { now, itemId, endpoint := .syncPeopleCount
          payload := .snapshots
            { id := countId, cameraId := payload.cameraId, countIn := payload.countIn
              countOut := payload.countOut, timestamp := payload.capturedAt }
          logicalKey := .count countId, maxAttempts, dependsOnId }
    | _ => none
  | .enqueueRevocation now itemId generation maxAttempts => some
      { now, itemId, endpoint := .logout, payload := .sessionRevoke generation
        logicalKey := .sessionRevoke, maxAttempts, dependsOnId := none }
  | _ => none

/-- The rows that an operation may insert. -/
def Bears (db : Db) (op : Op) (r : Row) : Prop :=
  ∃ e version predecessorId, enqueueOf db op = some e ∧
    r = .new e.itemId e.endpoint e.payload e.logicalKey version predecessorId e.dependsOnId
      e.maxAttempts e.now

/-- The lease that an operation may take on a row. -/
def Leases (db : Db) (op : Op) (now expires : Timestamp) (token : Uuid) (owner : String)
    (r : Row) : Prop :=
  match op with
  | .claim now' token' owner' _ logicalKey leaseSeconds =>
    now = now' ∧ expires = now' + seconds leaseSeconds ∧ token = token' ∧ owner = owner' ∧
      r ∈ SyncQueueRepository.sweep now' db.syncQueue ∧
      SyncQueueRepository.Ready now' logicalKey
        (SyncQueueRepository.sweep now' db.syncQueue) r
  | .beginRevocation _ _ token' _ _ _ =>
    token = token' ∧ owner = SessionRepository.authLogout ∧ r.logicalKey = .sessionRevoke
  | _ => False

/-- The changes that an operation may make on a row. -/
def Makes (db : Db) (op : Op) (c : Change) (r : Row) : Prop :=
  match c with
  | .coalesce endpoint payload now dependsOnId =>
    ∃ e, enqueueOf db op = some e ∧ r ∈ db.syncQueue ∧
      latestRow e.logicalKey db.syncQueue = some r ∧
      endpoint = e.endpoint ∧ payload = e.payload ∧ now = e.now ∧
      dependsOnId = (e.dependsOnId <|> r.dependsOnId)
  | .release now =>
    match op with
    | .claim now' _ owner limit _ _ =>
      now = now' ∧ r ∈ db.syncQueue ∧ SyncQueueRepository.Expired now' r ∧
        ¬ (owner = "" ∨ limit < 1 ∨ 500 < limit)
    | _ => False
  | .lease now expires token owner => Leases db op now expires token owner r
  | .succeed now =>
    match op with
    | .complete now' itemId token owner =>
      now = now' ∧ r ∈ db.syncQueue ∧ SyncQueueRepository.Owned itemId token owner now' r
    | .completeCamera now' itemId token owner _ _ =>
      now = now' ∧ r ∈ db.syncQueue ∧ SyncQueueRepository.Owned itemId token owner now' r
    | .completeRevocation now' itemId token owner _ =>
      now = now' ∧ r ∈ db.syncQueue ∧ SyncQueueRepository.Owned itemId token owner now' r
    | _ => False
  | .fail now code message permanent =>
    match op with
    | .fail now' itemId token owner code' message' permanent' =>
      now = now' ∧ code = code' ∧ message = message' ∧ permanent = permanent' ∧
        r ∈ db.syncQueue ∧ SyncQueueRepository.Owned itemId token owner now' r
    | _ => False
  | .cancel _ =>
    match op with
    | .save .. => r.logicalKey = .sessionRevoke
    | .deleteCamera _ _ cameraId _ =>
      r.Waiting ∧ ∃ camera latest, (db.localCameras.find? fun c => c.id = cameraId) = some camera ∧
        latestRow (.camera cameraId) db.syncQueue = some latest ∧
        CameraRepository.withdraws camera.serverId latest ∧
        (r.id = latest.id ∨ r.dependsOnId = some latest.id)
    | .discardDeadLetter _ itemId => r.id = itemId ∧ r.state = .deadLetter
    | _ => False
  | .retry _ =>
    match op with
    | .retryDeadLetter _ itemId => r.id = itemId
    | _ => False
  | .withdraw _ | .unlinkPredecessor | .unlinkDependency =>
    match op with
    | .purgeRetained .. => True
    | _ => False

section Operations
variable {may : Change → Row → Prop} {bears : Row → Prop} {q : List Row}

/-- `_enqueue` is one statement: it coalesces the latest row or inserts a new one. -/
theorem enqueue_statements (hq : UniqueOn Row.id q) (e : Enqueue)
    (hnew : ∀ r ∈ q, r.id ≠ e.itemId)
    (hmay : ∀ r ∈ q, latestRow e.logicalKey q = some r →
      may (.coalesce e.endpoint e.payload e.now (e.dependsOnId <|> r.dependsOnId)) r)
    (hbears : ∀ version pred, bears (.new e.itemId e.endpoint e.payload e.logicalKey version
      pred e.dependsOnId e.maxAttempts e.now)) :
    Statements may bears q (enqueue e q).1 := by
  unfold enqueue
  split
  · rename_i latest hlatest
    have hmem := (latestBy_mem hlatest).1
    split
    · rename_i hfresh
      refine Statements.update _ _ fun r hr hp => ?_
      rw [hq.eq hr hmem hp.1]
      exact ⟨_, hmay latest hmem hlatest, hfresh, rfl⟩
    · exact .single (.insert _ (hbears _ _) hnew)
  · exact .single (.insert _ (hbears _ _) hnew)

/-- The `_enqueue` call of an operation is a sequence of its statements. -/
theorem enqueueOf_statements {db : Db} {op : Op} (hq : UniqueOn Row.id db.syncQueue)
    {e : Enqueue} (he : enqueueOf db op = some e) (hnew : ∀ r ∈ db.syncQueue, r.id ≠ e.itemId) :
    Statements (Makes db op) (Bears db op) db.syncQueue (enqueue e db.syncQueue).1 :=
  enqueue_statements hq e hnew (fun _ hr hlatest => ⟨e, he, hr, hlatest, rfl, rfl, rfl, rfl⟩)
    fun version pred => ⟨e, version, pred, he, rfl⟩

/-- The row behind the id that `_enqueue` returns waits, was never leased, and holds what the
call queued. -/
theorem enqueue_row {e : Enqueue} (hq : UniqueOn Row.id q) (hnew : ∀ r ∈ q, r.id ≠ e.itemId)
    {r : Row} (hr : r ∈ (enqueue e q).1) (hid : r.id = (enqueue e q).2) :
    r.logicalKey = e.logicalKey ∧ r.Fresh ∧ r.endpoint = e.endpoint ∧ r.payload = e.payload := by
  unfold enqueue at hr hid
  -- the latest row of the key, when there is one, decides
  split at hr
  · rename_i latest hlatest
    obtain ⟨hmem, hkey⟩ := latestBy_mem hlatest
    simp only [hlatest] at hid
    split at hr
    -- a fresh row takes the new content under its old id
    · rename_i hfresh
      simp only [if_pos hfresh] at hid
      obtain ⟨s, hs, rfl⟩ := mem_updateWhere.mp hr
      have hsid : s.id = latest.id := by
        split at hid <;> exact hid
      have hsl : s = latest := hq.eq hs hmem hsid
      subst hsl
      rw [if_pos ⟨rfl, .inl hfresh.1⟩]
      exact ⟨hkey, ⟨rfl, hfresh.2⟩, rfl, rfl⟩
    · rename_i hfresh
      simp only [if_neg hfresh] at hid
      rcases List.mem_append.mp hr with hr | hr
      · exact absurd hid (hnew r hr)
      · rw [List.mem_singleton.mp hr]
        exact ⟨rfl, ⟨rfl, rfl⟩, rfl, rfl⟩
  · rename_i hnone
    simp only [hnone] at hid
    rcases List.mem_append.mp hr with hr | hr
    · exact absurd hid (hnew r hr)
    · rw [List.mem_singleton.mp hr]
      exact ⟨rfl, ⟨rfl, rfl⟩, rfl, rfl⟩

/-- The completing `UPDATE` is one update. -/
theorem succeedOwned_updates {now : Timestamp} {itemId token : Uuid} {owner : String}
    (hmay : ∀ r ∈ q, SyncQueueRepository.Owned itemId token owner now r → may (.succeed now) r) :
    Updates may q (SyncQueueRepository.succeedOwned now itemId token owner q).1 :=
  Updates.one _ _ fun r hr hp => ⟨.succeed now, hmay r hr hp, hp.2.2.2.1, rfl⟩

/-- Under unique ids, a selected id is the id of a ready row only. -/
theorem selected_ready (hq : UniqueOn Row.id q) {now : Timestamp} {limit : Nat}
    {key : Option LogicalKey} {r : Row} (hr : r ∈ q)
    (hid : r.id ∈ SyncQueueRepository.selected now limit key q) :
    SyncQueueRepository.Ready now key q r := by
  unfold SyncQueueRepository.selected at hid
  obtain ⟨s, hs, hsid⟩ := List.mem_map.mp hid
  have hs' := List.mem_filter.mp ((List.mem_insertionSort _).mp (List.mem_of_mem_take hs))
  rw [hq.eq hr hs'.1 hsid.symm]
  simpa using hs'.2

/-- The sweep leaves the ids unique. -/
theorem sweep_unique (hq : UniqueOn Row.id q) (now : Timestamp) :
    UniqueOn Row.id (SyncQueueRepository.sweep now q) :=
  hq.update fun _ _ => rfl

/-- The queue after a claim: the swept queue with the selected rows leased. -/
theorem claimRows_queue (now : Timestamp) (token : Uuid) (owner : String) (limit : Nat)
    (key : Option LogicalKey) (leaseSeconds : Nat) (q : List Row) :
    (SyncQueueRepository.claimRows now token owner limit key leaseSeconds q).1 =
      updateWhere (fun r => r.id ∈ SyncQueueRepository.selected now limit key
          (SyncQueueRepository.sweep now q) ∧ r.Waiting)
        (SyncQueueRepository.lease now (now + seconds leaseSeconds) token owner)
        (SyncQueueRepository.sweep now q) := by
  simp only [SyncQueueRepository.claimRows]
  split
  · rename_i hempty
    rw [List.isEmpty_iff] at hempty
    exact (updateWhere_eq_self fun r _ hp => by simp [hempty] at hp).symm
  · rfl

/-- `fail` is one update: its `UPDATE` touches the row that its `SELECT` returned. -/
theorem fail_updates (hq : UniqueOn Row.id q) {now : Timestamp} {itemId token : Uuid}
    {owner code message : String} {permanent : Bool} {row : Row}
    (hmay : ∀ r ∈ q, SyncQueueRepository.Owned itemId token owner now r →
      may (.fail now code message permanent) r)
    (hfind : q.find? (fun r => SyncQueueRepository.Owned itemId token owner now r) = some row) :
    Updates may q (updateWhere (SyncQueueRepository.Claimed itemId token owner)
      (SyncQueueRepository.failRow now row code message permanent) q) := by
  have howned : SyncQueueRepository.Owned itemId token owner now row := by
    simpa using List.find?_some hfind
  refine Updates.one _ _ fun r hr hp => ?_
  have hrow := List.mem_of_find?_eq_some hfind
  rw [hq.eq hr hrow (by rw [hp.1, howned.1])]
  exact ⟨.fail now code message permanent, hmay row hrow howned, howned.2.2.2.1, rfl⟩

/-- One turn of the purge: updates that cut every link to the item, then its deletion. -/
theorem purgeCandidate_cases {now : Timestamp} (candidate : Uuid × QueueState)
    (hwithdraw : ∀ r, may (.withdraw now) r) (hpred : ∀ r, may .unlinkPredecessor r)
    (hdep : ∀ r, may .unlinkDependency r) :
    ∃ q₁, Updates may q q₁ ∧
      (∀ r ∈ q₁, r.predecessorId ≠ some candidate.1 ∧ r.dependsOnId ≠ some candidate.1) ∧
      SyncQueueRepository.purgeCandidate now q candidate =
        deleteWhere (fun r => r.id = candidate.1) q₁ := by
  obtain ⟨itemId, state⟩ := candidate
  have hst : Updates may q (SyncQueueRepository.withdrawFor now itemId state q) := by
    unfold SyncQueueRepository.withdrawFor
    split
    · exact Updates.one _ _ fun r _ hp => ⟨.withdraw now, hwithdraw r, hp.2, rfl⟩
    · exact Updates.one _ _ fun r _ hp => ⟨.withdraw now, hwithdraw r, hp.2, rfl⟩
    · exact .refl
  refine ⟨_, hst.trans (ReflTransGen.trans (Updates.one _ _ fun r _ _ =>
    ⟨.unlinkPredecessor, hpred r, trivial, rfl⟩) (Updates.one _ _ fun r _ _ =>
      ⟨.unlinkDependency, hdep r, trivial, rfl⟩)), fun r hr => ?_, rfl⟩
  obtain ⟨s, hs, rfl⟩ := mem_updateWhere.mp hr
  obtain ⟨t, _, rfl⟩ := mem_updateWhere.mp hs
  by_cases hp : t.predecessorId = some itemId <;> by_cases hd : t.dependsOnId = some itemId <;>
    simp [Change.apply, hp, hd]

/-- One turn of the purge is a sequence of statements. -/
theorem purgeCandidate_statements {now : Timestamp} (candidate : Uuid × QueueState)
    (hwithdraw : ∀ r, may (.withdraw now) r) (hpred : ∀ r, may .unlinkPredecessor r)
    (hdep : ∀ r, may .unlinkDependency r) :
    Statements may bears q (SyncQueueRepository.purgeCandidate now q candidate) := by
  obtain ⟨q₁, hupdates, -, heq⟩ := purgeCandidate_cases candidate hwithdraw hpred hdep
  rw [heq]
  exact .tail hupdates.statements (.delete _)

/-- The purge is a sequence of statements. -/
theorem purgeQueue_statements {now : Timestamp} (succeededDays deadLetterDays : Nat)
    (hwithdraw : ∀ r, may (.withdraw now) r) (hpred : ∀ r, may .unlinkPredecessor r)
    (hdep : ∀ r, may .unlinkDependency r) :
    Statements may bears q
      (SyncQueueRepository.purgeQueue now succeededDays deadLetterDays q) := by
  unfold SyncQueueRepository.purgeQueue
  generalize SyncQueueRepository.purgeCandidates _ _ q = candidates
  induction candidates generalizing q with
  | nil => exact .refl
  | cons c rest ih => exact (purgeCandidate_statements c hwithdraw hpred hdep).trans ih

/-- Two databases agree outside of the analytics tables. -/
structure SameCore (db db' : Db) : Prop where
  syncQueue : db'.syncQueue = db.syncQueue
  localCameras : db'.localCameras = db.localCameras
  localSession : db'.localSession = db.localSession

/-- Adding an analytics record is its `_enqueue` call. -/
theorem add_queue {db db' : Db} {now : Timestamp} {itemId cameraId : Uuid}
    {insert : Db → Except OpError Db} {endpoint : Endpoint} {payload : Payload}
    {key : LogicalKey} {maxAttempts : Attempts}
    (hinsert : ∀ db₁, insert db = .ok db₁ → SameCore db db₁)
    (h : AnalyticsRepository.add now itemId cameraId insert endpoint payload key maxAttempts db
      = .ok db') :
    ∃ dependsOnId, AnalyticsRepository.cameraDependency cameraId db = .ok dependsOnId ∧
      db'.syncQueue = (enqueue
        { now, itemId, endpoint, payload, logicalKey := key, maxAttempts, dependsOnId }
        db.syncQueue).1 ∧
      db'.localCameras = db.localCameras ∧ db'.localSession = db.localSession := by
  unfold AnalyticsRepository.add at h
  split at h
  · cases h
  · rename_i dependency hdep
    split at h
    · cases h
    · rename_i db₁ hdb₁
      obtain ⟨hqueue, hcameras, hsession⟩ := hinsert db₁ hdb₁
      cases h
      exact ⟨dependency, hdep, by rw [hqueue], hcameras, hsession⟩

/-- Inserting an event touches neither cameras nor queue. -/
theorem insertEvent_core {eventId : Uuid} {payload : AnalyticsEventCreate} {db db₁ : Db}
    (h : AnalyticsRepository.insertEvent eventId payload db = .ok db₁) : SameCore db db₁ := by
  unfold AnalyticsRepository.insertEvent at h
  split at h <;> cases h
  exact ⟨rfl, rfl, rfl⟩

/-- Inserting an alert touches neither cameras nor queue. -/
theorem insertAlert_core {alertId : Uuid} {payload : AlertCreate} {db db₁ : Db}
    (h : AnalyticsRepository.insertAlert alertId payload db = .ok db₁) : SameCore db db₁ := by
  unfold AnalyticsRepository.insertAlert at h
  split at h <;> cases h
  exact ⟨rfl, rfl, rfl⟩

/-- Inserting a count touches neither cameras nor queue. -/
theorem insertPeopleCount_core {countId : Uuid} {payload : PeopleCountCreate} {db db₁ : Db}
    (h : AnalyticsRepository.insertPeopleCount countId payload db = .ok db₁) :
    SameCore db db₁ := by
  unfold AnalyticsRepository.insertPeopleCount at h
  split at h <;> cases h
  exact ⟨rfl, rfl, rfl⟩

/-- Marking an analytics record synced leaves the other tables alone. -/
theorem markSynced_core (key : LogicalKey) (db : Db) :
    SameCore db (SyncQueueRepository.markSynced key db) := by
  unfold SyncQueueRepository.markSynced
  split <;> exact ⟨rfl, rfl, rfl⟩

/-- The four ways in which an operation changes the queue: updates, an `_enqueue` call, the
`_enqueue` call of a logout with the lease after it, or a purge. -/
inductive OpCases (db : Db) (op : Op) : List Row → Prop where
  | updates {q' : List Row} : Updates (Makes db op) db.syncQueue q' → OpCases db op q'
  | enqueued (e : Enqueue) : enqueueOf db op = some e → OpCases db op (enqueue e db.syncQueue).1
  | revoked {q' : List Row} (e : Enqueue) : enqueueOf db op = some e →
      e.logicalKey = .sessionRevoke →
      Updates (Makes db op) (enqueue e db.syncQueue).1 q' → OpCases db op q'
  | purged (now : Timestamp) (succeededDays deadLetterDays : Nat) :
      op = .purgeRetained now succeededDays deadLetterDays →
      OpCases db op (SyncQueueRepository.purgeQueue now succeededDays deadLetterDays db.syncQueue)

/-- Every operation changes the queue in one of the four ways. -/
theorem op_cases (db : Db) (op : Op) (hq : UniqueOn Row.id db.syncQueue)
    (hnew : ∀ r ∈ db.syncQueue, r.id ∉ op.uuids) : OpCases db op (op.run db).1.syncQueue := by
  -- the session writes change their own row and cancel waiting revocations
  cases op with
  | save now session validUntil =>
    simp only [Op.run, SessionRepository.save]
    split
    · exact .updates .refl
    · exact .updates (.one _ _ fun r _ hp => ⟨.cancel now, hp.1, hp.2, rfl⟩)
  | replaceActive =>
    simp only [Op.run, SessionRepository.replaceActive]
    split
    · split <;> exact .updates .refl
    · exact .updates .refl
  | markRevocationPending =>
    simp only [Op.run, SessionRepository.markRevocationPending]
    split
    · split <;> exact .updates .refl
    · exact .updates .refl
  | beginRevocation now itemId token generation maxAttempts leaseSeconds =>
    simp only [Op.run, SessionRepository.beginRevocation]
    split
    · split
      · refine .revoked _ rfl rfl (.one _ _ fun r hr hp =>
          ⟨.lease now (now + seconds leaseSeconds) token SessionRepository.authLogout,
            ⟨rfl, rfl, ?_⟩, .inl hp.2, rfl⟩)
        exact (enqueue_row hq (fun s hs he => hnew s hs (by simp [Op.uuids, he])) hr hp.1).1
      · exact .updates .refl
    · exact .updates .refl
  | setError =>
    simp only [Op.run, SessionRepository.setError]
    split
    · split <;> exact .updates .refl
    · exact .updates .refl
  | clear =>
    simp only [Op.run, SessionRepository.clear]
    split
    · split <;> exact .updates .refl
    · exact .updates .refl
  -- the local writes enqueue one entry, or withdraw a creation that nobody has tried
  | createCamera now cameraId itemId payload maxCameras maxAttempts =>
    simp only [Op.run, CameraRepository.create]
    split
    · exact .updates .refl
    · exact .enqueued _ rfl
  | updateCamera now itemId cameraId changes maxAttempts =>
    simp only [Op.run, CameraRepository.update]
    split
    · exact .updates .refl
    · rename_i current hfind
      exact .enqueued _ (by simp [enqueueOf, hfind])
  | deleteCamera now itemId cameraId maxAttempts =>
    simp only [Op.run, CameraRepository.delete]
    split
    · exact .updates .refl
    · rename_i camera hfind
      simp only [CameraRepository.deleteLocal, CameraRepository.deleteQueue, Prod.map_apply,
        id_eq]
      split
      · rename_i latest hlatest
        split
        · rename_i hwithdraws
          exact .updates (.one _ _ fun r _ hp => ⟨.cancel now,
            ⟨hp.2, camera, latest, hfind, hlatest, hwithdraws, hp.1⟩, .inl hp.2, rfl⟩)
        · rename_i hwithdraws
          exact .enqueued _ (by simp [enqueueOf, hfind, hlatest, hwithdraws])
      · rename_i hlatest
        exact .enqueued _ (by simp [enqueueOf, hfind, hlatest])
  | addEvent now itemId eventId payload maxAttempts =>
    simp only [Op.run, AnalyticsRepository.addEvent]
    split
    · exact .updates .refl
    · rename_i imageId himage
      cases hadd : AnalyticsRepository.add now itemId payload.cameraId
        (AnalyticsRepository.insertEvent eventId payload) .syncEvents _ (.event eventId)
        maxAttempts db with
      | error e => exact .updates .refl
      | ok db' =>
        obtain ⟨dep, hdep, hqueue, -⟩ := add_queue (fun _ => insertEvent_core) hadd
        show OpCases _ _ db'.syncQueue
        rw [hqueue]
        exact .enqueued _ (by simp [enqueueOf, himage, hdep])
  | addAlert now itemId alertId payload maxAttempts =>
    simp only [Op.run, AnalyticsRepository.addAlert]
    split
    · exact .updates .refl
    · rename_i imageId himage
      cases hadd : AnalyticsRepository.add now itemId payload.cameraId
        (AnalyticsRepository.insertAlert alertId payload) .syncAlerts _ (.alert alertId)
        maxAttempts db with
      | error e => exact .updates .refl
      | ok db' =>
        obtain ⟨dep, hdep, hqueue, -⟩ := add_queue (fun _ => insertAlert_core) hadd
        show OpCases _ _ db'.syncQueue
        rw [hqueue]
        exact .enqueued _ (by simp [enqueueOf, himage, hdep])
  | addPeopleCount now itemId countId payload maxAttempts =>
    simp only [Op.run, AnalyticsRepository.addPeopleCount]
    cases hadd : AnalyticsRepository.add now itemId payload.cameraId
      (AnalyticsRepository.insertPeopleCount countId payload) .syncPeopleCount _ (.count countId)
      maxAttempts db with
    | error e => exact .updates .refl
    | ok db' =>
      obtain ⟨dep, hdep, hqueue, -⟩ := add_queue (fun _ => insertPeopleCount_core) hadd
      show OpCases _ _ db'.syncQueue
      rw [hqueue]
      exact .enqueued _ (by simp [enqueueOf, hdep])
  | enqueueRevocation => exact .enqueued _ rfl
  -- the sweep releases the expired leases, and then the ready rows are leased
  | claim now token owner limit key leaseSeconds =>
    simp only [Op.run, SyncQueueRepository.claim]
    split
    · exact .updates .refl
    · rename_i hargs
      simp only [committed]
      rw [claimRows_queue]
      refine .updates (.tail (.single (.mk _ _ fun r hr hp =>
        ⟨.release now, ⟨rfl, hr, hp, hargs⟩, hp.1, rfl⟩)) (.mk _ _ fun r hr hp => ?_))
      exact ⟨.lease now (now + seconds leaseSeconds) token owner,
        ⟨rfl, rfl, rfl, rfl, hr, selected_ready (sweep_unique hq now) hr hp.1⟩, hp.2, rfl⟩
  -- the settlements touch the rows of their own lease
  | complete now itemId token owner =>
    simp only [Op.run, SyncQueueRepository.complete]
    split
    · exact .updates .refl
    · split
      · simp only [Prod.map_apply, id_eq, (markSynced_core _ _).syncQueue]
        exact .updates (succeedOwned_updates fun _ hr hp => ⟨rfl, hr, hp⟩)
      · exact .updates (succeedOwned_updates fun _ hr hp => ⟨rfl, hr, hp⟩)
  | completeCamera now itemId token owner localId serverId =>
    simp only [Op.run, SyncQueueRepository.completeCamera]
    split <;> exact .updates (succeedOwned_updates fun _ hr hp => ⟨rfl, hr, hp⟩)
  | completeRevocation now itemId token owner generation =>
    simp only [Op.run, SyncQueueRepository.completeRevocation]
    split <;> exact .updates (succeedOwned_updates fun _ hr hp => ⟨rfl, hr, hp⟩)
  | fail now itemId token owner code message permanent =>
    simp only [Op.run, SyncQueueRepository.fail]
    split
    · exact .updates .refl
    · rename_i row hfind
      exact .updates (fail_updates hq (fun r hr hp => ⟨rfl, rfl, rfl, rfl, hr, hp⟩) hfind)
  -- the operator's two actions on dead letters
  | retryDeadLetter now itemId =>
    exact .updates (.one _ _ fun r _ hp => ⟨.retry now, hp.1, hp.2, rfl⟩)
  | discardDeadLetter now itemId =>
    exact .updates (.one _ _ fun r _ hp => ⟨.cancel now, hp, .inr hp.2, rfl⟩)
  | purgeRetained now succeededDays deadLetterDays =>
    exact .purged now succeededDays deadLetterDays rfl

/-- The id of the `_enqueue` call of an operation is issued by the operation. -/
theorem enqueueOf_uuid {db : Db} {op : Op} {e : Enqueue} (h : enqueueOf db op = some e) :
    e.itemId ∈ op.uuids := by
  cases op <;> simp only [enqueueOf, reduceCtorEq, Option.some.injEq, Option.map_eq_some_iff] at h
  case updateCamera => obtain ⟨_, _, rfl⟩ := h; simp [Op.uuids]
  case deleteCamera =>
    split at h
    · split at h <;> cases h
      simp [Op.uuids]
    · cases h
  case addEvent => split at h <;> cases h; simp [Op.uuids]
  case addAlert => split at h <;> cases h; simp [Op.uuids]
  case addPeopleCount => split at h <;> cases h; simp [Op.uuids]
  all_goals subst h; simp [Op.uuids]

/-- Every operation changes the queue by a sequence of the statements that `Makes` and `Bears`
describe. -/
theorem op_statements (db : Db) (op : Op) (hq : UniqueOn Row.id db.syncQueue)
    (hnew : ∀ r ∈ db.syncQueue, r.id ∉ op.uuids) :
    Statements (Makes db op) (Bears db op) db.syncQueue (op.run db).1.syncQueue := by
  have hcases := op_cases db op hq hnew
  generalize (op.run db).1.syncQueue = q' at hcases ⊢
  cases hcases with
  | updates h => exact h.statements
  | enqueued e he =>
    exact enqueueOf_statements hq he fun r hr hid => hnew r hr (hid ▸ enqueueOf_uuid he)
  | revoked e he _ h =>
    exact .trans (enqueueOf_statements hq he fun r hr hid =>
      hnew r hr (hid ▸ enqueueOf_uuid he)) h.statements
  | purged now succeededDays deadLetterDays hop =>
    subst hop
    exact purgeQueue_statements succeededDays deadLetterDays (fun _ => trivial)
      (fun _ => trivial) fun _ => trivial

end Operations

/-! ### Invariants of rows -/

/-- Ids are unique and were issued. -/
structure Keyed (s : Store) : Prop where
  unique : UniqueOn Row.id s.db.syncQueue
  issued : ∀ r ∈ s.db.syncQueue, r.id ∈ s.issued

/-- The statements of an admitted operation on a keyed store. -/
theorem Keyed.statements {s : Store} (h : Keyed s) {op : Op} (hadmits : s.Admits op) :
    Statements (Makes s.db op) (Bears s.db op) s.db.syncQueue (op.run s.db).1.syncQueue :=
  op_statements s.db op h.unique fun r hr hmem => hadmits.2 _ hmem (h.issued r hr)

/-- A step keeps the store keyed. -/
theorem keyed_step {s s' : Store} {op : Op} (hstep : storeMachine.step s op = some s')
    (h : Keyed s) : Keyed s' := by
  obtain ⟨hadmits, rfl⟩ := store_step hstep
  have hst := h.statements hadmits
  refine ⟨hst.unique h.unique, fun r' hr' => ?_⟩
  obtain ⟨r, hr, hsteps⟩ := hst.rows r' hr'
  rw [(rowSteps_fixed hsteps).1]
  rcases hr with hr | ⟨e, _, _, he, rfl⟩
  · exact List.mem_append_right _ (h.issued r hr)
  · exact List.mem_append_left _ (enqueueOf_uuid he)

/-- The empty store has no row. -/
theorem keyed_empty : Keyed .empty :=
  ⟨UniqueOn.nil, fun _ hr => nomatch hr⟩

/-- Every reachable store is keyed. -/
theorem keyed_reachable {ok : Store → Op → Prop} {s : Store}
    (h : Reachable storeMachine ok s) : Keyed s :=
  h.invariant keyed_empty fun _ _ _ _ _ hstep => keyed_step hstep

/-- What a step does to a property of rows: the old rows have it, inserted rows have it, and
the changes of the operation keep it. -/
theorem step_rows {P : Row → Prop} {s s' : Store} {op : Op} (hkeyed : Keyed s)
    (hstep : storeMachine.step s op = some s') (hold : ∀ r ∈ s.db.syncQueue, P r)
    (hnew : ∀ r, Bears s.db op r → P r)
    (hchange : ∀ r c, Makes s.db op c r → c.Guard r → P r → P (c.apply r)) :
    ∀ r ∈ s'.db.syncQueue, P r := by
  intro r' hr'
  obtain ⟨hadmits, rfl⟩ := store_step hstep
  obtain ⟨r, hr, hsteps⟩ := (hkeyed.statements hadmits).rows r' hr'
  refine rowSteps_keep hchange hsteps ?_
  rcases hr with hr | hr
  · exact hold r hr
  · exact hnew r hr

/-- A property of rows that inserted rows have and that every change of an allowed operation
keeps holds of every row of every reachable store. -/
theorem row_invariant {P : Row → Prop} {ok : Store → Op → Prop}
    (hnew : ∀ s op r, ok s op → Bears s.db op r → P r)
    (hchange : ∀ s op r c, ok s op → Makes s.db op c r → c.Guard r → P r → P (c.apply r))
    {s : Store} (h : Reachable storeMachine ok s) : ∀ r ∈ s.db.syncQueue, P r :=
  h.invariant (I := fun s => ∀ r ∈ s.db.syncQueue, P r)
    (fun _ hr => absurd hr List.not_mem_nil) fun s op _ hreach hok hstep ih =>
      step_rows (keyed_reachable hreach) hstep ih (fun r => hnew s op r hok)
        fun r c => hchange s op r c hok

end Rsap.Proofs
