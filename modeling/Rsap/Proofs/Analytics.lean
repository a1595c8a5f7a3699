import Rsap.Proofs.CameraOrder
import Rsap.Proofs.Completions
import Rsap.Proofs.Purge

/-!
# `Rsap.Proofs.Analytics`: no record is sent before its camera exists

An analytics record is enqueued without a link when its camera has a server id, and otherwise
with a link to the earliest row of the camera. `Ordered` says what holds of such a record in
every reachable store: a row of its camera was settled by `complete_camera`, or the record is
cancelled, or it was never leased and its link names a row that creates or changes the camera.

The last case is the one that waits. A claim leases the record only when that row succeeded,
and a row that creates or changes a camera succeeds only by `complete_camera` (`done_step`).
Two operations could unblock the record. `delete` folds a deletion into the row only when the
camera has a server id, which `complete_camera` alone sets (`root_step`, `synced_step`). The
purge cuts the link, but it cancels the record with the row, unless the row had succeeded
(`fate_turn`).
-/

set_option autoImplicit false

namespace Rsap.Proofs

open Rsap.Library
open Rsap.Library.Machine (Reachable Any)
open Rsap.Desktop
open Relation (ReflTransGen)
open SyncQueueRepository (purgeCandidate descendantIds)

/-- The camera of an analytics record. -/
def recordCamera : Payload → Option Uuid
  | .events event => some event.cameraId
  | .alerts alert => some alert.cameraId
  | .snapshots count => some count.cameraId
  | _ => none

/-- A row of the camera was settled by `complete_camera`. -/
def Created (c : Uuid) (log : List Entry) : Prop :=
  ∃ itemId token owner, .settled .completeCamera itemId token owner (some (.camera c)) ∈ log

/-- The id names a row of the camera that does not delete it. -/
def Root (q : List Row) (c itemId : Uuid) : Prop :=
  ∃ d ∈ q, d.id = itemId ∧ d.logicalKey = .camera c ∧ d.payload.isCameraDelete = false

/-- A record has a created camera, or is cancelled, or waits for a row of its camera. -/
def RecordFate (q : List Row) (log : List Entry) (r : Row) : Prop :=
  ∀ c, recordCamera r.payload = some c → Created c log ∨ r.state = .cancelled ∨
    (r.Fresh ∧ ∃ d, r.dependsOnId = some d ∧ Root q c d)

/-- What keeps analytics records behind their cameras. -/
structure Ordered (s : Store) : Prop where
  synced : ∀ camera ∈ s.db.localCameras, camera.serverId ≠ none → Created camera.id s.log
  done : ∀ r ∈ s.db.syncQueue, ∀ c, r.logicalKey = .camera c → r.state = .succeeded →
    r.payload.isCameraDelete = true ∨ Created c s.log
  dead : ∀ r ∈ s.db.syncQueue, ∀ c, r.logicalKey = .camera c →
    r.payload.isCameraDelete = true → ¬ Alive s.db c
  records : ∀ r ∈ s.db.syncQueue, RecordFate s.db.syncQueue s.log r

/-- The log only grows. -/
theorem Created.append {c : Uuid} {log : List Entry} (h : Created c log) (entries : List Entry) :
    Created c (entries ++ log) := by
  obtain ⟨itemId, token, owner, hmem⟩ := h
  exact ⟨itemId, token, owner, List.mem_append_right _ hmem⟩

/-! ### What operations enqueue -/

/-- A record enqueued for a camera: the camera has a server id, or the record depends on a row
of the living camera. -/
theorem enqueueOf_record {db : Db} {op : Op} {e : Enqueue} {c : Uuid}
    (h : enqueueOf db op = some e) (hrecord : recordCamera e.payload = some c) :
    ∃ camera ∈ db.localCameras, camera.id = c ∧ (camera.serverId ≠ none ∨
      ∃ d ∈ db.syncQueue, e.dependsOnId = some d.id ∧ d.logicalKey = .camera c) := by
  -- `_camera_dependency` refuses a camera that is not there, and otherwise names its last row
  have hdependency : ∀ cameraId dependsOnId,
      AnalyticsRepository.cameraDependency cameraId db = .ok dependsOnId →
      ∃ camera ∈ db.localCameras, camera.id = cameraId ∧ (camera.serverId ≠ none ∨
        ∃ d ∈ db.syncQueue, dependsOnId = some d.id ∧ d.logicalKey = .camera cameraId) := by
    intro cameraId dependsOnId hdep
    unfold AnalyticsRepository.cameraDependency at hdep
    split at hdep
    · cases hdep
    · rename_i camera hfind
      obtain ⟨hmem, hid⟩ := find_alive hfind
      refine ⟨camera, hmem, hid, ?_⟩
      split at hdep
      · rename_i hserver
        exact .inl (Option.isSome_iff_ne_none.mp hserver)
      · split at hdep
        · cases hdep
        · rename_i d hfirst
          cases hdep
          obtain ⟨hd, hkey⟩ := firstBy_mem hfirst
          exact .inr ⟨d, hd, rfl, hkey⟩
  -- only the three writes of records enqueue one
  cases op <;> simp only [enqueueOf, reduceCtorEq, Option.some.injEq, Option.map_eq_some_iff] at h
  case addEvent =>
    split at h
    · rename_i hdep
      cases h
      cases hrecord
      exact hdependency _ _ hdep
    · cases h
  case addAlert =>
    split at h
    · rename_i hdep
      cases h
      cases hrecord
      exact hdependency _ _ hdep
    · cases h
  case addPeopleCount =>
    split at h
    · rename_i hdep
      cases h
      cases hrecord
      exact hdependency _ _ hdep
    · cases h
  case updateCamera =>
    obtain ⟨current, -, rfl⟩ := h
    simp only [CameraRepository.queuedUpdate] at hrecord
    split at hrecord <;> cases hrecord
  case deleteCamera =>
    split at h
    · split at h <;> cases h
      cases hrecord
    · cases h
  all_goals subst h; cases hrecord

/-- A deletion is enqueued by `delete` only. It is folded into a waiting row only when the
camera has a server id. -/
theorem enqueueOf_delete {db : Db} {op : Op} {e : Enqueue} (h : enqueueOf db op = some e)
    (hdelete : e.payload.isCameraDelete = true) :
    ∃ now itemId c maxAttempts camera, op = .deleteCamera now itemId c maxAttempts ∧
      e.logicalKey = .camera c ∧ camera ∈ db.localCameras ∧ camera.id = c ∧
      ∀ latest, latestRow (.camera c) db.syncQueue = some latest → latest.Waiting →
        camera.serverId ≠ none := by
  -- only `delete` enqueues a deletion, and not where a fresh creation is withdrawn
  cases op <;> simp only [enqueueOf, reduceCtorEq, Option.some.injEq, Option.map_eq_some_iff] at h
  case deleteCamera now itemId c maxAttempts =>
    split at h
    · rename_i camera hfind
      split at h
      · cases h
      · rename_i hkeeps
        cases h
        obtain ⟨hmem, hid⟩ := find_alive hfind
        refine ⟨now, itemId, c, maxAttempts, camera, rfl, rfl, hmem, hid, ?_⟩
        intro latest hlatest hwaiting hserver
        refine hkeeps ?_
        rw [hlatest]
        exact decide_eq_true ⟨hserver, hwaiting⟩
    · cases h
  case updateCamera =>
    obtain ⟨current, -, rfl⟩ := h
    simp only [CameraRepository.queuedUpdate] at hdelete
    split at hdelete <;> cases hdelete
  case addEvent => split at h <;> cases h; cases hdelete
  case addAlert => split at h <;> cases h; cases hdelete
  case addPeopleCount => split at h <;> cases h; cases hdelete
  all_goals subst h; cases hdelete

/-! ### Operations other than the purge -/

section Steps
variable {s s' : Store} {op : Op} {c : Uuid}

/-- The key that the log records is the key of the row. -/
theorem keyOf_row {q : List Row} (hq : UniqueOn Row.id q) {r : Row} (hr : r ∈ q) :
    keyOf r.id q = some r.logicalKey := by
  cases hfind : q.find? fun t => t.id = r.id with
  | none => exact absurd (decide_eq_true rfl) (List.find?_eq_none.mp hfind r hr)
  | some t =>
    have hid : t.id = r.id := by simpa using List.find?_some hfind
    rw [keyOf, hfind, hq.eq (List.mem_of_find?_eq_some hfind) hr hid]
    rfl

/-- A camera's completion that reports success is in the log. -/
theorem completeCamera_created (hq : UniqueOn Row.id s.db.syncQueue) {now : Timestamp}
    {itemId token : Uuid} {owner : String} {localId serverId : Uuid} {r : Row}
    (hmatched : Matched s (.completeCamera now itemId token owner localId serverId))
    (hr : r ∈ s.db.syncQueue) (howned : SyncQueueRepository.Owned itemId token owner now r) :
    Created localId ((Op.completeCamera now itemId token owner localId serverId).entries s.db
      ((Op.completeCamera now itemId token owner localId serverId).run s.db).2 ++ s.log) := by
  have hreply : ((Op.completeCamera now itemId token owner localId serverId).run s.db).2 =
      .flag true := by
    have hsettling : (Op.completeCamera now itemId token owner localId serverId).settling =
        some (.completeCamera, itemId, token, owner) := rfl
    rcases settle_cases hq hsettling with ⟨hnone, -⟩ | ⟨-, -, -, -, hreply⟩
    · exact absurd howned (hnone r hr)
    · exact hreply
  have hkey : keyOf itemId s.db.syncQueue = some (.camera localId) := by
    rw [← howned.1, keyOf_row hq hr, hmatched r hr howned.1]
  refine ⟨itemId, token, owner, List.mem_append_left _ ?_⟩
  rw [hreply, ← hkey]
  exact List.mem_cons_self

/-- A camera that has a server id was created. -/
theorem synced_step (hkeyed : Keyed s) (hmatched : Matched s op)
    (hstep : storeMachine.step s op = some s')
    (h : ∀ camera ∈ s.db.localCameras, camera.serverId ≠ none → Created camera.id s.log) :
    ∀ camera ∈ s'.db.localCameras, camera.serverId ≠ none → Created camera.id s'.log := by
  obtain ⟨-, rfl⟩ := store_step hstep
  intro camera hcamera hserver
  have hcases := cameras_cases s.db op
  generalize hafter : (op.run s.db).1.localCameras = cameras at hcases
  rw [show _ = _ from hafter] at hcamera
  cases hcases with
  | same => exact (h camera hcamera hserver).append _
  | created =>
    rcases List.mem_append.mp hcamera with hold | hnew
    · exact (h camera hold hserver).append _
    · rw [List.mem_singleton.mp hnew] at hserver
      exact absurd rfl hserver
  | updated =>
    obtain ⟨old, hold, rfl⟩ := mem_updateWhere.mp hcamera
    split at hserver
    · rename_i hid
      rw [if_pos hid]
      exact (h old hold hserver).append _
    · rename_i hid
      rw [if_neg hid]
      exact (h old hold hserver).append _
  | deleted => exact (h camera (mem_deleteWhere.mp hcamera).1 hserver).append _
  | completed now itemId token owner localId serverId hreply =>
    obtain ⟨old, hold, rfl⟩ := mem_updateWhere.mp hcamera
    split at hserver
    · rename_i hid
      rw [if_pos hid]
      -- the call reports success, so it owned a row
      have hsettling : (Op.completeCamera now itemId token owner localId serverId).settling =
          some (.completeCamera, itemId, token, owner) := rfl
      rcases settle_cases hkeyed.unique hsettling with ⟨-, hmiss⟩ | ⟨r, hr, howned, -⟩
      · rw [hmiss] at hreply
        cases hreply
      · show Created old.id _
        rw [hid]
        exact completeCamera_created hkeyed.unique hmatched hr howned
    · rename_i hid
      rw [if_neg hid]
      exact (h old hold hserver).append _

/-- A row that creates or changes a camera succeeds by `complete_camera` only. -/
theorem done_step (hkeyed : Keyed s)
    (hfits : ∀ r ∈ s.db.syncQueue, Fits r.logicalKey r.endpoint r.payload)
    (hmatched : Matched s op) (hstep : storeMachine.step s op = some s')
    (h : ∀ r ∈ s.db.syncQueue, ∀ c, r.logicalKey = .camera c → r.state = .succeeded →
      r.payload.isCameraDelete = true ∨ Created c s.log) :
    ∀ r ∈ s'.db.syncQueue, ∀ c, r.logicalKey = .camera c → r.state = .succeeded →
      r.payload.isCameraDelete = true ∨ Created c s'.log := by
  have hlog : s'.log = op.entries s.db (op.run s.db).2 ++ s.log := by
    rw [(store_step hstep).2]
  refine step_rows (P := fun r => ∀ c, r.logicalKey = .camera c → r.state = .succeeded →
    r.payload.isCameraDelete = true ∨ Created c s'.log) hkeyed hstep ?_ ?_ ?_
  · intro r hr c hkey hstate
    rw [hlog]
    exact (h r hr c hkey hstate).imp_right fun hcreated => hcreated.append _
  · rintro r ⟨_, _, _, _, rfl⟩ c _ hstate
    cases hstate
  · intro r change hmakes hguard hr c hkey hstate
    -- of the changes only completing a row makes it succeeded
    cases change with
    | succeed now =>
      cases op <;> simp only [Makes] at hmakes
      case complete =>
        obtain ⟨rfl, hmem, howned⟩ := hmakes
        have hsaves := hmatched r hmem howned.1
        have hrow := hfits r hmem
        rw [show r.logicalKey = _ from hkey] at hrow
        refine .inl ?_
        show r.payload.isCameraDelete = true
        cases hpayload : r.payload <;> rw [hpayload] at hrow hsaves
        case cameraPost | cameraPatch => cases hsaves
        case cameraDelete => rfl
        all_goals cases hrow.1
      -- completing a creation logs it
      case completeCamera =>
        obtain ⟨rfl, hmem, howned⟩ := hmakes
        have hlocal := hmatched r hmem howned.1
        rw [show r.logicalKey = _ from hkey] at hlocal
        cases hlocal
        rw [hlog]
        exact .inr (completeCamera_created hkeyed.unique hmatched hmem howned)
      case completeRevocation =>
        obtain ⟨rfl, hmem, howned⟩ := hmakes
        have hrevoke := hmatched r hmem howned.1
        rw [show r.logicalKey = _ from hkey] at hrevoke
        cases hrevoke
    -- no other change writes that state
    | fail now code message permanent =>
      simp only [Change.apply, SyncQueueRepository.failRow] at hstate
      split at hstate <;> cases hstate
    | unlinkPredecessor | unlinkDependency => exact hr c hkey hstate
    | coalesce | release | lease | cancel | withdraw | retry => cases hstate

/-- A queued deletion of a camera has no camera. -/
theorem dead_step {ok : Store → Op → Prop} (hreach : Reachable storeMachine ok s)
    (hstep : storeMachine.step s op = some s')
    (h : ∀ r ∈ s.db.syncQueue, ∀ c, r.logicalKey = .camera c →
      r.payload.isCameraDelete = true → ¬ Alive s.db c) :
    ∀ r ∈ s'.db.syncQueue, ∀ c, r.logicalKey = .camera c →
      r.payload.isCameraDelete = true → ¬ Alive s'.db c := by
  have hkeyed := keyed_reachable hreach
  have hstore := store_step hstep
  have hdb : s'.db = (op.run s.db).1 := by rw [hstore.2]
  -- what the operation enqueues as a deletion, it deletes
  have hqueued : ∀ e c, enqueueOf s.db op = some e → e.logicalKey = .camera c →
      e.payload.isCameraDelete = true → ¬ Alive s'.db c := by
    intro e c he hkey hdelete
    obtain ⟨now, itemId, c', maxAttempts, -, rfl, hkey', -⟩ := enqueueOf_delete he hdelete
    rw [hkey] at hkey'
    cases hkey'
    rw [hdb]
    exact delete_dead s.db now itemId c maxAttempts
  refine step_rows (P := fun r => ∀ c, r.logicalKey = .camera c →
    r.payload.isCameraDelete = true → ¬ Alive s'.db c) hkeyed hstep ?_ ?_ ?_
  · intro r hr c hkey hdelete halive
    rw [hdb] at halive
    rcases alive_run halive with hold | ⟨_, _, _, _, _, rfl⟩
    · exact h r hr c hkey hdelete hold
    · -- the id of a new camera is on no row yet
      exact hstore.1.2 c (by simp [Op.uuids]) (cameraKey_issued hreach r hr c hkey)
  · rintro r ⟨e, _, _, he, rfl⟩ c hkey hdelete
    exact hqueued e c he hkey hdelete
  · intro r change hmakes _ hr c hkey hdelete
    cases change with
    | coalesce endpoint payload now dependsOnId =>
      obtain ⟨e, he, -, hlatest, -, rfl, -, -⟩ := hmakes
      exact hqueued e c he ((latestBy_mem hlatest).2.symm.trans hkey) hdelete
    | _ => exact hr c hkey hdelete

/-- What is enqueued for a camera finds the camera created, or names a row of the camera. -/
theorem enqueued_waits (h : Ordered s) {e : Enqueue} (he : enqueueOf s.db op = some e)
    (hrecord : recordCamera e.payload = some c) :
    Created c s.log ∨ ∃ d, e.dependsOnId = some d ∧ Root s.db.syncQueue c d := by
  obtain ⟨camera, hcamera, hid, hwaits⟩ := enqueueOf_record he hrecord
  rcases hwaits with hserver | ⟨d, hd, hdep, hkey⟩
  · exact .inl (hid ▸ h.synced camera hcamera hserver)
  · refine .inr ⟨d.id, hdep, d, hd, rfl, hkey, ?_⟩
    -- the camera lives, so none of its rows deletes it
    by_contra hdelete
    exact h.dead d hd c hkey (by simpa using hdelete) ⟨camera, hcamera, hid⟩

/-- A lease takes a record only when its camera was created. -/
theorem leases_created (hq : UniqueOn Row.id s.db.syncQueue) (h : Ordered s)
    {now expires : Timestamp} {token : Uuid} {owner : String} {r : Row}
    (hleases : Leases s.db op now expires token owner r)
    (hfits : Fits r.logicalKey r.endpoint r.payload)
    (hfate : RecordFate s.db.syncQueue s.log r) (hrecord : recordCamera r.payload = some c) :
    Created c s.log := by
  cases op with
  -- a claim asks for a dependency that has succeeded
  | claim now' token' owner' limit key leaseSeconds =>
    obtain ⟨-, -, -, -, -, hwaiting, -, -, -, hmet⟩ := hleases
    rcases hfate c hrecord with hcreated | hcancelled | ⟨-, d, hdep, d₀, hd₀, hid, hkey, hkeeps⟩
    · exact hcreated
    · rcases hwaiting with hw | hw <;> rw [hcancelled] at hw <;> cases hw
    · -- the row that the record waits for has succeeded
      rw [SyncQueueRepository.DependencyMet, hdep] at hmet
      rcases hmet with hnone | ⟨t, ht, htid, hstate⟩
      · cases hnone
      obtain ⟨t₀, ht₀, rfl⟩ := mem_updateWhere.mp ht
      split at hstate
      · cases hstate
      · rename_i hexpired
        rw [if_neg hexpired, ← hid] at htid
        obtain rfl := hq.eq hd₀ ht₀ (Option.some.inj htid)
        rcases h.done d₀ hd₀ c hkey hstate with hdelete | hcreated
        · rw [hkeeps] at hdelete
          cases hdelete
        · exact hcreated
  | beginRevocation =>
    obtain ⟨-, -, hkey⟩ := hleases
    rw [hkey] at hfits
    cases hpayload : r.payload <;> rw [hpayload] at hfits hrecord
    case events | alerts | snapshots => cases hfits.1
    all_goals cases hrecord
  | _ => cases hleases

/-- An operation other than the purge keeps the fate of a row. -/
theorem makes_fate (hq : UniqueOn Row.id s.db.syncQueue) (h : Ordered s)
    (hpurge : ∀ now d d', op ≠ .purgeRetained now d d') {change : Change} {r : Row}
    (hmakes : Makes s.db op change r) (hguard : change.Guard r)
    (hfits : Fits r.logicalKey r.endpoint r.payload)
    (hfate : RecordFate s.db.syncQueue s.log r) :
    RecordFate s.db.syncQueue s.log (change.apply r) := by
  intro c hrecord
  -- a row that is inflight or dead is no record that waits
  have hcreated : r.state ≠ .pending → r.state ≠ .cancelled →
      recordCamera r.payload = some c → Created c s.log := by
    intro hpending hcancelled hrecord
    rcases hfate c hrecord with hdone | hdone | ⟨hfresh, -⟩
    · exact hdone
    · exact absurd hdone hcancelled
    · exact absurd hfresh.1 hpending
  cases change with
  | coalesce endpoint payload now dependsOnId =>
    obtain ⟨e, he, -, -, -, rfl, -, rfl⟩ := hmakes
    rcases enqueued_waits h he hrecord with hdone | ⟨d, hdep, hroot⟩
    · exact .inl hdone
    · exact .inr (.inr ⟨⟨rfl, hguard.2⟩, d, by simp [Change.apply, Row.coalesce, hdep], hroot⟩)
  | lease => exact .inl (leases_created hq h hmakes hfits hfate hrecord)
  | release | succeed | fail =>
    have hstate : r.state = .inflight := hguard
    exact .inl (hcreated (by simp [hstate]) (by simp [hstate]) hrecord)
  | retry =>
    have hstate : r.state = .deadLetter := hguard
    exact .inl (hcreated (by simp [hstate]) (by simp [hstate]) hrecord)
  | cancel | withdraw => exact .inr (.inl rfl)
  | unlinkPredecessor | unlinkDependency =>
    cases op <;> cases hmakes
    exact absurd rfl (hpurge _ _ _)

/-- After an operation other than the purge every record has its fate, by the old queue and the
old log. -/
theorem fate_run {ok : Store → Op → Prop} (hreach : Reachable storeMachine ok s) (h : Ordered s)
    (hadmits : s.Admits op) (hpurge : ∀ now d d', op ≠ .purgeRetained now d d') :
    ∀ r ∈ (op.run s.db).1.syncQueue, RecordFate s.db.syncQueue s.log r := by
  have hkeyed := keyed_reachable hreach
  intro r' hr'
  obtain ⟨r, hr, hsteps⟩ := (hkeyed.statements hadmits).rows r' hr'
  refine (rowSteps_keep (P := fun r => Fits r.logicalKey r.endpoint r.payload ∧
    RecordFate s.db.syncQueue s.log r) (fun r change hmakes hguard hold =>
      ⟨makes_fits hmakes hold.1, makes_fate hkeyed.unique h hpurge hmakes hguard hold.1 hold.2⟩)
    hsteps ?_).2
  rcases hr with hr | ⟨e, _, _, he, rfl⟩
  · exact ⟨fits_reachable hreach r hr, h.records r hr⟩
  · refine ⟨enqueueOf_fits he, fun c hrecord => ?_⟩
    rcases enqueued_waits h he hrecord with hdone | hwaits
    · exact .inl hdone
    · exact .inr (.inr ⟨⟨rfl, rfl⟩, hwaits⟩)

/-- A row of a camera stays, and deletes the camera only when the camera was created. -/
theorem root_step {ok : Store → Op → Prop} (hreach : Reachable storeMachine ok s)
    (h : Ordered s) (hstep : storeMachine.step s op = some s')
    (hpurge : ∀ now d d', op ≠ .purgeRetained now d d') {itemId : Uuid}
    (hroot : Root s.db.syncQueue c itemId) :
    Root s'.db.syncQueue c itemId ∨ Created c s.log := by
  obtain ⟨d, hd, rfl, hkey, hkeeps⟩ := hroot
  have hkeyed := keyed_reachable hreach
  have hmem : d ∈ chain (.camera c) s.db.syncQueue := mem_chain.mpr ⟨hd, hkey⟩
  have hfolded : ∀ e r, enqueueOf s.db op = some e →
      latestRow e.logicalKey s.db.syncQueue = some r → r.Fresh → r.logicalKey = .camera c →
      e.payload.isCameraDelete = true → Created c s.log := by
    intro e r he hlatest hfresh hrkey hdelete
    have hekey : e.logicalKey = .camera c := (latestBy_mem hlatest).2.symm.trans hrkey
    obtain ⟨-, -, c', -, camera, -, hkey', hcamera, rfl, hwaits⟩ := enqueueOf_delete he hdelete
    rw [hekey] at hkey'
    cases hkey'
    rw [hekey] at hlatest
    exact h.synced camera hcamera (hwaits r hlatest (.inl hfresh.1))
  have hcases := chain_cases hkeyed hstep c
  generalize hafter : chain (.camera c) s'.db.syncQueue = l at hcases
  -- a row of the new chain with the id is the new row of the camera
  have hnew : ∀ d' ∈ l, d'.id = d.id →
      d'.payload.isCameraDelete = false ∨ Created c s.log →
      Root s'.db.syncQueue c d.id ∨ Created c s.log := by
    intro d' hd' hid hfate
    obtain ⟨hd', hkey'⟩ := mem_chain.mp (hafter ▸ hd')
    exact hfate.imp_left fun hkeeps' => ⟨d', hd', hid, hkey', hkeeps'⟩
  cases hcases with
  | changed f hsteps =>
    have hf := hsteps d hmem
    refine hnew (f d) (List.mem_map_of_mem hmem) (rowSteps_fixed hf).1 ?_
    refine (rowSteps_keep (P := fun r => r.logicalKey = .camera c ∧
      (r.payload.isCameraDelete = false ∨ Created c s.log))
      (fun r change hmakes hguard hold => ?_) hf ⟨hkey, .inl hkeeps⟩).2
    refine ⟨(change.apply_fixed r).2.1.trans hold.1, ?_⟩
    cases change with
    | coalesce endpoint payload now dependsOnId =>
      obtain ⟨e, he, -, hlatest, -, rfl, -, -⟩ := hmakes
      cases hdelete : e.payload.isCameraDelete with
      | false => exact .inl hdelete
      | true => exact .inr (hfolded e r he hlatest hguard hold.1 hdelete)
    | _ => exact hold.2
  | enqueued e he hekey =>
    have hversioned := versioned_reachable hreach
    rcases chain_enqueue hkeyed.unique hversioned hekey with
      ⟨init, last, hchain, hfresh, hqueued⟩ | ⟨-, version, hqueued⟩
    · rw [hqueued] at hnew
      have hlast : last ∈ chain (.camera c) s.db.syncQueue := by simp [hchain]
      rcases List.mem_append.mp (hchain ▸ hmem) with hinit | hsame
      · exact hnew d (List.mem_append_left _ hinit) rfl (.inl hkeeps)
      · obtain rfl := List.mem_singleton.mp hsame
        refine hnew _ (List.mem_append_right _ List.mem_cons_self) rfl ?_
        cases hdelete : e.payload.isCameraDelete with
        | false => exact .inl hdelete
        | true =>
          have hlatest : latestRow e.logicalKey s.db.syncQueue = some d := by
            rw [hekey, latestRow_chain _ hversioned, hchain, List.getLast?_append]
            rfl
          exact .inr (hfolded e d he hlatest hfresh hkey hdelete)
    · rw [hqueued] at hnew
      exact hnew d (List.mem_append_left _ hmem) rfl (.inl hkeeps)
  | purged now d d' hop => exact absurd hop (hpurge now d d')

end Steps

/-! ### The purge -/

section Purge
variable {now : Timestamp} {q : List Row} {log : List Entry} {cand : Uuid × QueueState}
  {cands : List (Uuid × QueueState)}

/-- What a turn of the purge leaves was there before. -/
theorem Root.of_turn {c itemId : Uuid} (h : Root (purgeCandidate now q cand) c itemId) :
    Root q c itemId := by
  obtain ⟨d', hd', hid, hkey, hkeeps⟩ := h
  obtain ⟨d, hd, -, rfl⟩ := mem_purgeCandidate.mp hd'
  obtain ⟨hid', hkey', hpayload, -⟩ := turnRow_fixed now q cand d
  exact ⟨d, hd, hid'.symm.trans hid, hkey'.symm.trans hkey, hpayload ▸ hkeeps⟩

/-- A turn removes no row but its candidate. -/
theorem Root.turn {c itemId : Uuid} (h : Root q c itemId) (hne : itemId ≠ cand.1) :
    Root (purgeCandidate now q cand) c itemId := by
  obtain ⟨d, hd, rfl, hkey, hkeeps⟩ := h
  obtain ⟨hid', hkey', hpayload, -⟩ := turnRow_fixed now q cand d
  refine ⟨turnRow now q cand d, mem_purgeCandidate.mpr ⟨d, hd, hne, rfl⟩, hid',
    hkey'.trans hkey, ?_⟩
  rw [hpayload]
  exact hkeeps

/-- The candidate is settled, and where it succeeded as a row of a camera, the camera was
created. -/
def Retirable (q : List Row) (log : List Entry) (cand : Uuid × QueueState) : Prop :=
  (cand.2 = .succeeded ∧ ∀ c, Root q c cand.1 → Created c log) ∨ cand.2 = .cancelled ∨
    cand.2 = .deadLetter

/-- One turn of the purge keeps the fate of a record. When the candidate is the row that the
record waits for, the camera was created or the turn withdraws the record. -/
theorem fate_turn (hcand : Retirable q log cand) {r : Row} (hr : r ∈ q)
    (h : RecordFate q log r) :
    RecordFate (purgeCandidate now q cand) log (turnRow now q cand r) := by
  intro c hrecord
  obtain ⟨-, -, hpayload, -⟩ := turnRow_fixed now q cand r
  rw [hpayload] at hrecord
  -- the turn withdraws the row itself, or leaves it
  by_cases hwithdrawn : WithdrawnBy q cand r
  · refine .inr (.inl ?_)
    rw [turnRow_state, if_pos hwithdrawn]
  rcases h c hrecord with hcreated | hcancelled | ⟨hfresh, d, hdep, hroot⟩
  · exact .inl hcreated
  · refine .inr (.inl ?_)
    rw [turnRow_state, if_neg hwithdrawn]
    exact hcancelled
  -- the purged row may be the one that the record waits for
  by_cases hd : d = cand.1
  · subst hd
    have hstate : r.state ≠ .inflight := by rw [hfresh.1]; simp
    -- it has succeeded, was cancelled or is dead, and only the first leaves the record alive
    rcases hcand with ⟨-, hsucceeded⟩ | hcancelled | hdead
    · exact .inl (hsucceeded c hroot)
    · exact absurd ⟨hstate, .inr ⟨hcancelled, hdep⟩⟩ hwithdrawn
    · refine absurd ⟨hstate, .inl ⟨hdead, mem_descendants.mpr (.child hr ?_)⟩⟩ hwithdrawn
      simp [SyncQueueRepository.linkedRow, hdep]
  · refine .inr (.inr ⟨?_, d, ?_, hroot.turn hd⟩)
    · have hlast := (turnRow_fixed now q cand r).2.2.2
      refine ⟨?_, hlast.trans hfresh.2⟩
      rw [turnRow_state, if_neg hwithdrawn]
      exact hfresh.1
    · show cut cand.1 r.dependsOnId = some d
      rw [hdep, cut, if_neg fun he => hd (Option.some.inj he)]

/-- The turns of the purge keep the fates of the records. -/
theorem fate_turns (hcands : ∀ cand ∈ cands, Retirable q log cand)
    (h : ∀ r ∈ q, RecordFate q log r) :
    ∀ r ∈ cands.foldl (purgeCandidate now) q,
      RecordFate (cands.foldl (purgeCandidate now) q) log r := by
  induction cands generalizing q with
  | nil => exact h
  | cons cand cands ih =>
    refine ih (fun cand' hcand' => ?_) fun r' hr' => ?_
    · refine (hcands cand' (List.mem_cons_of_mem _ hcand')).imp_left fun hsucceeded => ?_
      exact ⟨hsucceeded.1, fun c hroot => hsucceeded.2 c hroot.of_turn⟩
    · obtain ⟨r, hr, -, rfl⟩ := mem_purgeCandidate.mp hr'
      exact fate_turn (hcands cand List.mem_cons_self) hr (h r hr)

/-- The candidates of a purge, in an ordered store. -/
theorem purgeCandidates_retirable {s : Store} (hq : UniqueOn Row.id s.db.syncQueue)
    (h : Ordered s) {succeededBefore deadBefore : Timestamp} (hcand : cand ∈
      SyncQueueRepository.purgeCandidates succeededBefore deadBefore s.db.syncQueue) :
    Retirable s.db.syncQueue s.log cand := by
  obtain ⟨r, hr, hsettled, rfl⟩ := purgeCandidates_mem hcand
  rcases hsettled with (hsucceeded | hcancelled) | hdead
  · refine .inl ⟨hsucceeded, fun c ⟨d, hd, hid, hkey, hkeeps⟩ => ?_⟩
    obtain rfl := hq.eq hd hr hid
    rcases h.done d hd c hkey hsucceeded with hdelete | hcreated
    · rw [hkeeps] at hdelete
      cases hdelete
    · exact hcreated
  · exact .inr (.inl hcancelled)
  · exact .inr (.inr hdead)

end Purge

/-! ### Every reachable store -/

/-- The log stays with a fate. -/
theorem RecordFate.append {q : List Row} {log : List Entry} {r : Row}
    (h : RecordFate q log r) (entries : List Entry) : RecordFate q (entries ++ log) r :=
  fun c hrecord => (h c hrecord).imp_left fun hcreated => hcreated.append entries

section Stores
variable {s s' : Store} {op : Op}

/-- Every operation keeps the fates of the records. -/
theorem records_step (hreach : Reachable storeMachine Matched s) (h : Ordered s)
    (hstep : storeMachine.step s op = some s') :
    ∀ r ∈ s'.db.syncQueue, RecordFate s'.db.syncQueue s'.log r := by
  have hkeyed := keyed_reachable hreach
  have hstore := store_step hstep
  have hdb : s'.db = (op.run s.db).1 := by rw [hstore.2]
  have hlog : s'.log = op.entries s.db (op.run s.db).2 ++ s.log := by rw [hstore.2]
  rw [hlog]
  intro r hr
  refine RecordFate.append ?_ _
  -- a purge takes its candidates one by one, every other operation is one step
  by_cases hpurge : ∃ now d d', op = .purgeRetained now d d'
  · obtain ⟨now, d, d', rfl⟩ := hpurge
    rw [hdb] at hr ⊢
    exact fate_turns (fun cand hcand => purgeCandidates_retirable hkeyed.unique h hcand)
      h.records r hr
  · have hother : ∀ now d d', op ≠ .purgeRetained now d d' :=
      fun now d d' he => hpurge ⟨now, d, d', he⟩
    intro c hrecord
    rcases fate_run hreach h hstore.1 hother r (hdb ▸ hr) c hrecord with
      hcreated | hcancelled | ⟨hfresh, d, hdep, hroot⟩
    · exact .inl hcreated
    · exact .inr (.inl hcancelled)
    · rcases root_step hreach h hstep hother hroot with hroot' | hcreated
      · exact .inr (.inr ⟨hfresh, d, hdep, hroot'⟩)
      · exact .inl hcreated

/-- Matched runs keep the store ordered. -/
theorem ordered_reachable (h : Reachable storeMachine Matched s) : Ordered s := by
  refine h.invariant (I := Ordered) ?_ fun s op s' hreach hmatched hstep ih => ?_
  · exact ⟨fun _ hc => absurd hc List.not_mem_nil, fun _ hr => absurd hr List.not_mem_nil,
      fun _ hr => absurd hr List.not_mem_nil, fun _ hr => absurd hr List.not_mem_nil⟩
  · have hkeyed := keyed_reachable hreach
    exact ⟨synced_step hkeyed hmatched hstep ih.synced,
      done_step hkeyed (fits_reachable hreach) hmatched hstep ih.done,
      dead_step hreach hstep ih.dead, records_step hreach ih hstep⟩

/-- A claim leases a record only when its camera was created. -/
theorem claimed_created (h : Reachable storeMachine Matched s) {now : Timestamp} {token : Uuid}
    {owner : String} {limit : Nat} {key : Option LogicalKey} {leaseSeconds : Nat}
    {rows : List Row} (hadmits : s.Admits (.claim now token owner limit key leaseSeconds))
    (hrows : ((Op.claim now token owner limit key leaseSeconds).run s.db).2 = .rows rows)
    {r : Row} (hr : r ∈ rows) {c : Uuid} (hrecord : recordCamera r.payload = some c) :
    Created c s.log := by
  have hkeyed := keyed_reachable h
  have hfresh := claim_fresh (tokensIssued_reachable h) hadmits
  have hmem := ((claimRows_returned hkeyed.unique hfresh (claim_run hrows)).2.2 r).mp hr
  obtain ⟨r₀, -, -, rfl⟩ := claim_ready hkeyed.unique hfresh (claim_run hrows) r hr
  rcases fate_run h (ordered_reachable h) hadmits (fun _ _ _ he => by cases he) _ hmem.1 c hrecord
    with hcreated | hcancelled | ⟨hwaits, -⟩
  · exact hcreated
  · cases hcancelled
  · cases hwaits.1

end Stores

/-- Analytics never overtake their camera. In every run of the desktop, when a claim leases an
event, an alert or a count of a camera, a row of the camera was settled by `complete_camera`
before. -/
theorem analytics_after_camera {settings : Settings} {w : World}
    (h : Reachable (worldMachine settings) Any w) {now : Timestamp} {token : Uuid}
    {owner : String} {limit : Nat} {key : Option LogicalKey} {leaseSeconds : Nat}
    {rows : List Row} (hadmits : w.store.Admits (.claim now token owner limit key leaseSeconds))
    (hrows : ((Op.claim now token owner limit key leaseSeconds).run w.store.db).2 = .rows rows) :
    ∀ r ∈ rows, ∀ c, recordCamera r.payload = some c → Created c w.store.log :=
  fun _ hr _ hrecord => claimed_created (matched_reachable h) hadmits hrows hr hrecord

/-- The session of the run below. -/
def gateSession : LocalSession := ⟨1, 2, some 4, 1000, some 3, none⟩

/-- The central service stores the camera and sends no data back. -/
def gateStored : AttemptOutcome :=
  .response ⟨200, "application/json", .value (.obj [("success", .bool true)])⟩

/-- An event is queued before the `POST` of its camera was sent. A pass sends the `POST` alone
and completes it. -/
def eventBeforeCamera : List Act :=
  [.login 3 gateSession true, .license 0 (some ([("is_active", .bool true)], 1000)),
    .authWrite 0 0 0,
    .op (.createCamera 1 10 11 ⟨"gate", "rtsp://gate", .rtsp, none, [], []⟩ 4 defaultMaxAttempts),
    .op (.addEvent 2 12 13 ⟨10, "person", [], none, none, 2⟩ defaultMaxAttempts),
    .flush "worker" 100, .claim 0 3 14, .attempt 0 true gateStored, .settle 0 4]

/-- The next claim leases the event. -/
theorem analytics_after_camera_event :
    let w := (worldMachine defaultSettings).final .empty eventBeforeCamera
    let rows := (SyncQueueRepository.claimRows 5 15 "worker" 100 none 60 w.store.db.syncQueue).2
    rows.map Row.id = [12] ∧
      ∀ r ∈ rows, ∀ c, recordCamera r.payload = some c → Created c w.store.log :=
  ⟨by decide +kernel, @analytics_after_camera defaultSettings _
    (.final .init eventBeforeCamera (by decide +kernel)) 5 15 "worker" 100 none 60 _
    (by decide +kernel) rfl⟩

end Rsap.Proofs
