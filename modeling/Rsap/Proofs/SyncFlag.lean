import Rsap.Proofs.CameraOrder
import Rsap.Proofs.LeasedRows

/-!
# `Rsap.Proofs.SyncFlag`: the `sync_state` of a camera

`update` marks a camera `pending` when it queues an edit, and `complete_camera` marks it `synced`.
The completion does not look at the rows of the camera that were queued while the completed row
was leased, so the flag may say `synced` while an edit waits (`synced_early`).

`SettlesLast` excludes such completions. Under it the flag is true along every run, and a
completion outside of it makes the flag false at once (`flag_truthful`).
-/

set_option autoImplicit false

namespace Rsap.Proofs

open Rsap.Library
open Rsap.Library.Machine (Reachable Any)
open Rsap.Desktop
open Relation (ReflTransGen)

/-- A camera that is marked `synced` has no row that is pending, inflight, in `retry_wait` or a
dead letter. -/
def Truthful (s : Store) : Prop :=
  ∀ camera ∈ s.db.localCameras, camera.syncState = .synced →
    ∀ r ∈ s.db.syncQueue, r.logicalKey = .camera camera.id →
      r.state ≠ .pending ∧ r.state ≠ .inflight ∧ r.state ≠ .retryWait ∧ r.state ≠ .deadLetter

/-- A completion that settles a row for a local camera settles its last open row. -/
def SettlesLast (s : Store) : Op → Prop
  | .completeCamera now itemId token owner localId _ =>
    (∃ r ∈ s.db.syncQueue, SyncQueueRepository.Owned itemId token owner now r) →
      (∃ camera ∈ s.db.localCameras, camera.id = localId) →
        ∀ t ∈ s.db.syncQueue, t.logicalKey = .camera localId → t.id ≠ itemId → t.Done
  | _ => True

instance (s : Store) : ∀ op, Decidable (SettlesLast s op)
  | .completeCamera .. => inferInstanceAs (Decidable (_ → _))
  | .save .. | .replaceActive .. | .markRevocationPending .. | .beginRevocation .. | .setError ..
  | .clear .. | .createCamera .. | .updateCamera .. | .deleteCamera .. | .addEvent ..
  | .addAlert .. | .addPeopleCount .. | .enqueueRevocation .. | .claim .. | .complete ..
  | .completeRevocation .. | .fail .. | .retryDeadLetter .. | .discardDeadLetter ..
  | .purgeRetained .. => .isTrue trivial

/-- The other four states are those of a row that is not done. -/
theorem done_iff {r : Row} : r.Done ↔
    r.state ≠ .pending ∧ r.state ≠ .inflight ∧ r.state ≠ .retryWait ∧ r.state ≠ .deadLetter := by
  unfold Row.Done
  cases r.state <;> simp

/-- Every change keeps a done row done. -/
theorem Change.done {c : Change} {r : Row} (hg : c.Guard r) (h : r.Done) : (c.apply r).Done := by
  cases c with
  | coalesce | release | lease | succeed | fail | retry =>
    rcases h with h | h <;> simp [Change.Guard, Row.Fresh, Row.Waiting, h] at hg
  | cancel => exact .inr rfl
  | withdraw => exact .inr rfl
  | unlinkPredecessor | unlinkDependency => exact h

/-! ### Which cameras are marked `synced` -/

section Flag
variable {db : Db} {op : Op}

/-- An `_enqueue` call under a camera's key is made by one of the three methods. -/
theorem enqueueOf_key {e : Enqueue} {c : Uuid} (h : enqueueOf db op = some e)
    (hkey : e.logicalKey = .camera c) :
    c ∈ op.uuids ∨ (∃ now itemId changes maxAttempts camera,
        op = .updateCamera now itemId c changes maxAttempts ∧
        (db.localCameras.find? fun camera => camera.id = c) = some camera) ∨
      ∃ now itemId maxAttempts, op = .deleteCamera now itemId c maxAttempts := by
  -- only the three writes of a camera enqueue under its key
  cases op <;> simp only [enqueueOf, reduceCtorEq, Option.some.injEq, Option.map_eq_some_iff] at h
  case createCamera =>
    subst h
    cases hkey
    exact .inl (by simp [Op.uuids])
  case updateCamera =>
    obtain ⟨camera, hfind, rfl⟩ := h
    cases hkey
    exact .inr (.inl ⟨_, _, _, _, camera, rfl, hfind⟩)
  case deleteCamera =>
    split at h
    · split at h <;> cases h
      cases hkey
      exact .inr (.inr ⟨_, _, _, rfl⟩)
    · cases h
  case addEvent => split at h <;> cases h; cases hkey
  case addAlert => split at h <;> cases h; cases hkey
  case addPeopleCount => split at h <;> cases h; cases hkey
  all_goals subst h; cases hkey

/-- A camera is marked `synced` after an operation because it was before, or by a completion that
returns true. -/
theorem synced_cases {camera : LocalCamera} (hmem : camera ∈ (op.run db).1.localCameras)
    (hsynced : camera.syncState = .synced) :
    camera ∈ db.localCameras ∨ ∃ now itemId token owner serverId,
      op = .completeCamera now itemId token owner camera.id serverId ∧
      (op.run db).2 = .flag true ∧ ∃ old ∈ db.localCameras, old.id = camera.id := by
  have hcases := cameras_cases db op
  generalize (op.run db).1.localCameras = cameras at hcases hmem
  cases hcases with
  | same => exact .inl hmem
  | created now cameraId itemId payload maxCameras maxAttempts =>
    rcases List.mem_append.mp hmem with hold | hnew
    · exact .inl hold
    · rw [List.mem_singleton.mp hnew] at hsynced
      cases hsynced
  -- an update marks the camera as waiting
  | updated now itemId cameraId changes maxAttempts =>
    obtain ⟨old, hold, rfl⟩ := mem_updateWhere.mp hmem
    split at hsynced
    · cases hsynced
    · rename_i hne
      rw [if_neg hne]
      exact .inl hold
  | deleted => exact .inl (mem_deleteWhere.mp hmem).1
  -- and only a completion marks it as synced
  | completed now itemId token owner localId serverId hflag =>
    obtain ⟨old, hold, rfl⟩ := mem_updateWhere.mp hmem
    by_cases hid : old.id = localId
    · rw [if_pos hid]
      subst hid
      exact .inr ⟨now, itemId, token, owner, serverId, rfl, hflag, old, hold, rfl⟩
    · rw [if_neg hid]
      exact .inl hold

/-- A camera that an operation leaves marked `synced` is not updated or deleted by it. -/
theorem synced_untouched {camera : LocalCamera} (hmem : camera ∈ (op.run db).1.localCameras)
    (hsynced : camera.syncState = .synced) :
    (∀ now itemId changes maxAttempts,
      op ≠ .updateCamera now itemId camera.id changes maxAttempts ∨
        (db.localCameras.find? fun c => c.id = camera.id) = none) ∧
      ∀ now itemId maxAttempts, op ≠ .deleteCamera now itemId camera.id maxAttempts := by
  refine ⟨fun now itemId changes maxAttempts => ?_, ?_⟩
  · by_contra h
    push Not at h
    obtain ⟨rfl, hfound⟩ := h
    obtain ⟨current, hfind⟩ := Option.ne_none_iff_exists'.mp hfound
    simp only [Op.run, CameraRepository.update, hfind, Prod.map_apply, id_eq] at hmem
    obtain ⟨old, hold, heq⟩ := mem_updateWhere.mp hmem
    split at heq
    · rw [← heq] at hsynced
      cases hsynced
    · rename_i hne
      exact hne (by rw [heq])
  · rintro now itemId maxAttempts rfl
    exact delete_dead db now itemId camera.id maxAttempts ⟨camera, hmem, rfl⟩

end Flag

/-! ### The flag along a run -/

/-- A completion that returns true owns a row and completes it. -/
theorem completed_row {s : Store} (hkeyed : Keyed s) {now : Timestamp} {itemId token : Uuid}
    {owner : String} {localId serverId : Uuid}
    (hflag : ((Op.completeCamera now itemId token owner localId serverId).run s.db).2 =
      .flag true) :
    (∃ r ∈ s.db.syncQueue, SyncQueueRepository.Owned itemId token owner now r) ∧
      ((Op.completeCamera now itemId token owner localId serverId).run s.db).1.syncQueue =
        updateWhere (fun r => r.id = itemId) (SyncQueueRepository.succeed now)
          s.db.syncQueue := by
  have hsettling : (Op.completeCamera now itemId token owner localId serverId).settling =
      some (.completeCamera, itemId, token, owner) := rfl
  rcases settle_cases hkeyed.unique hsettling with ⟨-, hmiss⟩ | ⟨r, hr, howned, hqueue, -⟩
  · rw [hmiss] at hflag
    cases hflag
  · exact ⟨⟨r, hr, howned⟩, hqueue⟩

/-- An operation that meets the condition keeps the flag true. -/
theorem truthful_step {s s' : Store} {op : Op} (hreach : Reachable storeMachine Any s)
    (hok : SettlesLast s op) (hstep : storeMachine.step s op = some s') (h : Truthful s) :
    Truthful s' := by
  have hkeyed := keyed_reachable hreach
  obtain ⟨hadmits, rfl⟩ := store_step hstep
  intro camera hmem hsynced r' hr' hkey
  refine done_iff.mp ?_
  rcases synced_cases hmem hsynced with hold | ⟨now, itemId, token, owner, serverId, rfl, hflag,
    old, hold, hid⟩
  · -- the camera was marked before, and the operation queues nothing for it
    obtain ⟨r, hr, hsteps⟩ := (hkeyed.statements hadmits).rows r' hr'
    have hkey₀ : r.logicalKey = .camera camera.id := (rowSteps_fixed hsteps).2.1.symm.trans hkey
    refine rowSteps_keep (fun _ _ _ hg hd => Change.done hg hd) hsteps ?_
    -- the row was there before, or the operation queued it
    rcases hr with hr | ⟨e, _, _, he, rfl⟩
    · exact done_iff.mpr (h camera hold hsynced r hr hkey₀)
    · obtain ⟨hupdated, hdeleted⟩ := synced_untouched hmem hsynced
      rcases enqueueOf_key he hkey₀ with hnew | ⟨now, itemId, changes, maxAttempts, current, hop,
        hfind⟩ | ⟨now, itemId, maxAttempts, hop⟩
      · exact absurd ((cameraIds_reachable hreach).issued camera hold) (hadmits.2 _ hnew)
      · rcases hupdated now itemId changes maxAttempts with hne | hnone
        · exact absurd hop hne
        · rw [hfind] at hnone
          cases hnone
      · exact absurd hop (hdeleted now itemId maxAttempts)
  · -- the completed row is done, and the condition says it of the others
    obtain ⟨howned, hqueue⟩ := completed_row hkeyed hflag
    have hr'' : r' ∈ updateWhere (fun r => r.id = itemId) (SyncQueueRepository.succeed now)
        s.db.syncQueue := hqueue ▸ hr'
    obtain ⟨t, ht, rfl⟩ := mem_updateWhere.mp hr''
    by_cases hitem : t.id = itemId
    · rw [if_pos hitem]
      exact .inl rfl
    · rw [if_neg hitem] at hkey ⊢
      exact hok howned ⟨old, hold, hid⟩ t ht hkey hitem

/-- A completion that leaves another row of the camera open makes the flag false. -/
theorem untruthful_step {s s' : Store} {op : Op} (hreach : Reachable storeMachine Any s)
    (hok : ¬ SettlesLast s op) (hstep : storeMachine.step s op = some s') : ¬ Truthful s' := by
  have hkeyed := keyed_reachable hreach
  obtain ⟨-, rfl⟩ := store_step hstep
  cases op with
  | completeCamera now itemId token owner localId serverId =>
    simp only [SettlesLast] at hok
    push Not at hok
    obtain ⟨⟨r, hr, howned⟩, ⟨old, hold, hid⟩, t, ht, hkey, hne, hopen⟩ := hok
    have hsettling : (Op.completeCamera now itemId token owner localId serverId).settling =
        some (.completeCamera, itemId, token, owner) := rfl
    rcases settle_cases hkeyed.unique hsettling with
        ⟨hnone, -⟩ | ⟨-, -, -, hqueue, hreply⟩
    · exact absurd howned (hnone r hr)
    intro htrue
    have hcameras : ((Op.completeCamera now itemId token owner localId serverId).run
        s.db).1.localCameras = updateWhere (fun c => c.id = localId)
          ({ · with serverId := some serverId, syncState := .synced }) s.db.localCameras := by
      simp only [Op.run, SyncQueueRepository.completeCamera] at hreply ⊢
      split
      · rfl
      · rename_i hmiss
        simp [hmiss] at hreply
    -- the camera is marked
    have hcamera : { old with serverId := some serverId, syncState := .synced } ∈
        ((Op.completeCamera now itemId token owner localId serverId).run s.db).1.localCameras := by
      rw [hcameras]
      exact mem_updateWhere.mpr ⟨old, hold, if_pos hid⟩
    -- while this row of it is still open
    have hrow : t ∈ ((Op.completeCamera now itemId token owner localId serverId).run
        s.db).1.syncQueue := by
      rw [hqueue]
      exact mem_updateWhere.mpr ⟨t, ht, if_neg hne⟩
    rcases done_iff.mpr (htrue _ hcamera rfl t hrow (hkey.trans (by rw [← hid]))) with hd | hd
    · exact hopen.1 hd
    · exact hopen.2 hd
  | _ => exact absurd trivial hok

/-- The flag is true in every run whose completions settle the last open row of their camera, and
the first completion that does not makes it false. -/
theorem flag_truthful {s : Store} (h : Reachable storeMachine SettlesLast s) :
    Truthful s ∧ ∀ op s', storeMachine.step s op = some s' →
      (Truthful s' ↔ SettlesLast s op) := by
  have htrue : Truthful s := by
    refine h.invariant (I := Truthful) (fun _ hc => absurd hc List.not_mem_nil) ?_
    exact fun s op s' hreach hok hstep ih => truthful_step hreach.any hok hstep ih
  refine ⟨htrue, fun op s' hstep => ⟨fun htrue' => ?_, fun hok => ?_⟩⟩
  · by_contra hok
    exact untruthful_step h.any hok hstep htrue'
  · exact truthful_step h.any hok hstep htrue

/-- A camera is created, its row is leased, and the lease is completed. -/
def settledCreation : List Op :=
  [.createCamera 0 1 2 ⟨"gate", "rtsp://gate", .rtsp, none, [], []⟩ 4 defaultMaxAttempts,
    .claim 1 3 "worker" 1 none 60, .completeCamera 2 2 3 "worker" 1 1]

/-- A camera whose row is settled. -/
theorem flag_truthful_settled :
    let s := storeMachine.final .empty settledCreation
    Truthful s ∧ s.db.localCameras.map (·.syncState) = [.synced] :=
  ⟨(flag_truthful (.final .init settledCreation (by decide +kernel))).1, by decide +kernel⟩

/-- The name of the camera changes while the creation is leased. The completion of the creation
marks the camera `synced`, and the change still waits. -/
def editedLease : List Op :=
  [.createCamera 0 1 2 ⟨"gate", "rtsp://gate", .rtsp, none, [], []⟩ 4 defaultMaxAttempts,
    .claim 1 3 "worker" 1 none 60,
    renamingOp 4 2,
    .completeCamera 3 2 3 "worker" 1 1]

/-- A camera that is edited while its row is in flight is marked as synced too early. -/
theorem synced_early : ¬ ∀ s, Reachable storeMachine Any s → Truthful s := by
  intro h
  have hreach : Reachable storeMachine Any (storeMachine.final .empty editedLease) :=
    .final .init editedLease (by decide +kernel)
  have hrow := h _ hreach
  have hfalse : ¬ ∀ camera ∈ (storeMachine.final .empty editedLease).db.localCameras,
      camera.syncState = .synced → ∀ r ∈ (storeMachine.final .empty editedLease).db.syncQueue,
        r.logicalKey = .camera camera.id → r.state ≠ .pending := by decide +kernel
  exact hfalse fun camera hc hs r hr hk => (hrow camera hc hs r hr hk).1

end Rsap.Proofs
