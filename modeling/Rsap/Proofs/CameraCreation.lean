import Rsap.Webapp.Cameras

/-!
# `Rsap.Proofs.CameraCreation`: what concurrent creations of cameras leave and answer

Two requests of one user do not overlap after they took the lock of the user's row, so nobody else
adds a row of the user meanwhile. Requests of two users meet at the unique id. `CreateSound` says
this for all requests at once, stage by stage (`StageSound`). `Moves` is what a statement can do
short of a commit, and `Commits` is the commit.

`Resolved` is how a request is answered for an id that was stored before. The answer is 201 with the
row when the request repeats it, and 409 when it does not. A request without the permission gets the
error of `authorize`. A request that had looked for the id before the row was committed goes through
the checks of the licence first, and can get 403 there.
-/

set_option autoImplicit false

namespace Rsap.Proofs

open Rsap.Library
open Rsap.Library.Machine (Reachable Path Any)
open Rsap.Desktop (Uuid Timestamp)
open Rsap.Webapp

/-! ### Steps -/

/-- The decision of `authorize` for a creation. -/
def createPermission (task : CreateTask) : Except Failure (Option Permission) :=
  authorize task.user "cameras" "create" (some task.user.id) none

/-- The stages that a request can reach by one statement, short of a commit. -/
inductive Moves (jsonb : Json → Json) (w : CreateWorld) (task : CreateTask) :
    CreateStage → Prop where
  | refused {failure : Failure} : task.stage = .received →
      createPermission task = .error failure → Moves jsonb w task (.answered (.error failure))
  | admitted {permission : Option Permission} : task.stage = .received →
      createPermission task = .ok permission → Moves jsonb w task .locking
  | locked : task.stage = .locking → ¬ w.LockTaken task.user.id → Moves jsonb w task .looking
  | found {row : CameraRow} : task.stage = .looking ∨ task.stage = .rereading →
      w.camera task.payload.id = some row → Moves jsonb w task (.answered (task.compare row))
  | missing : task.stage = .looking → w.camera task.payload.id = none →
      Moves jsonb w task .licensing
  | unlicensed : task.stage = .licensing → Moves jsonb w task (.answered (.error noLicense))
  | licensed {maxCameras : Nat} : task.stage = .licensing →
      Moves jsonb w task (.counting maxCameras)
  | limited {maxCameras : Nat} : task.stage = .counting maxCameras →
      Moves jsonb w task (.answered (.error limitReached))
  | counted {maxCameras : Nat} : task.stage = .counting maxCameras →
      w.cameraCount task.user.id < maxCameras → Moves jsonb w task (.inserting maxCameras)
  | conflicted {maxCameras : Nat} : task.stage = .inserting maxCameras →
      w.camera task.payload.id ≠ none → Moves jsonb w task .rereading
  | inserted {maxCameras : Nat} : task.stage = .inserting maxCameras →
      w.camera task.payload.id = none → ¬ w.IdTaken task.payload.id →
      Moves jsonb w task (.auditing maxCameras (task.payload.row jsonb task.user.id))
  | vanished : task.stage = .rereading → w.camera task.payload.id = none →
      Moves jsonb w task (.answered (.error idInUse))
  | cutOff : task.stage.over = false → Moves jsonb w task .cutOff

/-- The world after request `i` committed its row. -/
def committed (w : CreateWorld) (i : Nat) (task : CreateTask) (maxCameras : Nat) (row : CameraRow) :
    CreateWorld :=
  { w.goto i task (.answered (.ok row)) with
    cameras := w.cameras ++ [row]
    added := w.added ++ [(task.user.id, maxCameras)] }

/-- What a step does. -/
inductive CreateStep (jsonb : Json → Json) (w : CreateWorld) : CreateWorld → Prop where
  | arrives (user : CurrentUser) (payload : CameraCreate) :
      CreateStep jsonb w { w with tasks := w.tasks ++ [⟨user, payload, .received⟩] }
  | administers (licenses : List License) : CreateStep jsonb w { w with licenses }
  | moves {i : Nat} {task : CreateTask} {stage : CreateStage} : w.tasks[i]? = some task →
      Moves jsonb w task stage → CreateStep jsonb w (w.goto i task stage)
  | commits {i : Nat} {task : CreateTask} {maxCameras : Nat} {row : CameraRow} :
      w.tasks[i]? = some task → task.stage = .auditing maxCameras row →
      CreateStep jsonb w (committed w i task maxCameras row)

section Steps
variable {jsonb : Json → Json} {w w' : CreateWorld}

/-- A statement of a request, as a step. -/
theorem run_created {i : Nat} {now : Timestamp} (h : w.run jsonb i now = some w') :
    CreateStep jsonb w w' := by
  obtain ⟨task, htask, hrun⟩ := Option.bind_eq_some_iff.mp h
  -- one statement of the request per stage, each with its own answers
  cases hstage : task.stage with
  | received =>
    simp only [hstage] at hrun
    split at hrun <;> cases hrun
    · exact .moves htask (.refused hstage ‹_›)
    · exact .moves htask (.admitted hstage ‹_›)
  | locking =>
    simp only [hstage] at hrun
    split at hrun <;> cases hrun
    exact .moves htask (.locked hstage ‹_›)
  | looking =>
    simp only [hstage] at hrun
    split at hrun <;> cases hrun
    · exact .moves htask (.found (.inl hstage) ‹_›)
    · exact .moves htask (.missing hstage ‹_›)
  | licensing =>
    simp only [hstage] at hrun
    split at hrun <;> cases hrun
    · exact .moves htask (.unlicensed hstage)
    · exact .moves htask (.licensed hstage)
  | counting maxCameras =>
    simp only [hstage] at hrun
    split at hrun <;> cases hrun
    · exact .moves htask (.limited hstage)
    · exact .moves htask (.counted hstage (by omega))
  -- the insert meets a row of the same id, or waits for one that is not committed
  | inserting maxCameras =>
    simp only [hstage] at hrun
    split at hrun
    · rename_i hsome
      cases hrun
      exact .moves htask (.conflicted hstage (Option.isSome_iff_ne_none.mp hsome))
    · rename_i hnone
      split at hrun <;> cases hrun
      exact .moves htask (.inserted hstage (by simpa using hnone) ‹_›)
  | rereading =>
    simp only [hstage] at hrun
    split at hrun <;> cases hrun
    · exact .moves htask (.found (.inr hstage) ‹_›)
    · exact .moves htask (.vanished hstage ‹_›)
  -- the audit entry commits together with the row
  | auditing maxCameras row =>
    simp only [hstage] at hrun
    cases hrun
    exact .commits htask hstage
  | answered response => simp [hstage] at hrun
  | cutOff => simp [hstage] at hrun

/-- Inversion of a step. -/
theorem take_created {act : CreateAct} (h : (createMachine jsonb).step w act = some w') :
    CreateStep jsonb w w' := by
  cases act with
  | request user payload =>
    cases h
    exact .arrives user payload
  | run i now => exact run_created h
  | cutOff i =>
    obtain ⟨task, htask, hrun⟩ := Option.bind_eq_some_iff.mp h
    split at hrun
    · cases hrun
    · rename_i hover
      cases hrun
      exact .moves htask (.cutOff (Bool.not_eq_true _ ▸ hover))
  | administer licenses =>
    cases h
    exact .administers licenses

end Steps

/-! ### The invariant -/

/-- No committed row with the id of the request belongs to its user. -/
def Absent (w : CreateWorld) (task : CreateTask) : Prop :=
  ∀ row ∈ w.cameras, row.id = task.payload.id → row.userId ≠ task.user.id

/-- What holds of a request at its stage. -/
def StageSound (w : CreateWorld) (task : CreateTask) : Prop :=
  match task.stage with
  | .received | .cutOff => True
  | .answered response => ∀ row, response = .ok row →
    row ∈ w.cameras ∧ row.id = task.payload.id ∧ row.userId = task.user.id
  | .locking | .looking => ∃ permission, createPermission task = .ok permission
  | .licensing | .counting _ | .rereading =>
    (∃ permission, createPermission task = .ok permission) ∧ Absent w task
  | .inserting maxCameras =>
    (∃ permission, createPermission task = .ok permission) ∧ Absent w task ∧
      w.cameraCount task.user.id < maxCameras
  | .auditing maxCameras row =>
    (∃ permission, createPermission task = .ok permission) ∧
      (row.id = task.payload.id ∧ row.userId = task.user.id) ∧
      (∀ row' ∈ w.cameras, row'.id ≠ row.id) ∧ w.cameraCount task.user.id < maxCameras

/-- The `max_cameras` that was read for the last row of the user. -/
def lastLimit (w : CreateWorld) (userId : Uuid) : Nat :=
  (((w.added.filter (·.1 = userId)).getLast?).map (·.2)).getD 0

structure CreateSound (w : CreateWorld) : Prop where
  ids : (w.cameras.map (·.id)).Nodup
  stages : ∀ task ∈ w.tasks, StageSound w task
  locks : ∀ (i j : Nat) task task', w.tasks[i]? = some task → w.tasks[j]? = some task' → i ≠ j →
    task.stage.locked = true → task'.stage.locked = true → task.user.id ≠ task'.user.id
  inserts : ∀ (i j : Nat) task task', w.tasks[i]? = some task → w.tasks[j]? = some task' → i ≠ j →
    ∀ row ∈ task.stage.inserted, ∀ row' ∈ task'.stage.inserted, row.id ≠ row'.id
  limit : ∀ userId, w.cameraCount userId ≤ lastLimit w userId

/-- The row that is found is a row of its id. -/
theorem camera_some {w : CreateWorld} {id : Uuid} {row : CameraRow} (h : w.camera id = some row) :
    row ∈ w.cameras ∧ row.id = id :=
  ⟨List.mem_of_find?_eq_some h, by simpa using List.find?_some h⟩

/-- When none is found, no row has the id. -/
theorem camera_none {w : CreateWorld} {id : Uuid} (h : w.camera id = none) :
    ∀ row ∈ w.cameras, row.id ≠ id := by
  simpa [CreateWorld.camera] using h

section CreateSound
variable {jsonb : Json → Json} {w w' : CreateWorld} {task : CreateTask} {stage : CreateStage}

/-- A request that moves on keeps what holds of its stage. -/
theorem moves_sound (h : StageSound w task) (hmoves : Moves jsonb w task stage) :
    StageSound w { task with stage } := by
  unfold StageSound at h
  -- a lookup that found nothing says that the table has no such row
  have habsent : w.camera task.payload.id = none → Absent w task :=
    fun hnone row hrow hid => absurd hid (camera_none hnone row hrow)
  cases hmoves with
  | refused | unlicensed | limited | vanished => exact fun row hrow => by cases hrow
  | cutOff => trivial
  -- the row that was found answers the request if its payload is the same
  | @found found _ hcamera =>
    obtain ⟨hmem, hid⟩ := camera_some hcamera
    show ∀ row, task.compare found = .ok row → _
    unfold CreateTask.compare
    intro row hrow
    split at hrow <;> cases hrow
    rename_i hrepeats
    exact ⟨hmem, hid, hrepeats.1⟩
  | admitted _ hok => exact ⟨_, hok⟩
  | locked hstage =>
    rw [hstage] at h
    exact h
  | missing hstage hnone =>
    rw [hstage] at h
    exact ⟨h, habsent hnone⟩
  | licensed hstage =>
    rw [hstage] at h
    exact h
  -- the count is taken under the lock of the owner
  | counted hstage hlt =>
    rw [hstage] at h
    exact ⟨h.1, h.2, hlt⟩
  | conflicted hstage =>
    rw [hstage] at h
    exact ⟨h.1, h.2.1⟩
  -- the row is new, and it becomes visible at the commit
  | inserted hstage hnone =>
    rw [hstage] at h
    exact ⟨h.1, ⟨rfl, rfl⟩, camera_none hnone, h.2.2⟩

/-- The lock is taken at one place, when nobody else has it. -/
theorem moves_locked (hmoves : Moves jsonb w task stage) (hlocked : stage.locked = true) :
    task.stage.locked = true ∨ ¬ w.LockTaken task.user.id := by
  cases hmoves with
  | locked _ hfree => exact .inr hfree
  | refused | admitted | found | unlicensed | limited | vanished | cutOff => cases hlocked
  | missing hstage | licensed hstage | counted hstage | conflicted hstage | inserted hstage =>
    left
    rw [hstage]
    rfl

/-- A row is inserted when nobody else has inserted its id. -/
theorem moves_inserted (hmoves : Moves jsonb w task stage) {row : CameraRow}
    (hrow : row ∈ stage.inserted) : ¬ w.IdTaken row.id := by
  cases hmoves with
  | inserted _ _ hfree =>
    cases hrow
    exact hfree
  | refused | admitted | locked | found | missing | unlicensed | licensed | limited | counted
  | conflicted | vanished | cutOff => cases hrow

/-- Every request after a step is one from before, or the one that moved. -/
theorem getElem_set {i j : Nat} {t t' : CreateTask} (h : (w.tasks.set i t')[j]? = some t) :
    t = t' ∧ i = j ∨ i ≠ j ∧ w.tasks[j]? = some t := by
  rw [List.getElem?_set] at h
  by_cases hij : i = j
  · rw [if_pos hij] at h
    split at h <;> cases h
    exact .inl ⟨rfl, hij⟩
  · rw [if_neg hij] at h
    exact .inr ⟨hij, h⟩

/-- A property of the requests stays when one moves on. -/
theorem forall_set {i : Nat} {t' : CreateTask} {P : CreateTask → Prop} (hnew : P t')
    (h : ∀ (j : Nat) t, w.tasks[j]? = some t → i ≠ j → P t) :
    ∀ t ∈ w.tasks.set i t', P t := by
  intro t hmem
  obtain ⟨j, hj⟩ := List.mem_iff_getElem?.mp hmem
  rcases getElem_set hj with ⟨rfl, -⟩ | ⟨hij, hold⟩
  · exact hnew
  · exact h j t hold hij

/-- A fact about two requests stays when one moves on. -/
theorem pairwise_set {i : Nat} {t' : CreateTask} {P : CreateTask → CreateTask → Prop}
    (h : ∀ (j k : Nat) t u, w.tasks[j]? = some t → w.tasks[k]? = some u → j ≠ k → P t u)
    (hnew : ∀ (j : Nat) u, w.tasks[j]? = some u → i ≠ j → P t' u ∧ P u t') (j k : Nat)
    (t u : CreateTask) (ht : (w.tasks.set i t')[j]? = some t)
    (hu : (w.tasks.set i t')[k]? = some u) (hjk : j ≠ k) : P t u := by
  rcases getElem_set ht with ⟨rfl, rfl⟩ | ⟨hij, hold⟩
  · rcases getElem_set hu with ⟨-, rfl⟩ | ⟨hik, hold'⟩
    · exact absurd rfl hjk
    · exact (hnew k u hold' hik).1
  · rcases getElem_set hu with ⟨rfl, -⟩ | ⟨-, hold'⟩
    · exact (hnew j t hold hij).2
    · exact h j k t u hold hold' hjk

/-- A statement short of a commit keeps what is known of every request. -/
theorem sound_moves {i : Nat} (hw : CreateSound w) (ht : w.tasks[i]? = some task)
    (hmoves : Moves jsonb w task stage) : CreateSound (w.goto i task stage) where
  ids := hw.ids
  stages := by
    have hnew : StageSound w { task with stage } :=
      moves_sound (hw.stages task (List.mem_of_getElem? ht)) hmoves
    exact forall_set hnew fun j t hj _ => hw.stages t (List.mem_of_getElem? hj)
  locks := by
    refine pairwise_set hw.locks fun j u hu hij => ?_
    have hne : stage.locked = true → u.stage.locked = true → task.user.id ≠ u.user.id := by
      intro hlocked hu'
      rcases moves_locked hmoves hlocked with hold | hfree
      · exact hw.locks i j task u ht hu hij hold hu'
      · exact fun heq => hfree ⟨u, List.mem_of_getElem? hu, heq.symm, hu'⟩
    exact ⟨hne, fun hu' hlocked => (hne hlocked hu').symm⟩
  inserts := by
    refine pairwise_set hw.inserts fun j u hu _ => ?_
    have hne : ∀ row ∈ stage.inserted, ∀ row' ∈ u.stage.inserted, row.id ≠ row'.id := by
      intro row hrow row' hrow' heq
      exact moves_inserted hmoves hrow ⟨u, List.mem_of_getElem? hu, row', hrow', heq.symm⟩
    exact ⟨hne, fun row hrow row' hrow' => (hne row' hrow' row hrow).symm⟩
  limit := hw.limit

/-- The commit of another user's row keeps what holds of a request. -/
theorem committed_stage {i : Nat} {maxCameras : Nat} {row : CameraRow} {t : CreateTask}
    (h : StageSound w t) (hlock : t.stage.locked = true → row.userId ≠ t.user.id)
    (hid : ∀ row' ∈ t.stage.inserted, row.id ≠ row'.id) :
    StageSound (committed w i task maxCameras row) t := by
  -- no other locked task has this owner, so its count does not change
  have hcount : t.stage.locked = true →
      (committed w i task maxCameras row).cameraCount t.user.id = w.cameraCount t.user.id := by
    intro hlocked
    simp [CreateWorld.cameraCount, committed, hlock hlocked]
  -- nor does a row that this task has not seen appear under its owner
  have habsent : t.stage.locked = true → Absent w t →
      Absent (committed w i task maxCameras row) t := by
    intro hlocked habsent row' hrow' hid'
    rcases List.mem_append.mp hrow' with hold | hnew
    · exact habsent row' hold hid'
    · rw [List.mem_singleton.mp hnew]
      exact hlock hlocked
  unfold StageSound at h ⊢
  cases hstage : t.stage with
  | received | cutOff => trivial
  -- an answer is about a stored row, which stays
  | answered response =>
    rw [hstage] at h
    intro row' hrow'
    obtain ⟨hmem, hrest⟩ := h row' hrow'
    exact ⟨List.mem_append_left _ hmem, hrest⟩
  | locking | looking =>
    rw [hstage] at h
    exact h
  | licensing | counting | rereading =>
    rw [hstage] at h
    exact ⟨h.1, habsent (by rw [hstage]; rfl) h.2⟩
  | inserting =>
    rw [hstage] at h
    have hlocked : t.stage.locked = true := by rw [hstage]; rfl
    exact ⟨h.1, habsent hlocked h.2.1, by rw [hcount hlocked]; exact h.2.2⟩
  -- two inserts in flight have different ids
  | auditing _ row' =>
    rw [hstage] at h
    have hlocked : t.stage.locked = true := by rw [hstage]; rfl
    refine ⟨h.1, h.2.1, fun r hr => ?_, by rw [hcount hlocked]; exact h.2.2.2⟩
    rcases List.mem_append.mp hr with hold | hnew
    · exact h.2.2.1 r hold
    · rw [List.mem_singleton.mp hnew]
      exact hid row' (by rw [hstage]; rfl)

/-- A commit keeps what is known: the id was free, and the row is within the limit that was read.
-/
theorem sound_commits {i : Nat} {maxCameras : Nat} {row : CameraRow} (hw : CreateSound w)
    (ht : w.tasks[i]? = some task) (hstage : task.stage = .auditing maxCameras row) :
    CreateSound (committed w i task maxCameras row) := by
  have hsound := hw.stages task (List.mem_of_getElem? ht)
  unfold StageSound at hsound
  rw [hstage] at hsound
  -- the row is new, and the owner had room for it
  obtain ⟨-, ⟨hid, huser⟩, hfresh, hlt⟩ := hsound
  have hlocked : task.stage.locked = true := by rw [hstage]; rfl
  constructor
  -- the new id is fresh
  case ids =>
    show ((w.cameras ++ [row]).map (·.id)).Nodup
    rw [List.map_append, List.nodup_append]
    refine ⟨hw.ids, List.nodup_singleton _, ?_⟩
    intro old hold new hnew
    obtain ⟨r, hr, rfl⟩ := List.mem_map.mp hold
    rw [List.map_singleton, List.mem_singleton] at hnew
    rw [hnew]
    exact hfresh r hr
  case stages =>
    have hanswer : StageSound (committed w i task maxCameras row)
        { task with stage := .answered (.ok row) } := by
      intro r hr
      cases hr
      exact ⟨List.mem_append_right _ List.mem_cons_self, hid, huser⟩
    refine forall_set hanswer fun j t hj hij => ?_
    refine committed_stage (hw.stages t (List.mem_of_getElem? hj)) (fun hl => ?_)
      fun row' hrow' => ?_
    · rw [huser]
      exact hw.locks i j task t ht hj hij hlocked hl
    · exact hw.inserts i j task t ht hj hij row (by rw [hstage]; rfl) row' hrow'
  case locks =>
    refine pairwise_set hw.locks fun j u hu _ => ?_
    exact ⟨fun h => (by cases h), fun _ h => (by cases h)⟩
  case inserts =>
    refine pairwise_set hw.inserts fun j u hu _ => ?_
    exact ⟨fun r h => (by cases h), fun _ _ r h => (by cases h)⟩
  case limit =>
    intro userId
    -- the owner's count grows by one, and the last limit is the one that was read
    have hcount : (committed w i task maxCameras row).cameraCount userId =
        w.cameraCount userId + if task.user.id = userId then 1 else 0 := by
      simp [CreateWorld.cameraCount, committed, List.countP_singleton, huser]
    have hlast : lastLimit (committed w i task maxCameras row) userId =
        if task.user.id = userId then maxCameras else lastLimit w userId := by
      unfold lastLimit committed
      split <;> simp [List.filter_append, *]
    rw [hcount, hlast]
    split
    · rename_i hu
      rw [hu] at hlt
      omega
    · exact hw.limit userId

/-- A request that arrives knows nothing yet. -/
theorem sound_arrives (hw : CreateSound w) (user : CurrentUser) (payload : CameraCreate) :
    CreateSound { w with tasks := w.tasks ++ [⟨user, payload, .received⟩] } := by
  -- a request that did not begin holds no lock and has inserted nothing
  have hnew : ∀ (j : Nat) t, (w.tasks ++ [⟨user, payload, .received⟩])[j]? = some t →
      w.tasks[j]? = some t ∨ t.stage = .received := by
    intro j t hj
    rw [List.getElem?_append] at hj
    split at hj
    · exact .inl hj
    · right
      rw [List.mem_singleton.mp (List.mem_of_getElem? hj)]
  constructor
  case ids => exact hw.ids
  case stages =>
    intro t hmem
    rcases List.mem_append.mp hmem with hold | hlast
    · exact hw.stages t hold
    · rw [List.mem_singleton.mp hlast]
      trivial
  case locks =>
    intro j k t u ht hu hjk hlt hlu
    rcases hnew j t ht with ht | ht
    · rcases hnew k u hu with hu | hu
      · exact hw.locks j k t u ht hu hjk hlt hlu
      · rw [hu] at hlu
        cases hlu
    · rw [ht] at hlt
      cases hlt
  case inserts =>
    intro j k t u ht hu hjk row hrow row' hrow'
    rcases hnew j t ht with ht | ht
    · rcases hnew k u hu with hu | hu
      · exact hw.inserts j k t u ht hu hjk row hrow row' hrow'
      · rw [hu] at hrow'
        cases hrow'
    · rw [ht] at hrow
      cases hrow
  case limit => exact hw.limit

/-- Every step keeps what is known. -/
theorem sound_created (hw : CreateSound w) (h : CreateStep jsonb w w') : CreateSound w' := by
  cases h with
  | arrives user payload => exact sound_arrives hw user payload
  | administers licenses => exact ⟨hw.ids, hw.stages, hw.locks, hw.inserts, hw.limit⟩
  | moves ht hmoves => exact sound_moves hw ht hmoves
  | commits ht hstage => exact sound_commits hw ht hstage

/-- What is known of the requests holds in every reachable state. -/
theorem createSound_reachable (h : Reachable (createMachine jsonb) Any w) : CreateSound w := by
  refine h.invariant (I := CreateSound) ?_ fun w act w' _ _ hstep hw =>
    sound_created hw (take_created hstep)
  constructor
  case ids => exact List.nodup_nil
  case stages => exact fun t ht => absurd ht List.not_mem_nil
  case locks => exact fun i j t u ht => by cases ht
  case inserts => exact fun i j t u ht => by cases ht
  case limit => exact fun userId => Nat.le_refl 0

/-! ### Answers -/

/-- The answer of a request for the id of a stored row. A request is `late` when it had looked for
the id before the row was committed, and then checks the licence. -/
structure Resolved (task : CreateTask) (row : CameraRow) (late : Prop) (response : CreateResponse) :
    Prop where
  refused : ∀ failure, createPermission task = .error failure → response = .error failure
  repeated : ∀ permission, createPermission task = .ok permission → Repeats task row →
    response = .ok row
  other : ∀ permission, createPermission task = .ok permission → ¬ Repeats task row →
    (∃ detail, response = .error (.http 409 detail)) ∨ late ∧ response = .error noLicense

/-- What holds of a request for the id of the row while the row is stored. -/
def Answering (row : CameraRow) (late : Prop) (task : CreateTask) : Prop :=
  task.payload.id = row.id →
    match task.stage with
    | .licensing => late
    | .answered response => Resolved task row late response
    | _ => True

/-- A stored row is the one found for its id. -/
theorem camera_stored (hw : CreateSound w) {row : CameraRow} (hrow : row ∈ w.cameras) :
    w.camera row.id = some row := by
  cases hcamera : w.camera row.id with
  | none => exact absurd rfl (camera_none hcamera row hrow)
  | some row' =>
    obtain ⟨hmem, hid⟩ := camera_some hcamera
    rw [List.inj_on_of_nodup_map hw.ids hmem hrow hid]

/-- A request that does not repeat the row and is answered with 409. -/
theorem settled_conflict {row : CameraRow} {late : Prop} {permission : Option Permission}
    {detail : String} (hok : createPermission task = .ok permission) (hnot : ¬ Repeats task row) :
    Resolved task row late (.error (.http 409 detail)) where
  refused failure h := by
    rw [hok] at h
    cases h
  repeated _ _ hrepeats := absurd hrepeats hnot
  other _ _ _ := .inl ⟨detail, rfl⟩

/-- A request for the id of a stored row goes on to the answer it has to give. -/
theorem answering_moves {row : CameraRow} {late : Prop} (hw : CreateSound w)
    (hrow : row ∈ w.cameras)
    (hsound : StageSound w task) (h : Answering row late task) (hmoves : Moves jsonb w task stage) :
    Answering row late { task with stage } := by
  intro hid
  have hcamera : w.camera task.payload.id = some row := by
    rw [show task.payload.id = row.id from hid]
    exact camera_stored hw hrow
  have hanswering := h hid
  unfold StageSound at hsound
  -- a request behind its look-up is not the owner's
  have habsent : Absent w task → ¬ Repeats task row :=
    fun habsent hrepeats => habsent row hrow hid.symm hrepeats.1
  cases hmoves with
  | @refused failure hstage herror =>
    show Resolved { task with stage := _ } row late _
    constructor
    case refused =>
      intro failure' herror'
      have : failure = failure' := Except.error.inj (herror.symm.trans herror')
      rw [this]
    case repeated =>
      intro permission hok
      cases herror.symm.trans hok
    case other =>
      intro permission hok
      cases herror.symm.trans hok
  | @found found hstage hfound =>
    rw [hcamera] at hfound
    cases hfound
    obtain ⟨permission, hok⟩ : ∃ permission, createPermission task = .ok permission := by
      rcases hstage with hstage | hstage <;> rw [hstage] at hsound
      · exact hsound
      · exact hsound.1
    show Resolved { task with stage := _ } row late (task.compare row)
    unfold CreateTask.compare
    split
    · rename_i hrepeats
      constructor
      case refused =>
        intro failure herror
        cases hok.symm.trans herror
      case repeated => exact fun _ _ _ => rfl
      case other => exact fun _ _ hnot => absurd hrepeats hnot
    · rename_i hnot
      exact settled_conflict hok hnot
  | missing _ hnone =>
    rw [hcamera] at hnone
    cases hnone
  | unlicensed hstage =>
    rw [hstage] at hanswering hsound
    obtain ⟨⟨permission, hok⟩, habs⟩ := hsound
    show Resolved { task with stage := _ } row late _
    constructor
    case refused =>
      intro failure herror
      cases hok.symm.trans herror
    case repeated => exact fun _ _ hrepeats => absurd hrepeats (habsent habs)
    case other => exact fun _ _ _ => .inr ⟨hanswering, rfl⟩
  | limited hstage =>
    rw [hstage] at hsound
    obtain ⟨⟨permission, hok⟩, habs⟩ := hsound
    exact settled_conflict hok (habsent habs)
  | vanished hstage hnone =>
    rw [hcamera] at hnone
    cases hnone
  | admitted | locked | licensed | counted | conflicted | inserted | cutOff => trivial

/-- A stored row stays, and every request for its id is answered as it should. -/
theorem answering_step {row : CameraRow} {late : Prop} {i : Nat} (hw : CreateSound w)
    (hrow : row ∈ w.cameras) (h : ∀ task, w.tasks[i]? = some task → Answering row late task)
    (hcreated : CreateStep jsonb w w') :
    row ∈ w'.cameras ∧ ∀ task, w'.tasks[i]? = some task → Answering row late task := by
  cases hcreated with
  | arrives user payload =>
    refine ⟨hrow, fun task htask => ?_⟩
    rw [List.getElem?_append] at htask
    split at htask
    · exact h task htask
    · rw [List.mem_singleton.mp (List.mem_of_getElem? htask)]
      exact fun _ => trivial
  -- an administrator's change leaves the rows alone
  | administers licenses => exact ⟨hrow, h⟩
  -- the request itself, or another one
  | @moves j task stage htask hmoves =>
    refine ⟨hrow, fun t ht => ?_⟩
    rcases getElem_set ht with ⟨rfl, rfl⟩ | ⟨-, hold⟩
    · exact answering_moves hw hrow (hw.stages task (List.mem_of_getElem? htask)) (h task htask)
        hmoves
    · exact h t hold
  | @commits j task maxCameras row' htask hstage =>
    refine ⟨List.mem_append_left _ hrow, fun t ht => ?_⟩
    rcases getElem_set ht with ⟨rfl, rfl⟩ | ⟨-, hold⟩
    · -- nobody has inserted the id of a stored row
      intro hid
      have hsound := hw.stages task (List.mem_of_getElem? htask)
      unfold StageSound at hsound
      rw [hstage] at hsound
      exact absurd (hid.symm.trans hsound.2.1.1.symm) (hsound.2.2.1 row hrow)
    · exact h t hold

/-- Rows are only appended. -/
theorem cameras_created (h : CreateStep jsonb w w') : w.cameras <+: w'.cameras := by
  cases h with
  | arrives | administers | moves => exact List.prefix_refl _
  | commits => exact List.prefix_append _ _

/-- In every reachable state an id has one row and no user has more cameras than the licence that
was read for the last one. From then on the rows stay as they are, and a request for the id of a row
that gets its answer later is settled: refused by `authorize`, answered with the row when it repeats
it, and otherwise with 409, or with 403 when it had looked before the row was there and has no
licence. -/
theorem creation_settled (hw : Reachable (createMachine jsonb) Any w) :
    (w.cameras.map (·.id)).Nodup ∧ (∀ userId, w.cameraCount userId ≤ lastLimit w userId) ∧
    (∀ task ∈ w.tasks, ∀ row, task.stage = .answered (.ok row) →
      row ∈ w.cameras ∧ row.id = task.payload.id ∧ row.userId = task.user.id) ∧
    ∀ w', Path (createMachine jsonb) Any w w' → w.cameras <+: w'.cameras ∧
      ∀ row ∈ w.cameras, ∀ (i : Nat) task response, w'.tasks[i]? = some task →
        task.stage = .answered response → task.payload.id = row.id →
        (∀ t, w.tasks[i]? = some t → t.stage.over = false) →
          Resolved task row (∃ t, w.tasks[i]? = some t ∧ t.stage = .licensing) response := by
  have hsound := createSound_reachable hw
  -- ids, limits and answers come from the invariant of the state
  refine ⟨hsound.ids, hsound.limit, fun task htask row hanswered => ?_, fun w' hpath => ⟨?_, ?_⟩⟩
  · have hstage := hsound.stages task htask
    unfold StageSound at hstage
    rw [hanswered] at hstage
    exact hstage row rfl
  · refine hpath.invariant (I := fun v => w.cameras <+: v.cameras) (List.prefix_refl _)
      fun t act t' _ hstep ht => ?_
    exact ht.trans (cameras_created (take_created hstep))
  · intro row hrow i task response htask hanswered hid hnot
    -- a request that is not yet licensed or answered will meet the stored row
    have hstart : ∀ t, w.tasks[i]? = some t →
        Answering row (∃ t, w.tasks[i]? = some t ∧ t.stage = .licensing) t := by
      intro t ht _
      have hover := hnot t ht
      cases hstage : t.stage with
      | licensing => exact ⟨t, ht, hstage⟩
      | answered | cutOff =>
        rw [hstage] at hover
        cases hover
      | received | locking | looking | counting | inserting | rereading | auditing => trivial
    have hend := hpath.invariant (I := fun v => CreateSound v ∧ row ∈ v.cameras ∧
      ∀ t, v.tasks[i]? = some t →
        Answering row (∃ t, w.tasks[i]? = some t ∧ t.stage = .licensing) t)
      ⟨hsound, hrow, hstart⟩ fun v act v' _ hstep hv =>
        ⟨sound_created hv.1 (take_created hstep),
          answering_step hv.1 hv.2.1 hv.2.2 (take_created hstep)⟩
    have hsettled := hend.2.2 task htask hid
    rw [hanswered] at hsettled
    exact hsettled

end CreateSound

/-! ### Runs -/

/-- A user who may create cameras. -/
def creator (id : Uuid) : CurrentUser := ⟨id, .vaUser, [⟨"cameras", ["create"], none⟩]⟩

def gate : CameraCreate where
  id := 7
  name := "gate"
  streamUrl := "rtsp://gate"
  streamType := .rtsp
  locationLabel := none
  analyticsConfig := []
  zones := []
  named := by decide
  located := by decide
  labelled := by simp

/-- The licence of user 1. -/
def fourCameras : License where
  id := 1
  userId := 1
  licenseKey := "key"
  features := []
  maxCameras := 4
  analyticsModules := []
  validFrom := 0
  validUntil := 100
  isActive := true
  createdBy := none
  createdAt := 0
  updatedAt := 0

/-- User 3 looks for the camera before user 1 creates it. -/
def creatingRun : List CreateAct :=
  [.administer [fourCameras], .request (creator 1) gate, .request (creator 3) gate,
    .run 1 5, .run 1 5, .run 1 5] ++ List.replicate 7 (.run 0 5)

def createdWorld : CreateWorld := (createMachine id).final .init creatingRun

/-- The world with the first camera is reached by its run. -/
theorem createdWorld_reachable : Reachable (createMachine id) Any createdWorld :=
  Reachable.init.final creatingRun (by decide +kernel)

/-- User 1 repeats the request, user 2 has no permission, and user 3 goes on. -/
def repeatingRun : List CreateAct :=
  [.request (creator 1) gate, .request ⟨2, .vaUser, []⟩ gate, .run 2 6, .run 2 6, .run 2 6,
    .run 3 6, .run 1 6]

def repeatedWorld : CreateWorld := (createMachine id).final createdWorld repeatingRun

/-- The repeated requests are a run from there. -/
theorem repeatedWorld_path : Path (createMachine id) Any createdWorld repeatedWorld :=
  Machine.Path.final .refl repeatingRun (by decide +kernel)

/-- The repeated request is settled with the row. -/
theorem repeated_settled : createdWorld.cameras <+: repeatedWorld.cameras ∧
    Resolved ⟨creator 1, gate, .answered (.ok (gate.row id 1))⟩ (gate.row id 1)
      (∃ t, createdWorld.tasks[2]? = some t ∧ t.stage = .licensing) (.ok (gate.row id 1)) := by
  obtain ⟨htake, hsettled⟩ :=
    (creation_settled createdWorld_reachable).2.2.2 repeatedWorld repeatedWorld_path
  have htasks : createdWorld.tasks[2]? = none := by decide +kernel
  refine ⟨htake, hsettled (gate.row id 1) (by decide +kernel) 2 _ _ (by decide +kernel) rfl rfl
    fun t ht => ?_⟩
  rw [htasks] at ht
  cases ht

/-- Two requests for the id of the stored row are answered with 403: one without the permission,
which began when the row was stored, and one without a licence. -/
theorem stored_forbidden : Reachable (createMachine id) Any createdWorld ∧
    Path (createMachine id) Any createdWorld repeatedWorld ∧
    gate.row id 1 ∈ createdWorld.cameras ∧
    (createdWorld.tasks[3]? = none ∧ repeatedWorld.tasks[3]? = some ⟨⟨2, .vaUser, []⟩, gate,
      .answered (.error (.http 403 "Explicit permission is required"))⟩) ∧
    repeatedWorld.tasks[1]? = some ⟨creator 3, gate, .answered (.error noLicense)⟩ :=
  ⟨createdWorld_reachable, repeatedWorld_path, by decide +kernel,
    ⟨by decide +kernel, by decide +kernel⟩,
    by decide +kernel⟩

end Rsap.Proofs
