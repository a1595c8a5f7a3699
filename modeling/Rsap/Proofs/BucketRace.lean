import Rsap.FileServer.Initialize
import Rsap.Library.Custody

/-!
# `Rsap.Proofs.BucketRace`: workers that start together do not fail each other

A worker creates a bucket that it did not find, and another worker may be faster. The storage then
refuses, and the worker looks again. The invariant of a worker says how far it has come
(`Progress`): the buckets before the one it is at are prepared, and a bucket that exists or is
private stays so (`Keeps`). A worker at its end has prepared all of them.
-/

set_option autoImplicit false

namespace Rsap.Proofs

open Rsap.FileServer Rsap.Library
open Rsap.Library.Machine (Reachable Any)

/-- The bucket is there and private. -/
def Private (w : InitWorld) (bucket : String) : Prop :=
  (w.buckets bucket).present = true ∧ (w.buckets bucket).anonymousPolicy = false

/-- The three buckets are there and private, and captures expire. -/
structure BucketsPrepared (settings : Settings) (days : Nat) (w : InitWorld) : Prop where
  buckets : ∀ bucket ∈ settings.buckets, Private w bucket
  captures : (w.buckets settings.minioBucketCaptures).expirationDays = some days

/-- How far a worker has come. -/
def Progress (settings : Settings) (days : Nat) (w : InitWorld) : InitStage → Prop
  | .bucketExists bucket rest | .makeBucket bucket rest =>
    ∃ done, settings.buckets = done ++ bucket :: rest ∧ ∀ b ∈ done, Private w b
  | .bucketExistsAgain bucket rest | .deletePolicy bucket rest =>
    (w.buckets bucket).present = true ∧
      ∃ done, settings.buckets = done ++ bucket :: rest ∧ ∀ b ∈ done, Private w b
  | .setLifecycle => ∀ b ∈ settings.buckets, Private w b
  | .initialized => BucketsPrepared settings days w
  | .failed => True

/-- What no worker undoes. -/
structure Keeps (days : Nat) (w w' : InitWorld) : Prop where
  present : ∀ b, (w.buckets b).present = true → (w'.buckets b).present = true
  policy : ∀ b, (w.buckets b).anonymousPolicy = false → (w'.buckets b).anonymousPolicy = false
  expiration : ∀ b, (w.buckets b).expirationDays = some days →
    (w'.buckets b).expirationDays = some days

section Keeps
variable {storage : BucketStorage} {settings : Settings} {days : Nat} {w w' : InitWorld}

/-- Nothing changed. -/
theorem Keeps.refl (days : Nat) (w : InitWorld) : Keeps days w w :=
  ⟨fun _ h => h, fun _ h => h, fun _ h => h⟩

/-- A private bucket stays private. -/
theorem Keeps.isPrivate (h : Keeps days w w') {bucket : String} (hb : Private w bucket) :
    Private w' bucket :=
  ⟨h.present bucket hb.1, h.policy bucket hb.2⟩

/-- What a worker has prepared stays prepared. -/
theorem Keeps.progress (h : Keeps days w w') {stage : InitStage}
    (hstage : Progress settings days w stage) : Progress settings days w' stage := by
  cases stage with
  | bucketExists | makeBucket =>
    obtain ⟨done, heq, hdone⟩ := hstage
    exact ⟨done, heq, fun b hb => h.isPrivate (hdone b hb)⟩
  | bucketExistsAgain | deletePolicy =>
    obtain ⟨hpresent, done, heq, hdone⟩ := hstage
    exact ⟨h.present _ hpresent, done, heq, fun b hb => h.isPrivate (hdone b hb)⟩
  | setLifecycle => exact fun b hb => h.isPrivate (hstage b hb)
  | initialized =>
    exact ⟨fun b hb => h.isPrivate (hstage.buckets b hb), h.expiration _ hstage.captures⟩
  | failed => trivial

/-- Progress is a matter of the buckets. -/
theorem progress_same {stage : InitStage} (h : Progress settings days w stage)
    (hbuckets : w'.buckets = w.buckets) : Progress settings days w' stage := by
  have hkeeps : Keeps days w w' := by
    refine ⟨?_, ?_, ?_⟩ <;> rw [hbuckets] <;> exact fun _ h => h
  exact hkeeps.progress h

/-- Making a bucket touches no other, and a bucket that is there stays as it is. -/
theorem make_keeps (days : Nat) (w : InitWorld) (bucket : String) :
    Keeps days w (w.make bucket) := by
  refine ⟨fun b h => ?_, fun b h => ?_, fun b h => ?_⟩ <;> simp only [InitWorld.make] <;> split <;>
    simp [h]

/-- Deleting a policy makes no bucket public. -/
theorem deletePolicy_keeps (days : Nat) (w : InitWorld) (bucket : String) :
    Keeps days w (w.deletePolicy bucket) := by
  refine ⟨fun b h => ?_, fun b h => ?_, fun b h => ?_⟩ <;> simp only [InitWorld.deletePolicy] <;>
    split <;> simp [h]

/-- The lifecycle that is set is the configured one. -/
theorem setLifecycle_keeps (days : Nat) (w : InitWorld) (bucket : String) :
    Keeps days w (w.setLifecycle bucket days) := by
  refine ⟨fun b h => ?_, fun b h => ?_, fun b h => ?_⟩ <;> simp only [InitWorld.setLifecycle] <;>
    split <;> simp [h]

/-- A call undoes nothing. -/
theorem call_keeps (stage : InitStage) : Keeps days w (w.call storage settings days stage).1 := by
  cases stage with
  | bucketExists | bucketExistsAgain | initialized | failed => exact .refl days w
  | makeBucket bucket rest =>
    simp only [InitWorld.call]
    split
    · exact make_keeps days w bucket
    · exact .refl days w
  | deletePolicy bucket rest =>
    simp only [InitWorld.call]
    split
    · exact deletePolicy_keeps days w bucket
    · exact .refl days w
  | setLifecycle =>
    simp only [InitWorld.call]
    split
    · exact setLifecycle_keeps days w _
    · exact .refl days w

/-- The loop goes on when one more bucket is private. -/
theorem next_progress {done rest : List String} {bucket : String}
    (heq : settings.buckets = done ++ bucket :: rest) (hdone : ∀ b ∈ done, Private w b)
    (hbucket : Private w bucket) : Progress settings days w (.next rest) := by
  have hall : ∀ b ∈ done ++ [bucket], Private w b := by
    intro b hb
    rcases List.mem_append.mp hb with hb | hb
    · exact hdone b hb
    · rw [List.mem_singleton.mp hb]
      exact hbucket
  cases rest with
  | nil =>
    show ∀ b ∈ settings.buckets, Private w b
    rw [heq]
    exact hall
  | cons next rest => exact ⟨done ++ [bucket], by rw [heq]; simp, hall⟩

/-- Going on to the next bucket is no failure. -/
theorem next_ne_failed (rest : List String) : InitStage.next rest ≠ .failed := by
  cases rest <;> simp [InitStage.next]

variable (storage) in
/-- A call brings its worker on, and the storage does not make it fail. -/
theorem call_progress {stage : InitStage} (h : Progress settings days w stage) :
    Progress settings days (w.call storage settings days stage).1
      (w.call storage settings days stage).2 ∧
      ((w.call storage settings days stage).2 = .failed → stage = .failed) := by
  cases stage with
  | bucketExists bucket rest =>
    simp only [InitWorld.call]
    split
    · rename_i hpresent
      exact ⟨⟨hpresent, h⟩, by simp⟩
    · exact ⟨h, by simp⟩
  | makeBucket bucket rest =>
    obtain ⟨done, heq, hdone⟩ := h
    simp only [InitWorld.call]
    split
    · have hpresent : ((w.make bucket).buckets bucket).present = true := by simp [InitWorld.make]
      exact ⟨⟨hpresent, done, heq, fun b hb => (make_keeps days w bucket).isPrivate (hdone b hb)⟩,
        by simp⟩
    · rename_i code hcode
      -- the other worker has created it
      obtain ⟨hpresent, hexpected⟩ := storage.make_refused _ code hcode
      rw [if_pos hexpected]
      exact ⟨⟨hpresent, done, heq, hdone⟩, by simp⟩
  | bucketExistsAgain bucket rest =>
    simp only [InitWorld.call, h.1, if_true]
    exact ⟨h, by simp⟩
  | deletePolicy bucket rest =>
    obtain ⟨hpresent, done, heq, hdone⟩ := h
    simp only [InitWorld.call]
    split
    · have hkeeps := deletePolicy_keeps days w bucket
      have hprivate : Private (w.deletePolicy bucket) bucket := by
        refine ⟨hkeeps.present bucket hpresent, ?_⟩
        simp [InitWorld.deletePolicy]
      exact ⟨next_progress heq (fun b hb => hkeeps.isPrivate (hdone b hb)) hprivate,
        fun he => absurd he (next_ne_failed rest)⟩
    · rename_i code hcode
      -- there is no policy to delete
      obtain ⟨hnone, hexpected⟩ := storage.policy_refused _ code hcode
      have hprivate : Private w bucket :=
        ⟨hpresent, Bool.eq_false_iff.mpr fun hpolicy => hnone ⟨hpresent, hpolicy⟩⟩
      rw [if_pos hexpected]
      exact ⟨next_progress heq hdone hprivate, fun he => absurd he (next_ne_failed rest)⟩
  | setLifecycle =>
    have hcaptures : Private w settings.minioBucketCaptures := h _ (by simp [Settings.buckets])
    have hkeeps := setLifecycle_keeps days w settings.minioBucketCaptures
    simp only [InitWorld.call, hcaptures.1, if_true]
    refine ⟨⟨fun b hb => hkeeps.isPrivate (h b hb), ?_⟩, by simp⟩
    simp [InitWorld.setLifecycle]
  | initialized => exact ⟨h, id⟩
  | failed => exact ⟨trivial, id⟩

end Keeps

section Runs
variable {storage : BucketStorage} {settings : Settings} {days : Nat}
  {buckets : String → BucketState}
  {ok : InitWorld → InitAct → Prop} {w w' : InitWorld}

/-- Every worker has come as far as its stage says, after any step. -/
theorem progress_step {a : InitAct} (h : ∀ stage ∈ w.workers, Progress settings days w stage)
    (hstep : w.step storage settings days a = some w') :
    ∀ stage ∈ w'.workers, Progress settings days w' stage := by
  intro stage hstage
  cases a with
  | start =>
    cases hstep
    rcases List.mem_append.mp hstage with hold | hnew
    · exact progress_same (h stage hold) rfl
    · rw [List.mem_singleton.mp hnew]
      exact ⟨[], rfl, fun b hb => absurd hb List.not_mem_nil⟩
  | call i =>
    obtain ⟨old, hold, rfl⟩ := Option.map_eq_some_iff.mp hstep
    rcases List.mem_or_eq_of_mem_set hstage with hmem | rfl
    · exact progress_same ((call_keeps old).progress (h stage hmem)) rfl
    · have hnext := (call_progress storage (h old (List.mem_of_getElem? hold))).1
      exact progress_same hnext rfl
  | outage i effect =>
    obtain ⟨old, hold, rfl⟩ := Option.map_eq_some_iff.mp hstep
    rcases List.mem_or_eq_of_mem_set hstage with hmem | rfl
    · cases effect with
      | true => exact progress_same ((call_keeps old).progress (h stage hmem)) rfl
      | false => exact progress_same (h stage hmem) rfl
    · trivial

/-- Every worker has prepared the buckets before its stage, in every reachable state. -/
theorem progress_reachable (h : Reachable (initMachine storage settings days buckets) ok w) :
    ∀ stage ∈ w.workers, Progress settings days w stage :=
  h.invariant (I := fun w => ∀ stage ∈ w.workers, Progress settings days w stage)
    (fun _ hstage => absurd hstage List.not_mem_nil)
    fun _ _ _ _ _ hstep ih => progress_step ih hstep

/-- However many workers start and however their calls interleave, a worker that has come to its
end has left the buckets prepared, and they stay so. While the storage answers every call no
worker fails. -/
theorem workers_prepare_buckets (h : Reachable (initMachine storage settings days buckets) ok w) :
    (.initialized ∈ w.workers → BucketsPrepared settings days w) ∧
      ((∀ w a, ok w a → a.IsAnswered) → .failed ∉ w.workers) := by
  refine ⟨fun hmem => progress_reachable h _ hmem, fun hanswered => ?_⟩
  refine h.invariant (I := fun w => .failed ∉ w.workers) List.not_mem_nil ?_
  intro w a w' hreach hok hstep ih hfailed
  cases a with
  | start =>
    cases hstep
    rcases List.mem_append.mp hfailed with hold | hnew
    · exact ih hold
    · cases List.mem_singleton.mp hnew
  | call i =>
    obtain ⟨old, hold, rfl⟩ := Option.map_eq_some_iff.mp hstep
    have hmem := List.mem_of_getElem? hold
    rcases List.mem_or_eq_of_mem_set hfailed with hmem' | he
    · exact ih hmem'
    · have hold' := (call_progress storage (progress_reachable hreach old hmem)).2 he.symm
      exact ih (hold' ▸ hmem)
  | outage i effect => exact hanswered _ _ hok

/-- Two workers find no bucket, and both prepare all of them. -/
def twoWorkers : List InitAct :=
  [.start, .start, .call 0, .call 1, .call 0, .call 1, .call 1] ++
    (List.replicate 11 (.call 0) ++ List.replicate 11 (.call 1))

/-- Two workers that prepare the buckets at the same time. -/
theorem workers_prepare_buckets_two :
    let w := (initMachine .strict ⟨"faces", "captures", "documents"⟩ 90
      fun _ => ⟨false, true, none⟩).final ⟨fun _ => ⟨false, true, none⟩, []⟩ twoWorkers
    w.workers = [.initialized, .initialized] ∧
      BucketsPrepared ⟨"faces", "captures", "documents"⟩ 90 w := by
  intro w
  have hdone : w.workers = [.initialized, .initialized] := by decide +kernel
  have hreach : Reachable (initMachine .strict ⟨"faces", "captures", "documents"⟩ 90
      fun _ => ⟨false, true, none⟩) Any w := .final .init twoWorkers (by decide +kernel)
  exact ⟨hdone, (workers_prepare_buckets hreach).1 (by rw [hdone]; simp)⟩

end Runs

end Rsap.Proofs
