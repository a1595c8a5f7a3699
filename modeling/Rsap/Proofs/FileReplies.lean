import Rsap.Proofs.FileCustody

/-!
# `Rsap.Proofs.FileReplies`: what the file server answers is so

An upload is answered when its object is in the storage. A URL, of a face or of a download, grants
the object that was uploaded under the file id, for a time within the limits. A deletion is answered
when the file has been removed. A batch deletion answers for each file of its request once, and what
it reports as deleted has been removed (`SoundReply`). A batch collects its answer file by file, so
the tasks carry the part that is collected (`DeletionPart`). No request ends because of two objects
with one file id or of an expiry outside the limits.
-/

set_option autoImplicit false

namespace Rsap.Proofs

open Rsap.FileServer Rsap.Library
open Rsap.Library.Machine (Reachable Any)

/-- A batch request, with the files of its answer so far and the rest of them. -/
structure BatchPart (w : FileWorld) (files deleted : List FileReference)
    (failed : List BatchDeleteFailure) (rest : List FileReference) : Prop where
  requested : files ∈ w.batches
  answered : (deleted ++ (failed.map BatchDeleteFailure.file ++ rest)).Perm files
  removed : ∀ file ∈ deleted, file ∈ w.removals

/-- The URL grants the object that was uploaded as the file, for a time within the limits. -/
structure GrantsFile (config : Config) (w : FileWorld) (file : FileReference) (url : PresignedUrl) :
    Prop where
  bucket : url.bucket = file.bucket
  object : FileOf w file url.objectName
  expires : 60 ≤ url.expires ∧ url.expires ≤ config.presignedUrlMaxExpirySeconds

/-- What holds of a reply. -/
def SoundReply (config : Config) (w : FileWorld) : FileReply → Prop
  | .uploaded u url => u ∈ w.uploads ∧ ∀ granted ∈ url, granted.bucket = u.bucket ∧
      granted.objectName = u.objectName ∧ 60 ≤ granted.expires ∧
      granted.expires ≤ config.presignedUrlMaxExpirySeconds
  | .presigned file url expires => GrantsFile config w file url ∧ url.expires = expires
  | .redirected file url => GrantsFile config w file url
  | .deleted file => file ∈ w.removals
  | .batchDeleted files deleted failed => BatchPart w files deleted failed []
  | .rejected _ => True
  | .failed e => e ≠ .resolve .duplicate ∧ e ≠ .expiry

/-- What a deletion has collected before it is done with a file. -/
def DeletionPart (w : FileWorld) (file : FileReference) : Deletion → Prop
  | .single => True
  | .batch files deleted failed rest => BatchPart w files deleted failed (file :: rest)

/-- What a task has collected. -/
def TaskPart (w : FileWorld) : FileTask → Prop
  | .put _ _ => True
  | .sign _ => True
  | .link _ _ _ => True
  | .resolve file deletion => DeletionPart w file deletion
  | .remove file _ deletion => DeletionPart w file deletion

/-- The histories only grow. -/
structure HistoriesGrow (w w' : FileWorld) : Prop where
  uploads : ∀ u ∈ w.uploads, u ∈ w'.uploads
  removals : ∀ file ∈ w.removals, file ∈ w'.removals
  batches : ∀ files ∈ w.batches, files ∈ w'.batches

section HistoriesGrow
variable {w w' : FileWorld} (h : HistoriesGrow w w')
include h

/-- What a batch did stays done. -/
theorem BatchPart.mono {files deleted : List FileReference} {failed : List BatchDeleteFailure}
    {rest : List FileReference} (hpart : BatchPart w files deleted failed rest) :
    BatchPart w' files deleted failed rest where
  requested := h.batches files hpart.requested
  answered := hpart.answered
  removed file hfile := h.removals file (hpart.removed file hfile)

/-- A granted object stays an upload. -/
theorem GrantsFile.mono {config : Config} {file : FileReference} {url : PresignedUrl}
    (hgrants : GrantsFile config w file url) : GrantsFile config w' file url := by
  obtain ⟨u, hu, hown⟩ := hgrants.object
  exact ⟨hgrants.bucket, ⟨u, h.uploads u hu, hown⟩, hgrants.expires⟩

/-- What a deletion did stays done. -/
theorem DeletionPart.mono {file : FileReference} {deletion : Deletion}
    (hpart : DeletionPart w file deletion) : DeletionPart w' file deletion := by
  cases deletion with
  | single => trivial
  | batch => exact BatchPart.mono h hpart

/-- What a task has collected stays true. -/
theorem TaskPart.mono {task : FileTask} (hpart : TaskPart w task) : TaskPart w' task := by
  cases task with
  | put => trivial
  | sign => trivial
  | link => trivial
  | resolve => exact DeletionPart.mono h hpart
  | remove => exact DeletionPart.mono h hpart

/-- A reply that is sound stays so. -/
theorem SoundReply.mono {config : Config} {reply : FileReply} (hsound : SoundReply config w reply) :
    SoundReply config w' reply := by
  cases reply with
  | uploaded => exact ⟨h.uploads _ hsound.1, hsound.2⟩
  | presigned => exact ⟨GrantsFile.mono h hsound.1, hsound.2⟩
  | redirected => exact GrantsFile.mono h hsound
  | deleted => exact h.removals _ hsound
  | batchDeleted => exact BatchPart.mono h hsound
  | rejected => trivial
  | failed => exact hsound

end HistoriesGrow

section Steps
variable {lower : List Char → List Char} {decoders : Decoders}
  {decimal : Char → Option (Fin 10)} {config : Config} {storage : ObjectStorage}
  {w w' : FileWorld}

/-! ### The end of a call -/

/-- What a request makes of the end of a call. -/
def NextPart (config : Config) (w : FileWorld) : FileTask ⊕ FileReply → Prop
  | .inl task => TaskPart w task
  | .inr reply => SoundReply config w reply

/-- A batch goes on to its next file or answers with what it did. -/
theorem batchNext_part {files deleted : List FileReference} {failed : List BatchDeleteFailure}
    {rest : List FileReference} (h : BatchPart w files deleted failed rest) :
    NextPart config w (batchNext files deleted failed rest) := by
  cases rest with
  | nil => exact h
  | cons file rest => exact h

/-- A batch goes on with the file deleted. -/
theorem BatchPart.deleted {files deleted : List FileReference} {failed : List BatchDeleteFailure}
    {file : FileReference} {rest : List FileReference}
    (h : BatchPart w files deleted failed (file :: rest)) (hremoved : file ∈ w.removals) :
    BatchPart w files (deleted ++ [file]) failed rest := by
  refine ⟨h.requested, ?_, fun x hx => ?_⟩
  · have hmove : (file :: (failed.map BatchDeleteFailure.file ++ rest)).Perm
        (failed.map BatchDeleteFailure.file ++ file :: rest) := List.perm_middle.symm
    rw [List.append_assoc]
    exact (hmove.append_left deleted).trans h.answered
  · rcases List.mem_append.mp hx with hx | hx
    · exact h.removed x hx
    · rw [List.mem_singleton.mp hx]
      exact hremoved

/-- A batch goes on with the file failed. -/
theorem BatchPart.failed {files deleted : List FileReference} {failed : List BatchDeleteFailure}
    {file : FileReference} {rest : List FileReference}
    (h : BatchPart w files deleted failed (file :: rest)) (code message : String) :
    BatchPart w files deleted (failed ++ [⟨file, code, message⟩]) rest := by
  refine ⟨h.requested, ?_, h.removed⟩
  rw [List.map_append, List.append_assoc]
  exact h.answered

/-- A deletion is done with a file. -/
theorem next_part {deletion : Deletion} {file : FileReference} {result : Except FileError Unit}
    (h : DeletionPart w file deletion) (hok : result = .ok () → file ∈ w.removals)
    (herror : ∀ e, result = .error e → e ≠ .resolve .duplicate ∧ e ≠ .expiry) :
    NextPart config w (deletion.next file result) := by
  cases deletion with
  | single =>
    cases result with
    | ok => exact (hok rfl)
    | error e => exact (herror e rfl)
  | batch files deleted failed rest =>
    cases result with
    | ok => exact batchNext_part (BatchPart.deleted h (hok rfl))
    | error e =>
      obtain ⟨hduplicate, hexpiry⟩ := herror e rfl
      cases e with
      | storage e => exact batchNext_part (BatchPart.failed h _ _)
      | expiry => exact absurd rfl hexpiry
      | resolve e =>
        cases e with
        | duplicate => exact absurd rfl hduplicate
        | invalidBucket | objectNotFound => exact batchNext_part (BatchPart.failed h _ _)

/-- In a reachable state a lookup does not find two objects. -/
theorem FileInv.not_duplicate (hinv : FileInv decimal config w) (bucket : String) (fileId : UUID) :
    resolveObjectName decimal config.toSettings bucket fileId (w.buckets bucket) ≠
      .error .duplicate := by
  intro he
  by_cases hbucket : bucket ∈ config.buckets
  · by_cases hmissing : ∀ u ∈ storedIn config w bucket, u.fileId ≠ fileId
    · rw [hinv.resolve_missing hbucket hmissing] at he
      cases he
    · obtain ⟨u, hu, hid⟩ : ∃ u ∈ storedIn config w bucket, u.fileId = fileId := by
        simpa using hmissing
      obtain ⟨hmem, hown, hstored⟩ := mem_storedIn.mp hu
      have hname := hinv.resolve_stored hmem hstored
      rw [hown, hid, he] at hname
      cases hname
  · rw [resolveObjectName, requireBucket, if_neg hbucket] at he
    cases he

/-- A lookup that raises does so for another reason. -/
theorem resolveCall_error (hinv : FileInv decimal config w) {file : FileReference}
    {outcome : CallOutcome} {e : FileError}
    (h : resolveCall decimal config.toSettings file (w.buckets file.bucket) outcome = .error e) :
    e ≠ .resolve .duplicate ∧ e ≠ .expiry := by
  -- a listing that raises is no duplicate
  have hraised : ∀ e', resolveRaised config.toSettings file.bucket e' ≠ .resolve .duplicate ∧
      resolveRaised config.toSettings file.bucket e' ≠ .expiry := by
    intro e'
    cases e' with
    | s3 code =>
      simp only [resolveRaised]
      split <;> simp
    | http | os => simp [resolveRaised]
  simp only [resolveCall] at h
  split at h
  · cases h
    simp
  · cases hresolve : resolveObjectName decimal config.toSettings file.bucket file.fileId
        (w.buckets file.bucket) with
    | ok name =>
      rw [hresolve] at h
      cases h
    | error e' =>
      rw [hresolve] at h
      cases h
      refine ⟨fun he => ?_, by simp⟩
      -- and file ids are unique, so a listing finds no two objects
      exact hinv.not_duplicate file.bucket file.fileId (hresolve.trans (by cases he; rfl))
  · cases h
    exact hraised _
  · cases h
    exact hraised _

/-- What a request makes of the end of its call is so. -/
theorem call_part {task : FileTask} {w₁ : FileWorld} {next : FileTask ⊕ FileReply}
    (hcall : CallCases decimal config storage w task w₁ next) (hinv : FileInv decimal config w)
    (hgood : GoodTask decimal config w task) (hpart : TaskPart w₁ task) :
    NextPart config w₁ next := by
  cases hcall with
  | putSigned => exact trivial
  | put => exact ⟨List.mem_cons_self, fun _ hgranted => by cases hgranted⟩
  | putRaised | putLost => simp [NextPart, SoundReply]
  -- the URL is of the object that was just put
  | @signed u objectName expires hresolve hexpires =>
    obtain ⟨v, hv, -, hid, hname⟩ : FileOf w ⟨u.bucket, u.fileId⟩ objectName :=
      hinv.fileOf_resolve hresolve
    have hsame : v = u := hinv.unique hv hgood hid
    refine ⟨hgood, fun granted hgranted => ?_⟩
    rw [← Option.some.inj hgranted]
    exact ⟨rfl, hsame ▸ hname.symm, hexpires⟩
  | signRaised hresolve => exact (resolveCall_error hinv hresolve)
  -- the bounds were checked by the route, so the grant is within them
  | @linked file expires route objectName hresolve =>
    have hgrants : GrantsFile config w file ⟨file.bucket, objectName, expires⟩ :=
      ⟨rfl, hinv.fileOf_resolve hresolve, hgood⟩
    rw [presign_within file objectName hgood]
    cases route with
    | presigned => exact ⟨hgrants, rfl⟩
    | redirect => exact hgrants
  | linkRaised hresolve => exact (resolveCall_error hinv hresolve)
  | resolved => exact hpart
  | unresolved hresolve =>
    exact next_part hpart (fun he => by cases he) fun e he => by
      cases he
      exact resolveCall_error hinv hresolve
  -- the deletion is in the history, and the batch goes on with the next file
  | removed =>
    exact next_part hpart (fun _ => List.mem_cons_self) fun e he => by cases he
  | removeRaised | removeLost =>
    exact next_part hpart (fun he => by cases he) fun e he => by
      cases he
      simp

/-! ### Runs -/

/-- A storage call only adds to the histories. -/
theorem call_grows {task : FileTask} {w₁ : FileWorld} {next : FileTask ⊕ FileReply}
    (hcall : CallCases decimal config storage w task w₁ next) : HistoriesGrow w w₁ := by
  have hbatches : ∀ files ∈ w.batches, files ∈ w₁.batches := by
    rw [(call_kept hcall).2.2.1]
    exact fun _ hfiles => hfiles
  refine ⟨fun u hu => call_mono hcall hu, fun file hfile => ?_, hbatches⟩
  cases hcall with
  | removed | removeLost => exact List.mem_cons_of_mem _ hfile
  | putSigned | put | putRaised | putLost | signed | signRaised | linked | linkRaised | resolved
    | unresolved | removeRaised => exact hfile

/-- Going on with a request leaves the histories. -/
theorem goOn_grows (w : FileWorld) (i : Nat) (next : FileTask ⊕ FileReply) :
    HistoriesGrow w (w.goOn i next) := by
  cases next <;> exact ⟨fun _ h => h, fun _ h => h, fun _ h => h⟩

/-- The replies after a step of a task. -/
theorem mem_goOn_replies {i : Nat} {next : FileTask ⊕ FileReply} {reply : FileReply}
    (h : reply ∈ (w.goOn i next).replies) : next = .inr reply ∨ reply ∈ w.replies := by
  cases next with
  | inl task => exact .inr h
  | inr last =>
    rcases List.mem_cons.mp h with rfl | hold
    · exact .inl rfl
    · exact .inr hold

/-- Every task carries its part of an answer, and every reply is so. -/
structure ReplyInv (config : Config) (w : FileWorld) : Prop where
  tasks : ∀ task ∈ w.tasks, TaskPart w task
  replies : ∀ reply ∈ w.replies, SoundReply config w reply

/-- The invariant holds again when the new tasks and replies meet it. -/
theorem ReplyInv.grow (h : ReplyInv config w) (hgrows : HistoriesGrow w w')
    (htasks : ∀ task ∈ w'.tasks, task ∈ w.tasks ∨ TaskPart w' task)
    (hreplies : ∀ reply ∈ w'.replies, reply ∈ w.replies ∨ SoundReply config w' reply) :
    ReplyInv config w' := by
  refine ⟨fun task htask => ?_, fun reply hreply => ?_⟩
  · rcases htasks task htask with hold | hnew
    · exact TaskPart.mono hgrows (h.tasks task hold)
    · exact hnew
  · rcases hreplies reply hreply with hold | hnew
    · exact SoundReply.mono hgrows (h.replies reply hold)
    · exact hnew

/-- Every step keeps the parts of the tasks and the replies. -/
theorem replyInv_step (hinv : FileInv decimal config w) (h : ReplyInv config w)
    (hstep : FileStep decimal config storage w w') : ReplyInv config w' := by
  -- a new task has nothing to answer for yet
  have hsame : ∀ {task task' : FileTask}, task ∈ w.tasks ++ [task'] → TaskPart w' task' →
      task ∈ w.tasks ∨ TaskPart w' task := by
    intro task task' hmem hpart
    rcases List.mem_append.mp hmem with hold | hnew
    · exact .inl hold
    · exact .inr (List.mem_singleton.mp hnew ▸ hpart)
  cases hstep with
  | rejected =>
    refine h.grow ⟨fun _ h => h, fun _ h => h, fun _ h => h⟩ (fun _ h => .inl h)
      fun reply hreply => ?_
    rcases List.mem_cons.mp hreply with rfl | hold
    · exact .inr trivial
    · exact .inl hold
  | upload =>
    exact h.grow ⟨fun _ h => h, fun _ h => h, fun _ h => h⟩ (fun _ hmem => hsame hmem trivial)
      fun _ h => .inl h
  | link | delete =>
    exact h.grow ⟨fun _ h => h, fun _ h => h, fun _ h => h⟩ (fun _ hmem => hsame hmem trivial)
      fun _ h => .inl h
  | batch =>
    refine h.grow ⟨fun _ h => h, fun _ h => h, fun _ h => List.mem_cons_of_mem _ h⟩
      (fun _ hmem => hsame hmem ?_) fun _ h => .inl h
    exact ⟨List.mem_cons_self, List.Perm.refl _, fun _ hmem => absurd hmem List.not_mem_nil⟩
  -- a storage call ends, and its task answers or goes on
  | @call i task w₁ next htask hcall =>
    obtain ⟨htasks, -, -, hreplies⟩ := call_kept hcall
    have hmem := List.mem_of_getElem? htask
    have hgrows := call_grows hcall
    have hon := goOn_grows w₁ i next
    have hnext := call_part hcall hinv (hinv.tasks task hmem)
      (TaskPart.mono hgrows (h.tasks task hmem))
    have hall : HistoriesGrow w (w₁.goOn i next) :=
      ⟨fun u hu => hon.uploads u (hgrows.uploads u hu),
        fun file hfile => hon.removals file (hgrows.removals file hfile),
        fun files hfiles => hon.batches files (hgrows.batches files hfiles)⟩
    refine h.grow hall (fun task' htask' => ?_) fun reply hreply => ?_
    · rw [goOn_tasks, htasks] at htask'
      rcases mem_resume htask' with he | hold
      · cases next with
        | inr last => cases he
        | inl task'' =>
          cases he
          exact .inr (TaskPart.mono hon hnext)
      · exact .inl hold
    · rcases mem_goOn_replies hreply with he | hold
      · rw [he] at hnext
        exact .inr (SoundReply.mono hon hnext)
      · rw [hreplies] at hold
        exact .inl hold
  | expire =>
    exact h.grow ⟨fun _ h => h, fun _ h => h, fun _ h => h⟩ (fun _ h => .inl h) fun _ h => .inl h
  | crash =>
    exact h.grow ⟨fun _ h => h, fun _ h => h, fun _ h => h⟩
      (fun _ hmem => absurd hmem List.not_mem_nil) fun _ h => .inl h

/-- In every run every answer of the file server is so. -/
theorem replies_sound (h : Reachable (fileMachine lower decoders decimal config storage) Any w) :
    ∀ reply ∈ w.replies, SoundReply config w reply := by
  have hinv : ReplyInv config w := by
    refine h.invariant (I := ReplyInv config) ⟨?_, ?_⟩ fun _ _ _ hreach _ hstep ih =>
      replyInv_step (fileInv_reachable hreach) ih (file_step hstep)
    · intro task htask
      cases htask
    · intro reply hreply
      cases hreply
  exact hinv.replies

end Steps

/-- The batch of the run answers for both of its files, and what it reports has happened. The URL of
the download is the one of the face. -/
theorem replies_sound_batch :
    let w := (fileMachine id jpegDecoders (fun _ => none) threeBuckets .byName).final .empty
      downloadRun
    w.replies.length = 4 ∧
      SoundReply threeBuckets w
        (.batchDeleted [⟨"faces", sampleId 1⟩, ⟨"captures", sampleId 1⟩] [⟨"faces", sampleId 1⟩]
          [⟨⟨"captures", sampleId 1⟩, "not_found", "Object could not be found"⟩]) ∧
      SoundReply threeBuckets w (.presigned ⟨"faces", sampleId 2⟩
        ⟨"faces", directName (sampleId 2), 86400⟩ 86400) := by
  intro w
  have hreach : Reachable (fileMachine id jpegDecoders (fun _ => none) threeBuckets .byName)
      Any w :=
    .final .init downloadRun (by decide +kernel)
  exact ⟨by decide +kernel, replies_sound hreach _ (by decide +kernel),
    replies_sound hreach _ (by decide +kernel)⟩

end Rsap.Proofs
