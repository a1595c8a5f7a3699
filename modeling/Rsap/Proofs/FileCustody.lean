import Rsap.FileServer.World
import Rsap.Proofs.FilePages
import Rsap.Proofs.ObjectNames

/-!
# `Rsap.Proofs.FileCustody`: the storage holds the uploaded files

The storage knows names, and the routes know file ids. The two agree because the name of an object
carries the id of its upload (`WellNamed`) and an id is given once (`FileInv.ids`). So in a bucket
there are the objects of the uploads that nothing has taken away (`FileInv.objects`), and a file id
leads to the object of its own upload (`resolves_stored`).

A step of a request is a storage call and what the request makes of its end (`CallCases`).
`fileInv_step` keeps the invariant along every step.
-/

set_option autoImplicit false

namespace Rsap.Proofs

open Rsap.FileServer Rsap.Library
open Rsap.Library.Machine (Reachable Any)

/-! ### Uploads -/

section Names
variable (decimal : Char → Option (Fin 10)) (config : Config)

/-- What an upload route makes: an object in one of the buckets whose name carries the file id. -/
structure WellNamed (u : Upload) : Prop where
  bucket : u.bucket ∈ config.buckets
  fileId : fileIdFromObjectName decimal u.objectName = some u.fileId
  face : u.bucket = config.minioBucketFaces → u.objectName = directName u.fileId
  size : 0 < u.size ∧ u.size < maxUploadSize

/-- The file ids that a task is about to give to an object. -/
def putIds : FileTask → List UUID
  | .put upload _ => [upload.fileId]
  | _ => []

/-- Nothing has taken the object of the upload away. -/
def Stored (w : FileWorld) (u : Upload) : Prop :=
  ⟨u.bucket, u.fileId⟩ ∉ w.removals ∧
    ¬ (u.bucket = config.minioBucketCaptures ∧ u.objectName ∈ w.expirations)

instance (w : FileWorld) (u : Upload) : Decidable (Stored config w u) :=
  inferInstanceAs (Decidable (_ ∧ _))

/-- The uploads whose objects are in a bucket. -/
def storedIn (w : FileWorld) (bucket : String) : List Upload :=
  w.uploads.filter fun u => u.bucket = bucket ∧ Stored config w u

/-- A file of an upload. -/
def FileOf (w : FileWorld) (file : FileReference) (objectName : String) : Prop :=
  ∃ u ∈ w.uploads, u.bucket = file.bucket ∧ u.fileId = file.fileId ∧ u.objectName = objectName

/-- What holds of a task. -/
def GoodTask (w : FileWorld) : FileTask → Prop
  | .put upload _ => WellNamed decimal config upload
  | .sign upload => upload ∈ w.uploads
  | .link _ expires _ => 60 ≤ expires ∧ expires ≤ config.presignedUrlMaxExpirySeconds
  | .resolve _ _ => True
  | .remove file objectName _ => FileOf w file objectName

/-- What holds of the file server between two steps. -/
structure FileInv (w : FileWorld) : Prop where
  uploads : ∀ u ∈ w.uploads, WellNamed decimal config u
  ids : (w.tasks.flatMap putIds ++ w.uploads.map Upload.fileId).Nodup
  issued : ∀ id ∈ w.tasks.flatMap putIds ++ w.uploads.map Upload.fileId, id ∈ w.issued
  tasks : ∀ task ∈ w.tasks, GoodTask decimal config w task
  removals : ∀ file ∈ w.removals, ∃ objectName, FileOf w file objectName
  expirations : ∀ objectName ∈ w.expirations, ∃ u ∈ w.uploads,
    u.bucket = config.minioBucketCaptures ∧ u.objectName = objectName
  objects : ∀ bucket ∈ config.buckets,
    ((w.buckets bucket).map fun object => (object.objectName, object.size)).Perm
      ((storedIn config w bucket).map fun u => (u.objectName, some u.size))

end Names

/-! ### What a route uploads -/

section Uploads
variable {lower : List Char → List Char} {decoders : Decoders}

/-- The loop returns the chunks joined, below the limit. -/
theorem readLoop_size {chunks : List (List UInt8)} {size : Nat} {data result : List UInt8}
    (hsize : data.length = size) (hlimit : size < maxUploadSize)
    (h : readLoop chunks size data = .ok result) : result.length < maxUploadSize := by
  induction chunks generalizing size data with
  | nil =>
    simp only [readLoop, Except.ok.injEq] at h
    rw [← h, hsize]
    exact hlimit
  | cons chunk rest ih =>
    cases chunk with
    | nil =>
      simp only [readLoop, Except.ok.injEq] at h
      rw [← h, hsize]
      exact hlimit
    | cons b chunk =>
      simp only [readLoop] at h
      split at h
      · cases h
      · rename_i hroom
        refine ih ?_ (Nat.lt_of_not_le hroom) h
        rw [List.length_append, hsize]

/-- What `read_validated_upload` accepts has an allowed type and is neither empty nor too large. -/
theorem readValidatedUpload_ok {allowedTypes : List String} {contentType : Option String}
    {chunks : List (List UInt8)} {data : List UInt8} {type : String}
    (h : readValidatedUpload lower decoders allowedTypes contentType chunks = .ok (data, type)) :
    type ∈ allowedTypes ∧ 0 < data.length ∧ data.length < maxUploadSize := by
  simp only [readValidatedUpload] at h
  split at h
  · cases h
  · rename_i htype
    split at h
    · cases h
    · rename_i result hread
      split at h
      · cases h
      · rename_i hne
        have hsize := readLoop_size (List.length_nil (α := UInt8)) (by decide) hread
        cases hcheck : validateContent decoders result
            (String.ofList (strip isSpace (lower (contentType.getD "").toList))) with
        | error e =>
          rw [hcheck] at h
          cases h
        | ok =>
          rw [hcheck] at h
          cases h
          exact ⟨Decidable.not_not.mp htype, List.length_pos_iff.mpr hne, hsize⟩

/-- Every kind of upload has one of the configured buckets. -/
theorem upload_bucket (settings : Settings) (kind : UploadKind) :
    kind.bucket settings ∈ settings.buckets := by
  cases kind <;> simp [UploadKind.bucket, Settings.buckets]

/-- Only a face goes to the bucket of the faces. -/
theorem bucket_face {config : Config} {kind : UploadKind}
    (h : kind.bucket config.toSettings = config.minioBucketFaces) : kind = .face := by
  have hdistinct := config.distinct
  simp only [Settings.buckets, List.nodup_cons, List.mem_cons, List.not_mem_nil, or_false,
    not_or] at hdistinct
  cases kind with
  | face => rfl
  | capture => exact absurd h.symm hdistinct.1.1
  | document => exact absurd h.symm hdistinct.1.2

/-- An upload route makes well-named uploads. -/
theorem wellNamed_upload (decimal : Char → Option (Fin 10)) (config : Config) (kind : UploadKind)
    {contentType : Option String} {chunks : List (List UInt8)} {data : List UInt8} {type : String}
    (h : readValidatedUpload lower decoders (kind.contentTypes.map Prod.fst) contentType chunks =
      .ok (data, type)) {fileId : UUID} (hversion : fileId.version = some 4) :
    WellNamed decimal config (kind.upload config.toSettings fileId type data) := by
  obtain ⟨htype, hsize⟩ := readValidatedUpload_ok h
  refine ⟨upload_bucket _ kind, fileIdFromObjectName_upload decimal _ kind hversion htype data,
    fun hface => ?_, hsize⟩
  have hkind : kind = .face := bucket_face hface
  simp only [UploadKind.upload, hkind, UploadKind.directory, UploadKind.ending, List.nil_append,
    directName]

end Uploads

/-! ### Files behind names -/

section Lookup
variable {decimal : Char → Option (Fin 10)} {config : Config} {w : FileWorld}

/-- Two uploads of one file id are one upload. -/
theorem FileInv.unique (h : FileInv decimal config w) {u v : Upload} (hu : u ∈ w.uploads)
    (hv : v ∈ w.uploads) (he : u.fileId = v.fileId) : u = v :=
  List.inj_on_of_nodup_map (List.Nodup.of_append_right h.ids) hu hv he

/-- Names tell files apart. -/
theorem WellNamed.eq_iff {u v : Upload} (hu : WellNamed decimal config u)
    (hv : WellNamed decimal config v) (he : u.objectName = v.objectName) : u.fileId = v.fileId :=
  Option.some.inj (hu.fileId.symm.trans (he ▸ hv.fileId))

/-- The uploads of a bucket that nothing has taken away. -/
theorem mem_storedIn {bucket : String} {u : Upload} : u ∈ storedIn config w bucket ↔
    u ∈ w.uploads ∧ u.bucket = bucket ∧ Stored config w u := by
  simp [storedIn]

/-- The names in a bucket are those of the stored uploads. -/
theorem FileInv.names (h : FileInv decimal config w) {bucket : String}
    (hbucket : bucket ∈ config.buckets) :
    ((w.buckets bucket).map StoredObject.objectName).Perm
      ((storedIn config w bucket).map Upload.objectName) := by
  have hnames := (h.objects bucket hbucket).map Prod.fst
  rw [List.map_map, List.map_map] at hnames
  exact hnames

/-- A name is in a bucket exactly when one of its stored uploads has it. -/
theorem FileInv.mem_object (h : FileInv decimal config w) {bucket : String}
    (hbucket : bucket ∈ config.buckets) (objectName : String) :
    (∃ object ∈ w.buckets bucket, object.objectName = objectName) ↔
      ∃ u ∈ storedIn config w bucket, u.objectName = objectName := by
  have hmem := (h.names hbucket).mem_iff (a := objectName)
  rwa [List.mem_map, List.mem_map] at hmem

/-- The objects whose names carry a file id are at most one. -/
theorem FileInv.matching (h : FileInv decimal config w) {bucket : String}
    (hbucket : bucket ∈ config.buckets) (fileId : UUID) :
    (((w.buckets bucket).filter fun object =>
      fileIdFromObjectName decimal object.objectName = some fileId).map
        StoredObject.objectName).Perm
      (((storedIn config w bucket).filter fun u => u.fileId = fileId).map Upload.objectName) := by
  have hnames := (h.names hbucket).filter fun name =>
    decide (fileIdFromObjectName decimal name = some fileId)
  have hids : (storedIn config w bucket).filter
      (fun u => decide (fileIdFromObjectName decimal u.objectName = some fileId)) =
        (storedIn config w bucket).filter fun u => u.fileId = fileId := by
    refine List.filter_congr fun u hu => ?_
    have hname := (h.uploads u (mem_storedIn.mp hu).1).fileId
    simp only [hname, Option.some.injEq]
  simp only [List.filter_map, Function.comp_def] at hnames
  rwa [hids] at hnames

/-- A list without repetitions whose members are all one. -/
theorem eq_singleton {α : Type} {l : List α} {a : α} (hnodup : l.Nodup) (hmem : a ∈ l)
    (hall : ∀ b ∈ l, b = a) : l = [a] := by
  cases l with
  | nil => cases hmem
  | cons b rest =>
    have hb : b = a := hall b List.mem_cons_self
    cases rest with
    | nil => rw [hb]
    | cons c rest =>
      have hc : c = a := hall c (by simp)
      simp [hb, hc] at hnodup

/-- One stored upload has a file id. -/
theorem FileInv.filter_unique (h : FileInv decimal config w) {bucket : String} {u : Upload}
    (hu : u ∈ storedIn config w bucket) :
    ((storedIn config w bucket).filter fun v => v.fileId = u.fileId) = [u] := by
  have hnodup : ((storedIn config w bucket).map Upload.fileId).Nodup :=
    (List.Nodup.of_append_right h.ids).sublist (List.filter_sublist.map _)
  have hall : ∀ v ∈ (storedIn config w bucket).filter fun v => v.fileId = u.fileId, v = u := by
    intro v hv
    obtain ⟨hv, he⟩ := List.mem_filter.mp hv
    exact h.unique (mem_storedIn.mp hv).1 (mem_storedIn.mp hu).1 (of_decide_eq_true he)
  have hmem : u ∈ (storedIn config w bucket).filter fun v => v.fileId = u.fileId := by
    simp [hu]
  exact eq_singleton ((List.Nodup.of_map _ hnodup).filter _) hmem hall

/-- A face id gives its own object a direct name only. -/
theorem FileInv.face_object (h : FileInv decimal config w) (fileId : UUID) :
    (∃ object ∈ w.buckets config.minioBucketFaces, object.objectName = directName fileId) ↔
      ∃ u ∈ storedIn config w config.minioBucketFaces, u.fileId = fileId := by
  have hfaces : config.minioBucketFaces ∈ config.buckets := by simp [Settings.buckets]
  rw [h.mem_object hfaces]
  constructor
  · rintro ⟨u, hu, hname⟩
    obtain ⟨hmem, hbucket, -⟩ := mem_storedIn.mp hu
    have hown := (h.uploads u hmem).face hbucket
    exact ⟨u, hu, directName_inj (hown.symm.trans hname)⟩
  · rintro ⟨u, hu, rfl⟩
    obtain ⟨hmem, hbucket, -⟩ := mem_storedIn.mp hu
    exact ⟨u, hu, (h.uploads u hmem).face hbucket⟩

/-- The file id of a stored upload leads to its object. -/
theorem FileInv.resolve_stored (h : FileInv decimal config w) {u : Upload} (hu : u ∈ w.uploads)
    (hstored : Stored config w u) :
    resolveObjectName decimal config.toSettings u.bucket u.fileId (w.buckets u.bucket) =
      .ok u.objectName := by
  have hin : u ∈ storedIn config w u.bucket := mem_storedIn.mpr ⟨hu, rfl, hstored⟩
  have hbucket := (h.uploads u hu).bucket
  rw [resolveObjectName, requireBucket, if_pos hbucket]
  by_cases hface : u.bucket = config.minioBucketFaces
  · have hobject := (h.face_object u.fileId).mpr ⟨u, hface ▸ hin, rfl⟩
    obtain ⟨object, hmem, hname⟩ := hobject
    have hany : (w.buckets u.bucket).any (fun object =>
        decide (object.objectName = directName u.fileId)) = true :=
      List.any_eq_true.mpr ⟨object, hface ▸ hmem, decide_eq_true hname⟩
    simp only [if_pos hface, if_pos hany, (h.uploads u hu).face hface]
  · have hperm := h.matching hbucket u.fileId
    rw [h.filter_unique hin, List.map_singleton, List.perm_singleton,
      List.map_eq_singleton_iff] at hperm
    obtain ⟨object, hobject, hname⟩ := hperm
    simp only [if_neg hface, hobject, hname]

/-- Without a stored upload of the file id there is no object. -/
theorem FileInv.resolve_missing (h : FileInv decimal config w) {bucket : String}
    (hbucket : bucket ∈ config.buckets) {fileId : UUID}
    (hmissing : ∀ u ∈ storedIn config w bucket, u.fileId ≠ fileId) :
    resolveObjectName decimal config.toSettings bucket fileId (w.buckets bucket) =
      .error .objectNotFound := by
  rw [resolveObjectName, requireBucket, if_pos hbucket]
  by_cases hface : bucket = config.minioBucketFaces
  · have hnone : ¬ (w.buckets bucket).any (fun object =>
        decide (object.objectName = directName fileId)) = true := by
      intro hany
      obtain ⟨object, hmem, hname⟩ := List.any_eq_true.mp hany
      obtain ⟨u, hu, hid⟩ := (h.face_object fileId).mp
        ⟨object, hface ▸ hmem, of_decide_eq_true hname⟩
      exact hmissing u (hface ▸ hu) hid
    simp only [if_pos hface, if_neg hnone]
  · have hempty : (storedIn config w bucket).filter (fun u => u.fileId = fileId) = [] :=
      List.filter_eq_nil_iff.mpr fun u hu => by simpa using hmissing u hu
    have hperm := h.matching hbucket fileId
    rw [hempty, List.map_nil, List.perm_nil, List.map_eq_nil_iff] at hperm
    simp only [if_neg hface, hperm]

/-- A resolved name is that of the object of the file's upload. -/
theorem FileInv.fileOf_resolve (h : FileInv decimal config w) {file : FileReference}
    {objectName : String}
    (hresolve : resolveObjectName decimal config.toSettings file.bucket file.fileId
      (w.buckets file.bucket) = .ok objectName) : FileOf w file objectName := by
  by_cases hbucket : file.bucket ∈ config.buckets
  · by_cases hmissing : ∀ u ∈ storedIn config w file.bucket, u.fileId ≠ file.fileId
    · rw [h.resolve_missing hbucket hmissing] at hresolve
      cases hresolve
    · obtain ⟨u, hu, hid⟩ : ∃ u ∈ storedIn config w file.bucket, u.fileId = file.fileId := by
        simpa using hmissing
      obtain ⟨hmem, hown, hstored⟩ := mem_storedIn.mp hu
      have hname := h.resolve_stored hmem hstored
      rw [hown, hid, hresolve] at hname
      exact ⟨u, hmem, hown, hid, (Except.ok.inj hname).symm⟩
  · rw [resolveObjectName, requireBucket, if_neg hbucket] at hresolve
    cases hresolve

end Lookup

/-! ### Steps -/

section Steps
variable {lower : List Char → List Char} {decoders : Decoders}
  {decimal : Char → Option (Fin 10)} {config : Config} {storage : ObjectStorage}
  {w w' : FileWorld}

/-- A clamped expiry is within the limits. -/
theorem clamp_within {requested : Option Nat} {expires : Nat}
    (h : clampPresignedExpiry config requested = some expires) :
    60 ≤ expires ∧ expires ≤ config.presignedUrlMaxExpirySeconds := by
  simp only [clampPresignedExpiry] at h
  split at h
  · cases h
  · rename_i hge
    cases h
    have hmax := config.max_ge
    omega

/-- An expiry of at least a minute is clamped, and so is the default. -/
theorem clamp_some (config : Config) {requested : Option Nat}
    (h : ∀ seconds ∈ requested, 60 ≤ seconds) :
    ∃ expires, clampPresignedExpiry config requested = some expires := by
  have hdefault := config.default_ge
  have hge : 60 ≤ requested.getD config.presignedUrlDefaultExpirySeconds := by
    cases requested with
    | none => exact hdefault
    | some seconds => exact h seconds rfl
  exact ⟨_, if_neg (Nat.not_lt.mpr hge)⟩

/-- An expiry within the limits is the one that is granted. -/
theorem presign_within (file : FileReference) (objectName : String) {expires : Nat}
    (h : 60 ≤ expires ∧ expires ≤ config.presignedUrlMaxExpirySeconds) :
    presign config file expires objectName = .ok ⟨file.bucket, objectName, expires⟩ := by
  have hclamp : clampPresignedExpiry config (some expires) = some expires := by
    rw [clampPresignedExpiry, Option.getD_some, if_neg (Nat.not_lt.mpr h.1), Nat.min_eq_left h.2]
  rw [presign, hclamp]

/-- A storage call of a task: the world after its effect, and what the task makes of its end. -/
inductive CallCases (decimal : Char → Option (Fin 10)) (config : Config)
    (storage : ObjectStorage) (w : FileWorld) :
    FileTask → FileWorld → FileTask ⊕ FileReply → Prop where
  | putSigned {u : Upload} {etag : Option String} {lastModified : Option Int} :
      CallCases decimal config storage w (.put u true) (w.put storage u etag lastModified)
        (.inl (.sign u))
  | put {u : Upload} {etag : Option String} {lastModified : Option Int} :
      CallCases decimal config storage w (.put u false) (w.put storage u etag lastModified)
        (.inr (.uploaded u none))
  | putRaised {u : Upload} {signed : Bool} {e : StorageError} :
      CallCases decimal config storage w (.put u signed) w (.inr (.failed (.storage e)))
  | putLost {u : Upload} {signed : Bool} {e : StorageError} {etag : Option String}
      {lastModified : Option Int} :
      CallCases decimal config storage w (.put u signed) (w.put storage u etag lastModified)
        (.inr (.failed (.storage e)))
  | signed {u : Upload} {objectName : String} {expires : Nat} :
      resolveObjectName decimal config.toSettings u.bucket u.fileId (w.buckets u.bucket) =
        .ok objectName →
      60 ≤ expires ∧ expires ≤ config.presignedUrlMaxExpirySeconds →
      CallCases decimal config storage w (.sign u) w
        (.inr (.uploaded u (some ⟨u.bucket, objectName, expires⟩)))
  | signRaised {u : Upload} {outcome : CallOutcome} {e : FileError} :
      resolveCall decimal config.toSettings ⟨u.bucket, u.fileId⟩ (w.buckets u.bucket) outcome =
        .error e →
      CallCases decimal config storage w (.sign u) w (.inr (.failed e))
  | linked {file : FileReference} {expires : Nat} {route : LinkRoute} {objectName : String} :
      resolveObjectName decimal config.toSettings file.bucket file.fileId
        (w.buckets file.bucket) = .ok objectName →
      CallCases decimal config storage w (.link file expires route) w
        (.inr (route.reply file expires (presign config file expires objectName)))
  | linkRaised {file : FileReference} {expires : Nat} {route : LinkRoute}
      {outcome : CallOutcome} {e : FileError} :
      resolveCall decimal config.toSettings file (w.buckets file.bucket) outcome = .error e →
      CallCases decimal config storage w (.link file expires route) w (.inr (.failed e))
  | resolved {file : FileReference} {deletion : Deletion} {objectName : String} :
      resolveObjectName decimal config.toSettings file.bucket file.fileId
        (w.buckets file.bucket) = .ok objectName →
      CallCases decimal config storage w (.resolve file deletion) w
        (.inl (.remove file objectName deletion))
  | unresolved {file : FileReference} {deletion : Deletion} {outcome : CallOutcome}
      {e : FileError} :
      resolveCall decimal config.toSettings file (w.buckets file.bucket) outcome = .error e →
      CallCases decimal config storage w (.resolve file deletion) w (deletion.next file (.error e))
  | removed {file : FileReference} {objectName : String} {deletion : Deletion} :
      CallCases decimal config storage w (.remove file objectName deletion)
        (w.remove storage file objectName)
        (deletion.next file (.ok ()))
  | removeRaised {file : FileReference} {objectName : String} {deletion : Deletion}
      {e : StorageError} :
      CallCases decimal config storage w (.remove file objectName deletion) w
        (deletion.next file (.error (.storage e)))
  | removeLost {file : FileReference} {objectName : String} {deletion : Deletion}
      {e : StorageError} :
      CallCases decimal config storage w (.remove file objectName deletion)
        (w.remove storage file objectName)
        (deletion.next file (.error (.storage e)))

/-- A resolution that ends well found a name. -/
theorem resolveCall_ok {file : FileReference} {objects : List StoredObject}
    {outcome : CallOutcome} {objectName : String}
    (h : resolveCall decimal config.toSettings file objects outcome = .ok objectName) :
    resolveObjectName decimal config.toSettings file.bucket file.fileId objects =
      .ok objectName := by
  simp only [resolveCall] at h
  split at h
  · cases h
  · cases hresolve : resolveObjectName decimal config.toSettings file.bucket file.fileId
        objects with
    | error e =>
      rw [hresolve] at h
      cases h
    | ok name =>
      rw [hresolve] at h
      cases h
      rfl
  · cases h
  · cases h

/-- What a call does. -/
theorem call_cases (decimal : Char → Option (Fin 10)) (config : Config) (storage : ObjectStorage)
    (w : FileWorld) (i : Nat) (task : FileTask) (outcome : CallOutcome) (etag : Option String)
    (lastModified : Option Int) :
    ∃ w₁ next, CallCases decimal config storage w task w₁ next ∧
      w.call decimal config storage i task outcome etag lastModified = w₁.goOn i next := by
  cases task with
  -- by the task, and for each by how its storage call ends
  | put u signed =>
    cases outcome with
    | done =>
      cases signed with
      | false => exact ⟨_, _, .put, rfl⟩
      | true => exact ⟨_, _, .putSigned, rfl⟩
    | raised e => exact ⟨_, _, .putRaised, rfl⟩
    | raisedAfter e => exact ⟨_, _, .putLost, rfl⟩
  -- without a requested time the bounds admit the default
  | sign u =>
    obtain ⟨expires, hexpires⟩ := clamp_some config (fun _ h => nomatch h : ∀ s ∈ none, 60 ≤ s)
    cases hresolve : resolveCall decimal config.toSettings ⟨u.bucket, u.fileId⟩
        (w.buckets u.bucket) outcome with
    | error e =>
      refine ⟨_, _, .signRaised hresolve, ?_⟩
      simp only [FileWorld.call, hexpires, hresolve]
      rfl
    | ok objectName =>
      have hwithin := clamp_within hexpires
      refine ⟨_, _, .signed (resolveCall_ok hresolve) hwithin, ?_⟩
      simp only [FileWorld.call, hexpires, hresolve, Except.bind, presign_within _ _ hwithin]
  | link file expires route =>
    cases hresolve : resolveCall decimal config.toSettings file (w.buckets file.bucket)
        outcome with
    | error e =>
      refine ⟨_, _, .linkRaised hresolve, ?_⟩
      simp only [FileWorld.call, hresolve]
      rfl
    | ok objectName =>
      refine ⟨_, _, .linked (resolveCall_ok hresolve), ?_⟩
      simp only [FileWorld.call, hresolve]
      rfl
  | resolve file deletion =>
    cases hresolve : resolveCall decimal config.toSettings file (w.buckets file.bucket)
        outcome with
    | error e => exact ⟨_, _, .unresolved hresolve, by simp only [FileWorld.call, hresolve]⟩
    | ok objectName =>
      exact ⟨_, _, .resolved (resolveCall_ok hresolve), by simp only [FileWorld.call, hresolve]⟩
  | remove file objectName deletion =>
    cases outcome with
    | done => exact ⟨_, _, .removed, rfl⟩
    | raised e => exact ⟨_, _, .removeRaised, rfl⟩
    | raisedAfter e => exact ⟨_, _, .removeLost, rfl⟩

/-- The steps of the file server, with what each does. -/
inductive FileStep (decimal : Char → Option (Fin 10)) (config : Config)
    (storage : ObjectStorage) (w : FileWorld) : FileWorld → Prop where
  | rejected {e : UploadError} : FileStep decimal config storage w (w.answer (.rejected e))
  | upload {u : Upload} {signed : Bool} : WellNamed decimal config u → u.fileId ∉ w.issued →
      (signed = true → u.bucket = config.minioBucketFaces) →
      FileStep decimal config storage w
        { w with issued := u.fileId :: w.issued, tasks := w.tasks ++ [.put u signed] }
  | link {file : FileReference} {expires : Nat} {route : LinkRoute} :
      60 ≤ expires ∧ expires ≤ config.presignedUrlMaxExpirySeconds →
      FileStep decimal config storage w { w with tasks := w.tasks ++ [.link file expires route] }
  | delete {file : FileReference} :
      FileStep decimal config storage w { w with tasks := w.tasks ++ [.resolve file .single] }
  | batch {file : FileReference} {rest : List FileReference} : ValidBatch (file :: rest) →
      FileStep decimal config storage w
        { w with
          tasks := w.tasks ++ [.resolve file (.batch (file :: rest) [] [] rest)]
          batches := (file :: rest) :: w.batches }
  | call {i : Nat} {task : FileTask} {w₁ : FileWorld} {next : FileTask ⊕ FileReply} :
      w.tasks[i]? = some task → CallCases decimal config storage w task w₁ next →
      FileStep decimal config storage w (w₁.goOn i next)
  | expire {objectName : String} :
      (∃ object ∈ w.buckets config.minioBucketCaptures, object.objectName = objectName) →
      FileStep decimal config storage w
        { w with
          buckets := Function.update w.buckets config.minioBucketCaptures
            (storage.remove objectName (w.buckets config.minioBucketCaptures))
          expirations := objectName :: w.expirations }
  | crash : FileStep decimal config storage w { w with tasks := [] }

/-- An upload request, as a step: it is refused, or it goes on to its storage call. -/
theorem startUpload_step {kind : UploadKind} {signed : Bool} {contentType : Option String}
    {chunks : List (List UInt8)} {fileId : UUID} (hsigned : signed = true → kind = .face)
    (h : w.startUpload lower decoders config kind signed contentType chunks fileId = some w') :
    FileStep decimal config storage w w' := by
  simp only [FileWorld.startUpload] at h
  split at h
  · cases h
    exact .rejected
  · rename_i data type hread
    split at h
    · rename_i hfresh
      cases h
      refine .upload (u := kind.upload config.toSettings fileId type data)
        (wellNamed_upload decimal config kind hread hfresh.1) hfresh.2 fun hs => ?_
      rw [hsigned hs]
      rfl
    · cases h

/-- A route that makes a URL rejects the file id or makes a task. -/
theorem startLink_step (w : FileWorld) (file : FileReference) {requested : Option Nat}
    (hrequested : ∀ seconds ∈ requested, 60 ≤ seconds) (route : LinkRoute) :
    FileStep decimal config storage w (w.startLink config file requested route) := by
  obtain ⟨expires, hexpires⟩ := clamp_some config hrequested
  simp only [FileWorld.startLink, hexpires]
  split
  · exact .rejected
  · exact .link (clamp_within hexpires)

/-- What a step does. -/
theorem file_step {a : FileAct} (h : w.step lower decoders decimal config storage a = some w') :
    FileStep decimal config storage w w' := by
  cases a with
  | uploadFace contentType chunks fileId => exact startUpload_step (fun _ => rfl) h
  | uploadCapture date contentType chunks fileId => exact startUpload_step (fun hs => by cases hs) h
  | uploadDocument category contentType chunks fileId =>
    simp only [FileWorld.step] at h
    split at h
    · cases h
      exact .rejected
    · exact startUpload_step (fun hs => by cases hs) h
  -- the bounds of the query parameter are those that the URL needs
  | getPresignedUrl file expires =>
    simp only [FileWorld.step] at h
    split at h
    · rename_i hbounds
      cases h
      refine startLink_step w file (fun seconds hseconds => ?_) .presigned
      rw [← Option.some.inj hseconds]
      exact hbounds.1
    · cases h
  | redirectToFile file =>
    cases h
    exact startLink_step w file (fun _ hseconds => by cases hseconds) .redirect
  | delete file =>
    simp only [FileWorld.step] at h
    split at h
    · cases h
      exact .rejected
    · cases h
      exact .delete
  | batchDelete files =>
    simp only [FileWorld.step] at h
    split at h
    · rename_i hvalid
      cases files with
      | nil => exact absurd hvalid.1 (by simp)
      | cons file rest =>
        cases h
        exact .batch hvalid
    · cases h
  -- a task goes on when its storage call ends
  | call i outcome etag lastModified =>
    obtain ⟨task, htask, rfl⟩ := Option.map_eq_some_iff.mp h
    obtain ⟨w₁, next, hcall, heq⟩ :=
      call_cases decimal config storage w i task outcome etag lastModified
    rw [heq]
    exact .call htask hcall
  | expire objectName =>
    simp only [FileWorld.step] at h
    split at h
    · rename_i hany
      cases h
      obtain ⟨object, hmem, hname⟩ := List.any_eq_true.mp hany
      exact .expire ⟨object, hmem, of_decide_eq_true hname⟩
    · cases h
  | crash =>
    cases h
    exact .crash

/-! ### The invariant along a step -/

/-- Going on with a request leaves the buckets. -/
@[simp] theorem goOn_buckets (w : FileWorld) (i : Nat) (next : FileTask ⊕ FileReply) :
    (w.goOn i next).buckets = w.buckets := by
  cases next <;> rfl

/-- Going on with a request leaves the uploads. -/
@[simp] theorem goOn_uploads (w : FileWorld) (i : Nat) (next : FileTask ⊕ FileReply) :
    (w.goOn i next).uploads = w.uploads := by
  cases next <;> rfl

/-- Going on with a request leaves the removals. -/
@[simp] theorem goOn_removals (w : FileWorld) (i : Nat) (next : FileTask ⊕ FileReply) :
    (w.goOn i next).removals = w.removals := by
  cases next <;> rfl

/-- Going on with a request leaves the expirations. -/
@[simp] theorem goOn_expirations (w : FileWorld) (i : Nat) (next : FileTask ⊕ FileReply) :
    (w.goOn i next).expirations = w.expirations := by
  cases next <;> rfl

/-- Going on with a request issues no file id. -/
@[simp] theorem goOn_issued (w : FileWorld) (i : Nat) (next : FileTask ⊕ FileReply) :
    (w.goOn i next).issued = w.issued := by
  cases next <;> rfl

/-- A request that goes on keeps its place among the tasks, and one that ends leaves it. -/
@[simp] theorem goOn_tasks (w : FileWorld) (i : Nat) (next : FileTask ⊕ FileReply) :
    (w.goOn i next).tasks = resume w.tasks i next.getLeft? := by
  cases next <;> rfl

/-- A deletion goes on with the next file of its batch. -/
theorem next_resolve {deletion : Deletion} {file : FileReference} {result : Except FileError Unit}
    {task : FileTask} (h : deletion.next file result = .inl task) :
    ∃ file' deletion', task = .resolve file' deletion' := by
  have hbatch : ∀ files deleted failed rest, batchNext files deleted failed rest = .inl task →
      ∃ file' deletion', task = .resolve file' deletion' := by
    intro files deleted failed rest hnext
    cases rest with
    | nil => cases hnext
    | cons file' rest =>
      cases hnext
      exact ⟨_, _, rfl⟩
  simp only [Deletion.next] at h
  split at h
  all_goals first
    | exact hbatch _ _ _ _ h
    | cases h

section Call
variable {task : FileTask} {w₁ : FileWorld} {next : FileTask ⊕ FileReply}
  (hcall : CallCases decimal config storage w task w₁ next)
include hcall

/-- A call keeps the tasks and the ids that were issued. -/
theorem call_kept : w₁.tasks = w.tasks ∧ w₁.issued = w.issued ∧ w₁.batches = w.batches ∧
    w₁.replies = w.replies := by
  cases hcall <;> exact ⟨rfl, rfl, rfl, rfl⟩

/-- A call keeps the uploads, or it is the `put_object` of one more. -/
theorem call_uploads : w₁.uploads = w.uploads ∨
    ∃ u signed, task = .put u signed ∧ w₁.uploads = u :: w.uploads := by
  cases hcall with
  | putSigned | put | putLost => exact .inr ⟨_, _, rfl, rfl⟩
  | putRaised | signed | signRaised | linked | linkRaised | resolved | unresolved | removed
    | removeRaised | removeLost => exact .inl rfl

/-- A storage call forgets no upload. -/
theorem call_mono {u : Upload} (h : u ∈ w.uploads) : u ∈ w₁.uploads := by
  rcases call_uploads hcall with he | ⟨v, _, -, he⟩
  · rw [he]
    exact h
  · rw [he]
    exact List.mem_cons_of_mem _ h

/-- No task is about to put an object twice. -/
theorem call_putIds : next.getLeft?.toList.flatMap putIds = [] := by
  have hnext : ∀ deletion : Deletion, ∀ file result,
      (deletion.next file result).getLeft?.toList.flatMap putIds = [] := by
    intro deletion file result
    cases hn : deletion.next file result with
    | inr reply => rfl
    | inl task =>
      obtain ⟨file', deletion', rfl⟩ := next_resolve hn
      rfl
  cases hcall with
  | unresolved | removed | removeRaised | removeLost => exact hnext _ _ _
  | putSigned | put | putRaised | putLost | signed | signRaised | linked | linkRaised | resolved
    => rfl

/-- The ids after a call are those from before, but for the id of a put that raised. -/
theorem call_ids {i : Nat} (htask : w.tasks[i]? = some task) : ∃ dropped,
    (dropped ++ ((resume w.tasks i next.getLeft?).flatMap putIds ++
      w₁.uploads.map Upload.fileId)).Perm
        (w.tasks.flatMap putIds ++ w.uploads.map Upload.fileId) := by
  have hbefore := flatMap_eraseIdx_perm putIds htask
  have hafter := flatMap_resume_perm putIds htask next.getLeft?
  rw [call_putIds hcall, List.nil_append] at hafter
  rcases call_uploads hcall with he | ⟨u, signed, rfl, he⟩
  · refine ⟨putIds task, ?_⟩
    rw [he, ← List.append_assoc]
    exact (((hafter.append_left _).trans hbefore.symm).append_right _)
  · refine ⟨[], ?_⟩
    rw [he, List.nil_append, List.map_cons]
    refine (hafter.append_right _).trans ?_
    exact List.perm_middle.trans (hbefore.symm.append_right (w.uploads.map Upload.fileId))

end Call

/-- What holds of a task stays true while uploads are added. -/
theorem GoodTask.mono {task : FileTask} (h : GoodTask decimal config w task)
    (hmono : ∀ u ∈ w.uploads, u ∈ w'.uploads) : GoodTask decimal config w' task := by
  cases task with
  | put => exact h
  | sign => exact hmono _ h
  | link => exact h
  | resolve => trivial
  | remove =>
    obtain ⟨u, hu, hfile⟩ := h
    exact ⟨u, hmono u hu, hfile⟩

/-- The task that goes on after a call is a good one. -/
theorem call_good {task : FileTask} {w₁ : FileWorld} {next : FileTask ⊕ FileReply}
    (hcall : CallCases decimal config storage w task w₁ next) (hinv : FileInv decimal config w)
    {task' : FileTask} (hnext : next = .inl task') : GoodTask decimal config w₁ task' := by
  cases hcall with
  | putSigned =>
    cases hnext
    exact List.mem_cons_self
  | resolved hresolve =>
    cases hnext
    exact hinv.fileOf_resolve hresolve
  | put | putRaised | putLost | signed | signRaised | linked | linkRaised => cases hnext
  | unresolved | removed | removeRaised | removeLost =>
    obtain ⟨file', deletion', rfl⟩ := next_resolve hnext
    trivial

/-! ### The objects -/

/-- A new object in its bucket. -/
theorem objects_put (hinv : FileInv decimal config w) {u : Upload}
    (hu : WellNamed decimal config u) (hnew : ∀ v ∈ w.uploads, v.fileId ≠ u.fileId)
    (etag : Option String) (lastModified : Option Int) :
    ∀ bucket ∈ config.buckets,
      (((w.put storage u etag lastModified).buckets bucket).map fun object =>
        (object.objectName, object.size)).Perm
        ((storedIn config (w.put storage u etag lastModified) bucket).map fun u =>
          (u.objectName, some u.size)) := by
  intro bucket hbucket
  -- the new name differs from those of all other uploads
  have hother : ∀ v ∈ w.uploads, v.objectName ≠ u.objectName := fun v hv he =>
    hnew v hv ((hinv.uploads v hv).eq_iff hu he)
  by_cases hb : u.bucket = bucket
  -- in its bucket the object is new: nothing has removed it or let it expire
  · subst hb
    have hstored : Stored config w u := by
      refine ⟨fun hremoved => ?_, fun hexpired => ?_⟩
      · obtain ⟨_, v, hv, -, hid, -⟩ := hinv.removals _ hremoved
        exact hnew v hv hid
      · obtain ⟨v, hv, -, hname⟩ := hinv.expirations _ hexpired.2
        exact hother v hv hname
    have hin : storedIn config (w.put storage u etag lastModified) u.bucket =
        u :: storedIn config w u.bucket := by
      rw [storedIn]
      exact List.filter_cons_of_pos (decide_eq_true ⟨rfl, hstored⟩)
    -- and it replaces none
    have hfilter : (w.buckets u.bucket).filter
        (fun object => decide (object.objectName ≠ u.objectName)) = w.buckets u.bucket := by
      refine List.filter_eq_self.mpr fun object hobject => decide_eq_true fun he => ?_
      obtain ⟨v, hv, hname⟩ := (hinv.mem_object hbucket u.objectName).mp ⟨object, hobject, he⟩
      exact hother v (mem_storedIn.mp hv).1 hname
    rw [hin]
    simp only [FileWorld.put, Function.update_self]
    have hput := storage.put_perm (u.object etag lastModified) (w.buckets u.bucket)
    rw [show (u.object etag lastModified).objectName = u.objectName from rfl, hfilter] at hput
    exact (hput.map _).trans ((hinv.objects _ hbucket).cons _)
  · have hin : storedIn config (w.put storage u etag lastModified) bucket =
      storedIn config w bucket := by
      rw [storedIn]
      exact List.filter_cons_of_neg (by simp [hb])
    rw [hin]
    simp only [FileWorld.put, Function.update_of_ne (Ne.symm hb)]
    exact hinv.objects bucket hbucket

/-- An object is taken out of its bucket. -/
theorem objects_take (hinv : FileInv decimal config w) {bucket objectName : String}
    (hbuckets : w'.buckets = Function.update w.buckets bucket
      (storage.remove objectName (w.buckets bucket)))
    (huploads : w'.uploads = w.uploads)
    (hstored : ∀ u ∈ w.uploads, Stored config w' u ↔
      Stored config w u ∧ ¬ (u.bucket = bucket ∧ u.objectName = objectName)) :
    ∀ bucket' ∈ config.buckets,
      ((w'.buckets bucket').map fun object => (object.objectName, object.size)).Perm
        ((storedIn config w' bucket').map fun u => (u.objectName, some u.size)) := by
  intro bucket' hbucket'
  by_cases hb : bucket' = bucket
  -- the bucket loses the object of this name, and its uploads lose the one that has it
  · subst hb
    have hin : storedIn config w' bucket' =
        (storedIn config w bucket').filter fun u => u.objectName ≠ objectName := by
      rw [storedIn, storedIn, huploads, List.filter_filter]
      refine List.filter_congr fun u hu => ?_
      rw [← Bool.decide_and, decide_eq_decide, hstored u hu]
      constructor
      · rintro ⟨hbucket, hold, hnot⟩
        exact ⟨fun he => hnot ⟨hbucket, he⟩, hbucket, hold⟩
      · rintro ⟨hne, hbucket, hold⟩
        exact ⟨hbucket, hold, fun he => hne he.2⟩
    have hperm := (hinv.objects bucket' hbucket').filter fun p => decide (p.1 ≠ objectName)
    simp only [List.filter_map, Function.comp_def] at hperm
    rw [hin, hbuckets, Function.update_self]
    exact ((storage.remove_perm objectName (w.buckets bucket')).map _).trans hperm
  · have hin : storedIn config w' bucket' = storedIn config w bucket' := by
      rw [storedIn, storedIn, huploads]
      refine List.filter_congr fun u hu => ?_
      rw [decide_eq_decide, hstored u hu]
      constructor
      · rintro ⟨hbucket, hold, -⟩
        exact ⟨hbucket, hold⟩
      · rintro ⟨hbucket, hold⟩
        exact ⟨hbucket, hold, fun he => hb (hbucket ▸ he.1)⟩
    rw [hin, hbuckets, Function.update_of_ne hb]
    exact hinv.objects bucket' hbucket'

/-- A removal takes the object of its own file. -/
theorem objects_remove (hinv : FileInv decimal config w) {file : FileReference}
    {objectName : String} (hfile : FileOf w file objectName) :
    ∀ bucket ∈ config.buckets,
      (((w.remove storage file objectName).buckets bucket).map fun object =>
        (object.objectName, object.size)).Perm
        ((storedIn config (w.remove storage file objectName) bucket).map fun u =>
          (u.objectName, some u.size)) := by
  refine @objects_take _ _ _ w _ hinv file.bucket objectName rfl rfl fun u hu => ?_
  obtain ⟨v, hv, hbucket, hid, hname⟩ := hfile
  -- a file id and a name belong to the same upload
  have hown : (⟨u.bucket, u.fileId⟩ : FileReference) = file ↔
      u.bucket = file.bucket ∧ u.objectName = objectName := by
    constructor
    · intro he
      have hsame : u = v := hinv.unique hu hv (by rw [hid, ← he])
      rw [hsame]
      exact ⟨hbucket, hname⟩
    · rintro ⟨hb, hn⟩
      have he := (hinv.uploads u hu).eq_iff (hinv.uploads v hv) (hn.trans hname.symm)
      rw [hb, he, hid]
  constructor
  · rintro ⟨hkept, hexpired⟩
    refine ⟨⟨fun hold => hkept (List.mem_cons_of_mem _ hold), hexpired⟩, fun he => ?_⟩
    exact hkept (hown.mpr he ▸ List.mem_cons_self)
  · rintro ⟨⟨hkept, hexpired⟩, hne⟩
    refine ⟨fun hmem => ?_, hexpired⟩
    rcases List.mem_cons.mp hmem with he | hold
    · exact hne (hown.mp he)
    · exact hkept hold

/-- An expiry takes one capture. -/
theorem objects_expire (hinv : FileInv decimal config w) (objectName : String)
    (hbuckets : w'.buckets = Function.update w.buckets config.minioBucketCaptures
      (storage.remove objectName (w.buckets config.minioBucketCaptures)))
    (huploads : w'.uploads = w.uploads) (hremovals : w'.removals = w.removals)
    (hexpirations : w'.expirations = objectName :: w.expirations) :
    ∀ bucket ∈ config.buckets,
      ((w'.buckets bucket).map fun object => (object.objectName, object.size)).Perm
        ((storedIn config w' bucket).map fun u => (u.objectName, some u.size)) := by
  refine objects_take hinv hbuckets huploads fun u hu => ?_
  rw [Stored, Stored, hremovals, hexpirations, and_assoc, List.mem_cons]
  refine and_congr_right fun _ => ?_
  constructor
  · intro hnot
    exact ⟨fun he => hnot ⟨he.1, .inr he.2⟩, fun he => hnot ⟨he.1, .inl he.2⟩⟩
  · rintro ⟨hold, hne⟩ ⟨hbucket, hname | hname⟩
    · exact hne ⟨hbucket, hname⟩
    · exact hold ⟨hbucket, hname⟩

/-- A bucket agrees with its uploads when neither changed. -/
theorem objects_same {bucket : String} (hbuckets : w'.buckets = w.buckets)
    (huploads : w'.uploads = w.uploads) (hremovals : w'.removals = w.removals)
    (hexpirations : w'.expirations = w.expirations)
    (h : ((w.buckets bucket).map fun object => (object.objectName, object.size)).Perm
      ((storedIn config w bucket).map fun u => (u.objectName, some u.size))) :
    ((w'.buckets bucket).map fun object => (object.objectName, object.size)).Perm
      ((storedIn config w' bucket).map fun u => (u.objectName, some u.size)) := by
  have hin : storedIn config w' bucket = storedIn config w bucket := by
    rw [storedIn, storedIn, huploads]
    refine List.filter_congr fun u _ => ?_
    rw [decide_eq_decide, Stored, Stored, hremovals, hexpirations]
  rw [hin, hbuckets]
  exact h

section Call
variable {task : FileTask} {w₁ : FileWorld} {next : FileTask ⊕ FileReply}
  (hcall : CallCases decimal config storage w task w₁ next)
include hcall

/-- What has been removed or has expired was uploaded, also after a call. -/
theorem call_removals (hinv : FileInv decimal config w) (hgood : GoodTask decimal config w task) :
    ∀ file ∈ w₁.removals, ∃ objectName, FileOf w₁ file objectName := by
  have hold : ∀ file ∈ w.removals, ∃ objectName, FileOf w₁ file objectName := by
    intro file hfile
    obtain ⟨objectName, u, hu, hown⟩ := hinv.removals file hfile
    exact ⟨objectName, u, call_mono hcall hu, hown⟩
  cases hcall with
  | removed | removeLost =>
    intro file hfile
    rcases List.mem_cons.mp hfile with rfl | hfile
    · obtain ⟨u, hu, hown⟩ := hgood
      exact ⟨_, u, hu, hown⟩
    · exact hold file hfile
  | putSigned | put | putRaised | putLost | signed | signRaised | linked | linkRaised | resolved
    | unresolved | removeRaised => exact hold

/-- No storage call lets an object expire. -/
theorem call_expirations : w₁.expirations = w.expirations := by
  cases hcall <;> rfl

/-- After a call the objects are those of the stored uploads. -/
theorem call_objects (hinv : FileInv decimal config w) {i : Nat} (htask : w.tasks[i]? = some task) :
    ∀ bucket ∈ config.buckets,
      ((w₁.buckets bucket).map fun object => (object.objectName, object.size)).Perm
        ((storedIn config w₁ bucket).map fun u => (u.objectName, some u.size)) := by
  have hgood := hinv.tasks task (List.mem_of_getElem? htask)
  -- the id of a put is not yet that of an object
  have hnew : ∀ u signed, task = .put u signed → ∀ v ∈ w.uploads, v.fileId ≠ u.fileId := by
    rintro u signed rfl v hv he
    have hnodup := hinv.ids
    rw [((flatMap_eraseIdx_perm putIds htask).append_right _).nodup_iff] at hnodup
    have hfresh : u.fileId ∉ w.uploads.map Upload.fileId := by
      have hcons : (u.fileId :: ((w.tasks.eraseIdx i).flatMap putIds ++
          w.uploads.map Upload.fileId)).Nodup := hnodup
      exact fun hmem => (List.nodup_cons.mp hcons).1 (List.mem_append_right _ hmem)
    exact hfresh (List.mem_map.mpr ⟨v, hv, he⟩)
  cases hcall with
  | putSigned | put | putLost => exact objects_put hinv hgood (hnew _ _ rfl) _ _
  | removed | removeLost => exact objects_remove hinv hgood
  | putRaised | signed | signRaised | linked | linkRaised | resolved | unresolved | removeRaised =>
    exact hinv.objects

end Call

/-- A step keeps the invariant. -/
theorem fileInv_step (hinv : FileInv decimal config w)
    (hstep : FileStep decimal config storage w w') :
    FileInv decimal config w' := by
  cases hstep with
  | rejected =>
    exact ⟨hinv.uploads, hinv.ids, hinv.issued, fun task htask => (hinv.tasks task htask).mono
      fun _ hu => hu, hinv.removals, hinv.expirations,
      fun bucket hbucket => objects_same rfl rfl rfl rfl (hinv.objects bucket hbucket)⟩
  -- the id of an upload is fresh, and its task is the only one that is about to give it away
  | @upload u signed hu hfresh =>
    have hids : (w.tasks ++ [FileTask.put u signed]).flatMap putIds =
        w.tasks.flatMap putIds ++ [u.fileId] := by
      simp [putIds]
    have hperm : ((w.tasks ++ [FileTask.put u signed]).flatMap putIds ++
        w.uploads.map Upload.fileId).Perm
          (u.fileId :: (w.tasks.flatMap putIds ++ w.uploads.map Upload.fileId)) := by
      rw [hids, List.append_assoc]
      exact List.perm_middle
    refine ⟨hinv.uploads, ?_, ?_, ?_, hinv.removals, hinv.expirations,
      fun bucket hbucket => objects_same rfl rfl rfl rfl (hinv.objects bucket hbucket)⟩
    · rw [hperm.nodup_iff]
      exact List.nodup_cons.mpr ⟨fun hmem => hfresh (hinv.issued _ hmem), hinv.ids⟩
    · intro id hid
      rcases List.mem_cons.mp (hperm.mem_iff.mp hid) with rfl | hid
      · exact List.mem_cons_self
      · exact List.mem_cons_of_mem _ (hinv.issued id hid)
    · intro task htask
      rcases List.mem_append.mp htask with htask | htask
      · exact (hinv.tasks task htask).mono fun _ hu => hu
      · rw [List.mem_singleton.mp htask]
        exact hu
  -- the other requests begin without an id of their own
  | link | delete | batch =>
    refine ⟨hinv.uploads, ?_, ?_, ?_, hinv.removals, hinv.expirations,
      fun bucket hbucket => objects_same rfl rfl rfl rfl (hinv.objects bucket hbucket)⟩
    · rw [custody_begin putIds rfl]
      exact hinv.ids
    · rw [custody_begin putIds rfl]
      exact hinv.issued
    · intro task htask
      rcases List.mem_append.mp htask with htask | htask
      · exact (hinv.tasks task htask).mono fun _ hu => hu
      · rw [List.mem_singleton.mp htask]
        trivial
  | @call i task w₁ next htask hcall =>
    obtain ⟨htasks, hissued, -, -⟩ := call_kept hcall
    have hgood := hinv.tasks task (List.mem_of_getElem? htask)
    -- a call hands the id over to the uploads, or drops it
    obtain ⟨dropped, hids⟩ := call_ids hcall htask
    refine ⟨?_, ?_, ?_, ?_, ?_, ?_, ?_⟩
    · intro u hu
      rw [goOn_uploads] at hu
      rcases call_uploads hcall with he | ⟨v, signed, rfl, he⟩
      · exact hinv.uploads u (he ▸ hu)
      · rw [he] at hu
        rcases List.mem_cons.mp hu with rfl | hu
        · exact hgood
        · exact hinv.uploads u hu
    · rw [goOn_tasks, goOn_uploads, htasks]
      exact List.Nodup.of_append_right (hids.nodup_iff.mpr hinv.ids)
    · intro id hid
      rw [goOn_tasks, goOn_uploads, htasks] at hid
      rw [goOn_issued, hissued]
      exact hinv.issued id (hids.mem_iff.mp (List.mem_append_right _ hid))
    · intro task' htask'
      rw [goOn_tasks, htasks] at htask'
      have hmono : ∀ u ∈ w₁.uploads, u ∈ (w₁.goOn i next).uploads := by
        intro u hu
        rwa [goOn_uploads]
      rcases mem_resume htask' with hnext | hmem
      · cases hn : next with
        | inr reply =>
          rw [hn] at hnext
          cases hnext
        | inl task'' =>
          rw [hn] at hnext
          cases hnext
          exact (call_good hcall hinv hn).mono (hn ▸ hmono)
      · exact (hinv.tasks task' hmem).mono fun u hu => hmono u (call_mono hcall hu)
    · intro file hfile
      rw [goOn_removals] at hfile
      obtain ⟨objectName, u, hu, hown⟩ := call_removals hcall hinv hgood file hfile
      exact ⟨objectName, u, by rwa [goOn_uploads], hown⟩
    · intro objectName hname
      rw [goOn_expirations, call_expirations hcall] at hname
      obtain ⟨u, hu, hown⟩ := hinv.expirations objectName hname
      exact ⟨u, by rw [goOn_uploads]; exact call_mono hcall hu, hown⟩
    · intro bucket hbucket
      exact objects_same (goOn_buckets _ _ _) (goOn_uploads _ _ _) (goOn_removals _ _ _)
        (goOn_expirations _ _ _) (call_objects hcall hinv htask bucket hbucket)
  -- what expires is an object of the captures, so it is an upload
  | @expire objectName hobject =>
    have hcaptures : config.minioBucketCaptures ∈ config.buckets := by simp [Settings.buckets]
    refine ⟨hinv.uploads, hinv.ids, hinv.issued, fun task htask => (hinv.tasks task htask).mono
      fun _ hu => hu, hinv.removals, fun name hname => ?_,
      objects_expire hinv objectName rfl rfl rfl rfl⟩
    rcases List.mem_cons.mp hname with rfl | hname
    · obtain ⟨u, hu, he⟩ := (hinv.mem_object hcaptures _).mp hobject
      obtain ⟨hmem, hbucket, -⟩ := mem_storedIn.mp hu
      exact ⟨u, hmem, hbucket, he⟩
    · exact hinv.expirations name hname
  -- a crash drops the tasks, with the ids in their hands
  | crash =>
    refine ⟨hinv.uploads, List.Nodup.of_append_right hinv.ids,
      fun id hid => hinv.issued id (List.mem_append_right _ hid),
      fun task htask => absurd htask List.not_mem_nil, hinv.removals, hinv.expirations,
      fun bucket hbucket => objects_same rfl rfl rfl rfl (hinv.objects bucket hbucket)⟩

/-- The invariant holds in every reachable state. -/
theorem fileInv_reachable (h : Reachable (fileMachine lower decoders decimal config storage)
    Any w) :
    FileInv decimal config w := by
  refine h.invariant (I := FileInv decimal config) ⟨?_, ?_, ?_, ?_, ?_, ?_, ?_⟩
    fun _ _ _ _ _ hstep ih => fileInv_step ih (file_step hstep)
  · intro u hu
    cases hu
  · exact List.nodup_nil
  · intro id hid
    cases hid
  · intro task htask
    cases htask
  · intro file hfile
    cases hfile
  · intro name hname
    cases hname
  · intro bucket _
    exact List.Perm.nil

/-! ### The storage as a table of files -/

/-- What the listing shows of an object with this name and size. -/
def listed (decimal : Char → Option (Fin 10)) (object : String × Option Nat) :
    Option (UUID × String × Nat) :=
  (fileIdFromObjectName decimal object.1).map fun fileId => (fileId, object.1, object.2.getD 0)

/-- The listing reads the file id, the name and the size of an object. -/
theorem listed_fileItem (decimal : Char → Option (Fin 10)) (object : StoredObject) :
    (fileItem decimal object).map (fun item => (item.fileId, item.objectName, item.size)) =
      listed decimal (object.objectName, object.size) := by
  rw [fileItem, listed]
  cases fileIdFromObjectName decimal object.objectName <;> rfl

/-- It shows an upload with its own file id. -/
theorem listed_upload {u : Upload} (hu : WellNamed decimal config u) :
    listed decimal (u.objectName, some u.size) = some (u.fileId, u.objectName, u.size) := by
  rw [listed, hu.fileId]
  rfl

/-- In every reachable state a file id leads to the object that was uploaded under it, until a
deletion of the file or the expiry of the capture has taken it away. Without such an object the
lookup says so, and it never finds two. The listing shows the same files, each once, with their
sizes. -/
theorem storage_holds_uploads
    (h : Reachable (fileMachine lower decoders decimal config storage) Any w) :
    (∀ u ∈ w.uploads, Stored config w u →
      resolveObjectName decimal config.toSettings u.bucket u.fileId (w.buckets u.bucket) =
        .ok u.objectName) ∧
    (∀ bucket ∈ config.buckets, ∀ fileId,
      (∀ u ∈ w.uploads, Stored config w u → u.bucket = bucket → u.fileId ≠ fileId) →
      resolveObjectName decimal config.toSettings bucket fileId (w.buckets bucket) =
        .error .objectNotFound) ∧
    (∀ bucket ∈ config.buckets,
      ((files decimal (w.buckets bucket)).map fun item =>
        (item.fileId, item.objectName, item.size)).Perm
        ((storedIn config w bucket).map fun u => (u.fileId, u.objectName, u.size))) := by
  have hinv := fileInv_reachable h
  refine ⟨fun u hu hstored => hinv.resolve_stored hu hstored,
    fun bucket hbucket fileId hmissing => hinv.resolve_missing hbucket fun u hu => ?_,
    fun bucket hbucket => ?_⟩
  · obtain ⟨hmem, hb, hstored⟩ := mem_storedIn.mp hu
    exact hmissing u hmem hstored hb
  · have hread := (hinv.objects bucket hbucket).filterMap (listed decimal)
    -- every name in the bucket can be read, so the listing shows every upload
    have huploads : (storedIn config w bucket).filterMap
        (fun u => listed decimal (u.objectName, some u.size)) =
        (storedIn config w bucket).map fun u => (u.fileId, u.objectName, u.size) := by
      rw [← List.filterMap_eq_map]
      refine List.filterMap_congr fun u hu => ?_
      rw [listed_upload (hinv.uploads u (mem_storedIn.mp hu).1)]
      rfl
    simp only [List.filterMap_map, Function.comp_def, huploads] at hread
    simp only [files, List.map_filterMap, listed_fileItem]
    exact hread

end Steps

/-! ### A run -/

/-- Libraries that take every image for a JPEG. -/
def jpegDecoders : Decoders where
  openImage _ := .ok ("JPEG", .passed)
  namelist _ := .error .caught

def threeBuckets : Config where
  minioBucketFaces := "faces"
  minioBucketCaptures := "captures"
  minioBucketDocuments := "documents"
  presignedUrlDefaultExpirySeconds := 3600
  presignedUrlMaxExpirySeconds := 86400
  distinct := by decide
  default_ge := by decide
  max_ge := by decide

/-- A file id of version 4. -/
def sampleId (n : Fin 1000) : UUID where
  int := 0x40008000000000000000 + n
  int_lt := by omega

/-- Two faces are uploaded, and a batch deletes the first and a file that is not there. -/
def faceRun : List FileAct :=
  [.uploadFace (some "image/jpeg") [[255, 216, 255]] (sampleId 1),
    .uploadFace (some "image/jpeg") [[255, 216], [255]] (sampleId 2),
    .call 0 .done none none, .call 1 .done none none, .call 1 .done none none,
    .call 0 .done none none,
    .batchDelete [⟨"faces", sampleId 1⟩, ⟨"captures", sampleId 1⟩],
    .call 0 .done none none, .call 0 .done none none, .call 0 .done none none]

/-- After it the face that is left is downloaded. -/
def downloadRun : List FileAct :=
  faceRun ++ [.getPresignedUrl ⟨"faces", sampleId 2⟩ 604800, .call 0 .done none none]

/-- The face that is left leads to its object. -/
theorem storage_holds_uploads_face :
    let w := (fileMachine id jpegDecoders (fun _ => none) threeBuckets .byName).final .empty faceRun
    w.uploads.length = 2 ∧
      resolveObjectName (fun _ => none) threeBuckets.toSettings "faces" (sampleId 2)
        (w.buckets "faces") = .ok (directName (sampleId 2)) := by
  intro w
  have hstored : ∃ u ∈ w.uploads, Stored threeBuckets w u ∧ u.bucket = "faces" ∧
      u.fileId = sampleId 2 ∧ u.objectName = directName (sampleId 2) := by
    decide +kernel
  obtain ⟨u, hu, hkept, hbucket, hid, hname⟩ := hstored
  have hreach : Reachable (fileMachine id jpegDecoders (fun _ => none) threeBuckets .byName)
      Any w :=
    .final .init faceRun (by decide +kernel)
  have hresolve := (storage_holds_uploads hreach).1 u hu hkept
  rw [hbucket, hid, hname] at hresolve
  exact ⟨by decide +kernel, hresolve⟩

end Rsap.Proofs
