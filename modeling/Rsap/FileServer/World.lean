import Rsap.FileServer.Requests
import Rsap.Library.Custody
import Rsap.Library.Machine
import Mathlib.Logic.Function.Basic

/-!
# `Rsap.FileServer.World`: the requests of the file server, step by step

The routes that call the storage for a file (`upload.py`, `download.py` and `manage.py` in
`app/routers`) run in worker threads over one object storage. A step of a request is one call of the
storage, and the steps of different requests interleave. A call may raise before or after its
effect. Captures past their retention disappear by the rule of the bucket
(`_set_capture_lifecycle`).

`uploads`, `removals` and `expirations` are histories: the objects that were put, the files that
deletions removed, and the captures that expired. `batches` are the batch requests, and `replies` is
what the routes answered. A batch carries the files of its request to its answer.
-/

set_option autoImplicit false

namespace Rsap.FileServer

open Rsap.Library

/-- `FileReference`. -/
structure FileReference where
  bucket : String
  fileId : UUID
  deriving DecidableEq

/-- The checks of `BatchDeleteRequest`. -/
def ValidBatch (files : List FileReference) : Prop :=
  1 ≤ files.length ∧ files.length ≤ 100 ∧ files.Nodup ∧
    ∀ file ∈ files, 1 ≤ file.bucket.length ∧ file.fileId.version = some 4

instance (files : List FileReference) : Decidable (ValidBatch files) :=
  inferInstanceAs (Decidable (_ ∧ _ ∧ _ ∧ _))

/-- `BatchDeleteFailure`. -/
structure BatchDeleteFailure where
  file : FileReference
  code : String
  message : String
  deriving DecidableEq

/-- An exception of a storage call: `S3Error`, `HTTPError` of `urllib3`, or `OSError`. -/
inductive StorageError where
  | s3 (code : String)
  | http
  | os
  deriving DecidableEq

/-- How a storage call ends: it answers, it raises without an effect, or it raises after its
effect. -/
inductive CallOutcome where
  | done
  | raised (e : StorageError)
  | raisedAfter (e : StorageError)
  deriving DecidableEq

/-- Who deletes a file: `delete_file`, or `batch_delete` with the files of its request, what it has
collected so far, and the files that are left. -/
inductive Deletion where
  | single
  | batch (files deleted : List FileReference) (failed : List BatchDeleteFailure)
      (rest : List FileReference)
  deriving DecidableEq

/-- A route that makes a URL of a file: `get_presigned_url` or `redirect_to_file`. -/
inductive LinkRoute where
  | presigned
  | redirect
  deriving DecidableEq

/-- The next storage call of a request. -/
inductive FileTask where
  | put (upload : Upload) (signed : Bool)
  | sign (upload : Upload)
  | link (file : FileReference) (expires : Nat) (route : LinkRoute)
  | resolve (file : FileReference) (deletion : Deletion)
  | remove (file : FileReference) (objectName : String) (deletion : Deletion)
  deriving DecidableEq

/-- What a presigned URL grants. -/
structure PresignedUrl where
  bucket : String
  objectName : String
  expires : Nat
  deriving DecidableEq

/-- An exception of `remove` or of `presigned_url`. -/
inductive FileError where
  | resolve (e : ResolveError)
  | storage (e : StorageError)
  | expiry
  deriving DecidableEq

/-- What a request ends with. -/
inductive FileReply where
  | uploaded (upload : Upload) (url : Option PresignedUrl)
  | presigned (file : FileReference) (url : PresignedUrl) (expires : Nat)
  | redirected (file : FileReference) (url : PresignedUrl)
  | deleted (file : FileReference)
  | batchDeleted (files deleted : List FileReference) (failed : List BatchDeleteFailure)
  | rejected (e : UploadError)
  | failed (e : FileError)
  deriving DecidableEq

/-- The file server with its storage. -/
structure FileWorld where
  buckets : String → List StoredObject
  issued : List UUID
  tasks : List FileTask
  uploads : List Upload
  removals : List FileReference
  expirations : List String
  batches : List (List FileReference)
  replies : List FileReply

/-- After `initialize`. -/
def FileWorld.empty : FileWorld := ⟨fun _ => [], [], [], [], [], [], [], []⟩

/-! ### The requests -/

/-- The exceptions of a resolution that stands for a missing object: only the faces are looked up
by name. -/
def resolveRaised (settings : Settings) (bucket : String) : StorageError → FileError
  | .s3 code =>
    if bucket = settings.minioBucketFaces ∧ code ∈ ["NoSuchKey", "NoSuchObject", "NotFound"] then
      .resolve .objectNotFound
    else .storage (.s3 code)
  | e => .storage e

/-- `resolve_object_name` with a storage that may raise. An unknown bucket is found out before the
storage is called. -/
def resolveCall (decimal : Char → Option (Fin 10)) (settings : Settings) (file : FileReference)
    (objects : List StoredObject) (outcome : CallOutcome) : Except FileError String :=
  match requireBucket settings file.bucket, outcome with
  | .error _, _ => .error (.resolve .invalidBucket)
  | .ok _, .done =>
    (resolveObjectName decimal settings file.bucket file.fileId objects).mapError .resolve
  | .ok _, .raised e => .error (resolveRaised settings file.bucket e)
  | .ok _, .raisedAfter e => .error (resolveRaised settings file.bucket e)

/-- The next file of a batch, or its response. -/
def batchNext (files deleted : List FileReference) (failed : List BatchDeleteFailure) :
    List FileReference → FileTask ⊕ FileReply
  | [] => .inr (.batchDeleted files deleted failed)
  | file :: rest => .inl (.resolve file (.batch files deleted failed rest))

/-- The end of `remove` for a file. A batch goes on after the exceptions that it catches. -/
def Deletion.next (deletion : Deletion) (file : FileReference) (result : Except FileError Unit) :
    FileTask ⊕ FileReply :=
  match deletion, result with
  | .single, .ok _ => .inr (.deleted file)
  | .single, .error e => .inr (.failed e)
  | .batch files deleted failed rest, .ok _ => batchNext files (deleted ++ [file]) failed rest
  | .batch _ _ _ _, .error (.resolve .duplicate) => .inr (.failed (.resolve .duplicate))
  | .batch _ _ _ _, .error .expiry => .inr (.failed .expiry)
  | .batch files deleted failed rest, .error (.resolve _) =>
    batchNext files deleted (failed ++ [⟨file, "not_found", "Object could not be found"⟩]) rest
  | .batch files deleted failed rest, .error (.storage _) =>
    batchNext files deleted (failed ++ [⟨file, "storage_error", "Object could not be deleted"⟩])
      rest

/-- `presigned_url` of a name that is resolved. -/
def presign (config : Config) (file : FileReference) (expires : Nat) (objectName : String) :
    Except FileError PresignedUrl :=
  match clampPresignedExpiry config (some expires) with
  | none => .error .expiry
  | some effectiveExpiry => .ok ⟨file.bucket, objectName, effectiveExpiry⟩

/-- The end of a route that makes a URL. -/
def LinkRoute.reply (route : LinkRoute) (file : FileReference) (expires : Nat) :
    Except FileError PresignedUrl → FileReply
  | .error e => .failed e
  | .ok url =>
    match route with
    | .presigned => .presigned file url expires
    | .redirect => .redirected file url

/-- A step of the file server. The chunks are what the upload sends. The calls of the storage fix
the tag and the time of an object. -/
inductive FileAct where
  | uploadFace (contentType : Option String) (chunks : List (List UInt8)) (fileId : UUID)
  | uploadCapture (date : Date) (contentType : Option String) (chunks : List (List UInt8))
      (fileId : UUID)
  | uploadDocument (category : List Char) (contentType : Option String)
      (chunks : List (List UInt8)) (fileId : UUID)
  | getPresignedUrl (file : FileReference) (expires : Nat)
  | redirectToFile (file : FileReference)
  | delete (file : FileReference)
  | batchDelete (files : List FileReference)
  | call (i : Nat) (outcome : CallOutcome) (etag : Option String) (lastModified : Option Int)
  | expire (objectName : String)
  | crash

namespace FileWorld

/-- The request has ended. -/
def answer (w : FileWorld) (reply : FileReply) : FileWorld :=
  { w with replies := reply :: w.replies }

/-- A task goes on, or its request ends. -/
def goOn (w : FileWorld) (i : Nat) : FileTask ⊕ FileReply → FileWorld
  | .inl task => { w with tasks := resume w.tasks i (some task) }
  | .inr reply => { w with tasks := resume w.tasks i none }.answer reply

/-- The effect of `put_object`. -/
def put (storage : ObjectStorage) (w : FileWorld) (upload : Upload) (etag : Option String)
    (lastModified : Option Int) : FileWorld :=
  { w with
    buckets := Function.update w.buckets upload.bucket
      (storage.put (upload.object etag lastModified) (w.buckets upload.bucket))
    uploads := upload :: w.uploads }

/-- The effect of `remove_object`. -/
def remove (storage : ObjectStorage) (w : FileWorld) (file : FileReference)
    (objectName : String) : FileWorld :=
  { w with
    buckets := Function.update w.buckets file.bucket
      (storage.remove objectName (w.buckets file.bucket))
    removals := file :: w.removals }

section
variable (lower : List Char → List Char) (decoders : Decoders)
  (decimal : Char → Option (Fin 10)) (config : Config) (storage : ObjectStorage)

/-- An upload route up to its `put_object`. The values of `uuid4` are new. -/
def startUpload (w : FileWorld) (kind : UploadKind) (signed : Bool) (contentType : Option String)
    (chunks : List (List UInt8)) (fileId : UUID) : Option FileWorld :=
  match readValidatedUpload lower decoders (kind.contentTypes.map Prod.fst) contentType chunks with
  | .error e => some (w.answer (.rejected e))
  | .ok (data, contentType) =>
    if fileId.version = some 4 ∧ fileId ∉ w.issued then
      some { w with
        issued := fileId :: w.issued
        tasks := w.tasks ++ [.put (kind.upload config.toSettings fileId contentType data) signed] }
    else none

/-- A route that makes a URL, up to its storage call. -/
def startLink (w : FileWorld) (file : FileReference) (requested : Option Nat)
    (route : LinkRoute) : FileWorld :=
  match validateUuid4 file.fileId with
  | .error e => w.answer (.rejected (.http e))
  | .ok _ =>
    match clampPresignedExpiry config requested with
    | none => w.answer (.failed .expiry)
    | some expires => { w with tasks := w.tasks ++ [.link file expires route] }

/-- A storage call of a task. -/
def call (w : FileWorld) (i : Nat) (task : FileTask) (outcome : CallOutcome)
    (etag : Option String) (lastModified : Option Int) : FileWorld :=
  match task, outcome with
  | .put upload signed, .done =>
    (w.put storage upload etag lastModified).goOn i
      (if signed then .inl (.sign upload) else .inr (.uploaded upload none))
  | .put _ _, .raised e => w.goOn i (.inr (.failed (.storage e)))
  | .put upload _, .raisedAfter e =>
    (w.put storage upload etag lastModified).goOn i (.inr (.failed (.storage e)))
  | .sign upload, outcome =>
    match clampPresignedExpiry config none with
    | none => w.goOn i (.inr (.failed .expiry))
    | some expires =>
      match (resolveCall decimal config.toSettings ⟨upload.bucket, upload.fileId⟩
          (w.buckets upload.bucket) outcome).bind
          (presign config ⟨upload.bucket, upload.fileId⟩ expires) with
      | .error e => w.goOn i (.inr (.failed e))
      | .ok url => w.goOn i (.inr (.uploaded upload (some url)))
  | .link file expires route, outcome =>
    w.goOn i (.inr (route.reply file expires
      ((resolveCall decimal config.toSettings file (w.buckets file.bucket) outcome).bind
        (presign config file expires))))
  | .resolve file deletion, outcome =>
    match resolveCall decimal config.toSettings file (w.buckets file.bucket) outcome with
    | .error e => w.goOn i (deletion.next file (.error e))
    | .ok objectName => w.goOn i (.inl (.remove file objectName deletion))
  | .remove file objectName deletion, .done =>
    (w.remove storage file objectName).goOn i (deletion.next file (.ok ()))
  | .remove file _ deletion, .raised e => w.goOn i (deletion.next file (.error (.storage e)))
  | .remove file objectName deletion, .raisedAfter e =>
    (w.remove storage file objectName).goOn i (deletion.next file (.error (.storage e)))

/-- One step. -/
def step (w : FileWorld) : FileAct → Option FileWorld
  | .uploadFace contentType chunks fileId =>
    w.startUpload lower decoders config .face true contentType chunks fileId
  | .uploadCapture date contentType chunks fileId =>
    w.startUpload lower decoders config (.capture date) false contentType chunks fileId
  | .uploadDocument category contentType chunks fileId =>
    match validateCategory lower category with
    | .error e => some (w.answer (.rejected e))
    | .ok category =>
      w.startUpload lower decoders config (.document category) false contentType chunks fileId
  | .getPresignedUrl file expires =>
    -- the bounds of the query parameter
    if 60 ≤ expires ∧ expires ≤ 604800 then some (w.startLink config file (some expires) .presigned)
    else none
  | .redirectToFile file => some (w.startLink config file none .redirect)
  | .delete file =>
    match validateUuid4 file.fileId with
    | .error e => some (w.answer (.rejected (.http e)))
    | .ok _ => some { w with tasks := w.tasks ++ [.resolve file .single] }
  | .batchDelete files =>
    if ValidBatch files then
      match batchNext files [] [] files with
      | .inl task => some { w with tasks := w.tasks ++ [task], batches := files :: w.batches }
      | .inr reply => some ({ w with batches := files :: w.batches }.answer reply)
    else none
  | .call i outcome etag lastModified =>
    (w.tasks[i]?).map fun task => w.call decimal config storage i task outcome etag lastModified
  | .expire objectName =>
    if (w.buckets config.minioBucketCaptures).any fun object => object.objectName = objectName then
      some { w with
        buckets := Function.update w.buckets config.minioBucketCaptures
          (storage.remove objectName (w.buckets config.minioBucketCaptures))
        expirations := objectName :: w.expirations }
    else none
  | .crash => some { w with tasks := [] }

end

end FileWorld

/-- The file server as a machine. -/
def fileMachine (lower : List Char → List Char) (decoders : Decoders)
    (decimal : Char → Option (Fin 10)) (config : Config) (storage : ObjectStorage) :
    Machine FileWorld FileAct where
  init := .empty
  step := FileWorld.step lower decoders decimal config storage

end Rsap.FileServer
