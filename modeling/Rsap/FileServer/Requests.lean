import Rsap.FileServer.Storage
import Rsap.Library.Calendar
import Rsap.Library.OrderKeys
import Mathlib.Data.List.Sort

/-!
# `Rsap.FileServer.Requests`: uploads, names and deletions

The checks of an upload (`app/validation.py`), the names that the upload routes give to objects
(`app/routers/upload.py`), the lookup of an object by its file id (`resolve_object_name` of
`app/minio_client.py`), and the limit on presigned URLs (`app/presigned.py`).

Pillow and `zipfile` are parameters (`Decoders`), and so are `str.lower` outside of ASCII and the
object storage (`ObjectStorage`).
-/

set_option autoImplicit false

namespace Rsap.FileServer

open Rsap.Library

/-! ### Texts -/

/-- The digit of base 16, in lower case. -/
def hexChar (d : Nat) : Char := if d < 10 then Char.ofNat (48 + d) else Char.ofNat (87 + d)

/-- `"%0*x" % (width, n)` of a number that fits in the width. -/
def hexPad : Nat → Nat → List Char
  | 0, _ => []
  | width + 1, n => hexPad width (n / 16) ++ [hexChar (n % 16)]

/-- `str(file_id)`. -/
def UUID.text (u : UUID) : List Char :=
  let hex := hexPad 32 u.int
  hex.take 8 ++ '-' :: ((hex.drop 8).take 4 ++ '-' :: ((hex.drop 12).take 4 ++ '-' ::
    ((hex.drop 16).take 4 ++ '-' :: hex.drop 20)))

/-- `"%0*d" % (width, n)` of a number that fits in the width. -/
def decimalPad (width n : Nat) : List Char := digits (fun d => [Char.ofNat (48 + d)]) width n

/-- `isoformat()` of a date. -/
def dateText (d : Date) : List Char :=
  decimalPad 4 d.year ++ '-' :: (decimalPad 2 d.month ++ '-' :: decimalPad 2 d.day)

/-! ### The checks of an upload -/

/-- `HTTPException`. -/
structure HTTPException where
  statusCode : Nat
  detail : String
  deriving DecidableEq

/-- `MAX_UPLOAD_SIZE`. -/
def maxUploadSize : Nat := 10 * 1024 * 1024

/-- `IMAGE_CONTENT_TYPES`. -/
def imageContentTypes : List (String × String) := [("image/jpeg", ".jpg")]

/-- `DOCUMENT_CONTENT_TYPES`. -/
def documentContentTypes : List (String × String) :=
  [("application/pdf", ".pdf"),
    ("image/jpeg", ".jpg"),
    ("image/png", ".png"),
    ("text/plain", ".txt"),
    ("text/csv", ".csv"),
    ("application/vnd.openxmlformats-officedocument.wordprocessingml.document", ".docx"),
    ("application/vnd.openxmlformats-officedocument.spreadsheetml.sheet", ".xlsx")]

/-- How a check of the content ends. The handler of `_validate_content` catches some exceptions
and lets the others pass. -/
inductive Check where
  | passed
  | caught
  | uncaught
  deriving DecidableEq

/-- What the libraries say of a content: the format of an image and the end of its verification,
and the names in an archive. -/
structure Decoders where
  openImage : List UInt8 → Except Check (String × Check)
  namelist : List UInt8 → Except Check (List String)

/-- `_validate_image`. -/
def validateImage (decoders : Decoders) (data : List UInt8) (expectedFormat : String) : Check :=
  match decoders.openImage data with
  | .error e => e
  | .ok (format, verified) => if format ≠ expectedFormat then .caught else verified

/-- `pattern in data`. -/
def isInfix (pattern : List UInt8) : List UInt8 → Bool
  | [] => pattern.isEmpty
  | b :: rest => pattern.isPrefixOf (b :: rest) || isInfix pattern rest

/-- `_validate_pdf`. -/
def validatePdf (data : List UInt8) : Check :=
  if "%PDF-".toUTF8.data.toList.isPrefixOf data ∧
      isInfix "%%EOF".toUTF8.data.toList (data.drop (data.length - 1024)) then .passed
  else .caught

/-- `_validate_utf8`. -/
def validateUtf8 (data : List UInt8) : Check :=
  match PyStr.decodeUtf8 data with
  | some _ => .passed
  | none => .caught

/-- `_validate_openxml`. -/
def validateOpenxml (decoders : Decoders) (data : List UInt8) (requiredPrefix : String) : Check :=
  match decoders.namelist data with
  | .error e => e
  | .ok names =>
    if "[Content_Types].xml" ∈ names ∧ names.any fun name => name.startsWith requiredPrefix then
      .passed
    else .caught

/-- The validators of `_validate_content`, by content type. -/
def validators (decoders : Decoders) : List (String × (List UInt8 → Check)) :=
  [("image/jpeg", fun content => validateImage decoders content "JPEG"),
    ("image/png", fun content => validateImage decoders content "PNG"),
    ("application/pdf", validatePdf),
    ("text/plain", validateUtf8),
    ("text/csv", validateUtf8),
    ("application/vnd.openxmlformats-officedocument.wordprocessingml.document",
      fun content => validateOpenxml decoders content "word/"),
    ("application/vnd.openxmlformats-officedocument.spreadsheetml.sheet",
      fun content => validateOpenxml decoders content "xl/")]

/-- Why a request ends without its result. -/
inductive UploadError where
  | http (e : HTTPException)
  | unexpected
  deriving DecidableEq

/-- `_validate_content`. An unknown type is a `KeyError`, which the handler does not catch. -/
def validateContent (decoders : Decoders) (data : List UInt8) (contentType : String) :
    Except UploadError Unit :=
  match (validators decoders).lookup contentType with
  | none => .error .unexpected
  | some validator =>
    match validator data with
    | .passed => .ok ()
    | .caught => .error (.http ⟨422, "File content does not match its declared MIME type"⟩)
    | .uncaught => .error .unexpected

/-- The loop of `read_validated_upload` over what `read` returns, with `chunks` joined. An empty
chunk is the end. -/
def readLoop : List (List UInt8) → Nat → List UInt8 → Except UploadError (List UInt8)
  | [], _, data => .ok data
  | [] :: _, _, data => .ok data
  | chunk :: rest, size, data =>
    if maxUploadSize ≤ size + chunk.length then
      .error (.http ⟨413, "Upload size must be below 10 MB"⟩)
    else readLoop rest (size + chunk.length) (data ++ chunk)

/-- The white space of `str.strip`. -/
def isSpace (c : Char) : Bool := PyStr.isSpace (.scalar c)

section
variable (lower : List Char → List Char) (decoders : Decoders)

/-- `read_validated_upload`. The chunks are what `upload.read` returns. -/
def readValidatedUpload (allowedTypes : List String) (contentType : Option String)
    (chunks : List (List UInt8)) : Except UploadError (List UInt8 × String) :=
  let contentType := String.ofList (strip isSpace (lower (contentType.getD "").toList))
  if contentType ∉ allowedTypes then
    .error (.http ⟨415, "Unsupported MIME type. Allowed types: " ++
      String.intercalate ", " (allowedTypes.insertionSort (· ≤ ·))⟩)
  else
    match readLoop chunks 0 [] with
    | .error e => .error e
    | .ok data =>
      if data = [] then .error (.http ⟨400, "Uploaded file is empty"⟩)
      else (validateContent decoders data contentType).map fun _ => (data, contentType)

/-- `[a-z0-9]`. -/
def isCategoryStart (c : Char) : Bool :=
  97 ≤ c.toNat ∧ c.toNat ≤ 122 ∨ 48 ≤ c.toNat ∧ c.toNat ≤ 57

/-- `CATEGORY_PATTERN.fullmatch`. -/
def isCategory : List Char → Bool
  | [] => false
  | c :: rest => isCategoryStart c ∧ rest.length ≤ 63 ∧
      rest.all fun c => isCategoryStart c ∨ c = '_' ∨ c = '-'

/-- A text that `validate_category` returns. -/
structure Category where
  text : List Char
  valid : isCategory text = true

/-- `validate_category`. -/
def validateCategory (category : List Char) : Except UploadError Category :=
  let normalized := lower (strip isSpace category)
  if valid : isCategory normalized = true then .ok ⟨normalized, valid⟩
  else .error (.http ⟨422,
    "Category must contain only lowercase letters, digits, underscores, or hyphens"⟩)

end

/-- `validate_uuid4`. -/
def validateUuid4 (value : UUID) : Except HTTPException UUID :=
  if value.version ≠ some 4 then .error ⟨422, "file_id must be a UUID v4"⟩ else .ok value

/-! ### Names -/

/-- The three kinds of upload. A capture is filed under the date and a document under its
category. -/
inductive UploadKind where
  | face
  | capture (date : Date)
  | document (category : Category)

/-- The content types that a route takes, with the endings of their files. -/
def UploadKind.contentTypes : UploadKind → List (String × String)
  | .face => imageContentTypes
  | .capture _ => imageContentTypes
  | .document _ => documentContentTypes

/-- The directory of an object, with its slash. -/
def UploadKind.directory : UploadKind → List Char
  | .face => []
  | .capture date => dateText date ++ ['/']
  | .document category => category.text ++ ['/']

/-- The ending of an object. -/
def UploadKind.ending (kind : UploadKind) (contentType : String) : List Char :=
  match kind with
  | .document _ => ((documentContentTypes.lookup contentType).getD "").toList
  | _ => ".jpg".toList

/-- The bucket of an upload. -/
def UploadKind.bucket (settings : Settings) : UploadKind → String
  | .face => settings.minioBucketFaces
  | .capture _ => settings.minioBucketCaptures
  | .document _ => settings.minioBucketDocuments

/-- The fields of `UploadResponse` that do not depend on a URL. -/
structure Upload where
  fileId : UUID
  bucket : String
  objectName : String
  contentType : String
  size : Nat
  deriving DecidableEq

/-- What an upload route puts into a bucket and answers with. -/
def UploadKind.upload (settings : Settings) (kind : UploadKind) (fileId : UUID)
    (contentType : String) (data : List UInt8) : Upload where
  fileId := fileId
  bucket := kind.bucket settings
  objectName := String.ofList (kind.directory ++ fileId.text ++ kind.ending contentType)
  contentType := contentType
  size := data.length

/-! ### Buckets -/

/-- An object storage, with what its documentation promises of a bucket: a new object replaces the
one of its name, a removal, which succeeds without the object too, takes the object of the name, and
the next listing shows both. -/
structure ObjectStorage where
  put : StoredObject → List StoredObject → List StoredObject
  remove : String → List StoredObject → List StoredObject
  put_perm : ∀ object objects, (put object objects).Perm
    (object :: objects.filter fun other => other.objectName ≠ object.objectName)
  remove_perm : ∀ objectName objects, (remove objectName objects).Perm
    (objects.filter fun object => object.objectName ≠ objectName)

/-- The storage that lists a bucket by name. -/
def ObjectStorage.byName : ObjectStorage where
  put object objects := (objects.filter fun other =>
    other.objectName ≠ object.objectName).orderedInsert (fun a b => a.objectName ≤ b.objectName)
      object
  remove objectName objects := objects.filter fun object => object.objectName ≠ objectName
  put_perm _ _ := List.perm_orderedInsert ..
  remove_perm _ _ := List.Perm.refl _

/-- What `put_object` stores. -/
def Upload.object (upload : Upload) (etag : Option String) (lastModified : Option Int) :
    StoredObject :=
  ⟨upload.objectName, some upload.size, etag, lastModified⟩

/-- Why a file has no name. -/
inductive ResolveError where
  | invalidBucket
  | objectNotFound
  | duplicate
  deriving DecidableEq

/-- `f"{file_id}.jpg"`. -/
def directName (fileId : UUID) : String := String.ofList (fileId.text ++ ".jpg".toList)

/-- `resolve_object_name` over the objects of the bucket. -/
def resolveObjectName (decimal : Char → Option (Fin 10)) (settings : Settings) (bucket : String)
    (fileId : UUID) (objects : List StoredObject) : Except ResolveError String :=
  match requireBucket settings bucket with
  | .error _ => .error .invalidBucket
  | .ok _ =>
    if bucket = settings.minioBucketFaces then
      if objects.any fun object => object.objectName = directName fileId then
        .ok (directName fileId)
      else .error .objectNotFound
    else
      match objects.filter fun object =>
          fileIdFromObjectName decimal object.objectName = some fileId with
      | [] => .error .objectNotFound
      | [object] => .ok object.objectName
      | _ => .error .duplicate

/-! ### Presigned URLs -/

/-- The settings with the bounds that `Settings` checks. -/
structure Config extends Settings where
  presignedUrlDefaultExpirySeconds : Nat
  presignedUrlMaxExpirySeconds : Nat
  distinct : toSettings.buckets.Nodup
  default_ge : 60 ≤ presignedUrlDefaultExpirySeconds
  max_ge : 60 ≤ presignedUrlMaxExpirySeconds

/-- `clamp_presigned_expiry`, where `none` is `ValueError`. -/
def clampPresignedExpiry (config : Config) (requestedSeconds : Option Nat) : Option Nat :=
  let requested := requestedSeconds.getD config.presignedUrlDefaultExpirySeconds
  if requested < 60 then none else some (min requested config.presignedUrlMaxExpirySeconds)

end Rsap.FileServer
