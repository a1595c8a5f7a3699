import Mathlib.Algebra.Group.Nat.Defs
import Rsap.PyStr

/-!
# `Rsap.FileServer.Storage`: the listing of a bucket

`list_files` and `_file_id_from_object_name` of `StorageService`
(`apps/file-server/app/minio_client.py`), with what they use of the standard library:
`PurePosixPath.stem`, the constructor `UUID` on a text, and `version`.

The name of an object is UTF-8, so it has no surrogates. `int(text, 16)` reads the decimal digits
of every script. The value of such a digit (`unicodedata.decimal`) is a parameter, and only
characters from 128 on are looked up in it.
-/

set_option autoImplicit false

namespace Rsap.FileServer

/-! ### `PurePosixPath` -/

/-- `PurePosixPath(path).name`: the last component. Empty components and those with one dot do not
count. -/
def name (path : List Char) : List Char :=
  (((path.splitOn '/').filter fun part => part ≠ [] ∧ part ≠ ['.']).getLast?).getD []

/-- `PurePosixPath(path).stem`: the name without its last suffix. A dot at the start or at the end
of the name starts no suffix. -/
def stem (path : List Char) : List Char :=
  let suffix := (name path).reverse.takeWhile (· ≠ '.')
  match (name path).reverse.dropWhile (· ≠ '.') with
  | _ :: rest => if rest ≠ [] ∧ suffix ≠ [] then rest.reverse else name path
  | [] => name path

/-! ### `UUID` -/

/-- A value of `uuid.UUID`. -/
structure UUID where
  int : Nat
  int_lt : int < 2 ^ 128
  deriving DecidableEq

/-- `version`, which only the UUIDs of the variant `RFC_4122` have. -/
def UUID.version (u : UUID) : Option Nat :=
  if u.int.testBit 63 ∧ ¬u.int.testBit 62 then some (u.int / 2 ^ 76 % 16) else none

/-- `text.replace(pattern, "")`. The number counts the characters of an occurrence that are still
to be left out. -/
def removeAll (pattern : List Char) : Nat → List Char → List Char
  | _, [] => []
  | k + 1, _ :: rest => removeAll pattern k rest
  | 0, c :: rest =>
    if pattern.isPrefixOf (c :: rest) then removeAll pattern (pattern.length - 1) rest
    else c :: removeAll pattern 0 rest

/-- `text.strip(characters)`. -/
def strip (p : Char → Bool) (text : List Char) : List Char :=
  ((text.dropWhile p).reverse.dropWhile p).reverse

section
variable (decimal : Char → Option (Fin 10))

/-- A character of a number as `int` reads it: white space is a blank, a decimal digit of any
script is the ASCII digit, and any other character is no part of a number. -/
def toAscii (c : Char) : Char :=
  if c.toNat < 127 then c
  else if PyStr.isSpace (.scalar c) then ' '
  else match decimal c with
    | some d => Char.ofNat (48 + d)
    | none => '?'

/-- `Py_ISSPACE`. -/
def isAsciiSpace (c : Char) : Bool := c = ' ' ∨ 9 ≤ c.toNat ∧ c.toNat ≤ 13

/-- The value of a digit of base 16. -/
def hexValue (c : Char) : Option Nat :=
  if 48 ≤ c.toNat ∧ c.toNat ≤ 57 then some (c.toNat - 48)
  else if 97 ≤ c.toNat ∧ c.toNat ≤ 102 then some (c.toNat - 87)
  else if 65 ≤ c.toNat ∧ c.toNat ≤ 70 then some (c.toNat - 55)
  else none

/-- Digits of base 16. One underscore may stand between two digits. -/
def hexDigits : Nat → Bool → List Char → Option Nat
  | value, afterDigit, [] => if afterDigit then some value else none
  | value, afterDigit, c :: rest =>
    if c = '_' then if afterDigit then hexDigits value false rest else none
    else (hexValue c).bind fun d => hexDigits (16 * value + d) true rest

/-- `int(text, 16)`, where `none` is `ValueError`. A minus sign does not occur, since `UUID` has
removed it. -/
def intBase16 (text : List Char) : Option Nat :=
  let digits := strip isAsciiSpace (text.map (toAscii decimal))
  let digits := match digits with
    | '+' :: rest => rest
    | _ => digits
  match digits with
  | '0' :: 'x' :: '_' :: rest => hexDigits 0 false rest
  | '0' :: 'X' :: '_' :: rest => hexDigits 0 false rest
  | '0' :: 'x' :: rest => hexDigits 0 false rest
  | '0' :: 'X' :: rest => hexDigits 0 false rest
  | _ => hexDigits 0 false digits

/-- `UUID(text)`, where `none` is `ValueError`. -/
def UUID.ofText (text : List Char) : Option UUID :=
  let hex := removeAll "uuid:".toList 0 (removeAll "urn:".toList 0 text)
  let hex := (strip (fun c => c = '{' ∨ c = '}') hex).filter (· ≠ '-')
  if hex.length ≠ 32 then none
  else (intBase16 decimal hex).bind fun int =>
    if int_lt : int < 2 ^ 128 then some ⟨int, int_lt⟩ else none

/-- `_file_id_from_object_name`. -/
def fileIdFromObjectName (objectName : String) : Option UUID :=
  (UUID.ofText decimal (stem objectName.toList)).filter fun fileId => fileId.version = some 4

/-! ### `list_files` -/

/-- What the listing reads of an object of the bucket. -/
structure StoredObject where
  objectName : String
  size : Option Nat
  etag : Option String
  lastModified : Option Int
  deriving DecidableEq

/-- An item of a page. -/
structure FileItem where
  fileId : UUID
  objectName : String
  size : Nat
  etag : Option String
  lastModified : Option Int
  deriving DecidableEq

/-- The item of an object with its file id. -/
def StoredObject.item (object : StoredObject) (fileId : UUID) : FileItem where
  fileId := fileId
  objectName := object.objectName
  size := object.size.getD 0
  etag := object.etag
  lastModified := object.lastModified

/-- The names of the three buckets. -/
structure Settings where
  minioBucketFaces : String
  minioBucketCaptures : String
  minioBucketDocuments : String
  deriving DecidableEq

def Settings.buckets (s : Settings) : List String :=
  [s.minioBucketFaces, s.minioBucketCaptures, s.minioBucketDocuments]

/-- `InvalidBucketError`, with the name of the bucket. -/
structure InvalidBucketError where
  bucket : String
  deriving DecidableEq

/-- `require_bucket`. -/
def requireBucket (settings : Settings) (bucket : String) : Except InvalidBucketError String :=
  if bucket ∈ settings.buckets then .ok bucket else .error ⟨bucket⟩

/-- The loop of `list_files`, over the objects that are left, with `accepted` and `items`. -/
def listLoop (offset pageSize : Int) :
    List StoredObject → Int → List FileItem → List FileItem × Bool
  | [], _, items => (items, false)
  | object :: rest, accepted, items =>
    match fileIdFromObjectName decimal object.objectName with
    | none => listLoop offset pageSize rest accepted items
    | some fileId =>
      if accepted < offset then listLoop offset pageSize rest (accepted + 1) items
      else if (items.length : Int) = pageSize then (items, true)
      else listLoop offset pageSize rest (accepted + 1) (items ++ [object.item fileId])

/-- `list_files`. The last argument is what `list_objects` yields. -/
def listFiles (settings : Settings) (bucket : String) (page pageSize : Int)
    (objects : List StoredObject) : Except InvalidBucketError (List FileItem × Bool) :=
  (requireBucket settings bucket).map fun _ =>
    listLoop decimal ((page - 1) * pageSize) pageSize objects 0 []

end

end Rsap.FileServer
