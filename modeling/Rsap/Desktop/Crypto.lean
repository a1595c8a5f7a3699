import Mathlib.Data.List.Sort
import Mathlib.Data.Set.Defs
import Rsap.Desktop.Schemas
import Rsap.Library.Base64
import Rsap.PyStr

/-!
# `Rsap.Desktop.Crypto`: `FieldCipher` and the persons cache that stores through it

Ciphertexts are ASCII texts, in the URL-safe alphabet.

`AESGCM` is third-party code. `Aead` is its two methods under one key, and `none` is `InvalidTag`.
The nonce of `os.urandom(12)` is an argument of `encrypt`.

Pydantic refuses surrogates, so the fields of a `PersonCacheEntry` are `String`s.
-/

set_option autoImplicit false

namespace Rsap.Desktop

open Rsap.Library

/-! ### `FieldCipher` -/

/-- `os.urandom(12)`. -/
abbrev Nonce := { bytes : List UInt8 // bytes.length = 12 }

/-- The methods of `AESGCM(key)`. -/
structure Aead where
  encrypt : (nonce data associated : List UInt8) → List UInt8
  decrypt : (nonce data associated : List UInt8) → Option (List UInt8)

/-- What is assumed of AES-GCM, for the associated data that occur: a tag of 16 bytes, what was
encrypted is decrypted, and other associated data is rejected. -/
structure Aead.Sound (aes : Aead) (inUse : Set (List UInt8)) : Prop where
  length : ∀ nonce data associated, (aes.encrypt nonce data associated).length = data.length + 16
  opens : ∀ nonce data, ∀ associated ∈ inUse,
    aes.decrypt nonce (aes.encrypt nonce data associated) associated = some data
  rejects : ∀ nonce data, ∀ associated ∈ inUse, ∀ other ∈ inUse, other ≠ associated →
    aes.decrypt nonce (aes.encrypt nonce data associated) other = none

/-- The errors of the cipher, with the texts that the code raises them with. -/
inductive CipherError where
  | decryption (message : String)
  | unicodeEncode
  | value (message : String)
  deriving DecidableEq

structure FieldCipher where
  aes : Aead

namespace FieldCipher

/-- `b"v1"`. -/
def version : List UInt8 := [118, 49]

/-- `__init__`. -/
def new (aesgcm : List UInt8 → Aead) (key : List UInt8) : Except CipherError FieldCipher :=
  if key.length ≠ 32 then .error (.value "field encryption key must contain 32 bytes")
  else .ok ⟨aesgcm key⟩

def encrypt (cipher : FieldCipher) (nonce : Nonce) (plaintext purpose : PyStr) :
    Except CipherError PyStr :=
  match plaintext.encodeUtf8, purpose.encodeUtf8 with
  | some data, some associated =>
    let ciphertext := cipher.aes.encrypt nonce.val data associated
    .ok (PyStr.ofAscii (Base64.encode (version ++ nonce.val ++ ciphertext)))
  | _, _ => .error .unicodeEncode

/-- The body of the `try` of `decrypt`: every exception inside it has the same handler. -/
def opened (cipher : FieldCipher) (encoded purpose : PyStr) : Option PyStr := do
  let text ← encoded.encodeAscii
  let payload ← Base64.decode text
  if payload.take 2 ≠ version ∨ payload.length < 31 then none
  else
    let associated ← purpose.encodeUtf8
    let data ← cipher.aes.decrypt ((payload.drop 2).take 12) (payload.drop 14) associated
    PyStr.decodeUtf8 data

/-- What `decrypt` raises. -/
def unauthenticated : CipherError :=
  .decryption "encrypted local value could not be authenticated"

def decrypt (cipher : FieldCipher) (encoded purpose : PyStr) : Except CipherError PyStr :=
  match cipher.opened encoded purpose with
  | some plaintext => .ok plaintext
  | none => .error unauthenticated

end FieldCipher

/-! ### `PersonRepository` -/

/-- `PersonCacheEntry`: the name has bounds on both sides, the phone only from above. -/
structure PersonCacheEntry where
  serverId : Uuid
  name : String
  phone : String
  faceEncodingPath : Option String
  syncedAt : Timestamp
  nameLength : 1 ≤ name.length ∧ name.length ≤ 255
  phoneLength : phone.length ≤ 32

/-- A row of `local_persons`. -/
structure PersonRow where
  id : Uuid
  serverId : Uuid
  name : String
  phoneEncrypted : PyStr
  faceEncodingPath : Option String
  syncedAt : Timestamp

/-- An item of `list`. -/
structure PersonItem where
  id : Uuid
  serverId : Uuid
  name : String
  phone : PyStr
  faceEncodingPath : Option String
  syncedAt : Timestamp

/-- What `list` returns. -/
structure PersonPage where
  items : List PersonItem
  limit : Nat
  offset : Nat
  total : Nat

/-- `f"person-phone:{identifier}"`. -/
def phonePurpose (id : Uuid) : PyStr := PyStr.ofString ("person-phone:" ++ id.text)

/-- A name as `COLLATE NOCASE` compares it: only ASCII letters fold. -/
def nocase (name : String) : List Nat :=
  name.toList.map fun c => (if 'A' ≤ c ∧ c ≤ 'Z' then c.toNat + 32 else c.toNat)

/-- `ORDER BY name COLLATE NOCASE, id`. -/
def PersonRow.before (a b : PersonRow) : Prop :=
  nocase a.name < nocase b.name ∨ (nocase a.name = nocase b.name ∧ a.id ≤ b.id)

instance : DecidableRel PersonRow.before := fun _ _ =>
  inferInstanceAs (Decidable (_ ∨ (_ ∧ _)))

/-- `INSERT … ON CONFLICT(server_id) DO UPDATE SET …`. -/
def upsertPerson (table : List PersonRow) (row : PersonRow) : List PersonRow :=
  if table.any (·.serverId == row.serverId) then
    table.map fun old => if old.serverId = row.serverId then { row with id := old.id } else old
  else table ++ [row]

/-- The row of one person, whose phone is encrypted with `nonce`. -/
def personRow (cipher : FieldCipher) (person : PersonCacheEntry) (nonce : Nonce) :
    Except CipherError PersonRow := do
  let phone ← cipher.encrypt nonce (PyStr.ofString person.phone) (phonePurpose person.serverId)
  return { id := person.serverId, serverId := person.serverId, name := person.name,
           phoneEncrypted := phone, faceEncodingPath := person.faceEncodingPath,
           syncedAt := person.syncedAt }

/-- The loop of `replace_cache`. -/
def storePeople (cipher : FieldCipher) :
    List (PersonCacheEntry × Nonce) → List PersonRow → Except CipherError (List PersonRow)
  | [], table => .ok table
  | (person, nonce) :: rest, table => do
    let row ← personRow cipher person nonce
    storePeople cipher rest (upsertPerson table row)

/-- `replace_cache`. Each person comes with the nonce of its encryption. -/
def replaceCache (cipher : FieldCipher) (people : List (PersonCacheEntry × Nonce))
    (table : List PersonRow) : Except CipherError (List PersonRow) := do
  let serverIds := people.map (·.1.serverId)
  let table ← storePeople cipher people table
  if serverIds ≠ [] then return table.filter (serverIds.contains ·.serverId)
  else return []

/-- An item of `list`, with its phone decrypted. -/
def personItem (cipher : FieldCipher) (row : PersonRow) : Except CipherError PersonItem := do
  let phone ← cipher.decrypt row.phoneEncrypted (phonePurpose row.serverId)
  return { id := row.id, serverId := row.serverId, name := row.name, phone,
           faceEncodingPath := row.faceEncodingPath, syncedAt := row.syncedAt }

/-- `list`. -/
def listPeople (cipher : FieldCipher) (table : List PersonRow) (limit offset : Nat) :
    Except CipherError PersonPage := do
  let rows := ((table.insertionSort PersonRow.before).drop offset).take limit
  let items ← rows.mapM (personItem cipher)
  return { items, limit, offset, total := table.length }

end Rsap.Desktop
