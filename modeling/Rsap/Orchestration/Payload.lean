import Rsap.Orchestration.Models
import Rsap.PyStr

/-!
# `Rsap.Orchestration.Payload`: `FrozenPayload`

The input of `from_mapping` is an object of a heap: mappings and sequences are cells that anyone
can change later, and an object refers to them by address. The result is a value of its own:
strings, numbers, tuples and payloads cannot change. `to_dict` builds new cells.

A nesting that exhausts the stack is `RecursionError`: `limit` is the depth that the stack has room
for. A float is its bits. Sequences of bytes are among the unsupported objects.
-/

set_option autoImplicit false

namespace Rsap.Orchestration

/-- `_SENSITIVE_EVENT_KEYS`. -/
def sensitiveEventKeys : List PyStr :=
  ["source", "stream_url", "rtsp_url", "camera_url", "password", "token", "secret", "credential",
    "api_key", "authorization", "aadhaar"].map PyStr.ofString

/-- The characters that `casefold` turns a character into, where these are ASCII. Every other
character folds to a text that is not, as it is not itself. -/
def casefoldChar (c : Char) : List Char :=
  if 'A' ≤ c ∧ c ≤ 'Z' then [Char.ofNat (c.toNat + 32)]
  else match c.toNat with
    | 0x17F => ['s']
    | 0x212A => ['k']
    | 0xDF => ['s', 's']
    | 0x1E9E => ['s', 's']
    | 0xFB00 => ['f', 'f']
    | 0xFB01 => ['f', 'i']
    | 0xFB02 => ['f', 'l']
    | 0xFB03 => ['f', 'f', 'i']
    | 0xFB04 => ['f', 'f', 'l']
    | 0xFB05 => ['s', 't']
    | 0xFB06 => ['s', 't']
    | _ => [c]

/-- `casefold()`, as far as a comparison with ASCII texts can tell. -/
def casefold (s : PyStr) : PyStr :=
  s.flatMap fun
    | .scalar c => PyStr.ofChars (casefoldChar c)
    | .surrogate n => [.surrogate n]

/-- `"://" in value`. -/
def HasUrl (s : PyStr) : Prop := PyStr.ofString "://" <:+: s

instance (s : PyStr) : Decidable (HasUrl s) := inferInstanceAs (Decidable (_ <:+: _))

/-- `None`, `bool`, `int`, `float` or `str`. -/
inductive Scalar where
  | none
  | bool (b : Bool)
  | int (n : Int)
  | float (bits : BitVec 64)
  | str (s : PyStr)
  deriving DecidableEq

/-- `isfinite`. -/
def isFinite (bits : BitVec 64) : Bool := bits.extractLsb 62 52 != 0x7ff#11

/-! ### Objects -/

/-- A key of a mapping. -/
inductive Key where
  | str (s : PyStr)
  | other (hash : Nat)
  deriving DecidableEq

inductive Obj where
  | scalar (s : Scalar)
  | ref (address : Nat)
  | unsupported (typeName : String)
  deriving DecidableEq

/-- A dictionary: its keys are distinct. -/
structure PyDict where
  entries : List (Key × Obj)
  distinct : (entries.map (·.1)).Nodup

/-- `d[key] = value`, on the entries: a key that is there keeps its place. -/
def setEntry (key : Key) (value : Obj) : List (Key × Obj) → List (Key × Obj)
  | [] => [(key, value)]
  | entry :: rest => if entry.1 = key then (key, value) :: rest
    else entry :: setEntry key value rest

/-- Assigning to a key of a mapping leaves the keys in order, or appends a new one at the end. -/
theorem keys_setEntry (key : Key) (value : Obj) (entries : List (Key × Obj)) :
    (setEntry key value entries).map (·.1) =
      if key ∈ entries.map (·.1) then entries.map (·.1) else entries.map (·.1) ++ [key] := by
  induction entries with
  | nil => rfl
  | cons entry rest ih =>
    by_cases hkey : entry.1 = key
    · simp [setEntry, hkey]
    · have hne : key ≠ entry.1 := fun h => hkey h.symm
      by_cases hmem : key ∈ rest.map (·.1)
      · simp only [setEntry, if_neg hkey, List.map_cons, ih, if_pos hmem,
          if_pos (List.mem_cons_of_mem entry.1 hmem)]
      · have hcons : key ∉ entry.1 :: rest.map (·.1) := by
          simp only [List.mem_cons, hne, hmem, or_self, not_false_eq_true]
        simp only [setEntry, if_neg hkey, List.map_cons, ih, if_neg hmem, if_neg hcons,
          List.cons_append]

/-- `d[key] = value`. -/
def PyDict.set (dict : PyDict) (key : Key) (value : Obj) : PyDict where
  entries := setEntry key value dict.entries
  distinct := by
    rw [keys_setEntry]
    split
    next => exact dict.distinct
    next hmem =>
      rw [List.nodup_append]
      refine ⟨dict.distinct, List.pairwise_singleton _ key, fun a ha b hb heq => hmem ?_⟩
      rw [← List.mem_singleton.mp hb, ← heq]
      exact ha

/-- `{key: value for key, value in …}`. -/
def PyDict.ofEntries (entries : List (Key × Obj)) : PyDict :=
  entries.foldl (fun dict entry => dict.set entry.1 entry.2) ⟨[], List.nodup_nil⟩

/-- The kinds of sequence: only a list can change. -/
inductive SeqKind where
  | list
  | tuple
  deriving DecidableEq

inductive Cell where
  | seq (kind : SeqKind) (items : List Obj)
  | mapping (dict : PyDict)

/-- The cells by their addresses. -/
abbrev Heap := List Cell

/-! ### Frozen values -/

/-- `FrozenValue`. -/
inductive FrozenValue where
  | scalar (s : Scalar)
  | tuple (items : List FrozenValue)
  | payload (entries : List (PyStr × FrozenValue))

/-- What `from_mapping` raises: an `OrchestrationError` without a camera, or `RecursionError`. -/
inductive PayloadError where
  | orchestration (category : FailureCategory) (message : String)
  | recursion
  deriving DecidableEq

/-- `OrchestrationError(FailureCategory.CALLBACK, None, message)`. -/
def PayloadError.callback (message : String) : PayloadError := .orchestration .callback message

/-- `_freeze_value` of a scalar. -/
def freezeScalar : Scalar → Except PayloadError Scalar
  | .str s =>
    if HasUrl s then .error (.callback "event payload must not contain connection URLs")
    else .ok (.str s)
  | .float bits =>
    if isFinite bits then .ok (.float bits)
    else .error (.callback "event payload contains a non-finite number")
  | s => .ok s

/-- The checks of a key in `from_mapping`. -/
def checkKey : Key → Except PayloadError PyStr
  | .other _ => .error (.callback "event payload keys must be strings")
  | .str s =>
    if casefold s ∈ sensitiveEventKeys then
      .error (.callback "event payload contains a prohibited sensitive field")
    else .ok s

/-- One turn of the loop of `from_mapping`. -/
def freezeEntry (freeze : Obj → Except PayloadError FrozenValue) (entry : Key × Obj) :
    Except PayloadError (PyStr × FrozenValue) := do
  let key ← checkKey entry.1
  let value ← freeze entry.2
  return (key, value)

/-- `_freeze_value`. -/
def freezeValue (heap : Heap) : Nat → Obj → Except PayloadError FrozenValue
  | _, .scalar s => (freezeScalar s).map .scalar
  | _, .unsupported typeName =>
    .error (.callback ("event payload contains unsupported type " ++ typeName))
  | 0, .ref _ => .error .recursion
  | limit + 1, .ref address =>
    match heap[address]? with
    | some (.seq _ items) => (items.mapM (freezeValue heap limit)).map .tuple
    | some (.mapping dict) =>
      (dict.entries.mapM (freezeEntry (freezeValue heap limit))).map .payload
    -- no object refers to a cell that is not there
    | none => .error .recursion

/-- `FrozenPayload.from_mapping`: the entries of the payload. -/
def fromMapping (heap : Heap) (limit : Nat) (dict : PyDict) :
    Except PayloadError (List (PyStr × FrozenValue)) :=
  dict.entries.mapM (freezeEntry (freezeValue heap limit))

mutual
/-- `_thaw_value`. The cells of the items come before the cell of their container. -/
def thawValue : FrozenValue → Heap → Heap × Obj
  | .scalar s, heap => (heap, .scalar s)
  | .tuple items, heap =>
    let (heap, items) := thawItems items heap
    (heap ++ [.seq .list items], .ref heap.length)
  | .payload entries, heap =>
    let (heap, entries) := thawEntries entries heap
    (heap ++ [.mapping (PyDict.ofEntries entries)], .ref heap.length)

/-- The items of the list comprehension. -/
def thawItems : List FrozenValue → Heap → Heap × List Obj
  | [], heap => (heap, [])
  | item :: rest, heap =>
    let (heap, item) := thawValue item heap
    let (heap, rest) := thawItems rest heap
    (heap, item :: rest)

/-- The entries of the dict comprehension of `to_dict`. -/
def thawEntries : List (PyStr × FrozenValue) → Heap → Heap × List (Key × Obj)
  | [], heap => (heap, [])
  | (key, value) :: rest, heap =>
    let (heap, value) := thawValue value heap
    let (heap, rest) := thawEntries rest heap
    (heap, (.str key, value) :: rest)
end

/-- `to_dict`. -/
def toDict (entries : List (PyStr × FrozenValue)) (heap : Heap) : Heap × Obj :=
  thawValue (.payload entries) heap

end Rsap.Orchestration
