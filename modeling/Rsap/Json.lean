import Mathlib.Data.Rat.Defs

/-!
# `Rsap.Json`: the values that `json.loads` builds

Integers and floats are two constructors because the code tells them apart with `type` and
`isinstance`. An object is the list of its fields. The code dumps objects with sorted keys, so
a stored object has one spelling. `Json.get` is `dict.get`.

`Json.decEq` decides equality. The type is nested, so no deriving handler applies.
-/

set_option autoImplicit false

namespace Rsap

/-- A JSON value. -/
inductive Json where
  | null
  | bool (b : Bool)
  | int (n : Int)
  | float (x : Rat)
  | str (s : String)
  | arr (items : List Json)
  | obj (fields : List (String × Json))

/-- A JSON object, as the code passes a `dict` around. -/
abbrev Dict := List (String × Json)

/-- `dict.get(key)`. -/
def Dict.get (d : Dict) (key : String) : Option Json :=
  match d.find? fun field => field.1 == key with
  | some field => some field.2
  | none => none

namespace Json

mutual
/-- Structural equality of values. -/
def beq : Json → Json → Bool
  | .null, .null => true
  | .bool a, .bool b => a == b
  | .int a, .int b => a == b
  | .float a, .float b => a == b
  | .str a, .str b => a == b
  | .arr a, .arr b => beqItems a b
  | .obj a, .obj b => beqFields a b
  | _, _ => false

/-- Structural equality of array items. -/
def beqItems : List Json → List Json → Bool
  | [], [] => true
  | a :: as, b :: bs => beq a b && beqItems as bs
  | _, _ => false

/-- Structural equality of object fields. -/
def beqFields : List (String × Json) → List (String × Json) → Bool
  | [], [] => true
  | (k, a) :: as, (l, b) :: bs => k == l && (beq a b && beqFields as bs)
  | _, _ => false
end

mutual
/-- The comparison the decision procedure runs is equality; the three lemmas are one induction
over values, items and fields. -/
theorem beq_iff : ∀ a b : Json, beq a b = true ↔ a = b
  | .null, b => by cases b <;> simp [beq]
  | .bool _, b => by cases b <;> simp [beq]
  | .int _, b => by cases b <;> simp [beq]
  | .float _, b => by cases b <;> simp [beq]
  | .str _, b => by cases b <;> simp [beq]
  | .arr as, b => by
      cases b with
      | arr bs => simp [beq, beqItems_iff as bs]
      | _ => simp [beq]
  | .obj as, b => by
      cases b with
      | obj bs => simp [beq, beqFields_iff as bs]
      | _ => simp [beq]

/-- The items of an array are compared in their order. -/
theorem beqItems_iff : ∀ as bs : List Json, beqItems as bs = true ↔ as = bs
  | [], bs => by cases bs <;> simp [beqItems]
  | a :: as, bs => by
      cases bs with
      | nil => simp [beqItems]
      | cons b bs => simp [beqItems, beq_iff a b, beqItems_iff as bs]

/-- The fields of an object are compared in their order, names included. -/
theorem beqFields_iff : ∀ as bs : List (String × Json), beqFields as bs = true ↔ as = bs
  | [], bs => by cases bs <;> simp [beqFields]
  | (k, a) :: as, bs => by
      cases bs with
      | nil => simp [beqFields]
      | cons b bs => simp [beqFields, beq_iff a b.2, beqFields_iff as bs, Prod.ext_iff, and_assoc]
end

instance decEq : DecidableEq Json := fun a b => decidable_of_iff _ (beq_iff a b)

end Json

end Rsap
