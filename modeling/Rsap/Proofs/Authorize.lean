import Rsap.Webapp.Rbac
import Mathlib.Data.List.Basic

/-!
# `Rsap.Proofs.Authorize`: which permission row decides a request

A staff or a video-analytics user needs a permission row. `matching_permission` returns the
first row that names the resource and the action, and `authorize` checks the constraints of
that row only. `allows_iff` says so.

The union of the grants is `Granted`: some matching row has its own constraints satisfied.
`authorize_union` compares the two. They agree exactly when no row grants the request, or the
first matching row grants it. Otherwise a constrained row shadows a later row that would grant
the request (`constrained_row_shadows`).

The order of the rows matters only through the first matching one. So a row that is appended,
as `ORDER BY created_at` appends a new grant, never takes access away
(`allows_append`).
-/

set_option autoImplicit false

namespace Rsap.Proofs

open Rsap.Desktop (Uuid)
open Rsap.Webapp

/-- `authorize` lets the request pass. -/
def Allows (user : CurrentUser) (resource action : String) (ownerId resourceId : Option Uuid) :
    Prop :=
  (authorize user resource action ownerId resourceId).isOk = true

instance (user : CurrentUser) (resource action : String) (ownerId resourceId : Option Uuid) :
    Decidable (Allows user resource action ownerId resourceId) :=
  inferInstanceAs (Decidable (_ = _))

/-- The row matches the request and its own constraints are satisfied. -/
structure Grants (user : CurrentUser) (resource action : String) (ownerId resourceId : Option Uuid)
    (permission : Permission) : Prop where
  names : permission.Matches resource action
  satisfied : permission.check user.id ownerId resourceId = .ok ()

/-- The union of the grants allows the request. -/
def Granted (user : CurrentUser) (resource action : String) (ownerId resourceId : Option Uuid) :
    Prop :=
  ∃ permission ∈ user.permissions, Grants user resource action ownerId resourceId permission

/-- The first row of the list that matches the request grants it. -/
def FirstGrants (user : CurrentUser) (resource action : String) (ownerId resourceId : Option Uuid) :
    Prop :=
  ∃ earlier permission later, user.permissions = earlier ++ permission :: later ∧
    (∀ row ∈ earlier, ¬ row.Matches resource action) ∧
    Grants user resource action ownerId resourceId permission

section
variable {user : CurrentUser} {resource action : String} {ownerId resourceId : Option Uuid}

/-- The row that `matching_permission` returns is the first that matches. -/
theorem matchingPermission_some {permission : Permission} :
    matchingPermission user resource action = some permission ↔
      permission.Matches resource action ∧
        ∃ earlier later, user.permissions = earlier ++ permission :: later ∧
          ∀ row ∈ earlier, ¬ row.Matches resource action := by
  rw [matchingPermission, List.find?_eq_some_iff_append]
  simp only [decide_eq_true_eq, Bool.not_eq_eq_eq_not, Bool.not_true, decide_eq_false_iff_not]

/-- The first matching row grants the request exactly when the row that `matching_permission`
returns passes its check. -/
theorem firstGrants_iff :
    FirstGrants user resource action ownerId resourceId ↔
      ∃ permission, matchingPermission user resource action = some permission ∧
        permission.check user.id ownerId resourceId = .ok () := by
  constructor
  · rintro ⟨earlier, permission, later, hsplit, hearlier, hgrants⟩
    exact ⟨permission, matchingPermission_some.mpr
      ⟨hgrants.names, earlier, later, hsplit, hearlier⟩, hgrants.satisfied⟩
  · rintro ⟨permission, hfirst, hcheck⟩
    obtain ⟨hnames, earlier, later, hsplit, hearlier⟩ := matchingPermission_some.mp hfirst
    exact ⟨earlier, permission, later, hsplit, hearlier, hnames, hcheck⟩

/-- The first row is a row. -/
theorem FirstGrants.granted (h : FirstGrants user resource action ownerId resourceId) :
    Granted user resource action ownerId resourceId := by
  obtain ⟨earlier, permission, later, hsplit, -, hgrants⟩ := h
  refine ⟨permission, ?_, hgrants⟩
  rw [hsplit]
  exact List.mem_append_right _ List.mem_cons_self

/-- A staff or a video-analytics user is allowed exactly what his role may use and his first
matching row grants. -/
theorem allows_iff (hrole : user.role = .staff ∨ user.role = .vaUser) :
    Allows user resource action ownerId resourceId ↔
      MayUse user.role resource ∧ FirstGrants user resource action ownerId resourceId := by
  -- neither role takes the branch of the administrators
  have hplain : ¬ (user.role = .superAdmin ∨ user.role = .admin) := by
    rcases hrole with h | h <;> simp [h]
  rw [Allows, authorize, firstGrants_iff]
  by_cases huse : MayUse user.role resource
  · simp only [huse, not_true_eq_false, if_false, hplain, true_and]
    cases hfirst : matchingPermission user resource action with
    | none =>
      show false = true ↔ _
      simp
    | some permission =>
      simp only [Option.some.injEq, exists_eq_left']
      cases permission.check user.id ownerId resourceId with
      | ok => simp [Except.map, Except.isOk, Except.toBool]
      | error => simp [Except.map, Except.isOk, Except.toBool]
  · simp [huse, Except.isOk, Except.toBool]

/-- The decision is the union of the grants exactly when the union grants nothing or the first
matching row grants the request as well. -/
theorem authorize_union (user : CurrentUser) (hrole : user.role = .staff ∨ user.role = .vaUser)
    (resource action : String) (ownerId resourceId : Option Uuid) :
    (Allows user resource action ownerId resourceId ↔
        MayUse user.role resource ∧ Granted user resource action ownerId resourceId) ↔
      (MayUse user.role resource → Granted user resource action ownerId resourceId →
        FirstGrants user resource action ownerId resourceId) := by
  rw [allows_iff hrole]
  constructor
  · intro hunion huse hgranted
    exact (hunion.mpr ⟨huse, hgranted⟩).2
  · intro hfirst
    constructor
    · rintro ⟨huse, hgrants⟩
      exact ⟨huse, hgrants.granted⟩
    · rintro ⟨huse, hgranted⟩
      exact ⟨huse, hfirst huse hgranted⟩

/-- A new grant, which the list shows last, never takes access away. -/
theorem allows_append (hrole : user.role = .staff ∨ user.role = .vaUser) (row : Permission)
    (h : Allows user resource action ownerId resourceId) :
    Allows { user with permissions := user.permissions ++ [row] } resource action ownerId
      resourceId := by
  obtain ⟨huse, earlier, permission, later, hsplit, hearlier, hgrants⟩ := (allows_iff hrole).mp h
  -- the appended row changes neither the role nor the first matching row
  have hrole' : ({ user with permissions := user.permissions ++ [row] } : CurrentUser).role =
        .staff ∨
      ({ user with permissions := user.permissions ++ [row] } : CurrentUser).role = .vaUser := hrole
  refine (allows_iff hrole').mpr ⟨huse, earlier, permission, later ++ [row], ?_, hearlier, ?_⟩
  · show user.permissions ++ [row] = _
    rw [hsplit, List.append_assoc, List.cons_append]
  · exact ⟨hgrants.names, hgrants.satisfied⟩

end

/-! ### A constrained grant before an unconstrained one -/

/-- A staff user who may read his own persons, and was later granted to read all of them. -/
def shadowedReader : CurrentUser where
  id := 1
  role := .staff
  permissions :=
    [⟨"persons", ["read"], some [("owner_only", .bool true)]⟩, ⟨"persons", ["read"], some []⟩]

/-- With the two rows in the other order the two decisions agree. -/
theorem authorize_union_reversed :
    Allows { shadowedReader with permissions := shadowedReader.permissions.reverse } "persons"
        "read" (some 2) none ↔
      MayUse .staff "persons" ∧
        Granted { shadowedReader with permissions := shadowedReader.permissions.reverse } "persons"
          "read" (some 2) none :=
  (authorize_union { shadowedReader with permissions := shadowedReader.permissions.reverse }
    (.inl rfl) "persons" "read" (some 2) none).mpr fun _ _ =>
      ⟨[], ⟨"persons", ["read"], some []⟩,
        [⟨"persons", ["read"], some [("owner_only", .bool true)]⟩], rfl,
        fun _ hrow => absurd hrow List.not_mem_nil, ⟨by decide, by decide⟩⟩

/-- The second row grants the request on its own, and `authorize` denies it. In the other
order, or without the first row, `authorize` allows it. -/
theorem constrained_row_shadows :
    ¬ (Allows shadowedReader "persons" "read" (some 2) none ↔
        MayUse shadowedReader.role "persons" ∧
          Granted shadowedReader "persons" "read" (some 2) none) ∧
      Allows { shadowedReader with permissions := shadowedReader.permissions.reverse }
        "persons" "read" (some 2) none := by
  refine ⟨?_, by decide⟩
  intro hunion
  have hdenied : ¬ Allows shadowedReader "persons" "read" (some 2) none := by decide
  exact hdenied (hunion.mpr ⟨by decide, ⟨"persons", ["read"], some []⟩, by decide, by decide,
    by decide⟩)

end Rsap.Proofs
