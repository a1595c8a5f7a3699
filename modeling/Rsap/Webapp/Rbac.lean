import Rsap.Desktop.Schemas

/-!
# `Rsap.Webapp.Rbac`: roles, permission rows and the access decision

`matching_permission`, `authorize` and `assert_can_manage_target`
(`app/services/rbac_service.py`). A `CurrentUser` is the actor of a request with the permission
rows that `validate_session_state` read for him, oldest first.

The constraints of a row are any JSON object that a super administrator or an administrator
granted, so their values are read the way Python reads them: `owner_only` by its truth value,
`allowed_resource_ids` by iteration. A value that cannot be iterated raises a `TypeError`.
-/

set_option autoImplicit false

namespace Rsap.Webapp

open Rsap.Desktop (Uuid)

/-- The roles that `auth.users` admits. -/
inductive Role where
  | superAdmin
  | admin
  | staff
  | vaUser
  deriving DecidableEq, Repr

/-- `ROLE_RESOURCES`. -/
def roleResources : Role → List String
  | .superAdmin => ["*"]
  | .admin => ["users", "licenses", "persons", "cameras", "analytics"]
  | .staff => ["persons"]
  | .vaUser => ["cameras", "analytics", "sync"]

/-- How a request fails: with an `HTTPException`, or with another exception. -/
inductive Failure where
  | http (statusCode : Nat) (detail : String)
  | raised
  deriving DecidableEq, Repr

/-- A row of `rbac.permissions`, as the access decision reads it. -/
structure Permission where
  resource : String
  actions : List String
  constraints : Option Dict
  deriving DecidableEq

/-- The authenticated actor of a request. -/
structure CurrentUser where
  id : Uuid
  role : Role
  permissions : List Permission
  deriving DecidableEq

/-- The truth value of a JSON value in Python. -/
def truthy : Json → Bool
  | .null => false
  | .bool b => b
  | .int n => n != 0
  | .float x => x != 0
  | .str s => s != ""
  | .arr items => !items.isEmpty
  | .obj fields => !fields.isEmpty

/-- The values that a loop over a JSON value visits. Nothing for a value that cannot be
iterated. -/
def iterate : Json → Option (List Json)
  | .str s => some (s.toList.map fun c => .str (String.singleton c))
  | .arr items => some items
  | .obj fields => some (fields.map fun field => .str field.1)
  | _ => none

namespace Permission

/-- The row names the resource and the action, or stands for all of them. -/
def Matches (permission : Permission) (resource action : String) : Prop :=
  permission.resource ∈ [resource, "*"] ∧
    (action ∈ permission.actions ∨ "*" ∈ permission.actions)

instance (permission : Permission) (resource action : String) :
    Decidable (permission.Matches resource action) :=
  inferInstanceAs (Decidable (_ ∧ _))

/-- `permission.get("constraints") or {}`. -/
def constraintFields (permission : Permission) : Dict := permission.constraints.getD []

/-- The `allowed_resource_ids` check. The text of a UUID is the text of no JSON value but
itself, so membership among the texts of the values is membership among the strings. -/
def checkResource (resourceId : Option Uuid) (allowedIds : Json) : Except Failure Unit :=
  match resourceId with
  | none => .error (.http 403 "Resource constraint denied access")
  | some resourceId =>
    match iterate allowedIds with
    | none => .error .raised
    | some values =>
      if .str resourceId.text ∈ values then .ok ()
      else .error (.http 403 "Resource constraint denied access")

/-- The constraints of the row, checked for one request of the user. -/
def check (permission : Permission) (userId : Uuid) (ownerId resourceId : Option Uuid) :
    Except Failure Unit :=
  if (Dict.get permission.constraintFields "owner_only").any truthy ∧ ownerId ≠ some userId then
    .error (.http 403 "Ownership constraint denied access")
  else
    match Dict.get permission.constraintFields "allowed_resource_ids" with
    | none => .ok ()
    | some .null => .ok ()
    | some allowedIds => checkResource resourceId allowedIds

end Permission

/-- `matching_permission`: the first row that matches. -/
def matchingPermission (user : CurrentUser) (resource action : String) : Option Permission :=
  user.permissions.find? fun permission => permission.Matches resource action

/-- The role may use the resource. -/
def MayUse (role : Role) (resource : String) : Prop :=
  "*" ∈ roleResources role ∨ resource ∈ roleResources role

instance (role : Role) (resource : String) : Decidable (MayUse role resource) :=
  inferInstanceAs (Decidable (_ ∨ _))

/-- `authorize`: the row that allowed the request, or nothing for the two administrator
roles. -/
def authorize (user : CurrentUser) (resource action : String) (ownerId resourceId : Option Uuid) :
    Except Failure (Option Permission) :=
  if ¬ MayUse user.role resource then
    .error (.http 403 "Role cannot access this resource")
  else if user.role = .superAdmin ∨ user.role = .admin then .ok none
  else
    match matchingPermission user resource action with
    | none => .error (.http 403 "Explicit permission is required")
    | some permission =>
      (permission.check user.id ownerId resourceId).map fun _ => some permission

/-- `assert_can_manage_target`. -/
def assertCanManageTarget (actor : Role) (target : Role) : Except Failure Unit :=
  if actor = .superAdmin then .ok ()
  else if actor ≠ .admin ∨ ¬ (target = .staff ∨ target = .vaUser) then
    .error (.http 403 "Cannot manage a higher-privileged account")
  else .ok ()

end Rsap.Webapp
