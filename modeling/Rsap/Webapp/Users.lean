import Rsap.Webapp.Database

/-!
# `Rsap.Webapp.Users`: the administration of users and permissions

The routes of `app/routers/users.py` that write, and `protect_last_super_admin`
(`app/services/rbac_service.py`). A route is its transaction: the database after it, or the
exception that rolls it back. The text of an e-mail address is lower case already, since
`EmailString` lowers it, so SQL `lower` does nothing more. `gen_random_uuid()` and the hash of a
password are arguments.
-/

set_option autoImplicit false

namespace Rsap.Webapp

open Rsap.Desktop (Uuid Timestamp)
open Rsap.Library

/-! ### Request bodies -/

/-- `UserCreate`. Its role is one that `Role` of the schema admits. -/
structure UserCreate where
  email : String
  role : Role
  phone : Option String
  whatsappNumber : Option String
  plain : role = .staff ∨ role = .vaUser

/-- `UserUpdate`. A field that is not set is `none`. No update makes a super administrator. -/
structure UserUpdate where
  email : Option String
  phone : Option (Option String)
  whatsappNumber : Option (Option String)
  role : Option Role
  manageable : role ≠ some .superAdmin

/-- `PermissionCreate`. -/
structure PermissionCreate where
  resource : String
  actions : List String
  constraints : Dict
  named : 1 ≤ resource.length ∧ resource.length ≤ 100
  acts : actions ≠ []

/-- `values`: the body sets no field. -/
def UserUpdate.isEmpty (payload : UserUpdate) : Bool :=
  payload.email.isNone && payload.phone.isNone && payload.whatsappNumber.isNone &&
    payload.role.isNone

/-- The assignments of an update. -/
def UserUpdate.assign (payload : UserUpdate) (now : Timestamp) (user : User) : User :=
  { user with
    email := payload.email.getD user.email
    phone := payload.phone.getD user.phone
    whatsappNumber := payload.whatsappNumber.getD user.whatsappNumber
    role := payload.role.getD user.role
    updatedAt := now }

/-! ### The last super administrator -/

namespace Database

/-- An operational super administrator: active, not deleted, with a current licence. -/
def Operational (db : Database) (now : Timestamp) (user : User) : Prop :=
  user.role = .superAdmin ∧ user.isActive = true ∧ user.isDeleted = false ∧
    ∃ license ∈ db.licenses.rows, license.current user.id now

instance (db : Database) (now : Timestamp) (user : User) : Decidable (db.Operational now user) :=
  inferInstanceAs (Decidable (_ ∧ _ ∧ _ ∧ _))

end Database

/-- `protect_last_super_admin`. -/
def protectLastSuperAdmin (now : Timestamp) (db : Database) (targetId : Uuid) (targetRole : Role)
    (excludedLicenseId : Option Uuid) : Except Failure Unit :=
  if targetRole ≠ .superAdmin then .ok ()
  else if ¬ ∃ user ∈ db.users.rows, user.id = targetId ∧ db.Operational now user then .ok ()
  else if ∃ excluded ∈ excludedLicenseId, ∃ license ∈ db.licenses.rows,
      license.current targetId now ∧ license.id ≠ excluded then .ok ()
  else if db.users.rows.countP (fun user => db.Operational now user ∧ user.id ≠ targetId) = 0 then
    .error (.http 409 "The final active super-admin cannot be removed")
  else .ok ()

/-! ### Routes -/

/-- `require_roles("admin", "super_admin")`. -/
def requireAdmin (actor : CurrentUser) : Except Failure Unit :=
  if actor.role = .admin ∨ actor.role = .superAdmin then .ok ()
  else .error (.http 403 "Insufficient permissions")

/-- `POST /users/`. -/
def createUser (now : Timestamp) (admin : CurrentUser) (db : Database) (payload : UserCreate)
    (id : Uuid) (passwordHash : String) : Except Failure Database :=
  -- both the address and the id are unique
  if ∃ user ∈ db.users.rows, user.email = payload.email then
    .error (.http 409 "A user with that email already exists")
  else
    match db.users.insert
        { id, email := payload.email, phone := payload.phone, passwordHash, role := payload.role,
          isActive := true, isDeleted := false, whatsappNumber := payload.whatsappNumber,
          createdBy := some admin.id, createdAt := now, updatedAt := now } with
    | none => .error (.http 409 "A user with that email already exists")
    | some users => .ok { db with users }

/-- `PATCH /users/{user_id}`. -/
def updateUser (now : Timestamp) (admin : CurrentUser) (db : Database) (userId : Uuid)
    (payload : UserUpdate) : Except Failure Database := do
  if payload.isEmpty then throw (.http 400 "At least one field is required")
  let target ← db.target userId
  assertCanManageTarget admin.role target.role
  if payload.role = some .admin ∧ admin.role ≠ .superAdmin then
    throw (.http 403 "Only a super administrator can assign the admin role")
  -- `ManageableRole` has no super administrator, so setting a role takes that one away
  if payload.role.isSome ∧ target.role = .superAdmin then
    protectLastSuperAdmin now db userId target.role none
  if ∃ user ∈ db.users.rows, some user.email = payload.email ∧ user.id ≠ userId then
    throw (.http 409 "A user with that email already exists")
  return db.updateUser userId (payload.assign now) fun _ => rfl

/-- `DELETE /users/{user_id}`. -/
def deleteUser (now : Timestamp) (admin : CurrentUser) (db : Database) (userId : Uuid) :
    Except Failure Database := do
  if userId = admin.id then throw (.http 400 "You cannot delete your own account")
  let target ← db.target userId
  assertCanManageTarget admin.role target.role
  protectLastSuperAdmin now db userId target.role none
  let db := db.updateUser userId
    (fun user => { user with isDeleted := true, isActive := false, updatedAt := now }) fun _ => rfl
  return (db.revokeSessions userId now).enqueueSessionAction userId .revoke none now

/-- `PATCH /users/{user_id}/toggle-active`. -/
def toggleActive (now : Timestamp) (admin : CurrentUser) (db : Database) (userId : Uuid) :
    Except Failure Database := do
  if userId = admin.id then throw (.http 400 "You cannot disable your own account")
  let target ← db.target userId
  assertCanManageTarget admin.role target.role
  if target.isActive then protectLastSuperAdmin now db userId target.role none
  let db := db.updateUser userId
    (fun user => { user with isActive := !user.isActive, updatedAt := now }) fun _ => rfl
  if target.isActive then
    return (db.revokeSessions userId now).enqueueSessionAction userId .revoke none now
  else return db

/-- `POST /users/{user_id}/permissions`. -/
def grantPermission (now : Timestamp) (admin : CurrentUser) (db : Database) (userId : Uuid)
    (payload : PermissionCreate) (id : Uuid) : Except Failure Database := do
  if payload.actions.any fun action => action.toList.all Char.isWhitespace then
    throw (.http 422 "Permission actions cannot be empty")
  let target ← db.target userId
  assertCanManageTarget admin.role target.role
  match db.permissions.insert
      ⟨id, userId, ⟨payload.resource, payload.actions, some payload.constraints⟩, some admin.id,
        now⟩ with
  | none => throw .raised
  | some permissions => return { db with permissions }

/-- `DELETE /users/{user_id}/permissions/{permission_id}`. -/
def revokePermission (admin : CurrentUser) (db : Database) (userId permissionId : Uuid) :
    Except Failure Database := do
  let target ← db.target userId
  assertCanManageTarget admin.role target.role
  if ∃ row ∈ db.permissions.rows, row.id = permissionId ∧ row.userId = userId then
    return { db with
      permissions := db.permissions.delete fun row => row.id = permissionId ∧ row.userId = userId }
  else throw (.http 404 "Permission not found")

end Rsap.Webapp
