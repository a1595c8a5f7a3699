import Rsap.Webapp.Users

/-!
# `Rsap.Webapp.Licenses`: the administration of licences

The routes of `app/routers/licenses.py` that write. `generate_license_key` signs the user and
the end of the licence. Its result is an argument, and the table holds no key twice.

`AdminRequest` is a request of an administrator, to a route of this module or of
`Rsap.Webapp.Users`, and `AdminRequest.serve` is its transaction. The routes that touch sessions
then drain the outbox once (`AdminRequest.drains`).
-/

set_option autoImplicit false

namespace Rsap.Webapp

open Rsap.Desktop (Uuid Timestamp)
open Rsap.Library

/-- `LicenseCreate`. -/
structure LicenseCreate where
  userId : Uuid
  validFrom : Timestamp
  validUntil : Timestamp
  maxCameras : Nat
  features : Dict
  analyticsModules : List String
  period : validFrom < validUntil
  cameras : 1 ≤ maxCameras ∧ maxCameras ≤ 64

/-- `LicenseUpdate`. A field that is not set is `none`, and no field is null. -/
structure LicenseUpdate where
  validFrom : Option Timestamp
  validUntil : Option Timestamp
  maxCameras : Option Nat
  features : Option Dict
  analyticsModules : Option (List String)
  isActive : Option Bool
  cameras : ∀ n ∈ maxCameras, 1 ≤ n ∧ n ≤ 64

namespace LicenseUpdate

/-- `values`: the body sets no field. -/
def isEmpty (payload : LicenseUpdate) : Bool :=
  payload.validFrom.isNone && payload.validUntil.isNone && payload.maxCameras.isNone &&
    payload.features.isNone && payload.analyticsModules.isNone && payload.isActive.isNone

/-- The assignments of an update. -/
def assign (payload : LicenseUpdate) (now : Timestamp) (license : License) : License :=
  { license with
    validFrom := payload.validFrom.getD license.validFrom
    validUntil := payload.validUntil.getD license.validUntil
    maxCameras := payload.maxCameras.getD license.maxCameras
    features := payload.features.getD license.features
    analyticsModules := payload.analyticsModules.getD license.analyticsModules
    isActive := payload.isActive.getD license.isActive
    updatedAt := now }

end LicenseUpdate

/-- The licence with its user: `rbac.licenses l JOIN auth.users u ON u.id=l.user_id`. -/
def Database.licensee (db : Database) (licenseId : Uuid) : Except Failure (License × User) :=
  match db.licenses.find licenseId with
  | none => .error (.http 404 "License not found")
  | some license =>
    match db.users.find license.userId with
    | none => .error (.http 404 "License not found")
    | some user => .ok (license, user)

/-- `POST /licenses/`. -/
def createLicense (now : Timestamp) (admin : CurrentUser) (db : Database) (payload : LicenseCreate)
    (id : Uuid) (licenseKey : String) : Except Failure Database := do
  let target ← db.target payload.userId
  assertCanManageTarget admin.role target.role
  if ∃ license ∈ db.licenses.rows, license.licenseKey = licenseKey then throw .raised
  match db.licenses.insert
      { id, userId := payload.userId, licenseKey, features := payload.features,
        maxCameras := payload.maxCameras, analyticsModules := payload.analyticsModules,
        validFrom := payload.validFrom, validUntil := payload.validUntil, isActive := true,
        createdBy := some admin.id, createdAt := now, updatedAt := now } with
  | none => throw .raised
  | some licenses =>
    return { db with licenses }.enqueueSessionAction payload.userId .reconcile none now

/-- `PATCH /licenses/{license_id}`. -/
def updateLicense (now : Timestamp) (admin : CurrentUser) (db : Database) (licenseId : Uuid)
    (payload : LicenseUpdate) : Except Failure Database := do
  if payload.isEmpty then throw (.http 400 "At least one field is required")
  let (current, user) ← db.licensee licenseId
  assertCanManageTarget admin.role user.role
  let updated := payload.assign now current
  if updated.validUntil ≤ updated.validFrom then
    throw (.http 422 "valid_until must be after valid_from")
  if ¬ (updated.isActive = true ∧ updated.inWindow now) then
    protectLastSuperAdmin now db current.userId user.role (some licenseId)
  let licenses := db.licenses.update (fun license => license.id = licenseId) (payload.assign now)
    fun _ => rfl
  return { db with licenses }.enqueueSessionAction current.userId .reconcile none now

/-- `DELETE /licenses/{license_id}/expire`. -/
def expireLicense (now : Timestamp) (admin : CurrentUser) (db : Database) (licenseId : Uuid) :
    Except Failure Database := do
  let (current, user) ← db.licensee licenseId
  assertCanManageTarget admin.role user.role
  protectLastSuperAdmin now db user.id user.role (some licenseId)
  let licenses := db.licenses.update (fun license => license.id = licenseId)
    (fun license => { license with validUntil := now, isActive := false, updatedAt := now })
    fun _ => rfl
  return ({ db with licenses }.revokeSessions current.userId now).enqueueSessionAction
    current.userId .revoke none now

/-! ### Requests -/

/-- A request of an administrator. -/
inductive AdminRequest where
  | createUser (payload : UserCreate) (id : Uuid) (passwordHash : String)
  | updateUser (userId : Uuid) (payload : UserUpdate)
  | deleteUser (userId : Uuid)
  | toggleActive (userId : Uuid)
  | grantPermission (userId : Uuid) (payload : PermissionCreate) (id : Uuid)
  | revokePermission (userId permissionId : Uuid)
  | createLicense (payload : LicenseCreate) (id : Uuid) (licenseKey : String)
  | updateLicense (licenseId : Uuid) (payload : LicenseUpdate)
  | expireLicense (licenseId : Uuid)

namespace AdminRequest

/-- The transaction of the request. -/
def serve (now : Timestamp) (admin : CurrentUser) (db : Database) (request : AdminRequest) :
    Except Failure Database := do
  requireAdmin admin
  match request with
  | .createUser payload id passwordHash =>
    Webapp.createUser now admin db payload id passwordHash
  | .updateUser userId payload => Webapp.updateUser now admin db userId payload
  | .deleteUser userId => Webapp.deleteUser now admin db userId
  | .toggleActive userId => Webapp.toggleActive now admin db userId
  | .grantPermission userId payload id => Webapp.grantPermission now admin db userId payload id
  | .revokePermission userId permissionId =>
    Webapp.revokePermission admin db userId permissionId
  | .createLicense payload id licenseKey =>
    Webapp.createLicense now admin db payload id licenseKey
  | .updateLicense licenseId payload => Webapp.updateLicense now admin db licenseId payload
  | .expireLicense licenseId => Webapp.expireLicense now admin db licenseId

/-- The route drains the outbox after its transaction. `toggle_active` does when it disabled the
user of the database `db` before it. -/
def drains (db : Database) : AdminRequest → Bool
  | .deleteUser _ => true
  | .toggleActive userId => (db.users.find userId).any fun user => user.isActive
  | .createLicense .. => true
  | .updateLicense .. => true
  | .expireLicense _ => true
  | _ => false

end AdminRequest

end Rsap.Webapp
