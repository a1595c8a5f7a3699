import Rsap.Webapp.Outbox

/-!
# `Rsap.Proofs.Administration`: what the requests of administrators do

`serve_cases` lists the ways in which the transaction of a request commits, each with the checks
that it passed. Every proof about users, permissions and licences starts from it. `Target` is
what a passed check of the target says: the row exists, is not deleted, and the actor may
manage its role.
-/

set_option autoImplicit false

namespace Rsap.Proofs

open Rsap.Desktop (Uuid Timestamp)
open Rsap.Library
open Rsap.Webapp

/-- A computation that succeeds, in its two parts. -/
theorem bind_ok {ε α β : Type} {x : Except ε α} {f : α → Except ε β} {b : β}
    (h : (x >>= f) = .ok b) : ∃ a, x = .ok a ∧ f a = .ok b := by
  cases x with
  | error e => cases h
  | ok a => exact ⟨a, rfl, h⟩

/-- A check that passed. -/
theorem guard_ok {ε α : Type} {p : Prop} [Decidable p] {e : ε} {f : PUnit → Except ε α}
    {rest : Except ε α} {a : α} (h : (if p then throw e >>= f else rest) = .ok a) :
    ¬ p ∧ rest = .ok a := by
  by_cases hp : p
  · rw [if_pos hp] at h
    cases h
  · rw [if_neg hp] at h
    exact ⟨hp, h⟩

/-- A check that runs in one case only. -/
theorem check_ok {ε α : Type} {p : Prop} [Decidable p] {x : Except ε PUnit}
    {f : PUnit → Except ε α} {rest : Except ε α} {a : α}
    (h : (if p then x >>= f else rest) = .ok a) (hf : f ⟨⟩ = rest) :
    (p → x = .ok ⟨⟩) ∧ rest = .ok a := by
  by_cases hp : p
  · rw [if_pos hp] at h
    obtain ⟨⟨⟩, hx, hrest⟩ := bind_ok h
    exact ⟨fun _ => hx, hf ▸ hrest⟩
  · rw [if_neg hp] at h
    exact ⟨fun h => absurd h hp, h⟩

/-- The actor's role may manage the target's role. -/
def Manages (actor target : Role) : Prop :=
  actor = .superAdmin ∨ actor = .admin ∧ (target = .staff ∨ target = .vaUser)

/-- The check passes only for roles that the actor manages. -/
theorem assertCanManageTarget_ok {actor target : Role}
    (h : assertCanManageTarget actor target = .ok ()) : Manages actor target := by
  unfold assertCanManageTarget at h
  split at h
  · exact .inl ‹_›
  · split at h
    · cases h
    · rename_i hactor
      rw [not_or, not_not, not_not] at hactor
      exact .inr hactor

/-- The user that a request is about: not deleted, and of a role that the actor manages. -/
structure Target (admin : CurrentUser) (db : Database) (userId : Uuid) (user : User) : Prop where
  mem : user ∈ db.users
  key : user.id = userId
  alive : user.isDeleted = false
  managed : Manages admin.role user.role

/-- The checks of the target that passed. -/
theorem target_ok {admin : CurrentUser} {db : Database} {userId : Uuid} {user : User}
    (h : db.target userId = .ok user)
    (hmanage : assertCanManageTarget admin.role user.role = .ok ()) :
    Target admin db userId user := by
  unfold Database.target at h
  split at h
  · rename_i found hfind
    obtain ⟨hmem, hkey⟩ := KeyedTable.find_eq_some.mp hfind
    split at h
    · cases h
    · rename_i halive
      cases h
      exact ⟨hmem, hkey, by simpa using halive, assertCanManageTarget_ok hmanage⟩
  · cases h

/-- The licence that a request is about, with its user. -/
structure Licensee (admin : CurrentUser) (db : Database) (licenseId : Uuid) (license : License)
    (user : User) : Prop where
  mem : license ∈ db.licenses
  key : license.id = licenseId
  user_mem : user ∈ db.users
  user_key : user.id = license.userId
  managed : Manages admin.role user.role

/-- The checks of the licence that passed. -/
theorem licensee_ok {admin : CurrentUser} {db : Database} {licenseId : Uuid} {license : License}
    {user : User} (h : db.licensee licenseId = .ok (license, user))
    (hmanage : assertCanManageTarget admin.role user.role = .ok ()) :
    Licensee admin db licenseId license user := by
  unfold Database.licensee at h
  split at h
  · cases h
  · rename_i found hfind
    obtain ⟨hmem, hkey⟩ := KeyedTable.find_eq_some.mp hfind
    split at h
    · cases h
    · rename_i owner howner
      obtain ⟨howner_mem, howner_key⟩ := KeyedTable.find_eq_some.mp howner
      cases h
      exact ⟨hmem, hkey, howner_mem, howner_key, assertCanManageTarget_ok hmanage⟩

/-! ### The transactions that commit -/

/-- The transactions that commit, with the checks that each passed. -/
inductive ServeCases (now : Timestamp) (admin : CurrentUser) (db : Database) :
    AdminRequest → Database → Prop where
  | createUser {payload : UserCreate} {id : Uuid} {passwordHash : String} {user : User}
      {users : KeyedTable User.id} : user.role = payload.role → db.users.insert user = some users →
      ServeCases now admin db (.createUser payload id passwordHash) { db with users }
  | updateUser {userId : Uuid} {payload : UserUpdate} {user : User} :
      Target admin db userId user →
      (payload.role = some .admin → admin.role = .superAdmin) →
      (payload.role.isSome → user.role = .superAdmin →
        protectLastSuperAdmin now db userId user.role none = .ok ()) →
      ServeCases now admin db (.updateUser userId payload)
        (db.updateUser userId (payload.assign now) fun _ => rfl)
  | deleteUser {userId : Uuid} {user : User} : Target admin db userId user →
      protectLastSuperAdmin now db userId user.role none = .ok () →
      ServeCases now admin db (.deleteUser userId)
        (((db.updateUser userId
          (fun user => { user with isDeleted := true, isActive := false, updatedAt := now })
          fun _ => rfl).revokeSessions userId now).enqueueSessionAction userId .revoke none now)
  | disableUser {userId : Uuid} {user : User} : Target admin db userId user →
      user.isActive = true → protectLastSuperAdmin now db userId user.role none = .ok () →
      ServeCases now admin db (.toggleActive userId)
        (((db.updateUser userId
          (fun user => { user with isActive := !user.isActive, updatedAt := now })
          fun _ => rfl).revokeSessions userId now).enqueueSessionAction userId .revoke none now)
  | enableUser {userId : Uuid} {user : User} : Target admin db userId user →
      user.isActive = false →
      ServeCases now admin db (.toggleActive userId)
        (db.updateUser userId
          (fun user => { user with isActive := !user.isActive, updatedAt := now }) fun _ => rfl)
  | grantPermission {userId : Uuid} {payload : PermissionCreate} {id : Uuid} {user : User}
      {row : PermissionRow} {permissions : KeyedTable PermissionRow.id} :
      Target admin db userId user → row.userId = userId →
      db.permissions.insert row = some permissions →
      ServeCases now admin db (.grantPermission userId payload id) { db with permissions }
  | revokePermission {userId permissionId : Uuid} {user : User} : Target admin db userId user →
      ServeCases now admin db (.revokePermission userId permissionId)
        { db with
          permissions := db.permissions.delete
            fun row => row.id = permissionId ∧ row.userId = userId }
  | createLicense {payload : LicenseCreate} {id : Uuid} {licenseKey : String} {user : User}
      {license : License} {licenses : KeyedTable License.id} :
      Target admin db payload.userId user → license.userId = payload.userId →
      db.licenses.insert license = some licenses →
      ServeCases now admin db (.createLicense payload id licenseKey)
        ({ db with licenses }.enqueueSessionAction payload.userId .reconcile none now)
  | updateLicense {licenseId : Uuid} {payload : LicenseUpdate} {license : License} {user : User} :
      Licensee admin db licenseId license user →
      (¬ ((payload.assign now license).isActive = true ∧
          (payload.assign now license).inWindow now) →
        protectLastSuperAdmin now db license.userId user.role (some licenseId) = .ok ()) →
      ServeCases now admin db (.updateLicense licenseId payload)
        ({ db with
          licenses := db.licenses.update (fun license => license.id = licenseId)
            (payload.assign now) fun _ => rfl }.enqueueSessionAction license.userId .reconcile none
              now)
  | expireLicense {licenseId : Uuid} {license : License} {user : User} :
      Licensee admin db licenseId license user →
      protectLastSuperAdmin now db user.id user.role (some licenseId) = .ok () →
      ServeCases now admin db (.expireLicense licenseId)
        (({ db with
          licenses := db.licenses.update (fun license => license.id = licenseId)
            (fun license => { license with validUntil := now, isActive := false, updatedAt := now })
            fun _ => rfl }.revokeSessions license.userId now).enqueueSessionAction license.userId
              .revoke none now)

section
variable {now : Timestamp} {admin : CurrentUser} {db db' : Database}

/-- A user is created with these checks passed. -/
theorem createUser_ok {payload : UserCreate} {id : Uuid} {passwordHash : String}
    (h : createUser now admin db payload id passwordHash = .ok db') :
    ServeCases now admin db (.createUser payload id passwordHash) db' := by
  unfold createUser at h
  split at h
  · cases h
  · split at h
    · cases h
    · rename_i users hinsert
      cases h
      exact .createUser rfl hinsert

/-- A user is updated with these checks passed. -/
theorem updateUser_ok {userId : Uuid} {payload : UserUpdate}
    (h : updateUser now admin db userId payload = .ok db') :
    ServeCases now admin db (.updateUser userId payload) db' := by
  dsimp only [updateUser] at h
  obtain ⟨-, h⟩ := guard_ok h
  obtain ⟨user, htarget, h⟩ := bind_ok h
  obtain ⟨⟨⟩, hmanage, h⟩ := bind_ok h
  obtain ⟨hadmin, h⟩ := guard_ok h
  obtain ⟨hprotect, h⟩ := check_ok h rfl
  obtain ⟨-, h⟩ := guard_ok h
  cases h
  refine .updateUser (target_ok htarget hmanage) ?_ fun hset hrole => hprotect ⟨hset, hrole⟩
  intro hrole
  by_contra hsuper
  exact hadmin ⟨hrole, hsuper⟩

/-- A user is deleted with these checks passed. -/
theorem deleteUser_ok {userId : Uuid} (h : deleteUser now admin db userId = .ok db') :
    ServeCases now admin db (.deleteUser userId) db' := by
  dsimp only [deleteUser] at h
  obtain ⟨-, h⟩ := guard_ok h
  obtain ⟨user, htarget, h⟩ := bind_ok h
  obtain ⟨⟨⟩, hmanage, h⟩ := bind_ok h
  obtain ⟨⟨⟩, hprotect, h⟩ := bind_ok h
  cases h
  exact .deleteUser (target_ok htarget hmanage) hprotect

/-- A user is enabled or disabled with these checks passed. -/
theorem toggleActive_ok {userId : Uuid} (h : toggleActive now admin db userId = .ok db') :
    ServeCases now admin db (.toggleActive userId) db' := by
  dsimp only [toggleActive] at h
  obtain ⟨-, h⟩ := guard_ok h
  obtain ⟨user, htarget, h⟩ := bind_ok h
  obtain ⟨⟨⟩, hmanage, h⟩ := bind_ok h
  obtain ⟨hprotect, h⟩ := check_ok h rfl
  have huser := target_ok htarget hmanage
  split at h
  · rename_i hactive
    cases h
    exact .disableUser huser hactive (hprotect hactive)
  · rename_i hinactive
    cases h
    exact .enableUser huser (by simpa using hinactive)

/-- A permission is granted with these checks passed. -/
theorem grantPermission_ok {userId : Uuid} {payload : PermissionCreate} {id : Uuid}
    (h : grantPermission now admin db userId payload id = .ok db') :
    ServeCases now admin db (.grantPermission userId payload id) db' := by
  dsimp only [grantPermission] at h
  obtain ⟨-, h⟩ := guard_ok h
  obtain ⟨user, htarget, h⟩ := bind_ok h
  obtain ⟨⟨⟩, hmanage, h⟩ := bind_ok h
  split at h
  · cases h
  · rename_i permissions hinsert
    cases h
    exact .grantPermission (target_ok htarget hmanage) rfl hinsert

/-- A permission is revoked with these checks passed. -/
theorem revokePermission_ok {userId permissionId : Uuid}
    (h : revokePermission admin db userId permissionId = .ok db') :
    ServeCases now admin db (.revokePermission userId permissionId) db' := by
  dsimp only [revokePermission] at h
  obtain ⟨user, htarget, h⟩ := bind_ok h
  obtain ⟨⟨⟩, hmanage, h⟩ := bind_ok h
  split at h
  · cases h
    exact .revokePermission (target_ok htarget hmanage)
  · cases h

/-- A licence is created with these checks passed. -/
theorem createLicense_ok {payload : LicenseCreate} {id : Uuid} {licenseKey : String}
    (h : createLicense now admin db payload id licenseKey = .ok db') :
    ServeCases now admin db (.createLicense payload id licenseKey) db' := by
  dsimp only [createLicense] at h
  obtain ⟨user, htarget, h⟩ := bind_ok h
  obtain ⟨⟨⟩, hmanage, h⟩ := bind_ok h
  obtain ⟨-, h⟩ := guard_ok h
  split at h
  · cases h
  · rename_i licenses hinsert
    cases h
    exact .createLicense (target_ok htarget hmanage) rfl hinsert

/-- A licence is updated with these checks passed. -/
theorem updateLicense_ok {licenseId : Uuid} {payload : LicenseUpdate}
    (h : updateLicense now admin db licenseId payload = .ok db') :
    ServeCases now admin db (.updateLicense licenseId payload) db' := by
  dsimp only [updateLicense] at h
  obtain ⟨-, h⟩ := guard_ok h
  obtain ⟨⟨license, user⟩, hlicensee, h⟩ := bind_ok h
  obtain ⟨⟨⟩, hmanage, h⟩ := bind_ok h
  obtain ⟨-, h⟩ := guard_ok h
  obtain ⟨hprotect, h⟩ := check_ok h rfl
  cases h
  exact .updateLicense (licensee_ok hlicensee hmanage) hprotect

/-- A licence is expired with these checks passed. -/
theorem expireLicense_ok {licenseId : Uuid} (h : expireLicense now admin db licenseId = .ok db') :
    ServeCases now admin db (.expireLicense licenseId) db' := by
  dsimp only [expireLicense] at h
  obtain ⟨⟨license, user⟩, hlicensee, h⟩ := bind_ok h
  obtain ⟨⟨⟩, hmanage, h⟩ := bind_ok h
  obtain ⟨⟨⟩, hprotect, h⟩ := bind_ok h
  cases h
  exact .expireLicense (licensee_ok hlicensee hmanage) hprotect

/-- Every transaction that commits is one of the listed ones. -/
theorem serve_cases {request : AdminRequest} (h : request.serve now admin db = .ok db') :
    ServeCases now admin db request db' := by
  obtain ⟨⟨⟩, -, h⟩ := bind_ok h
  cases request with
  | createUser payload id passwordHash => exact createUser_ok h
  | updateUser userId payload => exact updateUser_ok h
  | deleteUser userId => exact deleteUser_ok h
  | toggleActive userId => exact toggleActive_ok h
  | grantPermission userId payload id => exact grantPermission_ok h
  | revokePermission userId permissionId => exact revokePermission_ok h
  | createLicense payload id licenseKey => exact createLicense_ok h
  | updateLicense licenseId payload => exact updateLicense_ok h
  | expireLicense licenseId => exact expireLicense_ok h

end

/-! ### Draining the outbox -/

/-- The tables that the outbox does not touch are the same. -/
structure SameAccounts (db db' : Database) : Prop where
  users : db'.users = db.users
  permissions : db'.permissions = db.permissions
  licenses : db'.licenses = db.licenses

/-- The pass over one row touches sessions and the outbox only. -/
theorem processRow_accounts (now : Timestamp) (db : Database) (row : OutboxRow)
    (outcome : RowOutcome) : SameAccounts db (processRow now db row outcome) := by
  unfold processRow
  cases row.operation with
  | revoke => cases outcome <;> exact ⟨rfl, rfl, rfl⟩
  | reconcile =>
    cases hlicense : db.currentLicense row.userId now <;> cases outcome <;> exact ⟨rfl, rfl, rfl⟩

/-- The drain touches sessions and the outbox only. -/
theorem drain_accounts (now : Timestamp) (outcomes : List RowOutcome) (db : Database) :
    SameAccounts db (processSessionOutboxOnce now outcomes db) := by
  unfold processSessionOutboxOnce
  generalize (db.pendingOutbox 100).zip outcomes = pass
  induction pass generalizing db with
  | nil => exact ⟨rfl, rfl, rfl⟩
  | cons head pass ih =>
    have hrow := processRow_accounts now db head.1 head.2
    have hrest := ih (processRow now db head.1 head.2)
    exact ⟨hrest.users.trans hrow.users, hrest.permissions.trans hrow.permissions,
      hrest.licenses.trans hrow.licenses⟩

end Rsap.Proofs
