import Rsap.Library.Machine
import Rsap.Proofs.Administration

/-!
# `Rsap.Proofs.SuperAdmin`: the last operational super administrator survives

An operational super administrator is an active, not deleted user of that role with a current
licence (`Database.Operational`). Six routes can reduce the set. Each either passes
`protect_last_super_admin`, or leaves role, flags and licences of every operator alone.

`protect_ok` says what a passed check leaves over. `operator_serve` goes through the routes, and
`last_operator_survives` is the induction over a sequence of requests. The clock may move between
two requests as long as no licence in the table enters or leaves its window.
-/

set_option autoImplicit false

namespace Rsap.Proofs

open Rsap.Desktop (Uuid Timestamp)
open Rsap.Library Rsap.Library.Machine
open Rsap.Webapp

/-- Some super administrator is operational. -/
def HasOperator (db : Database) (now : Timestamp) : Prop :=
  ∃ user ∈ db.users, db.Operational now user

section
variable {now : Timestamp} {db db' : Database} {admin : CurrentUser}

/-- What is left over when the check passes for a super administrator. -/
theorem protect_ok {targetId : Uuid} {excluded : Option Uuid}
    (h : protectLastSuperAdmin now db targetId .superAdmin excluded = .ok ()) :
    (¬ ∃ user ∈ db.users, user.id = targetId ∧ db.Operational now user) ∨
      (∃ licenseId ∈ excluded, ∃ license ∈ db.licenses,
        license.current targetId now ∧ license.id ≠ licenseId) ∨
      ∃ user ∈ db.users, db.Operational now user ∧ user.id ≠ targetId := by
  unfold protectLastSuperAdmin at h
  rw [if_neg (by simp)] at h
  split at h
  · exact .inl ‹_›
  · split at h
    · exact .inr (.inl ‹_›)
    · split at h
      · cases h
      · rename_i hcount
        obtain ⟨user, huser, hother⟩ := List.countP_pos_iff.mp (Nat.pos_of_ne_zero hcount)
        exact .inr (.inr ⟨user, huser, by simpa using hother⟩)

/-- An operator who is still there, with his licences, is still an operator. -/
theorem operator_of_same {user : User} (hop : db.Operational now user) (huser : user ∈ db'.users)
    (hlicenses : ∀ license ∈ db.licenses, license.current user.id now → license ∈ db'.licenses) :
    HasOperator db' now := by
  obtain ⟨hrole, hactive, halive, license, hlicense, hcurrent⟩ := hop
  exact ⟨user, huser, hrole, hactive, halive, license, hlicenses license hlicense hcurrent,
    hcurrent⟩

/-- Only users and licences decide who is an operator. -/
theorem HasOperator.of_accounts (hop : HasOperator db now) (husers : db'.users = db.users)
    (hlicenses : db'.licenses = db.licenses) : HasOperator db' now := by
  obtain ⟨user, huser, hoperational⟩ := hop
  refine operator_of_same hoperational (husers ▸ huser) fun license hlicense _ => ?_
  exact hlicenses ▸ hlicense

/-- The user whom a change of the target may not take away: when the check passes, there is an
operator beside the target. -/
theorem operator_beside {userId : Uuid} {user : User} (huser : user ∈ db.users)
    (hkey : user.id = userId) (hop : HasOperator db now)
    (hprotect : protectLastSuperAdmin now db userId user.role none = .ok ()) :
    ∃ other ∈ db.users, db.Operational now other ∧ other.id ≠ userId := by
  obtain ⟨other, hother, hoperational⟩ := hop
  by_cases hsame : other.id = userId
  · -- the operator is the target, so its role is the one that the check protects
    have heq : other = user := db.users.eq_of_key hother huser (hsame.trans hkey.symm)
    subst heq
    rw [hoperational.1] at hprotect
    rcases protect_ok hprotect with hnone | ⟨licenseId, hmem, -⟩ | hbeside
    · exact absurd ⟨other, huser, hkey, hoperational⟩ hnone
    · cases hmem
    · exact hbeside
  · exact ⟨other, hother, hoperational, hsame⟩

/-- An update of one user leaves the other users alone. -/
theorem mem_updateUser {userId : Uuid} {f : User → User} {hf : ∀ u, (f u).id = u.id} {user : User}
    (huser : user ∈ db.users) (hne : user.id ≠ userId) :
    user ∈ (db.updateUser userId f hf).users := by
  show user ∈ db.users.update (fun u => u.id = userId ∧ u.isDeleted = false) f hf
  exact KeyedTable.mem_update.mpr ⟨user, huser, if_neg fun h => hne h.1⟩

/-- An update of one user changes his row. -/
theorem mem_updateUser_self {userId : Uuid} {f : User → User} {hf : ∀ u, (f u).id = u.id}
    {user : User} (huser : user ∈ db.users) (hkey : user.id = userId)
    (halive : user.isDeleted = false) : f user ∈ (db.updateUser userId f hf).users := by
  show f user ∈ db.users.update (fun u => u.id = userId ∧ u.isDeleted = false) f hf
  exact KeyedTable.mem_update.mpr ⟨user, huser, if_pos ⟨hkey, halive⟩⟩

/-- An update of one user keeps an operator beside him. -/
theorem operator_updateUser {userId : Uuid} {user : User} (huser : user ∈ db.users)
    (hkey : user.id = userId) (hop : HasOperator db now)
    (hprotect : protectLastSuperAdmin now db userId user.role none = .ok ()) {f : User → User}
    (hf : ∀ u, (f u).id = u.id) : HasOperator (db.updateUser userId f hf) now := by
  obtain ⟨other, hother, hoperational, hne⟩ := operator_beside huser hkey hop hprotect
  exact operator_of_same hoperational (mem_updateUser hother hne) fun license hlicense _ => hlicense

/-- An update of one user that keeps his role and his flags keeps every operator. -/
theorem operator_updateUser_of_same {userId : Uuid} {f : User → User}
    {hf : ∀ u, (f u).id = u.id} (hop : HasOperator db now)
    (hsame : ∀ user ∈ db.users, user.id = userId → db.Operational now user →
      (f user).role = user.role ∧ (f user).isActive = user.isActive ∧
        (f user).isDeleted = user.isDeleted) :
    HasOperator (db.updateUser userId f hf) now := by
  obtain ⟨user, huser, hoperational⟩ := hop
  by_cases hkey : user.id = userId
  · obtain ⟨hrole, hactive, hdeleted⟩ := hsame user huser hkey hoperational
    obtain ⟨hrole', hactive', halive', license, hlicense, hcurrent⟩ := hoperational
    refine ⟨f user, mem_updateUser_self huser hkey halive', hrole.trans hrole',
      hactive.trans hactive', hdeleted.trans halive', license, hlicense, ?_⟩
    rw [hf user]
    exact hcurrent
  · exact operator_of_same hoperational (mem_updateUser huser hkey)
      fun license hlicense _ => hlicense

/-- An update of one licence keeps the operators with another licence. -/
theorem operator_updateLicense {licenseId : Uuid} {f : License → License}
    (hf : ∀ l, (f l).id = l.id) {license : License} {user : User}
    (hlicensee : Licensee admin db licenseId license user) (hop : HasOperator db now)
    (hremains : (f license).current license.userId now ∨
      protectLastSuperAdmin now db license.userId user.role (some licenseId) = .ok ())
    (husers : db'.users = db.users)
    (hlicenses : db'.licenses = db.licenses.update (fun l => l.id = licenseId) f hf) :
    HasOperator db' now := by
  -- the licences under other ids stay
  have hother : ∀ l ∈ db.licenses, l.id ≠ licenseId → l ∈ db'.licenses := by
    intro l hl hne
    rw [hlicenses]
    exact KeyedTable.mem_update.mpr ⟨l, hl, if_neg hne⟩
  have hkept : ∀ other ∈ db.users, db.Operational now other → other.id ≠ license.userId →
      HasOperator db' now := by
    intro other hmem hoperational hne
    refine operator_of_same hoperational (husers ▸ hmem) ?_
    intro l hl hcurrent
    refine hother l hl fun hid => hne ?_
    rw [← hcurrent.1, db.licenses.eq_of_key hl hlicensee.mem (hid.trans hlicensee.key.symm)]
  obtain ⟨operator, hoperator, hoperational⟩ := hop
  by_cases hsame : operator.id = license.userId
  · have heq : operator = user :=
      db.users.eq_of_key hoperator hlicensee.user_mem (hsame.trans hlicensee.user_key.symm)
    subst heq
    obtain ⟨hrole, hactive, halive, -⟩ := id hoperational
    rcases hremains with hcurrent | hprotect
    · refine ⟨operator, husers ▸ hoperator, hrole, hactive, halive, f license, ?_, ?_⟩
      · show f license ∈ db'.licenses
        rw [hlicenses]
        exact KeyedTable.mem_update.mpr ⟨license, hlicensee.mem, if_pos hlicensee.key⟩
      · rw [hsame]
        exact hcurrent
    · rw [hrole] at hprotect
      rcases protect_ok hprotect with hnone | ⟨excluded, hmem, l, hl, hcurrent, hne⟩ | hbeside
      · exact absurd ⟨operator, hoperator, hsame, hoperational⟩ hnone
      · cases hmem
        refine ⟨operator, husers ▸ hoperator, hrole, hactive, halive, l, hother l hl hne, ?_⟩
        rw [hsame]
        exact hcurrent
      · obtain ⟨other, hmem, hop', hne⟩ := hbeside
        exact hkept other hmem hop' hne
  · exact hkept operator hoperator hoperational hsame

/-- A transaction that commits leaves an operator. -/
theorem operator_serve {request : AdminRequest} (h : ServeCases now admin db request db')
    (hop : HasOperator db now) : HasOperator db' now := by
  cases h with
  | createUser hrole hinsert =>
    obtain ⟨user, huser, hoperational⟩ := hop
    exact operator_of_same hoperational ((KeyedTable.mem_insert hinsert).mpr (.inl huser))
      fun license hlicense _ => hlicense
  | @updateUser userId payload user htarget hadmin hprotect =>
    cases hset : payload.role with
    | none =>
      refine operator_updateUser_of_same hop fun user huser hkey hoperational => ⟨?_, rfl, rfl⟩
      show payload.role.getD user.role = user.role
      rw [hset]
      rfl
    | some role =>
      by_cases hsuper : user.role = .superAdmin
      · exact operator_updateUser htarget.mem htarget.key hop
          (hprotect (by rw [hset]; rfl) hsuper) _
      · -- the target is no operator, whatever role it gets
        refine operator_updateUser_of_same hop fun other hother hkey hoperational => ?_
        have heq := db.users.eq_of_key hother htarget.mem (hkey.trans htarget.key.symm)
        exact absurd (heq ▸ hoperational.1) hsuper
  -- a deletion and a suspension are guarded by the search for another operator
  | deleteUser htarget hprotect =>
    refine (operator_updateUser htarget.mem htarget.key hop hprotect ?_).of_accounts rfl rfl
    intro u
    rfl
  | disableUser htarget hactive hprotect =>
    refine (operator_updateUser htarget.mem htarget.key hop hprotect ?_).of_accounts rfl rfl
    intro u
    rfl
  -- the target is no operator yet
  | enableUser htarget hinactive =>
    refine operator_updateUser_of_same hop fun other hother hkey hoperational => ?_
    have heq := db.users.eq_of_key hother htarget.mem (hkey.trans htarget.key.symm)
    rw [heq] at hoperational
    exact absurd (hoperational.2.1.symm.trans hinactive) (by simp)
  | grantPermission htarget hrow hinsert => exact hop
  | revokePermission htarget => exact hop
  | createLicense htarget huser hinsert =>
    obtain ⟨user, huser, hoperational⟩ := hop
    exact operator_of_same hoperational huser
      fun license hlicense _ => (KeyedTable.mem_insert hinsert).mpr (.inl hlicense)
  | @updateLicense licenseId payload license user hlicensee hprotect =>
    refine operator_updateLicense ?_ hlicensee hop ?_ rfl rfl
    · exact fun _ => rfl
    -- the licence is still current, or the guard has found another operator
    by_cases hcurrent : (payload.assign now license).isActive = true ∧
        (payload.assign now license).inWindow now
    · exact .inl ⟨rfl, hcurrent⟩
    · exact .inr (hprotect hcurrent)
  | expireLicense hlicensee hprotect =>
    refine operator_updateLicense ?_ hlicensee hop (.inr ?_) rfl rfl
    · exact fun _ => rfl
    rw [← hlicensee.user_key]
    exact hprotect

end

/-! ### Sequences of requests -/

/-- The database, and the time of the last request. -/
structure AdminState where
  db : Database
  now : Timestamp

/-- A request with its actor, its time, and the outcomes of the rows that it drains. -/
structure AdminCall where
  now : Timestamp
  admin : CurrentUser
  outcomes : List RowOutcome
  request : AdminRequest

/-- Requests one after the other, from any database. -/
def adminMachine (start : AdminState) : Machine AdminState AdminCall where
  init := start
  step s call := some ⟨call.request.perform call.now call.admin call.outcomes s.db, call.now⟩

/-- The clock moved to the request without crossing a boundary of a licence. -/
def SameWindows (s : AdminState) (call : AdminCall) : Prop :=
  ∀ license ∈ s.db.licenses.rows, license.inWindow s.now ↔ license.inWindow call.now

instance (s : AdminState) (call : AdminCall) : Decidable (SameWindows s call) :=
  inferInstanceAs (Decidable (∀ _ ∈ _, _))

/-- An operator is one at the next request too. -/
theorem operator_sameWindows {s : AdminState} {call : AdminCall} (h : SameWindows s call)
    (hop : HasOperator s.db s.now) : HasOperator s.db call.now := by
  obtain ⟨user, huser, hrole, hactive, halive, license, hlicense, howner, henabled, hwindow⟩ := hop
  exact ⟨user, huser, hrole, hactive, halive, license, hlicense, howner, henabled,
    (h license hlicense).mp hwindow⟩

/-- A request leaves an operator, whether it commits or is rolled back. -/
theorem operator_perform {now : Timestamp} {admin : CurrentUser} {outcomes : List RowOutcome}
    {db : Database} (request : AdminRequest) (hop : HasOperator db now) :
    HasOperator (request.perform now admin outcomes db) now := by
  unfold AdminRequest.perform
  split
  · exact hop
  · rename_i db' hserve
    have hcommitted := operator_serve (serve_cases hserve) hop
    split
    · have hdrain := drain_accounts now outcomes db'
      exact hcommitted.of_accounts hdrain.users hdrain.licenses
    · exact hcommitted

/-- If an operational super administrator exists at first, one exists after every request of
every sequence. -/
theorem last_operator_survives (start : AdminState) (hop : HasOperator start.db start.now)
    {s : AdminState} (h : Reachable (adminMachine start) SameWindows s) :
    HasOperator s.db s.now := by
  refine h.invariant (I := fun s => HasOperator s.db s.now) hop ?_
  intro s call s' _ hclock hstep hs
  cases hstep
  exact operator_perform call.request (operator_sameWindows hclock hs)

/-! ### Two operators -/

/-- A super administrator. -/
def operator (id : Uuid) (email : String) : User :=
  ⟨id, email, none, "", .superAdmin, true, false, none, none, 0, 0⟩

/-- A licence of the user, valid from 10 until 90. -/
def operatorLicense (id userId : Uuid) (licenseKey : String) : License :=
  ⟨id, userId, licenseKey, [], 8, [], 10, 90, true, none, 0, 0⟩

/-- Two operators at time 50. -/
def twoOperators : AdminState where
  db := { Database.empty with
    users := ⟨[operator 1 "a@x.org", operator 2 "b@x.org"], by unfold UniqueOn; decide⟩
    licenses := ⟨[operatorLicense 11 1 "k", operatorLicense 12 2 "l"], by unfold UniqueOn; decide⟩ }
  now := 50

/-- The first operator deletes the second one, and then tries to expire his own licence. -/
def reductions : List AdminCall :=
  [⟨50, ⟨1, .superAdmin, []⟩, [.done], .deleteUser 2⟩,
    ⟨60, ⟨1, .superAdmin, []⟩, [.done], .expireLicense 11⟩]

/-- The second request is refused. -/
theorem last_operator_survives_reductions :
    HasOperator ((adminMachine twoOperators).final twoOperators reductions).db
      ((adminMachine twoOperators).final twoOperators reductions).now :=
  last_operator_survives twoOperators
    ⟨operator 1 "a@x.org", by show _ ∈ twoOperators.db.users.rows; decide, by decide⟩
    (Reachable.init.final reductions (by decide))

end Rsap.Proofs
