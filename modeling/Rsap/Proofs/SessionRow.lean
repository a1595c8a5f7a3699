import Rsap.Proofs.Items

/-!
# `Rsap.Proofs.SessionRow`: who writes the session row

`sessionRow_cases` lists what an operation does to the row of `local_sessions`. Without the lock,
an operation deletes the row or notes an error in it (`RowKept`).

`Bound row generation token` is what a reader of the row still knows later: the row's generation
is not lower than the one that the reader saw, and a row of that very generation holds the
reader's session. Every operation keeps it, except a `save` into an absent row, which starts at
generation 1 again. The holder of the lock never sees such a `save`, so its record stays bound
(`authBound_reachable`).
-/

set_option autoImplicit false

namespace Rsap.Proofs

open Rsap.Library
open Rsap.Library.Machine (Reachable Any)
open Rsap.Desktop

/-- The generation that `save` installs over a row. -/
def nextGeneration : Option SessionRow → Nat
  | some current => current.generation + 1
  | none => 1

/-- What an operation does to the session row. -/
inductive SessionRowCases (before : Option SessionRow) : Op → Option SessionRow → Prop where
  | kept {op : Op} : SessionRowCases before op before
  | saved {now : Timestamp} {session : LocalSession} {validUntil : Option Timestamp}
      {userId : Uuid} : session.userId = some userId →
      SessionRowCases before (.save now session validUntil)
        (some ⟨session, userId, validUntil, now, nextGeneration before, .active, none⟩)
  | replaced {now : Timestamp} {session : LocalSession} {validUntil : Timestamp}
      {row : SessionRow} : before = some row → row.status = .active →
      SessionRowCases before (.replaceActive now session validUntil row.generation)
        (some ⟨session, row.userId, some validUntil, now, row.generation + 1, row.status, none⟩)
  | marked {now : Timestamp} {row : SessionRow} : before = some row → row.status = .active →
      SessionRowCases before (.markRevocationPending now row.generation)
        (some { row with
          status := .revocationPending, generation := row.generation + 1, updatedAt := now
          lastError := none })
  | revoked {now : Timestamp} {itemId claimToken : Uuid} {maxAttempts : Attempts}
      {leaseSeconds : Nat} {row : SessionRow} : before = some row → row.status = .active →
      SessionRowCases before
        (.beginRevocation now itemId claimToken row.generation maxAttempts leaseSeconds)
        (some { row with
          status := .revocationPending, generation := row.generation + 1, updatedAt := now
          lastError := none })
  | noted {now : Timestamp} {code : String} {error : Option String} {row : SessionRow} :
      before = some row → SessionRowCases before (.setError now row.generation code)
        (some { row with lastError := error, updatedAt := now })
  | cleared {generation : Option Nat} {row : SessionRow} : before = some row →
      (generation = none ∨ generation = some row.generation) →
      SessionRowCases before (.clear generation) none
  | completed {now : Timestamp} {itemId token : Uuid} {owner : String} {row : SessionRow} :
      before = some row → row.status = .revocationPending →
      SessionRowCases before (.completeRevocation now itemId token owner row.generation) none

section Operations
variable {db : Db} {op : Op}

/-- A record of the analytics tables leaves the session row alone. -/
theorem add_session {now : Timestamp} {itemId cameraId : Uuid}
    {insert : Db → Except OpError Db} {endpoint : Endpoint} {payload : Payload}
    {key : LogicalKey} {maxAttempts : Attempts}
    (hinsert : ∀ db₁, insert db = .ok db₁ → SameCore db db₁) (reply : Unit → Reply) :
    (committed db ((AnalyticsRepository.add now itemId cameraId insert endpoint payload key
      maxAttempts db).map (·, ())) reply).1.localSession = db.localSession := by
  cases hadd : AnalyticsRepository.add now itemId cameraId insert endpoint payload key
      maxAttempts db with
  | error e => rfl
  | ok db' =>
    obtain ⟨-, -, -, -, hsession⟩ := add_queue hinsert hadd
    exact hsession

/-- What each operation does to the session row. -/
theorem sessionRow_cases (db : Db) (op : Op) :
    SessionRowCases db.localSession op (op.run db).1.localSession := by
  -- an operation whose branches all leave the row
  have hsame : ∀ {op : Op}, (op.run db).1.localSession = db.localSession →
      SessionRowCases db.localSession op (op.run db).1.localSession := fun h => h ▸ .kept
  cases op with
  | save now session validUntil =>
    simp only [Op.run, SessionRepository.save]
    split
    · exact .kept
    · rename_i userId huser
      exact .saved huser
  | replaceActive now session validUntil generation =>
    simp only [Op.run, SessionRepository.replaceActive]
    split
    · rename_i row hrow
      split
      · rename_i hactive
        obtain ⟨rfl, hstatus⟩ := hactive
        exact hrow ▸ .replaced rfl hstatus
      · exact .kept
    · exact .kept
  | markRevocationPending now generation =>
    simp only [Op.run, SessionRepository.markRevocationPending]
    split
    · rename_i row hrow
      split
      · rename_i hactive
        obtain ⟨rfl, hstatus⟩ := hactive
        exact hrow ▸ .marked rfl hstatus
      · exact .kept
    · exact .kept
  | beginRevocation now itemId claimToken generation maxAttempts leaseSeconds =>
    simp only [Op.run, SessionRepository.beginRevocation]
    split
    · rename_i row hrow
      split
      · rename_i hactive
        obtain ⟨rfl, hstatus⟩ := hactive
        exact hrow ▸ .revoked rfl hstatus
      · exact .kept
    · exact .kept
  | setError now generation code =>
    simp only [Op.run, SessionRepository.setError]
    split
    · rename_i row hrow
      split
      · rename_i hgeneration
        subst hgeneration
        exact hrow ▸ .noted rfl
      · exact .kept
    · exact .kept
  | clear generation =>
    simp only [Op.run, SessionRepository.clear]
    split
    · rename_i row hrow
      split
      · rename_i hexpected
        exact hrow ▸ .cleared rfl hexpected
      · exact .kept
    · exact .kept
  | completeRevocation now itemId token owner generation =>
    simp only [Op.run, SyncQueueRepository.completeRevocation]
    split
    · simp only [Prod.map_apply, id_eq, SyncQueueRepository.deleteRevoked]
      split
      · rename_i row hrow
        split
        · rename_i hpending
          obtain ⟨rfl, hstatus⟩ := hpending
          exact hrow ▸ .completed rfl hstatus
        · exact hrow ▸ .kept
      · rename_i hnone
        exact hnone ▸ .kept
    · exact .kept
  | createCamera =>
    refine hsame ?_
    simp only [Op.run, CameraRepository.create]
    split <;> rfl
  | updateCamera =>
    refine hsame ?_
    simp only [Op.run, CameraRepository.update]
    split <;> rfl
  | deleteCamera =>
    refine hsame ?_
    simp only [Op.run, CameraRepository.delete]
    split <;> rfl
  | addEvent now itemId eventId payload maxAttempts =>
    refine hsame ?_
    simp only [Op.run, AnalyticsRepository.addEvent]
    split
    · rfl
    · exact add_session (fun _ => insertEvent_core) _
  | addAlert now itemId alertId payload maxAttempts =>
    refine hsame ?_
    simp only [Op.run, AnalyticsRepository.addAlert]
    split
    · rfl
    · exact add_session (fun _ => insertAlert_core) _
  | addPeopleCount now itemId countId payload maxAttempts =>
    exact hsame (add_session (fun _ => insertPeopleCount_core) _)
  | claim =>
    refine hsame ?_
    simp only [Op.run, SyncQueueRepository.claim]
    split <;> rfl
  | complete =>
    refine hsame ?_
    simp only [Op.run, SyncQueueRepository.complete]
    split
    · rfl
    · split
      · exact (markSynced_core _ _).localSession
      · rfl
  | completeCamera =>
    refine hsame ?_
    simp only [Op.run, SyncQueueRepository.completeCamera]
    split <;> rfl
  | fail =>
    refine hsame ?_
    simp only [Op.run, SyncQueueRepository.fail]
    split <;> rfl
  | enqueueRevocation | retryDeadLetter | discardDeadLetter | purgeRetained => exact hsame rfl

/-- A row after an operation without the lock is the row before it, up to its error. -/
structure RowKept (row row' : SessionRow) : Prop where
  session : row'.session = row.session
  userId : row'.userId = row.userId
  generation : row'.generation = row.generation
  status : row'.status = row.status

/-- Without the lock the row is kept or it goes. -/
theorem free_session (hfree : locked op = false) {row' : SessionRow}
    (h : (op.run db).1.localSession = some row') :
    ∃ row, db.localSession = some row ∧ RowKept row row' := by
  have hcases := sessionRow_cases db op
  rw [h] at hcases
  generalize hbefore : db.localSession = before at hcases
  cases hcases with
  | kept => exact ⟨row', rfl, rfl, rfl, rfl, rfl⟩
  | noted hrow => exact ⟨_, hrow, rfl, rfl, rfl, rfl⟩
  | saved | replaced | marked | revoked => cases hfree

/-- The same for a write of the store. -/
theorem freeWrite_session {s s' : Store} (hwrite : FreeWrite s s') {row' : SessionRow}
    (h : s'.db.localSession = some row') :
    ∃ row, s.db.localSession = some row ∧ RowKept row row' := by
  rcases hwrite with rfl | ⟨op, reply, happly, hfree⟩
  · exact ⟨row', h, rfl, rfl, rfl, rfl⟩
  · obtain ⟨-, -, -, hdb, -, -⟩ := apply_step happly
    rw [hdb] at h
    exact free_session hfree h

end Operations

/-! ### What a reader still knows -/

/-- The row is not before the generation, and at the generation it holds the session. -/
def Bound (row : Option SessionRow) (generation : Nat) (token : Token) : Prop :=
  ∀ r, row = some r → generation ≤ r.generation ∧
    (r.generation = generation → r.session.sessionToken = token)

/-- The operation installs a session where there is none. -/
def Installs (db : Db) : Op → Prop
  | .save .. => db.localSession = none
  | _ => False

section Bounds
variable {db : Db} {op : Op} {generation : Nat} {token : Token}

/-- A record is bound when it is read. -/
theorem bound_read {record : SessionRecord} (h : SessionRepository.getRecord db = some record) :
    Bound db.localSession record.generation record.session.sessionToken := by
  obtain ⟨row, hrow, rfl⟩ := Option.map_eq_some_iff.mp h
  intro r hr
  cases hrow.symm.trans hr
  exact ⟨Nat.le_refl _, fun _ => rfl⟩

/-- An operation keeps a reader bound, unless it installs a session where there is none. -/
theorem Bound.run (h : Bound db.localSession generation token) (hop : ¬ Installs db op) :
    Bound (op.run db).1.localSession generation token := by
  have hcases := sessionRow_cases db op
  generalize (op.run db).1.localSession = after at hcases ⊢
  cases hcases with
  | kept => exact h
  | cleared | completed => exact fun r hr => nomatch hr
  | saved =>
    intro r hr
    cases hr
    cases hrow : db.localSession with
    | none => exact absurd hrow hop
    | some row =>
      have := (h row hrow).1
      show generation ≤ row.generation + 1 ∧ (row.generation + 1 = generation → _)
      exact ⟨by omega, fun heq => by omega⟩
  | replaced hrow | marked hrow | revoked hrow =>
    intro r hr
    cases hr
    have := (h _ hrow).1
    exact ⟨Nat.le_succ_of_le this, fun heq => by simp only at heq; omega⟩
  | noted hrow =>
    intro r hr
    cases hr
    have hbound := h _ hrow
    exact hbound

/-- A write without the lock keeps a reader bound. -/
theorem Bound.freeWrite {s s' : Store} (h : Bound s.db.localSession generation token)
    (hwrite : FreeWrite s s') : Bound s'.db.localSession generation token := by
  intro r hr
  obtain ⟨row, hrow, hkept⟩ := freeWrite_session hwrite hr
  rw [hkept.generation, hkept.session]
  exact h row hrow

end Bounds

/-! ### The holder of the lock -/

/-- The generation and the session that the holder of the lock goes on with. -/
def authClaim : AuthTask → Option (Nat × Token)
  | .logoutBegin record => some (record.generation, record.session.sessionToken)
  | .logoutCall record generation _ _ => some (generation, record.session.sessionToken)
  | .logoutComplete record generation _ _ => some (generation, record.session.sessionToken)
  | .refreshCall record _ => some (record.generation, record.session.sessionToken)
  | .refreshClear record => some (record.generation, record.session.sessionToken)
  | .refreshReplace record _ _ => some (record.generation, record.session.sessionToken)
  | _ => none

/-- The holder of the lock is bound, and a refresh keeps the token of its session. -/
structure AuthBound (w : World) : Prop where
  bound : ∀ task, w.auth = some task → ∀ generation token,
    authClaim task = some (generation, token) → Bound w.store.db.localSession generation token
  replacement : ∀ record validUntil replacement,
    w.auth = some (.refreshReplace record validUntil replacement) →
    replacement.sessionToken = record.session.sessionToken

section Worlds
variable {settings : Settings} {ok : World → Act → Prop} {w w' : World} {a : Act}

/-- A step keeps the holder of the lock bound. -/
theorem authBound_step (hstep : StepCases settings w a w') (h : AuthBound w) : AuthBound w' := by
  refine ⟨fun task' htask generation token hclaim => ?_, ?_⟩
  · cases step_task hstep htask with
    | login | licensed | undo | refused | noted => cases hclaim
    | kept hauth hwrite => exact (h.bound _ hauth _ _ hclaim).freeWrite hwrite
    | logout hrecord _ hstore | refresh hrecord hstore | expired hrecord hstore =>
      cases hclaim
      rw [hstore]
      exact bound_read hrecord
    | loggedOut hauth hstore | rejected hauth hstore | refreshed hauth hstore =>
      rw [hstore]
      exact h.bound _ hauth _ _ hclaim
    | began hauth happly =>
      cases hclaim
      -- the row that the revocation found is of the generation that the logout read
      obtain ⟨-, hreply, -, hdb, -, -⟩ := apply_step happly
      obtain ⟨row, hrow, hgeneration, -, rfl, -, hrun⟩ := beginRevocation_started hreply.symm
      have hbound := h.bound _ hauth _ _ rfl
      rw [hdb, hrun]
      intro r hr
      cases hr
      exact ⟨Nat.le_refl _, fun _ => (hbound row hrow).2 hgeneration⟩
  · intro record validUntil replacement htask
    cases step_task hstep htask with
    | kept hauth => exact h.replacement _ _ _ hauth
    | refreshed _ _ htoken => exact htoken

/-- The holder of the lock is bound in every reachable world. -/
theorem authBound_reachable (h : Reachable (worldMachine settings) ok w) : AuthBound w := by
  refine h.invariant (I := AuthBound) ⟨?_, ?_⟩ fun _ _ _ _ _ hstep =>
    authBound_step (step_cases hstep)
  · intro task htask
    cases htask
  · intro record validUntil replacement htask
    cases htask

end Worlds

end Rsap.Proofs
