import Rsap.Proofs.PairExpiry

/-!
# `Rsap.Proofs.OutboxRows`: an outbox row names a session that has committed before it

A row that carries the identifier of a session comes from a logout or from a replay. Both were
validated, so the session had its row in the database, and the login that inserted it had
committed. The ids of the outbox only grow, so the row is newer than that login (`RowFits`). The
rows that a pass has fetched are copies, and what is known of the rows is known of the copies.

A reconciliation carries no session.
-/

set_option autoImplicit false

namespace Rsap.Proofs

open Rsap.Desktop (Uuid Timestamp Token)
open Rsap.Library Rsap.Library.Machine
open Rsap.Webapp

/-- What is known of a row, in the outbox or in a pass. -/
structure RowFits (settings : SessionSettings) (w : SessionWorld) (row : OutboxRow) : Prop where
  id : row.id < w.db.nextOutboxId
  reconcile : row.operation = .reconcile → row.sid = none
  session : ∀ sid, row.sid = some sid → ∃ s ∈ w.db.sessions, settings.sha256 s.sessionToken = sid
  newer : ∀ sid, row.sid = some sid → ∀ c ∈ w.commits, c.sid = sid → c.mark ≤ row.id

/-- The rows name sessions that committed before them. -/
structure RowsFit (settings : SessionSettings) (w : SessionWorld) : Prop where
  outbox : ∀ row ∈ w.db.outbox, RowFits settings w row
  passes : ∀ pass ∈ w.passes, ∀ row ∈ pass.rows, RowFits settings w row
  marks : ∀ c ∈ w.commits, c.mark ≤ w.db.nextOutboxId
  sessions : ∀ s ∈ w.db.sessions, ∃ c ∈ w.commits, c.sid = settings.sha256 s.sessionToken

/-- The columns of a row that a pass reads. -/
structure SameRow (row row' : OutboxRow) : Prop where
  id : row'.id = row.id
  operation : row'.operation = row.operation
  sid : row'.sid = row.sid

section
variable {settings : SessionSettings} {w w' : SessionWorld}

/-- A row that fits stays so while rows are only appended and sessions kept. -/
theorem RowFits.mono {row row' : OutboxRow} (h : RowFits settings w row) (hsame : SameRow row row')
    (hcommits : w'.commits = w.commits) (hnext : w.db.nextOutboxId ≤ w'.db.nextOutboxId)
    (hforth : ∀ s ∈ w.db.sessions, ∃ s' ∈ w'.db.sessions, SessionKept s s') :
    RowFits settings w' row' := by
  constructor
  · rw [hsame.id]
    exact Nat.lt_of_lt_of_le h.id hnext
  · rw [hsame.operation, hsame.sid]
    exact h.reconcile
  · intro sid hsid
    rw [hsame.sid] at hsid
    obtain ⟨s, hs, heq⟩ := h.session sid hsid
    obtain ⟨s', hs', hkept⟩ := hforth s hs
    exact ⟨s', hs', hkept.token.symm ▸ heq⟩
  · intro sid hsid c hc heq
    rw [hsame.sid] at hsid
    rw [hcommits] at hc
    rw [hsame.id]
    exact h.newer sid hsid c hc heq

/-- The invariant over a step that commits no login. -/
theorem RowsFit.mono (hr : RowsFit settings w) (hcommits : w'.commits = w.commits)
    (hnext : w.db.nextOutboxId ≤ w'.db.nextOutboxId)
    (hsessions : ∀ userId, SessionsKept w.db w'.db userId)
    (houtbox : ∀ row' ∈ w'.db.outbox,
      (∃ row ∈ w.db.outbox, SameRow row row') ∨ RowFits settings w' row')
    (hpasses : ∀ pass' ∈ w'.passes, ∀ row ∈ pass'.rows,
      (∃ pass ∈ w.passes, row ∈ pass.rows) ∨ row ∈ w.db.outbox) : RowsFit settings w' := by
  have hforth : ∀ s ∈ w.db.sessions, ∃ s' ∈ w'.db.sessions, SessionKept s s' :=
    fun s hs => (hsessions s.userId).forth s hs rfl
  -- rows, passes, marks and sessions each come from before, or bring their own proof
  constructor
  · intro row' hrow'
    rcases houtbox row' hrow' with ⟨row, hrow, hsame⟩ | hnew
    · exact (hr.outbox row hrow).mono hsame hcommits hnext hforth
    · exact hnew
  · intro pass' hpass' row hrow
    rcases hpasses pass' hpass' row hrow with ⟨pass, hpass, hold⟩ | hold
    · exact (hr.passes pass hpass row hold).mono ⟨rfl, rfl, rfl⟩ hcommits hnext hforth
    · exact (hr.outbox row hold).mono ⟨rfl, rfl, rfl⟩ hcommits hnext hforth
  · intro c hc
    rw [hcommits] at hc
    exact (hr.marks c hc).trans hnext
  · intro s' hs'
    obtain ⟨s, hs, hkept⟩ := (hsessions s'.userId).back s' hs' rfl
    rw [hcommits, hkept.token]
    exact hr.sessions s hs

end

end Rsap.Proofs
