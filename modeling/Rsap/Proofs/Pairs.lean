import Rsap.Proofs.SingleSession

/-!
# `Rsap.Proofs.Pairs`: what the scripts do to a pair

One inversion lemma for each script of `app/services/session_service.py`. A script leaves the pair
as it is, deletes keys, or writes both keys anew for the session that it found. `CommandCases`
puts the commands of an outbox row together.
-/

set_option autoImplicit false

namespace Rsap.Proofs

open Rsap.Desktop (Uuid Timestamp Token)
open Rsap.Library
open Rsap.Webapp

/-- A visible key is stored. -/
theorem redisGet_eq_some {α : Type} {now : Timestamp} {key : Option (Entry α)} {entry : Entry α}
    (h : redisGet now key = some entry) : key = some entry := by
  unfold redisGet at h
  exact (Option.filter_eq_some_iff.mp h).1

/-- A key before its expiry is visible. -/
theorem redisGet_of_live {α : Type} {now : Nat} {entry : Entry α}
    (h : seconds now < entry.expireAt) : redisGet now (some entry) = some entry := by
  have hvisible : now / 1000 ≤ entry.expireAt * 1000 := by
    unfold seconds at h
    omega
  simp [redisGet, hvisible]

/-- The stored value of the refresh key. -/
def Pair.refreshState (pair : Pair) : Option RefreshState := pair.refresh.bind Entry.value

/-- What `loadJson` reads is stored. -/
theorem loadJson_refresh {now : Timestamp} {pair : Pair} {state : RefreshState}
    (h : loadJson now pair.refresh = some state) : Pair.refreshState pair = some state := by
  obtain ⟨entry, hentry, hvalue⟩ := Option.bind_eq_some_iff.mp h
  unfold Pair.refreshState
  rw [redisGet_eq_some hentry]
  exact hvalue

section
variable {now : Timestamp} {pair : Pair}

/-- `ROTATE_REFRESH_LUA`: it refuses, it deletes a pair that does not decode, or it replaces the
refresh token of the session. -/
inductive RotateCases (now : Timestamp) (jti : Uuid) (sid : Digest) (replacement : RefreshState)
    (pair : Pair) : Bool × Pair → Prop where
  | refused : RotateCases now jti sid replacement pair (false, pair)
  | cleared : (∀ refresh session, redisGet now pair.refresh = some refresh →
        redisGet now pair.session = some session → refresh.value = none ∨ session.value = none) →
      RotateCases now jti sid replacement pair (false, .empty)
  | rotated {refresh : RefreshState} {session : SessionState} {refreshAt sessionAt : Nat} :
      redisGet now pair.refresh = some ⟨some refresh, refreshAt⟩ →
      redisGet now pair.session = some ⟨some session, sessionAt⟩ →
      refresh.jti = jti → refresh.sid = sid → session.sid = sid → replacement.sid = sid →
      RotateCases now jti sid replacement pair
        (true, activateSession
          { session with refreshExpiresAt := replacement.refreshExpiresAt } replacement
          (min session.sessionExpiresAt session.licenseExpiresAt)
          (min replacement.refreshExpiresAt session.licenseExpiresAt))

/-- Inversion of `ROTATE_LUA`. -/
theorem rotateRefresh_cases (tokenHash : Digest) (jti : Uuid) (sid : Digest)
    (replacement : RefreshState) :
    RotateCases now jti sid replacement pair
      (rotateRefresh now tokenHash jti sid replacement pair) := by
  unfold rotateRefresh
  split
  · rename_i refresh refreshAt session sessionAt hrefresh hsession
    split
    · exact .refused
    · rename_i hsame
      simp only [not_or, ne_eq, not_not] at hsame
      obtain ⟨-, hjti, hsid, hsession_sid, hreplacement⟩ := hsame
      dsimp only
      split
      · exact .refused
      · exact .rotated hrefresh hsession hjti hsid hsession_sid hreplacement
  · rename_i refresh session hnot hrefresh hsession
    refine .cleared fun refresh' session' hrefresh' hsession' => ?_
    cases hrefresh.symm.trans hrefresh'
    cases hsession.symm.trans hsession'
    obtain ⟨value, refreshAt⟩ := refresh
    obtain ⟨value', sessionAt⟩ := session
    cases value with
    | none => exact .inl rfl
    | some state =>
      cases value' with
      | none => exact .inr rfl
      | some state' => exact absurd rfl (hnot _ _ _ _ rfl)
  · exact .refused

/-- `DELETE_IF_SID_LUA`: it finds no session and deletes the refresh key, it finds another session
and leaves the pair, or it deletes the pair of the session. -/
inductive DeleteCases (now : Timestamp) (sid : Digest) (pair : Pair) : Pair → Prop where
  | unseen : redisGet now pair.session = none →
      DeleteCases now sid pair { pair with refresh := none }
  | other : DeleteCases now sid pair pair
  | deleted {session : SessionState} {sessionAt : Nat} :
      redisGet now pair.session = some ⟨some session, sessionAt⟩ → session.sid = sid →
      DeleteCases now sid pair .empty

/-- Inversion of `DELETE_LUA`. -/
theorem deleteIfSid_cases {sid : Digest} {pair' : Pair}
    (h : deleteIfSid now sid pair = some pair') :
    DeleteCases now sid pair pair' := by
  unfold deleteIfSid at h
  split at h
  · rename_i hunseen
    cases h
    exact .unseen hunseen
  · cases h
  · rename_i session sessionAt hsession
    split at h
    · cases h
      exact .other
    · rename_i hsid
      cases h
      exact .deleted hsession (not_not.mp hsid)

/-- `RECONCILE_LUA`: it leaves the pair, it deletes one that is incomplete, incoherent or at its
end, or it writes the new licence into the pair. -/
inductive ReconcileCases (now : Timestamp) (sid : Option Digest) (license : License)
    (pair : Pair) : Pair → Prop where
  | kept : ReconcileCases now sid license pair pair
  | cleared : (∀ (refresh : RefreshState) (refreshAt : Nat) (session : SessionState)
        (sessionAt : Nat), redisGet now pair.refresh = some ⟨some refresh, refreshAt⟩ →
        redisGet now pair.session = some ⟨some session, sessionAt⟩ → session.sid = refresh.sid →
        sid = none →
        session.sessionExpiresAt ≤ seconds now ∨ refresh.refreshExpiresAt ≤ seconds now) →
      ReconcileCases now sid license pair .empty
  | extended {refresh : RefreshState} {session session' : SessionState}
      {refreshAt sessionAt : Nat} :
      redisGet now pair.refresh = some ⟨some refresh, refreshAt⟩ →
      redisGet now pair.session = some ⟨some session, sessionAt⟩ → session.sid = refresh.sid →
      session'.sid = session.sid → session'.sessionExpiresAt = session.sessionExpiresAt →
      session'.licenseExpiresAt = seconds license.validUntil →
      ReconcileCases now sid license pair
        (activateSession session' refresh
          (min session.sessionExpiresAt (seconds license.validUntil))
          (min refresh.refreshExpiresAt (seconds license.validUntil)))

/-- Inversion of `RECONCILE_LUA`. -/
theorem reconcilePair_cases (sid : Option Digest) (license : License) :
    ReconcileCases now sid license pair (reconcilePair now sid license pair) := by
  unfold reconcilePair
  split
  · rename_i session sessionAt refresh refreshAt hsession hrefresh
    split
    · rename_i hother
      refine .cleared fun refresh' _ session' _ hrefresh' hsession' hsid hnone => ?_
      cases hrefresh.symm.trans hrefresh'
      cases hsession.symm.trans hsession'
      rcases hother with hne | ⟨expected, hexpected, -⟩
      · exact absurd hsid hne
      · rw [hnone] at hexpected
        cases hexpected
    · rename_i hsame
      rw [not_or, not_not] at hsame
      dsimp only
      split
      · exact .kept
      · rename_i hlicense
        rw [not_or, not_lt, not_le] at hlicense
        split
        · rename_i hend
          refine .cleared fun refresh' _ session' _ hrefresh' hsession' _ _ => ?_
          cases hrefresh.symm.trans hrefresh'
          cases hsession.symm.trans hsession'
          rcases hend with hend | hend
          · exact .inl ((min_le_iff.mp hend).resolve_right (not_le.mpr hlicense.2))
          · exact .inr ((min_le_iff.mp hend).resolve_right (not_le.mpr hlicense.2))
        · exact .extended hrefresh hsession hsame.1 rfl rfl rfl
  · rename_i hnot
    refine .cleared fun refresh _ session _ hrefresh hsession _ _ => ?_
    exact absurd hrefresh (hnot _ _ _ _ hsession)

/-- The command of an outbox row: one of the two scripts, or the unconditional `DEL` of a
revocation without a session and of a reconciliation that found no licence. -/
inductive CommandCases (row : OutboxRow) (now : Timestamp) (license : Option License)
    (pair : Pair) : Pair → Prop where
  | revoked {sid : Digest} {pair' : Pair} : row.operation = .revoke → row.sid = some sid →
      DeleteCases now sid pair pair' → CommandCases row now license pair pair'
  | unconditional : row.operation = .revoke ∧ row.sid = none ∨
        row.operation = .reconcile ∧ license = none →
      CommandCases row now license pair .empty
  | reconciled {current : License} {pair' : Pair} : row.operation = .reconcile →
      license = some current → ReconcileCases now row.sid current pair pair' →
      CommandCases row now license pair pair'

/-- Inversion of the command of an outbox row. -/
theorem rowCommand_cases {row : OutboxRow} {license : Option License} {pair' : Pair}
    (h : row.command now license pair = some pair') : CommandCases row now license pair pair' := by
  obtain ⟨id, userId, operation, sid, attempts, lastError, createdAt, processedAt⟩ := row
  cases operation with
  | revoke =>
    cases sid with
    | none =>
      cases h
      exact .unconditional (.inl ⟨rfl, rfl⟩)
    | some sid => exact .revoked rfl rfl (deleteIfSid_cases h)
  | reconcile =>
    cases license with
    | none =>
      cases h
      exact .unconditional (.inr ⟨rfl, rfl⟩)
    | some current =>
      cases h
      exact .reconciled rfl rfl (reconcilePair_cases sid current)

/-- An empty pair has no refresh state. -/
theorem refreshState_empty {state : RefreshState} : Pair.refreshState .empty ≠ some state :=
  Option.some_ne_none state ∘ Eq.symm

/-- A deletion leaves no other refresh key. -/
theorem DeleteCases.refreshState {sid : Digest} {pair' : Pair} {state : RefreshState}
    (h : DeleteCases now sid pair pair') (hstate : Pair.refreshState pair' = some state) :
    Pair.refreshState pair = some state := by
  cases h with
  | unseen => cases hstate
  | other => exact hstate
  | deleted => exact absurd hstate refreshState_empty

/-- The command of an outbox row writes no refresh state. -/
theorem CommandCases.refreshState {row : OutboxRow} {license : Option License} {pair' : Pair}
    {state : RefreshState} (h : CommandCases row now license pair pair')
    (hstate : Pair.refreshState pair' = some state) : Pair.refreshState pair = some state := by
  cases h with
  | revoked _ _ hdelete => exact hdelete.refreshState hstate
  | unconditional => exact absurd hstate refreshState_empty
  | reconciled _ _ hreconcile =>
    cases hreconcile with
    | kept => exact hstate
    | cleared => exact absurd hstate refreshState_empty
    | extended hrefresh =>
      unfold Pair.refreshState
      rw [redisGet_eq_some hrefresh]
      exact hstate

end

end Rsap.Proofs
