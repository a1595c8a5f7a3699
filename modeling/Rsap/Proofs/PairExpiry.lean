import Rsap.Proofs.RefreshReplay

/-!
# `Rsap.Proofs.PairExpiry`: the two keys of a session expire together

A visible session key has its refresh key beside it. Both decode, they belong to one session, and
the refresh key lasts at least as long (`Aligned`). So the scripts take their branches for a
missing or a broken key only when the session is already gone.

The refresh key of a rotation lasts until the replacement does, at most. The replacement was
issued after the login of its session, and all refresh tokens live equally long, so it outlasts
the session (`Lasting`).
-/

set_option autoImplicit false

namespace Rsap.Proofs

open Rsap.Desktop (Uuid Timestamp Token)
open Rsap.Library Rsap.Library.Machine
open Rsap.Webapp

/-- A visible session has its refresh key, and the refresh key lasts at least as long. The session
key lasts no longer than the session and its licence. -/
def Aligned (now : Timestamp) (pair : Pair) : Prop :=
  ∀ entry, redisGet now pair.session = some entry → ∃ session refresh refreshAt,
    entry.value = some session ∧ pair.refresh = some ⟨some refresh, refreshAt⟩ ∧
      session.sid = refresh.sid ∧ entry.expireAt ≤ refreshAt ∧
      entry.expireAt ≤ min session.sessionExpiresAt session.licenseExpiresAt ∧
      session.sessionExpiresAt ≤ refresh.refreshExpiresAt

/-- The stored session, if any, is one that was stored. -/
def SameSession (pair pair' : Pair) : Prop :=
  ∀ entry' session', pair'.session = some entry' → entry'.value = some session' →
    ∃ entry session, pair.session = some entry ∧ entry.value = some session ∧
      session'.sid = session.sid ∧ session'.sessionExpiresAt = session.sessionExpiresAt

/-- The session ends before every refresh token of it, also before one that is issued now. -/
structure Lasting (settings : SessionSettings) (w : SessionWorld) (sid : Digest)
    (sessionExpiresAt : Nat) : Prop where
  issued : ∀ token ∈ w.issued, token.sid = sid → sessionExpiresAt ≤ token.exp
  next : sessionExpiresAt ≤ seconds (w.now + settings.refreshExpire)

/-- The keys of every user expire together. -/
structure PairsFit (settings : SessionSettings) (w : SessionWorld) : Prop where
  coherent : ∀ userId, Aligned w.now (w.redis userId)
  lasting : ∀ (userId : Uuid) (entry : Entry SessionState) (session : SessionState),
    (w.redis userId).session = some entry → entry.value = some session →
    Lasting settings w session.sid session.sessionExpiresAt
  owner : ∀ (userId : Uuid) (entry : Entry SessionState) (session : SessionState),
    (w.redis userId).session = some entry → entry.value = some session →
    ∃ (i : Nat) (task : LoginTask), w.logins[i]? = some task ∧
      session.sid = settings.sha256 task.sessionToken ∧ task.phase ≠ .started
  login : ∀ (i : Nat) (task : LoginTask), w.logins[i]? = some task →
    Lasting settings w task.refreshToken.sid task.refreshToken.exp
  issued : ∀ token ∈ w.issued, ∃ sessionToken ∈ w.drawn, token.sid = settings.sha256 sessionToken

/-! ### Time -/

/-- Whole seconds grow with the time. -/
theorem seconds_mono {s t : Nat} (h : s ≤ t) : seconds s ≤ seconds t := Nat.div_le_div_right h

/-- A key that is visible was visible before. -/
theorem redisGet_mono {α : Type} {now now' : Nat} (hle : now ≤ now') {key : Option (Entry α)}
    {entry : Entry α} (h : redisGet now' key = some entry) : redisGet now key = some entry := by
  unfold redisGet at h ⊢
  obtain ⟨hkey, hvisible⟩ := Option.filter_eq_some_iff.mp h
  refine Option.filter_eq_some_iff.mpr ⟨hkey, ?_⟩
  have hlater : now' / 1000 ≤ entry.expireAt * 1000 := of_decide_eq_true hvisible
  have hdiv : now / 1000 ≤ now' / 1000 := Nat.div_le_div_right hle
  exact decide_eq_true (hdiv.trans hlater)

/-- A key that lasts longer than a visible one is visible. -/
theorem redisGet_later {α β : Type} {now : Nat} {key : Option (Entry α)} {entry : Entry α}
    (h : redisGet now key = some entry) {later : Entry β} (hle : entry.expireAt ≤ later.expireAt) :
    redisGet now (some later) = some later := by
  unfold redisGet at h ⊢
  obtain ⟨-, hvisible⟩ := Option.filter_eq_some_iff.mp h
  refine Option.filter_eq_some_iff.mpr ⟨rfl, ?_⟩
  have hnow : now / 1000 ≤ entry.expireAt * 1000 := of_decide_eq_true hvisible
  exact decide_eq_true (hnow.trans (Nat.mul_le_mul_right 1000 hle))

section
variable {settings : SessionSettings} {w w' : SessionWorld} {now : Timestamp} {pair pair' : Pair}

/-- A pair that is aligned stays so as time passes. -/
theorem Aligned.mono {now' : Timestamp} (h : Aligned now pair) (hle : now ≤ now') :
    Aligned now' pair :=
  fun entry hentry => h entry (redisGet_mono hle hentry)

/-- Without keys there is nothing to align. -/
theorem Aligned.empty : Aligned now .empty := fun _ h => absurd h (by simp [redisGet, Pair.empty])

/-- The session is the one that was stored. -/
theorem SameSession.rfl : SameSession pair pair :=
  fun entry session hentry hsession => ⟨entry, session, hentry, hsession, Eq.refl _, Eq.refl _⟩

/-- No session is stored. -/
theorem SameSession.empty : SameSession pair .empty := fun _ _ h => absurd h (by simp [Pair.empty])

/-- What a coherent pair tells a script that finds the session: it finds the refresh key too. -/
theorem Aligned.both (h : Aligned now pair) {entry : Entry SessionState}
    (hsession : redisGet now pair.session = some entry) : ∃ session refresh refreshAt,
      entry.value = some session ∧ redisGet now pair.refresh = some ⟨some refresh, refreshAt⟩ ∧
        session.sid = refresh.sid ∧
        entry.expireAt ≤ min session.sessionExpiresAt session.licenseExpiresAt ∧
        session.sessionExpiresAt ≤ refresh.refreshExpiresAt := by
  obtain ⟨session, refresh, refreshAt, hvalue, hrefresh, hsid, hlater, hexpiry, hle⟩ :=
    h entry hsession
  refine ⟨session, refresh, refreshAt, hvalue, ?_, hsid, hexpiry, hle⟩
  rw [hrefresh]
  exact redisGet_later hsession hlater

/-! ### The scripts -/

/-- A script keeps a pair coherent, and stores no session that was not stored. -/
structure PairKept (now : Timestamp) (pair pair' : Pair) : Prop where
  coherent : Aligned now pair'
  session : SameSession pair pair'

/-- Deleting the pair keeps it coherent. -/
theorem PairKept.empty : PairKept now pair .empty := ⟨.empty, .empty⟩

/-- A session that ends before its tokens does so at any later time. -/
theorem Lasting.mono {sid : Digest} {expiry : Nat} (h : Lasting settings w sid expiry)
    (hissued : w'.issued = w.issued) (hnow : w.now ≤ w'.now) :
    Lasting settings w' sid expiry := by
  refine ⟨?_, h.next.trans (seconds_mono (Nat.add_le_add_right hnow _))⟩
  rw [hissued]
  exact h.issued

/-- A token that is issued now outlasts every session. -/
theorem Lasting.issue {sid : Digest} {expiry : Nat} (h : Lasting settings w sid expiry)
    {token : RefreshToken} (htoken : token.exp = seconds (w.now + settings.refreshExpire))
    (hissued : w'.issued = token :: w.issued) (hnow : w'.now = w.now) :
    Lasting settings w' sid expiry := by
  refine ⟨fun other hother hsid => ?_, hnow ▸ h.next⟩
  rw [hissued] at hother
  rcases List.mem_cons.mp hother with rfl | hold
  · rw [htoken]
    exact h.next
  · exact h.issued other hold hsid

/-- The invariant over a step that issues no token and activates no login. -/
theorem PairsFit.mono (hp : PairsFit settings w) (hnow : w.now ≤ w'.now)
    (hissued : w'.issued = w.issued) (hdrawn : w'.drawn = w.drawn) (hlogins : LoginsKept w w')
    (hredis : ∀ userId, PairKept w.now (w.redis userId) (w'.redis userId)) :
    PairsFit settings w' := by
  constructor
  · exact fun userId => (hredis userId).coherent.mono hnow
  · intro userId entry' session' hentry' hsession'
    obtain ⟨entry, session, hentry, hsession, hsid, hexpires⟩ :=
      (hredis userId).session entry' session' hentry' hsession'
    rw [hsid, hexpires]
    exact (hp.lasting userId entry session hentry hsession).mono hissued hnow
  · intro userId entry' session' hentry' hsession'
    obtain ⟨entry, session, hentry, hsession, hsid, -⟩ :=
      (hredis userId).session entry' session' hentry' hsession'
    obtain ⟨i, task, htask, howner, hphase⟩ := hp.owner userId entry session hentry hsession
    rw [hsid]
    rcases hlogins i with heq | ⟨other, phase, hother, hset, hsettled⟩
    · exact ⟨i, task, heq.trans htask, howner, hphase⟩
    · cases hother.symm.trans htask
      refine ⟨i, _, hset, howner, ?_⟩
      rcases hsettled with rfl | rfl <;> exact fun h => LoginPhase.noConfusion h
  · intro i task' htask'
    obtain ⟨task, htask, -, -, hrefresh, -⟩ := hlogins.back htask'
    rw [hrefresh]
    exact (hp.login i task htask).mono hissued hnow
  · rw [hissued, hdrawn]
    exact hp.issued

end

end Rsap.Proofs
