import Rsap.Proofs.Pairs

/-!
# `Rsap.Proofs.RefreshTokens`: a refresh token is accepted once

Every refresh token is in one place. It waits in the login or in the request that drew it, it is
the current one in the Redis key of its user, or it is gone. `rotate_refresh` accepts the current
token of a user and writes the one of the request in its place, so a token that was accepted does
not come back.

`Tokens` is that invariant. `NoNewTokens` says of most steps that they write no token anywhere, so
that the invariant is proved for four steps only: the start of a login, its activation, the draw
of a replacement, and the rotation.
-/

set_option autoImplicit false

namespace Rsap.Proofs

open Rsap.Desktop (Uuid Timestamp Token)
open Rsap.Library Rsap.Library.Machine
open Rsap.Webapp

/-- The refresh state in Redis. -/
def currentRefresh (w : SessionWorld) (userId : Uuid) : Option RefreshState :=
  Pair.refreshState (w.redis userId)

/-- The token was not accepted, and is not the current one of a user. -/
structure Unused (w : SessionWorld) (token : RefreshToken) : Prop where
  accepted : token ∉ w.accepted
  current : ∀ (userId : Uuid) (state : RefreshState), currentRefresh w userId = some state →
    state.jti ≠ token.jti

/-- Every refresh token is in one place. -/
structure Tokens (w : SessionWorld) : Prop where
  unique : UniqueOn RefreshToken.jti w.issued
  once : w.accepted.Nodup
  accepted : ∀ token ∈ w.accepted, token ∈ w.issued
  current : ∀ (userId : Uuid) (state : RefreshState), currentRefresh w userId = some state →
    ∃ token ∈ w.issued, token.sub = userId ∧ token.jti = state.jti ∧ token ∉ w.accepted
  login : ∀ (i : Nat) (task : LoginTask), w.logins[i]? = some task →
    task.refreshToken ∈ w.issued ∧ task.refreshToken.sub = task.userId
  logins : ∀ (i j : Nat) (task task' : LoginTask), w.logins[i]? = some task →
    w.logins[j]? = some task' → task.refreshToken = task'.refreshToken → i = j
  started : ∀ (i : Nat) (task : LoginTask), w.logins[i]? = some task → task.phase = .started →
    Unused w task.refreshToken
  request : ∀ (i : Nat) (request : SessionRequest) (token : RefreshToken),
    w.requests[i]? = some request → request.kind = .refresh token →
    token ∈ w.issued ∧ token.sub = request.userId
  replacement : ∀ (i : Nat) (request : SessionRequest) (token : RefreshToken),
    w.requests[i]? = some request → request.phase = .issued token →
    token ∈ w.issued ∧ token.sub = request.userId ∧ Unused w token
  replacements : ∀ (i j : Nat) (request request' : SessionRequest) (token : RefreshToken),
    w.requests[i]? = some request → w.requests[j]? = some request' →
    request.phase = .issued token → request'.phase = .issued token → i = j
  apart : ∀ (i j : Nat) (task : LoginTask) (request : SessionRequest) (token : RefreshToken),
    w.logins[i]? = some task → w.requests[j]? = some request → request.phase = .issued token →
    task.refreshToken ≠ token

/-- A step that writes no refresh token: what is there was there. -/
structure NoNewTokens (w w' : SessionWorld) : Prop where
  issued : w'.issued = w.issued
  accepted : w'.accepted = w.accepted
  current : ∀ (userId : Uuid) (state : RefreshState), currentRefresh w' userId = some state →
    currentRefresh w userId = some state
  logins : ∀ (i : Nat) (task' : LoginTask), w'.logins[i]? = some task' →
    ∃ task : LoginTask, w.logins[i]? = some task ∧ task'.refreshToken = task.refreshToken ∧
      task'.userId = task.userId ∧ (task'.phase = .started → task.phase = .started)
  requests : ∀ (i : Nat) (request' : SessionRequest), w'.requests[i]? = some request' →
    (∀ token, request'.kind = .refresh token → token ∈ w.issued ∧ token.sub = request'.userId) ∧
      ∀ token, request'.phase = .issued token → w.requests[i]? = some request'

section
variable {w w' : SessionWorld}

/-- A token that is not used stays so while no token is issued or stored. -/
theorem Unused.mono (h : NoNewTokens w w') {token : RefreshToken} (hunused : Unused w token) :
    Unused w' token := by
  refine ⟨?_, fun userId state hstate => hunused.current userId state (h.current _ _ hstate)⟩
  rw [h.accepted]
  exact hunused.accepted

/-- A step that writes no token keeps every token in its place. -/
theorem Tokens.mono (ht : Tokens w) (h : NoNewTokens w w') : Tokens w' := by
  -- in the order of the fields: every clause speaks of tokens that were there before
  constructor
  · rw [h.issued]
    exact ht.unique
  · rw [h.accepted]
    exact ht.once
  · rw [h.accepted, h.issued]
    exact ht.accepted
  · intro userId state hstate
    rw [h.issued, h.accepted]
    exact ht.current userId state (h.current _ _ hstate)
  · intro i task' htask'
    obtain ⟨task, htask, htoken, huser, -⟩ := h.logins i task' htask'
    rw [h.issued, htoken, huser]
    exact ht.login i task htask
  · intro i j task task' htask htask' heq
    obtain ⟨old, hold, htoken, -, -⟩ := h.logins i task htask
    obtain ⟨old', hold', htoken', -, -⟩ := h.logins j task' htask'
    exact ht.logins i j old old' hold hold' (htoken.symm.trans (heq.trans htoken'))
  · intro i task' htask' hstarted
    obtain ⟨task, htask, htoken, -, hphase⟩ := h.logins i task' htask'
    rw [htoken]
    exact (ht.started i task htask (hphase hstarted)).mono h
  · intro i request token hrequest hkind
    rw [h.issued]
    exact (h.requests i request hrequest).1 token hkind
  · intro i request token hrequest hphase
    have hold := (h.requests i request hrequest).2 token hphase
    obtain ⟨hissued, hsub, hunused⟩ := ht.replacement i request token hold hphase
    rw [h.issued]
    exact ⟨hissued, hsub, hunused.mono h⟩
  · intro i j request request' token hrequest hrequest' hphase hphase'
    exact ht.replacements i j request request' token
      ((h.requests i request hrequest).2 token hphase)
      ((h.requests j request' hrequest').2 token hphase') hphase hphase'
  · intro i j task' request token htask' hrequest hphase
    obtain ⟨task, htask, htoken, -, -⟩ := h.logins i task' htask'
    rw [htoken]
    exact ht.apart i j task request token htask ((h.requests j request hrequest).2 token hphase)
      hphase

/-! ### Steps that write no token -/

/-- Only the state of the tasks of other kinds, of the database and of Redis changed. -/
theorem NoNewTokens.of_same (ht : Tokens w) (hissued : w'.issued = w.issued)
    (haccepted : w'.accepted = w.accepted) (hlogins : w'.logins = w.logins)
    (hrequests : w'.requests = w.requests)
    (hcurrent : ∀ userId state, currentRefresh w' userId = some state →
      currentRefresh w userId = some state) : NoNewTokens w w' := by
  refine ⟨hissued, haccepted, hcurrent, ?_, ?_⟩
  · intro i task htask
    rw [hlogins] at htask
    exact ⟨task, htask, rfl, rfl, id⟩
  · intro i request hrequest
    rw [hrequests] at hrequest
    exact ⟨fun token => ht.request i request token hrequest, fun _ _ => hrequest⟩

/-- A login went on. -/
theorem NoNewTokens.of_login (ht : Tokens w) (hissued : w'.issued = w.issued)
    (haccepted : w'.accepted = w.accepted) {i : Nat} {task : LoginTask} {phase : LoginPhase}
    (htask : w.logins[i]? = some task) (hphase : phase ≠ .started)
    (hlogins : w'.logins = w.logins.set i (task.to phase)) (hrequests : w'.requests = w.requests)
    (hcurrent : ∀ userId state, currentRefresh w' userId = some state →
      currentRefresh w userId = some state) : NoNewTokens w w' := by
  refine ⟨hissued, haccepted, hcurrent, ?_, ?_⟩
  · intro j task' htask'
    rw [hlogins] at htask'
    rcases getElem?_set_cases htask' with ⟨rfl, rfl⟩ | ⟨-, hold⟩
    · exact ⟨task, htask, rfl, rfl, fun h => absurd h hphase⟩
    · exact ⟨task', hold, rfl, rfl, id⟩
  · intro j request hrequest
    rw [hrequests] at hrequest
    exact ⟨fun token => ht.request j request token hrequest, fun _ _ => hrequest⟩

/-- A request went on. -/
theorem NoNewTokens.of_request (ht : Tokens w) (hissued : w'.issued = w.issued)
    (haccepted : w'.accepted = w.accepted) {i : Nat} {request : SessionRequest}
    {phase : RequestPhase} (hrequest : w.requests[i]? = some request)
    (hphase : ∀ token, phase ≠ .issued token) (hlogins : w'.logins = w.logins)
    (hrequests : w'.requests = w.requests.set i (request.to phase))
    (hcurrent : ∀ userId state, currentRefresh w' userId = some state →
      currentRefresh w userId = some state) : NoNewTokens w w' := by
  refine ⟨hissued, haccepted, hcurrent, ?_, ?_⟩
  · intro j task htask
    rw [hlogins] at htask
    exact ⟨task, htask, rfl, rfl, id⟩
  · intro j request' hrequest'
    rw [hrequests] at hrequest'
    rcases getElem?_set_cases hrequest' with ⟨rfl, rfl⟩ | ⟨-, hold⟩
    · exact ⟨fun token => ht.request j request token hrequest,
        fun token h => absurd h (hphase token)⟩
    · exact ⟨fun token => ht.request j request' token hold, fun _ _ => hold⟩

/-- A command that writes no refresh state. -/
theorem currentRefresh_runCommand (cause : KillCause) {userId : Uuid} {pair : Pair}
    (h : ∀ state, Pair.refreshState pair = some state → currentRefresh w userId = some state)
    (other : Uuid) (state : RefreshState)
    (hstate : currentRefresh (w.runCommand userId pair cause) other = some state) :
    currentRefresh w other = some state := by
  by_cases hsame : other = userId
  · subst hsame
    refine h state ?_
    have hredis : (w.runCommand other pair cause).redis other = pair := if_pos rfl
    rw [← hredis]
    exact hstate
  · have hredis : (w.runCommand userId pair cause).redis other = w.redis other := if_neg hsame
    unfold currentRefresh at hstate ⊢
    rwa [hredis] at hstate

/-- The steps of a request that read only draw no replacement. -/
theorem RequestMoves.not_issued {settings : SessionSettings} {request : SessionRequest}
    {phase : RequestPhase} (h : RequestMoves settings w request phase) (token : RefreshToken) :
    phase ≠ .issued token := by
  cases h <;> exact fun h => RequestPhase.noConfusion h

/-! ### The way of a token -/

/-- The token waits nowhere and was not used: it is in no login that has yet to activate its pair,
in no request that has yet to rotate, and in no key. -/
structure FreeToken (w : SessionWorld) (token : RefreshToken) : Prop extends Unused w token where
  started : ∀ (i : Nat) (task : LoginTask), w.logins[i]? = some task → task.phase = .started →
    task.refreshToken ≠ token
  replacement : ∀ (i : Nat) (request : SessionRequest), w.requests[i]? = some request →
    request.phase ≠ .issued token

/-- A token that is drawn is a new one. -/
theorem fresh_ne {token : RefreshToken}
    (hfresh : token.jti ∉ w.issued.map RefreshToken.jti) {old : RefreshToken}
    (hold : old ∈ w.issued) : old ≠ token := by
  rintro rfl
  exact hfresh (List.mem_map_of_mem hold)

/-- A token with a new id has not been used. -/
theorem Tokens.fresh_unused (ht : Tokens w) {token : RefreshToken}
    (hfresh : token.jti ∉ w.issued.map RefreshToken.jti) : Unused w token := by
  refine ⟨fun haccepted => ?_, fun userId state hstate hjti => ?_⟩
  · exact fresh_ne hfresh (ht.accepted token haccepted) rfl
  · obtain ⟨old, hold, -, holdJti, -⟩ := ht.current userId state hstate
    exact hfresh (List.mem_map.mpr ⟨old, hold, holdJti.trans hjti⟩)

/-- A token is drawn. -/
theorem Tokens.draw (ht : Tokens w) {token : RefreshToken}
    (hfresh : token.jti ∉ w.issued.map RefreshToken.jti) :
    Tokens { w with issued := token :: w.issued } := by
  -- a drawn token is issued and nothing else, so only the clauses about issued tokens grow
  constructor
  · exact List.nodup_cons.mpr ⟨hfresh, ht.unique⟩
  · exact ht.once
  · exact fun other hother => List.mem_cons_of_mem _ (ht.accepted other hother)
  · intro userId state hstate
    obtain ⟨old, hold, hrest⟩ := ht.current userId state hstate
    exact ⟨old, List.mem_cons_of_mem _ hold, hrest⟩
  · intro i task htask
    obtain ⟨hissued, hsub⟩ := ht.login i task htask
    exact ⟨List.mem_cons_of_mem _ hissued, hsub⟩
  · exact ht.logins
  · intro i task htask hphase
    exact ⟨(ht.started i task htask hphase).accepted, (ht.started i task htask hphase).current⟩
  · intro i request other hrequest hkind
    obtain ⟨hissued, hsub⟩ := ht.request i request other hrequest hkind
    exact ⟨List.mem_cons_of_mem _ hissued, hsub⟩
  · intro i request other hrequest hphase
    obtain ⟨hissued, hsub, hunused⟩ := ht.replacement i request other hrequest hphase
    exact ⟨List.mem_cons_of_mem _ hissued, hsub, hunused.accepted, hunused.current⟩
  · exact ht.replacements
  · exact ht.apart

/-- A login starts with the token that it drew. -/
theorem Tokens.start (ht : Tokens w) {userId : Uuid} (sessionToken : Token) {token : RefreshToken}
    (hissued : token ∈ w.issued) (hsub : token.sub = userId) (hfree : FreeToken w token)
    (hlogins : ∀ task ∈ w.logins, task.refreshToken ≠ token) :
    Tokens { w with logins := w.logins ++ [⟨userId, sessionToken, token, .started⟩] } := by
  -- no login has this token yet
  have hother : ∀ {i : Nat} {task : LoginTask}, w.logins[i]? = some task →
      task.refreshToken ≠ token := fun htask => hlogins _ (List.mem_of_getElem? htask)
  -- the new login is the last one in the list
  constructor
  · exact ht.unique
  · exact ht.once
  · exact ht.accepted
  · exact ht.current
  · intro i task htask
    rcases getElem?_append_cases htask with hold | ⟨-, rfl⟩
    · exact ht.login i task hold
    · exact ⟨hissued, hsub⟩
  · intro i j task task' htask htask' heq
    rcases getElem?_append_cases htask with hold | ⟨hi, rfl⟩
    · rcases getElem?_append_cases htask' with hold' | ⟨-, rfl⟩
      · exact ht.logins i j task task' hold hold' heq
      · exact absurd heq (hother hold)
    · rcases getElem?_append_cases htask' with hold' | ⟨hj, -⟩
      · exact absurd heq.symm (hother hold')
      · exact hi.trans hj.symm
  · intro i task htask hphase
    rcases getElem?_append_cases htask with hold | ⟨-, rfl⟩
    · exact ⟨(ht.started i task hold hphase).accepted, (ht.started i task hold hphase).current⟩
    · exact ⟨hfree.accepted, hfree.current⟩
  · exact ht.request
  · intro i request other hrequest hphase
    obtain ⟨hissued', hsub', hunused⟩ := ht.replacement i request other hrequest hphase
    exact ⟨hissued', hsub', hunused.accepted, hunused.current⟩
  · exact ht.replacements
  · intro i j task request other htask hrequest hphase
    rcases getElem?_append_cases htask with hold | ⟨-, rfl⟩
    · exact ht.apart i j task request other hold hrequest hphase
    · rintro rfl
      exact hfree.replacement j request hrequest hphase

/-- A request has drawn its replacement. -/
theorem Tokens.replace (ht : Tokens w) {i : Nat} {request : SessionRequest} {token : RefreshToken}
    (hrequest : w.requests[i]? = some request) (hissued : token ∈ w.issued)
    (hsub : token.sub = request.userId) (hfree : FreeToken w token)
    (hlogins : ∀ task ∈ w.logins, task.refreshToken ≠ token) :
    Tokens (w.setRequest i (request.to (.issued token))) := by
  -- the token is now in the hands of one request, which was in no hands before
  constructor
  · exact ht.unique
  · exact ht.once
  · exact ht.accepted
  · exact ht.current
  · exact ht.login
  · exact ht.logins
  · intro j task htask hphase
    exact ⟨(ht.started j task htask hphase).accepted, (ht.started j task htask hphase).current⟩
  · intro j request' other hrequest' hkind
    -- the request that draws, or another one
    rcases getElem?_set_cases hrequest' with ⟨rfl, rfl⟩ | ⟨-, hold⟩
    · exact ht.request j request other hrequest hkind
    · exact ht.request j request' other hold hkind
  · intro j request' other hrequest' hphase
    rcases getElem?_set_cases hrequest' with ⟨rfl, rfl⟩ | ⟨-, hold⟩
    · cases hphase
      exact ⟨hissued, hsub, hfree.accepted, hfree.current⟩
    · obtain ⟨hissued', hsub', hunused⟩ := ht.replacement j request' other hold hphase
      exact ⟨hissued', hsub', hunused.accepted, hunused.current⟩
  · intro j k request' request'' other hrequest' hrequest'' hphase hphase'
    rcases getElem?_set_cases hrequest' with ⟨rfl, rfl⟩ | ⟨-, hold⟩
    · cases hphase
      rcases getElem?_set_cases hrequest'' with ⟨rfl, -⟩ | ⟨-, hold'⟩
      · rfl
      · exact absurd hphase' (hfree.replacement k request'' hold')
    · rcases getElem?_set_cases hrequest'' with ⟨rfl, rfl⟩ | ⟨-, hold'⟩
      · cases hphase'
        exact absurd hphase (hfree.replacement j request' hold)
      · exact ht.replacements j k request' request'' other hold hold' hphase hphase'
  · intro j k task request' other htask hrequest' hphase
    rcases getElem?_set_cases hrequest' with ⟨rfl, rfl⟩ | ⟨-, hold⟩
    · cases hphase
      exact hlogins task (List.mem_of_getElem? htask)
    · exact ht.apart j k task request' other htask hold hphase

/-- A token is accepted. -/
theorem Tokens.accept (ht : Tokens w) {token : RefreshToken} (hissued : token ∈ w.issued)
    (hfree : FreeToken w token) : Tokens { w with accepted := token :: w.accepted } := by
  -- another token stays unused
  have hkeep : ∀ {other : RefreshToken}, Unused w other → other ≠ token →
      Unused { w with accepted := token :: w.accepted } other := by
    intro other hunused hne
    refine ⟨fun hmem => ?_, hunused.current⟩
    rcases List.mem_cons.mp hmem with heq | hold
    · exact hne heq
    · exact hunused.accepted hold
  -- the token is accepted once, and it is the current one of nobody any more
  constructor
  · exact ht.unique
  · exact List.nodup_cons.mpr ⟨hfree.accepted, ht.once⟩
  · intro other hother
    rcases List.mem_cons.mp hother with rfl | hold
    · exact hissued
    · exact ht.accepted other hold
  · intro userId state hstate
    obtain ⟨other, hother, hsub, hjti, hnot⟩ := ht.current userId state hstate
    refine ⟨other, hother, hsub, hjti, fun hmem => ?_⟩
    rcases List.mem_cons.mp hmem with rfl | hold
    · exact hfree.current userId state hstate hjti.symm
    · exact hnot hold
  · exact ht.login
  · exact ht.logins
  · intro i task htask hphase
    exact hkeep (ht.started i task htask hphase) (hfree.started i task htask hphase)
  · exact ht.request
  · intro i request other hrequest hphase
    obtain ⟨hissued', hsub, hunused⟩ := ht.replacement i request other hrequest hphase
    refine ⟨hissued', hsub, hkeep hunused ?_⟩
    rintro rfl
    exact hfree.replacement i request hrequest hphase
  · exact ht.replacements
  · exact ht.apart

/-- A token becomes the current one of its user. -/
theorem Tokens.setCurrent (ht : Tokens w) {token : RefreshToken} {userId : Uuid}
    (hissued : token ∈ w.issued) (hsub : token.sub = userId)
    (hfree : FreeToken w token) {pair : Pair}
    {state : RefreshState} (hpair : Pair.refreshState pair = some state)
    (hjti : state.jti = token.jti) : Tokens (w.setPair userId pair) := by
  -- what a key holds now: the token under its user, and what it held elsewhere
  have hread : ∀ (other : Uuid) (state' : RefreshState),
      currentRefresh (w.setPair userId pair) other = some state' →
      other = userId ∧ state' = state ∨ currentRefresh w other = some state' := by
    intro other state' hstate'
    by_cases hsame : other = userId
    · have hredis : (w.setPair userId pair).redis other = pair := if_pos hsame
      unfold currentRefresh at hstate'
      rw [hredis, hpair] at hstate'
      exact .inl ⟨hsame, (Option.some.inj hstate').symm⟩
    · have hredis : (w.setPair userId pair).redis other = w.redis other := if_neg hsame
      unfold currentRefresh at hstate' ⊢
      rw [hredis] at hstate'
      exact .inr hstate'
  have hkeep : ∀ {other : RefreshToken}, other ∈ w.issued → Unused w other → other ≠ token →
      Unused (w.setPair userId pair) other := by
    intro other hother hunused hne
    refine ⟨hunused.accepted, fun user state' hstate' => ?_⟩
    rcases hread user state' hstate' with ⟨-, rfl⟩ | hold
    · intro heq
      exact hne (ht.unique.eq hother hissued (heq.symm.trans hjti))
    · exact hunused.current user state' hold
  constructor
  · exact ht.unique
  · exact ht.once
  · exact ht.accepted
  · intro user state' hstate'
    rcases hread user state' hstate' with ⟨rfl, rfl⟩ | hold
    · exact ⟨token, hissued, hsub, hjti.symm, hfree.accepted⟩
    · exact ht.current user state' hold
  · exact ht.login
  · exact ht.logins
  · intro i task htask hphase
    exact hkeep (ht.login i task htask).1 (ht.started i task htask hphase)
      (hfree.started i task htask hphase)
  · exact ht.request
  · intro i request other hrequest hphase
    obtain ⟨hissued', hsub', hunused⟩ := ht.replacement i request other hrequest hphase
    refine ⟨hissued', hsub', hkeep hissued' hunused ?_⟩
    rintro rfl
    exact hfree.replacement i request hrequest hphase
  · exact ht.replacements
  · exact ht.apart

end

/-! ### The steps -/

section
variable {settings : SessionSettings} {w w' : SessionWorld} {a : SessionAct}

/-- A login issues its first token with a new id. -/
theorem tokens_login (ht : Tokens w) {userId : Uuid} {sessionToken : Token} {jti : Uuid}
    {token : RefreshToken} (hfresh : jti ∉ w.issued.map RefreshToken.jti)
    (htoken : token = settings.issue w.now userId (settings.sha256 sessionToken) jti) :
    Tokens { w with
      drawn := sessionToken :: w.drawn
      issued := token :: w.issued
      logins := w.logins ++ [⟨userId, sessionToken, token, .started⟩] } := by
  subst htoken
  set token := settings.issue w.now userId (settings.sha256 sessionToken) jti with htoken
  -- the id is fresh, so the token differs from all that were issued
  have hnew : token.jti ∉ w.issued.map RefreshToken.jti := hfresh
  have hdrawn := ht.draw hnew
  have hunused := ht.fresh_unused hnew
  have hlogins : ∀ task ∈ w.logins, task.refreshToken ≠ token := by
    intro task htask
    obtain ⟨i, hi⟩ := List.mem_iff_getElem?.mp htask
    exact fresh_ne hnew (ht.login i task hi).1
  -- nobody else holds it
  have hfree : FreeToken { w with issued := token :: w.issued } token := by
    refine ⟨⟨hunused.accepted, hunused.current⟩, ?_, ?_⟩
    · intro i task htask _
      exact hlogins task (List.mem_of_getElem? htask)
    · intro i request hrequest hphase
      exact fresh_ne hnew (ht.replacement i request token hrequest hphase).1 rfl
  have hstarted := hdrawn.start sessionToken List.mem_cons_self rfl hfree hlogins
  exact hstarted.mono (.of_same hstarted rfl rfl rfl rfl fun _ _ h => h)

/-- An activation stores the token of its login. -/
theorem tokens_activated (ht : Tokens w) {i : Nat} {task : LoginTask} {license : License}
    {phase : LoginPhase} (htask : w.logins[i]? = some task) (hphase : task.phase = .started)
    (hmoved : phase ≠ .started) :
    Tokens ((w.setPair task.userId (task.pair settings license)).setLogin i (task.to phase)) := by
  have hunused := ht.started i task htask hphase
  obtain ⟨hissued, hsub⟩ := ht.login i task htask
  have hlogin : NoNewTokens w (w.setLogin i (task.to phase)) :=
    .of_login ht rfl rfl htask hmoved rfl rfl fun _ _ h => h
  have hfree : FreeToken (w.setLogin i (task.to phase)) task.refreshToken := by
    refine ⟨hunused.mono hlogin, ?_, ?_⟩
    · intro j other hother hstarted heq
      rcases getElem?_set_cases hother with ⟨-, rfl⟩ | ⟨hne, hold⟩
      · exact hmoved hstarted
      · exact hne (ht.logins j i other task hold htask heq)
    · intro j request hrequest hissued'
      exact ht.apart i j task request task.refreshToken htask hrequest hissued' rfl
  exact (ht.mono hlogin).setCurrent hissued hsub hfree rfl rfl

/-- A refresh issues its token with a new id. -/
theorem tokens_issued (ht : Tokens w) {i : Nat} {jti : Uuid} {request : SessionRequest}
    {token replacement : RefreshToken} (hrequest : w.requests[i]? = some request)
    (hfresh : jti ∉ w.issued.map RefreshToken.jti)
    (hreplacement : replacement = settings.issue w.now request.userId token.sid jti) :
    Tokens ({ w with issued := replacement :: w.issued
      }.setRequest i (request.to (.issued replacement))) := by
  subst hreplacement
  set replacement := settings.issue w.now request.userId token.sid jti with hreplacement
  have hnew : replacement.jti ∉ w.issued.map RefreshToken.jti := hfresh
  have hunused := ht.fresh_unused hnew
  have hlogins : ∀ task ∈ w.logins, task.refreshToken ≠ replacement := by
    intro task htask
    obtain ⟨j, hj⟩ := List.mem_iff_getElem?.mp htask
    exact fresh_ne hnew (ht.login j task hj).1
  have hfree : FreeToken { w with issued := replacement :: w.issued } replacement := by
    refine ⟨⟨hunused.accepted, hunused.current⟩, ?_, ?_⟩
    · intro j task htask _
      exact hlogins task (List.mem_of_getElem? htask)
    · intro j other hother hphase
      exact fresh_ne hnew (ht.replacement j other replacement hother hphase).1 rfl
  exact (ht.draw hnew).replace hrequest List.mem_cons_self rfl hfree hlogins

/-- The phases of a request after its rotation. -/
theorem rotate_phase (lost rotated : Bool) (token : RefreshToken) :
    (if lost then RequestPhase.answered .raised else if rotated then .answered .rotated
      else .unrotated) ≠ .issued token := by
  cases lost <;> cases rotated <;> exact fun h => RequestPhase.noConfusion h

/-- A rotation stores the token that its request issued. -/
theorem tokens_rotated (ht : Tokens w) {i : Nat} {lost : Bool} {request : SessionRequest}
    {token replacement : RefreshToken} (hrequest : w.requests[i]? = some request)
    (hphase : request.phase = .issued replacement) (hkind : request.kind = .refresh token) :
    Tokens (w.rotate settings i request token replacement lost) := by
  unfold SessionWorld.rotate
  have hcases : RotateCases w.now token.jti token.sid (replacement.state settings)
      (w.redis request.userId) _ := rotateRefresh_cases (settings.refreshHash token) _ _ _
  generalize rotateRefresh w.now (settings.refreshHash token) token.jti token.sid
    (replacement.state settings) (w.redis request.userId) = result at hcases
  cases hcases with
  | refused =>
    refine ht.mono (.of_request ht rfl rfl hrequest (rotate_phase lost false) rfl rfl ?_)
    exact currentRefresh_runCommand .rotation fun _ h => h
  | cleared =>
    refine ht.mono (.of_request ht rfl rfl hrequest (rotate_phase lost false) rfl rfl ?_)
    exact currentRefresh_runCommand .rotation fun _ h => absurd h refreshState_empty
  | @rotated refresh session refreshAt sessionAt hrefresh hsession hjti hsid
      hsession_sid hnew_sid =>
    have hcurrent : currentRefresh w request.userId = some refresh := by
      unfold currentRefresh Pair.refreshState
      rw [redisGet_eq_some hrefresh]
      rfl
    obtain ⟨hissued, hsub⟩ := ht.request i request token hrequest hkind
    obtain ⟨hnew, hnewSub, hunused⟩ := ht.replacement i request replacement hrequest hphase
    -- the accepted token is the current one, so it waits nowhere and was not accepted before
    have hnot : token ∉ w.accepted := by
      obtain ⟨old, hold, -, holdJti, hnot⟩ := ht.current request.userId refresh hcurrent
      rwa [ht.unique.eq hold hissued (holdJti.trans hjti)] at hnot
    have hother : ∀ userId state, userId ≠ request.userId → currentRefresh w userId = some state →
        state.jti ≠ token.jti := by
      intro userId state hne hstate heq
      obtain ⟨old, hold, holdSub, holdJti, -⟩ := ht.current userId state hstate
      rw [ht.unique.eq hold hissued (holdJti.trans heq)] at holdSub
      exact hne (holdSub.symm.trans hsub)
    -- first the request goes on and its key is deleted
    let phase := if lost then RequestPhase.answered .raised else .answered .rotated
    have hmoved : NoNewTokens w ((w.setPair request.userId .empty).setRequest i
        (request.to phase)) := by
      refine .of_request ht rfl rfl hrequest (rotate_phase lost true) rfl rfl ?_
      exact currentRefresh_runCommand .rotation fun _ h => absurd h refreshState_empty
    have hfree : FreeToken ((w.setPair request.userId .empty).setRequest i (request.to phase))
        token := by
      refine ⟨⟨hnot, ?_⟩, ?_, ?_⟩
      · intro userId state hstate
        refine hother userId state ?_ (hmoved.current userId state hstate)
        rintro rfl
        unfold currentRefresh at hstate
        have hredis : ((w.setPair request.userId .empty).setRequest i
          (request.to phase)).redis request.userId = .empty := if_pos rfl
        rw [hredis] at hstate
        exact refreshState_empty hstate
      · rintro j task htask hstarted rfl
        exact (ht.started j task htask hstarted).current request.userId refresh hcurrent hjti
      · intro j other hrequest' hissued'
        rcases getElem?_set_cases hrequest' with ⟨rfl, rfl⟩ | ⟨-, hold⟩
        · exact rotate_phase lost true token hissued'
        · exact (ht.replacement j other token hold hissued').2.2.current request.userId refresh
            hcurrent hjti
    -- then its token is accepted, and the replacement becomes the current one
    have haccepted := (ht.mono hmoved).accept hissued hfree
    have hfree' : FreeToken { (w.setPair request.userId .empty).setRequest i (request.to phase) with
        accepted := token :: w.accepted } replacement := by
      refine ⟨⟨fun hmem => ?_, (hunused.mono hmoved).current⟩, ?_, ?_⟩
      · rcases List.mem_cons.mp hmem with rfl | hold
        · exact hunused.current request.userId refresh hcurrent hjti
        · exact hunused.accepted hold
      · intro j task htask hstarted
        exact ht.apart j i task request replacement htask hrequest hphase
      · intro j other hrequest' hissued'
        rcases getElem?_set_cases hrequest' with ⟨rfl, rfl⟩ | ⟨hne, hold⟩
        · exact rotate_phase lost true replacement hissued'
        · exact hne (ht.replacements j i other request replacement hold hrequest hissued' hphase)
    let pair := activateSession
      { session with refreshExpiresAt := (replacement.state settings).refreshExpiresAt }
      (replacement.state settings) (min session.sessionExpiresAt session.licenseExpiresAt)
      (min (replacement.state settings).refreshExpiresAt session.licenseExpiresAt)
    have hpair : Pair.refreshState pair = some (replacement.state settings) := rfl
    have hset := haccepted.setCurrent hnew hnewSub hfree' hpair rfl
    refine hset.mono (.of_same hset rfl rfl rfl rfl fun userId state hstate => ?_)
    by_cases hsame : userId = request.userId
    · subst hsame
      unfold currentRefresh at hstate ⊢
      refine Eq.trans (congrArg Pair.refreshState (if_pos rfl)) ?_
      exact Eq.trans (congrArg Pair.refreshState (if_pos rfl)).symm hstate
    · unfold currentRefresh at hstate ⊢
      refine Eq.trans (congrArg Pair.refreshState ((if_neg hsame).trans (if_neg hsame))) ?_
      exact Eq.trans (congrArg Pair.refreshState (if_neg hsame)).symm hstate

/-- Every step keeps every refresh token in one place. -/
theorem tokens_step (ht : Tokens w) (h : SessionCases settings w a w') : Tokens w' := by
  -- only logins, refreshes and their rotation handle tokens, and the other steps keep or delete
  -- pairs
  cases h with
  | tick => exact ht.mono (.of_same ht rfl rfl rfl rfl fun _ _ h => h)
  | login _ hfresh htoken => exact tokens_login ht hfresh htoken
  | loginMoved htask hphase =>
    refine ht.mono (.of_login ht rfl rfl htask ?_ rfl rfl fun _ _ h => h)
    rcases hphase with rfl | rfl <;> exact fun h => LoginPhase.noConfusion h
  | activated htask hstarted _ _ hphase =>
    refine tokens_activated ht htask hstarted ?_
    rcases hphase with rfl | rfl <;> exact fun h => LoginPhase.noConfusion h
  | committed htask _ _ hphase =>
    refine ht.mono (.of_login ht rfl rfl htask ?_ rfl rfl fun _ _ h => h)
    rcases hphase with rfl | rfl <;> exact fun h => LoginPhase.noConfusion h
  | compensated htask _ hdelete =>
    refine ht.mono (.of_login ht rfl rfl htask (fun h => LoginPhase.noConfusion h) rfl rfl ?_)
    exact currentRefresh_runCommand .compensation
      fun _ h => (deleteIfSid_cases hdelete).refreshState h
  | @requested userId sessionToken kind hgenuine =>
    refine ht.mono ⟨rfl, rfl, fun _ _ h => h, fun _ task htask => ⟨task, htask, rfl, rfl, id⟩, ?_⟩
    intro i request hrequest
    rcases getElem?_append_cases hrequest with hold | ⟨-, rfl⟩
    · exact ⟨fun token => ht.request i request token hold, fun _ _ => hold⟩
    · exact ⟨hgenuine, fun _ h => RequestPhase.noConfusion h⟩
  | requestMoved hrequest hmoves =>
    exact ht.mono (.of_request ht rfl rfl hrequest hmoves.not_issued rfl rfl fun _ _ h => h)
  | closed hrequest _ =>
    exact ht.mono (.of_request ht rfl rfl hrequest (fun _ h => RequestPhase.noConfusion h) rfl rfl
      fun _ _ h => h)
  | issued hrequest _ _ hfresh hreplacement => exact tokens_issued ht hrequest hfresh hreplacement
  | rotated hrequest hphase hkind => exact tokens_rotated ht hrequest hphase hkind
  | admin => exact ht.mono (.of_same ht rfl rfl rfl rfl fun _ _ h => h)
  | adminRaised => exact ht
  | fetched => exact ht.mono (.of_same ht rfl rfl rfl rfl fun _ _ h => h)
  | passMoved => exact ht.mono (.of_same ht rfl rfl rfl rfl fun _ _ h => h)
  | updated => exact ht.mono (.of_same ht rfl rfl rfl rfl fun _ _ h => h)
  -- a command of the outbox deletes a pair or changes its end, never its token
  | commanded _ _ hcommand =>
    refine ht.mono (.of_same ht rfl rfl rfl rfl ?_)
    exact currentRefresh_runCommand .rotation fun _ h => (rowCommand_cases hcommand).refreshState h
  | marked => exact ht.mono (.of_same ht rfl rfl rfl rfl fun _ _ h => h)
  | passEnded => exact ht.mono (.of_same ht rfl rfl rfl rfl fun _ _ h => h)

/-- Every refresh token of a reachable state is in one place. -/
theorem tokens_reachable {db : Database} {now : Timestamp}
    (h : Reachable (sessionMachine settings db now) Any w) : Tokens w := by
  refine h.invariant (I := Tokens) ?_ fun s a s' _ _ hstep ht =>
    tokens_step ht (session_cases hstep)
  constructor
  · exact .nil
  · exact List.nodup_nil
  · exact fun token h => absurd h List.not_mem_nil
  · exact fun userId state h => absurd h refreshState_empty
  all_goals
    intros
    simp_all [sessionMachine]

end

end Rsap.Proofs
