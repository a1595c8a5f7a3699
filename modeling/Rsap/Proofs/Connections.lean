import Rsap.Webapp.Connections

/-!
# `Rsap.Proofs.Connections`: the live websockets of a user

A websocket of a user is live when `connect` accepted it and it was neither closed by the manager
nor disconnected. `connect` closes what it takes out of `connections`, and `accept` returns in the
stretch that registers. So a live websocket gets lost only when a second registration overwrites
it: two calls of `connect` overlap, none of them sees the other's websocket, and both are accepted.

`Vacant` is the state before `accept` returns in which this does not happen. `live_registered` says
that in runs with this condition a live websocket is the registered one, and that a step against the
condition loses one. Calls of `connect` that do not overlap meet the condition (`vacant_of_alone`).
-/

set_option autoImplicit false

namespace Rsap.Proofs

open Rsap.Library
open Rsap.Library.Machine (Reachable Any)
open Rsap.Webapp

/-- `connect` accepted the websocket for the user. -/
def Accepted (w : ConnectionWorld) (userId : String) (websocket : Nat) : Prop :=
  ⟨userId, websocket, .connected⟩ ∈ w.calls

instance Accepted.decidable (w : ConnectionWorld) (userId : String) (websocket : Nat) :
    Decidable (Accepted w userId websocket) :=
  inferInstanceAs (Decidable (_ ∈ w.calls))

/-- The websocket was accepted, and neither closed by the manager nor disconnected. -/
structure Live (w : ConnectionWorld) (userId : String) (websocket : Nat) : Prop where
  accepted : Accepted w userId websocket
  opened : websocket ∉ w.closed
  attached : (userId, websocket) ∉ w.disconnected

/-- A live websocket of the user is registered, or a `close_all` has it. -/
def LiveRegistered (userId : String) (w : ConnectionWorld) : Prop :=
  ∀ websocket, Live w userId websocket → w.connections.lookup userId = some websocket ∨
    ∃ rest ∈ w.closings, websocket ∈ rest

/-- The call is suspended at one of its `await`s. -/
def InProgress (call : ConnectCall) : Prop := call.stage = .closing ∨ call.stage = .accepting

/-- No `connect` of the user and no `close_all` is in progress. -/
structure NoneInProgress (w : ConnectionWorld) (userId : String) : Prop where
  calls : ∀ call ∈ w.calls, call.userId = userId → ¬ InProgress call
  closings : ∀ rest ∈ w.closings, rest = []

/-- When `accept` of the user returns, no live websocket of the user is registered. -/
def Vacant (userId : String) (w : ConnectionWorld) (act : ConnectionAct) : Prop :=
  ∀ i websocket, act = .resume i true → w.calls[i]? = some ⟨userId, websocket, .accepting⟩ →
    ∀ registered, w.connections.lookup userId = some registered → ¬ Live w userId registered

section Steps
variable {w w' : ConnectionWorld} {userId : String} {websocket : Nat}

/-- A new call is not over. -/
theorem accepted_connect {u : String} {s : Nat}
    (h : Accepted (w.connect u s) userId websocket) : Accepted w userId websocket := by
  unfold Accepted ConnectionWorld.connect at *
  split at h <;> simpa using h

/-- `connect` closes the websocket that was registered. -/
theorem closed_connect (u : String) (s : Nat) :
    (w.connect u s).closed = w.closed ++ (w.connections.lookup u).toList := by
  unfold ConnectionWorld.connect
  split <;> rename_i h <;> simp [h]

/-- `connect` removes the entry of its user before it waits. -/
theorem lookup_connect (u : String) (s : Nat) : (w.connect u s).connections.lookup userId =
    if userId = u then none else w.connections.lookup userId := by
  unfold ConnectionWorld.connect
  by_cases hu : userId = u
  · subst hu
    split <;> simp_all
  · split <;> simp [hu, AList.lookup_erase_ne hu]

/-- What `resume` and `cancel` do to call `i`: it goes on without being accepted, or it is accepted
and registers. -/
inductive Resumed (w : ConnectionWorld) (i : Nat) :
    Option ConnectCall → ConnectionWorld → Prop where
  | silent {call : ConnectCall} {stage : ConnectStage} : w.calls[i]? = some call →
      InProgress call → stage ≠ .connected →
      Resumed w i none { w with calls := w.calls.set i { call with stage := stage } }
  | accepted {call : ConnectCall} : w.calls[i]? = some call → call.stage = .accepting →
      Resumed w i (some call) { w with
        connections := w.connections.insert call.userId call.websocket
        calls := w.calls.set i { call with stage := .connected } }

/-- Inversion of a step of a call: it accepts a websocket only when `accept` returned. -/
theorem resume_cases {i : Nat} {returns : Bool} (h : w.resume i returns = some w') :
    ∃ call, Resumed w i call w' ∧ (call.isSome → returns = true) := by
  obtain ⟨call, hcall, hrun⟩ := Option.bind_eq_some_iff.mp h
  split at hrun
  · rename_i hstage
    cases hrun
    exact ⟨none, .silent hcall (.inl hstage) (by decide), by simp⟩
  · rename_i hstage
    cases hrun
    exact ⟨some call, .accepted hcall hstage, by simp⟩
  · rename_i hstage
    cases hrun
    exact ⟨none, .silent hcall (.inr hstage) (by decide), by simp⟩
  · cases hrun
  · cases hrun

/-- A cancelled call goes on without being accepted. -/
theorem cancel_resumed {i : Nat} (h : w.cancel i = some w') : Resumed w i none w' := by
  obtain ⟨call, hcall, hrun⟩ := Option.bind_eq_some_iff.mp h
  split at hrun
  · rename_i hstage
    cases hrun
    exact .silent hcall (.inl hstage) (by decide)
  · rename_i hstage
    cases hrun
    exact .silent hcall (.inr hstage) (by decide)
  · cases hrun
  · cases hrun

/-- Among the calls after a call went on, those that are connected were so before, or it is the
call that went on. -/
theorem accepted_set {i : Nat} {call : ConnectCall}
    (h : ⟨userId, websocket, .connected⟩ ∈ w.calls.set i call) :
    Accepted w userId websocket ∨ call = ⟨userId, websocket, .connected⟩ := by
  rcases List.mem_or_eq_of_mem_set h with hold | hnew
  · exact .inl hold
  · exact .inr hnew.symm

/-- A call that registers takes no entry away, as the entry of its user is vacant. -/
theorem registered_resumed {i : Nat} {call : Option ConnectCall} (hw : LiveRegistered userId w)
    (h : Resumed w i call w')
    (hvacant : ∀ c, call = some c → c.userId = userId →
      ∀ registered, w.connections.lookup userId = some registered → ¬ Live w userId registered) :
    LiveRegistered userId w' := by
  intro websocket hlive
  cases h with
  -- a step that accepts nothing leaves the table alone
  | silent hcall _ hstage =>
    refine hw websocket ⟨?_, hlive.opened, hlive.attached⟩
    refine (accepted_set hlive.accepted).resolve_right fun heq => hstage ?_
    exact congrArg ConnectCall.stage heq
  | @accepted call hcall _ =>
    show (w.connections.insert call.userId call.websocket).lookup userId = _ ∨ _
    by_cases hu : call.userId = userId
    · -- the slot of the user is overwritten, with no live websocket in it
      rcases accepted_set hlive.accepted with hold | hnew
      · have hbefore : Live w userId websocket := ⟨hold, hlive.opened, hlive.attached⟩
        refine (hw websocket hbefore).imp_left fun hlookup => ?_
        exact absurd hbefore (hvacant call rfl hu websocket hlookup)
      · left
        cases hnew
        exact AList.lookup_insert _
    · -- the slot of another user
      rw [AList.lookup_insert_ne (fun heq => hu heq.symm)]
      refine hw websocket ⟨?_, hlive.opened, hlive.attached⟩
      refine (accepted_set hlive.accepted).resolve_right fun heq => hu ?_
      exact congrArg ConnectCall.userId heq

end Steps

/-- A step that meets the condition keeps the live websocket registered. -/
theorem registered_step {userId : String} {w w' : ConnectionWorld} {act : ConnectionAct}
    (hvacant : Vacant userId w act) (h : act.run w = some w') (hw : LiveRegistered userId w) :
    LiveRegistered userId w' := by
  cases act with
  | connect u s =>
    simp only [ConnectionAct.run] at h
    split at h
    · cases h
    · cases h
      intro websocket hlive
      have hopened := hlive.opened
      rw [closed_connect, List.mem_append, not_or] at hopened
      have hattached : (userId, websocket) ∉ w.disconnected := by
        have := hlive.attached
        unfold ConnectionWorld.connect at this
        split at this <;> exact this
      have hclosings : (w.connect u s).closings = w.closings := by
        unfold ConnectionWorld.connect
        split <;> rfl
      rw [lookup_connect, hclosings]
      refine (hw websocket ⟨accepted_connect hlive.accepted, hopened.1, hattached⟩).imp_left
        fun hlookup => ?_
      -- the websocket that `connect` takes out is closed
      have hu : userId ≠ u := by
        rintro rfl
        exact hopened.2 (by simp [hlookup])
      rw [if_neg hu, hlookup]
  | resume i returns =>
    obtain ⟨call, hresumed, hreturns⟩ := resume_cases h
    refine registered_resumed hw hresumed fun c hc hu => ?_
    cases hresumed with
    | silent => cases hc
    | accepted hcall hstage =>
      cases hc
      refine hvacant i c.websocket (by rw [hreturns rfl]) ?_
      rw [hcall, ← hu, ← hstage]
  | cancel i => exact registered_resumed hw (cancel_resumed h) (by simp)
  | disconnect u s =>
    cases h
    intro websocket hlive
    have hattached := hlive.attached
    simp only [ConnectionWorld.disconnect, List.mem_append, List.mem_singleton, not_or] at hattached
    refine (hw websocket ⟨hlive.accepted, hlive.opened, hattached.1⟩).imp_left fun hlookup => ?_
    show AList.lookup userId (if _ then _ else _) = _
    split
    · rename_i hpopped
      -- only the disconnected websocket is taken out
      have hu : userId ≠ u := by
        rintro rfl
        exact hattached.2 (by rw [hlookup] at hpopped; cases hpopped; rfl)
      rw [AList.lookup_erase_ne hu, hlookup]
    · exact hlookup
  | closeAll =>
    cases h
    intro websocket hlive
    right
    rcases hw websocket ⟨hlive.accepted, hlive.opened, hlive.attached⟩ with hlookup | hclosing
    · refine ⟨w.connections.entries.map (·.2), by simp [ConnectionWorld.closeAll], ?_⟩
      exact List.mem_map.mpr ⟨_, AList.mem_lookup_iff.mp hlookup, rfl⟩
    · obtain ⟨rest, hrest, hmem⟩ := hclosing
      exact ⟨rest, List.mem_append_left _ hrest, hmem⟩
  | closeNext j =>
    obtain ⟨closing, hclosing, hrun⟩ := Option.bind_eq_some_iff.mp h
    split at hrun
    · rename_i first rest
      cases hrun
      intro websocket hlive
      have hopened := hlive.opened
      simp only [List.mem_append, List.mem_singleton, not_or] at hopened
      rcases hw websocket ⟨hlive.accepted, hopened.1, hlive.attached⟩ with hlookup | hin
      · exact .inl hlookup
      · right
        obtain ⟨others, hothers, hmem⟩ := hin
        -- it is in another `close_all`, or behind the one that was closed
        obtain ⟨k, hk⟩ := List.mem_iff_getElem?.mp hothers
        by_cases hkj : j = k
        · subst hkj
          rw [hclosing] at hk
          cases hk
          have hlt := (List.getElem?_eq_some_iff.mp hclosing).1
          refine ⟨rest, List.mem_iff_getElem?.mpr ⟨j, List.getElem?_set_self hlt⟩, ?_⟩
          exact (List.mem_cons.mp hmem).resolve_left hopened.2
        · refine ⟨others, List.mem_iff_getElem?.mpr ⟨k, ?_⟩, hmem⟩
          rw [List.getElem?_set_ne hkj]
          exact hk
    · cases hrun

/-- Under the condition, every live websocket of the user is registered. -/
theorem registered_reachable {userId : String} {w : ConnectionWorld}
    (h : Reachable connectionMachine (Vacant userId) w) : LiveRegistered userId w := by
  refine h.invariant ?_ fun w act w' _ hvacant hstep hw => registered_step hvacant hstep hw
  intro websocket hlive
  exact absurd hlive.accepted List.not_mem_nil

/-! ### Calls that do not overlap -/

/-- A `connect` of the user begins when no other is in progress. -/
def Alone (userId : String) (w : ConnectionWorld) (act : ConnectionAct) : Prop :=
  ∀ websocket, act = .connect userId websocket →
    ∀ call ∈ w.calls, call.userId = userId → ¬ InProgress call

/-- While a `connect` of the user is in progress it is the only one, and nothing is registered. -/
def Sole (userId : String) (w : ConnectionWorld) : Prop :=
  ∀ (i : Nat) call, w.calls[i]? = some call → call.userId = userId → InProgress call →
    w.connections.lookup userId = none ∧
      ∀ (j : Nat) call', w.calls[j]? = some call' → call'.userId = userId → InProgress call' → j = i

/-- Only `accept` adds to the dictionary. -/
theorem Sole.mono {userId : String} {w w' : ConnectionWorld} (hw : Sole userId w)
    (hcalls : w'.calls = w.calls)
    (hlookup : w.connections.lookup userId = none → w'.connections.lookup userId = none) :
    Sole userId w' := by
  intro i call hcall hu hprogress
  rw [hcalls] at hcall
  obtain ⟨hnone, hsole⟩ := hw i call hcall hu hprogress
  exact ⟨hlookup hnone, by rw [hcalls]; exact hsole⟩

/-- A `connect` that begins alone is the only one. -/
theorem sole_connect {userId u : String} {w : ConnectionWorld} {s : Nat} (hw : Sole userId w)
    (halone : Alone userId w (.connect u s)) : Sole userId (w.connect u s) := by
  -- the new call stands last, at one of two stages
  obtain ⟨stage, hcalls⟩ : ∃ stage, (w.connect u s).calls = w.calls ++ [⟨u, s, stage⟩] := by
    unfold ConnectionWorld.connect
    split <;> exact ⟨_, rfl⟩
  have hnew : ∀ (i : Nat) call, (w.calls ++ [⟨u, s, stage⟩])[i]? = some call →
      w.calls[i]? = some call ∨ i = w.calls.length ∧ call = ⟨u, s, stage⟩ := by
    intro i call hcall
    rcases Nat.lt_trichotomy i w.calls.length with hlt | heq | hgt
    · exact .inl (by rwa [List.getElem?_append_left hlt] at hcall)
    · subst heq
      simp only [List.getElem?_concat_length, Option.some.injEq] at hcall
      exact .inr ⟨rfl, hcall.symm⟩
    · rw [List.getElem?_eq_none (by simp; omega)] at hcall
      cases hcall
  unfold Sole
  rw [hcalls, lookup_connect]
  by_cases hu : userId = u
  · -- the calls before the new one are over
    subst hu
    have hover : ∀ (i : Nat) call, (w.calls ++ [⟨userId, s, stage⟩])[i]? = some call →
        call.userId = userId → InProgress call → i = w.calls.length := by
      intro i call hcall hcu hprogress
      rcases hnew i call hcall with hold | hlast
      · exact absurd hprogress (halone s rfl call (List.mem_of_getElem? hold) hcu)
      · exact hlast.1
    intro i call hcall hcu hprogress
    refine ⟨if_pos rfl, fun j call' hcall' hcu' hprogress' => ?_⟩
    have hi := hover i call hcall hcu hprogress
    have hj := hover j call' hcall' hcu' hprogress'
    omega
  · rw [if_neg hu]
    -- a call of another user leaves the slot as it was
    have hold : ∀ (i : Nat) call, (w.calls ++ [⟨u, s, stage⟩])[i]? = some call →
        call.userId = userId → w.calls[i]? = some call := by
      intro i call hcall hcu
      rcases hnew i call hcall with hold | ⟨-, rfl⟩
      · exact hold
      · exact absurd hcu.symm hu
    intro i call hcall hcu hprogress
    obtain ⟨hnone, hsole⟩ := hw i call (hold i call hcall hcu) hcu hprogress
    exact ⟨hnone, fun j call' hcall' hcu' => hsole j call' (hold j call' hcall' hcu') hcu'⟩

/-- It stays the only one until it registers. -/
theorem sole_resumed {userId : String} {w w' : ConnectionWorld} {i : Nat}
    {call : Option ConnectCall} (hw : Sole userId w) (h : Resumed w i call w') :
    Sole userId w' := by
  have hset : ∀ (c c' : ConnectCall), w.calls[i]? = some c → c'.userId = c.userId →
      InProgress c → ∀ (j : Nat) call, (w.calls.set i c')[j]? = some call → call.userId = userId →
        InProgress call → ∃ old, w.calls[j]? = some old ∧ old.userId = userId ∧ InProgress old := by
    intro c c' hc huser hprogress j call hj hu hcall
    by_cases hij : i = j
    · subst hij
      rw [List.getElem?_set_self (List.getElem?_eq_some_iff.mp hc).1] at hj
      cases hj
      exact ⟨c, hc, huser.symm.trans hu, hprogress⟩
    · rw [List.getElem?_set_ne hij] at hj
      exact ⟨call, hj, hu, hcall⟩
  cases h with
  | @silent c stage hc hprogress =>
    intro j call' hj hu hcall
    obtain ⟨old, hold, hou, hop⟩ := hset _ { c with stage := stage } hc rfl hprogress
      j call' hj hu hcall
    obtain ⟨hnone, hsole⟩ := hw j old hold hou hop
    refine ⟨hnone, fun k call'' hk hku hkp => ?_⟩
    obtain ⟨old', hold', hou', hop'⟩ := hset _ { c with stage := stage } hc rfl hprogress
      k call'' hk hku hkp
    exact hsole k old' hold' hou' hop'
  | @accepted c hc hstage =>
    intro j call' hj hu hcall
    obtain ⟨old, hold, hou, hop⟩ := hset _ { c with stage := .connected } hc rfl (.inr hstage)
      j call' hj hu hcall
    obtain ⟨hnone, hsole⟩ := hw j old hold hou hop
    -- the accepted call is over, so it is not the one in progress
    have hij : i ≠ j := by
      rintro rfl
      rw [List.getElem?_set_self (List.getElem?_eq_some_iff.mp hc).1] at hj
      cases hj
      rcases hcall with h | h <;> cases h
    have hcu : userId ≠ c.userId := fun heq => hij (hsole i c hc heq.symm (.inr hstage))
    refine ⟨(AList.lookup_insert_ne hcu).trans hnone, fun k call'' hk hku hkp => ?_⟩
    obtain ⟨old', hold', hou', hop'⟩ := hset _ { c with stage := .connected } hc rfl (.inr hstage)
      k call'' hk hku hkp
    exact hsole k old' hold' hou' hop'

/-- While calls of the user do not overlap, each is the only one. -/
theorem sole_reachable {userId : String} {w : ConnectionWorld}
    (h : Reachable connectionMachine (Alone userId) w) : Sole userId w := by
  refine h.invariant (fun i call hcall => by cases hcall) fun w act w' _ halone hstep hw => ?_
  cases act with
  | connect u s =>
    simp only [connectionMachine, ConnectionAct.run] at hstep
    split at hstep
    · cases hstep
    · cases hstep
      exact sole_connect hw halone
  -- the two steps of a call that is in progress
  | resume i returns =>
    obtain ⟨call, hresumed, -⟩ := resume_cases hstep
    exact sole_resumed hw hresumed
  | cancel i => exact sole_resumed hw (cancel_resumed hstep)
  -- a disconnection may only empty the slot
  | disconnect u s =>
    cases hstep
    refine hw.mono rfl fun hnone => ?_
    show AList.lookup userId (if _ then _ else _) = _
    split
    · by_cases hu : userId = u
      · rw [hu]
        exact AList.lookup_erase _ _
      · rwa [AList.lookup_erase_ne hu]
    · exact hnone
  | closeAll =>
    cases hstep
    exact hw.mono rfl fun _ => rfl
  | closeNext j =>
    obtain ⟨closing, -, hrun⟩ := Option.bind_eq_some_iff.mp hstep
    split at hrun <;> cases hrun
    exact hw.mono rfl id

/-- Runs in which the calls of `connect` of a user do not overlap register while nothing is
registered. -/
theorem vacant_of_alone {userId : String} {w : ConnectionWorld}
    (h : Reachable connectionMachine (Alone userId) w) :
    Reachable connectionMachine (Vacant userId) w := by
  induction h with
  | init => exact .init
  | @step w w' act h _ hstep ih =>
    refine .step act ih ?_ hstep
    intro i websocket _ hcall registered hlookup
    obtain ⟨hnone, -⟩ := sole_reachable h i _ hcall rfl (.inr rfl)
    rw [hlookup] at hnone
    cases hnone

/-! ### The live websocket -/

/-- Each call has a websocket of its own. -/
theorem websockets_nodup {w : ConnectionWorld} (h : Reachable connectionMachine Any w) :
    (w.calls.map (·.websocket)).Nodup := by
  refine h.invariant (I := fun w => (w.calls.map (·.websocket)).Nodup) .nil
    fun w act w' _ _ hstep hw => ?_
  -- a step changes the stage of a call and never its websocket
  have hset : ∀ (i : Nat) (call : ConnectCall) (stage : ConnectStage), w.calls[i]? = some call →
      (w.calls.set i { call with stage := stage }).map (·.websocket) =
        w.calls.map (·.websocket) := by
    intro i call stage hcall
    refine List.ext_getElem? fun j => ?_
    rw [List.map_set, List.getElem?_set]
    split
    · rename_i hij
      subst hij
      obtain ⟨hlt, rfl⟩ := List.getElem?_eq_some_iff.mp hcall
      simp [hlt]
    · rfl
  have hresumed : ∀ {i : Nat} {call : Option ConnectCall}, Resumed w i call w' →
      (w'.calls.map (·.websocket)).Nodup := by
    intro i call hresumed
    cases hresumed with
    | silent hcall => rwa [hset i _ _ hcall]
    | accepted hcall => rwa [hset i _ _ hcall]
  cases act with
  | connect u s =>
    simp only [connectionMachine, ConnectionAct.run] at hstep
    split at hstep
    · cases hstep
    -- a new call brings a websocket of its own
    · rename_i hnew
      cases hstep
      unfold ConnectionWorld.connect
      split <;> simpa [List.nodup_append, hw] using hnew
  | resume i returns =>
    obtain ⟨call, h, -⟩ := resume_cases hstep
    exact hresumed h
  | cancel i => exact hresumed (cancel_resumed hstep)
  | disconnect u s =>
    cases hstep
    exact hw
  | closeAll =>
    cases hstep
    exact hw
  | closeNext j =>
    obtain ⟨closing, -, hrun⟩ := Option.bind_eq_some_iff.mp hstep
    split at hrun <;> cases hrun
    exact hw

/-- A step against the condition loses the registered websocket. -/
theorem overwritten_lost {userId : String} {w w' : ConnectionWorld} {act : ConnectionAct}
    (h : Reachable connectionMachine Any w) (hstep : act.run w = some w')
    (hvacant : ¬ Vacant userId w act) :
    ∃ websocket, Live w' userId websocket ∧ w'.connections.lookup userId ≠ some websocket := by
  simp only [Vacant, not_forall, not_not] at hvacant
  obtain ⟨i, websocket, rfl, hcall, registered, hlookup, hlive⟩ := hvacant
  have hnodup := websockets_nodup h
  obtain ⟨call, hresumed, -⟩ := resume_cases hstep
  simp only [ConnectionAct.run, ConnectionWorld.resume, hcall, Option.bind_some,
    Option.some.injEq] at hstep
  subst hstep
  obtain ⟨j, hj⟩ := List.mem_iff_getElem?.mp hlive.accepted
  have hij : i ≠ j := by
    rintro rfl
    rw [hcall] at hj
    cases hj
  refine ⟨registered, ⟨?_, hlive.opened, hlive.attached⟩, ?_⟩
  · refine List.mem_iff_getElem?.mpr ⟨j, ?_⟩
    rw [List.getElem?_set_ne hij]
    exact hj
  · show (w.connections.insert userId websocket).lookup userId ≠ _
    rw [AList.lookup_insert]
    intro heq
    cases heq
    -- the websocket of a call that is accepting is not yet connected
    have hsame := List.inj_on_of_nodup_map hnodup hlive.accepted (List.mem_of_getElem? hcall) rfl
    cases hsame

/-- In runs that meet the condition, whenever no `connect` of the user is in progress, every live
websocket is the registered one, so there is one at most. A step against the condition loses a live
websocket. -/
theorem live_registered (userId : String) :
    (∀ w, Reachable connectionMachine (Vacant userId) w → NoneInProgress w userId →
      (∀ websocket, Live w userId websocket → w.connections.lookup userId = some websocket) ∧
      ∀ websocket websocket', Live w userId websocket → Live w userId websocket' →
        websocket = websocket') ∧
    ∀ w act w', Reachable connectionMachine Any w → act.run w = some w' → ¬ Vacant userId w act →
      ∃ websocket, Live w' userId websocket ∧
        w'.connections.lookup userId ≠ some websocket := by
  refine ⟨fun w h hidle => ?_, fun w act w' h => overwritten_lost h⟩
  have hregistered : ∀ websocket, Live w userId websocket →
      w.connections.lookup userId = some websocket := by
    intro websocket hlive
    refine (registered_reachable h websocket hlive).resolve_right ?_
    rintro ⟨rest, hrest, hmem⟩
    rw [hidle.closings rest hrest] at hmem
    cases hmem
  refine ⟨hregistered, fun websocket websocket' hlive hlive' => ?_⟩
  have := (hregistered websocket hlive).symm.trans (hregistered websocket' hlive')
  exact Option.some.inj this

/-- A user connects twice, one after the other. -/
def sequentialRun : List ConnectionAct :=
  [.connect "user" 0, .resume 0 true, .connect "user" 1, .resume 1 true, .resume 1 true]

/-- The second websocket is live and registered, and no other one is live. -/
theorem live_registered_sequential :
    let w := connectionMachine.final .init sequentialRun
    Live w "user" 1 ∧ w.connections.lookup "user" = some 1 ∧
      ∀ websocket, Live w "user" websocket → websocket = 1 := by
  intro w
  have hvacant : ∀ (v : ConnectionWorld) (act : ConnectionAct),
      v.connections.lookup "user" = none → Vacant "user" v act := by
    intro v act hnone i websocket _ _ registered hlookup
    rw [hnone] at hlookup
    cases hlookup
  have hreachable : Reachable connectionMachine (Vacant "user") w := by
    refine Reachable.init.final sequentialRun
      ⟨hvacant _ _ rfl, hvacant _ _ rfl, ?_, hvacant _ _ rfl, hvacant _ _ rfl, trivial⟩
    exact fun _ _ hact => by cases hact
  have hstages : ∀ call ∈ w.calls, call.stage = .connected := by decide +kernel
  have hidle : NoneInProgress w "user" := by
    refine ⟨fun call hcall _ hprogress => ?_, by decide +kernel⟩
    rcases hprogress with h | h <;> simp [hstages call hcall] at h
  have hlive : Live w "user" 1 := ⟨by decide +kernel, by decide +kernel, by decide +kernel⟩
  obtain ⟨hregistered, hone⟩ := (live_registered "user").1 w hreachable hidle
  exact ⟨hlive, hregistered 1 hlive, fun websocket h => hone websocket 1 h hlive⟩

/-- A user connects twice before the first `accept` returns. -/
def overlappingRun : List ConnectionAct :=
  [.connect "user" 0, .connect "user" 1, .resume 0 true, .resume 1 true]

def overlappingWorld : ConnectionWorld := connectionMachine.final .init overlappingRun

/-- The world of the overlapping calls is reached by their run. -/
theorem overlappingWorld_reachable : Reachable connectionMachine Any overlappingWorld :=
  Reachable.init.final overlappingRun (by decide +kernel)

/-- Both websockets are live, and the second alone is registered. -/
theorem overlapping_live :
    Reachable connectionMachine Any overlappingWorld ∧ NoneInProgress overlappingWorld "user" ∧
      Live overlappingWorld "user" 0 ∧ Live overlappingWorld "user" 1 ∧
      overlappingWorld.connections.lookup "user" = some 1 := by
  have hstages : ∀ call ∈ overlappingWorld.calls, call.stage = .connected := by decide +kernel
  have hidle : NoneInProgress overlappingWorld "user" := by
    refine ⟨fun call hcall _ hprogress => ?_, by decide +kernel⟩
    rcases hprogress with h | h <;> simp [hstages call hcall] at h
  exact ⟨overlappingWorld_reachable, hidle,
    ⟨by decide +kernel, by decide +kernel, by decide +kernel⟩,
    ⟨by decide +kernel, by decide +kernel, by decide +kernel⟩, by decide +kernel⟩

end Rsap.Proofs
