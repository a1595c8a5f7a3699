import Mathlib.Data.List.AList
import Rsap.Library.Machine

/-!
# `Rsap.Webapp.Connections`: the websockets of `ConnectionManager`

`ConnectionManager` (`app/services/sync_service.py`) keeps one websocket a user in the dictionary
`connections`. `connect` takes the registered websocket out of the dictionary, awaits its `close`,
awaits `accept` of the new one, and only then registers the new one. Calls of `connect` can be
suspended at these two `await`s for any time and in any number. An exception of `close` is
swallowed, one of `accept` ends the call, and so does a cancellation at either `await`.

A websocket is a number, since the manager compares websockets by identity (`is`), and is given to
one `connect` only. `calls` keeps the calls that are over: the websockets that were accepted are
those of the calls in the stage `connected`. `closed` and `disconnected` log the calls of `close`
and `disconnect`.
-/

set_option autoImplicit false

namespace Rsap.Webapp

open Rsap.Library

/-- Where a call of `connect` is: at one of its `await`s, or over. -/
inductive ConnectStage where
  | closing
  | accepting
  | connected
  | raised
  deriving DecidableEq

/-- A call `connect(user_id, websocket)`. -/
structure ConnectCall where
  userId : String
  websocket : Nat
  stage : ConnectStage
  deriving DecidableEq

structure ConnectionWorld where
  connections : AList fun _ : String => Nat
  calls : List ConnectCall
  /-- What each call of `close_all` has left to close. -/
  closings : List (List Nat)
  closed : List Nat
  disconnected : List (String × Nat)

namespace ConnectionWorld

def init : ConnectionWorld := ⟨∅, [], [], [], []⟩

/-- `connect`, up to its first `await`. -/
def connect (w : ConnectionWorld) (userId : String) (websocket : Nat) : ConnectionWorld :=
  match w.connections.lookup userId with
  | some previous =>
    { w with
      connections := w.connections.erase userId
      closed := w.closed ++ [previous]
      calls := w.calls ++ [⟨userId, websocket, .closing⟩] }
  | none => { w with calls := w.calls ++ [⟨userId, websocket, .accepting⟩] }

/-- What call `i` awaits returns, or raises. -/
def resume (w : ConnectionWorld) (i : Nat) (returns : Bool) : Option ConnectionWorld :=
  w.calls[i]?.bind fun call =>
    match call.stage, returns with
    -- `except Exception: pass`
    | .closing, _ => some { w with calls := w.calls.set i { call with stage := .accepting } }
    | .accepting, true =>
      some { w with
        connections := w.connections.insert call.userId call.websocket
        calls := w.calls.set i { call with stage := .connected } }
    | .accepting, false => some { w with calls := w.calls.set i { call with stage := .raised } }
    | .connected, _ | .raised, _ => none

/-- The task of call `i` is cancelled. `CancelledError` is no `Exception`. -/
def cancel (w : ConnectionWorld) (i : Nat) : Option ConnectionWorld :=
  w.calls[i]?.bind fun call =>
    match call.stage with
    | .closing | .accepting => some { w with calls := w.calls.set i { call with stage := .raised } }
    | .connected | .raised => none

/-- `disconnect`. -/
def disconnect (w : ConnectionWorld) (userId : String) (websocket : Nat) : ConnectionWorld :=
  { w with
    connections :=
      if w.connections.lookup userId = some websocket then w.connections.erase userId
      else w.connections
    disconnected := w.disconnected ++ [(userId, websocket)] }

/-- `close_all`, up to its first `await`. -/
def closeAll (w : ConnectionWorld) : ConnectionWorld :=
  { w with connections := ∅, closings := w.closings ++ [w.connections.entries.map (·.2)] }

/-- The next `close` of the `close_all` number `j`. -/
def closeNext (w : ConnectionWorld) (j : Nat) : Option ConnectionWorld :=
  w.closings[j]?.bind fun
    | websocket :: rest =>
      some { w with closings := w.closings.set j rest, closed := w.closed ++ [websocket] }
    | [] => none

end ConnectionWorld

/-- The calls of the manager, and the ends of what they await. -/
inductive ConnectionAct where
  | connect (userId : String) (websocket : Nat)
  | resume (i : Nat) (returns : Bool)
  | cancel (i : Nat)
  | disconnect (userId : String) (websocket : Nat)
  | closeAll
  | closeNext (j : Nat)
  deriving DecidableEq

def ConnectionAct.run (w : ConnectionWorld) : ConnectionAct → Option ConnectionWorld
  | .connect userId websocket =>
    -- each call has a websocket of its own
    if websocket ∈ w.calls.map (·.websocket) then none else some (w.connect userId websocket)
  | .resume i returns => w.resume i returns
  | .cancel i => w.cancel i
  | .disconnect userId websocket => some (w.disconnect userId websocket)
  | .closeAll => some w.closeAll
  | .closeNext j => w.closeNext j

def connectionMachine : Machine ConnectionWorld ConnectionAct := ⟨.init, ConnectionAct.run⟩

end Rsap.Webapp
