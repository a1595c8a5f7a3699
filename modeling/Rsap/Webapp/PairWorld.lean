import Rsap.Webapp.SessionWorld

/-!
# `Rsap.Webapp.PairWorld`: the two keys of one user

The pair of one user under any order of the commands that the central service sends: the
transaction of `activate_session` with the arguments of `login`, the three scripts with any
arguments, the `DEL` of both keys, and Redis itself, which removes a key that is past its expiry.

The history is the session states that logins stored, the newest first.
-/

set_option autoImplicit false

namespace Rsap.Webapp

open Rsap.Desktop (Uuid Timestamp Token)
open Rsap.Library

/-- The keys, the clock of Redis and the logins. -/
structure PairWorld where
  now : Timestamp
  pair : Pair
  logins : List SessionState
  deriving DecidableEq

/-- The commands on the keys. -/
inductive PairAct where
  | tick (now : Timestamp)
  | activate (sessionToken : Token) (refreshToken : RefreshToken) (license : License)
  | rotate (tokenHash : Digest) (jti : Uuid) (sid : Digest) (replacement : RefreshState)
  | reconcile (sid : Option Digest) (license : License)
  | deleteIfSid (sid : Digest)
  | delete
  | expire

namespace PairWorld

/-- One command. A login draws its refresh token for the `sid` of its session token. -/
def step (settings : SessionSettings) (userId : Uuid) (w : PairWorld) :
    PairAct → Option PairWorld
  | .tick now => if w.now ≤ now then some { w with now } else none
  | .activate sessionToken refreshToken license =>
    if refreshToken.sid = settings.sha256 sessionToken then
      let task : LoginTask := ⟨userId, sessionToken, refreshToken, .started⟩
      some { w with
        pair := task.pair settings license
        logins := task.state settings license :: w.logins }
    else none
  | .rotate tokenHash jti sid replacement =>
    some { w with pair := (rotateRefresh w.now tokenHash jti sid replacement w.pair).2 }
  | .reconcile sid license => some { w with pair := reconcilePair w.now sid license w.pair }
  | .deleteIfSid sid =>
    -- the script raises without effect when the session does not decode
    some { w with pair := (Webapp.deleteIfSid w.now sid w.pair).getD w.pair }
  | .delete => some { w with pair := .empty }
  | .expire =>
    some { w with pair := ⟨redisGet w.now w.pair.session, redisGet w.now w.pair.refresh⟩ }

end PairWorld

/-- The keys of a user, from none. -/
def pairMachine (settings : SessionSettings) (userId : Uuid) (now : Timestamp) :
    Machine PairWorld PairAct where
  init := ⟨now, .empty, []⟩
  step := PairWorld.step settings userId

end Rsap.Webapp
