import Rsap.Library.Machine
import Rsap.Webapp.Database

/-!
# `Rsap.Webapp.Cameras`: `create_camera`, statement by statement

Requests of `POST /cameras/` (`app/routers/cameras.py`) run in any number and in any order. A step
is one statement of one request, with the Python code up to the next one. What PostgreSQL does with
them under `READ COMMITTED`:

* `SELECT … FOR UPDATE` of the user's row waits until no other transaction holds its lock. The lock
  is held until the transaction ends. The row of a user who sends requests is there.
* A `SELECT` sees what is committed when it starts.
* `INSERT … ON CONFLICT (id) DO NOTHING` waits while another transaction has inserted the id and is
  not over. It inserts nothing when a row with the id is committed.

A transaction can be cut off before its commit. A response that is lost after the commit leaves
the state as it is. The licences can change at any time (`administer`). A stored `JSONB` value is
what `json.loads` reads of it, and `jsonb` gives it for the value that was sent. Encrypted columns
hold their plaintext.

`added` logs, for each committed row, its user and the `max_cameras` that was read for it.
-/

set_option autoImplicit false

namespace Rsap

mutual
/-- `==` of two values in Python: numbers and booleans by value, objects as dictionaries. -/
def Json.pyEq : Json → Json → Bool
  | .null, .null => true
  | .str a, .str b => a == b
  | .arr a, .arr b => Json.pyEqItems a b
  | .obj a, .obj b => a.length == b.length && Json.pyEqFields a b
  | .bool a, .bool b => a == b
  | .bool a, .int b => cond a 1 0 == b
  | .bool a, .float b => cond a 1 0 == b
  | .int a, .bool b => a == cond b 1 0
  | .int a, .int b => a == b
  | .int a, .float b => (a : Rat) == b
  | .float a, .bool b => a == cond b 1 0
  | .float a, .int b => a == (b : Rat)
  | .float a, .float b => a == b
  | _, _ => false

def Json.pyEqItems : List Json → List Json → Bool
  | [], [] => true
  | a :: as, b :: bs => Json.pyEq a b && Json.pyEqItems as bs
  | _, _ => false

def Json.pyEqFields : List (String × Json) → List (String × Json) → Bool
  | [], _ => true
  | (key, a) :: fields, other =>
    (match Dict.get other key with
      | some b => Json.pyEq a b
      | none => false) && Json.pyEqFields fields other
end

end Rsap

namespace Rsap.Webapp

open Rsap.Desktop (Uuid Timestamp StreamType)
open Rsap.Library

/-- `CameraCreate`. -/
structure CameraCreate where
  id : Uuid
  name : String
  streamUrl : String
  streamType : StreamType
  locationLabel : Option String
  analyticsConfig : Dict
  zones : List Dict
  named : 1 ≤ name.length ∧ name.length ≤ 255
  located : 1 ≤ streamUrl.length ∧ streamUrl.length ≤ 4096
  labelled : ∀ label ∈ locationLabel, label.length ≤ 255
  deriving DecidableEq

/-- A row of `va.cameras`. -/
structure CameraRow where
  id : Uuid
  userId : Uuid
  name : String
  streamUrl : String
  streamType : StreamType
  locationLabel : Option String
  analyticsConfig : Json
  zones : Json
  isActive : Bool
  deriving DecidableEq

/-- `payload.analytics_config`, as a value. -/
def CameraCreate.analyticsValue (payload : CameraCreate) : Json := .obj payload.analyticsConfig

/-- `payload.zones`, as a value. -/
def CameraCreate.zonesValue (payload : CameraCreate) : Json := .arr (payload.zones.map .obj)

/-- `camera_create_matches`. -/
def cameraCreateMatches (row : CameraRow) (payload : CameraCreate) : Bool :=
  row.name == payload.name && row.streamUrl == payload.streamUrl &&
    row.streamType == payload.streamType && row.locationLabel == payload.locationLabel &&
    row.analyticsConfig.pyEq payload.analyticsValue && row.zones.pyEq payload.zonesValue

/-- The row that a request inserts. -/
def CameraCreate.row (jsonb : Json → Json) (payload : CameraCreate) (userId : Uuid) :
    CameraRow where
  id := payload.id
  userId
  name := payload.name
  streamUrl := payload.streamUrl
  streamType := payload.streamType
  locationLabel := payload.locationLabel
  analyticsConfig := jsonb payload.analyticsValue
  zones := jsonb payload.zonesValue
  isActive := true

/-- What a request answers: 201 with the row, or an error. -/
abbrev CreateResponse := Except Failure CameraRow

/-- The next statement of a request, or its end. -/
inductive CreateStage where
  /-- The request did not begin. -/
  | received
  | locking
  | looking
  | licensing
  | counting (maxCameras : Nat)
  | inserting (maxCameras : Nat)
  | rereading
  /-- The audit log and the commit, with the row inserted. -/
  | auditing (maxCameras : Nat) (row : CameraRow)
  | answered (response : CreateResponse)
  | cutOff
  deriving DecidableEq

/-- The lock of the user's row is held. -/
def CreateStage.locked : CreateStage → Bool
  | .received | .locking | .answered _ | .cutOff => false
  | .looking | .licensing | .counting _ | .inserting _ | .rereading | .auditing _ _ => true

/-- The uncommitted row. -/
def CreateStage.inserted : CreateStage → Option CameraRow
  | .auditing _ row => some row
  | _ => none

/-- The request got an answer, or never gets one. -/
def CreateStage.over : CreateStage → Bool
  | .answered _ | .cutOff => true
  | _ => false

structure CreateTask where
  user : CurrentUser
  payload : CameraCreate
  stage : CreateStage
  deriving DecidableEq

structure CreateWorld where
  cameras : List CameraRow
  licenses : List License
  tasks : List CreateTask
  added : List (Uuid × Nat)

namespace CreateWorld

def init : CreateWorld := ⟨[], [], [], []⟩

def goto (w : CreateWorld) (i : Nat) (task : CreateTask) (stage : CreateStage) : CreateWorld :=
  { w with tasks := w.tasks.set i { task with stage } }

/-- `SELECT … FROM va.cameras WHERE id=$1`. -/
def camera (w : CreateWorld) (id : Uuid) : Option CameraRow := w.cameras.find? (·.id = id)

/-- `SELECT count(*) FROM va.cameras WHERE user_id=$1`. -/
def cameraCount (w : CreateWorld) (userId : Uuid) : Nat := w.cameras.countP (·.userId = userId)

/-- The current licence of the user that runs longest. -/
def currentLicense (w : CreateWorld) (userId : Uuid) (now : Timestamp) : Option License :=
  latestBy (fun license => license.current userId now) License.validUntil w.licenses

/-- Another request has the lock of the user's row. -/
def LockTaken (w : CreateWorld) (userId : Uuid) : Prop :=
  ∃ task ∈ w.tasks, task.user.id = userId ∧ task.stage.locked = true

instance (w : CreateWorld) (userId : Uuid) : Decidable (w.LockTaken userId) :=
  inferInstanceAs (Decidable (∃ task ∈ w.tasks, _))

/-- Another transaction has inserted the id. -/
def IdTaken (w : CreateWorld) (id : Uuid) : Prop :=
  ∃ task ∈ w.tasks, ∃ row ∈ task.stage.inserted, row.id = id

instance (w : CreateWorld) (id : Uuid) : Decidable (w.IdTaken id) :=
  inferInstanceAs (Decidable (∃ task ∈ w.tasks, _))

end CreateWorld

/-- The error of an id that is somebody's, or has other fields. -/
def idInUse : Failure := .http 409 "Camera ID is already in use"

def noLicense : Failure := .http 403 "No active license"

def limitReached : Failure := .http 409 "License camera limit reached"

/-- The row is the user's, and it is the one that the request would have created. -/
def Repeats (task : CreateTask) (row : CameraRow) : Prop :=
  row.userId = task.user.id ∧ cameraCreateMatches row task.payload = true

instance (task : CreateTask) (row : CameraRow) : Decidable (Repeats task row) :=
  inferInstanceAs (Decidable (_ ∧ _))

/-- The answer for a row that was found. -/
def CreateTask.compare (task : CreateTask) (row : CameraRow) : CreateResponse :=
  if Repeats task row then .ok row else .error idInUse

/-- The next statement of request `i`. -/
def CreateWorld.run (jsonb : Json → Json) (w : CreateWorld) (i : Nat) (now : Timestamp) :
    Option CreateWorld :=
  w.tasks[i]?.bind fun task =>
    match task.stage with
    | .received =>
      match authorize task.user "cameras" "create" (some task.user.id) none with
      | .error failure => some (w.goto i task (.answered (.error failure)))
      | .ok _ => some (w.goto i task .locking)
    | .locking => if w.LockTaken task.user.id then none else some (w.goto i task .looking)
    | .looking =>
      match w.camera task.payload.id with
      | some row => some (w.goto i task (.answered (task.compare row)))
      | none => some (w.goto i task .licensing)
    | .licensing =>
      match w.currentLicense task.user.id now with
      | none => some (w.goto i task (.answered (.error noLicense)))
      | some license => some (w.goto i task (.counting license.maxCameras))
    | .counting maxCameras =>
      if maxCameras ≤ w.cameraCount task.user.id then
        some (w.goto i task (.answered (.error limitReached)))
      else some (w.goto i task (.inserting maxCameras))
    | .inserting maxCameras =>
      if (w.camera task.payload.id).isSome then some (w.goto i task .rereading)
      else if w.IdTaken task.payload.id then none
      else some (w.goto i task (.auditing maxCameras (task.payload.row jsonb task.user.id)))
    | .rereading =>
      match w.camera task.payload.id with
      | some row => some (w.goto i task (.answered (task.compare row)))
      | none => some (w.goto i task (.answered (.error idInUse)))
    | .auditing maxCameras row =>
      some { w.goto i task (.answered (.ok row)) with
        cameras := w.cameras ++ [row]
        added := w.added ++ [(task.user.id, maxCameras)] }
    | .answered _ | .cutOff => none

/-- The transaction of request `i` is cut off, and rolled back. -/
def CreateWorld.cutOff (w : CreateWorld) (i : Nat) : Option CreateWorld :=
  w.tasks[i]?.bind fun task =>
    if task.stage.over = true then none else some (w.goto i task .cutOff)

/-- A request arrives, goes on or is cut off, or the licences change. -/
inductive CreateAct where
  | request (user : CurrentUser) (payload : CameraCreate)
  | run (i : Nat) (now : Timestamp)
  | cutOff (i : Nat)
  | administer (licenses : List License)

def CreateAct.take (jsonb : Json → Json) (w : CreateWorld) : CreateAct → Option CreateWorld
  | .request user payload => some { w with tasks := w.tasks ++ [⟨user, payload, .received⟩] }
  | .run i now => w.run jsonb i now
  | .cutOff i => w.cutOff i
  | .administer licenses => some { w with licenses }

def createMachine (jsonb : Json → Json) : Machine CreateWorld CreateAct :=
  ⟨.init, CreateAct.take jsonb⟩

end Rsap.Webapp
