import Rsap.Library.Custody
import Rsap.Library.Machine
import Rsap.Webapp.Database

/-!
# `Rsap.Webapp.Persons`: registered persons and their face images

The requests that write persons (`create_person`, `update_face` and `delete_person` of
`app/routers/persons.py`) with the outbox of external cleanups (`app/services/cleanup_service.py`)
and the faces bucket. A step of a request is one SQL transaction or one upload, and the steps of
different requests interleave. The passes of the cleanup run beside them.

An upload gives a new name to its object, so the objects are numbered. Of a person only the image
is kept. The authorization and the check of the image come before the upload and write nothing:
a request that they refuse ends there.
-/

set_option autoImplicit false

namespace Rsap.Webapp

open Rsap.Desktop (Uuid)
open Rsap.Library

/-- An object of the faces bucket. -/
abbrev ObjectName := Nat

/-- A row of `events.registered_persons`. -/
structure Person where
  id : Uuid
  faceImageId : Option ObjectName
  deriving DecidableEq

/-- A row of `audit.external_cleanup_outbox` for the faces bucket. -/
structure CleanupRow where
  objectName : ObjectName
  processed : Bool
  deriving DecidableEq

/-- Where a request is: before its first statement, before its upload, before its transaction, or
in the handler of an exception. -/
inductive PersonRequest where
  | create
  | createUploaded (object : ObjectName)
  | updateFace (personId : Uuid)
  | updateRead (personId : Uuid) (oldId : Option ObjectName)
  | updateUploaded (personId : Uuid) (oldId : Option ObjectName) (object : ObjectName)
  | delete (personId : Uuid)
  | deleteRead (personId : Uuid)
  | compensate (object : ObjectName)
  deriving DecidableEq

/-- How a step ends: it succeeds, it raises and had no effect, it had its effect and raises, or
the request is cancelled in it, which `except Exception` does not catch. -/
inductive StepOutcome where
  | done
  | raised
  | raisedAfter
  | cancelled
  deriving DecidableEq

/-- The tables, the number of uploads so far, and the bucket. -/
structure PersonStore where
  persons : KeyedTable Person.id
  outbox : KeyedTable CleanupRow.objectName
  uploaded : Nat
  bucket : List ObjectName

namespace PersonStore

def empty : PersonStore := ⟨.empty, .empty, 0, []⟩

/-- `upload_file`. -/
def upload (s : PersonStore) : PersonStore :=
  { s with uploaded := s.uploaded + 1, bucket := s.uploaded :: s.bucket }

/-- `enqueue_external_cleanup`. -/
def enqueueExternalCleanup (s : PersonStore) (object : ObjectName) : PersonStore :=
  match s.outbox.insert ⟨object, false⟩ with
  | some outbox => { s with outbox := outbox }
  | none => s

/-- `if old_id: enqueue_external_cleanup(…)`. -/
def enqueueOld (s : PersonStore) : Option ObjectName → PersonStore
  | some object => s.enqueueExternalCleanup object
  | none => s

/-- The transaction of `create_person`. The database chooses a new id. -/
def insertPerson (s : PersonStore) (personId : Uuid) (object : ObjectName) : Option PersonStore :=
  (s.persons.insert ⟨personId, some object⟩).map fun persons => { s with persons := persons }

/-- The transaction of `update_face`. -/
def replaceFace (s : PersonStore) (personId : Uuid) (oldId : Option ObjectName)
    (object : ObjectName) : PersonStore :=
  { s with
    persons := s.persons.update (fun person => person.id = personId)
      (fun person => { person with faceImageId := some object }) fun _ => rfl }.enqueueOld oldId

/-- The transaction of `delete_person`, which raises without the row. -/
def deletePerson (s : PersonStore) (personId : Uuid) : Option PersonStore :=
  (s.persons.find personId).map fun person =>
    { s with persons := s.persons.delete fun person => person.id = personId }.enqueueOld
      person.faceImageId

/-- The next step of a request. Without a next place it is over. `newId` is the id that the
database gives to a new person. -/
def advance (s : PersonStore) (newId : Uuid) :
    PersonRequest → StepOutcome → PersonStore × Option PersonRequest
  | .create, .done => (s.upload, some (.createUploaded s.uploaded))
  | .create, .raisedAfter => (s.upload, none)
  | .create, _ => (s, none)
  | .createUploaded object, .done =>
    match s.insertPerson newId object with
    | some s' => (s', none)
    | none => (s, some (.compensate object))
  | .createUploaded object, .raisedAfter =>
    ((s.insertPerson newId object).getD s, some (.compensate object))
  | .createUploaded object, .raised => (s, some (.compensate object))
  | .createUploaded _, .cancelled => (s, none)
  | .updateFace personId, .done =>
    (s, (s.persons.find personId).map fun person => .updateRead personId person.faceImageId)
  | .updateFace _, _ => (s, none)
  | .updateRead personId oldId, .done =>
    (s.upload, some (.updateUploaded personId oldId s.uploaded))
  | .updateRead _ _, .raisedAfter => (s.upload, none)
  | .updateRead _ _, _ => (s, none)
  | .updateUploaded personId oldId object, .done => (s.replaceFace personId oldId object, none)
  | .updateUploaded personId oldId object, .raisedAfter =>
    (s.replaceFace personId oldId object, some (.compensate object))
  | .updateUploaded _ _ object, .raised => (s, some (.compensate object))
  | .updateUploaded _ _ _, .cancelled => (s, none)
  | .delete personId, .done => (s, (s.persons.find personId).map fun _ => .deleteRead personId)
  | .delete _, _ => (s, none)
  | .deleteRead personId, .done => ((s.deletePerson personId).getD s, none)
  | .deleteRead personId, .raisedAfter => ((s.deletePerson personId).getD s, none)
  | .deleteRead _, _ => (s, none)
  | .compensate object, .done => (s.enqueueExternalCleanup object, none)
  | .compensate object, .raisedAfter => (s.enqueueExternalCleanup object, none)
  | .compensate _, _ => (s, none)

end PersonStore

/-- The store with the requests in progress. -/
structure PersonWorld where
  store : PersonStore
  requests : List PersonRequest

/-- A request arrives, a request takes a step, or a pass of the cleanup deletes the object of a
row or marks the row. -/
inductive PersonAct where
  | createPerson
  | updateFace (personId : Uuid)
  | deletePerson (personId : Uuid)
  | run (request : Nat) (newId : Uuid) (outcome : StepOutcome)
  | deleteFile (row : CleanupRow)
  | markProcessed (row : CleanupRow)
  deriving DecidableEq

/-- One step. A pass of the cleanup works on rows of the outbox. -/
def personStep (w : PersonWorld) : PersonAct → Option PersonWorld
  | .createPerson => some { w with requests := w.requests ++ [.create] }
  | .updateFace personId => some { w with requests := w.requests ++ [.updateFace personId] }
  | .deletePerson personId => some { w with requests := w.requests ++ [.delete personId] }
  | .run i newId outcome =>
    match w.requests[i]? with
    | none => none
    | some request =>
      let next := w.store.advance newId request outcome
      some ⟨next.1, resume w.requests i next.2⟩
  | .deleteFile row =>
    if row ∈ w.store.outbox.rows then
      some { w with
        store := { w.store with
          bucket := w.store.bucket.filter fun object => object ≠ row.objectName } }
    else none
  | .markProcessed row =>
    if row ∈ w.store.outbox.rows then
      some { w with
        store := { w.store with
          outbox := w.store.outbox.update (fun r => r = row)
            (fun r => { r with processed := true }) fun _ => rfl } }
    else none

def personMachine : Machine PersonWorld PersonAct where
  init := ⟨.empty, []⟩
  step := personStep

end Rsap.Webapp
