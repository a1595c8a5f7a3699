import Rsap.Library.Keyset
import Rsap.Library.Machine
import Rsap.Webapp.Database

/-!
# `Rsap.Webapp.PersonExport`: the CSV export of the registered persons

The generator `stream_csv` of `export_persons` (`app/routers/persons.py`). Each `fetch` is a
statement of its own, so the table changes between two of them. The loop keeps the last id only.

A chunk of the CSV is its list of records, the header apart. `steady` is a ghost: the ids that the
table had at every moment of the export so far.
-/

set_option autoImplicit false

namespace Rsap.Webapp

open Rsap.Desktop (Uuid Timestamp)
open Rsap.Library

/-- The columns of `events.registered_persons` that the export reads. -/
structure ExportRow where
  id : Uuid
  fullName : String
  phone : String
  entryStatus : String
  entryTime : Option Timestamp
  createdAt : Timestamp
  deriving DecidableEq

/-- The `LIMIT` of a fetch. -/
def exportBatch : Nat := 500

/-- The table and the generator: its `last_id`, the chunks that it yielded after the header, the
number of its fetches, and whether it is at its end. -/
structure PersonExport where
  table : KeyedTable ExportRow.id
  lastId : Option Uuid
  chunks : List (List ExportRow)
  fetches : Nat
  ended : Bool
  inserted : Nat
  steady : List Uuid

/-- A statement of another request, or the next fetch. An update does not write the id. -/
inductive ExportAct where
  | insert (row : ExportRow)
  | update (id : Uuid) (fullName phone entryStatus : String) (entryTime : Option Timestamp)
  | delete (id : Uuid)
  | fetch
  deriving DecidableEq

namespace PersonExport

/-- The rows of the CSV. -/
def rows (e : PersonExport) : List ExportRow := e.chunks.flatten

/-- The loop body: `fetch`, and `break` or `yield`. -/
def fetch (e : PersonExport) : PersonExport :=
  let page := pageAfter ExportRow.id e.lastId exportBatch e.table.rows
  if page = [] then { e with fetches := e.fetches + 1, ended := true }
  else
    { e with
      fetches := e.fetches + 1
      chunks := e.chunks ++ [page]
      lastId := page.getLast?.map ExportRow.id }

/-- One step. -/
def step (e : PersonExport) : ExportAct → Option PersonExport
  | .insert row => (e.table.insert row).map fun table =>
      { e with table, inserted := e.inserted + 1 }
  | .update id fullName phone entryStatus entryTime =>
    some { e with
      table := e.table.update (fun row => row.id = id)
        (fun row => { row with fullName, phone, entryStatus, entryTime }) fun _ => rfl }
  | .delete id =>
    some { e with
      table := e.table.delete fun row => row.id = id
      steady := e.steady.filter fun other => other ≠ id }
  | .fetch => if e.ended then none else some e.fetch

end PersonExport

/-- An export of a table, and the requests beside it. -/
def exportMachine (table : KeyedTable ExportRow.id) : Machine PersonExport ExportAct where
  init := ⟨table, none, [], 0, false, 0, table.rows.map ExportRow.id⟩
  step := PersonExport.step

end Rsap.Webapp
