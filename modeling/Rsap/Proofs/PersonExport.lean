import Rsap.Webapp.PersonExport

/-!
# `Rsap.Proofs.PersonExport`: the export is complete and has no duplicates

The generator is the reader of `Rsap.Library.Keyset`: `Exported` says so, together with the bound
on the number of its fetches. Every fetch but the last one yields a row, and every row of the CSV
has an id that the table had at the start or that was inserted.
-/

set_option autoImplicit false

namespace Rsap.Proofs

open Rsap.Desktop (Uuid Timestamp)
open Rsap.Library
open Rsap.Library.Machine (Reachable Any)
open Rsap.Webapp

/-- The invariant of the loop. `ids` are the ids that the table ever had. -/
structure Exported (start : Nat) (e : PersonExport) (ids : List Uuid) : Prop where
  walked : Walked ExportRow.id (· ∈ e.steady) e.rows e.lastId
  steady : ∀ id ∈ e.steady, id ∈ e.table.rows.map ExportRow.id
  complete : e.ended = true → ∀ id ∈ e.steady, id ∈ e.rows.map ExportRow.id
  known : ∀ row ∈ e.table.rows, row.id ∈ ids
  read : ∀ row ∈ e.rows, row.id ∈ ids
  length : ids.length = start + e.inserted
  fetches : e.fetches ≤ e.rows.length + if e.ended then 1 else 0

section
variable {start : Nat} {e e' : PersonExport} {ids : List Uuid}

/-- A fetch adds the rows of one page. -/
theorem exported_fetch (h : Exported start e ids) (hrunning : e.ended = false) :
    Exported start e.fetch ids := by
  have hfetches := h.fetches
  rw [hrunning, if_neg Bool.false_ne_true] at hfetches
  unfold PersonExport.fetch
  dsimp only
  split
  -- an empty page ends the export, and nothing with a greater id is left
  · rename_i hempty
    have hcomplete := h.walked.complete h.steady (by decide) hempty
    refine ⟨h.walked, h.steady, fun _ => hcomplete, h.known, h.read, h.length, ?_⟩
    show e.fetches + 1 ≤ e.rows.length + 1
    omega
  -- the page continues the ascending walk over the ids
  · rename_i hne
    have hrows : (e.chunks ++ [pageAfter ExportRow.id e.lastId exportBatch e.table.rows]).flatten =
        e.rows ++ pageAfter ExportRow.id e.lastId exportBatch e.table.rows := by
      simp [PersonExport.rows]
    constructor
    case walked =>
      rw [PersonExport.rows, hrows]
      exact h.walked.page e.table.unique h.steady hne
    case steady => exact h.steady
    case complete =>
      intro hended
      rw [hrunning] at hended
      cases hended
    case known => exact h.known
    case read =>
      intro row hrow
      rw [PersonExport.rows, hrows] at hrow
      rcases List.mem_append.mp hrow with hold | hnew
      · exact h.read row hold
      · exact h.known row (mem_pageAfter hnew).1
    case length => exact h.length
    case fetches =>
      rw [PersonExport.rows, hrows, List.length_append]
      have hpos := List.length_pos_of_ne_nil hne
      show e.fetches + 1 ≤ _ + _ + if e.ended then 1 else 0
      omega

/-- Every step keeps the account of the exported rows. -/
theorem exported_step {a : ExportAct} (h : Exported start e ids) (hstep : e.step a = some e') :
    ∃ ids', Exported start e' ids' := by
  cases a with
  -- a new row is known, and the steady ones stay
  | insert row =>
    obtain ⟨table, htable, rfl⟩ := Option.map_eq_some_iff.mp hstep
    have hrows : table.rows = e.table.rows ++ [row] := (KeyedTable.insert_some htable).1
    refine ⟨row.id :: ids, h.walked, ?_, h.complete, ?_, ?_, ?_, h.fetches⟩
    · intro id hid
      show id ∈ table.rows.map ExportRow.id
      rw [hrows, List.map_append]
      exact List.mem_append_left _ (h.steady id hid)
    · show ∀ r ∈ table.rows, r.id ∈ row.id :: ids
      intro r hr
      rw [hrows] at hr
      rcases List.mem_append.mp hr with hold | hnew
      · exact List.mem_cons_of_mem _ (h.known r hold)
      · rw [List.mem_singleton.mp hnew]
        exact List.mem_cons_self
    · exact fun r hr => List.mem_cons_of_mem _ (h.read r hr)
    · rw [List.length_cons, h.length]
      rfl
  -- an update keeps all ids
  | update id fullName phone entryStatus entryTime =>
    cases hstep
    have hids : ∀ (f : ExportRow → ExportRow) (hf : ∀ row, (f row).id = row.id),
        (e.table.update (fun row => row.id = id) f hf).rows.map ExportRow.id =
          e.table.rows.map ExportRow.id := fun f hf => map_updateWhere fun row _ => hf row
    refine ⟨ids, h.walked, ?_, h.complete, ?_, h.read, h.length, h.fetches⟩
    · intro other hother
      rw [hids]
      exact h.steady other hother
    · intro row hrow
      have hmem := List.mem_map_of_mem (f := ExportRow.id) hrow
      rw [hids] at hmem
      obtain ⟨old, hold, heq⟩ := List.mem_map.mp hmem
      exact heq ▸ h.known old hold
  -- a deleted row is no longer steady
  | delete id =>
    cases hstep
    have hfewer : ∀ other ∈ e.steady.filter fun other => other ≠ id, other ∈ e.steady :=
      fun other hother => (List.mem_filter.mp hother).1
    refine ⟨ids, h.walked.mono hfewer, ?_, ?_, ?_, h.read, h.length, h.fetches⟩
    · intro other hother
      obtain ⟨hold, hne⟩ := List.mem_filter.mp hother
      obtain ⟨row, hrow, rfl⟩ := List.mem_map.mp (h.steady other hold)
      exact List.mem_map_of_mem (KeyedTable.mem_delete.mpr ⟨hrow, of_decide_eq_true hne⟩)
    · exact fun hended other hother => h.complete hended other (hfewer other hother)
    · exact fun row hrow => h.known row (mem_deleteWhere.mp hrow).1
  -- the export reads its next page
  | fetch =>
    simp only [PersonExport.step] at hstep
    split at hstep
    · cases hstep
    · rename_i hrunning
      cases hstep
      exact ⟨ids, exported_fetch h (Bool.eq_false_iff.mpr hrunning)⟩

end

/-- The rows of the CSV are in strictly ascending order of their ids, so no row comes twice. When
the export is at its end, every person of the whole export is in it exactly once. The number of
fetches is bounded by the persons at the start and those inserted. -/
theorem person_export {table : KeyedTable ExportRow.id} {e : PersonExport}
    (h : Reachable (exportMachine table) Any e) :
    (e.rows.map ExportRow.id).Pairwise (· < ·) ∧
      (e.ended = true → ∀ id ∈ e.steady, (e.rows.map ExportRow.id).count id = 1) ∧
      (e.ended = false → e.fetches ≤ table.rows.length + e.inserted) ∧
      e.fetches ≤ table.rows.length + e.inserted + 1 := by
  -- at the start the known ids are those of the table
  have hinit : Exported table.rows.length (exportMachine table).init
      (table.rows.map ExportRow.id) := by
    refine ⟨.start _ _, fun id hid => hid, fun hended => ?_, fun row hrow => ?_, fun row hrow => ?_,
      List.length_map _, Nat.le_refl _⟩
    · cases hended
    · exact List.mem_map_of_mem hrow
    · cases hrow
  have hexported : ∃ ids, Exported table.rows.length e ids := by
    induction h with
    | init => exact ⟨_, hinit⟩
    | step a _ _ hstep ih =>
      obtain ⟨ids, hI⟩ := ih
      exact exported_step hI hstep
  obtain ⟨ids, hexported⟩ := hexported
  have hnodup := hexported.walked.nodup
  -- the exported ids are distinct known ones, so there are no more than known
  have hlength : e.rows.length ≤ table.rows.length + e.inserted := by
    have hsubset : e.rows.map ExportRow.id ⊆ ids := by
      intro id hid
      obtain ⟨row, hrow, rfl⟩ := List.mem_map.mp hid
      exact hexported.read row hrow
    have hle := (List.subperm_of_subset hnodup hsubset).length_le
    rw [List.length_map, hexported.length] at hle
    exact hle
  have hfetches := hexported.fetches
  refine ⟨List.pairwise_map.mpr hexported.walked.sorted, fun hended id hid => ?_,
    fun hrunning => ?_,
    ?_⟩
  · exact List.count_eq_one_of_mem hnodup (hexported.complete hended id hid)
  · rw [hrunning, if_neg Bool.false_ne_true] at hfetches
    omega
  · split at hfetches <;> omega

/-- A person with the id. -/
def visitor (id : Uuid) : ExportRow := ⟨id, "A", "123", "pending", none, 0⟩

def visitors : KeyedTable ExportRow.id :=
  ⟨[visitor 5, visitor 2, visitor 9], by unfold UniqueOn; decide⟩

/-- Persons are inserted on both sides of the cursor, and one is deleted. -/
def busyExport : List ExportAct :=
  [.fetch, .insert (visitor 1), .insert (visitor 12), .delete 5, .fetch,
    .update 2 "B" "456" "entered" (some 3), .fetch]

/-- An export while persons are added and deleted. -/
theorem person_export_busy :
    let e := (exportMachine visitors).final (exportMachine visitors).init busyExport
    e.ended = true ∧ e.rows.map ExportRow.id = [2, 5, 9, 12] ∧
      ∀ id ∈ [2, 9], (e.rows.map ExportRow.id).count id = 1 := by
  intro e
  have hreach : Reachable (exportMachine visitors) Any e :=
    Machine.Reachable.final .init busyExport (by decide)
  exact ⟨by decide, by decide, (person_export hreach).2.1 (by decide)⟩

end Rsap.Proofs
