import Rsap.Library.Table

/-!
# `Rsap.Library.Keyset`: reading a changing table page by page

`pageAfter` is `SELECT … WHERE key > after ORDER BY key LIMIT n`. A reader asks for one page after
the other and keeps only the last key that it saw, while the table changes between the pages.

`Walked` says what the reader has: rows in strictly ascending order, and among them a row of every
steady key up to its cursor. A steady key is one that the table had at every page. `Walked.page`
keeps it, and after an empty page every steady key was read (`Walked.complete`).
-/

set_option autoImplicit false

namespace Rsap.Library

variable {α κ : Type} [LinearOrder κ]

/-- `SELECT … WHERE key > after ORDER BY key LIMIT limit`, where no `after` means all rows. -/
def pageAfter (key : α → κ) (after : Option κ) (limit : Nat) (t : List α) : List α :=
  ((t.filter fun r => ∀ last ∈ after, last < key r).insertionSort
    fun r s => key r ≤ key s).take limit

section
variable {key : α → κ} {after : Option κ} {limit : Nat} {t : List α} {r s : α}

/-- The rows a fetch selects are the table's rows past the last key seen. -/
theorem mem_selected :
    r ∈ (t.filter fun r => ∀ last ∈ after, last < key r).insertionSort
        (fun r s => key r ≤ key s) ↔ r ∈ t ∧ ∀ last ∈ after, last < key r := by
  rw [List.mem_insertionSort, List.mem_filter, decide_eq_true_eq]

/-- Each row of a page is a row of the table past the last key seen. -/
theorem mem_pageAfter (h : r ∈ pageAfter key after limit t) :
    r ∈ t ∧ ∀ last ∈ after, last < key r :=
  mem_selected.mp (List.mem_of_mem_take h)

/-- The rows that a page is cut from, in strictly ascending order. -/
theorem selected_sorted (ht : UniqueOn key t) :
    ((t.filter fun r => ∀ last ∈ after, last < key r).insertionSort
      fun r s => key r ≤ key s).Pairwise fun r s => key r < key s := by
  have htotal : Std.Total fun r s => key r ≤ key s := ⟨fun r s => le_total (key r) (key s)⟩
  have htrans : IsTrans α fun r s => key r ≤ key s := ⟨fun _ _ _ => le_trans⟩
  have hsorted := List.pairwise_insertionSort (fun r s => key r ≤ key s)
    (t.filter fun r => ∀ last ∈ after, last < key r)
  have hperm := List.perm_insertionSort (fun r s => key r ≤ key s)
    (t.filter fun r => ∀ last ∈ after, last < key r)
  have hunique : (t.filter fun r => ∀ last ∈ after, last < key r).Pairwise
      fun r s => key r ≠ key s :=
    (List.pairwise_map.mp ht).filter _
  have hdistinct := (hperm.symm.pairwise_iff fun {r s} hne => Ne.symm hne).mp hunique
  exact hsorted.imp₂ (fun _ _ hle hne => lt_of_le_of_ne hle hne) hdistinct

/-- The keys of a page ascend strictly, since no two rows share a key. -/
theorem pageAfter_sorted (ht : UniqueOn key t) :
    (pageAfter key after limit t).Pairwise fun r s => key r < key s :=
  (selected_sorted ht).sublist (List.take_sublist _ _)

/-- A page has every row up to its last one. -/
theorem mem_pageAfter_of_le (ht : UniqueOn key t) (hr : r ∈ t)
    (hafter : ∀ last ∈ after, last < key r) (hs : s ∈ pageAfter key after limit t)
    (hle : key r ≤ key s) : r ∈ pageAfter key after limit t := by
  have hmem := mem_selected.mpr ⟨hr, hafter⟩
  have hsorted : ((t.filter fun r => ∀ last ∈ after, last < key r).insertionSort
      fun r s => key r ≤ key s).Pairwise fun r s => key r < key s := selected_sorted ht
  rw [← List.take_append_drop limit (List.insertionSort _ _)] at hmem hsorted
  rcases List.mem_append.mp hmem with hpage | hrest
  · exact hpage
  · have hlt := (List.pairwise_append.mp hsorted).2.2 s hs r hrest
    exact absurd hle (not_le.mpr hlt)

/-- An empty page means that no row is left. -/
theorem pageAfter_nil (hlimit : 0 < limit) (h : pageAfter key after limit t = []) (hr : r ∈ t) :
    ∃ last ∈ after, key r ≤ last := by
  by_contra hnone
  push Not at hnone
  have hmem := mem_selected.mpr ⟨hr, hnone⟩
  rcases List.take_eq_nil_iff.mp h with hzero | hempty
  · omega
  · rw [hempty] at hmem
    cases hmem

end

/-! ### A reader -/

/-- The rows that a reader has when its cursor is `after`. -/
structure Walked (key : α → κ) (steady : κ → Prop) (rows : List α) (after : Option κ) : Prop where
  sorted : rows.Pairwise fun r s => key r < key s
  cursor : (rows.getLast?).map key = after
  covered : ∀ k, steady k → (∃ last ∈ after, k ≤ last) → k ∈ rows.map key

namespace Walked
variable {key : α → κ} {steady steady' : κ → Prop} {rows : List α} {after : Option κ} {limit : Nat}
  {t : List α}

/-- A walk that has fetched nothing. -/
theorem start (key : α → κ) (steady : κ → Prop) : Walked key steady [] none :=
  ⟨List.Pairwise.nil, rfl, fun _ _ h => by obtain ⟨_, hlast, -⟩ := h; cases hlast⟩

/-- Fewer keys are steady. -/
theorem mono (h : Walked key steady rows after) (himp : ∀ k, steady' k → steady k) :
    Walked key steady' rows after :=
  ⟨h.sorted, h.cursor, fun k hk => h.covered k (himp k hk)⟩

/-- Every row is at or before the cursor. -/
theorem le_cursor (h : Walked key steady rows after) {r : α} (hr : r ∈ rows) :
    ∃ last ∈ after, key r ≤ last := by
  have hne : rows ≠ [] := List.ne_nil_of_mem hr
  refine ⟨key (rows.getLast hne), ?_, ?_⟩
  · rw [← h.cursor, List.getLast?_eq_some_getLast hne]
    rfl
  · have hsorted := h.sorted
    rw [← List.dropLast_append_getLast hne] at hr hsorted
    rcases List.mem_append.mp hr with hinit | hlast
    · exact ((List.pairwise_append.mp hsorted).2.2 r hinit _ (List.mem_singleton_self _)).le
    · rw [List.mem_singleton.mp hlast]

/-- The reader adds a page that is not empty. -/
theorem page (h : Walked key steady rows after) (ht : UniqueOn key t)
    (hsteady : ∀ k, steady k → k ∈ t.map key) (hne : pageAfter key after limit t ≠ []) :
    Walked key steady (rows ++ pageAfter key after limit t)
      ((pageAfter key after limit t).getLast?.map key) := by
  constructor
  case sorted =>
    refine List.pairwise_append.mpr ⟨h.sorted, pageAfter_sorted ht, fun r hr s hs => ?_⟩
    obtain ⟨last, hlast, hle⟩ := h.le_cursor hr
    exact lt_of_le_of_lt hle ((mem_pageAfter hs).2 last hlast)
  case cursor => rw [List.getLast?_append_of_ne_nil _ hne]
  case covered =>
    rintro k hk ⟨last, hlast, hle⟩
    rw [List.map_append, List.mem_append]
    by_cases hold : ∃ last ∈ after, k ≤ last
    · exact .inl (h.covered k hk hold)
    · push Not at hold
      obtain ⟨r, hr, rfl⟩ := List.mem_map.mp (hsteady k hk)
      obtain ⟨s, hs, rfl⟩ := Option.map_eq_some_iff.mp hlast
      exact .inr (List.mem_map_of_mem
        (mem_pageAfter_of_le ht hr hold (List.mem_of_getLast? hs) hle))

/-- After an empty page every steady key was read. -/
theorem complete (h : Walked key steady rows after)
    (hsteady : ∀ k, steady k → k ∈ t.map key) (hlimit : 0 < limit)
    (hempty : pageAfter key after limit t = []) : ∀ k, steady k → k ∈ rows.map key := by
  intro k hk
  obtain ⟨r, hr, rfl⟩ := List.mem_map.mp (hsteady k hk)
  exact h.covered _ hk (pageAfter_nil hlimit hempty hr)

/-- No key was read twice. -/
theorem nodup (h : Walked key steady rows after) : (rows.map key).Nodup :=
  List.pairwise_map.mpr (h.sorted.imp fun hlt => hlt.ne)

end Walked

end Rsap.Library
