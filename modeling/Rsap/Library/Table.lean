import Mathlib.Data.List.MinMax
import Mathlib.Data.List.Nodup
import Mathlib.Data.List.Sort

/-!
# `Rsap.Library.Table`: tables as lists of rows

A table is the list of its rows in insertion order. `updateWhere` is `UPDATE … SET … WHERE`,
`deleteWhere` is `DELETE … WHERE`, `latestBy` and `firstBy` are
`SELECT … WHERE … ORDER BY … DESC | ASC LIMIT 1`. An `INSERT` appends to the list. A
`KeyedTable` carries the proof that its primary key is unique, so a table with two rows of one
key cannot be built.

The rules say how each statement changes membership, columns that it does not write, a
primary key (`UniqueOn`), and an order between rows.
-/

set_option autoImplicit false

namespace Rsap.Library

variable {α β : Type}

/-- `UPDATE t SET f WHERE p`. -/
def updateWhere (p : α → Prop) [DecidablePred p] (f : α → α) (t : List α) : List α :=
  t.map fun r => if p r then f r else r

/-- `DELETE FROM t WHERE p`. -/
def deleteWhere (p : α → Prop) [DecidablePred p] (t : List α) : List α :=
  t.filter fun r => ¬ p r

/-- The number of rows that a statement with the condition `p` touches. -/
def rowcount (p : α → Prop) [DecidablePred p] (t : List α) : Nat :=
  t.countP fun r => p r

/-- The row of `p` with the largest `key`. -/
def latestBy (p : α → Prop) [DecidablePred p] (key : α → Nat) (t : List α) : Option α :=
  (t.filter fun r => p r).argmax key

/-- The row of `p` with the smallest `key`. -/
def firstBy (p : α → Prop) [DecidablePred p] (key : α → Nat) (t : List α) : Option α :=
  (t.filter fun r => p r).argmin key

section Statements
variable {p : α → Prop} [DecidablePred p] {f : α → α} {t : List α}

/-- The rows after an update: each old row, changed when the condition holds of it. -/
theorem mem_updateWhere {r' : α} :
    r' ∈ updateWhere p f t ↔ ∃ r ∈ t, (if p r then f r else r) = r' := by
  simp [updateWhere]

/-- The rows after a deletion: the old rows of which the condition fails. -/
theorem mem_deleteWhere {r : α} : r ∈ deleteWhere p t ↔ r ∈ t ∧ ¬ p r := by
  simp [deleteWhere]

/-- An update keeps a column that it does not write. -/
theorem map_updateWhere {g : α → β} (hg : ∀ r, p r → g (f r) = g r) :
    (updateWhere p f t).map g = t.map g := by
  rw [updateWhere, List.map_map]
  refine List.map_congr_left fun r _ => ?_
  by_cases h : p r
  · simp [h, hg r h]
  · simp [h]

/-- An update of which the condition fails for every row changes nothing. -/
theorem updateWhere_eq_self (h : ∀ r ∈ t, ¬ p r) : updateWhere p f t = t := by
  rw [updateWhere]
  conv_rhs => rw [← List.map_id t]
  exact List.map_congr_left fun r hr => by simp [h r hr]

/-- An update of the rows of two tables in a row. -/
theorem updateWhere_append (t t' : List α) :
    updateWhere p f (t ++ t') = updateWhere p f t ++ updateWhere p f t' :=
  List.map_append

/-- An update outside a selection leaves the selection alone. -/
theorem filter_updateWhere_of_not {q : α → Prop} [DecidablePred q]
    (hq : ∀ r ∈ t, p r → ¬ q r ∧ ¬ q (f r)) :
    (updateWhere p f t).filter (fun r => q r) = t.filter fun r => q r := by
  induction t with
  | nil => rfl
  | cons r t ih =>
    have ih' := ih fun r hr => hq r (List.mem_cons_of_mem _ hr)
    rw [updateWhere] at ih' ⊢
    by_cases h : p r
    · obtain ⟨h1, h2⟩ := hq r List.mem_cons_self h
      simp [h, h1, h2, ih']
    · by_cases h' : q r <;> simp [h, h', ih']

/-- A map that fixes the selected rows and selects no other one leaves the selection alone. -/
theorem filter_map_of_fixed {q : α → Prop} [DecidablePred q] {g : α → α}
    (hfix : ∀ r ∈ t, q r → g r = r) (hnot : ∀ r ∈ t, ¬ q r → ¬ q (g r)) :
    (t.map g).filter (fun r => q r) = t.filter fun r => q r := by
  induction t with
  | nil => rfl
  | cons r t ih =>
    have ih' := ih (fun r hr => hfix r (List.mem_cons_of_mem _ hr))
      fun r hr => hnot r (List.mem_cons_of_mem _ hr)
    by_cases h : q r
    · simp [h, hfix r List.mem_cons_self h, ih']
    · simp [h, hnot r List.mem_cons_self h, ih']

end Statements

/-! ### A primary key -/

/-- No two rows agree on `key`. -/
def UniqueOn (key : α → β) (t : List α) : Prop := (t.map key).Nodup

namespace UniqueOn
variable {key : α → β} {t : List α}

/-- The empty table has no key twice. -/
theorem nil : UniqueOn key ([] : List α) := List.nodup_nil

/-- Two rows with one key are the same row. -/
theorem eq (h : UniqueOn key t) {r s : α} (hr : r ∈ t) (hs : s ∈ t) (he : key r = key s) :
    r = s :=
  List.inj_on_of_nodup_map h hr hs he

/-- An insert under a new key keeps the key unique. -/
theorem insert (h : UniqueOn key t) {r : α} (hr : ∀ s ∈ t, key s ≠ key r) :
    UniqueOn key (t ++ [r]) := by
  rw [UniqueOn, List.map_append, List.map_singleton]
  refine List.Nodup.append h (List.nodup_singleton _) ?_
  intro k hk hk'
  obtain ⟨s, hs, rfl⟩ := List.mem_map.mp hk
  exact hr s hs (List.mem_singleton.mp hk')

/-- An update that does not write the key keeps it unique. -/
theorem update (h : UniqueOn key t) {p : α → Prop} [DecidablePred p] {f : α → α}
    (hf : ∀ r, p r → key (f r) = key r) : UniqueOn key (updateWhere p f t) := by
  rw [UniqueOn, map_updateWhere hf]
  exact h

/-- A deletion keeps the key unique. -/
theorem delete (h : UniqueOn key t) (p : α → Prop) [DecidablePred p] :
    UniqueOn key (deleteWhere p t) :=
  List.Nodup.sublist (List.Sublist.map _ List.filter_sublist) h

/-- Under a unique key, a condition that fixes the key touches one row, when it touches any. -/
theorem rowcount_eq_one (h : UniqueOn key t) {p : α → Prop} [DecidablePred p] {r : α}
    (hr : r ∈ t) (hp : p r) (hkey : ∀ s, p s → key s = key r) : rowcount p t = 1 := by
  induction t with
  | nil => cases hr
  | cons s t ih =>
    have hnd : key s ∉ t.map key ∧ UniqueOn key t := List.nodup_cons.mp h
    rw [rowcount, List.countP_cons]
    rcases List.mem_cons.mp hr with rfl | hr'
    · have hnone : t.countP (fun s => p s) = 0 := by
        rw [List.countP_eq_zero]
        intro s hs hps
        exact hnd.1 (List.mem_map.mpr ⟨s, hs, hkey s (by simpa using hps)⟩)
      simp [hnone, hp]
    · have hns : ¬ p s := fun hps =>
        hnd.1 (List.mem_map.mpr ⟨r, hr', (hkey s hps).symm⟩)
      simpa [rowcount, hns] using ih hnd.2 hr'

/-- Under a unique key, the rows with the key of a row are that row. -/
theorem filter_eq_singleton [DecidableEq β] (h : UniqueOn key t) {r : α} (hr : r ∈ t) :
    t.filter (fun s => key s = key r) = [r] := by
  have hone : (t.filter fun s => key s = key r).length = 1 := by
    have hcount := h.rowcount_eq_one (p := fun s => key s = key r) hr rfl fun _ hs => hs
    rwa [rowcount, List.countP_eq_length_filter] at hcount
  obtain ⟨s, hs⟩ := List.length_eq_one_iff.mp hone
  have hmem : r ∈ t.filter fun s => key s = key r := by simp [hr]
  rw [hs] at hmem ⊢
  rw [List.mem_singleton.mp hmem]

/-- Under a unique key, a table is one of its rows and the rows with other keys. -/
theorem perm_cons [DecidableEq β] (h : UniqueOn key t) {r : α} (hr : r ∈ t) :
    t.Perm (r :: deleteWhere (fun s => key s = key r) t) := by
  have hsplit := List.filter_append_perm (fun s => decide (key s = key r)) t
  rw [h.filter_eq_singleton hr] at hsplit
  simpa [deleteWhere] using hsplit.symm

/-- Under a unique key, an update of one row changes this row. -/
theorem updateWhere_perm [DecidableEq β] (h : UniqueOn key t) {r : α} (hr : r ∈ t) (f : α → α) :
    (updateWhere (fun s => key s = key r) f t).Perm
      (f r :: deleteWhere (fun s => key s = key r) t) := by
  have hmap := (h.perm_cons hr).map fun s => if key s = key r then f s else s
  refine hmap.trans ?_
  rw [List.map_cons, if_pos rfl]
  have hothers : updateWhere (fun s => key s = key r) f
      (deleteWhere (fun s => key s = key r) t) = deleteWhere (fun s => key s = key r) t :=
    updateWhere_eq_self fun s hs => (mem_deleteWhere.mp hs).2
  exact (List.Perm.of_eq hothers).cons _

end UniqueOn

/-- A condition that no row satisfies touches no row. -/
theorem rowcount_eq_zero {p : α → Prop} [DecidablePred p] {t : List α} :
    rowcount p t = 0 ↔ ∀ r ∈ t, ¬ p r := by
  simp [rowcount, List.countP_eq_zero]

/-! ### An order between rows -/

section Pairwise
variable {R : α → α → Prop} {t : List α}

/-- An update keeps a relation between rows that reads only columns it does not write. -/
theorem pairwise_updateWhere {p : α → Prop} [DecidablePred p] {f : α → α}
    (hR : ∀ r s, R r s → R (if p r then f r else r) (if p s then f s else s))
    (h : t.Pairwise R) : (updateWhere p f t).Pairwise R := by
  rw [updateWhere, List.pairwise_map]
  exact h.imp fun {r s} hrs => hR r s hrs

/-- A deletion keeps every relation between rows. -/
theorem pairwise_deleteWhere {p : α → Prop} [DecidablePred p] (h : t.Pairwise R) :
    (deleteWhere p t).Pairwise R :=
  h.sublist List.filter_sublist

/-- An insert keeps a relation in which every old row stands to the new one. -/
theorem pairwise_insert {r : α} (h : t.Pairwise R) (hr : ∀ s ∈ t, R s r) :
    (t ++ [r]).Pairwise R := by
  rw [List.pairwise_append]
  exact ⟨h, List.pairwise_singleton _ _, fun s hs r' hr' => by
    rw [List.mem_singleton.mp hr']; exact hr s hs⟩

end Pairwise

/-! ### The extreme row of a selection -/

section Extreme
variable {p : α → Prop} [DecidablePred p] {key : α → Nat} {t : List α} {r : α}

/-- The latest row is a row of the table that qualifies. -/
theorem latestBy_mem (h : latestBy p key t = some r) : r ∈ t ∧ p r := by
  have hm := List.argmax_mem (Option.mem_def.mpr h)
  simpa using hm

/-- No row that qualifies has a larger key than the latest one. -/
theorem latestBy_le (h : latestBy p key t = some r) {s : α} (hs : s ∈ t) (hp : p s) :
    key s ≤ key r :=
  List.le_of_mem_argmax (by simp [hs, hp]) (Option.mem_def.mpr h)

/-- There is no latest row exactly when no row qualifies. -/
theorem latestBy_eq_none : latestBy p key t = none ↔ ∀ s ∈ t, ¬ p s := by
  simp [latestBy, List.argmax_eq_none]

/-- The first row is a row of the table that qualifies. -/
theorem firstBy_mem (h : firstBy p key t = some r) : r ∈ t ∧ p r := by
  have hm := List.argmin_mem (Option.mem_def.mpr h)
  simpa using hm

/-- No row that qualifies has a smaller key than the first one. -/
theorem firstBy_le (h : firstBy p key t = some r) {s : α} (hs : s ∈ t) (hp : p s) :
    key r ≤ key s :=
  List.le_of_mem_argmin (by simp [hs, hp]) (Option.mem_def.mpr h)

end Extreme

/-! ### Tables with a primary key -/

/-- A table with the primary key `key`. -/
structure KeyedTable {κ : Type} (key : α → κ) where
  rows : List α
  unique : UniqueOn key rows

namespace KeyedTable
variable {κ : Type} {key : α → κ}

instance : Membership α (KeyedTable key) where
  mem t r := r ∈ t.rows

/-- The table without rows. -/
def empty : KeyedTable key := ⟨[], .nil⟩

/-- `UPDATE … SET f WHERE p`, for an `f` that does not write the key. -/
def update (t : KeyedTable key) (p : α → Prop) [DecidablePred p] (f : α → α)
    (hf : ∀ r, key (f r) = key r) : KeyedTable key :=
  ⟨updateWhere p f t.rows, t.unique.update fun r _ => hf r⟩

/-- `DELETE … WHERE p`. -/
def delete (t : KeyedTable key) (p : α → Prop) [DecidablePred p] : KeyedTable key :=
  ⟨deleteWhere p t.rows, t.unique.delete p⟩

/-- `INSERT`. It raises, here `none`, when the key is taken. -/
def insert [DecidableEq κ] (t : KeyedTable key) (r : α) : Option (KeyedTable key) :=
  if h : ∀ s ∈ t.rows, key s ≠ key r then some ⟨t.rows ++ [r], t.unique.insert h⟩ else none

/-- `SELECT … WHERE key=k`. -/
def find [DecidableEq κ] (t : KeyedTable key) (k : κ) : Option α :=
  t.rows.find? fun r => key r = k

/-- The rows after an `UPDATE` are the old ones, each changed where it matches. -/
theorem mem_update {t : KeyedTable key} {p : α → Prop} [DecidablePred p] {f : α → α}
    {hf : ∀ r, key (f r) = key r} {r' : α} :
    r' ∈ t.update p f hf ↔ ∃ r ∈ t, (if p r then f r else r) = r' :=
  mem_updateWhere

/-- The rows after a `DELETE` are the old ones that do not match. -/
theorem mem_delete {t : KeyedTable key} {p : α → Prop} [DecidablePred p] {r : α} :
    r ∈ t.delete p ↔ r ∈ t ∧ ¬ p r :=
  mem_deleteWhere

/-- Two rows with one key are the same row. -/
theorem eq_of_key (t : KeyedTable key) {r s : α} (hr : r ∈ t) (hs : s ∈ t) (h : key r = key s) :
    r = s :=
  t.unique.eq hr hs h

variable [DecidableEq κ]

/-- An insert that does not raise adds the row, under a key that no row has. -/
theorem insert_some {t t' : KeyedTable key} {r : α} (h : t.insert r = some t') :
    t'.rows = t.rows ++ [r] ∧ ∀ s ∈ t, key s ≠ key r := by
  unfold insert at h
  split at h
  · rename_i hnew
    cases h
    exact ⟨rfl, hnew⟩
  · cases h

/-- The rows after an `INSERT` that the key admits are the old ones and the new one. -/
theorem mem_insert {t t' : KeyedTable key} {r s : α} (h : t.insert r = some t') :
    s ∈ t' ↔ s ∈ t ∨ s = r := by
  show s ∈ t'.rows ↔ s ∈ t.rows ∨ s = r
  rw [(insert_some h).1, List.mem_append, List.mem_singleton]

/-- A row is found under its key. -/
theorem find_eq_some {t : KeyedTable key} {k : κ} {r : α} :
    t.find k = some r ↔ r ∈ t ∧ key r = k := by
  constructor
  · intro h
    exact ⟨List.mem_of_find?_eq_some h, by simpa using List.find?_some h⟩
  · rintro ⟨hr, rfl⟩
    cases hfind : t.find (key r) with
    | none =>
      have hnone := List.find?_eq_none.mp hfind r hr
      simp at hnone
    | some s =>
      have hs : s ∈ t := List.mem_of_find?_eq_some hfind
      have hkey : key s = key r := by simpa using List.find?_some hfind
      rw [t.eq_of_key hs hr hkey]

end KeyedTable

end Rsap.Library
