import Rsap.FileServer.Storage
import Rsap.Library.Pages

/-!
# `Rsap.Proofs.FilePages`: the pages of a bucket

The objects that a listing shows are those whose names carry a file id (`files`). The loop of
`list_files` first skips (`listLoop_skip`) and then collects (`listLoop_collect`). Each phase is
an induction over the objects, and an object without a file id changes nothing in either. Together
they say that a page is a window of `files`, with `has_more` when the files go on after it
(`listFiles_eq`).
-/

set_option autoImplicit false

namespace Rsap.Proofs

open Rsap.FileServer Rsap.Library

variable (decimal : Char → Option (Fin 10))

/-- The item of an object whose name carries a UUID of version 4. -/
def fileItem (object : StoredObject) : Option FileItem :=
  (fileIdFromObjectName decimal object.objectName).map object.item

/-- The files of a bucket, in the order of the listing. -/
def files (objects : List StoredObject) : List FileItem := objects.filterMap (fileItem decimal)

/-! ### The two phases of the loop -/

section Loop
variable {decimal} {object : StoredObject}

/-- An object whose name carries no file id is passed over. -/
theorem files_cons_none (h : fileIdFromObjectName decimal object.objectName = none)
    (rest : List StoredObject) : files decimal (object :: rest) = files decimal rest := by
  simp [files, fileItem, h]

/-- An object whose name carries a file id is listed with it. -/
theorem files_cons_some {fileId : UUID}
    (h : fileIdFromObjectName decimal object.objectName = some fileId)
    (rest : List StoredObject) :
    files decimal (object :: rest) = object.item fileId :: files decimal rest := by
  simp [files, fileItem, h]

end Loop

/-- From the offset on, the loop fills the page and then looks for one more file. -/
theorem listLoop_collect (offset : Int) (pageSize : Nat) (objects : List StoredObject)
    (accepted : Int) (items : List FileItem) (hoffset : offset ≤ accepted)
    (hitems : items.length ≤ pageSize) :
    listLoop decimal offset pageSize objects accepted items =
      (items ++ (files decimal objects).take (pageSize - items.length),
        decide (pageSize - items.length < (files decimal objects).length)) := by
  -- on the objects, with the page that is filled so far
  induction objects generalizing accepted items with
  | nil => simp [listLoop, files]
  | cons object rest ih =>
    cases hid : fileIdFromObjectName decimal object.objectName with
    | none =>
      rw [listLoop, hid, files_cons_none hid]
      exact ih accepted items hoffset hitems
    | some fileId =>
      rw [listLoop, hid, files_cons_some hid]
      simp only
      rw [if_neg (by omega)]
      by_cases hfull : items.length = pageSize
      · -- the look-ahead: the page is full, and here is one more file
        rw [if_pos (by exact_mod_cast hfull)]
        simp [hfull]
      · have hroom : (items ++ [object.item fileId]).length ≤ pageSize := by
          rw [List.length_append, List.length_singleton]
          omega
        have hstep : pageSize - items.length = pageSize - (items.length + 1) + 1 := by omega
        rw [if_neg (by exact_mod_cast hfull), ih (accepted + 1) _ (by omega) hroom,
          List.length_append, List.length_singleton, hstep]
        simp

/-- Below the offset, the loop passes over one file after the other. -/
theorem listLoop_skip (offset pageSize : Nat) (objects : List StoredObject) (accepted : Nat)
    (haccepted : accepted ≤ offset) :
    listLoop decimal offset pageSize objects accepted [] =
      (((files decimal objects).drop (offset - accepted)).take pageSize,
        decide (pageSize < ((files decimal objects).drop (offset - accepted)).length)) := by
  -- on the objects, with the number of files that were passed over
  induction objects generalizing accepted with
  | nil => simp [listLoop, files]
  | cons object rest ih =>
    by_cases hlt : accepted < offset
    · cases hid : fileIdFromObjectName decimal object.objectName with
      | none =>
        rw [listLoop, hid, files_cons_none hid]
        exact ih accepted haccepted
      | some fileId =>
        have hstep : offset - accepted = offset - (accepted + 1) + 1 := by omega
        rw [listLoop, hid, files_cons_some hid, hstep, List.drop_succ_cons, ← ih (accepted + 1) hlt]
        exact if_pos (by exact_mod_cast hlt)
    · -- at the offset the second phase begins
      have heq : accepted = offset := by omega
      subst heq
      rw [listLoop_collect decimal accepted pageSize (object :: rest) accepted []
        (Int.le_refl _)
        (Nat.zero_le _)]
      simp

/-- A page is a window of the files. The page with the number `p + 1` has the index `p`. -/
theorem listFiles_eq (settings : Settings) (bucket : String) (hbucket : bucket ∈ settings.buckets)
    (p pageSize : Nat) (hsize : 1 ≤ pageSize) (objects : List StoredObject) :
    listFiles decimal settings bucket (p + 1 : Nat) pageSize objects =
      .ok (window pageSize (files decimal objects) p,
        decide (window pageSize (files decimal objects) (p + 1) ≠ [])) := by
  have hoffset : (((p + 1 : Nat) : Int) - 1) * pageSize = ((p * pageSize : Nat) : Int) := by
    rw [Int.natCast_mul]
    congr 1
    omega
  have hmore : pageSize < ((files decimal objects).drop (p * pageSize)).length ↔
      window pageSize (files decimal objects) (p + 1) ≠ [] := by
    rw [window_ne_nil_iff _ _ hsize, List.length_drop, Nat.succ_mul]
    omega
  rw [listFiles, requireBucket, if_pos hbucket, hoffset]
  show Except.ok (listLoop decimal _ _ objects ((0 : Nat) : Int) []) = _
  rw [listLoop_skip decimal (p * pageSize) pageSize objects 0 (Nat.zero_le _)]
  simp only [Nat.sub_zero, decide_eq_decide.mpr hmore]
  rfl

/-- The pages of a listing partition the files of the bucket. -/
theorem file_pages_partition (settings : Settings) (bucket : String) (pageSize : Int)
    (objects : List StoredObject) (hbucket : bucket ∈ settings.buckets) (hsize : 1 ≤ pageSize) :
    ∃ (items : Nat → List FileItem) (hasMore : Nat → Bool),
      (∀ page : Nat, 1 ≤ page →
        listFiles decimal settings bucket page pageSize objects =
          .ok (items page, hasMore page)) ∧
      (∀ count, objects.length ≤ count →
        (List.range count).flatMap (fun k => items (k + 1)) = files decimal objects) ∧
      ∀ page, 1 ≤ page → (hasMore page = true ↔ items (page + 1) ≠ []) := by
  obtain ⟨n, rfl⟩ : ∃ n : Nat, pageSize = n := ⟨pageSize.toNat, by omega⟩
  have hn : 1 ≤ n := by omega
  refine ⟨fun page => window n (files decimal objects) (page - 1),
    fun page => decide (window n (files decimal objects) page ≠ []), ?_, ?_, ?_⟩
  · intro page hpage
    obtain ⟨p, rfl⟩ : ∃ p, page = p + 1 := ⟨page - 1, by omega⟩
    exact listFiles_eq decimal settings bucket hbucket p n hn objects
  · intro count hcount
    have hfiles : (files decimal objects).length ≤ count :=
      Nat.le_trans (List.length_filterMap_le _ _) hcount
    exact flatMap_window_eq n _ hn count hfiles
  · intro page _
    exact decide_eq_true_iff

/-- A bucket with two files and a stray object between them. -/
def strayBucket : List StoredObject :=
  [⟨"a/00000000-0000-4000-8000-000000000001.jpg", some 3, none, none⟩,
    ⟨"notes.txt", none, none, none⟩,
    ⟨"b/00000000-0000-4000-8000-000000000002.jpg", some 5, none, none⟩]

/-- A bucket with one stray object. -/
theorem file_pages_partition_stray :
    (files (fun _ => none) strayBucket).length = 2 ∧
    ∃ (items : Nat → List FileItem) (hasMore : Nat → Bool),
      (∀ page : Nat, 1 ≤ page →
        listFiles (fun _ => none) ⟨"faces", "captures", "documents"⟩ "captures" page 1 strayBucket =
          .ok (items page, hasMore page)) ∧
      (∀ count, strayBucket.length ≤ count →
        (List.range count).flatMap (fun k => items (k + 1)) =
          files (fun _ => none) strayBucket) ∧
      ∀ page, 1 ≤ page → (hasMore page = true ↔ items (page + 1) ≠ []) :=
  ⟨by decide +kernel, file_pages_partition (fun _ => none) ⟨"faces", "captures", "documents"⟩
    "captures" 1 strayBucket (by decide) (by decide)⟩

end Rsap.Proofs
