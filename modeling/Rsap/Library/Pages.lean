import Mathlib.Data.List.Basic

/-!
# `Rsap.Library.Pages`: a list in pages of one size

`window n xs p` is the page with the index `p`, where the first page has the index zero. The first
`k` pages together are the first `k * n` elements (`flatMap_window`), so the pages partition the
list, and a page has elements exactly when the list reaches it (`window_ne_nil_iff`).
-/

set_option autoImplicit false

namespace Rsap.Library

variable {α : Type} (n : Nat) (xs : List α)

/-- The page with the index `p`. -/
def window (p : Nat) : List α := (xs.drop (p * n)).take n

/-- The first `k` pages are the first `k * n` items. -/
theorem flatMap_window (k : Nat) : (List.range k).flatMap (window n xs) = xs.take (k * n) := by
  induction k with
  | zero => simp
  | succ k ih =>
    rw [List.range_succ, List.flatMap_append, ih, List.flatMap_singleton, Nat.succ_mul,
      List.take_add]
    rfl

/-- Enough pages have all elements. -/
theorem flatMap_window_eq (hn : 0 < n) (k : Nat) (hk : xs.length ≤ k) :
    (List.range k).flatMap (window n xs) = xs := by
  have hlength : xs.length ≤ k * n := Nat.le_trans hk (Nat.le_mul_of_pos_right k hn)
  rw [flatMap_window, List.take_of_length_le hlength]

/-- A page is empty exactly when it starts at or past the end. -/
theorem window_ne_nil_iff (hn : 0 < n) (p : Nat) : window n xs p ≠ [] ↔ p * n < xs.length := by
  rw [← List.length_pos_iff, window, List.length_take, List.length_drop]
  omega

end Rsap.Library
