import Mathlib.Algebra.Order.Field.Basic
import Mathlib.Tactic.FieldSimp
import Mathlib.Tactic.Linarith

/-!
# `Rsap.Library.Overlap`: the common part of two intervals and of two sizes

`overlap a b c d` is the length that the intervals from `a` to `b` and from `c` to `d` have in
common. `share i x y` is the Jaccard index of two sets of the sizes `x` and `y` whose common part
has the size `i`: the size of the common part over the size of the union.

* `overlap_pos_iff`: the overlap is positive exactly when a point lies inside both intervals.
* `overlap_eq_left_iff`: it is the whole length of an interval exactly when the other interval
  contains that one.
* `share_eq_zero_iff`, `share_eq_one_iff`: the index is zero exactly when nothing is common, and
  one exactly when everything is.
-/

set_option autoImplicit false

namespace Rsap.Library

variable {α : Type} [Field α] [LinearOrder α]

/-- The length of the common part of two intervals. -/
def overlap (a b c d : α) : α := max 0 (min b d - max a c)

/-- The size of the common part over the size of the union, and zero for an empty union. -/
def share (i x y : α) : α := if 0 < x + y - i then i / (x + y - i) else 0

/-- An overlap is never negative: disjoint intervals overlap by `0`. -/
theorem overlap_nonneg (a b c d : α) : 0 ≤ overlap a b c d := le_max_left _ _

/-- The overlap does not depend on which interval is named first. -/
theorem overlap_comm (a b c d : α) : overlap a b c d = overlap c d a b := by
  unfold overlap
  rw [min_comm b d, max_comm a c]

/-! ### Intervals -/

variable [IsStrictOrderedRing α]

/-- The overlap is at most the length of the first interval. -/
theorem overlap_le_left {a b : α} (c d : α) (h : a ≤ b) : overlap a b c d ≤ b - a := by
  have hupper : min b d ≤ b := min_le_left b d
  have hlower : a ≤ max a c := le_max_left a c
  exact max_le (by linarith) (by linarith)

/-- The overlap is at most the length of the second interval. -/
theorem overlap_le_right (a b : α) {c d : α} (h : c ≤ d) : overlap a b c d ≤ d - c := by
  rw [overlap_comm]
  exact overlap_le_left a b h

/-- The middle of the common part is a point of both. -/
theorem overlap_pos_iff (a b c d : α) :
    0 < overlap a b c d ↔ ∃ t, (a < t ∧ t < b) ∧ (c < t ∧ t < d) := by
  rw [overlap, lt_max_iff]
  constructor
  · intro h
    have hlt : max a c < min b d := by
      rcases h with h | h
      · exact absurd h (lt_irrefl 0)
      · linarith
    obtain ⟨t, hlow, hup⟩ := exists_between hlt
    exact ⟨t, ⟨(max_lt_iff.mp hlow).1, (lt_min_iff.mp hup).1⟩, (max_lt_iff.mp hlow).2,
      (lt_min_iff.mp hup).2⟩
  · rintro ⟨t, ⟨hat, htb⟩, hct, htd⟩
    have hlow : max a c < t := max_lt hat hct
    have hup : t < min b d := lt_min htb htd
    exact .inr (by linarith)

/-- Only an interval that contains another has all its length in common with it. -/
theorem overlap_eq_left_iff {a b : α} (c d : α) (h : a < b) :
    overlap a b c d = b - a ↔ c ≤ a ∧ b ≤ d := by
  constructor
  · intro heq
    have hpos : 0 < min b d - max a c := by
      by_contra hneg
      rw [overlap, max_eq_left (by linarith)] at heq
      linarith
    rw [overlap, max_eq_right hpos.le] at heq
    have hupper : min b d ≤ b := min_le_left b d
    have hlower : a ≤ max a c := le_max_left a c
    have hc : max a c ≤ a := by linarith
    have hd : b ≤ min b d := by linarith
    exact ⟨(max_le_iff.mp hc).2, (le_min_iff.mp hd).2⟩
  · rintro ⟨hca, hbd⟩
    rw [overlap, min_eq_left hbd, max_eq_left hca, max_eq_right (by linarith)]

/-! ### Products of lengths -/

/-- A product of parts is the product of the wholes only when each part is its whole. -/
theorem mul_eq_mul_of_le {p q v w : α} (hp : 0 ≤ p) (hpv : p ≤ v) (hv : 0 < v) (hqw : q ≤ w)
    (hw : 0 < w) : p * q = v * w ↔ p = v ∧ q = w := by
  constructor
  · intro heq
    have hfirst : p * q ≤ p * w := mul_le_mul_of_nonneg_left hqw hp
    have hsecond : p * w ≤ v * w := mul_le_mul_of_nonneg_right hpv hw.le
    have hwhole : p * w = v * w := le_antisymm hsecond (heq ▸ hfirst)
    have hpEq : p = v := mul_right_cancel₀ hw.ne' hwhole
    rw [hpEq] at heq
    exact ⟨hpEq, mul_left_cancel₀ hv.ne' heq⟩
  · rintro ⟨rfl, rfl⟩
    rfl

/-! ### The Jaccard index -/

/-- A common part is not larger than either of two nonempty sets. -/
structure Common (i x y : α) : Prop where
  nonneg : 0 ≤ i
  le_left : i ≤ x
  le_right : i ≤ y
  pos : 0 < x

section Share
variable {i x y : α} (h : Common i x y)
include h

/-- The union is positive, so the division by it means something. -/
theorem Common.union_pos : 0 < x + y - i := by
  have hright := h.le_right
  have hpos := h.pos
  linarith

/-- The guard against an empty union never decides: the share is the quotient. -/
theorem Common.share_eq : share i x y = i / (x + y - i) := if_pos h.union_pos

/-- A share is at least `0`. -/
theorem Common.share_nonneg : 0 ≤ share i x y := by
  rw [h.share_eq]
  exact div_nonneg h.nonneg h.union_pos.le

/-- A share is at most `1`. -/
theorem Common.share_le_one : share i x y ≤ 1 := by
  rw [h.share_eq, div_le_one h.union_pos]
  have hleft := h.le_left
  have hright := h.le_right
  linarith

/-- The share is `0` exactly when nothing is common. -/
theorem Common.share_eq_zero_iff : share i x y = 0 ↔ i = 0 := by
  rw [h.share_eq, div_eq_zero_iff, or_iff_left h.union_pos.ne']

/-- The share is `1` exactly when all of both sizes is common. -/
theorem Common.share_eq_one_iff : share i x y = 1 ↔ i = x ∧ i = y := by
  rw [h.share_eq, div_eq_one_iff_eq h.union_pos.ne']
  have hleft := h.le_left
  have hright := h.le_right
  constructor
  · intro heq
    exact ⟨by linarith, by linarith⟩
  · rintro ⟨hx, hy⟩
    linarith

end Share

end Rsap.Library
