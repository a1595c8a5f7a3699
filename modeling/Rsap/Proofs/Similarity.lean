import Mathlib.Data.List.OfFn
import Rsap.Cv.Tracker
import Rsap.Library.Overlap

/-!
# `Rsap.Proofs.Similarity`: the entries of `iou_batch`

The width and the height of the common part of two boxes are the `overlap` of their sides, and
the value of `iou` is the `share` of the areas. So the bounds, the symmetry and the two equality
cases come from the library, once the areas of accepted boxes are known to be positive.

The interior of a box is the set of the points strictly between its sides (`Rect.Inside`).
-/

set_option autoImplicit false

namespace Rsap.Cv

/-- The list of coordinates of a box. -/
def Rect.coordinates (r : Rect) : List Coordinate :=
  [.finite r.x1, .finite r.y1, .finite r.x2, .finite r.y2]

/-- `validate_bbox` accepts the box. -/
def Rect.Accepted (r : Rect) : Prop := ∃ box, validateBBox (some r.coordinates) = .ok box

/-- The point lies in the interior of the box. -/
def Rect.Inside (r : Rect) (p : Point) : Prop :=
  (r.x1 < p.1 ∧ p.1 < r.x2) ∧ (r.y1 < p.2 ∧ p.2 < r.y2)

end Rsap.Cv

namespace Rsap.Proofs

open Rsap.Cv Rsap.Library

/-- The sides of an accepted box have a positive length. -/
theorem sides_of_accepted {r : Rect} (h : r.Accepted) : r.x1 < r.x2 ∧ r.y1 < r.y2 := by
  obtain ⟨box, hbox⟩ := h
  have hvalues := (validateBBox_eq_ok_iff _ _).mp hbox
  simp only [Rect.coordinates, Option.some.injEq, List.cons.injEq, Coordinate.finite.injEq,
    and_true] at hvalues
  obtain ⟨hx1, hy1, hx2, hy2⟩ := hvalues
  have hwidth := box.x1_lt
  have hheight := box.y1_lt
  rw [← hx1, ← hx2] at hwidth
  rw [← hy1, ← hy2] at hheight
  exact ⟨hwidth, hheight⟩

/-! ### One pair of boxes -/

/-- The area of the common part of two boxes. -/
def commonArea (a b : Rect) : Rat := overlap a.x1 a.x2 b.x1 b.x2 * overlap a.y1 a.y2 b.y1 b.y2

/-- The area of a box. -/
def area (r : Rect) : Rat := (r.x2 - r.x1) * (r.y2 - r.y1)

section Pair
variable {a b : Rect} (ha : a.Accepted) (hb : b.Accepted)
include ha hb

/-- The similarity is the share of the common area in the area of both. -/
theorem iou_eq_share : iou a b = share (commonArea a b) (area a) (area b) := by
  obtain ⟨hax, hay⟩ := sides_of_accepted ha
  obtain ⟨hbx, hby⟩ := sides_of_accepted hb
  have hclamp : ∀ {p q : Rat}, p < q → max 0 (q - p) = q - p := fun h =>
    max_eq_right (sub_nonneg.mpr h.le)
  rw [iou, hclamp hax, hclamp hay, hclamp hbx, hclamp hby]
  rfl

/-- The common part is not larger than either box. -/
theorem common_area : Common (commonArea a b) (area a) (area b) where
  nonneg := mul_nonneg (overlap_nonneg ..) (overlap_nonneg ..)
  le_left := by
    obtain ⟨hax, hay⟩ := sides_of_accepted ha
    exact mul_le_mul (overlap_le_left _ _ hax.le) (overlap_le_left _ _ hay.le)
      (overlap_nonneg ..) (sub_nonneg.mpr hax.le)
  le_right := by
    obtain ⟨hbx, hby⟩ := sides_of_accepted hb
    exact mul_le_mul (overlap_le_right _ _ hbx.le) (overlap_le_right _ _ hby.le)
      (overlap_nonneg ..) (sub_nonneg.mpr hbx.le)
  pos := by
    obtain ⟨hax, hay⟩ := sides_of_accepted ha
    exact mul_pos (sub_pos.mpr hax) (sub_pos.mpr hay)

/-- A similarity is at least `0`. -/
theorem iou_nonneg : 0 ≤ iou a b := by
  rw [iou_eq_share ha hb]
  exact (common_area ha hb).share_nonneg

/-- A similarity is at most `1`. -/
theorem iou_le_one : iou a b ≤ 1 := by
  rw [iou_eq_share ha hb]
  exact (common_area ha hb).share_le_one

/-- No point is inside both boxes exactly when the common part has no area. -/
theorem iou_eq_zero_iff : iou a b = 0 ↔ ∀ p, a.Inside p → ¬b.Inside p := by
  rw [iou_eq_share ha hb, (common_area ha hb).share_eq_zero_iff]
  have hwidth := overlap_pos_iff a.x1 a.x2 b.x1 b.x2
  have hheight := overlap_pos_iff a.y1 a.y2 b.y1 b.y2
  constructor
  · rintro hzero p ⟨hax, hay⟩ ⟨hbx, hby⟩
    have hpos : 0 < commonArea a b :=
      mul_pos (hwidth.mpr ⟨p.1, hax, hbx⟩) (hheight.mpr ⟨p.2, hay, hby⟩)
    exact hpos.ne' hzero
  · intro hdisjoint
    by_contra hne
    -- a common area that is not zero has a positive width and a positive height
    have hw : 0 < overlap a.x1 a.x2 b.x1 b.x2 :=
      lt_of_le_of_ne (overlap_nonneg ..) fun h => hne (by rw [commonArea, ← h, zero_mul])
    have hh : 0 < overlap a.y1 a.y2 b.y1 b.y2 :=
      lt_of_le_of_ne (overlap_nonneg ..) fun h => hne (by rw [commonArea, ← h, mul_zero])
    obtain ⟨x, hax, hbx⟩ := hwidth.mp hw
    obtain ⟨y, hay, hby⟩ := hheight.mp hh
    exact hdisjoint (x, y) ⟨hax, hay⟩ ⟨hbx, hby⟩

end Pair

/-- The common part is all of the first box only when the second contains the first. -/
theorem commonArea_eq_area_iff {a : Rect} (ha : a.Accepted) (b : Rect) :
    commonArea a b = area a ↔
    (b.x1 ≤ a.x1 ∧ a.x2 ≤ b.x2) ∧ (b.y1 ≤ a.y1 ∧ a.y2 ≤ b.y2) := by
  obtain ⟨hax, hay⟩ := sides_of_accepted ha
  rw [commonArea, area, mul_eq_mul_of_le (overlap_nonneg ..) (overlap_le_left _ _ hax.le)
    (sub_pos.mpr hax) (overlap_le_left _ _ hay.le) (sub_pos.mpr hay),
    overlap_eq_left_iff _ _ hax, overlap_eq_left_iff _ _ hay]

/-- The common area does not depend on which box is named first. -/
theorem commonArea_comm (a b : Rect) : commonArea a b = commonArea b a := by
  rw [commonArea, commonArea, overlap_comm a.x1, overlap_comm a.y1]

/-- The similarity is symmetric. -/
theorem iou_comm (a b : Rect) : iou a b = iou b a := by
  simp only [iou, min_comm a.x2, max_comm a.x1, min_comm a.y2, max_comm a.y1,
    add_comm (max 0 (a.x2 - a.x1) * max 0 (a.y2 - a.y1))]

/-- Only equal boxes have all their area in common: each contains the other. -/
theorem iou_eq_one_iff {a b : Rect} (ha : a.Accepted) (hb : b.Accepted) :
    iou a b = 1 ↔ a = b := by
  rw [iou_eq_share ha hb, (common_area ha hb).share_eq_one_iff, commonArea_eq_area_iff ha,
    commonArea_comm a b, commonArea_eq_area_iff hb]
  constructor
  · rintro ⟨⟨⟨hx1, hx2⟩, hy1, hy2⟩, ⟨hx1', hx2'⟩, hy1', hy2'⟩
    show (⟨a.x1, a.y1, a.x2, a.y2⟩ : Rect) = ⟨b.x1, b.y1, b.x2, b.y2⟩
    rw [Rect.mk.injEq]
    exact ⟨le_antisymm hx1' hx1, le_antisymm hy1' hy1, le_antisymm hx2 hx2',
      le_antisymm hy2 hy2'⟩
  · rintro rfl
    simp

/-! ### The matrix -/

/-- `associate` computes the rows of `iouBatch`. -/
theorem iouBatch_rows (as bs : List Rect) :
    (List.ofFn fun i => List.ofFn (iouBatch as bs i)) =
      as.map fun a => bs.map fun b => iou a b := by
  have hrow : ∀ i, List.ofFn (iouBatch as bs i) = bs.map fun b => iou as[i] b :=
    fun i => List.ofFn_getElem_eq_map bs fun b => iou as[i] b
  simp only [hrow]
  exact List.ofFn_getElem_eq_map as fun a => bs.map fun b => iou a b

/-- IoU is a similarity of accepted boxes. -/
theorem iou_batch_is_a_similarity (as bs : List Rect)
    (has : ∀ a ∈ as, a.Accepted) (hbs : ∀ b ∈ bs, b.Accepted) :
    (∀ i j, 0 ≤ iouBatch as bs i j ∧ iouBatch as bs i j ≤ 1) ∧
    (∀ i j, iouBatch as bs i j = iouBatch bs as j i) ∧
    (∀ i j, iouBatch as bs i j = 0 ↔
      ∀ p : Point, (as.get i).Inside p → ¬(bs.get j).Inside p) ∧
    (∀ i j, iouBatch as bs i j = 1 ↔ as.get i = bs.get j) := by
  have ha : ∀ i, (as.get i).Accepted := fun i => has _ (List.get_mem as i)
  have hb : ∀ j, (bs.get j).Accepted := fun j => hbs _ (List.get_mem bs j)
  exact ⟨fun i j => ⟨iou_nonneg (ha i) (hb j), iou_le_one (ha i) (hb j)⟩,
    fun i j => iou_comm (as.get i) (bs.get j), fun i j => iou_eq_zero_iff (ha i) (hb j),
    fun i j => iou_eq_one_iff (ha i) (hb j)⟩

/-- A box, the same box again, and a box that touches it. -/
theorem iou_batch_is_a_similarity_touching :
    iouBatch [⟨0, 0, 2, 2⟩] [⟨0, 0, 2, 2⟩, ⟨2, 0, 4, 2⟩] 0 0 = 1 ∧
    iouBatch [⟨0, 0, 2, 2⟩] [⟨0, 0, 2, 2⟩, ⟨2, 0, 4, 2⟩] 0 1 = 0 := by
  have haccepted : ∀ r ∈ [(⟨0, 0, 2, 2⟩ : Rect), ⟨2, 0, 4, 2⟩], r.Accepted := by
    intro r hr
    simp only [List.mem_cons, List.not_mem_nil, or_false] at hr
    rcases hr with rfl | rfl
    · exact ⟨⟨⟨0, 0, 2, 2⟩, by decide, by decide, by decide, by decide⟩, by decide⟩
    · exact ⟨⟨⟨2, 0, 4, 2⟩, by decide, by decide, by decide, by decide⟩, by decide⟩
  obtain ⟨-, -, hzero, hone⟩ := iou_batch_is_a_similarity [⟨0, 0, 2, 2⟩]
    [⟨0, 0, 2, 2⟩, ⟨2, 0, 4, 2⟩]
    (fun r hr => haccepted r (List.mem_cons.mpr (.inl (List.mem_singleton.mp hr)))) haccepted
  refine ⟨(hone 0 0).mpr rfl, (hzero 0 1).mpr fun p hp hq => ?_⟩
  exact absurd hp.1.2 (not_lt.mpr hq.1.1.le)

end Rsap.Proofs
