import Mathlib.Analysis.Convex.Segment
import Mathlib.Tactic.FieldSimp
import Mathlib.Tactic.Linarith
import Mathlib.Tactic.LinearCombination

/-!
# `Rsap.Library.Segments`: segments of the plane, by orientations

`orient a b c` is twice the signed area of the triangle. `mem_segment_iff` tells the points of a
segment by an orientation and a box. `meet_iff` tells when two segments share a point: they cross
properly, or one has an end on the other.
-/

set_option autoImplicit false

namespace Rsap.Library.Segments

variable {K : Type*} [Field K]

/-- Twice the signed area of `abc`. -/
def orient (a b c : K × K) : K := (b.1 - a.1) * (c.2 - a.2) - (b.2 - a.2) * (c.1 - a.1)

/-- The point at a fraction of the way. -/
def along (a b : K × K) (t : K) : K × K := (a.1 + t * (b.1 - a.1), a.2 + t * (b.2 - a.2))

section
variable {a b c d p : K × K} {s t u : K}

/-- At `0` the line is at its first point. -/
theorem along_zero : along a b 0 = a := by
  simp [along]

/-- At `1` the line is at its second point. -/
theorem along_one : along a b 1 = b := by
  simp [along]

/-- Two parameters give the same point only when they are equal, for distinct end points. -/
theorem along_injective (hab : a ≠ b) (h : along a b s = along a b t) : s = t := by
  obtain ⟨h₁, h₂⟩ := Prod.ext_iff.mp h
  simp only [along, add_right_inj] at h₁ h₂
  by_cases hfst : b.1 - a.1 = 0
  · have hsnd : b.2 - a.2 ≠ 0 := by
      intro hsnd
      exact hab (Prod.ext (sub_eq_zero.mp hfst).symm (sub_eq_zero.mp hsnd).symm)
    exact mul_right_cancel₀ hsnd h₂
  · exact mul_right_cancel₀ hfst h₁

/-- The orientation of a point on the way is on the way too. -/
theorem orient_along : orient a b (along c d t) = (1 - t) * orient a b c + t * orient a b d := by
  simp only [orient, along]
  ring

/-- A point of the line is on neither of its sides. -/
theorem orient_self_along : orient a b (along a b t) = 0 := by
  simp only [orient, along]
  ring

/-- A point that is collinear with two others is on their line. -/
theorem exists_along (hab : a ≠ b) (h : orient a b p = 0) : ∃ t, p = along a b t := by
  simp only [orient] at h
  by_cases hfst : b.1 - a.1 = 0
  · have hsnd : b.2 - a.2 ≠ 0 := by
      intro hsnd
      exact hab (Prod.ext (sub_eq_zero.mp hfst).symm (sub_eq_zero.mp hsnd).symm)
    rw [hfst, zero_mul, zero_sub, neg_eq_zero] at h
    have hp : p.1 - a.1 = 0 := (mul_eq_zero.mp h).resolve_left hsnd
    refine ⟨(p.2 - a.2) / (b.2 - a.2), Prod.ext ?_ ?_⟩
    · show p.1 = a.1 + (p.2 - a.2) / (b.2 - a.2) * (b.1 - a.1)
      rw [hfst, mul_zero, add_zero]
      exact sub_eq_zero.mp hp
    · show p.2 = a.2 + (p.2 - a.2) / (b.2 - a.2) * (b.2 - a.2)
      rw [div_mul_cancel₀ _ hsnd]
      ring
  · refine ⟨(p.1 - a.1) / (b.1 - a.1), Prod.ext ?_ ?_⟩
    · show p.1 = a.1 + (p.1 - a.1) / (b.1 - a.1) * (b.1 - a.1)
      rw [div_mul_cancel₀ _ hfst]
      ring
    · show p.2 = a.2 + (p.1 - a.1) / (b.1 - a.1) * (b.2 - a.2)
      field_simp
      linear_combination h

end

variable [LinearOrder K] [IsStrictOrderedRing K]

section
variable {a b c d p : K × K} {s t u : K}

/-- The segment is the part of the line between the parameters `0` and `1`. -/
theorem mem_segment : p ∈ segment K a b ↔ ∃ t, 0 ≤ t ∧ t ≤ 1 ∧ p = along a b t := by
  rw [segment_eq_image']
  constructor
  · rintro ⟨t, ⟨h0, h1⟩, rfl⟩
    exact ⟨t, h0, h1, rfl⟩
  · rintro ⟨t, h0, h1, rfl⟩
    exact ⟨t, ⟨h0, h1⟩, rfl⟩

/-- A fraction between two others is on the segment between their points. -/
theorem along_mem (hs : s ≤ u) (ht : u ≤ t) :
    along a b u ∈ segment K (along a b s) (along a b t) := by
  rw [mem_segment]
  rcases eq_or_lt_of_le (hs.trans ht) with heq | hlt
  · refine ⟨0, le_refl _, zero_le_one, ?_⟩
    rw [along_zero, le_antisymm (ht.trans heq.symm.le) hs]
  · have hpos : 0 < t - s := sub_pos.mpr hlt
    have hne : t - s ≠ 0 := hpos.ne'
    refine ⟨(u - s) / (t - s), div_nonneg (sub_nonneg.mpr hs) hpos.le, ?_, ?_⟩
    · rw [div_le_one hpos]
      linarith
    · simp only [along]
      refine Prod.ext ?_ ?_
      · field_simp
        ring
      · field_simp
        ring

/-- A point of a segment of a line is at a fraction between those of its ends. -/
theorem exists_between (h : p ∈ segment K (along a b s) (along a b t)) :
    ∃ u, p = along a b u ∧ ((s ≤ u ∧ u ≤ t) ∨ (t ≤ u ∧ u ≤ s)) := by
  obtain ⟨r, h0, h1, rfl⟩ := mem_segment.mp h
  refine ⟨s + r * (t - s), ?_, ?_⟩
  · simp only [along]
    refine Prod.ext ?_ ?_
    · ring
    · ring
  · rcases le_total s t with hst | hts
    · left
      constructor <;> nlinarith
    · right
      constructor <;> nlinarith

/-- A point is on a segment when it is on the line and in the box. -/
theorem mem_segment_iff : p ∈ segment K a b ↔ orient a b p = 0 ∧
    (min a.1 b.1 ≤ p.1 ∧ p.1 ≤ max a.1 b.1) ∧ min a.2 b.2 ≤ p.2 ∧ p.2 ≤ max a.2 b.2 := by
  have hbox : ∀ x y r : K, 0 ≤ r → r ≤ 1 →
      min x y ≤ x + r * (y - x) ∧ x + r * (y - x) ≤ max x y := by
    intro x y r h0 h1
    rcases le_total x y with hxy | hyx
    · rw [min_eq_left hxy, max_eq_right hxy]
      constructor <;> nlinarith
    · rw [min_eq_right hyx, max_eq_left hyx]
      constructor <;> nlinarith
  constructor
  · intro h
    obtain ⟨t, h0, h1, rfl⟩ := mem_segment.mp h
    exact ⟨orient_self_along, hbox _ _ t h0 h1, hbox _ _ t h0 h1⟩
  · rintro ⟨horient, ⟨hmin, hmax⟩, hmin', hmax'⟩
    by_cases hab : a = b
    · subst hab
      rw [min_self] at hmin hmin'
      rw [max_self] at hmax hmax'
      have hp : p = a := Prod.ext (le_antisymm hmax hmin) (le_antisymm hmax' hmin')
      rw [hp]
      exact left_mem_segment K a a
    · obtain ⟨t, rfl⟩ := exists_along hab horient
      rw [mem_segment]
      -- a coordinate in which the ends differ bounds the fraction
      have hbound : ∀ x y : K, x ≠ y → min x y ≤ x + t * (y - x) → x + t * (y - x) ≤ max x y →
          0 ≤ t ∧ t ≤ 1 := by
        intro x y hxy h h'
        rcases lt_or_gt_of_ne hxy with hlt | hgt
        · rw [min_eq_left hlt.le] at h
          rw [max_eq_right hlt.le] at h'
          constructor
          · by_contra hneg
            nlinarith
          · by_contra hneg
            nlinarith
        · rw [min_eq_right hgt.le] at h
          rw [max_eq_left hgt.le] at h'
          constructor
          · by_contra hneg
            nlinarith
          · by_contra hneg
            nlinarith
      by_cases hfst : a.1 = b.1
      · have hsnd : a.2 ≠ b.2 := fun hsnd => hab (Prod.ext hfst hsnd)
        obtain ⟨h0, h1⟩ := hbound _ _ hsnd hmin' hmax'
        exact ⟨t, h0, h1, rfl⟩
      · obtain ⟨h0, h1⟩ := hbound _ _ hfst hmin hmax
        exact ⟨t, h0, h1, rfl⟩

/-- Strictly on both sides. -/
def Opposite (x y : K) : Prop := (0 < x ∧ y < 0) ∨ (x < 0 ∧ 0 < y)

/-- Each segment has its ends on both sides of the other's line. -/
def Cross (a b c d : K × K) : Prop :=
  Opposite (orient a b c) (orient a b d) ∧ Opposite (orient c d a) (orient c d b)

/-- One segment has an end on the other. -/
def Touch (a b c d : K × K) : Prop :=
  c ∈ segment K a b ∨ d ∈ segment K a b ∨ a ∈ segment K c d ∨ b ∈ segment K c d

/-- Two segments share a point. -/
def Meet (a b c d : K × K) : Prop := ∃ p, p ∈ segment K a b ∧ p ∈ segment K c d

/-- Segments that touch share the end point that lies on the other one. -/
theorem Touch.meet (h : Touch a b c d) : Meet a b c d := by
  rcases h with h | h | h | h
  · exact ⟨c, h, left_mem_segment K c d⟩
  · exact ⟨d, h, right_mem_segment K c d⟩
  · exact ⟨a, left_mem_segment K a b, h⟩
  · exact ⟨b, right_mem_segment K a b, h⟩

/-- The fraction at which a line is crossed. -/
theorem Opposite.fraction {x y : K} (h : Opposite x y) :
    x - y ≠ 0 ∧ 0 ≤ x / (x - y) ∧ x / (x - y) ≤ 1 := by
  rcases h with ⟨hx, hy⟩ | ⟨hx, hy⟩
  · have hpos : 0 < x - y := by linarith
    exact ⟨hpos.ne', div_nonneg hx.le hpos.le, (div_le_one hpos).mpr (by linarith)⟩
  · have hneg : x - y < 0 := by linarith
    exact ⟨hneg.ne, div_nonneg_of_nonpos hx.le hneg.le,
      (div_le_one_of_neg hneg).mpr (by linarith)⟩

/-- Segments that cross share a point: the intermediate parameter is the quotient of the two
orientations. -/
theorem Cross.meet (h : Cross a b c d) : Meet a b c d := by
  obtain ⟨hne, h0, h1⟩ := h.1.fraction
  obtain ⟨hne', h0', h1'⟩ := h.2.fraction
  refine ⟨along a b (orient c d a / (orient c d a - orient c d b)), ?_, ?_⟩
  · exact mem_segment.mpr ⟨_, h0', h1', rfl⟩
  · refine mem_segment.mpr ⟨orient a b c / (orient a b c - orient a b d), h0, h1, ?_⟩
    -- the two differences are opposite, so the two fractions give one point
    have hsum : orient c d a - orient c d b = -(orient a b c - orient a b d) := by
      simp only [orient]
      ring
    rw [hsum] at hne' ⊢
    simp only [along]
    refine Prod.ext ?_ ?_
    · simp only
      rw [div_neg]
      field_simp
      simp only [orient]
      ring
    · simp only
      rw [div_neg]
      field_simp
      simp only [orient]
      ring

/-- On a line, two segments that meet touch. -/
theorem touch_of_line {r : K} (hab : a ≠ b) (hp : p = along a b r) (h0 : 0 ≤ r) (h1 : r ≤ 1)
    (h : p ∈ segment K (along a b s) (along a b t)) :
    Touch (along a b s) (along a b t) a b := by
  obtain ⟨u, hu, hbetween⟩ := exists_between h
  have hru : r = u := along_injective hab (hp.symm.trans hu)
  subst hru
  have hinside : ∀ v, 0 ≤ v → v ≤ 1 → along a b v ∈ segment K a b := fun v hv hv' =>
    mem_segment.mpr ⟨v, hv, hv', rfl⟩
  have hstart : ∀ v w : K, v ≤ 0 → 0 ≤ w → a ∈ segment K (along a b v) (along a b w) := by
    intro v w hv hw
    have hmem := along_mem (a := a) (b := b) hv hw
    rwa [along_zero] at hmem
  rcases hbetween with ⟨hs, ht⟩ | ⟨ht, hs⟩
  · rcases le_total 0 s with hs0 | hs0
    · exact .inr (.inr (.inl (hinside s hs0 (hs.trans h1))))
    · exact .inl (hstart s t hs0 (h0.trans ht))
  · rcases le_total 0 t with ht0 | ht0
    · exact .inr (.inr (.inr (hinside t ht0 (ht.trans h1))))
    · rw [Touch, segment_symm]
      exact .inl (hstart t s ht0 (h0.trans hs))

/-- Two values whose mean at an inner fraction is zero are both zero or opposite. -/
theorem opposite_of_mean {x y r : K} (h : (1 - r) * x + r * y = 0) (h0 : 0 ≤ r) (h1 : r ≤ 1)
    (hx : x ≠ 0) (hy : y ≠ 0) : Opposite x y := by
  have hr : 0 < r := by
    rcases eq_or_lt_of_le h0 with heq | hlt
    · rw [← heq, sub_zero, one_mul, zero_mul, add_zero] at h
      exact absurd h hx
    · exact hlt
  have hr' : 0 ≤ 1 - r := sub_nonneg.mpr h1
  rcases lt_or_gt_of_ne hx with hx | hx
  · rcases lt_or_gt_of_ne hy with hy | hy
    · have hneg := mul_neg_of_pos_of_neg hr hy
      have hnonpos := mul_nonpos_of_nonneg_of_nonpos hr' hx.le
      linarith
    · exact .inr ⟨hx, hy⟩
  · rcases lt_or_gt_of_ne hy with hy | hy
    · exact .inl ⟨hx, hy⟩
    · have hpos := mul_pos hr hy
      have hnonneg := mul_nonneg hr' hx.le
      linarith

omit [IsStrictOrderedRing K] in
/-- Touching does not depend on which segment is named first. -/
theorem Touch.symm (h : Touch a b c d) : Touch c d a b := by
  rcases h with h | h | h | h
  · exact .inr (.inr (.inl h))
  · exact .inr (.inr (.inr h))
  · exact .inl h
  · exact .inr (.inl h)

/-- Of two segments that meet without touching, the second has its ends on both sides of the
first. -/
theorem opposite_of_mem (hab : p ∈ segment K a b) (hcd : p ∈ segment K c d)
    (htouch : ¬ Touch a b c d) : Opposite (orient a b c) (orient a b d) := by
  obtain ⟨s, hs0, hs1, hps⟩ := mem_segment.mp hab
  obtain ⟨t, ht0, ht1, hpt⟩ := mem_segment.mp hcd
  -- the crossing point is on the line through a and b, so the two orientations cancel
  have hmean : (1 - t) * orient a b c + t * orient a b d = 0 := by
    rw [← orient_along, ← hpt, hps, orient_self_along]
  have hne : a ≠ b := by
    rintro rfl
    rw [segment_same] at hab
    exact htouch (.inr (.inr (.inl (Set.mem_singleton_iff.mp hab ▸ hcd))))
  by_cases hc : orient a b c = 0
  · by_cases hd : orient a b d = 0
    · -- all four points are on one line
      obtain ⟨u, rfl⟩ := exists_along hne hc
      obtain ⟨v, rfl⟩ := exists_along hne hd
      exact absurd (touch_of_line hne hps hs0 hs1 hcd).symm htouch
    · rw [hc, mul_zero, zero_add] at hmean
      have ht : t = 0 := (mul_eq_zero.mp hmean).resolve_right hd
      rw [ht, along_zero] at hpt
      exact absurd (.inl (hpt ▸ hab)) htouch
  · by_cases hd : orient a b d = 0
    · rw [hd, mul_zero, add_zero] at hmean
      have ht : 1 - t = 0 := (mul_eq_zero.mp hmean).resolve_right hc
      rw [← sub_eq_zero.mp ht, along_one] at hpt
      exact absurd (.inr (.inl (hpt ▸ hab))) htouch
    · exact opposite_of_mean hmean ht0 ht1 hc hd

/-- Two segments share a point exactly when they cross or touch. -/
theorem meet_iff : Meet a b c d ↔ Cross a b c d ∨ Touch a b c d := by
  constructor
  · rintro ⟨p, hab, hcd⟩
    by_cases htouch : Touch a b c d
    · exact .inr htouch
    · exact .inl ⟨opposite_of_mem hab hcd htouch,
        opposite_of_mem hcd hab fun h => htouch h.symm⟩
  · rintro (hcross | htouch)
    · exact hcross.meet
    · exact htouch.meet

/-- Two segments from one end either meet there only, or one holds the other's far end. -/
theorem far_end_mem (hab : p ∈ segment K a b) (hbc : p ∈ segment K b c) (hp : p ≠ b) :
    c ∈ segment K a b ∨ a ∈ segment K b c := by
  rw [segment_symm] at hab
  obtain ⟨s, hs0, hs1, hps⟩ := mem_segment.mp hab
  obtain ⟨t, ht0, ht1, hpt⟩ := mem_segment.mp hbc
  -- the common point is not b, so both parameters are positive
  have hs : 0 < s := by
    rcases eq_or_lt_of_le hs0 with heq | hlt
    · rw [← heq, along_zero] at hps
      exact absurd hps hp
    · exact hlt
  have ht : 0 < t := by
    rcases eq_or_lt_of_le ht0 with heq | hlt
    · rw [← heq, along_zero] at hpt
      exact absurd hpt hp
    · exact hlt
  obtain ⟨h₁, h₂⟩ := Prod.ext_iff.mp (hps.symm.trans hpt)
  simp only [along, add_right_inj] at h₁ h₂
  -- the smaller one tells which segment holds the other's end
  rcases le_total s t with hst | hts
  · left
    rw [segment_symm, mem_segment]
    refine ⟨s / t, div_nonneg hs0 ht0, (div_le_one ht).mpr hst, Prod.ext ?_ ?_⟩
    · simp only [along]
      field_simp
      linear_combination -h₁
    · simp only [along]
      field_simp
      linear_combination -h₂
  · right
    rw [mem_segment]
    refine ⟨t / s, div_nonneg ht0 hs0, (div_le_one hs).mpr hts, Prod.ext ?_ ?_⟩
    · simp only [along]
      field_simp
      linear_combination h₁
    · simp only [along]
      field_simp
      linear_combination h₂

end

end Rsap.Library.Segments
