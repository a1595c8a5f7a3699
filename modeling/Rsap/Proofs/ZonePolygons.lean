import Rsap.Cv.Zones
import Rsap.Library.Segments

/-!
# `Rsap.Proofs.ZonePolygons`: the zones that `Zone` accepts

On a lattice of pitch above the tolerance, a value of the code's tests is zero or well away from
it, so the tests are exact (`segmentsIntersect_iff`).

The loop compares no two adjacent edges. Where two of them overlap, an end of one is on the other,
and this end is on a third edge too, which the loop does compare with the other (`corner`). A
triangle has no such third edge: there the area is zero.
-/

set_option autoImplicit false

namespace Rsap.Proofs

open Rsap Rsap.Cv Rsap.Library.Segments

/-! ### The tolerance -/

/-- A multiple of `1 / m`. -/
def Lattice (m : Nat) (x : Rat) : Prop := ∃ k : Int, x = k / m

section
variable {m : Nat} {x y : Rat}

/-- The lattice is closed under negation. -/
theorem Lattice.neg (h : Lattice m x) : Lattice m (-x) := by
  obtain ⟨k, rfl⟩ := h
  refine ⟨-k, ?_⟩
  push_cast
  ring

/-- The lattice is closed under subtraction. -/
theorem Lattice.sub (hx : Lattice m x) (hy : Lattice m y) : Lattice m (x - y) := by
  obtain ⟨k, rfl⟩ := hx
  obtain ⟨l, rfl⟩ := hy
  refine ⟨k - l, ?_⟩
  push_cast
  ring

/-- The lattice is closed under addition. -/
theorem Lattice.add (hx : Lattice m x) (hy : Lattice m y) : Lattice m (x + y) := by
  rw [← sub_neg_eq_add]
  exact hx.sub hy.neg

/-- Products lie on the product lattice. -/
theorem Lattice.mul (hx : Lattice m x) (hy : Lattice m y) : Lattice (m * m) (x * y) := by
  obtain ⟨k, rfl⟩ := hx
  obtain ⟨l, rfl⟩ := hy
  refine ⟨k * l, ?_⟩
  push_cast
  ring

/-- Halves lie on the lattice of half the step. -/
theorem Lattice.half (h : Lattice m x) : Lattice (2 * m) (x / 2) := by
  obtain ⟨k, rfl⟩ := h
  refine ⟨k, ?_⟩
  push_cast
  ring

/-- The lattice has zero. -/
theorem Lattice.zero : Lattice m 0 := ⟨0, by simp⟩

/-- The lattice has the absolute values. -/
theorem Lattice.abs (h : Lattice m x) : Lattice m |x| := by
  rcases abs_choice x with habs | habs
  · rw [habs]
    exact h
  · rw [habs]
    exact h.neg

/-- Sums stay on the lattice. -/
theorem Lattice.sum {terms : List Rat} (h : ∀ x ∈ terms, Lattice m x) : Lattice m terms.sum := by
  induction terms with
  | nil => exact Lattice.zero
  | cons x terms ih =>
    rw [List.forall_mem_cons] at h
    rw [List.sum_cons]
    exact h.1.add (ih h.2)

/-- The tolerance is positive. -/
theorem epsilon_pos : 0 < epsilon := by
  norm_num [epsilon]

/-- A multiple above zero is above the tolerance. -/
theorem Lattice.epsilon_lt (h : Lattice m x) (hm : m < 10 ^ 12) : epsilon < x ↔ 0 < x := by
  constructor
  · exact epsilon_pos.trans
  · intro hpos
    obtain ⟨k, rfl⟩ := h
    have hmpos : 0 < (m : Rat) := by
      rcases Nat.eq_zero_or_pos m with rfl | hm
      · simp at hpos
      · exact_mod_cast hm
    have hk : (1 : Rat) ≤ k := by
      have hk : 0 < (k : Rat) := by
        rw [lt_div_iff₀ hmpos, zero_mul] at hpos
        exact hpos
      exact_mod_cast hk
    have hbound : (m : Rat) < 10 ^ 12 := by exact_mod_cast hm
    rw [epsilon, div_lt_div_iff₀ (by norm_num) hmpos]
    linarith

/-- A coarse enough lattice has no point between the tolerance and zero, so the comparison is
exact. -/
theorem Lattice.lt_neg_epsilon (h : Lattice m x) (hm : m < 10 ^ 12) : x < -epsilon ↔ x < 0 := by
  rw [lt_neg, h.neg.epsilon_lt hm, neg_pos]

/-- So zero is the only point within the tolerance. -/
theorem Lattice.abs_le_epsilon (h : Lattice m x) (hm : m < 10 ^ 12) : |x| ≤ epsilon ↔ x = 0 := by
  rw [← not_lt, h.abs.epsilon_lt hm, abs_pos, not_not]

/-- A comparison with the tolerance on the left is the exact one. -/
theorem Lattice.sub_epsilon_le (h : Lattice m (x - y)) (hm : m < 10 ^ 12) :
    x - epsilon ≤ y ↔ x ≤ y := by
  have hiff := h.epsilon_lt hm
  rw [← not_lt, ← not_lt, not_iff_not, lt_sub_comm, hiff, sub_pos]

/-- The tolerance does not matter to an order of lattice points. -/
theorem Lattice.le_add_epsilon (h : Lattice m (x - y)) (hm : m < 10 ^ 12) :
    x ≤ y + epsilon ↔ x ≤ y := by
  rw [← sub_le_iff_le_add, h.sub_epsilon_le hm]

end

/-- Both coordinates are multiples. -/
def OnLattice (m : Nat) (p : Point) : Prop := Lattice m p.1 ∧ Lattice m p.2

section
variable {m : Nat} {a b c d : Point}

/-- The orientation of lattice points is on the lattice of the squared step. -/
theorem OnLattice.orientation (ha : OnLattice m a) (hb : OnLattice m b) (hc : OnLattice m c) :
    Lattice (m * m) (orientation a b c) :=
  ((hb.1.sub ha.1).mul (hc.2.sub ha.2)).sub ((hb.2.sub ha.2).mul (hc.1.sub ha.1))

/-- The comparison with the tolerance finds the opposite signs exactly. -/
theorem opposite_iff {n : Nat} {x y : Rat} (hx : Lattice n x) (hy : Lattice n y)
    (hn : n < 10 ^ 12) : opposite x y = true ↔ Opposite x y := by
  rw [opposite, decide_eq_true_iff, hx.epsilon_lt hn, hy.epsilon_lt hn, hx.lt_neg_epsilon hn,
    hy.lt_neg_epsilon hn]
  rfl

/-- The lattice has the minima. -/
theorem Lattice.min {x y : Rat} (hx : Lattice m x) (hy : Lattice m y) : Lattice m (min x y) := by
  rcases min_choice x y with h | h
  · rw [h]
    exact hx
  · rw [h]
    exact hy

/-- The lattice has the maxima. -/
theorem Lattice.max {x y : Rat} (hx : Lattice m x) (hy : Lattice m y) : Lattice m (max x y) := by
  rcases max_choice x y with h | h
  · rw [h]
    exact hx
  · rw [h]
    exact hy

/-- The test for a point on a segment is exact. -/
theorem onSegment_iff (hm : m * m < 10 ^ 12) (ha : OnLattice m a) (hb : OnLattice m b)
    (hc : OnLattice m c) :
    (|orientation a b c| ≤ epsilon && onSegment a c b) = true ↔ c ∈ segment Rat a b := by
  have hpitch : m < 10 ^ 12 := by nlinarith
  rw [mem_segment_iff, Bool.and_eq_true, decide_eq_true_iff, onSegment, decide_eq_true_iff,
    (ha.orientation hb hc).abs_le_epsilon hm,
    ((ha.1.min hb.1).sub hc.1).sub_epsilon_le hpitch,
    ((ha.2.min hb.2).sub hc.2).sub_epsilon_le hpitch,
    (hc.1.sub (ha.1.max hb.1)).le_add_epsilon hpitch,
    (hc.2.sub (ha.2.max hb.2)).le_add_epsilon hpitch]
  rfl

/-- The test for two segments that share a point is exact. -/
theorem segmentsIntersect_iff (hm : m * m < 10 ^ 12) (ha : OnLattice m a) (hb : OnLattice m b)
    (hc : OnLattice m c) (hd : OnLattice m d) :
    segmentsIntersect a b c d = true ↔ Meet a b c d := by
  have hab := opposite_iff (ha.orientation hb hc) (ha.orientation hb hd) hm
  have hcd := opposite_iff (hc.orientation hd ha) (hc.orientation hd hb) hm
  rw [meet_iff, segmentsIntersect]
  split
  next hcross =>
    rw [Bool.and_eq_true, hab, hcd] at hcross
    exact iff_of_true rfl (.inl hcross)
  next hcross =>
    rw [Bool.and_eq_true, hab, hcd] at hcross
    rw [Bool.or_eq_true, Bool.or_eq_true, Bool.or_eq_true, onSegment_iff hm ha hb hc,
      onSegment_iff hm ha hb hd, onSegment_iff hm hc hd ha, onSegment_iff hm hc hd hb,
      or_assoc, or_assoc]
    exact ⟨.inr, fun h => h.resolve_left hcross⟩

end

/-! ### Polygons -/

/-- The edge from a vertex to the next. -/
def edge (vertices : List Point) (index : Nat) : Set Point :=
  segment Rat (vertex vertices index) (vertex vertices (index + 1))

/-- A simple polygon: edges share a point only where they are adjacent, and there only the common
vertex. -/
structure SimplePolygon (vertices : List Point) : Prop where
  three : 3 ≤ vertices.length
  area : shoelace vertices ≠ 0
  apart : ∀ first < vertices.length, ∀ second < vertices.length, first ≠ second →
    (first + 1) % vertices.length ≠ second → (second + 1) % vertices.length ≠ first →
    ∀ p ∈ edge vertices first, p ∉ edge vertices second
  corners : ∀ index < vertices.length,
    edge vertices index ∩ edge vertices (index + 1) = {vertex vertices (index + 1)}

section
variable {vertices : List Point}

/-- Vertices are numbered around the polygon. -/
theorem vertex_mod (index : Nat) :
    vertex vertices (index % vertices.length) = vertex vertices index := by
  rw [vertex, Nat.mod_mod, vertex]

/-- Going around once leads to the same vertex. -/
theorem vertex_add (index : Nat) :
    vertex vertices (index + vertices.length) = vertex vertices index := by
  rw [vertex, Nat.add_mod_right, vertex]

/-- Edges are numbered around the polygon. -/
theorem edge_mod (index : Nat) : edge vertices (index % vertices.length) = edge vertices index := by
  rw [edge, vertex_mod, ← vertex_mod (index % vertices.length + 1), Nat.mod_add_mod, vertex_mod,
    edge]

/-- Each of them is a vertex of the list. -/
theorem vertex_mem (h : 0 < vertices.length) (index : Nat) :
    vertex vertices index ∈ vertices := by
  have hlt : index % vertices.length < vertices.length := Nat.mod_lt _ h
  rw [vertex, List.getD_eq_getElem?_getD, List.getElem?_eq_getElem hlt, Option.getD_some]
  exact List.getElem_mem hlt

/-- An edge has its first vertex. -/
theorem start_mem_edge (index : Nat) : vertex vertices index ∈ edge vertices index :=
  left_mem_segment Rat _ _

/-- An edge has its second vertex. -/
theorem end_mem_edge (index : Nat) : vertex vertices (index + 1) ∈ edge vertices index :=
  right_mem_segment Rat _ _

/-- A remainder of less than two rounds. -/
theorem mod_wrap {n index : Nat} (h : index < 2 * n) :
    index % n = if index < n then index else index - n := by
  split
  next hlt => exact Nat.mod_eq_of_lt hlt
  next hge => rw [Nat.mod_eq_sub_mod (by omega), Nat.mod_eq_of_lt (by omega)]

/-- What the loop compares: edges that are not adjacent share no point. -/
def EdgesApart (vertices : List Point) : Prop :=
  ∀ first < vertices.length, ∀ second < vertices.length, first ≠ second →
    (first + 1) % vertices.length ≠ second → (second + 1) % vertices.length ≠ first →
    ∀ p ∈ edge vertices first, p ∉ edge vertices second

/-- From four edges on, an edge and the next but one are compared. -/
theorem EdgesApart.next_but_one (h : EdgesApart vertices) (hfour : 4 ≤ vertices.length)
    (index : Nat) : ∀ p ∈ edge vertices index, p ∉ edge vertices (index + 2) := by
  have hnext : (index + 2) % vertices.length = (index % vertices.length + 2) % vertices.length :=
    (Nat.mod_add_mod _ _ _).symm
  rw [← edge_mod index, ← edge_mod (index + 2), hnext]
  have hlt : index % vertices.length < vertices.length := Nat.mod_lt _ (by omega)
  generalize index % vertices.length = first at hlt
  generalize hsecond : (first + 2) % vertices.length = second
  rw [mod_wrap (by omega)] at hsecond
  have hlt' : second < vertices.length := by
    split at hsecond <;> omega
  apply h first hlt second hlt'
  · split at hsecond <;> omega
  · rw [mod_wrap (by omega)]
    split <;> split at hsecond <;> omega
  · rw [mod_wrap (by omega)]
    split <;> split at hsecond <;> omega

/-- A vertex is on the edge before it. -/
theorem mem_edge_before (h : 0 < vertices.length) (index : Nat) :
    vertex vertices index ∈ edge vertices (index + (vertices.length - 1)) := by
  have hend : vertex vertices (index + (vertices.length - 1) + 1) ∈
      edge vertices (index + (vertices.length - 1)) := end_mem_edge _
  have hback : index + (vertices.length - 1) + 1 = index + vertices.length := by omega
  rwa [hback, vertex_add] at hend

/-- The edge before a vertex and the edge after the next vertex. -/
theorem EdgesApart.before (h : EdgesApart vertices) (hfour : 4 ≤ vertices.length) (index : Nat) :
    ∀ p ∈ edge vertices (index + (vertices.length - 1)), p ∉ edge vertices (index + 1) := by
  have hdisjoint := h.next_but_one hfour (index + (vertices.length - 1))
  have hround : index + (vertices.length - 1) + 2 = index + 1 + vertices.length := by omega
  rwa [hround, ← edge_mod (index + 1 + vertices.length), Nat.add_mod_right, edge_mod] at hdisjoint

/-- The next vertex is another one. -/
theorem EdgesApart.vertex_ne (h : EdgesApart vertices) (hfour : 4 ≤ vertices.length)
    (index : Nat) : vertex vertices index ≠ vertex vertices (index + 1) := by
  intro heq
  have hbefore : vertex vertices index ∈ edge vertices (index + (vertices.length - 1)) :=
    mem_edge_before (by omega) index
  rw [heq] at hbefore
  exact h.before hfour index _ hbefore (start_mem_edge (index + 1))

/-- Of two adjacent edges, none has its far end on the other: the far end is on a third edge. -/
theorem EdgesApart.corner (h : EdgesApart vertices) (hfour : 4 ≤ vertices.length) (index : Nat) :
    edge vertices index ∩ edge vertices (index + 1) = {vertex vertices (index + 1)} := by
  apply Set.eq_singleton_iff_unique_mem.mpr
  refine ⟨⟨end_mem_edge index, start_mem_edge (index + 1)⟩, ?_⟩
  rintro p ⟨hp, hp'⟩
  by_contra hne
  rcases far_end_mem hp hp' hne with hfar | hfar
  · exact h.next_but_one hfour index _ hfar (start_mem_edge (index + 2))
  · exact h.before hfour index _ (mem_edge_before (by omega) index) hfar

/-! ### Triangles -/

/-- The area of a triangle is an orientation, at each of its corners. -/
theorem shoelace_three (hthree : vertices.length = 3) (index : Nat) :
    shoelace vertices = orient (vertex vertices index) (vertex vertices (index + 1))
      (vertex vertices (index + 2)) := by
  have hlt : index % 3 < 3 := Nat.mod_lt _ (by omega)
  have hfirst : vertex vertices index = vertex vertices (index % 3) := by
    rw [← hthree, vertex_mod]
  have hsecond : vertex vertices (index + 1) = vertex vertices (index % 3 + 1) := by
    rw [← vertex_mod, hthree, ← Nat.mod_add_mod, ← hthree, vertex_mod]
  have hthird : vertex vertices (index + 2) = vertex vertices (index % 3 + 2) := by
    rw [← vertex_mod, hthree, ← Nat.mod_add_mod, ← hthree, vertex_mod]
  -- indices go round, so there are three cases
  have hround : ∀ k, vertex vertices (k + 3) = vertex vertices k := by
    intro k
    rw [← hthree, vertex_add]
  have h0 : vertex vertices 3 = vertex vertices 0 := hround 0
  have h1 : vertex vertices 4 = vertex vertices 1 := hround 1
  -- the sum is the orientation of the triangle
  have hsum : shoelace vertices = orient (vertex vertices 0) (vertex vertices 1)
      (vertex vertices 2) := by
    rw [shoelace, hthree]
    simp only [List.range_succ, List.range_zero, List.nil_append, List.map_cons,
      List.map_nil, List.cons_append, List.sum_cons, List.sum_nil, zero_add, Nat.reduceAdd, h0,
      orient]
    ring
  rw [hfirst, hsecond, hthird, hsum]
  generalize index % 3 = k at hlt
  have hk : k = 0 ∨ k = 1 ∨ k = 2 := by omega
  rcases hk with rfl | rfl | rfl
  · rfl
  · show _ = orient (vertex vertices 1) (vertex vertices 2) (vertex vertices 3)
    rw [h0]
    simp only [orient]
    ring
  · show _ = orient (vertex vertices 2) (vertex vertices 3) (vertex vertices 4)
    rw [h0, h1]
    simp only [orient]
    ring

/-- With an area, the next vertex is another one. -/
theorem vertex_ne_of_three (hthree : vertices.length = 3) (harea : shoelace vertices ≠ 0)
    (index : Nat) : vertex vertices index ≠ vertex vertices (index + 1) := by
  intro heq
  rw [shoelace_three hthree index, heq] at harea
  apply harea
  simp only [orient]
  ring

/-- With an area, adjacent edges meet in the common vertex only. -/
theorem corner_of_three (hthree : vertices.length = 3) (harea : shoelace vertices ≠ 0)
    (index : Nat) : edge vertices index ∩ edge vertices (index + 1) =
      {vertex vertices (index + 1)} := by
  apply Set.eq_singleton_iff_unique_mem.mpr
  refine ⟨⟨end_mem_edge index, start_mem_edge (index + 1)⟩, ?_⟩
  rintro p ⟨hp, hp'⟩
  by_contra hne
  rw [shoelace_three hthree index] at harea
  rcases far_end_mem hp hp' hne with hfar | hfar
  · exact harea (mem_segment_iff.mp hfar).1
  · have hzero := (mem_segment_iff.mp hfar).1
    apply harea
    rw [← hzero]
    simp only [orient]
    ring

/-! ### Zones -/

/-- The checks, one by one. -/
theorem zonePostInit_ok_iff {id : PyStr} {normalized : Bool} :
    (∃ result, zonePostInit id vertices normalized = .ok result) ↔
      3 ≤ vertices.length ∧ id.isBlank = false ∧
      (normalized && vertices.any fun v => v.1 < 0 || 1 < v.1 || v.2 < 0 || 1 < v.2) = false ∧
      3 ≤ vertices.dedup.length ∧
      (∀ index < vertices.length, vertex vertices index ≠ vertex vertices (index + 1)) ∧
      ¬ |shoelace vertices| / 2 ≤ epsilon ∧ selfIntersects vertices = false := by
  -- the checks in the order of the code, each one refuting one conjunct
  unfold zonePostInit
  split
  next h => exact iff_of_false (by simp) (by omega)
  next hlength =>
    split
    next h => exact iff_of_false (by simp) (by simp [h])
    next hid =>
      split
      next h => exact iff_of_false (by simp) (by simp [h])
      next hnormalized =>
        split
        next h => exact iff_of_false (by simp) (by omega)
        next hdistinct =>
          split
          next h =>
            refine iff_of_false (by simp) ?_
            rintro ⟨-, -, -, -, hne, -⟩
            obtain ⟨index, hindex, heq⟩ := List.any_eq_true.mp h
            exact hne index (List.mem_range.mp hindex) (of_decide_eq_true heq)
          next hadjacent =>
            have hne : ∀ index < vertices.length,
                vertex vertices index ≠ vertex vertices (index + 1) := by
              intro index hindex heq
              exact hadjacent (List.any_eq_true.mpr
                ⟨index, List.mem_range.mpr hindex, decide_eq_true heq⟩)
            split
            next h => exact iff_of_false (by simp) (fun hall => hall.2.2.2.2.2.1 h)
            next harea =>
              split
              next h => exact iff_of_false (by simp) (by simp [h])
              next hself =>
                exact iff_of_true ⟨vertices, rfl⟩ ⟨by omega, Bool.eq_false_iff.mpr hid,
                  Bool.eq_false_iff.mpr hnormalized, by omega, hne, harea,
                  Bool.eq_false_iff.mpr hself⟩

/-- The loop finds an intersection exactly when two edges that are not adjacent intersect. -/
theorem selfIntersects_iff : selfIntersects vertices = true ↔
    ∃ first second, first < second ∧ second < vertices.length ∧
      (first + 1) % vertices.length ≠ second ∧ (second + 1) % vertices.length ≠ first ∧
      segmentsIntersect (vertex vertices first) (vertex vertices (first + 1))
        (vertex vertices second) (vertex vertices (second + 1)) = true := by
  simp only [selfIntersects, List.any_eq_true, List.mem_range, List.mem_range'_1, Bool.and_eq_true,
    Bool.not_eq_true', adjacent, decide_eq_false_iff_not, not_or]
  constructor
  · rintro ⟨first, hfirst, second, hsecond, ⟨hne, hnext, hnext'⟩, htest⟩
    exact ⟨first, second, by omega, by omega, fun h => hnext h.symm, fun h => hnext' h.symm, htest⟩
  · rintro ⟨first, second, hlt, hsecond, hnext, hnext', htest⟩
    exact ⟨first, by omega, second, by omega, ⟨by omega, fun h => hnext h.symm,
      fun h => hnext' h.symm⟩, htest⟩

/-- On a lattice, the loop finds no intersection exactly when the edges are apart. -/
theorem edgesApart_iff {n : Nat} (hn : n * n < 10 ^ 12) (hlattice : ∀ v ∈ vertices, OnLattice n v) :
    selfIntersects vertices = false ↔ EdgesApart vertices := by
  have hexact : ∀ first second, 0 < vertices.length →
      (segmentsIntersect (vertex vertices first) (vertex vertices (first + 1))
        (vertex vertices second) (vertex vertices (second + 1)) = true ↔
      ∃ p ∈ edge vertices first, p ∈ edge vertices second) := by
    intro first second hpos
    rw [segmentsIntersect_iff hn (hlattice _ (vertex_mem hpos _))
      (hlattice _ (vertex_mem hpos _)) (hlattice _ (vertex_mem hpos _))
      (hlattice _ (vertex_mem hpos _))]
    rfl
  rw [← Bool.not_eq_true, selfIntersects_iff]
  constructor
  · intro hnone first hfirst second hsecond hne hnext hnext' p hp hp'
    rcases Nat.lt_or_gt_of_ne hne with hlt | hgt
    · exact hnone ⟨first, second, hlt, hsecond, hnext, hnext',
        (hexact first second (by omega)).mpr ⟨p, hp, hp'⟩⟩
    · exact hnone ⟨second, first, hgt, hfirst, hnext', hnext,
        (hexact second first (by omega)).mpr ⟨p, hp', hp⟩⟩
  · rintro hapart ⟨first, second, hlt, hsecond, hnext, hnext', htest⟩
    obtain ⟨p, hp, hp'⟩ := (hexact first second (by omega)).mp htest
    exact hapart first (by omega) second hsecond (by omega) hnext hnext' p hp hp'

/-- On a lattice, the area test is exact. -/
theorem area_iff {n : Nat} (hn : 2 * (n * n) < 10 ^ 12) (hlattice : ∀ v ∈ vertices, OnLattice n v) :
    |shoelace vertices| / 2 ≤ epsilon ↔ shoelace vertices = 0 := by
  have hterms : Lattice (n * n) (shoelace vertices) := by
    apply Lattice.sum
    intro term hterm
    obtain ⟨index, hindex, rfl⟩ := List.mem_map.mp hterm
    have hpos : 0 < vertices.length := Nat.zero_lt_of_lt (List.mem_range.mp hindex)
    have hthis := hlattice _ (vertex_mem hpos index)
    have hnext := hlattice _ (vertex_mem hpos (index + 1))
    exact (hthis.1.mul hnext.2).sub (hnext.1.mul hthis.2)
  rw [← not_lt, hterms.abs.half.epsilon_lt hn, not_lt]
  constructor
  · intro h
    exact abs_nonpos_iff.mp (by linarith)
  · intro h
    rw [h]
    simp

/-- Three vertices that differ. -/
theorem three_le_dedup {a b c : Point} (ha : a ∈ vertices) (hb : b ∈ vertices) (hc : c ∈ vertices)
    (hab : a ≠ b) (hbc : b ≠ c) (hac : a ≠ c) : 3 ≤ vertices.dedup.length := by
  have hnodup : [a, b, c].Nodup := by
    simp [hab, hbc, hac]
  have hsub : [a, b, c] ⊆ vertices.dedup := by
    intro v hv
    rw [List.mem_dedup]
    simp only [List.mem_cons, List.not_mem_nil, or_false] at hv
    rcases hv with rfl | rfl | rfl
    · exact ha
    · exact hb
    · exact hc
  exact (List.subperm_of_subset hnodup hsub).length_le

end

/-- `Zone` accepts exactly the simple polygons. -/
theorem zone_accepts_simple_polygons (n : Nat) (hn : 1 ≤ n ∧ n ≤ 10 ^ 5) (id : PyStr)
    (hid : id.isBlank = false) (vertices : List Point) (hlattice : ∀ v ∈ vertices, OnLattice n v)
    (normalized : Bool) (hnormalized : normalized = true → ∀ v ∈ vertices,
      (0 ≤ v.1 ∧ v.1 ≤ 1) ∧ 0 ≤ v.2 ∧ v.2 ≤ 1) :
    (∃ result, zonePostInit id vertices normalized = .ok result) ↔ SimplePolygon vertices := by
  have hbound : n * n ≤ 10 ^ 10 := by
    have h := Nat.mul_le_mul hn.2 hn.2
    omega
  -- vertices on the lattice pass the range check
  have hrange : (normalized && vertices.any fun v =>
      v.1 < 0 || 1 < v.1 || v.2 < 0 || 1 < v.2) = false := by
    cases normalized with
    | false => rfl
    | true =>
      rw [Bool.true_and, List.any_eq_false]
      intro v hv
      obtain ⟨⟨h0, h1⟩, h0', h1'⟩ := hnormalized rfl v hv
      simp only [Bool.or_eq_true, decide_eq_true_eq, not_or, not_lt]
      exact ⟨⟨⟨h0, h1⟩, h0'⟩, h1'⟩
  rw [zonePostInit_ok_iff, area_iff (by omega) hlattice, edgesApart_iff (by omega) hlattice]
  constructor
  -- what the code checks gives the corners as well
  · rintro ⟨hthree, -, -, -, -, harea, hapart⟩
    refine { three := hthree, area := harea, apart := hapart, corners := fun index _ => ?_ }
    rcases Nat.lt_or_ge 3 vertices.length with hfour | hle
    · exact hapart.corner hfour index
    · exact corner_of_three (by omega) harea index
  · intro h
    have hpos : 0 < vertices.length := Nat.lt_of_lt_of_le (by omega) h.three
    have hne : ∀ index, vertex vertices index ≠ vertex vertices (index + 1) := by
      intro index
      rcases Nat.lt_or_ge 3 vertices.length with hfour | hle
      · exact EdgesApart.vertex_ne h.apart hfour index
      · exact vertex_ne_of_three (Nat.le_antisymm hle h.three) h.area index
    -- and a simple polygon has three different vertices
    have hne' : vertex vertices 0 ≠ vertex vertices 2 := by
      rcases Nat.lt_or_ge 3 vertices.length with hfour | hle
      · intro heq
        have hdisjoint := EdgesApart.next_but_one h.apart hfour 0
        exact hdisjoint _ (start_mem_edge 0) (heq ▸ start_mem_edge 2)
      · have hthree : vertices.length = 3 := Nat.le_antisymm hle h.three
        have hlast := vertex_ne_of_three hthree h.area 2
        rw [← vertex_mod (2 + 1), hthree] at hlast
        exact fun heq => hlast heq.symm
    exact ⟨h.three, hid, hrange, three_le_dedup (vertex_mem hpos 0) (vertex_mem hpos 1)
      (vertex_mem hpos 2) (hne 0) (hne 1) hne', fun index _ => hne index, h.area, h.apart⟩

/-- The whole frame. -/
def frameZone : List Point := [(0, 0), (1, 0), (1, 1), (0, 1)]

/-- The whole frame is a simple polygon, since it is accepted. -/
theorem zone_accepts_frame : SimplePolygon frameZone := by
  have hlattice : ∀ v ∈ frameZone, OnLattice 1 v := by
    have h0 : Lattice 1 0 := Lattice.zero
    have h1 : Lattice 1 1 := ⟨1, by norm_num⟩
    simp only [frameZone, List.forall_mem_cons]
    exact ⟨⟨h0, h0⟩, ⟨h1, h0⟩, ⟨h1, h1⟩, ⟨h0, h1⟩, fun v hv => absurd hv List.not_mem_nil⟩
  have hrange : true = true → ∀ v ∈ frameZone, (0 ≤ v.1 ∧ v.1 ≤ 1) ∧ 0 ≤ v.2 ∧ v.2 ≤ 1 := by
    decide +kernel
  exact (zone_accepts_simple_polygons 1 (by omega) (PyStr.ofString "frame") (by decide) frameZone
    hlattice true hrange).mp ⟨frameZone, by decide +kernel⟩

end Rsap.Proofs
