import Mathlib.Data.Finset.Dedup
import Rsap.Cv.Types
import Rsap.PyStr

/-!
# `Rsap.Cv.Zones`: the checks of `Zone.__post_init__`

The arithmetic of the code is here over the rational numbers, so the checks for finite coordinates
always pass and `float` is the identity. The tolerance `1e-12` stays as it is.

`vertex` takes its index modulo the number of vertices, as the code does where it can be too large.
-/

set_option autoImplicit false

namespace Rsap.Cv

/-- `_orientation`. -/
def orientation (a b c : Point) : Rat := (b.1 - a.1) * (c.2 - a.2) - (b.2 - a.2) * (c.1 - a.1)

/-- `epsilon`. -/
def epsilon : Rat := 1 / 10 ^ 12

/-- `on_segment`. -/
def onSegment (start point stop : Point) : Bool :=
  (min start.1 stop.1 - epsilon ≤ point.1 ∧ point.1 ≤ max start.1 stop.1 + epsilon) ∧
    (min start.2 stop.2 - epsilon ≤ point.2 ∧ point.2 ≤ max start.2 stop.2 + epsilon)

/-- The two orientations have opposite signs. -/
def opposite (x y : Rat) : Bool := (epsilon < x ∧ y < -epsilon) ∨ (x < -epsilon ∧ epsilon < y)

/-- `_segments_intersect`. -/
def segmentsIntersect (a b c d : Point) : Bool :=
  let abC := orientation a b c
  let abD := orientation a b d
  let cdA := orientation c d a
  let cdB := orientation c d b
  if opposite abC abD && opposite cdA cdB then true
  else
    (|abC| ≤ epsilon && onSegment a c b) || (|abD| ≤ epsilon && onSegment a d b) ||
      (|cdA| ≤ epsilon && onSegment c a d) || (|cdB| ≤ epsilon && onSegment c b d)

/-- `vertices[index % len(vertices)]`. -/
def vertex (vertices : List Point) (index : Nat) : Point :=
  vertices.getD (index % vertices.length) (0, 0)

/-- The sum of `area`: twice the signed area. -/
def shoelace (vertices : List Point) : Rat :=
  ((List.range vertices.length).map fun index =>
    (vertex vertices index).1 * (vertex vertices (index + 1)).2
      - (vertex vertices (index + 1)).1 * (vertex vertices index).2).sum

/-- The pairs of edges that the loop skips. -/
def adjacent (edgeCount first second : Nat) : Bool :=
  second = first ∨ second = (first + 1) % edgeCount ∨ first = (second + 1) % edgeCount

/-- Some pair of edges that is not skipped intersects. -/
def selfIntersects (vertices : List Point) : Bool :=
  (List.range vertices.length).any fun first =>
    (List.range' (first + 1) (vertices.length - (first + 1))).any fun second =>
      !adjacent vertices.length first second &&
        segmentsIntersect (vertex vertices first) (vertex vertices (first + 1))
          (vertex vertices second) (vertex vertices (second + 1))

/-- `Zone.__post_init__`: the vertices of the zone, or the text of the `ValueError`. -/
def zonePostInit (id : PyStr) (vertices : List Point) (normalized : Bool) :
    Except String (List Point) :=
  if vertices.length < 3 then .error "a zone requires at least three vertices"
  else if id.isBlank then .error "zone id must not be empty"
  else if normalized && vertices.any fun v => v.1 < 0 || 1 < v.1 || v.2 < 0 || 1 < v.2 then
    .error "normalized zone coordinates must be between 0 and 1"
  else if vertices.dedup.length < 3 then .error "a zone requires at least three distinct vertices"
  else if (List.range vertices.length).any fun index =>
      vertex vertices index = vertex vertices (index + 1) then
    .error "zone contains duplicate adjacent vertices"
  else if |shoelace vertices| / 2 ≤ epsilon then .error "zone polygon must have nonzero area"
  else if selfIntersects vertices then .error "zone polygon must not self-intersect"
  else .ok vertices

end Rsap.Cv
