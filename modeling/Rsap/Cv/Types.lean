import Mathlib.Algebra.Order.Ring.Rat

/-!
# `Rsap.Cv.Types`: boxes, detections, zones and events

The data contracts of the CV engine (`cv_engine/types.py`) and the parts of `CVConfig`
(`cv_engine/config.py`) that tracking and zone analysis read. What `__post_init__` checks is a
field of the structure, so an invalid value cannot be built.

A float that is finite is a rational number. The tracker's own arithmetic may leave the finite
numbers, so a box of the tracker has coordinates of the type `Coordinate`. Times are in
microseconds, as `datetime` and `timedelta` count them. A `datetime` ends at the years 1 and 9999,
and the subtraction that leaves this range raises (`subtractDuration`).
-/

set_option autoImplicit false

namespace Rsap.Cv

/-- A point in time or a duration, in microseconds. A point in time counts from 1970 on, by the
clock of the time zone that the timestamps of a run are in. -/
abbrev Micros := Int

/-- `datetime.min`, the beginning of the year 1. -/
def datetimeMin : Micros := -62135596800000000

/-- `timestamp - duration`, or the message of its `OverflowError`. A timestamp is not after
`datetime.max`, and the durations here are not negative, so the difference is not after it
either. -/
def subtractDuration (timestamp duration : Micros) : Except String Micros :=
  if datetimeMin ≤ timestamp - duration then .ok (timestamp - duration)
  else .error "date value out of range"

/-- `Point`. -/
abbrev Point := Rat × Rat

/-! ### Boxes -/

/-- A box with finite coordinates. -/
structure Rect where
  x1 : Rat
  y1 : Rat
  x2 : Rat
  y2 : Rat
  deriving DecidableEq

/-- A box that `validate_bbox` accepts. -/
structure BBox extends Rect where
  x1_nonneg : 0 ≤ x1
  y1_nonneg : 0 ≤ y1
  x1_lt : x1 < x2
  y1_lt : y1 < y2
  deriving DecidableEq

/-- The value of a float. -/
inductive Coordinate where
  | finite (value : Rat)
  | infinity
  | negInfinity
  | nan
  deriving DecidableEq

/-- `a <= b` on floats. -/
def Coordinate.le : Coordinate → Coordinate → Bool
  | .nan, _ => false
  | _, .nan => false
  | .negInfinity, _ => true
  | _, .infinity => true
  | .finite a, .finite b => decide (a ≤ b)
  | _, _ => false

/-- `max(0.0, a)`. A `nan` is not greater than zero. -/
def Coordinate.clamp : Coordinate → Coordinate
  | .finite a => .finite (max 0 a)
  | .infinity => .infinity
  | _ => .finite 0

/-- A box of the tracker. -/
structure FloatBox where
  x1 : Coordinate
  y1 : Coordinate
  x2 : Coordinate
  y2 : Coordinate
  deriving DecidableEq

/-- The box, when `np.isfinite` holds of all four coordinates. -/
def FloatBox.rect : FloatBox → Option Rect
  | ⟨.finite x1, .finite y1, .finite x2, .finite y2⟩ => some ⟨x1, y1, x2, y2⟩
  | _ => none

/-- The box that `validate_bbox` returns, or the message of its error. The argument holds the
coordinates after their conversion to floats, as far as this succeeds. -/
def validateBBox (values : Option (List Coordinate)) : Except String BBox :=
  match values with
  | some [x1, y1, x2, y2] =>
    (FloatBox.rect ⟨x1, y1, x2, y2⟩).elim (.error "bbox coordinates must be finite") fun r =>
      if negative : r.x1 < 0 ∨ r.y1 < 0 ∨ r.x2 < 0 ∨ r.y2 < 0 then
        .error "bbox coordinates must not be negative"
      else if empty : r.x2 ≤ r.x1 ∨ r.y2 ≤ r.y1 then
        .error "bbox must have positive width and height"
      else
        .ok
          { r with
            x1_nonneg := not_lt.mp fun h => negative (.inl h)
            y1_nonneg := not_lt.mp fun h => negative (.inr (.inl h))
            x1_lt := not_le.mp fun h => empty (.inl h)
            y1_lt := not_le.mp fun h => empty (.inr h) }
  | _ => .error "bbox must contain exactly four numeric coordinates"

/-- A box that `validate_bbox` accepts is returned as it is. -/
theorem validateBBox_eq_ok_iff (values : Option (List Coordinate)) (box : BBox) :
    validateBBox values = .ok box ↔
      values = some [.finite box.x1, .finite box.y1, .finite box.x2, .finite box.y2] := by
  constructor
  · intro h
    unfold validateBBox at h
    split at h
    case h_2 => cases h
    case h_1 x1 y1 x2 y2 =>
      cases hr : FloatBox.rect ⟨x1, y1, x2, y2⟩ with
      | none =>
        rw [hr] at h
        cases h
      | some r =>
        rw [hr, Option.elim_some] at h
        split at h
        case isTrue => cases h
        split at h
        case isTrue => cases h
        cases h
        unfold FloatBox.rect at hr
        split at hr
        · cases hr
          simp_all
        · cases hr
  · rintro rfl
    have hx2 : 0 ≤ box.x2 := le_trans box.x1_nonneg box.x1_lt.le
    have hy2 : 0 ≤ box.y2 := le_trans box.y1_nonneg box.y1_lt.le
    have hnonneg : ¬(box.x1 < 0 ∨ box.y1 < 0 ∨ box.x2 < 0 ∨ box.y2 < 0) := by
      simp only [not_or, not_lt]
      exact ⟨box.x1_nonneg, box.y1_nonneg, hx2, hy2⟩
    have hpositive : ¬(box.x2 ≤ box.x1 ∨ box.y2 ≤ box.y1) := by
      simp only [not_or, not_le]
      exact ⟨box.x1_lt, box.y1_lt⟩
    simp only [validateBBox, FloatBox.rect, Option.elim_some, dif_neg hnonneg, dif_neg hpositive]

/-! ### Detections and tracked objects -/

/-- A score that `_validate_score` accepts. -/
abbrev Score := { score : Rat // 0 ≤ score ∧ score ≤ 1 }

structure Detection where
  bbox : BBox
  confidence : Score
  classId : Int
  className : String
  deriving DecidableEq

structure TrackedObject where
  bbox : BBox
  trackId : Nat
  classId : Int
  className : String
  confidence : Score
  deriving DecidableEq

/-- `centroid`. -/
def TrackedObject.centroid (item : TrackedObject) : Rat × Rat :=
  ((item.bbox.x1 + item.bbox.x2) / 2, (item.bbox.y1 + item.bbox.y2) / 2)

/-! ### Zones and events -/

/-- The parts of a zone that the analysis reads. -/
structure Zone where
  id : String
  name : String
  vertices : List (Rat × Rat)
  normalized : Bool
  deriving DecidableEq

inductive ZoneEventType where
  | enter
  | exit
  deriving DecidableEq

structure ZoneEvent where
  zoneId : String
  zoneName : String
  trackId : Nat
  eventType : ZoneEventType
  timestamp : Micros
  confidence : Score
  deriving DecidableEq

structure IntrusionEvent where
  zoneId : String
  zoneName : String
  trackId : Nat
  timestamp : Micros
  confidence : Score
  deriving DecidableEq

/-! ### Configuration -/

/-- The arguments that `Sort.__init__` accepts. -/
structure SortConfig where
  maxAge : Nat
  minHits : Nat
  iouThreshold : Rat
  minHits_pos : 1 ≤ minHits
  threshold_nonneg : 0 ≤ iouThreshold
  threshold_le : iouThreshold ≤ 1
  deriving DecidableEq

/-- A `CVConfig` that `__post_init__` accepts. The cooldown and the retention margin are the
`timedelta` values that the detector builds from them. A sum of the two that is no `timedelta`, of
more than 999999999 days, is longer than the range of `datetime`: then no detector is built, and
here no call of it gets over its cleanup. -/
structure CVConfig where
  zones : List Zone
  intrusionZoneIds : List String
  intrusionCooldown : Micros
  intrusionRetentionMargin : Micros
  tracker : SortConfig
  zones_unique : (zones.map Zone.id).Nodup
  intrusion_configured : ∀ id ∈ intrusionZoneIds, id ∈ zones.map Zone.id
  cooldown_nonneg : 0 ≤ intrusionCooldown
  margin_nonneg : 0 ≤ intrusionRetentionMargin

end Rsap.Cv
