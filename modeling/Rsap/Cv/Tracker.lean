import Mathlib.Order.MinMax
import Rsap.Cv.Types

/-!
# `Rsap.Cv.Tracker`: SORT tracking

`Sort.update_objects` (`cv_engine/models/tracker.py`): predict every tracker, assign the
detections to the predicted boxes, update the matched trackers, create a tracker for every
detection that is left, drop the trackers that were missed too often, and report the objects.

The Kalman filter is a parameter: a type of filter states with the four functions that the
tracker calls (`Kalman`). So is `linear_sum_assignment` of SciPy, whose argument is the matrix of
costs. The class attribute `_next_id` is shared by all trackers of the process. Here it is an
argument and a result.

The fields `age` and `hit_streak` of a tracker are left out, since nothing reads them.
-/

set_option autoImplicit false

namespace Rsap.Cv

/-- `iou_batch` on one pair of boxes. -/
def iou (a b : Rect) : Rat :=
  let intersection :=
    max 0 (min a.x2 b.x2 - max a.x1 b.x1) * max 0 (min a.y2 b.y2 - max a.y1 b.y1)
  let areaA := max 0 (a.x2 - a.x1) * max 0 (a.y2 - a.y1)
  let areaB := max 0 (b.x2 - b.x1) * max 0 (b.y2 - b.y1)
  let union := areaA + areaB - intersection
  if 0 < union then intersection / union else 0

/-- `iou_batch`: a row for each box of the first list, a column for each box of the second. When
one of the lists is empty there is no entry, as in the early return of the source. -/
def iouBatch (boxesA boxesB : List Rect) (row : Fin boxesA.length) (column : Fin boxesB.length) :
    Rat :=
  iou (boxesA.get row) (boxesB.get column)

/-- The arithmetic of the Kalman filter: `__init__`, `predict` and `update` on the state, and
`_state_to_bbox`. -/
structure Kalman (σ : Type) where
  init : BBox → σ
  predict : σ → σ
  update : σ → BBox → σ
  stateToBBox : σ → FloatBox

/-- `_TrackMetadata`. -/
structure TrackMetadata where
  classId : Int
  className : String
  confidence : Score
  deriving DecidableEq

/-- The metadata of a detection. -/
def Detection.metadata (d : Detection) : TrackMetadata := ⟨d.classId, d.className, d.confidence⟩

structure KalmanBoxTracker (σ : Type) where
  x : σ
  id : Nat
  timeSinceUpdate : Nat
  hits : Nat
  metadata : TrackMetadata
  deriving DecidableEq

namespace KalmanBoxTracker

variable {σ : Type} (kalman : Kalman σ)

/-- `__init__`, with the id that it takes. -/
def new (d : Detection) (id : Nat) : KalmanBoxTracker σ where
  x := kalman.init d.bbox
  id := id
  timeSinceUpdate := 0
  hits := 1
  metadata := d.metadata

/-- `predict`. -/
def predict (t : KalmanBoxTracker σ) : KalmanBoxTracker σ :=
  { t with x := kalman.predict t.x, timeSinceUpdate := t.timeSinceUpdate + 1 }

/-- `update`. -/
def update (d : Detection) (t : KalmanBoxTracker σ) : KalmanBoxTracker σ :=
  { t with
    x := kalman.update t.x d.bbox
    timeSinceUpdate := 0
    hits := t.hits + 1
    metadata := d.metadata }

/-- `get_state`, which is also the result of `predict`. -/
def getState (t : KalmanBoxTracker σ) : FloatBox := kalman.stateToBBox t.x

end KalmanBoxTracker

/-! ### Association -/

/-- `linear_sum_assignment`, on a matrix of costs. -/
abbrev Assignment := List (List Rat) → List (Nat × Nat)

/-- `ious[row, col]`. -/
def entry (ious : List (List Rat)) (pair : Nat × Nat) : Rat :=
  ((ious[pair.1]?).bind fun row => row[pair.2]?).getD 0

/-- The result of `_associate`. -/
structure Association where
  matched : List (Nat × Nat)
  unmatchedDetections : List Nat
  unmatchedTrackers : List Nat
  deriving DecidableEq

/-- `_associate`. The rows of `ious` are those of `iouBatch`. -/
def associate (assign : Assignment) (threshold : Rat) (detections trackers : List Rect) :
    Association :=
  if trackers.isEmpty then ⟨[], List.range detections.length, []⟩
  else
    let ious := detections.map fun d => trackers.map fun t => iou d t
    let matched := (assign (ious.map fun row => row.map fun x => -x)).filter fun pair =>
      ¬ entry ious pair < threshold
    ⟨matched, (List.range detections.length).filter fun d => d ∉ matched.map Prod.fst,
      (List.range trackers.length).filter fun t => t ∉ matched.map Prod.snd⟩

/-! ### `Sort` -/

/-- The state of a `Sort`, whose name is a word of Lean. -/
structure SortTracker (σ : Type) where
  trackers : List (KalmanBoxTracker σ)
  frameCount : Nat
  deriving DecidableEq

namespace SortTracker

variable {σ : Type} (config : SortConfig) (kalman : Kalman σ) (assign : Assignment)

/-- A new `Sort`. -/
def empty : SortTracker σ := ⟨[], 0⟩

/-- The trackers after their prediction, each with its box, as far as this is finite. -/
def predicted (trackers : List (KalmanBoxTracker σ)) : List (KalmanBoxTracker σ × Rect) :=
  trackers.filterMap fun t =>
    let t := t.predict kalman
    (t.getState kalman).rect.map fun rect => (t, rect)

/-- The updates of the matched trackers. -/
def updateMatched (detections : List Detection) (matched : List (Nat × Nat))
    (trackers : List (KalmanBoxTracker σ)) : List (KalmanBoxTracker σ) :=
  matched.foldl (fun trackers pair =>
    match detections[pair.1]? with
    | some d => trackers.modify pair.2 (KalmanBoxTracker.update kalman d)
    | none => trackers) trackers

/-- The trackers for the detections that are left, from this id on. -/
def created (detections : List Detection) : List Nat → Nat → List (KalmanBoxTracker σ)
  | [], _ => []
  | index :: unmatched, nextId =>
    match detections[index]? with
    | some d => .new kalman d nextId :: created detections unmatched (nextId + 1)
    | none => created detections unmatched nextId

/-- The association of a frame. -/
def association (sort : SortTracker σ) (detections : List Detection) : Association :=
  associate assign config.iouThreshold (detections.map fun d => d.bbox.toRect)
    ((predicted kalman sort.trackers).map Prod.snd)

/-- The trackers of a frame before the survivors are chosen. -/
def advance (sort : SortTracker σ) (nextId : Nat) (detections : List Detection) :
    List (KalmanBoxTracker σ) :=
  let frame := sort.association config kalman assign detections
  updateMatched kalman detections frame.matched ((predicted kalman sort.trackers).map Prod.fst) ++
    created kalman detections frame.unmatchedDetections nextId

/-- The tracker is reported in the frame. -/
def reportable (frameCount : Nat) (t : KalmanBoxTracker σ) : Bool :=
  decide (t.timeSinceUpdate = 0 ∧ (config.minHits ≤ t.hits ∨ frameCount ≤ config.minHits))

/-- `TrackedObject(...)`, which validates the box, for the clamped box of a tracker. A box without
an area is left out. -/
def trackedObject (t : KalmanBoxTracker σ) : Except String (Option TrackedObject) :=
  let state := t.getState kalman
  let bbox : FloatBox := ⟨state.x1.clamp, state.y1.clamp, state.x2, state.y2⟩
  if bbox.x2.le bbox.x1 || bbox.y2.le bbox.y1 then .ok none
  else
    match bbox.rect with
    | none => .error "bbox coordinates must be finite"
    | some rect =>
      if hneg : 0 ≤ rect.x1 ∧ 0 ≤ rect.y1 then
        if harea : rect.x1 < rect.x2 ∧ rect.y1 < rect.y2 then
          .ok (some ⟨⟨rect, hneg.1, hneg.2, harea.1, harea.2⟩, t.id, t.metadata.classId,
            t.metadata.className, t.metadata.confidence⟩)
        else .error "bbox must have positive width and height"
      else .error "bbox coordinates must not be negative"

/-- The objects that the last loop reports. -/
def report (frameCount : Nat) : List (KalmanBoxTracker σ) → Except String (List TrackedObject)
  | [] => .ok []
  | t :: trackers =>
    if reportable config frameCount t then
      match trackedObject kalman t with
      | .error e => .error e
      | .ok object => (report frameCount trackers).map fun objects => object.toList ++ objects
    else report frameCount trackers

/-- `update_objects`: the state after the frame, the next free id, and the objects. When the last
loop raises, the survivors are not stored. -/
def update (sort : SortTracker σ) (nextId : Nat) (detections : List Detection) :
    SortTracker σ × Nat × Except String (List TrackedObject) :=
  let frameCount := sort.frameCount + 1
  let trackers := sort.advance config kalman assign nextId detections
  let created := (sort.association config kalman assign detections).unmatchedDetections.length
  match report config kalman frameCount trackers with
  | .error e => (⟨trackers, frameCount⟩, nextId + created, .error e)
  | .ok objects =>
    (⟨trackers.filter fun t => t.timeSinceUpdate ≤ config.maxAge, frameCount⟩, nextId + created,
      .ok objects)

end SortTracker

end Rsap.Cv
