import Mathlib.Algebra.Order.Ring.Abs
import Mathlib.Logic.Function.Basic
import Rsap.Cv.Pipeline

/-!
# `Rsap.Cv.PeopleCounter`: counting tracks that cross a line

`PeopleCounter` (`cv_engine/pipeline/people_counter.py`) with `CountingLine` (`types.py`), over
exact arithmetic. The dictionary of the track states is a function to `Option`.

`_signed_distance` is the cross product over the length of the line, and the length is a square
root. The loop only asks for its sign and compares it with the hysteresis, so `inDeadBand` compares
the squares. `Rsap.Proofs.ReversedLine` has the distance itself and proves that the two agree.
-/

set_option autoImplicit false

namespace Rsap.Cv

/-- A counting line that `__post_init__` accepts. -/
structure CountingLine where
  start : Point
  stop : Point
  normalized : Bool
  distinct : start ≠ stop
  bounds : normalized = true → ∀ value ∈ [start.1, start.2, stop.1, stop.2], 0 ≤ value ∧ value ≤ 1

/-- `CountDirection`: `IN` and `OUT`. -/
inductive CountDirection where
  | inward
  | outward
  deriving DecidableEq

structure CountEvent where
  trackId : Nat
  direction : CountDirection
  timestamp : Micros
  deriving DecidableEq

structure CountUpdate where
  countIn : Nat
  countOut : Nat
  events : List CountEvent
  deriving DecidableEq

/-- The arguments that `PeopleCounter.__init__` accepts. -/
structure CounterConfig where
  line : Option CountingLine
  hysteresisPixels : Rat
  staleAfterFrames : Nat
  hysteresis_nonneg : 0 ≤ hysteresisPixels

/-- The state of a track. The side is `1` or `-1`. -/
structure TrackState where
  stableSide : Int
  lastSeenFrame : Nat
  deriving DecidableEq

structure PeopleCounter where
  countIn : Nat
  countOut : Nat
  trackStates : Nat → Option TrackState
  frameIndex : Nat

/-- The arguments of a call of `update`. -/
structure CounterFrame where
  tracked : List TrackedObject
  shape : FrameShape
  timestamp : Micros
  deriving DecidableEq

namespace PeopleCounter

/-- The state that `__init__` sets. -/
def new : PeopleCounter := ⟨0, 0, fun _ => none, 0⟩

/-- `_pixel_line`. -/
def pixelLine (line : CountingLine) (shape : FrameShape) : Point × Point :=
  if line.normalized then
    let (height, width) := shape
    ((line.start.1 * width, line.start.2 * height), (line.stop.1 * width, line.stop.2 * height))
  else (line.start, line.stop)

/-- `cross_product` in `_signed_distance`. -/
def crossProduct (point start stop : Point) : Rat :=
  let deltaX := stop.1 - start.1
  let deltaY := stop.2 - start.2
  deltaX * (point.2 - start.2) - deltaY * (point.1 - start.1)

/-- The square of `length` in `_signed_distance`. -/
def squaredLength (start stop : Point) : Rat :=
  (stop.1 - start.1) ^ 2 + (stop.2 - start.2) ^ 2

/-- `abs(side_value) <= self.hysteresis_pixels`. -/
def inDeadBand (hysteresis : Rat) (point start stop : Point) : Bool :=
  decide (crossProduct point start stop ^ 2 ≤ hysteresis ^ 2 * squaredLength start stop)

/-- The side of a point outside the dead band. -/
def side (point start stop : Point) : Int :=
  if 0 < crossProduct point start stop then 1 else -1

/-- `self._track_states[track_id] = state`. -/
def setTrack (counter : PeopleCounter) (track : Nat) (state : TrackState) : PeopleCounter :=
  { counter with trackStates := Function.update counter.trackStates track (some state) }

/-- A count goes up. -/
def count (counter : PeopleCounter) : CountDirection → PeopleCounter
  | .inward => { counter with countIn := counter.countIn + 1 }
  | .outward => { counter with countOut := counter.countOut + 1 }

/-- The state just written for a track is the one read back. -/
@[simp] theorem setTrack_self (counter : PeopleCounter) (track : Nat) (state : TrackState) :
    (counter.setTrack track state).trackStates track = some state :=
  Function.update_self ..

/-- Writing one track's state leaves every other track's state. -/
theorem setTrack_of_ne (counter : PeopleCounter) {track other : Nat} (state : TrackState)
    (h : other ≠ track) :
    (counter.setTrack track state).trackStates other = counter.trackStates other :=
  Function.update_of_ne h ..

/-- Counting a crossing touches no track. -/
@[simp] theorem count_trackStates (counter : PeopleCounter) (direction : CountDirection) :
    (counter.count direction).trackStates = counter.trackStates := by
  cases direction <;> rfl

/-- Counting a crossing does not advance the frame number. -/
@[simp] theorem count_frameIndex (counter : PeopleCounter) (direction : CountDirection) :
    (counter.count direction).frameIndex = counter.frameIndex := by
  cases direction <;> rfl

variable (config : CounterConfig) (start stop : Point) (now : Micros)

/-- The body of the loop in `update`. -/
def visit (counter : PeopleCounter) (item : TrackedObject) : PeopleCounter × List CountEvent :=
  if item.classId ≠ 0 then (counter, [])
  else if inDeadBand config.hysteresisPixels item.centroid start stop then
    match counter.trackStates item.trackId with
    | some state =>
      (counter.setTrack item.trackId { state with lastSeenFrame := counter.frameIndex }, [])
    | none => (counter, [])
  else
    let side := side item.centroid start stop
    match counter.trackStates item.trackId with
    | none => (counter.setTrack item.trackId ⟨side, counter.frameIndex⟩, [])
    | some state =>
      let seen := counter.setTrack item.trackId ⟨side, counter.frameIndex⟩
      if state.stableSide = side then (seen, [])
      else
        let direction := if state.stableSide < side then .inward else .outward
        (seen.count direction, [⟨item.trackId, direction, now⟩])

/-- The loop in `update`. -/
def visitAll : PeopleCounter → List TrackedObject → PeopleCounter × List CountEvent
  | counter, [] => (counter, [])
  | counter, item :: tracked =>
    let (counter, events) := visit config start stop now counter item
    let (counter, rest) := visitAll counter tracked
    (counter, events ++ rest)

/-- `cleanup` without tracks. -/
def cleanup (counter : PeopleCounter) : PeopleCounter :=
  { counter with
    trackStates := fun track => (counter.trackStates track).filter fun state =>
      ¬ config.staleAfterFrames < counter.frameIndex - state.lastSeenFrame }

/-- `update`: the state after the call, and its result. `_signed_distance` raises when a frame
without extension makes the endpoints of the line the same. -/
def update (counter : PeopleCounter) (frame : CounterFrame) : PeopleCounter × Option CountUpdate :=
  let counter := { counter with frameIndex := counter.frameIndex + 1 }
  match config.line with
  | none => (counter, some ⟨counter.countIn, counter.countOut, []⟩)
  | some line =>
    let (start, stop) := pixelLine line frame.shape
    if start = stop ∧ ∃ item ∈ frame.tracked, item.classId = 0 then (counter, none)
    else
      let (counter, events) := visitAll config start stop frame.timestamp counter frame.tracked
      let counter := cleanup config counter
      (counter, some ⟨counter.countIn, counter.countOut, events⟩)

end PeopleCounter

end Rsap.Cv
