import Rsap.Cv.Tracker

/-!
# `Rsap.Cv.Kalman`: the constant-velocity filter

The arithmetic of `KalmanBoxTracker` (`cv_engine/models/tracker.py`) over the rational numbers, as
an instance of `Kalman`. The square root of NumPy is a parameter.

`F`, `H`, `Q`, `R` and the first `P` couple a coordinate of the state with its own velocity and
with nothing else. So every `P` has this shape, the system that `update` solves is diagonal, and
the filter is four filters that do not touch each other: one for each of x, y and the scale
(`Axis`), and one for the ratio, which has no velocity.
-/

set_option autoImplicit false

namespace Rsap.Cv

/-! ### One coordinate -/

/-- A coordinate of `x` and its velocity, with the entries of `P` that belong to the two. -/
structure Axis where
  position : Rat
  velocity : Rat
  variance : Rat
  covariance : Rat
  velocityVariance : Rat
  deriving DecidableEq

namespace Axis

/-- `__init__`. -/
def new (position : Rat) : Axis := ⟨position, 0, 10, 0, 10000⟩

/-- `predict`: `F @ x` and `F @ P @ F.T + Q`. -/
def predict (a : Axis) : Axis where
  position := a.position + a.velocity
  velocity := a.velocity
  variance := a.variance + 2 * a.covariance + a.velocityVariance + 1
  covariance := a.covariance + a.velocityVariance
  velocityVariance := a.velocityVariance + 1 / 100

/-- `update`, with the entry of `R`. -/
def update (noise measurement : Rat) (a : Axis) : Axis :=
  let innovation := measurement - a.position
  let gain := a.variance / (a.variance + noise)
  let velocityGain := a.covariance / (a.variance + noise)
  { position := a.position + gain * innovation
    velocity := a.velocity + velocityGain * innovation
    variance := (1 - gain) * a.variance
    covariance := (1 - gain) * a.covariance
    velocityVariance := a.velocityVariance - velocityGain * a.covariance }

end Axis

/-! ### The filter -/

/-- The state `x` and the entries of `P` that are not zero. -/
structure FilterState where
  x : Axis
  y : Axis
  scale : Axis
  ratio : Rat
  ratioVariance : Rat
  deriving DecidableEq

namespace FilterState

/-- `_bbox_to_measurement`. -/
def measurement (box : Rect) : Rat × Rat × Rat × Rat :=
  let width := box.x2 - box.x1
  let height := box.y2 - box.y1
  (box.x1 + width / 2, box.y1 + height / 2, width * height, width / height)

/-- `__init__`. -/
def new (bbox : BBox) : FilterState :=
  let (x, y, scale, ratio) := measurement bbox.toRect
  ⟨.new x, .new y, .new scale, ratio, 10⟩

/-- `predict`. A scale that would not stay positive does not move. -/
def predict (state : FilterState) : FilterState where
  x := state.x.predict
  y := state.y.predict
  scale :=
    if state.scale.position + state.scale.velocity ≤ 0 then
      { state.scale with velocity := 0 }.predict
    else state.scale.predict
  ratio := state.ratio
  ratioVariance := state.ratioVariance + 1

/-- `update`. -/
def update (state : FilterState) (bbox : BBox) : FilterState :=
  let (x, y, scale, ratio) := measurement bbox.toRect
  let gain := state.ratioVariance / (state.ratioVariance + 10)
  { x := state.x.update 1 x
    y := state.y.update 1 y
    scale := state.scale.update 10 scale
    ratio := state.ratio + gain * (ratio - state.ratio)
    ratioVariance := (1 - gain) * state.ratioVariance }

/-- `_state_to_bbox`. -/
def toBBox (sqrt : Rat → Rat) (state : FilterState) : FloatBox :=
  let scale := max state.scale.position (1 / 1000000)
  let ratio := max state.ratio (1 / 1000000)
  let width := sqrt (scale * ratio)
  let height := scale / width
  ⟨.finite (state.x.position - width / 2), .finite (state.y.position - height / 2),
    .finite (state.x.position + width / 2), .finite (state.y.position + height / 2)⟩

end FilterState

/-- The filter of the source. -/
def constantVelocity (sqrt : Rat → Rat) : Kalman FilterState where
  init := .new
  predict := .predict
  update := .update
  stateToBBox := FilterState.toBBox sqrt

end Rsap.Cv
