import Mathlib.Tactic.FieldSimp
import Mathlib.Tactic.Linarith
import Mathlib.Tactic.Positivity
import Mathlib.Tactic.Ring
import Rsap.Cv.Kalman
import Rsap.Proofs.TrackIdentity

/-!
# `Rsap.Proofs.KalmanFilter`: the filter always has a solution

`DefiniteAxis` says of the covariances of one coordinate that they are positive semidefinite and
that the coordinate is uncertain. A new filter is of this kind, and `predict` and `update` keep it
so. So the matrix that `update` inverts is singular in no run of a filter (`filter_solvable`).

The filter also meets what the identity of the tracks asks of it (`constantVelocity_finite`).
-/

set_option autoImplicit false

namespace Rsap.Proofs

open Rsap.Cv

/-! ### One coordinate -/

section Axis
variable {a : Axis} {noise : Rat}

/-- The block of `P` is positive semidefinite, and the coordinate is uncertain. -/
structure DefiniteAxis (a : Axis) : Prop where
  variance_pos : 0 < a.variance
  velocity_nonneg : 0 ≤ a.velocityVariance
  determinant : a.covariance ^ 2 ≤ a.variance * a.velocityVariance

/-- The block of a new filter is diagonal. -/
theorem definiteAxis_new (position : Rat) : DefiniteAxis (.new position) := by
  constructor <;> simp [Axis.new]

/-- A prediction keeps the block definite. -/
theorem DefiniteAxis.predict (h : DefiniteAxis a) : DefiniteAxis a.predict := by
  have hv := h.variance_pos
  have hw := h.velocity_nonneg
  have hdet := h.determinant
  -- the quadratic form of the block at (1, 1)
  have hform : 0 ≤ a.variance + 2 * a.covariance + a.velocityVariance := by
    by_contra hneg
    nlinarith [sq_nonneg (a.variance - a.velocityVariance)]
  constructor
  · show 0 < a.variance + 2 * a.covariance + a.velocityVariance + 1
    linarith
  · show 0 ≤ a.velocityVariance + 1 / 100
    linarith
  · show (a.covariance + a.velocityVariance) ^ 2 ≤
      (a.variance + 2 * a.covariance + a.velocityVariance + 1) * (a.velocityVariance + 1 / 100)
    nlinarith

/-- The entry of the matrix that `update` inverts is positive. -/
theorem DefiniteAxis.innovation_pos (h : DefiniteAxis a) (hnoise : 0 < noise) :
    0 < a.variance + noise := by
  have := h.variance_pos
  linarith

/-- What is left of a variance after an update. -/
theorem one_sub_gain {variance : Rat} (h : 0 < variance + noise) :
    1 - variance / (variance + noise) = noise / (variance + noise) := by
  have hne := h.ne'
  field_simp
  ring

/-- An update keeps the block definite. -/
theorem DefiniteAxis.update (h : DefiniteAxis a) (hnoise : 0 < noise) (measurement : Rat) :
    DefiniteAxis (a.update noise measurement) := by
  have hv := h.variance_pos
  have hs := h.innovation_pos hnoise
  have hdet := h.determinant
  have hkept := one_sub_gain hs
  constructor
  · show 0 < (1 - a.variance / (a.variance + noise)) * a.variance
    rw [hkept]
    positivity
  · show 0 ≤ a.velocityVariance - a.covariance / (a.variance + noise) * a.covariance
    have hle : a.covariance / (a.variance + noise) * a.covariance ≤ a.velocityVariance := by
      rw [div_mul_eq_mul_div, div_le_iff₀ hs]
      nlinarith [h.velocity_nonneg]
    linarith
  · show ((1 - a.variance / (a.variance + noise)) * a.covariance) ^ 2 ≤
      (1 - a.variance / (a.variance + noise)) * a.variance *
        (a.velocityVariance - a.covariance / (a.variance + noise) * a.covariance)
    rw [hkept, ← sub_nonneg]
    -- the determinant shrinks by the factor that the variance does
    have hdifference : noise / (a.variance + noise) * a.variance *
        (a.velocityVariance - a.covariance / (a.variance + noise) * a.covariance) -
        (noise / (a.variance + noise) * a.covariance) ^ 2 =
        noise / (a.variance + noise) * (a.variance * a.velocityVariance - a.covariance ^ 2) := by
      field_simp
      ring
    rw [hdifference]
    have hfactor : 0 ≤ noise / (a.variance + noise) := by positivity
    exact mul_nonneg hfactor (by linarith)

end Axis

/-! ### The filter -/

/-- The covariances of a filter are definite. -/
structure DefiniteFilter (state : FilterState) : Prop where
  x : DefiniteAxis state.x
  y : DefiniteAxis state.y
  scale : DefiniteAxis state.scale
  ratio : 0 < state.ratioVariance

section Filter
variable {state : FilterState}

/-- A new filter is definite. -/
theorem definiteFilter_new (bbox : BBox) : DefiniteFilter (.new bbox) where
  x := definiteAxis_new _
  y := definiteAxis_new _
  scale := definiteAxis_new _
  ratio := by
    show (0 : Rat) < 10
    norm_num

/-- A prediction keeps the filter definite. -/
theorem DefiniteFilter.predict (h : DefiniteFilter state) : DefiniteFilter state.predict := by
  refine ⟨h.x.predict, h.y.predict, ?_, ?_⟩
  · show DefiniteAxis (if _ then _ else _)
    split
    · -- the velocity plays no part in the covariances
      exact DefiniteAxis.predict ⟨h.scale.variance_pos, h.scale.velocity_nonneg,
        h.scale.determinant⟩
    · exact h.scale.predict
  · show 0 < state.ratioVariance + 1
    have := h.ratio
    linarith

/-- An update keeps the filter definite. -/
theorem DefiniteFilter.update (h : DefiniteFilter state) (bbox : BBox) :
    DefiniteFilter (state.update bbox) := by
  refine ⟨h.x.update one_pos _, h.y.update one_pos _, h.scale.update (by norm_num) _, ?_⟩
  have hpos := h.ratio
  show 0 < (1 - state.ratioVariance / (state.ratioVariance + 10)) * state.ratioVariance
  rw [one_sub_gain (by linarith)]
  positivity

/-- What a tracker does with its filter: a prediction, or an update with a box. -/
def filterRun (state : FilterState) (calls : List (Option BBox)) : FilterState :=
  calls.foldl (fun state call => call.elim state.predict state.update) state

/-- Every filter is definite, so each of its updates has a matrix with a positive diagonal to
invert. -/
theorem filter_solvable (bbox : BBox) (calls : List (Option BBox)) :
    DefiniteFilter (filterRun (.new bbox) calls) := by
  unfold filterRun
  generalize hstate : FilterState.new bbox = state
  have h : DefiniteFilter state := hstate ▸ definiteFilter_new bbox
  clear hstate
  induction calls generalizing state with
  | nil => exact h
  | cons call calls ih =>
    cases call with
    | none => exact ih _ h.predict
    | some box => exact ih _ (h.update box)

/-- The boxes of the filter are finite. -/
theorem constantVelocity_finite (sqrt : Rat → Rat) : Kalman.Finite (constantVelocity sqrt) :=
  fun _ => rfl

end Filter

end Rsap.Proofs
