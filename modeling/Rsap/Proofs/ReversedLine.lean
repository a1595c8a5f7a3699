import Mathlib.Analysis.Real.Sqrt
import Mathlib.Tactic.FieldSimp
import Mathlib.Tactic.Ring
import Rsap.Cv.PeopleCounter

/-!
# `Rsap.Proofs.ReversedLine`: a reversed counting line exchanges the directions

The signed distance of a point to the reversed line is the negated one. So a counter on the
reversed line is the mirror image of the counter: the sides of its tracks are negated, and its
counts are exchanged. `mirror_update` is one call, and `reversed_line` the run.

`inDeadBand_iff` and `side_eq` say that the counter decides by the signed distance itself, which is
a quotient by a square root.
-/

set_option autoImplicit false

namespace Rsap.Proofs

open Rsap.Cv
open Rsap.Cv.PeopleCounter (visit visitAll inDeadBand squaredLength pixelLine)

/-! ### The signed distance -/

/-- `_signed_distance`. -/
noncomputable def signedDistance (point start stop : Point) : ℝ :=
  (PeopleCounter.crossProduct point start stop : ℝ) / √(squaredLength start stop : ℝ)

/-- A line with distinct ends has a length. -/
theorem squaredLength_pos {start stop : Point} (h : start ≠ stop) :
    0 < squaredLength start stop := by
  unfold squaredLength
  by_cases hx : start.1 = stop.1
  · have hy : stop.2 - start.2 ≠ 0 := fun hzero => h (Prod.ext hx (sub_eq_zero.mp hzero).symm)
    have hpos := sq_pos_of_ne_zero hy
    have hnonneg := sq_nonneg (stop.1 - start.1)
    linarith
  · have hx' : stop.1 - start.1 ≠ 0 := fun hzero => hx (sub_eq_zero.mp hzero).symm
    have hpos := sq_pos_of_ne_zero hx'
    have hnonneg := sq_nonneg (stop.2 - start.2)
    linarith

/-- The dead band is where the signed distance is at most the hysteresis. -/
theorem inDeadBand_iff {hysteresis : Rat} {point start stop : Point} (h : start ≠ stop)
    (hnonneg : 0 ≤ hysteresis) :
    inDeadBand hysteresis point start stop = true ↔
      |signedDistance point start stop| ≤ (hysteresis : ℝ) := by
  have hlength : (0 : ℝ) < (squaredLength start stop : ℝ) := by
    exact_mod_cast squaredLength_pos h
  have hroot : 0 < √(squaredLength start stop : ℝ) := Real.sqrt_pos.mpr hlength
  have hband : (0 : ℝ) ≤ (hysteresis : ℝ) * √(squaredLength start stop : ℝ) := by
    have hcast : (0 : ℝ) ≤ (hysteresis : ℝ) := by exact_mod_cast hnonneg
    positivity
  rw [signedDistance, abs_div, abs_of_pos hroot, div_le_iff₀ hroot, ← abs_of_nonneg hband,
    ← sq_le_sq, mul_pow, Real.sq_sqrt hlength.le, inDeadBand, decide_eq_true_eq]
  constructor
  · intro hle
    exact_mod_cast hle
  · intro hle
    exact_mod_cast hle

/-- The side is the sign of the distance. -/
theorem side_eq {point start stop : Point} (h : start ≠ stop) :
    PeopleCounter.side point start stop = 1 ↔ 0 < signedDistance point start stop := by
  have hlength : (0 : ℝ) < (squaredLength start stop : ℝ) := by
    exact_mod_cast squaredLength_pos h
  rw [signedDistance, div_pos_iff_of_pos_right (Real.sqrt_pos.mpr hlength)]
  unfold PeopleCounter.side
  split
  · rename_i hpos
    exact iff_of_true rfl (by exact_mod_cast hpos)
  · rename_i hneg
    refine iff_of_false (by decide) ?_
    intro hpos
    exact hneg (by exact_mod_cast hpos)

/-- The reversed line has every point on its other side. -/
theorem crossProduct_swap (point start stop : Point) :
    PeopleCounter.crossProduct point stop start = -PeopleCounter.crossProduct point start stop := by
  unfold PeopleCounter.crossProduct
  ring

/-- The reversed line is as long. -/
theorem squaredLength_swap (start stop : Point) :
    squaredLength stop start = squaredLength start stop := by
  unfold squaredLength
  ring

/-- The reversed line has the same dead band. -/
theorem inDeadBand_swap (hysteresis : Rat) (point start stop : Point) :
    inDeadBand hysteresis point stop start = inDeadBand hysteresis point start stop := by
  rw [inDeadBand, inDeadBand, crossProduct_swap, squaredLength_swap, neg_sq]

/-- Outside the dead band a point is on the other side of the reversed line. -/
theorem side_swap {hysteresis : Rat} {point start stop : Point}
    (hout : ¬ inDeadBand hysteresis point start stop = true) :
    PeopleCounter.side point stop start = -PeopleCounter.side point start stop := by
  have hne : PeopleCounter.crossProduct point start stop ≠ 0 := by
    intro hzero
    refine hout (decide_eq_true ?_)
    rw [hzero]
    have hlength : 0 ≤ squaredLength start stop := by
      unfold squaredLength
      positivity
    positivity
  have hswap := crossProduct_swap point start stop
  unfold PeopleCounter.side
  rcases lt_or_gt_of_ne hne with hlt | hgt
  · rw [if_pos (by linarith), if_neg (not_lt.mpr hlt.le)]
    rfl
  · rw [if_neg (by linarith), if_pos hgt]

/-! ### The mirror image -/

/-- The line from the end to the start. -/
def reverseLine (line : CountingLine) : CountingLine where
  start := line.stop
  stop := line.start
  normalized := line.normalized
  distinct := line.distinct.symm
  bounds := by
    intro hnormalized value hvalue
    refine line.bounds hnormalized value ?_
    simp only [List.mem_cons, List.not_mem_nil, or_false] at hvalue ⊢
    tauto

/-- The same counter on the reversed line. -/
def reverseConfig (config : CounterConfig) : CounterConfig :=
  { config with line := config.line.map reverseLine }

def swapDirection : CountDirection → CountDirection
  | .inward => .outward
  | .outward => .inward

def swapEvent (event : CountEvent) : CountEvent :=
  { event with direction := swapDirection event.direction }

def swapUpdate (update : CountUpdate) : CountUpdate :=
  ⟨update.countOut, update.countIn, update.events.map swapEvent⟩

def flipState (state : TrackState) : TrackState := { state with stableSide := -state.stableSide }

/-- The mirror image of a counter. -/
def mirror (counter : PeopleCounter) : PeopleCounter where
  countIn := counter.countOut
  countOut := counter.countIn
  trackStates := fun track => (counter.trackStates track).map flipState
  frameIndex := counter.frameIndex

/-- Writing a mirrored track mirrors the counter. -/
theorem mirror_setTrack (counter : PeopleCounter) (track : Nat) (state : TrackState) :
    (mirror counter).setTrack track (flipState state) = mirror (counter.setTrack track state) := by
  unfold PeopleCounter.setTrack mirror
  congr 1
  funext other
  by_cases h : other = track
  · subst h
    simp
  · simp [Function.update_of_ne h]

/-- Counting the opposite direction mirrors the counter. -/
theorem mirror_count (counter : PeopleCounter) (direction : CountDirection) :
    (mirror counter).count (swapDirection direction) = mirror (counter.count direction) := by
  cases direction <;> rfl

section
variable (config : CounterConfig) (start stop : Point) (now : Micros)

/-- One item: the mirror image goes on as the mirror image, and the directions are exchanged. -/
theorem mirror_visit (counter : PeopleCounter) (item : TrackedObject) :
    visit (reverseConfig config) stop start now (mirror counter) item =
      (mirror (visit config start stop now counter item).1,
        (visit config start stop now counter item).2.map swapEvent) := by
  have hlookup : (mirror counter).trackStates item.trackId =
      (counter.trackStates item.trackId).map flipState := rfl
  unfold visit
  by_cases hclass : item.classId ≠ 0
  · rw [if_pos hclass, if_pos hclass]
    rfl
  rw [if_neg hclass, if_neg hclass]
  -- the dead band has no direction, and the side changes its sign
  have hband : inDeadBand (reverseConfig config).hysteresisPixels item.centroid stop start =
      inDeadBand config.hysteresisPixels item.centroid start stop := inDeadBand_swap ..
  rw [hband, hlookup]
  by_cases hin : inDeadBand config.hysteresisPixels item.centroid start stop = true
  · rw [if_pos hin, if_pos hin]
    cases counter.trackStates item.trackId with
    | none => rfl
    | some state =>
      exact Prod.ext (mirror_setTrack counter item.trackId
        { state with lastSeenFrame := counter.frameIndex }) rfl
  · rw [if_neg hin, if_neg hin]
    dsimp only
    rw [side_swap hin]
    generalize PeopleCounter.side item.centroid start stop = side
    have hset : (mirror counter).setTrack item.trackId ⟨-side, (mirror counter).frameIndex⟩ =
        mirror (counter.setTrack item.trackId ⟨side, counter.frameIndex⟩) :=
      mirror_setTrack counter item.trackId ⟨side, counter.frameIndex⟩
    rw [hset]
    cases counter.trackStates item.trackId with
    | none => rfl
    | some state =>
      show (if -state.stableSide = -side then _ else _) = _
      -- a crossing is a change of side in both runs, the other way round
      by_cases hsame : state.stableSide = side
      · simp [hsame]
      · have hne : ¬ -state.stableSide = -side := fun h => hsame (neg_inj.mp h)
        have hdirection : (if -state.stableSide < -side then CountDirection.inward
              else .outward) =
            swapDirection (if state.stableSide < side then .inward else .outward) := by
          rcases lt_or_gt_of_ne hsame with hlt | hgt
          · rw [if_neg (by omega), if_pos hlt]
            rfl
          · rw [if_pos (by omega), if_neg (by omega)]
            rfl
        simp only [hsame, hne, if_false]
        show ((mirror _).count (if -state.stableSide < -side then _ else _),
          [CountEvent.mk item.trackId (if -state.stableSide < -side then _ else _) now]) = _
        rw [hdirection, mirror_count]
        rfl

/-- The loop commutes with the mirror, item by item. -/
theorem mirror_visitAll (counter : PeopleCounter) (tracked : List TrackedObject) :
    visitAll (reverseConfig config) stop start now (mirror counter) tracked =
      (mirror (visitAll config start stop now counter tracked).1,
        (visitAll config start stop now counter tracked).2.map swapEvent) := by
  induction tracked generalizing counter with
  | nil => rfl
  | cons item tracked ih =>
    simp only [visitAll, mirror_visit, ih, List.map_append]

/-- The cleanup looks at frame numbers only. -/
theorem mirror_cleanup (counter : PeopleCounter) :
    (mirror counter).cleanup (reverseConfig config) = mirror (counter.cleanup config) := by
  unfold PeopleCounter.cleanup mirror
  congr 1
  funext track
  show Option.filter _ ((counter.trackStates track).map flipState) =
    ((counter.trackStates track).filter _).map flipState
  rw [Option.filter_map]
  rfl

/-- One call of `update`. -/
theorem mirror_update (counter : PeopleCounter) (frame : CounterFrame) :
    (mirror counter).update (reverseConfig config) frame =
      (mirror (counter.update config frame).1,
        (counter.update config frame).2.map swapUpdate) := by
  unfold PeopleCounter.update
  -- without a line both runs only count the frame
  cases hline : config.line with
  | none =>
    have hreverse : (reverseConfig config).line = none := by
      rw [reverseConfig, hline]
      rfl
    simp only [hreverse]
    rfl
  | some line =>
    have hreverse : (reverseConfig config).line = some (reverseLine line) := by
      rw [reverseConfig, hline]
      rfl
    have hpixel : pixelLine (reverseLine line) frame.shape =
        ((pixelLine line frame.shape).2, (pixelLine line frame.shape).1) := by
      unfold pixelLine
      show (if line.normalized then _ else _) = _
      split <;> rfl
    simp only [hreverse, hpixel]
    generalize pixelLine line frame.shape = ends
    -- and a line of one point raises in both
    by_cases hraises : ends.1 = ends.2 ∧ ∃ item ∈ frame.tracked, item.classId = 0
    · rw [if_pos hraises, if_pos ⟨hraises.1.symm, hraises.2⟩]
      rfl
    · rw [if_neg hraises, if_neg fun h => hraises ⟨h.1.symm, h.2⟩]
      have hbegin : { mirror counter with frameIndex := (mirror counter).frameIndex + 1 } =
          mirror { counter with frameIndex := counter.frameIndex + 1 } := rfl
      rw [hbegin, mirror_visitAll, mirror_cleanup]
      rfl

end

/-! ### Runs -/

/-- The counter after a sequence of calls, and their results. -/
def runUpdates (config : CounterConfig) :
    PeopleCounter → List CounterFrame → PeopleCounter × List (Option CountUpdate)
  | counter, [] => (counter, [])
  | counter, frame :: frames =>
    let (counter, result) := counter.update config frame
    let (counter, results) := runUpdates config counter frames
    (counter, result :: results)

/-- Two counters on opposite lines stay mirror images along any sequence of calls. -/
theorem mirror_run (config : CounterConfig) (counter : PeopleCounter)
    (frames : List CounterFrame) :
    runUpdates (reverseConfig config) (mirror counter) frames =
      (mirror (runUpdates config counter frames).1,
        (runUpdates config counter frames).2.map (Option.map swapUpdate)) := by
  induction frames generalizing counter with
  | nil => rfl
  | cons frame frames ih =>
    simp only [runUpdates, mirror_update, ih, List.map_cons]

/-- On the reversed line the same tracks have events in the same frames, with `IN` and `OUT`
exchanged, and at every step each count is the other one of the other counter. -/
theorem reversed_line (config : CounterConfig) (frames : List CounterFrame) :
    (runUpdates (reverseConfig config) .new frames).2 =
        (runUpdates config .new frames).2.map (Option.map swapUpdate) ∧
      (runUpdates (reverseConfig config) .new frames).1.countOut =
        (runUpdates config .new frames).1.countIn ∧
      (runUpdates (reverseConfig config) .new frames).1.countIn =
        (runUpdates config .new frames).1.countOut := by
  have hrun := mirror_run config .new frames
  have hnew : mirror .new = .new := rfl
  rw [hnew] at hrun
  rw [hrun]
  exact ⟨rfl, rfl, rfl⟩

end Rsap.Proofs
