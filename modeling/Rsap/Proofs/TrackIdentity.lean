import Mathlib.Data.List.Nodup
import Mathlib.Data.List.Range
import Rsap.Cv.Tracker
import Rsap.Library.Machine

/-!
# `Rsap.Proofs.TrackIdentity`: the identities of trackers

A frame updates the matched trackers in place, appends the new ones and keeps a part of the list.
`update_existing` and `update_created` say what stands at each index before the last step, so an
index never names the wrong tracker.

`trackMachine` runs any sequence of frames. Other `Sort` objects may take ids from the class
attribute in between. `seen` is a history: the frames in which a tracker was created or updated.
`Identity` relates the trackers to it: a tracker lives exactly as long as at most `max_age` frames
have passed since its last entry.
-/

set_option autoImplicit false

namespace Rsap.Proofs

open Rsap.Library
open Rsap.Library.Machine (Reachable Path Any)
open Rsap.Cv

/-! ### What the parameters promise -/

/-- `linear_sum_assignment` on a rectangular matrix: an injective pairing of as many rows and
columns as possible. -/
structure IsAssignment (assign : Assignment) : Prop where
  rows : ∀ costs, ((assign costs).map Prod.fst).Nodup
  columns : ∀ costs, ((assign costs).map Prod.snd).Nodup
  inRange : ∀ costs width, (∀ row ∈ costs, row.length = width) → ∀ pair ∈ assign costs,
    pair.1 < costs.length ∧ pair.2 < width
  size : ∀ costs width, costs ≠ [] → (∀ row ∈ costs, row.length = width) →
    (assign costs).length = min costs.length width

/-- The results of the Kalman arithmetic are finite. -/
def Kalman.Finite {σ : Type} (kalman : Kalman σ) : Prop :=
  ∀ x, (kalman.stateToBBox x).rect.isSome

section Frames
variable {σ : Type} {config : SortConfig} {kalman : Kalman σ} {assign : Assignment}
  {detections : List Detection}

/-! ### Association -/

/-- The association pairs each detection and each tracker at most once, and leaves each other
detection over once. -/
structure Paired (threshold : Rat) (rects trackers : List Rect) (frame : Association) :
    Prop where
  rows : (frame.matched.map Prod.fst).Nodup
  columns : (frame.matched.map Prod.snd).Nodup
  row_lt : ∀ pair ∈ frame.matched, pair.1 < rects.length
  column_lt : ∀ pair ∈ frame.matched, pair.2 < trackers.length
  overlap : ∀ pair ∈ frame.matched, ∃ d t, rects[pair.1]? = some d ∧ trackers[pair.2]? = some t ∧
    threshold ≤ iou d t
  left : frame.unmatchedDetections =
    (List.range rects.length).filter fun d => d ∉ frame.matched.map Prod.fst

/-- The association pairs or leaves over each detection once, since an assignment is injective. -/
theorem associate_paired (hassign : IsAssignment assign) (threshold : Rat)
    (rects trackers : List Rect) :
    Paired threshold rects trackers (associate assign threshold rects trackers) := by
  unfold associate
  split
  -- without detections or trackers there is no pair
  · refine ⟨List.nodup_nil, List.nodup_nil, ?_, ?_, ?_, ?_⟩
    · intro pair hpair
      cases hpair
    · intro pair hpair
      cases hpair
    · intro pair hpair
      cases hpair
    · simp
  · -- the matrix of costs is rectangular
    -- the assignment picks each row and each column at most once, and the filter keeps some of
    -- them
    let costs := (rects.map fun d => trackers.map fun t => iou d t).map
      fun row => row.map fun x => -x
    have hwidth : ∀ row ∈ costs, row.length = trackers.length := by
      simp [costs]
    have hheight : costs.length = rects.length := by
      simp [costs]
    have hrange := hassign.inRange costs trackers.length hwidth
    refine ⟨?_, ?_, ?_, ?_, ?_, rfl⟩
    · exact (hassign.rows costs).sublist (List.filter_sublist.map _)
    · exact (hassign.columns costs).sublist (List.filter_sublist.map _)
    · intro pair hpair
      rw [← hheight]
      exact (hrange pair (List.mem_filter.mp hpair).1).1
    · intro pair hpair
      exact (hrange pair (List.mem_filter.mp hpair).1).2
    · intro pair hpair
      obtain ⟨hmem, hkept⟩ := List.mem_filter.mp hpair
      obtain ⟨hrow, hcolumn⟩ := hrange pair hmem
      rw [hheight] at hrow
      refine ⟨rects[pair.1], trackers[pair.2], List.getElem?_eq_getElem hrow,
        List.getElem?_eq_getElem hcolumn, ?_⟩
      simpa [entry, hrow, hcolumn] using hkept

/-! ### The trackers of a frame -/

/-- The ids of a list of trackers. -/
abbrev ids (trackers : List (KalmanBoxTracker σ)) : List Nat := trackers.map KalmanBoxTracker.id

/-- With finite results no prediction is dropped. -/
theorem predicted_fst (hfinite : Kalman.Finite kalman) (trackers : List (KalmanBoxTracker σ)) :
    (SortTracker.predicted kalman trackers).map Prod.fst =
      trackers.map (KalmanBoxTracker.predict kalman) := by
  induction trackers with
  | nil => rfl
  | cons t trackers ih =>
    obtain ⟨rect, hrect⟩ := Option.isSome_iff_exists.mp (hfinite (t.predict kalman).x)
    have hstate : ((t.predict kalman).getState kalman).rect = some rect := hrect
    simp only [SortTracker.predicted, List.filterMap_cons, hstate, Option.map_some,
      List.map_cons]
    exact congrArg _ ih

/-- The predicted trackers are the old ones, in their order. -/
theorem predicted_ids (kalman : Kalman σ) (trackers : List (KalmanBoxTracker σ)) :
    (ids ((SortTracker.predicted kalman trackers).map Prod.fst)).Sublist (ids trackers) := by
  induction trackers with
  | nil => exact List.Sublist.refl _
  | cons t trackers ih =>
    simp only [SortTracker.predicted, List.filterMap_cons]
    cases ((t.predict kalman).getState kalman).rect with
    | none => exact ih.cons _
    | some rect => exact ih.cons_cons _

/-- The matched trackers are updated one after the other. -/
theorem updateMatched_cons (first : Nat × Nat) (matched : List (Nat × Nat))
    (trackers : List (KalmanBoxTracker σ)) :
    SortTracker.updateMatched kalman detections (first :: matched) trackers =
      SortTracker.updateMatched kalman detections matched
        (match detections[first.1]? with
          | some d => trackers.modify first.2 (KalmanBoxTracker.update kalman d)
          | none => trackers) := rfl

variable (kalman detections) in
/-- The updates keep the ids. -/
theorem updateMatched_ids (matched : List (Nat × Nat)) (trackers : List (KalmanBoxTracker σ)) :
    ids (SortTracker.updateMatched kalman detections matched trackers) = ids trackers := by
  induction matched generalizing trackers with
  | nil => rfl
  | cons pair matched ih =>
    rw [updateMatched_cons, ih]
    cases detections[pair.1]? with
    | none => rfl
    | some d =>
      refine List.ext_getElem? fun i => ?_
      simp only [List.getElem?_map, List.getElem?_modify]
      cases trackers[i]? with
      | none => rfl
      | some t => by_cases heq : pair.2 = i <;> simp [heq, KalmanBoxTracker.update]

variable (kalman detections) in
/-- What the updates leave at an index: the tracker updated by its detection, or the tracker as
it was. -/
theorem updateMatched_getElem {matched : List (Nat × Nat)}
    (hcolumns : (matched.map Prod.snd).Nodup) (trackers : List (KalmanBoxTracker σ)) (i : Nat) :
    (∃ pair ∈ matched, ∃ d, pair.2 = i ∧ detections[pair.1]? = some d ∧
      (SortTracker.updateMatched kalman detections matched trackers)[i]? =
        (trackers[i]?).map (KalmanBoxTracker.update kalman d)) ∨
    (∀ pair ∈ matched, pair.2 = i → detections[pair.1]? = none) ∧
      (SortTracker.updateMatched kalman detections matched trackers)[i]? = trackers[i]? := by
  -- induction on the pairs: each column occurs once, so at most one pair updates the tracker
  induction matched generalizing trackers with
  | nil => exact .inr ⟨fun _ hpair => absurd hpair List.not_mem_nil, rfl⟩
  | cons first matched ih =>
    obtain ⟨hfirst, hrest⟩ := List.nodup_cons.mp hcolumns
    rw [updateMatched_cons]
    rcases ih hrest (match detections[first.1]? with
        | some d => trackers.modify first.2 (KalmanBoxTracker.update kalman d)
        | none => trackers) with
      ⟨pair, hpair, d, hcolumn, hd, heq⟩ | ⟨hnone, heq⟩
    · refine .inl ⟨pair, List.mem_cons_of_mem _ hpair, d, hcolumn, hd, ?_⟩
      have hne : first.2 ≠ i := by
        intro h
        exact hfirst (List.mem_map.mpr ⟨pair, hpair, hcolumn.trans h.symm⟩)
      rw [heq]
      cases detections[first.1]? with
      | none => rfl
      | some d' => simp [hne]
    -- no later pair updates it, so the first one does, or none
    · rw [heq]
      by_cases hi : first.2 = i
      · cases hd : detections[first.1]? with
        | none =>
          refine .inr ⟨fun pair hpair hcolumn => ?_, rfl⟩
          rcases List.mem_cons.mp hpair with rfl | hmem
          · exact hd
          · exact hnone pair hmem hcolumn
        | some d =>
          refine .inl ⟨first, List.mem_cons_self, d, hi, hd, ?_⟩
          simp [hi]
      · refine .inr ⟨fun pair hpair hcolumn => ?_, ?_⟩
        · rcases List.mem_cons.mp hpair with rfl | hmem
          · exact absurd hcolumn hi
          · exact hnone pair hmem hcolumn
        · cases detections[first.1]? with
          | none => rfl
          | some d' => simp [hi]

/-- The new trackers, one for each detection that is left, with consecutive ids. -/
theorem created_getElem {unmatched : List Nat}
    (hrange : ∀ index ∈ unmatched, index < detections.length) (nextId j : Nat) :
    (SortTracker.created kalman detections unmatched nextId)[j]? =
      (unmatched[j]?).bind fun index => (detections[index]?).map fun d =>
        KalmanBoxTracker.new kalman d (nextId + j) := by
  induction unmatched generalizing nextId j with
  | nil => simp [SortTracker.created]
  | cons index unmatched ih =>
    have hlt := hrange index List.mem_cons_self
    have hd : detections[index]? = some detections[index] := List.getElem?_eq_getElem hlt
    simp only [SortTracker.created, hd]
    cases j with
    | zero => simp [hd]
    | succ j =>
      rw [List.getElem?_cons_succ, List.getElem?_cons_succ,
        ih (fun index hindex => hrange index (List.mem_cons_of_mem _ hindex))]
      have hid : nextId + 1 + j = nextId + (j + 1) := by omega
      rw [hid]

/-- The new trackers get the next ids in their order. -/
theorem created_ids {unmatched : List Nat}
    (hrange : ∀ index ∈ unmatched, index < detections.length) (nextId : Nat) :
    ids (SortTracker.created kalman detections unmatched nextId) =
      List.range' nextId unmatched.length := by
  induction unmatched generalizing nextId with
  | nil => rfl
  | cons index unmatched ih =>
    have hlt := hrange index List.mem_cons_self
    have hrest := ih (fun index hindex => hrange index (List.mem_cons_of_mem _ hindex))
      (nextId + 1)
    simp only [SortTracker.created, List.getElem?_eq_getElem hlt, List.map_cons,
      List.length_cons, List.range'_succ]
    exact congrArg (List.cons nextId) hrest

/-- The predicted boxes stand at the indices of their trackers. -/
theorem predicted_snd (hfinite : Kalman.Finite kalman) {trackers : List (KalmanBoxTracker σ)}
    {i : Nat} {t : KalmanBoxTracker σ} (h : trackers[i]? = some t) :
    ∃ rect, ((t.predict kalman).getState kalman).rect = some rect ∧
      ((SortTracker.predicted kalman trackers).map Prod.snd)[i]? = some rect := by
  induction trackers generalizing i with
  | nil => cases h
  | cons first trackers ih =>
    obtain ⟨rect, hrect⟩ := Option.isSome_iff_exists.mp (hfinite (first.predict kalman).x)
    have hstate : ((first.predict kalman).getState kalman).rect = some rect := hrect
    simp only [SortTracker.predicted, List.filterMap_cons, hstate, Option.map_some,
      List.map_cons]
    cases i with
    | zero =>
      cases h
      exact ⟨rect, hstate, rfl⟩
    | succ i => exact ih h

/-! ### One frame -/

variable {sort : SortTracker σ} {nextId : Nat}

/-- Finite predictions drop no tracker. -/
theorem predicted_length (hfinite : Kalman.Finite kalman)
    (trackers : List (KalmanBoxTracker σ)) :
    (SortTracker.predicted kalman trackers).length = trackers.length := by
  have h := congrArg List.length (predicted_fst hfinite trackers)
  simpa using h

variable (kalman detections) in
/-- Updates neither add nor drop a tracker. -/
theorem updateMatched_length (matched : List (Nat × Nat))
    (trackers : List (KalmanBoxTracker σ)) :
    (SortTracker.updateMatched kalman detections matched trackers).length = trackers.length := by
  have h := congrArg List.length
    (updateMatched_ids kalman detections matched trackers)
  simpa using h

variable (config kalman detections sort) in
/-- The association of a frame pairs the detections with the predicted boxes. -/
theorem association_paired (hassign : IsAssignment assign) :
    Paired config.iouThreshold (detections.map fun d => d.bbox.toRect)
      ((SortTracker.predicted kalman sort.trackers).map Prod.snd)
      (sort.association config kalman assign detections) :=
  associate_paired hassign _ _ _

/-- A detection that is left over is one of the frame. -/
theorem unmatched_lt (hassign : IsAssignment assign) {k : Nat}
    (h : k ∈ (sort.association config kalman assign detections).unmatchedDetections) :
    k < detections.length := by
  rw [(association_paired _ _ _ _ hassign).left] at h
  simpa using (List.mem_filter.mp h).1

variable (config detections nextId) in
/-- An index of an old tracker is its index after the frame. -/
theorem advance_old (hassign : IsAssignment assign) (hfinite : Kalman.Finite kalman) {i : Nat}
    {t : KalmanBoxTracker σ} (h : sort.trackers[i]? = some t) :
    (∃ pair ∈ (sort.association config kalman assign detections).matched, ∃ d,
      pair.2 = i ∧ detections[pair.1]? = some d ∧
      (sort.advance config kalman assign nextId detections)[i]? =
        some ((t.predict kalman).update kalman d)) ∨
    (∀ pair ∈ (sort.association config kalman assign detections).matched, pair.2 ≠ i) ∧
      (sort.advance config kalman assign nextId detections)[i]? = some (t.predict kalman) := by
  have hpaired := association_paired config kalman detections sort hassign
  have hlt : i < (SortTracker.updateMatched kalman detections
      (sort.association config kalman assign detections).matched
      ((SortTracker.predicted kalman sort.trackers).map Prod.fst)).length := by
    rw [updateMatched_length, List.length_map, predicted_length hfinite]
    exact (List.getElem?_eq_some_iff.mp h).1
  have hpredicted : ((SortTracker.predicted kalman sort.trackers).map Prod.fst)[i]? =
      some (t.predict kalman) := by
    rw [predicted_fst hfinite, List.getElem?_map, h]
    rfl
  rw [SortTracker.advance, List.getElem?_append_left hlt]
  rcases updateMatched_getElem kalman detections hpaired.columns
      ((SortTracker.predicted kalman sort.trackers).map Prod.fst) i with
    ⟨pair, hpair, d, hcolumn, hd, heq⟩ | ⟨hnone, heq⟩
  · refine .inl ⟨pair, hpair, d, hcolumn, hd, ?_⟩
    rw [heq, hpredicted]
    rfl
  · refine .inr ⟨fun pair hpair hcolumn => ?_, heq.trans hpredicted⟩
    -- a matched detection is one of the frame
    have hrow := hpaired.row_lt pair hpair
    rw [List.length_map] at hrow
    have := hnone pair hpair hcolumn
    rw [List.getElem?_eq_getElem hrow] at this
    cases this

variable (config detections nextId) in
/-- After the old trackers stand the new ones. -/
theorem advance_new (hassign : IsAssignment assign) (hfinite : Kalman.Finite kalman) {j k : Nat}
    (h : (sort.association config kalman assign detections).unmatchedDetections[j]? = some k) :
    ∃ d, detections[k]? = some d ∧
      (sort.advance config kalman assign nextId detections)[sort.trackers.length + j]? =
        some (.new kalman d (nextId + j)) := by
  have hlength : (SortTracker.updateMatched kalman detections
      (sort.association config kalman assign detections).matched
      ((SortTracker.predicted kalman sort.trackers).map Prod.fst)).length =
      sort.trackers.length := by
    rw [updateMatched_length, List.length_map, predicted_length hfinite]
  have hk : k < detections.length := unmatched_lt hassign (List.mem_of_getElem? h)
  have hd : detections[k]? = some detections[k] := List.getElem?_eq_getElem hk
  refine ⟨detections[k], hd, ?_⟩
  rw [SortTracker.advance, List.getElem?_append_right (by omega), hlength,
    Nat.add_sub_cancel_left,
    created_getElem (fun index hindex => unmatched_lt hassign hindex), h]
  simp [hd]

variable (config detections sort nextId) in
/-- The ids of the trackers before the survivors are chosen. -/
theorem advance_ids (hassign : IsAssignment assign) (hfinite : Kalman.Finite kalman) :
    ids (sort.advance config kalman assign nextId detections) = ids sort.trackers ++
      List.range' nextId
        (sort.association config kalman assign detections).unmatchedDetections.length := by
  show ids (_ ++ _) = _
  rw [ids, List.map_append, ← ids, ← ids, updateMatched_ids, predicted_fst hfinite,
    created_ids fun index hindex => unmatched_lt hassign hindex, ids, List.map_map]
  rfl

variable (config detections sort nextId) in
/-- The trackers before the survivors are chosen are the old ones and one for each detection left
over. -/
theorem advance_length (hassign : IsAssignment assign) (hfinite : Kalman.Finite kalman) :
    (sort.advance config kalman assign nextId detections).length = sort.trackers.length +
      (sort.association config kalman assign detections).unmatchedDetections.length := by
  have h := congrArg List.length (advance_ids config detections sort nextId hassign hfinite)
  simpa using h

/-! ### The report -/

/-- A reported object is that of its tracker. -/
theorem trackedObject_some {t : KalmanBoxTracker σ} {object : TrackedObject}
    (h : SortTracker.trackedObject kalman t = .ok (some object)) :
    object.trackId = t.id ∧ object.classId = t.metadata.classId ∧
      object.className = t.metadata.className ∧ object.confidence = t.metadata.confidence := by
  simp only [SortTracker.trackedObject] at h
  split at h
  · cases h
  · split at h
    · cases h
    · split at h
      · split at h <;> cases h
        exact ⟨rfl, rfl, rfl, rfl⟩
      · cases h

/-- The reported objects belong to reportable trackers, in the order of the list. -/
theorem report_mem {frameCount : Nat} {trackers : List (KalmanBoxTracker σ)}
    {objects : List TrackedObject}
    (h : SortTracker.report config kalman frameCount trackers = .ok objects) :
    (objects.map TrackedObject.trackId).Sublist (ids trackers) ∧
      ∀ object ∈ objects, ∃ t ∈ trackers, t.timeSinceUpdate = 0 ∧
        SortTracker.trackedObject kalman t = .ok (some object) := by
  -- a tracker is reported in its place or passed over, so the ids keep their order
  induction trackers generalizing objects with
  | nil =>
    cases h
    exact ⟨List.Sublist.refl _, fun _ hobject => absurd hobject List.not_mem_nil⟩
  | cons t trackers ih =>
    simp only [SortTracker.report] at h
    split at h
    · rename_i hreport
      have hzero : t.timeSinceUpdate = 0 := (of_decide_eq_true hreport).1
      split at h
      · cases h
      · rename_i object hobject
        cases hrest : SortTracker.report config kalman frameCount trackers with
        | error e =>
          rw [hrest] at h
          cases h
        | ok rest =>
          rw [hrest] at h
          cases h
          obtain ⟨hsublist, hmem⟩ := ih hrest
          cases object with
          | none =>
            refine ⟨hsublist.cons _, fun o ho => ?_⟩
            obtain ⟨t', ht', hrest⟩ := hmem o ho
            exact ⟨t', List.mem_cons_of_mem _ ht', hrest⟩
          | some object =>
            refine ⟨?_, fun o ho => ?_⟩
            · show (object.trackId :: rest.map TrackedObject.trackId).Sublist (t.id :: ids trackers)
              rw [(trackedObject_some hobject).1]
              exact hsublist.cons_cons _
            · rcases List.mem_cons.mp ho with rfl | ho
              · exact ⟨t, List.mem_cons_self, hzero, hobject⟩
              · obtain ⟨t', ht', hrest⟩ := hmem o ho
                exact ⟨t', List.mem_cons_of_mem _ ht', hrest⟩
    · obtain ⟨hsublist, hmem⟩ := ih h
      refine ⟨hsublist.cons _, fun o ho => ?_⟩
      obtain ⟨t', ht', hrest⟩ := hmem o ho
      exact ⟨t', List.mem_cons_of_mem _ ht', hrest⟩

/-- With finite results the box of a tracker is valid or has no area. -/
theorem trackedObject_ok (hfinite : Kalman.Finite kalman) (t : KalmanBoxTracker σ) :
    ∃ object, SortTracker.trackedObject kalman t = .ok object := by
  obtain ⟨rect, hrect⟩ := Option.isSome_iff_exists.mp (hfinite t.x)
  have hstate : t.getState kalman =
      ⟨.finite rect.x1, .finite rect.y1, .finite rect.x2, .finite rect.y2⟩ := by
    show kalman.stateToBBox t.x = _
    generalize kalman.stateToBBox t.x = box at hrect
    obtain ⟨x1, y1, x2, y2⟩ := box
    cases x1 <;> cases y1 <;> cases x2 <;> cases y2 <;> cases hrect
    rfl
  simp only [SortTracker.trackedObject, hstate, Coordinate.clamp, FloatBox.rect, Coordinate.le]
  split
  · exact ⟨_, rfl⟩
  · rename_i harea
    simp only [Bool.or_eq_true, decide_eq_true_eq, not_or, not_le] at harea
    rw [dif_pos ⟨le_max_left _ _, le_max_left _ _⟩, dif_pos harea]
    exact ⟨_, rfl⟩

variable (config) in
/-- Finite states give finite boxes, so the report does not raise. -/
theorem report_ok (hfinite : Kalman.Finite kalman) (frameCount : Nat)
    (trackers : List (KalmanBoxTracker σ)) :
    ∃ objects, SortTracker.report config kalman frameCount trackers = .ok objects := by
  induction trackers with
  | nil => exact ⟨[], rfl⟩
  | cons t trackers ih =>
    obtain ⟨objects, hobjects⟩ := ih
    obtain ⟨object, hobject⟩ := trackedObject_ok hfinite t
    simp only [SortTracker.report, hobject, hobjects]
    split
    · exact ⟨_, rfl⟩
    · exact ⟨_, rfl⟩

end Frames

/-! ### Runs -/

section Runs
variable {σ : Type}

/-- A `Sort` with the class attribute `_next_id`, and the frames in which a tracker was created or
updated, the latest first. -/
structure TrackRun (σ : Type) where
  sort : SortTracker σ
  nextId : Nat
  seen : List (Nat × Nat)
  deriving DecidableEq

/-- A call of `update_objects`, or other trackers that are created in the process. -/
inductive TrackAct where
  | update (detections : List Detection)
  | others (count : Nat)
  deriving DecidableEq

variable (config : SortConfig) (kalman : Kalman σ) (assign : Assignment)

/-- The ids of the trackers that a frame updates or creates. -/
def touched (sort : SortTracker σ) (nextId : Nat) (detections : List Detection) : List Nat :=
  let frame := sort.association config kalman assign detections
  (frame.matched.filterMap fun pair => (sort.trackers[pair.2]?).map KalmanBoxTracker.id) ++
    List.range' nextId frame.unmatchedDetections.length

def trackStep (run : TrackRun σ) : TrackAct → Option (TrackRun σ)
  | .update detections =>
    let (sort, nextId, _) := run.sort.update config kalman assign run.nextId detections
    some
      { sort := sort
        nextId := nextId
        seen := (touched config kalman assign run.sort run.nextId detections).map
          (fun id => (id, sort.frameCount)) ++ run.seen }
  | .others count => some { run with nextId := run.nextId + count }

def trackMachine : Machine (TrackRun σ) TrackAct where
  init := ⟨SortTracker.empty, 1, []⟩
  step := trackStep config kalman assign

variable {config kalman assign}

/-- The trackers against the history. -/
structure Identity (config : SortConfig) (run : TrackRun σ) : Prop where
  increasing : (ids run.sort.trackers).Pairwise (· < ·)
  fresh : ∀ id ∈ ids run.sort.trackers, id < run.nextId
  past : ∀ entry ∈ run.seen, entry.1 < run.nextId
  current : ∀ t ∈ run.sort.trackers, ∃ frame, run.seen.lookup t.id = some frame ∧
    t.timeSinceUpdate + frame = run.sort.frameCount
  alive : ∀ id frame, run.seen.lookup id = some frame →
    (id ∈ ids run.sort.trackers ↔ run.sort.frameCount ≤ frame + config.maxAge)

/-- There is no tracker in the beginning. -/
theorem identity_init : Identity config (trackMachine config kalman assign).init where
  increasing := List.Pairwise.nil
  fresh := by simp [trackMachine, SortTracker.empty]
  past := by simp [trackMachine]
  current := by simp [trackMachine, SortTracker.empty]
  alive := by simp [trackMachine]

/-- The entry of an id after the entries of a frame. -/
theorem lookup_touched (now : Nat) (touched : List Nat) (seen : List (Nat × Nat)) (id : Nat) :
    (touched.map (fun id => (id, now)) ++ seen).lookup id =
      if id ∈ touched then some now else seen.lookup id := by
  induction touched with
  | nil => rfl
  | cons first touched ih =>
    rw [List.map_cons, List.cons_append, List.lookup_cons]
    by_cases heq : id = first
    · simp [heq]
    · rw [beq_false_of_ne heq, ih]
      simp [heq]

variable {sort : SortTracker σ} {nextId : Nat} {detections : List Detection}

/-- The ids of a frame are below the next one after it. -/
theorem touched_lt (hfresh : ∀ id ∈ ids sort.trackers, id < nextId) {id : Nat}
    (h : id ∈ touched config kalman assign sort nextId detections) :
    id < nextId +
      (sort.association config kalman assign detections).unmatchedDetections.length := by
  rcases List.mem_append.mp h with hmem | hmem
  · obtain ⟨pair, -, hid⟩ := List.mem_filterMap.mp hmem
    obtain ⟨t, ht, rfl⟩ := Option.map_eq_some_iff.mp hid
    have := hfresh t.id (List.mem_map_of_mem (List.mem_of_getElem? ht))
    omega
  · have := List.mem_range'_1.mp hmem
    omega

variable (config kalman assign detections) in
/-- A tracker at an index is touched when its index is matched, and only then. -/
theorem mem_touched (hincreasing : (ids sort.trackers).Pairwise (· < ·))
    (hfresh : ∀ id ∈ ids sort.trackers, id < nextId) {i : Nat} {t : KalmanBoxTracker σ}
    (h : sort.trackers[i]? = some t) :
    t.id ∈ touched config kalman assign sort nextId detections ↔
      ∃ pair ∈ (sort.association config kalman assign detections).matched, pair.2 = i := by
  have hnodup : (ids sort.trackers).Nodup := hincreasing.imp Nat.ne_of_lt
  refine ⟨fun hmem => ?_, ?_⟩
  · rcases List.mem_append.mp hmem with hmem | hmem
    · obtain ⟨pair, hpair, hid⟩ := List.mem_filterMap.mp hmem
      obtain ⟨t', ht', heq⟩ := Option.map_eq_some_iff.mp hid
      refine ⟨pair, hpair, ?_⟩
      -- two indices with one id are one index
      have hi : (ids sort.trackers)[i]? = some t.id := by simp [ids, h]
      have hj : (ids sort.trackers)[pair.2]? = some t.id := by simp [ids, ht', heq]
      have hlt := (List.getElem?_eq_some_iff.mp hj).1
      exact List.getElem?_inj hlt hnodup |>.mp (hj.trans hi.symm)
    · have := List.mem_range'_1.mp hmem
      have := hfresh t.id (List.mem_map_of_mem (List.mem_of_getElem? h))
      omega
  · rintro ⟨pair, hpair, rfl⟩
    exact List.mem_append_left _ (List.mem_filterMap.mpr ⟨pair, hpair, by simp [h]⟩)

/-- A tracker of the frame is touched and counts from zero, or is an old one that missed the
frame. -/
theorem advance_mem (hassign : IsAssignment assign) (hfinite : Kalman.Finite kalman)
    (hincreasing : (ids sort.trackers).Pairwise (· < ·))
    (hfresh : ∀ id ∈ ids sort.trackers, id < nextId) {t' : KalmanBoxTracker σ}
    (h : t' ∈ sort.advance config kalman assign nextId detections) :
    (t'.id ∈ touched config kalman assign sort nextId detections ∧ t'.timeSinceUpdate = 0) ∨
    t'.id ∉ touched config kalman assign sort nextId detections ∧
      ∃ t ∈ sort.trackers, t' = t.predict kalman := by
  obtain ⟨i, hi⟩ := List.mem_iff_getElem?.mp h
  have hlt := (List.getElem?_eq_some_iff.mp hi).1
  rw [advance_length _ _ _ _ hassign hfinite] at hlt
  -- the old trackers come first, and then the new ones
  by_cases hold : i < sort.trackers.length
  · have ht : sort.trackers[i]? = some sort.trackers[i] := List.getElem?_eq_getElem hold
    have hmem := mem_touched config kalman assign detections hincreasing hfresh ht
    rcases advance_old config detections nextId
        hassign hfinite ht with ⟨pair, hpair, d, hcolumn, -, heq⟩ | ⟨hnone, heq⟩
    · rw [hi] at heq
      cases heq
      exact .inl ⟨hmem.mpr ⟨pair, hpair, hcolumn⟩, rfl⟩
    · rw [hi] at heq
      cases heq
      refine .inr ⟨fun htouched => ?_, sort.trackers[i], List.getElem_mem hold, rfl⟩
      obtain ⟨pair, hpair, hcolumn⟩ := hmem.mp htouched
      exact hnone pair hpair hcolumn
  · obtain ⟨j, rfl⟩ : ∃ j, i = sort.trackers.length + j :=
      ⟨i - sort.trackers.length, by omega⟩
    have hj : j < (sort.association config kalman assign
      detections).unmatchedDetections.length := by omega
    obtain ⟨d, -, heq⟩ := advance_new config detections nextId hassign hfinite
      (List.getElem?_eq_getElem hj)
    rw [hi] at heq
    cases heq
    refine .inl ⟨List.mem_append_right _ (List.mem_range'_1.mpr ?_), rfl⟩
    show nextId ≤ nextId + j ∧ nextId + j < nextId + _
    omega

/-- A tracker that is not touched stays, one frame older. -/
theorem advance_missed (hassign : IsAssignment assign) (hfinite : Kalman.Finite kalman)
    (hincreasing : (ids sort.trackers).Pairwise (· < ·))
    (hfresh : ∀ id ∈ ids sort.trackers, id < nextId) {t : KalmanBoxTracker σ}
    (h : t ∈ sort.trackers)
    (hmissed : t.id ∉ touched config kalman assign sort nextId detections) :
    t.predict kalman ∈ sort.advance config kalman assign nextId detections := by
  obtain ⟨i, hi⟩ := List.mem_iff_getElem?.mp h
  rcases advance_old config detections nextId
      hassign hfinite hi with ⟨pair, hpair, d, hcolumn, -, -⟩ | ⟨-, heq⟩
  · exact absurd ((mem_touched _ _ _ _ hincreasing hfresh hi).mpr ⟨pair, hpair, hcolumn⟩) hmissed
  · exact List.mem_of_getElem? heq

/-- The ids that a frame touches are ids of its trackers. -/
theorem touched_advance (hassign : IsAssignment assign) (hfinite : Kalman.Finite kalman)
    {id : Nat} (h : id ∈ touched config kalman assign sort nextId detections) :
    id ∈ ids (sort.advance config kalman assign nextId detections) := by
  rw [advance_ids _ _ _ _ hassign hfinite]
  rcases List.mem_append.mp h with hmem | hmem
  · obtain ⟨pair, -, hid⟩ := List.mem_filterMap.mp hmem
    obtain ⟨t, ht, rfl⟩ := Option.map_eq_some_iff.mp hid
    exact List.mem_append_left _ (List.mem_map_of_mem (List.mem_of_getElem? ht))
  · exact List.mem_append_right _ hmem

variable (config assign sort nextId detections) in
/-- With finite results a frame keeps the trackers that were not missed too often. -/
theorem update_trackers (hfinite : Kalman.Finite kalman) :
    ∃ objects, SortTracker.report config kalman (sort.frameCount + 1)
        (sort.advance config kalman assign nextId detections) = .ok objects ∧
      sort.update config kalman assign nextId detections =
        (⟨(sort.advance config kalman assign nextId detections).filter fun t =>
            t.timeSinceUpdate ≤ config.maxAge, sort.frameCount + 1⟩,
          nextId + (sort.association config kalman assign detections).unmatchedDetections.length,
          .ok objects) := by
  obtain ⟨objects, hobjects⟩ := report_ok config hfinite (sort.frameCount + 1)
    (sort.advance config kalman assign nextId detections)
  refine ⟨objects, hobjects, ?_⟩
  simp only [SortTracker.update, hobjects]

/-- A frame keeps `Identity`. -/
theorem identity_update (hassign : IsAssignment assign) (hfinite : Kalman.Finite kalman)
    {run run' : TrackRun σ} {detections : List Detection} (hinv : Identity config run)
    (hstep : trackStep config kalman assign run (.update detections) = some run') :
    Identity config run' := by
  obtain ⟨sort, nextId, seen⟩ := run
  obtain ⟨objects, -, hupdate⟩ := update_trackers config assign sort nextId detections hfinite
  simp only [trackStep, hupdate, Option.some.injEq] at hstep
  subst hstep
  have hincreasing : (ids sort.trackers).Pairwise (· < ·) := hinv.increasing
  have hfresh : ∀ id ∈ ids sort.trackers, id < nextId := hinv.fresh
  have hids := advance_ids config detections sort nextId hassign hfinite
  have hsublist : (ids ((sort.advance config kalman assign nextId detections).filter fun t =>
      t.timeSinceUpdate ≤ config.maxAge)).Sublist
      (ids (sort.advance config kalman assign nextId detections)) :=
    List.filter_sublist.map _
  constructor
  case increasing =>
    refine List.Pairwise.sublist hsublist ?_
    rw [hids]
    refine List.pairwise_append.mpr ⟨hincreasing, List.pairwise_lt_range', ?_⟩
    intro old hold new hnew
    have := hfresh old hold
    have := List.mem_range'_1.mp hnew
    omega
  case fresh =>
    intro id hid
    have hmem := hsublist.subset hid
    rw [hids] at hmem
    show id < nextId + _
    rcases List.mem_append.mp hmem with hold | hnew
    · have := hfresh id hold
      omega
    · have := List.mem_range'_1.mp hnew
      omega
  case past =>
    intro entry hentry
    show entry.1 < nextId + _
    rcases List.mem_append.mp hentry with hnew | hold
    · obtain ⟨id, hid, rfl⟩ := List.mem_map.mp hnew
      exact touched_lt hfresh hid
    · have : entry.1 < nextId := hinv.past entry hold
      omega
  case current =>
    intro t' ht'
    rw [lookup_touched]
    rcases advance_mem hassign hfinite hincreasing hfresh (List.mem_of_mem_filter ht') with
      ⟨htouched, hzero⟩ | ⟨hmissed, t, ht, rfl⟩
    · refine ⟨sort.frameCount + 1, if_pos htouched, ?_⟩
      show t'.timeSinceUpdate + (sort.frameCount + 1) = sort.frameCount + 1
      omega
    · obtain ⟨frame, hframe, hcount⟩ := hinv.current t ht
      refine ⟨frame, (if_neg hmissed).trans hframe, ?_⟩
      show t.timeSinceUpdate + 1 + frame = sort.frameCount + 1
      have : t.timeSinceUpdate + frame = sort.frameCount := hcount
      omega
  case alive =>
    intro id frame hlookup
    rw [lookup_touched] at hlookup
    show _ ↔ sort.frameCount + 1 ≤ frame + config.maxAge
    by_cases htouched : id ∈ touched config kalman assign sort nextId detections
    · rw [if_pos htouched] at hlookup
      cases hlookup
      refine ⟨fun _ => Nat.le_add_right _ _, fun _ => ?_⟩
      obtain ⟨t', ht', rfl⟩ := List.mem_map.mp (touched_advance hassign hfinite htouched)
      refine List.mem_map_of_mem (List.mem_filter.mpr ⟨ht', ?_⟩)
      rcases advance_mem hassign hfinite hincreasing hfresh ht' with ⟨-, hzero⟩ | ⟨hmissed, -⟩
      · simp [hzero]
      · exact absurd htouched hmissed
    · rw [if_neg htouched] at hlookup
      have halive : id ∈ ids sort.trackers ↔ sort.frameCount ≤ frame + config.maxAge :=
        hinv.alive id frame hlookup
      -- an old tracker of this id counts the frames since its entry
      have hcount : ∀ t ∈ sort.trackers, t.id = id →
          t.timeSinceUpdate + frame = sort.frameCount := by
        intro t ht hid
        obtain ⟨frame', hframe', hcount⟩ := hinv.current t ht
        rw [hid] at hframe'
        cases hlookup.symm.trans hframe'
        exact hcount
      constructor
      · intro hmem
        obtain ⟨t', ht', rfl⟩ := List.mem_map.mp hmem
        obtain ⟨ht', hage⟩ := List.mem_filter.mp ht'
        rcases advance_mem hassign hfinite hincreasing hfresh ht' with
          ⟨hmem, -⟩ | ⟨-, t, ht, rfl⟩
        · exact absurd hmem htouched
        · have : t.timeSinceUpdate + 1 ≤ config.maxAge := of_decide_eq_true hage
          have := hcount t ht rfl
          omega
      · intro hle
        obtain ⟨t, ht, rfl⟩ := List.mem_map.mp (halive.mpr (by omega))
        refine List.mem_map.mpr ⟨t.predict kalman, List.mem_filter.mpr
          ⟨advance_missed hassign hfinite hincreasing hfresh ht htouched, ?_⟩, rfl⟩
        show decide (t.timeSinceUpdate + 1 ≤ config.maxAge) = true
        have := hcount t ht rfl
        exact decide_eq_true (by omega)

/-- Other trackers take ids and keep `Identity`. -/
theorem identity_others {run run' : TrackRun σ} {count : Nat} (hinv : Identity config run)
    (hstep : some { run with nextId := run.nextId + count } = some run') :
    Identity config run' := by
  cases hstep
  exact
    { increasing := hinv.increasing
      fresh := fun id hid => (hinv.fresh id hid).trans_le (Nat.le_add_right _ _)
      past := fun entry hentry => (hinv.past entry hentry).trans_le (Nat.le_add_right _ _)
      current := hinv.current
      alive := hinv.alive }

/-- The trackers agree with the history in every reachable state. -/
theorem reachable_identity (hassign : IsAssignment assign) (hfinite : Kalman.Finite kalman)
    {run : TrackRun σ} (h : Reachable (trackMachine config kalman assign) Any run) :
    Identity config run := by
  refine h.invariant identity_init ?_
  intro run act run' _ _ hstep hinv
  cases act with
  | update detections => exact identity_update hassign hfinite hinv hstep
  | others count => exact identity_others hinv hstep

/-- An id that is given away and is not live stays so. -/
theorem gone_step (hassign : IsAssignment assign) (hfinite : Kalman.Finite kalman) {id : Nat}
    {run run' : TrackRun σ} {act : TrackAct}
    (hgone : id < run.nextId ∧ id ∉ ids run.sort.trackers)
    (hstep : trackStep config kalman assign run act = some run') :
    id < run'.nextId ∧ id ∉ ids run'.sort.trackers := by
  obtain ⟨hlt, hnot⟩ := hgone
  cases act with
  | others count =>
    simp only [trackStep, Option.some.injEq] at hstep
    subst hstep
    exact ⟨by show id < run.nextId + count; omega, hnot⟩
  -- new trackers have larger ids, so an id that is gone stays gone
  | update detections =>
    obtain ⟨objects, -, hupdate⟩ := update_trackers config assign run.sort run.nextId
      detections hfinite
    simp only [trackStep, hupdate, Option.some.injEq] at hstep
    subst hstep
    refine ⟨by show id < run.nextId + _; omega, fun hmem => ?_⟩
    have hids : id ∈ ids (run.sort.advance config kalman assign run.nextId detections) :=
      (List.filter_sublist.map _).subset hmem
    rw [advance_ids _ _ _ _ hassign hfinite] at hids
    rcases List.mem_append.mp hids with hold | hnew
    · exact hnot hold
    · have := List.mem_range'_1.mp hnew
      omega

/-! ### The contract of a frame -/

/-- The detection at index `k` went to the tracker at index `i`. -/
def Backs (frame : Association) (live k i : Nat) : Prop :=
  (k, i) ∈ frame.matched ∨ ∃ j, i = live + j ∧ frame.unmatchedDetections[j]? = some k

/-- What a frame does, with its association, its trackers before the survivors are chosen, and
its results. Each detection backs one tracker and each tracker has at most one detection. -/
structure Frame (config : SortConfig) (kalman : Kalman σ) (trackers : List (KalmanBoxTracker σ))
    (nextId : Nat) (detections : List Detection) (frame : Association)
    (after : List (KalmanBoxTracker σ))
    (next : SortTracker σ × Nat × Except String (List TrackedObject)) : Prop where
  one_tracker : ∀ k < detections.length, ∃ i, Backs frame trackers.length k i ∧
    ∀ i', Backs frame trackers.length k i' → i' = i
  one_detection : ∀ i k k', Backs frame trackers.length k i → Backs frame trackers.length k' i →
    k = k'
  once : frame.matched.Nodup ∧ frame.unmatchedDetections.Nodup
  size : after.length = trackers.length + frame.unmatchedDetections.length
  updated : ∀ k i, (k, i) ∈ frame.matched → ∃ t d rect, trackers[i]? = some t ∧
    detections[k]? = some d ∧ ((t.predict kalman).getState kalman).rect = some rect ∧
    config.iouThreshold ≤ iou d.bbox.toRect rect ∧
    after[i]? = some ((t.predict kalman).update kalman d)
  missed : ∀ i t, trackers[i]? = some t → (∀ k, (k, i) ∉ frame.matched) →
    after[i]? = some (t.predict kalman)
  created : ∀ j k, frame.unmatchedDetections[j]? = some k → ∃ d, detections[k]? = some d ∧
    after[trackers.length + j]? = some (.new kalman d (nextId + j))
  kept : next.1.trackers = after.filter fun t => t.timeSinceUpdate ≤ config.maxAge
  reported : ∃ objects, next.2.2 = .ok objects ∧ (objects.map TrackedObject.trackId).Nodup ∧
    ∀ object ∈ objects, ∃ k d i t, detections[k]? = some d ∧
      Backs frame trackers.length k i ∧ after[i]? = some t ∧ object.trackId = t.id ∧
      object.classId = d.classId ∧ object.className = d.className ∧
      object.confidence = d.confidence

/-- The tracker that a detection backs takes the data of the detection. -/
theorem backed_metadata (hassign : IsAssignment assign) (hfinite : Kalman.Finite kalman)
    {t : KalmanBoxTracker σ} {i : Nat}
    (hi : (sort.advance config kalman assign nextId detections)[i]? = some t)
    (hzero : t.timeSinceUpdate = 0) :
    ∃ k d, detections[k]? = some d ∧
      Backs (sort.association config kalman assign detections) sort.trackers.length k i ∧
      t.metadata = d.metadata := by
  have hlt := (List.getElem?_eq_some_iff.mp hi).1
  rw [advance_length _ _ _ _ hassign hfinite] at hlt
  -- a tracker that is up to date was matched in this frame or created in it
  by_cases hold : i < sort.trackers.length
  · rcases advance_old config detections nextId
        hassign hfinite (List.getElem?_eq_getElem hold) with
      ⟨pair, hpair, d, hcolumn, hd, heq⟩ | ⟨-, heq⟩
    · rw [hi] at heq
      cases heq
      refine ⟨pair.1, d, hd, .inl ?_, rfl⟩
      rw [← hcolumn]
      exact hpair
    · -- a tracker that was only predicted counts the missed frame
      rw [hi] at heq
      cases heq
      cases hzero
  · obtain ⟨j, rfl⟩ : ∃ j, i = sort.trackers.length + j :=
      ⟨i - sort.trackers.length, by omega⟩
    have hj : j < (sort.association config kalman assign
      detections).unmatchedDetections.length := by omega
    obtain ⟨d, hd, heq⟩ := advance_new config detections nextId hassign hfinite
      (List.getElem?_eq_getElem hj)
    rw [hi] at heq
    cases heq
    exact ⟨_, d, hd, .inr ⟨j, rfl, List.getElem?_eq_getElem hj⟩, rfl⟩

/-- One frame, assembled from its association, its updates and its new trackers. -/
theorem frame_holds (hassign : IsAssignment assign) (hfinite : Kalman.Finite kalman)
    (hincreasing : (ids sort.trackers).Pairwise (· < ·))
    (hfresh : ∀ id ∈ ids sort.trackers, id < nextId) (detections : List Detection) :
    Frame config kalman sort.trackers nextId detections
      (sort.association config kalman assign detections)
      (sort.advance config kalman assign nextId detections)
      (sort.update config kalman assign nextId detections) := by
  obtain ⟨objects, hobjects, hupdate⟩ :=
    update_trackers config assign sort nextId detections hfinite
  have hpaired := association_paired config kalman detections sort hassign
  have hcolumn_lt : ∀ pair ∈ (sort.association config kalman assign detections).matched,
      pair.2 < sort.trackers.length := by
    intro pair hpair
    have := hpaired.column_lt pair hpair
    rwa [List.length_map, predicted_length hfinite] at this
  have hunmatched : (sort.association config kalman assign
      detections).unmatchedDetections.Nodup := by
    rw [hpaired.left]
    exact List.nodup_range.filter _
  -- a detection is left over when no pair has its row
  have hmem_unmatched : ∀ k,
      k ∈ (sort.association config kalman assign detections).unmatchedDetections ↔
      k < detections.length ∧
        ∀ pair ∈ (sort.association config kalman assign detections).matched, pair.1 ≠ k := by
    intro k
    rw [hpaired.left, List.mem_filter, List.mem_range, List.length_map, decide_eq_true_iff,
      List.mem_map]
    refine and_congr_right fun _ => ⟨fun h pair hpair heq => h ⟨pair, hpair, heq⟩, ?_⟩
    rintro h ⟨pair, hpair, heq⟩
    exact h pair hpair heq
  constructor
  -- it is matched or left over, and never both
  case one_tracker =>
    intro k hk
    by_cases hmatched : ∃ pair ∈ (sort.association config kalman assign detections).matched,
        pair.1 = k
    · obtain ⟨⟨k, i⟩, hpair, rfl⟩ := hmatched
      refine ⟨i, .inl hpair, ?_⟩
      rintro i' (hpair' | ⟨j, -, hj⟩)
      · cases List.inj_on_of_nodup_map hpaired.rows hpair' hpair rfl
        rfl
      · have hleft := (hmem_unmatched k).mp (List.mem_of_getElem? hj)
        exact absurd rfl (hleft.2 _ hpair)
    · have hleft : k ∈ (sort.association config kalman assign
          detections).unmatchedDetections :=
        (hmem_unmatched k).mpr ⟨hk, fun pair hpair heq => hmatched ⟨pair, hpair, heq⟩⟩
      obtain ⟨j, hj⟩ := List.mem_iff_getElem?.mp hleft
      refine ⟨sort.trackers.length + j, .inr ⟨j, rfl, hj⟩, ?_⟩
      rintro i' (hpair' | ⟨j', rfl, hj'⟩)
      · exact absurd ⟨_, hpair', rfl⟩ hmatched
      · have hlt := (List.getElem?_eq_some_iff.mp hj').1
        have := (List.getElem?_inj hlt hunmatched).mp (hj'.trans hj.symm)
        omega
  -- a matched tracker is an old one, and each detection left over gets one of its own
  case one_detection =>
    rintro i k k' (hk | ⟨j, rfl, hj⟩) (hk' | ⟨j', heq, hj'⟩)
    · cases List.inj_on_of_nodup_map hpaired.columns hk hk' rfl
      rfl
    · have : i < sort.trackers.length := hcolumn_lt _ hk
      omega
    · have : sort.trackers.length + j < sort.trackers.length := hcolumn_lt _ hk'
      omega
    · obtain rfl : j = j' := by omega
      exact Option.some_inj.mp (hj.symm.trans hj')
  case once => exact ⟨List.Nodup.of_map _ hpaired.rows, hunmatched⟩
  case size => exact advance_length _ _ _ _ hassign hfinite
  -- the pair passed the overlap threshold with the predicted box
  case updated =>
    intro k i hpair
    have hlt : i < sort.trackers.length := hcolumn_lt _ hpair
    have ht : sort.trackers[i]? = some sort.trackers[i] := List.getElem?_eq_getElem hlt
    obtain ⟨rect, hrect, hsnd⟩ := predicted_snd hfinite ht
    obtain ⟨d, t, hd, ht', hoverlap⟩ := hpaired.overlap _ hpair
    cases hsnd.symm.trans ht'
    obtain ⟨detection, hdetection, rfl⟩ := Option.map_eq_some_iff.mp
      (List.getElem?_map.symm.trans hd)
    refine ⟨_, detection, rect, ht, hdetection, hrect, hoverlap, ?_⟩
    rcases advance_old config detections nextId
        hassign hfinite ht with ⟨pair, hmem, d, hcolumn, hd, heq⟩ | ⟨hnone, -⟩
    · cases List.inj_on_of_nodup_map hpaired.columns hmem hpair hcolumn
      cases hd.symm.trans hdetection
      exact heq
    · exact absurd rfl (hnone _ hpair)
  case missed =>
    intro i t ht hnone
    rcases advance_old config detections nextId
        hassign hfinite ht with ⟨⟨k, i⟩, hmem, d, rfl, -, -⟩ | ⟨-, heq⟩
    · exact absurd hmem (hnone k)
    · exact heq
  case created =>
    intro j k hj
    exact advance_new _ _ _ hassign hfinite hj
  case kept => rw [hupdate]
  -- the reported ids are distinct as the ids of the trackers ascend
  case reported =>
    obtain ⟨hsublist, hmem⟩ := report_mem hobjects
    refine ⟨objects, by rw [hupdate], hsublist.nodup ?_, ?_⟩
    · rw [advance_ids _ _ _ _ hassign hfinite]
      refine List.Pairwise.imp Nat.ne_of_lt (List.pairwise_append.mpr
        ⟨hincreasing, List.pairwise_lt_range', ?_⟩)
      intro old hold new hnew
      have := hfresh old hold
      have := List.mem_range'_1.mp hnew
      omega
    · intro object hobject
      obtain ⟨t, ht, hzero, htracked⟩ := hmem object hobject
      obtain ⟨i, hi⟩ := List.mem_iff_getElem?.mp ht
      obtain ⟨k, d, hd, hbacks, hmetadata⟩ := backed_metadata hassign hfinite hi hzero
      obtain ⟨hid, hclass, hname, hscore⟩ := trackedObject_some htracked
      rw [hmetadata] at hclass hname hscore
      exact ⟨k, d, i, t, hd, hbacks, hi, hid, hclass, hname, hscore⟩

/-- The identities of the trackers, over every sequence of frames. Their ids increase. A frame
does what `Frame` says. A tracker lives as long as at most `max_age` frames have passed since it
was created or updated, and an id that was given away and is not live does not come back. -/
theorem tracker_identity (hassign : IsAssignment assign) (hfinite : Kalman.Finite kalman)
    {run : TrackRun σ} (h : Reachable (trackMachine config kalman assign) Any run) :
    (ids run.sort.trackers).Pairwise (· < ·) ∧
    (∀ detections, Frame config kalman run.sort.trackers run.nextId detections
      (run.sort.association config kalman assign detections)
      (run.sort.advance config kalman assign run.nextId detections)
      (run.sort.update config kalman assign run.nextId detections)) ∧
    (∀ t ∈ run.sort.trackers, t.id ∈ run.seen.map Prod.fst) ∧
    (∀ id frame, run.seen.lookup id = some frame →
      (id ∈ ids run.sort.trackers ↔ run.sort.frameCount ≤ frame + config.maxAge)) ∧
    ∀ run', Path (trackMachine config kalman assign) Any run run' →
      ∀ id ∈ run.seen.map Prod.fst, id ∉ ids run.sort.trackers → id ∉ ids run'.sort.trackers := by
  have hinv := reachable_identity hassign hfinite h
  refine ⟨hinv.increasing, ?_, ?_, hinv.alive, ?_⟩
  · exact frame_holds hassign hfinite hinv.increasing hinv.fresh
  · intro t ht
    obtain ⟨frame, hframe, -⟩ := hinv.current t ht
    obtain ⟨before, after, hseen, -⟩ := List.lookup_eq_some_iff.mp hframe
    rw [hseen]
    simp
  -- along a run the counter only grows
  · intro run' hpath id hid hgone
    obtain ⟨entry, hentry, rfl⟩ := List.mem_map.mp hid
    have hlt := hinv.past entry hentry
    refine (hpath.invariant (I := fun run => entry.1 < run.nextId ∧ entry.1 ∉ ids run.sort.trackers)
      ⟨hlt, hgone⟩ ?_).2
    intro run act run' _ hstep hrun
    exact gone_step hassign hfinite hrun hstep

end Runs

/-! ### An instance of the parameters -/

/-- A filter that expects the box to stand still. -/
def stillKalman : Kalman Rect where
  init bbox := bbox.toRect
  predict x := x
  update _ bbox := bbox.toRect
  stateToBBox x := ⟨.finite x.x1, .finite x.y1, .finite x.x2, .finite x.y2⟩

/-- The filter that stands still gives finite boxes. -/
theorem stillKalman_finite : Kalman.Finite stillKalman := fun _ => rfl

/-- The assignment along the diagonal, which is the only one on a matrix with one entry. -/
def diagonal : Assignment := fun costs =>
  (List.range (min costs.length ((costs.head?.map List.length).getD 0))).map fun i => (i, i)

/-- The diagonal is an assignment. -/
theorem diagonal_isAssignment : IsAssignment diagonal where
  rows costs := by
    rw [diagonal, List.map_map]
    exact List.nodup_range.map fun _ _ h => h
  columns costs := by
    rw [diagonal, List.map_map]
    exact List.nodup_range.map fun _ _ h => h
  inRange costs width hwidth pair hpair := by
    obtain ⟨i, hi, rfl⟩ := List.mem_map.mp hpair
    have hlt := List.mem_range.mp hi
    cases costs with
    | nil => simp at hlt
    | cons row costs =>
      have hrow := hwidth row List.mem_cons_self
      simp only [List.head?_cons, Option.map_some, Option.getD_some, hrow] at hlt
      show i < _ ∧ i < width
      omega
  size costs width hne hwidth := by
    cases costs with
    | nil => exact absurd rfl hne
    | cons row costs =>
      have hrow := hwidth row List.mem_cons_self
      simp [diagonal, hrow]

def exampleBox : BBox := ⟨⟨0, 0, 10, 20⟩, by decide, by decide, by decide, by decide⟩

def fullScore : Score := ⟨1, by decide⟩

def examplePerson : Detection := ⟨exampleBox, fullScore, 0, "person"⟩

/-- The defaults of `Sort`. -/
def exampleSort : SortConfig :=
  ⟨3, 2, 3 / 10, Nat.succ_le_succ (Nat.zero_le 1), by decide +kernel, by decide +kernel⟩

/-- Two frames with the person and one without. The tracker lives. -/
theorem tracker_identity_example :
    let run := (trackMachine exampleSort stillKalman diagonal).final
      (trackMachine exampleSort stillKalman diagonal).init
      [.update [examplePerson], .update [examplePerson], .update []]
    1 ∈ ids run.sort.trackers ↔ run.sort.frameCount ≤ 2 + exampleSort.maxAge := by
  intro run
  have hrun : Reachable (trackMachine exampleSort stillKalman diagonal) Any run :=
    Reachable.init.final _ (by decide +kernel)
  obtain ⟨-, -, -, halive, -⟩ :=
    tracker_identity diagonal_isAssignment stillKalman_finite hrun
  exact halive 1 2 (by decide +kernel)

end Rsap.Proofs
