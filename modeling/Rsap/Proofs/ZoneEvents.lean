import Mathlib.Data.List.Sort
import Rsap.Cv.Pipeline
import Rsap.Library.Alternation
import Rsap.Proofs.TrackIdentity

/-!
# `Rsap.Proofs.ZoneEvents`: when zone events alternate

The pipeline is the tracker followed by the analysis: `results_eq` separates the two. The tracker
alone determines which tracks are seen in which frames (`analysed`), and reports an id at most once
in a frame. The events of a frame are emitted when the intrusion detector does not raise, which its
timestamp decides (`InRange`, `check_eq`). For one zone and one track, the analysis is then the edge
detection of `Rsap.Library.Alternation`: `Remembers` relates its dictionaries to the memory of the
detector, `analyze_remembers` says what one frame does, and `zone_reports` what a run does.
-/

set_option autoImplicit false

namespace Rsap.Proofs

open Rsap.Library
open Rsap.Cv

/-! ### The tracker alone -/

section Tracking
variable {σ : Type} {kalman : Kalman σ} {assign : Assignment}

/-- The ids of the trackers increase, and later ids are free. -/
structure Numbered (tracker : SortTracker σ) (nextId : Nat) : Prop where
  increasing : (ids tracker.trackers).Pairwise (· < ·)
  fresh : ∀ id ∈ ids tracker.trackers, id < nextId

/-- The empty tracker has given no id. -/
theorem numbered_empty (nextId : Nat) : Numbered (SortTracker.empty : SortTracker σ) nextId where
  increasing := List.Pairwise.nil
  fresh := by simp [SortTracker.empty]

/-- Trackers created elsewhere only raise the next id. -/
theorem Numbered.later {tracker : SortTracker σ} {nextId : Nat} (h : Numbered tracker nextId)
    (others : Nat) : Numbered tracker (nextId + others) where
  increasing := h.increasing
  fresh id hid := (h.fresh id hid).trans_le (Nat.le_add_right _ _)

/-- A detection that is left over is one of the frame, whatever the assignment is. -/
theorem associate_left {threshold : Rat} {rects trackers : List Rect} {k : Nat}
    (h : k ∈ (associate assign threshold rects trackers).unmatchedDetections) :
    k < rects.length := by
  unfold associate at h
  split at h
  · exact List.mem_range.mp h
  · exact List.mem_range.mp (List.mem_filter.mp h).1

variable {config : SortConfig}

variable (config kalman assign) in
/-- The trackers of a frame are numbered, whatever the arithmetic and the assignment are. -/
theorem Numbered.advance {tracker : SortTracker σ} {nextId : Nat} (h : Numbered tracker nextId)
    (detections : List Detection) :
    (ids (tracker.advance config kalman assign nextId detections)).Pairwise (· < ·) ∧
    ∀ id ∈ ids (tracker.advance config kalman assign nextId detections), id < nextId +
      (tracker.association config kalman assign detections).unmatchedDetections.length := by
  have hunmatched : ∀ k ∈ (tracker.association config kalman assign
      detections).unmatchedDetections, k < detections.length := by
    intro k hk
    have := associate_left hk
    rwa [List.length_map] at this
  -- the trackers that were kept, with their ids, and the new ones with the next ids
  have hids : ids (tracker.advance config kalman assign nextId detections) =
      ids ((SortTracker.predicted kalman tracker.trackers).map Prod.fst) ++
        List.range' nextId
          (tracker.association config kalman assign detections).unmatchedDetections.length := by
    show ids (_ ++ _) = _
    rw [ids, List.map_append, ← ids, ← ids, updateMatched_ids, created_ids hunmatched]
  have hsublist := predicted_ids kalman tracker.trackers
  have hold : ∀ id ∈ ids ((SortTracker.predicted kalman tracker.trackers).map Prod.fst),
      id < nextId := fun id hid => h.fresh id (hsublist.subset hid)
  rw [hids]
  constructor
  · refine List.pairwise_append.mpr
      ⟨h.increasing.sublist hsublist, List.pairwise_lt_range', ?_⟩
    intro old hmem new hnew
    have := hold old hmem
    have := List.mem_range'_1.mp hnew
    omega
  · intro id hid
    rcases List.mem_append.mp hid with hmem | hnew
    · have := hold id hmem
      omega
    · have := List.mem_range'_1.mp hnew
      omega

variable (config kalman assign) in
/-- A frame keeps the trackers numbered and reports an id at most once. -/
theorem Numbered.update {tracker tracker' : SortTracker σ} {nextId nextId' : Nat}
    (detections : List Detection) {result : Except String (List TrackedObject)}
    (h : Numbered tracker nextId)
    (hupdate : tracker.update config kalman assign nextId detections =
      (tracker', nextId', result)) :
    Numbered tracker' nextId' ∧
      ∀ tracked, result = .ok tracked → (tracked.map TrackedObject.trackId).Nodup := by
  obtain ⟨hincreasing, hfresh⟩ := h.advance kalman assign config detections
  simp only [SortTracker.update] at hupdate
  split at hupdate
  · cases hupdate
    exact ⟨⟨hincreasing, hfresh⟩, fun tracked htracked => by cases htracked⟩
  · rename_i objects hreport
    cases hupdate
    have hsublist : (ids ((tracker.advance config kalman assign nextId detections).filter
        fun t => t.timeSinceUpdate ≤ config.maxAge)).Sublist
        (ids (tracker.advance config kalman assign nextId detections)) :=
      List.filter_sublist.map _
    refine ⟨⟨hincreasing.sublist hsublist, fun id hid => hfresh id (hsublist.subset hid)⟩, ?_⟩
    intro tracked htracked
    cases htracked
    exact (report_mem hreport).1.nodup (hincreasing.imp Nat.ne_of_lt)

end Tracking

/-! ### What the intrusion detector raises -/

section Detector
variable {config : CVConfig} {now : Micros}

/-- The timestamp is a `datetime` after the retention is subtracted. -/
def InRange (config : CVConfig) (timestamp : Micros) : Prop :=
  datetimeMin ≤ timestamp - IntrusionDetector.retention config

instance (config : CVConfig) (timestamp : Micros) : Decidable (InRange config timestamp) :=
  inferInstanceAs (Decidable (_ ≤ _))

/-- `cleanup` prunes the table or raises, and the timestamp alone decides which. -/
theorem cleanup_eq (timestamp : Micros) (active : Option (List Nat))
    (lastAlert : ZoneTrack → Option Micros) :
    IntrusionDetector.cleanup config timestamp active lastAlert =
      if InRange config timestamp then
        .ok (IntrusionDetector.prune (timestamp - IntrusionDetector.retention config) active
          lastAlert)
      else .error "date value out of range" := by
  show Except.map _ (if InRange config timestamp then _ else _) = _
  split <;> rfl

/-- The latest of equal timestamps. -/
theorem latest_eq {event : ZoneEvent} {events : List ZoneEvent}
    (h : ∀ e ∈ event :: events, e.timestamp = now) :
    IntrusionDetector.latest event events = now := by
  induction events generalizing event with
  | nil => exact h event List.mem_cons_self
  | cons next events ih =>
    rw [IntrusionDetector.latest, h event List.mem_cons_self,
      ih fun e he => h e (List.mem_cons_of_mem _ he), max_self]

/-- What a `check` that does not raise leaves and returns. -/
def checked (config : CVConfig) (now : Micros) (lastAlert : ZoneTrack → Option Micros) :
    List ZoneEvent → (ZoneTrack → Option Micros) × List IntrusionEvent
  | [] => (lastAlert, [])
  | event :: events =>
    IntrusionDetector.checkEvents config (event :: events)
      (IntrusionDetector.prune (now - IntrusionDetector.retention config) none lastAlert)

/-- `check` on events of one time. Without events it does not look at the time. -/
theorem check_eq {events : List ZoneEvent} (htime : ∀ event ∈ events, event.timestamp = now)
    (lastAlert : ZoneTrack → Option Micros) :
    IntrusionDetector.check config lastAlert events =
      if events = [] ∨ InRange config now then .ok (checked config now lastAlert events)
      else .error "date value out of range" := by
  cases events with
  | nil => exact (if_pos (.inl rfl)).symm
  | cons event events =>
    rw [IntrusionDetector.check, latest_eq htime, cleanup_eq]
    by_cases hrange : InRange config now
    · rw [if_pos hrange, if_pos (.inr hrange)]
      rfl
    · have hraises : ¬ (event :: events = [] ∨ InRange config now) := by simp [hrange]
      rw [if_neg hrange, if_neg hraises]
      rfl

end Detector

section Times
variable {contains : Contains} {shape : FrameShape} {now : Micros} {zones : List Zone}

/-- The events of one object have the timestamp of the frame. -/
theorem visitZones_timestamp (item : TrackedObject) (presence : ZoneTrack → Option Bool) :
    ∀ event ∈ (ZoneAnalyzer.visitZones contains shape now item zones presence).2,
      event.timestamp = now := by
  induction zones generalizing presence with
  | nil => exact fun event hevent => absurd hevent List.not_mem_nil
  | cons zone zones ih =>
    intro event hevent
    simp only [ZoneAnalyzer.visitZones] at hevent
    split at hevent
    · rcases List.mem_cons.mp hevent with rfl | hmem
      · rfl
      · exact ih _ event hmem
    · exact ih _ event hevent

variable (contains shape now zones) in
/-- The events of a frame have its timestamp. -/
theorem analyze_timestamp (analyzer : ZoneAnalyzer) (tracked : List TrackedObject) :
    ∀ event ∈ (analyzer.analyze contains shape now zones tracked).2, event.timestamp = now := by
  show ∀ event ∈ (ZoneAnalyzer.visit contains shape now zones tracked _).2, _
  generalize ({ analyzer with frameIndex := analyzer.frameIndex + 1 } : ZoneAnalyzer) = begun
  induction tracked generalizing begun with
  | nil => exact fun event hevent => absurd hevent List.not_mem_nil
  | cons item tracked ih =>
    intro event hevent
    rcases List.mem_append.mp hevent with hmem | hmem
    · exact visitZones_timestamp item _ event hmem
    · exact ih _ event hmem

end Times

/-! ### The two stages -/

section Stages
variable {σ : Type} (config : CVConfig) (kalman : Kalman σ) (assign : Assignment)
  (contains : Contains)

/-- The frames that are analysed, with the objects that the tracker reports in them. -/
def analysed (tracker : SortTracker σ) (nextId : Nat) :
    List FrameInput → List (FrameInput × List TrackedObject)
  | [] => []
  | frame :: frames =>
    let next := tracker.update config.tracker kalman assign (nextId + frame.others)
      frame.detections
    match next.2.2 with
    | .error _ => analysed next.1 next.2.1 frames
    | .ok tracked =>
      if frame.facesRaise then analysed next.1 next.2.1 frames
      else (frame, tracked) :: analysed next.1 next.2.1 frames

/-- The analysis of these frames. A frame out of range changes the presence and has no result. -/
def analyses (analyzer : ZoneAnalyzer) (lastAlert : ZoneTrack → Option Micros) :
    List (FrameInput × List TrackedObject) → List AnalyticsResult
  | [] => []
  | (frame, tracked) :: entries =>
    let next := analyzer.analyze contains frame.shape frame.timestamp config.zones tracked
    if InRange config frame.timestamp then
      let found := checked config frame.timestamp lastAlert next.2
      ⟨tracked, next.2, found.2⟩ :: analyses next.1
        (IntrusionDetector.prune (frame.timestamp - IntrusionDetector.retention config)
          (some (tracked.map TrackedObject.trackId)) found.1) entries
    else analyses next.1 lastAlert entries

variable {config kalman assign contains}

/-- The results of a run are those of the analysis of the tracked frames. -/
theorem results_eq (pipeline : FramePipeline σ) (frames : List FrameInput) :
    pipeline.results config kalman assign contains frames =
      analyses config contains pipeline.zoneAnalyzer pipeline.lastAlert
        (analysed config kalman assign pipeline.tracker pipeline.nextId frames) := by
  induction frames generalizing pipeline with
  | nil => rfl
  | cons frame frames ih =>
    simp only [FramePipeline.results, FramePipeline.process, analysed]
    generalize pipeline.tracker.update config.tracker kalman assign
      (pipeline.nextId + frame.others) frame.detections = next
    obtain ⟨tracker, nextId, result⟩ := next
    cases result with
    | error e => exact ih _
    | ok tracked =>
      -- a frame whose face detection raises has no result, and neither has one out of range
      by_cases hfaces : frame.facesRaise = true
      · simp only [hfaces, if_true]
        exact ih _
      · have htime := analyze_timestamp contains frame.shape frame.timestamp config.zones
          pipeline.zoneAnalyzer tracked
        simp only [hfaces, Bool.false_eq_true, if_false, analyses, check_eq htime, cleanup_eq]
        by_cases hrange : InRange config frame.timestamp
        · simp only [hrange, or_true, if_true]
          exact congrArg (List.cons _) (ih _)
        · -- without events the second cleanup raises
          by_cases hnone : (pipeline.zoneAnalyzer.analyze contains frame.shape frame.timestamp
              config.zones tracked).2 = []
          · simp only [hrange, hnone, or_false, if_true, if_false]
            exact ih _
          · simp only [hrange, hnone, or_false, if_false]
            exact ih _

variable (config kalman assign) in
/-- A frame shows a track at most once. -/
theorem analysed_nodup {tracker : SortTracker σ} {nextId : Nat} (h : Numbered tracker nextId)
    (frames : List FrameInput) :
    ∀ entry ∈ analysed config kalman assign tracker nextId frames,
      (entry.2.map TrackedObject.trackId).Nodup := by
  induction frames generalizing tracker nextId with
  | nil => exact fun entry hentry => absurd hentry List.not_mem_nil
  | cons frame frames ih =>
    intro entry hentry
    obtain ⟨hnext, hnodup⟩ := (h.later frame.others).update kalman assign config.tracker
      frame.detections rfl
    simp only [analysed] at hentry
    split at hentry
    · exact ih hnext entry hentry
    · rename_i tracked hresult
      split at hentry
      · exact ih hnext entry hentry
      · rcases List.mem_cons.mp hentry with rfl | hmem
        · exact hnodup tracked hresult
        · exact ih hnext entry hmem

variable (config kalman assign) in
/-- The analysed frames are frames of the run, in their order. -/
theorem analysed_sublist (tracker : SortTracker σ) (nextId : Nat) (frames : List FrameInput) :
    ((analysed config kalman assign tracker nextId frames).map Prod.fst).Sublist frames := by
  induction frames generalizing tracker nextId with
  | nil => exact List.Sublist.refl _
  | cons frame frames ih =>
    simp only [analysed]
    split
    · exact (ih _ _).cons _
    · split
      · exact (ih _ _).cons _
      · exact (ih _ _).cons_cons _

end Stages

/-! ### One zone and one track -/

/-- What a frame shows of a track: whether it is in the zone, when it is seen at all. -/
def sighting (contains : Contains) (zone : Zone) (track : Nat)
    (entry : FrameInput × List TrackedObject) : Option Bool :=
  (entry.2.find? fun item => item.trackId = track).map fun item =>
    contains zone entry.1.shape item.centroid

/-- The events of a zone and a track. -/
def eventsAt (key : ZoneTrack) (events : List ZoneEvent) : List ZoneEvent :=
  events.filter fun event => (event.zoneId, event.trackId) = key

/-- The event that a change of the presence makes. -/
def eventFor (zone : Zone) (item : TrackedObject) (now : Micros) (isInside : Bool) : ZoneEvent :=
  ⟨zone.id, zone.name, item.trackId, if isInside then .enter else .exit, now, item.confidence⟩

section Analysis
variable (contains : Contains) (shape : FrameShape) (now : Micros) {zones : List Zone}

/-- The loop over the zones does not touch another key. -/
theorem visitZones_other (item : TrackedObject) (key : ZoneTrack)
    (hkey : key.2 ≠ item.trackId ∨ key.1 ∉ zones.map Zone.id)
    (presence : ZoneTrack → Option Bool) :
    (ZoneAnalyzer.visitZones contains shape now item zones presence).1 key = presence key ∧
    eventsAt key (ZoneAnalyzer.visitZones contains shape now item zones presence).2 = [] := by
  induction zones generalizing presence with
  | nil => exact ⟨rfl, rfl⟩
  | cons zone zones ih =>
    -- either the key is of another track, or no visited zone has its id
    have hne : (zone.id, item.trackId) ≠ key := by
      rintro rfl
      rcases hkey with h | h
      · exact h rfl
      · exact h List.mem_cons_self
    obtain ⟨hpresence, hevents⟩ := ih
      (hkey.imp_right fun h hmem => h (List.mem_cons_of_mem _ hmem))
      (Function.update presence (zone.id, item.trackId)
        (some (contains zone shape item.centroid)))
    rw [Function.update_of_ne hne.symm] at hpresence
    simp only [ZoneAnalyzer.visitZones]
    split
    · refine ⟨hpresence, ?_⟩
      rw [eventsAt, List.filter_cons_of_neg (by simpa using hne)]
      exact hevents
    · exact ⟨hpresence, hevents⟩

/-- The loop over the zones records the presence in a zone and reports its change. -/
theorem visitZones_own (item : TrackedObject) (hunique : (zones.map Zone.id).Nodup) {zone : Zone}
    (hzone : zone ∈ zones) (presence : ZoneTrack → Option Bool) :
    (ZoneAnalyzer.visitZones contains shape now item zones presence).1 (zone.id, item.trackId) =
      some (contains zone shape item.centroid) ∧
    eventsAt (zone.id, item.trackId)
      (ZoneAnalyzer.visitZones contains shape now item zones presence).2 =
      if contains zone shape item.centroid = (presence (zone.id, item.trackId)).getD false then []
      else [eventFor zone item now (contains zone shape item.centroid)] := by
  induction zones generalizing presence with
  | nil => cases hzone
  | cons first zones ih =>
    obtain ⟨hfirst, hrest⟩ := List.nodup_cons.mp hunique
    rcases List.mem_cons.mp hzone with rfl | hmem
    · -- the zones after it have other ids
      obtain ⟨hpresence, hevents⟩ := visitZones_other contains shape now item
        (zone.id, item.trackId) (.inr hfirst)
        (Function.update presence (zone.id, item.trackId)
          (some (contains zone shape item.centroid)))
      rw [Function.update_self] at hpresence
      simp only [ZoneAnalyzer.visitZones]
      split
      · refine ⟨hpresence, ?_⟩
        rw [eventsAt, List.filter_cons_of_pos (by simp)]
        exact congrArg (List.cons _) hevents
      · rename_i hsame
        rw [if_pos (not_not.mp hsame)]
        exact ⟨hpresence, hevents⟩
    -- another zone stands first, and its ids differ
    · have hne : (zone.id, item.trackId) ≠ (first.id, item.trackId) := by
        intro heq
        exact hfirst (List.mem_map.mpr ⟨zone, hmem, (Prod.mk.inj heq).1⟩)
      obtain ⟨hpresence, hevents⟩ := ih hrest hmem
        (Function.update presence (first.id, item.trackId)
          (some (contains first shape item.centroid)))
      rw [Function.update_of_ne hne] at hevents
      simp only [ZoneAnalyzer.visitZones]
      split
      · refine ⟨hpresence, ?_⟩
        rw [eventsAt, List.filter_cons_of_neg (by simpa using hne.symm)]
        exact hevents
      · exact ⟨hpresence, hevents⟩

/-- The loop over the objects does not touch the keys of another track. -/
theorem visit_other {track : Nat} {tracked : List TrackedObject}
    (h : track ∉ tracked.map TrackedObject.trackId) (analyzer : ZoneAnalyzer) (zoneId : String) :
    (ZoneAnalyzer.visit contains shape now zones tracked analyzer).1.presence (zoneId, track) =
      analyzer.presence (zoneId, track) ∧
    (ZoneAnalyzer.visit contains shape now zones tracked analyzer).1.lastSeen track =
      analyzer.lastSeen track ∧
    eventsAt (zoneId, track)
      (ZoneAnalyzer.visit contains shape now zones tracked analyzer).2 = [] := by
  induction tracked generalizing analyzer with
  | nil => exact ⟨rfl, rfl, rfl⟩
  | cons item tracked ih =>
    have hne : track ≠ item.trackId := fun heq => h (heq ▸ List.mem_cons_self)
    have hrest : track ∉ tracked.map TrackedObject.trackId := fun hmem =>
      h (List.mem_cons_of_mem _ hmem)
    obtain ⟨hzone, hevents⟩ := @visitZones_other contains shape now zones item (zoneId, track)
      (.inl hne) analyzer.presence
    obtain ⟨hpresence, hseen, hrestEvents⟩ := ih hrest
      { analyzer with
        presence := (ZoneAnalyzer.visitZones contains shape now item zones analyzer.presence).1
        lastSeen := Function.update analyzer.lastSeen item.trackId (some analyzer.frameIndex) }
    -- the first item writes its own entry only, and so do those after it
    refine ⟨hpresence.trans hzone, hseen.trans (Function.update_of_ne hne _ _), ?_⟩
    show eventsAt _ (_ ++ _) = []
    rw [eventsAt, List.filter_append]
    exact List.append_eq_nil_iff.mpr ⟨hevents, hrestEvents⟩

/-- The loop over the objects records the presence of a track and reports its change. -/
theorem visit_own {tracked : List TrackedObject}
    (hnodup : (tracked.map TrackedObject.trackId).Nodup) {item : TrackedObject}
    (hitem : item ∈ tracked) (hunique : (zones.map Zone.id).Nodup) {zone : Zone}
    (hzone : zone ∈ zones) (analyzer : ZoneAnalyzer) :
    (ZoneAnalyzer.visit contains shape now zones tracked analyzer).1.presence
      (zone.id, item.trackId) = some (contains zone shape item.centroid) ∧
    (ZoneAnalyzer.visit contains shape now zones tracked analyzer).1.lastSeen item.trackId =
      some analyzer.frameIndex ∧
    eventsAt (zone.id, item.trackId)
      (ZoneAnalyzer.visit contains shape now zones tracked analyzer).2 =
      if contains zone shape item.centroid =
        (analyzer.presence (zone.id, item.trackId)).getD false then []
      else [eventFor zone item now (contains zone shape item.centroid)] := by
  induction tracked generalizing analyzer with
  | nil => cases hitem
  | cons first tracked ih =>
    obtain ⟨hfirst, hrest⟩ := List.nodup_cons.mp hnodup
    let next : ZoneAnalyzer :=
      { analyzer with
        presence := (ZoneAnalyzer.visitZones contains shape now first zones analyzer.presence).1
        lastSeen := Function.update analyzer.lastSeen first.trackId (some analyzer.frameIndex) }
    rcases List.mem_cons.mp hitem with rfl | hmem
    · -- the track does not occur again
      obtain ⟨hpresence, hevents⟩ := visitZones_own contains shape now item hunique hzone
        analyzer.presence
      obtain ⟨hpresence', hseen', hevents'⟩ := @visit_other contains shape now zones
        item.trackId tracked hfirst next zone.id
      refine ⟨hpresence'.trans hpresence, hseen'.trans (Function.update_self _ _ _), ?_⟩
      show eventsAt _ (_ ++ _) = _
      rw [eventsAt, List.filter_append, ← eventsAt, ← eventsAt, hevents, hevents',
        List.append_nil]
    -- the track comes later in the frame, so the first item leaves its entries alone
    · have hne : item.trackId ≠ first.trackId := by
        intro heq
        exact hfirst (heq ▸ List.mem_map_of_mem hmem)
      obtain ⟨hpresence, hevents⟩ := @visitZones_other contains shape now zones first
        (zone.id, item.trackId) (.inl hne) analyzer.presence
      obtain ⟨hpresence', hseen', hevents'⟩ := ih hrest hmem next
      refine ⟨hpresence', hseen', ?_⟩
      show eventsAt _ (_ ++ _) = _
      rw [eventsAt, List.filter_append, ← eventsAt, ← eventsAt, hevents, List.nil_append,
        hevents']
      show (if _ = (next.presence _).getD false then _ else _) = _
      rw [show next.presence (zone.id, item.trackId) =
        analyzer.presence (zone.id, item.trackId) from hpresence]

/-- An item does not advance the frame number. -/
theorem visit_frameIndex (tracked : List TrackedObject) (analyzer : ZoneAnalyzer) :
    (ZoneAnalyzer.visit contains shape now zones tracked analyzer).1.frameIndex =
      analyzer.frameIndex := by
  induction tracked generalizing analyzer with
  | nil => rfl
  | cons item tracked ih => exact ih _

/-- The dictionaries hold the memory of the detector. -/
def Remembers (analyzer : ZoneAnalyzer) (key : ZoneTrack) : Option Memory → Prop
  | none => analyzer.presence key = none ∧ analyzer.lastSeen key.2 = none
  | some memory => analyzer.presence key = some memory.inside ∧ ∃ frame,
      analyzer.lastSeen key.2 = some frame ∧ frame + memory.unseen = analyzer.frameIndex

/-- The presence that is read is the one remembered. -/
theorem Remembers.presence {analyzer : ZoneAnalyzer} {key : ZoneTrack} {memory : Option Memory}
    (h : Remembers analyzer key memory) : (analyzer.presence key).getD false = inside memory := by
  cases memory with
  | none => rw [h.1]; rfl
  | some memory => rw [h.1]; rfl

/-- The event that a report stands for. -/
def reportEvent (zone : Zone) (now : Micros) (tracked : List TrackedObject) (track : Nat)
    (report : List Bool) : List ZoneEvent :=
  report.flatMap fun isInside =>
    ((tracked.find? fun item => item.trackId = track).map fun item =>
      eventFor zone item now isInside).toList

/-- One frame: the dictionaries follow the detector, and the events are its report. -/
theorem analyze_remembers (frame : FrameInput) {tracked : List TrackedObject}
    (hnodup : (tracked.map TrackedObject.trackId).Nodup) (hunique : (zones.map Zone.id).Nodup)
    {zone : Zone} (hzone : zone ∈ zones) {track : Nat} {analyzer : ZoneAnalyzer}
    {memory : Option Memory} (hmemory : Remembers analyzer (zone.id, track) memory) :
    Remembers (analyzer.analyze contains frame.shape now zones tracked).1 (zone.id, track)
      (Memory.next ZoneAnalyzer.staleAfterFrames memory
        (sighting contains zone track (frame, tracked))) ∧
    eventsAt (zone.id, track) (analyzer.analyze contains frame.shape now zones tracked).2 =
      reportEvent zone now tracked track
        (report memory (sighting contains zone track (frame, tracked))) := by
  -- the frame index grows first, then the visits write, and the stale tracks go last
  let begun : ZoneAnalyzer := { analyzer with frameIndex := analyzer.frameIndex + 1 }
  let visited := (ZoneAnalyzer.visit contains frame.shape now zones tracked begun).1
  have hindex : visited.frameIndex = analyzer.frameIndex + 1 := visit_frameIndex _ _ _ tracked begun
  cases hfind : tracked.find? fun item => item.trackId = track with
  -- the frame does not report the track
  | none =>
    have hmissing : track ∉ tracked.map TrackedObject.trackId := by
      intro hmem
      obtain ⟨item, hitem, heq⟩ := List.mem_map.mp hmem
      simpa [heq] using List.find?_eq_none.mp hfind item hitem
    obtain ⟨hpresence, hseen, hevents⟩ := @visit_other contains frame.shape now zones track
      tracked hmissing begun zone.id
    have hsight : sighting contains zone track (frame, tracked) = none := by
      simp [sighting, hfind]
    rw [hsight]
    refine ⟨?_, hevents⟩
    cases memory with
    -- nothing is known of it, so there is nothing to forget
    | none =>
      have hstale : visited.stale track = false := by
        simp [ZoneAnalyzer.stale, visited, hseen, begun, hmemory.2]
      refine ⟨?_, ?_⟩
      · show (if visited.stale track then none else visited.presence (zone.id, track)) = none
        rw [hstale, hpresence]
        exact hmemory.1
      · show (if visited.stale track then none else visited.lastSeen track) = none
        rw [hstale, hseen]
        exact hmemory.2
    -- it has been unseen for one frame more
    | some memory =>
      obtain ⟨hinside, last, hlast, hcount⟩ := hmemory
      have hstale : visited.stale track =
          decide (ZoneAnalyzer.staleAfterFrames < memory.unseen + 1) := by
        have hgap : analyzer.frameIndex + 1 - last = memory.unseen + 1 := by omega
        simp [ZoneAnalyzer.stale, visited, hseen, begun, hlast, hindex, hgap]
      by_cases hle : memory.unseen + 1 ≤ ZoneAnalyzer.staleAfterFrames
      -- still within the frames that the analyzer remembers
      · have hkept : visited.stale track = false := by
          rw [hstale]
          exact decide_eq_false (by omega)
        have hnext : Memory.next ZoneAnalyzer.staleAfterFrames (some memory) none =
            some { memory with unseen := memory.unseen + 1 } := by
          simp [Memory.next, Option.filter, hle]
        rw [hnext]
        refine ⟨?_, last, ?_, ?_⟩
        · show (if visited.stale track then none else visited.presence (zone.id, track)) = _
          rw [hkept, hpresence]
          exact hinside
        · show (if visited.stale track then none else visited.lastSeen track) = _
          rw [hkept, hseen]
          exact hlast
        · show last + (memory.unseen + 1) = visited.frameIndex
          omega
      -- past them, and the analyzer drops both entries
      · have hdropped : visited.stale track = true := by
          rw [hstale]
          exact decide_eq_true (by omega)
        have hnext : Memory.next ZoneAnalyzer.staleAfterFrames (some memory) none = none := by
          simp [Memory.next, Option.filter, hle]
        rw [hnext]
        exact ⟨if_pos hdropped, if_pos hdropped⟩
  -- the frame reports the track, by this item alone
  | some item =>
    have hitem : item ∈ tracked := List.mem_of_find?_eq_some hfind
    obtain rfl : item.trackId = track := by
      simpa using List.find?_some hfind
    obtain ⟨hpresence, hseen, hevents⟩ := visit_own contains frame.shape now hnodup hitem
      hunique hzone begun
    have hsight : sighting contains zone item.trackId (frame, tracked) =
        some (contains zone frame.shape item.centroid) := by
      simp [sighting, hfind]
    have hkept : visited.stale item.trackId = false := by
      simp [ZoneAnalyzer.stale, visited, hseen, hindex, begun]
    rw [hsight]
    refine ⟨⟨?_, analyzer.frameIndex + 1, ?_, ?_⟩, ?_⟩
    · show (if visited.stale item.trackId then none
        else visited.presence (zone.id, item.trackId)) = _
      rw [hkept]
      exact hpresence
    · show (if visited.stale item.trackId then none else visited.lastSeen item.trackId) = _
      rw [hkept]
      exact hseen
    · exact hindex.symm
    -- the presence of a track that is not remembered counts as outside
    · refine hevents.trans ?_
      rw [show begun.presence = analyzer.presence from rfl, hmemory.presence]
      by_cases hsame : contains zone frame.shape item.centroid = inside memory
      · rw [if_pos hsame, report, if_pos hsame]
        rfl
      · rw [if_neg hsame, report, if_neg hsame]
        simp [reportEvent, hfind]

/-- The reports that the events of a zone and a track make. -/
def zoneReports (key : ZoneTrack) (results : List AnalyticsResult) : List Bool :=
  (eventsAt key (results.flatMap AnalyticsResult.zoneEvents)).map fun event =>
    event.eventType = .enter

/-- The reports of a track are those of the first frame and then of the others. -/
theorem zoneReports_cons (key : ZoneTrack) (result : AnalyticsResult)
    (results : List AnalyticsResult) :
    zoneReports key (result :: results) =
      (eventsAt key result.zoneEvents).map (fun event => decide (event.eventType = .enter)) ++
        zoneReports key results := by
  simp [zoneReports, eventsAt]

/-- The events of a report are that report. -/
theorem reportEvent_kinds {contains : Contains} {zone : Zone} {track : Nat}
    {frame : FrameInput} {tracked : List TrackedObject} (memory : Option Memory) :
    (reportEvent zone now tracked track
      (report memory (sighting contains zone track (frame, tracked)))).map
      (fun event => decide (event.eventType = .enter)) =
      report memory (sighting contains zone track (frame, tracked)) := by
  cases hfind : tracked.find? fun item => item.trackId = track with
  | none =>
    have hsight : sighting contains zone track (frame, tracked) = none := by
      simp [sighting, hfind]
    rw [hsight]
    rfl
  | some item =>
    generalize sighting contains zone track (frame, tracked) = tick
    rcases tick with _ | seen
    · rfl
    · rw [report]
      split
      · rfl
      · cases seen <;> simp [reportEvent, hfind, eventFor]

/-- What a frame shows of a track, and whether its events are emitted. -/
def emittedSighting (config : CVConfig) (contains : Contains) (zone : Zone) (track : Nat)
    (entry : FrameInput × List TrackedObject) : Bool × Option Bool :=
  (decide (InRange config entry.1.timestamp), sighting contains zone track entry)

/-- A run: the events of a zone and a track are the reports of the detector on what the frames
show of the track, as far as they are emitted. -/
theorem zone_reports {config : CVConfig} {zone : Zone} (hzone : zone ∈ config.zones) {track : Nat}
    {entries : List (FrameInput × List TrackedObject)}
    (hnodup : ∀ entry ∈ entries, (entry.2.map TrackedObject.trackId).Nodup)
    {analyzer : ZoneAnalyzer} {memory : Option Memory}
    (hmemory : Remembers analyzer (zone.id, track) memory)
    (lastAlert : ZoneTrack → Option Micros) :
    zoneReports (zone.id, track) (analyses config contains analyzer lastAlert entries) =
      heard ZoneAnalyzer.staleAfterFrames memory
        (entries.map (emittedSighting config contains zone track)) := by
  induction entries generalizing analyzer memory lastAlert with
  | nil => rfl
  | cons entry entries ih =>
    obtain ⟨frame, tracked⟩ := entry
    obtain ⟨hnext, hevents⟩ := analyze_remembers contains frame.timestamp frame
      (hnodup _ List.mem_cons_self) config.zones_unique hzone hmemory
    have hrest := ih (fun entry hentry => hnodup entry (List.mem_cons_of_mem _ hentry)) hnext
    rw [analyses, List.map_cons, emittedSighting, heard]
    by_cases hrange : InRange config frame.timestamp
    · rw [if_pos hrange, if_pos (decide_eq_true hrange), zoneReports_cons, hevents,
        reportEvent_kinds, hrest]
    · rw [if_neg hrange, if_neg (by simpa using hrange), hrest, List.nil_append]

end Analysis

/-! ### The pipeline -/

section Pipeline
variable {σ : Type} (config : CVConfig) (kalman : Kalman σ) (assign : Assignment)
  (contains : Contains)

/-- What the analysed frames of a run show of a track, and whether their events are emitted. -/
def sightings (zone : Zone) (track : Nat) (frames : List FrameInput) :
    List (Bool × Option Bool) :=
  (analysed config kalman assign SortTracker.empty 1 frames).map
    (emittedSighting config contains zone track)

/-- The events of a zone and a track alternate and start with an entry, exactly when none is
emitted after an odd number of changes that were not. When the intrusion detector raises in no
frame, this is so exactly when the track is not seen in the zone, then missed for more than 30
analysed frames, and then seen in the zone again. -/
theorem zone_events_alternate_iff {zone : Zone} (hzone : zone ∈ config.zones) (track : Nat)
    (frames : List FrameInput) :
    let alternate := Alternates true (zoneReports (zone.id, track)
      ((FramePipeline.new : FramePipeline σ).results config kalman assign contains frames))
    let seen := sightings config kalman assign contains zone track frames
    (alternate ↔ strays ZoneAnalyzer.staleAfterFrames none false seen = false) ∧
    ((∀ frame ∈ frames, InRange config frame.timestamp) →
      (alternate ↔ ¬ Lapses ZoneAnalyzer.staleAfterFrames (seen.map Prod.snd))) := by
  intro alternate seen
  have hmemory : Remembers ZoneAnalyzer.new (zone.id, track) none := ⟨rfl, rfl⟩
  have hreports := zone_reports contains hzone
    (analysed_nodup config kalman assign (numbered_empty 1) frames) hmemory fun _ => none
  have hiff : alternate ↔ strays ZoneAnalyzer.staleAfterFrames none false seen = false := by
    show Alternates true (zoneReports _ (FramePipeline.results config kalman assign contains
      FramePipeline.new frames)) ↔ _
    rw [results_eq]
    show Alternates true (zoneReports _ (analyses config contains ZoneAnalyzer.new (fun _ => none)
      (analysed config kalman assign SortTracker.empty 1 frames))) ↔ _
    rw [hreports]
    exact heard_alternates_iff _
  refine ⟨hiff, fun hrange => hiff.trans (strays_eq_false_iff fun tick htick => ?_)⟩
  -- an analysed frame is a frame of the run
  obtain ⟨entry, hentry, rfl⟩ := List.mem_map.mp htick
  have hframe := (analysed_sublist config kalman assign SortTracker.empty 1 frames).subset
    (List.mem_map_of_mem hentry)
  exact decide_eq_true (hrange _ hframe)

end Pipeline

/-! ### A track that is forgotten inside its zone -/

/-- A zone of the whole frame. -/
def exampleZone : Zone := ⟨"gate", "Gate", [(0, 0), (1, 0), (1, 1), (0, 1)], true⟩

/-- The defaults of `CVConfig`, with an intrusion zone and a tracker that keeps its tracks for 40
frames. -/
def patientConfig : CVConfig where
  zones := [exampleZone]
  intrusionZoneIds := ["gate"]
  intrusionCooldown := 5000000
  intrusionRetentionMargin := 60000000
  tracker := { exampleSort with maxAge := 40 }
  zones_unique := by decide
  intrusion_configured := by decide
  cooldown_nonneg := by decide
  margin_nonneg := by decide

/-- A frame of a second with these detections. -/
def exampleFrame (second : Int) (detections : List Detection) : FrameInput :=
  ⟨detections, false, (480, 640), second * 1000000, 0⟩

/-- A person is seen, is not detected for half a minute, and is seen again. -/
def missedForLong : List FrameInput :=
  exampleFrame 0 [examplePerson] ::
    ((List.range 31).map fun i => exampleFrame (i + 1) []) ++ [exampleFrame 32 [examplePerson]]

/-- The track enters the zone twice. -/
theorem missed_enters_twice : ¬ Alternates true (zoneReports ("gate", 1)
    (FramePipeline.new.results patientConfig stillKalman diagonal (fun _ _ _ => true)
      missedForLong)) := by
  decide +kernel

/-- The condition fails there. -/
theorem missed_lapses : Lapses ZoneAnalyzer.staleAfterFrames
    ((sightings patientConfig stillKalman diagonal (fun _ _ _ => true) exampleZone 1
      missedForLong).map Prod.snd) := by
  by_contra h
  have hiff := (zone_events_alternate_iff patientConfig stillKalman diagonal
    (fun _ _ _ => true) List.mem_cons_self 1 missedForLong).2 (by decide +kernel)
  refine absurd (hiff.mpr h) ?_
  decide +kernel

end Rsap.Proofs
