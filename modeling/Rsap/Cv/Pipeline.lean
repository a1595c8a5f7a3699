import Mathlib.Logic.Function.Basic
import Rsap.Cv.Tracker

/-!
# `Rsap.Cv.Pipeline`: zone events and intrusions

`FramePipeline._process_locked` (`cv_engine/pipeline/frame_pipeline.py`) with `ZoneAnalyzer`
(`zone_analyzer.py`) and `IntrusionDetector` (`intrusion_detector.py`). The dictionaries of the
two are functions to `Option`. `pointPolygonTest` of OpenCV is the parameter `contains`: a
predicate of the zone, the shape of the frame and the centroid.

A frame carries what the detector found in it. The face engine may raise after the tracker took
the frame (`facesRaise`), and then the frame is not analysed. A frame whose timestamp is within the
retention of `datetime.min` is analysed, but then the intrusion detector raises, and no event of
the frame is emitted. Trackers that other pipelines create
before the frame take ids (`others`). A callback runs after the events of a frame are determined
and changes none of the state here, so callbacks are left out, as are the people counter, the
faces and the overlay.
-/

set_option autoImplicit false

namespace Rsap.Cv

/-- The height and the width of a frame. -/
abbrev FrameShape := Nat × Nat

/-- Whether a point of a frame is in a zone. -/
abbrev Contains := Zone → FrameShape → Rat × Rat → Bool

/-- A zone and a track. -/
abbrev ZoneTrack := String × Nat

/-! ### `ZoneAnalyzer` -/

structure ZoneAnalyzer where
  presence : ZoneTrack → Option Bool
  lastSeen : Nat → Option Nat
  frameIndex : Nat

namespace ZoneAnalyzer

/-- The state that `__init__` sets. -/
def new : ZoneAnalyzer := ⟨fun _ => none, fun _ => none, 0⟩

/-- The default of `stale_after_frames`, which the pipeline does not set. -/
def staleAfterFrames : Nat := 30

variable (contains : Contains) (shape : FrameShape) (now : Micros)

/-- The loop over the zones for one object. -/
def visitZones (item : TrackedObject) : List Zone → (ZoneTrack → Option Bool) →
    (ZoneTrack → Option Bool) × List ZoneEvent
  | [], presence => (presence, [])
  | zone :: zones, presence =>
    let isInside := contains zone shape item.centroid
    let key := (zone.id, item.trackId)
    let wasInside := (presence key).getD false
    let (presence, events) :=
      visitZones item zones (Function.update presence key (some isInside))
    if isInside ≠ wasInside then
      (presence, ⟨zone.id, zone.name, item.trackId, if isInside then .enter else .exit, now,
        item.confidence⟩ :: events)
    else (presence, events)

/-- The loop over the tracked objects. -/
def visit (zones : List Zone) : List TrackedObject → ZoneAnalyzer →
    ZoneAnalyzer × List ZoneEvent
  | [], analyzer => (analyzer, [])
  | item :: tracked, analyzer =>
    let (presence, events) := visitZones contains shape now item zones analyzer.presence
    let (analyzer, rest) := visit zones tracked
      { analyzer with
        presence := presence
        lastSeen := Function.update analyzer.lastSeen item.trackId (some analyzer.frameIndex) }
    (analyzer, events ++ rest)

/-- The track is one of the `stale_ids`. -/
def stale (analyzer : ZoneAnalyzer) (track : Nat) : Bool :=
  match analyzer.lastSeen track with
  | some frame => decide (staleAfterFrames < analyzer.frameIndex - frame)
  | none => false

/-- `_discard_stale`. -/
def discardStale (analyzer : ZoneAnalyzer) : ZoneAnalyzer :=
  { analyzer with
    presence := fun key => if analyzer.stale key.2 then none else analyzer.presence key
    lastSeen := fun track => if analyzer.stale track then none else analyzer.lastSeen track }

/-- `analyze`. -/
def analyze (zones : List Zone) (analyzer : ZoneAnalyzer) (tracked : List TrackedObject) :
    ZoneAnalyzer × List ZoneEvent :=
  let (analyzer, events) := visit contains shape now zones tracked
    { analyzer with frameIndex := analyzer.frameIndex + 1 }
  (analyzer.discardStale, events)

end ZoneAnalyzer

/-! ### `IntrusionDetector` -/

namespace IntrusionDetector

/-- `self.retention`. -/
def retention (config : CVConfig) : Micros :=
  config.intrusionCooldown + config.intrusionRetentionMargin

/-- The entries that are not `stale`. -/
def prune (cutoff : Micros) (activeTrackIds : Option (List Nat))
    (lastAlert : ZoneTrack → Option Micros) : ZoneTrack → Option Micros := fun key =>
  (lastAlert key).filter fun last =>
    ¬ (last < cutoff ∨ ∃ active ∈ activeTrackIds, key.2 ∉ active)

/-- `cleanup`. The subtraction comes first, so a call that raises removes nothing. -/
def cleanup (config : CVConfig) (timestamp : Micros) (activeTrackIds : Option (List Nat))
    (lastAlert : ZoneTrack → Option Micros) : Except String (ZoneTrack → Option Micros) :=
  (subtractDuration timestamp (retention config)).map fun cutoff =>
    prune cutoff activeTrackIds lastAlert

/-- The latest timestamp of the events. -/
def latest : ZoneEvent → List ZoneEvent → Micros
  | event, [] => event.timestamp
  | event, next :: events => max event.timestamp (latest next events)

/-- The loop of `check`. -/
def checkEvents (config : CVConfig) : List ZoneEvent → (ZoneTrack → Option Micros) →
    (ZoneTrack → Option Micros) × List IntrusionEvent
  | [], lastAlert => (lastAlert, [])
  | event :: events, lastAlert =>
    let key := (event.zoneId, event.trackId)
    if event.zoneId ∉ config.intrusionZoneIds ∨ event.eventType ≠ .enter then
      checkEvents config events lastAlert
    else if ∃ previous ∈ lastAlert key, event.timestamp - previous < config.intrusionCooldown then
      checkEvents config events lastAlert
    else
      let (lastAlert, intrusions) :=
        checkEvents config events (Function.update lastAlert key (some event.timestamp))
      (lastAlert, ⟨event.zoneId, event.zoneName, event.trackId, event.timestamp,
        event.confidence⟩ :: intrusions)

/-- `check`. It raises in its cleanup, before it changes anything. -/
def check (config : CVConfig) (lastAlert : ZoneTrack → Option Micros) :
    List ZoneEvent → Except String ((ZoneTrack → Option Micros) × List IntrusionEvent)
  | [] => .ok (lastAlert, [])
  | event :: events =>
    (cleanup config (latest event events) none lastAlert).map
      (checkEvents config (event :: events))

/-- A call of `check`, or a call of `cleanup` without tracks. -/
inductive Call where
  | check (events : List ZoneEvent)
  | cleanup (timestamp : Micros)
  deriving DecidableEq

/-- The table after a call and the intrusions that it returns, or the message of its error. -/
def Call.run (config : CVConfig) (lastAlert : ZoneTrack → Option Micros) :
    Call → Except String ((ZoneTrack → Option Micros) × List IntrusionEvent)
  | .check events => IntrusionDetector.check config lastAlert events
  | .cleanup timestamp =>
    (IntrusionDetector.cleanup config timestamp none lastAlert).map fun lastAlert =>
      (lastAlert, [])

/-- A sequence of calls: the table after it, and what each call returns or raises. -/
def runCalls (config : CVConfig) :
    (ZoneTrack → Option Micros) → List Call →
      (ZoneTrack → Option Micros) × List (Except String (List IntrusionEvent))
  | lastAlert, [] => (lastAlert, [])
  | lastAlert, call :: calls =>
    match call.run config lastAlert with
    | .error message =>
      let (lastAlert, rest) := runCalls config lastAlert calls
      (lastAlert, .error message :: rest)
    | .ok (lastAlert, intrusions) =>
      let (lastAlert, rest) := runCalls config lastAlert calls
      (lastAlert, .ok intrusions :: rest)

end IntrusionDetector

/-! ### `FramePipeline` -/

structure FrameInput where
  detections : List Detection
  facesRaise : Bool
  shape : FrameShape
  timestamp : Micros
  others : Nat
  deriving DecidableEq

/-- The part of an `AnalyticsResult` that tracking and zone analysis determine. -/
structure AnalyticsResult where
  tracked : List TrackedObject
  zoneEvents : List ZoneEvent
  intrusions : List IntrusionEvent
  deriving DecidableEq

/-- A pipeline, with the next id of the process. -/
structure FramePipeline (σ : Type) where
  tracker : SortTracker σ
  nextId : Nat
  zoneAnalyzer : ZoneAnalyzer
  lastAlert : ZoneTrack → Option Micros

namespace FramePipeline

variable {σ : Type} (config : CVConfig) (kalman : Kalman σ) (assign : Assignment)
  (contains : Contains)

/-- The state that `__init__` sets. -/
def new : FramePipeline σ := ⟨.empty, 1, .new, fun _ => none⟩

/-- `_process_locked`: the state after the frame, and the result when nothing raises. The face
engine raises after the tracker took the frame, the intrusion detector after the zone analyzer
did. -/
def process (pipeline : FramePipeline σ) (frame : FrameInput) :
    FramePipeline σ × Option AnalyticsResult :=
  let (tracker, nextId, result) := pipeline.tracker.update config.tracker kalman assign
    (pipeline.nextId + frame.others) frame.detections
  match result with
  | .error _ => ({ pipeline with tracker := tracker, nextId := nextId }, none)
  | .ok tracked =>
    if frame.facesRaise then ({ pipeline with tracker := tracker, nextId := nextId }, none)
    else
      let (zoneAnalyzer, zoneEvents) := pipeline.zoneAnalyzer.analyze contains frame.shape
        frame.timestamp config.zones tracked
      match IntrusionDetector.check config pipeline.lastAlert zoneEvents with
      | .error _ => (⟨tracker, nextId, zoneAnalyzer, pipeline.lastAlert⟩, none)
      | .ok (lastAlert, intrusions) =>
        match IntrusionDetector.cleanup config frame.timestamp
            (some (tracked.map TrackedObject.trackId)) lastAlert with
        | .error _ => (⟨tracker, nextId, zoneAnalyzer, lastAlert⟩, none)
        | .ok lastAlert =>
          (⟨tracker, nextId, zoneAnalyzer, lastAlert⟩, some ⟨tracked, zoneEvents, intrusions⟩)

/-- The results of a sequence of frames. -/
def results (pipeline : FramePipeline σ) : List FrameInput → List AnalyticsResult
  | [] => []
  | frame :: frames =>
    let (pipeline, result) := pipeline.process config kalman assign contains frame
    result.toList ++ results pipeline frames

end FramePipeline

end Rsap.Cv
