import Mathlib.Data.Rat.Floor
import Rsap.Cv.Kalman
import Rsap.Library.RateLimit
import Rsap.Proofs.ZoneEvents

/-!
# `Rsap.Proofs.Intrusions`: when intrusion events keep the cooldown

For one zone and one track, the intrusion detector of the pipeline is the forgetful limiter of
`Rsap.Library.RateLimit`: an entry into the zone asks for an event, and the table forgets a track
that a frame does not show. A frame out of range changes nothing in the table. `checked_at` and
`prune_at` say what the detector does with one key, `intrusion_step` what a frame does, and
`intrusion_times` what a run does.
-/

set_option autoImplicit false

namespace Rsap.Proofs

open Rsap.Library
open Rsap.Cv

/-! ### The detector at one key -/

/-- The times of the intrusions of a zone and a track. -/
def intrusionTimes (key : ZoneTrack) (intrusions : List IntrusionEvent) : List Micros :=
  (intrusions.filter fun event => (event.zoneId, event.trackId) = key).map
    IntrusionEvent.timestamp

section Detector
variable {config : CVConfig} {key : ZoneTrack}

variable (config) in
/-- The detector does not touch a key without an event. -/
theorem checkEvents_other {events : List ZoneEvent} (h : eventsAt key events = [])
    (lastAlert : ZoneTrack → Option Micros) :
    (IntrusionDetector.checkEvents config events lastAlert).1 key = lastAlert key ∧
    intrusionTimes key (IntrusionDetector.checkEvents config events lastAlert).2 = [] := by
  induction events generalizing lastAlert with
  | nil => exact ⟨rfl, rfl⟩
  | cons event events ih =>
    have hne : (event.zoneId, event.trackId) ≠ key := by
      intro heq
      rw [eventsAt, List.filter_cons_of_pos (by simpa using heq)] at h
      cases h
    rw [eventsAt, List.filter_cons_of_neg (by simpa using hne)] at h
    simp only [IntrusionDetector.checkEvents]
    split
    · exact ih h _
    · split
      · exact ih h _
      · obtain ⟨hlast, htimes⟩ := ih h
          (Function.update lastAlert (event.zoneId, event.trackId) (some event.timestamp))
        rw [Function.update_of_ne hne.symm] at hlast
        refine ⟨hlast, ?_⟩
        rw [intrusionTimes, List.filter_cons_of_neg (by simpa using hne)]
        exact htimes

/-- The event asks for an intrusion event. -/
def asks (config : CVConfig) (event : ZoneEvent) : Bool :=
  decide (event.zoneId ∈ config.intrusionZoneIds ∧ event.eventType = .enter)

variable (config) in
/-- With one event at the key, the detector admits it when it asks and the cooldown is over. -/
theorem checkEvents_at {events : List ZoneEvent} {event : ZoneEvent}
    (h : eventsAt key events = [event]) (lastAlert : ZoneTrack → Option Micros) :
    (IntrusionDetector.checkEvents config events lastAlert).1 key =
      (if asks config event ∧ admits config.intrusionCooldown (lastAlert key) event.timestamp
        then some event.timestamp else lastAlert key) ∧
    intrusionTimes key (IntrusionDetector.checkEvents config events lastAlert).2 =
      (if asks config event ∧ admits config.intrusionCooldown (lastAlert key) event.timestamp
        then [event.timestamp] else []) := by
  induction events generalizing lastAlert with
  | nil => cases h
  | cons first events ih =>
    -- the frame has one event of the key: this one, or one after it
    by_cases heq : (first.zoneId, first.trackId) = key
    · rw [eventsAt, List.filter_cons_of_pos (by simpa using heq)] at h
      obtain ⟨rfl, hrest⟩ := List.cons.inj h
      simp only [IntrusionDetector.checkEvents, heq]
      split
      -- another type of event, or a zone that is not restricted
      · rename_i hskip
        have hasks : ¬ asks config first = true := by
          intro hasks
          have := of_decide_eq_true hasks
          rcases hskip with hzone | htype
          · exact hzone this.1
          · exact htype this.2
        rw [if_neg (fun h => hasks h.1), if_neg (fun h => hasks h.1)]
        exact checkEvents_other config hrest lastAlert
      -- an entry into a restricted zone, so the cooldown decides
      · rename_i hkeep
        have hasks : asks config first = true := by
          refine decide_eq_true ⟨?_, ?_⟩
          · by_contra hzone
            exact hkeep (.inl hzone)
          · by_contra htype
            exact hkeep (.inr htype)
        split
        -- within the cooldown after the last alert
        · rename_i hearly
          obtain ⟨previous, hprevious, hlt⟩ := hearly
          have hrefused : ¬ admits config.intrusionCooldown (lastAlert key)
              first.timestamp = true := by
            rw [Option.mem_def.mp hprevious]
            simpa [admits] using hlt
          rw [if_neg (fun h => hrefused h.2), if_neg (fun h => hrefused h.2)]
          exact checkEvents_other config hrest lastAlert
        -- the cooldown is over, and the time of this alert replaces the last one
        · rename_i hlate
          have hadmits : admits config.intrusionCooldown (lastAlert key)
              first.timestamp = true := by
            cases hlast : lastAlert key with
            | none => rfl
            | some previous =>
              refine decide_eq_true (not_lt.mp fun hlt => ?_)
              exact hlate ⟨previous, hlast, hlt⟩
          obtain ⟨hlast, htimes⟩ := checkEvents_other config hrest
            (Function.update lastAlert key (some first.timestamp))
          rw [Function.update_self] at hlast
          rw [if_pos ⟨hasks, hadmits⟩, if_pos ⟨hasks, hadmits⟩]
          refine ⟨hlast, ?_⟩
          rw [intrusionTimes, List.filter_cons_of_pos (by simpa using heq), List.map_cons]
          exact congrArg (List.cons _) htimes
    -- an event of another key writes the entry of its own key only
    · rw [eventsAt, List.filter_cons_of_neg (by simpa using heq)] at h
      simp only [IntrusionDetector.checkEvents]
      split
      · exact ih h _
      · split
        · exact ih h _
        · obtain ⟨hlast, htimes⟩ := ih h
            (Function.update lastAlert (first.zoneId, first.trackId) (some first.timestamp))
          rw [Function.update_of_ne (Ne.symm heq)] at hlast htimes
          refine ⟨hlast, ?_⟩
          rw [intrusionTimes, List.filter_cons_of_neg (by simpa using heq)]
          exact htimes

/-- The cleanup with the tracks of a frame keeps what `remembered` does. -/
theorem prune_at {retention timestamp : Micros} {active : List Nat} {visit : Visit}
    (hvisit : visit = .absent ↔ key.2 ∉ active) (lastAlert : ZoneTrack → Option Micros) :
    IntrusionDetector.prune (timestamp - retention) (some active) lastAlert key =
      remembered retention timestamp (lastAlert key) visit := by
  show Option.filter _ _ = _
  by_cases habsent : visit = .absent
  · have hmissing := hvisit.mp habsent
    rw [habsent]
    cases lastAlert key with
    | none => rfl
    | some last => simp [Option.filter, remembered, hmissing]
  · have hactive : key.2 ∈ active := by
      by_contra hmissing
      exact habsent (hvisit.mpr hmissing)
    have hkept : remembered retention timestamp (lastAlert key) visit =
        (lastAlert key).filter fun previous => timestamp - retention ≤ previous := by
      cases visit with
      | absent => exact absurd rfl habsent
      | idle => rfl
      | asking => rfl
    rw [hkept]
    cases lastAlert key with
    | none => rfl
    | some last => simp [Option.filter, hactive]

/-- Of the value that is remembered, only the recent part counts. -/
theorem remembered_congr {retention time : Int} {last last' : Option Int} (visit : Visit)
    (h : (last.filter fun previous => time - retention ≤ previous) =
      last'.filter fun previous => time - retention ≤ previous) :
    remembered retention time last visit = remembered retention time last' visit := by
  cases visit with
  | absent => rfl
  | idle => exact h
  | asking => exact h

/-- An old entry is removed before the check. It would not have refused anything. -/
theorem admits_filter {cooldown retention now : Int} (hretention : cooldown ≤ retention)
    (last : Option Int) :
    admits cooldown (last.filter fun previous => now - retention ≤ previous) now =
      admits cooldown last now := by
  cases last with
  | none => rfl
  | some previous =>
    by_cases hrecent : now - retention ≤ previous
    · simp [Option.filter, hrecent]
    · have hle : cooldown ≤ now - previous := by omega
      simp [Option.filter, hrecent, admits, hle]

/-- An alert is retained at least as long as it silences. -/
theorem cooldown_le_retention (config : CVConfig) :
    config.intrusionCooldown ≤ IntrusionDetector.retention config := by
  show config.intrusionCooldown ≤ config.intrusionCooldown + config.intrusionRetentionMargin
  exact Int.le_add_of_nonneg_right config.margin_nonneg

variable (config) in
/-- What `check` does at a key: it admits an event that asks when the cooldown is over. -/
theorem checked_at {events : List ZoneEvent} {now : Micros} {asked : Bool}
    (htime : ∀ event ∈ events, event.timestamp = now)
    (hevents : eventsAt key events = [] ∧ asked = false ∨
      ∃ event, eventsAt key events = [event] ∧ asks config event = asked)
    (lastAlert : ZoneTrack → Option Micros) :
    intrusionTimes key (checked config now lastAlert events).2 =
      (if asked ∧ admits config.intrusionCooldown (lastAlert key) now then [now] else []) ∧
    (((checked config now lastAlert events).1 key).filter fun previous =>
        now - IntrusionDetector.retention config ≤ previous) =
      (if asked ∧ admits config.intrusionCooldown (lastAlert key) now then some now
        else lastAlert key).filter fun previous =>
          now - IntrusionDetector.retention config ≤ previous := by
  cases events with
  | nil =>
    rcases hevents with ⟨-, rfl⟩ | ⟨event, heq, -⟩
    · exact ⟨rfl, rfl⟩
    · cases heq
  | cons first events =>
    let cleaned :=
      IntrusionDetector.prune (now - IntrusionDetector.retention config) none lastAlert
    have hcheck : checked config now lastAlert (first :: events) =
        IntrusionDetector.checkEvents config (first :: events) cleaned := rfl
    -- only entries older than the retention are dropped first
    have hcleaned : cleaned key = (lastAlert key).filter fun previous =>
        now - IntrusionDetector.retention config ≤ previous := by
      show Option.filter _ _ = _
      cases lastAlert key with
      | none => rfl
      | some last => simp [Option.filter]
    -- which could not silence an event any more
    have hadmits : admits config.intrusionCooldown (cleaned key) now =
        admits config.intrusionCooldown (lastAlert key) now := by
      rw [hcleaned]
      exact admits_filter (cooldown_le_retention config) _
    rw [hcheck]
    rcases hevents with ⟨hnone, rfl⟩ | ⟨event, heq, rfl⟩
    · obtain ⟨hlast, htimes⟩ := checkEvents_other config hnone cleaned
      rw [htimes, hlast, hcleaned, Option.filter_filter]
      simp
    -- the event has the time of its frame
    · have hnow : event.timestamp = now := by
        have hmem : event ∈ eventsAt key (first :: events) := heq ▸ List.mem_cons_self
        exact htime event (List.mem_filter.mp hmem).1
      obtain ⟨hlast, htimes⟩ := checkEvents_at config heq cleaned
      rw [hnow, hadmits] at hlast htimes
      refine ⟨htimes, ?_⟩
      rw [hlast, hcleaned]
      split
      · rfl
      · rw [Option.filter_filter]
        simp

end Detector

/-! ### One frame and a run -/

section Frames
variable {contains : Contains} {shape : FrameShape} {now : Micros} {zones : List Zone}

/-- What the detector sees of a track in a frame. -/
def visitOf (memory : Option Memory) : Option Bool → Visit
  | none => .absent
  | some seen => if seen = true ∧ inside memory = false then .asking else .idle

/-- The visits of a run, from what its frames show of the track. -/
def visits (limit : Nat) : Option Memory → List (Micros × Option Bool) → List (Micros × Visit)
  | _, [] => []
  | memory, (time, tick) :: ticks =>
    (time, visitOf memory tick) :: visits limit (Memory.next limit memory tick) ticks

/-- A visit has the time of its frame. -/
theorem visits_times (limit : Nat) (memory : Option Memory)
    (ticks : List (Micros × Option Bool)) :
    (visits limit memory ticks).map Prod.fst = ticks.map Prod.fst := by
  induction ticks generalizing memory with
  | nil => rfl
  | cons tick ticks ih => exact congrArg (List.cons tick.1) (ih _)

/-- The visits that the intrusion detector sees: it raises in the other frames, and changes
nothing. -/
def seenVisits (config : CVConfig) (visits : List (Micros × Visit)) : List (Micros × Visit) :=
  visits.filter fun visit => InRange config visit.1

variable {config : CVConfig} {zone : Zone} {track : Nat}

variable (contains) in
/-- One frame: an entry that comes after the cooldown is an intrusion, and the table keeps what
the forgetful limiter remembers. -/
theorem intrusion_step (frame : FrameInput) {tracked : List TrackedObject}
    (hnodup : (tracked.map TrackedObject.trackId).Nodup) (hzone : zone ∈ config.zones)
    (halerts : zone.id ∈ config.intrusionZoneIds) {analyzer : ZoneAnalyzer}
    {memory : Option Memory} (hmemory : Remembers analyzer (zone.id, track) memory)
    (lastAlert : ZoneTrack → Option Micros) :
    let events := (analyzer.analyze contains frame.shape frame.timestamp config.zones tracked).2
    let visit := visitOf memory (sighting contains zone track (frame, tracked))
    let admitted := visit = .asking ∧
      admits config.intrusionCooldown (lastAlert (zone.id, track)) frame.timestamp = true
    intrusionTimes (zone.id, track) (checked config frame.timestamp lastAlert events).2 =
      (if admitted then [frame.timestamp] else []) ∧
    IntrusionDetector.prune (frame.timestamp - IntrusionDetector.retention config)
        (some (tracked.map TrackedObject.trackId))
        (checked config frame.timestamp lastAlert events).1 (zone.id, track) =
      remembered (IntrusionDetector.retention config) frame.timestamp
        (if admitted then some frame.timestamp else lastAlert (zone.id, track)) visit := by
  intro events visit admitted
  obtain ⟨-, hevents⟩ := analyze_remembers contains frame.timestamp frame hnodup
    config.zones_unique hzone hmemory
  have habsent : visit = .absent ↔ track ∉ tracked.map TrackedObject.trackId := by
    show visitOf memory (sighting contains zone track (frame, tracked)) = .absent ↔ _
    cases hfind : tracked.find? fun item => item.trackId = track with
    | none =>
      have hsight : sighting contains zone track (frame, tracked) = none := by
        simp [sighting, hfind]
      rw [hsight]
      refine ⟨fun _ hmem => ?_, fun _ => rfl⟩
      obtain ⟨item, hitem, heq⟩ := List.mem_map.mp hmem
      simpa [heq] using List.find?_eq_none.mp hfind item hitem
    | some item =>
      have hsight : sighting contains zone track (frame, tracked) =
          some (contains zone frame.shape item.centroid) := by
        simp [sighting, hfind]
      rw [hsight]
      have hmem : track ∈ tracked.map TrackedObject.trackId := by
        have heq : item.trackId = track := by
          simpa using List.find?_some hfind
        exact heq ▸ List.mem_map_of_mem (List.mem_of_find?_eq_some hfind)
      refine ⟨fun h => ?_, fun h => absurd hmem h⟩
      simp only [visitOf] at h
      split at h <;> cases h
  -- the event at the key asks exactly when the track comes into the zone
  have hasked : eventsAt (zone.id, track) events = [] ∧ decide (visit = .asking) = false ∨
      ∃ event, eventsAt (zone.id, track) events = [event] ∧
        asks config event = decide (visit = .asking) := by
    rw [show eventsAt (zone.id, track) events = _ from hevents]
    show _ ∧ decide (visitOf memory (sighting contains zone track (frame, tracked)) = .asking) =
      false ∨ ∃ event, _ ∧ asks config event =
        decide (visitOf memory (sighting contains zone track (frame, tracked)) = .asking)
    cases hfind : tracked.find? fun item => item.trackId = track with
    | none =>
      have hsight : sighting contains zone track (frame, tracked) = none := by
        simp [sighting, hfind]
      rw [hsight]
      exact .inl ⟨rfl, rfl⟩
    | some item =>
      have hsight : sighting contains zone track (frame, tracked) =
          some (contains zone frame.shape item.centroid) := by
        simp [sighting, hfind]
      rw [hsight]
      generalize contains zone frame.shape item.centroid = seen
      by_cases hsame : seen = inside memory
      · refine .inl ⟨by rw [report, if_pos hsame]; rfl, ?_⟩
        cases hinside : inside memory <;> simp [visitOf, hsame, hinside]
      · refine .inr ⟨eventFor zone item frame.timestamp seen, ?_, ?_⟩
        · rw [report, if_neg hsame]
          simp [reportEvent, hfind]
        · cases seen <;> cases hinside : inside memory <;>
            simp_all [visitOf, asks, eventFor]
  obtain ⟨htimes, hkept⟩ := checked_at config
    (analyze_timestamp contains frame.shape frame.timestamp config.zones analyzer tracked)
    hasked lastAlert
  simp only [decide_eq_true_eq] at htimes hkept
  refine ⟨htimes, ?_⟩
  rw [@prune_at (zone.id, track) _ _ _ _ habsent]
  exact remembered_congr visit hkept

/-- A zone without alerts has no intrusions. -/
theorem checkEvents_silent {key : ZoneTrack} (h : key.1 ∉ config.intrusionZoneIds)
    (events : List ZoneEvent) (lastAlert : ZoneTrack → Option Micros) :
    intrusionTimes key (IntrusionDetector.checkEvents config events lastAlert).2 = [] := by
  induction events generalizing lastAlert with
  | nil => rfl
  | cons event events ih =>
    simp only [IntrusionDetector.checkEvents]
    split
    · exact ih _
    · rename_i hkeep
      split
      · exact ih _
      · have hne : (event.zoneId, event.trackId) ≠ key := by
          rintro rfl
          exact hkeep (.inl h)
        rw [intrusionTimes, List.filter_cons_of_neg (by simpa using hne)]
        exact ih _

/-- The times of all intrusions of a zone and a track. -/
def alertTimes (key : ZoneTrack) (results : List AnalyticsResult) : List Micros :=
  results.flatMap fun result => intrusionTimes key result.intrusions

/-- A zone that is not watched has no alerts. -/
theorem alertTimes_silent {key : ZoneTrack} (h : key.1 ∉ config.intrusionZoneIds)
    (entries : List (FrameInput × List TrackedObject)) (analyzer : ZoneAnalyzer)
    (lastAlert : ZoneTrack → Option Micros) :
    alertTimes key (analyses config contains analyzer lastAlert entries) = [] := by
  induction entries generalizing analyzer lastAlert with
  | nil => rfl
  | cons entry entries ih =>
    obtain ⟨frame, tracked⟩ := entry
    simp only [analyses]
    split
    · rw [alertTimes, List.flatMap_cons, ← alertTimes, ih, List.append_nil]
      generalize (analyzer.analyze contains frame.shape frame.timestamp config.zones
        tracked).2 = events
      cases events with
      | nil => rfl
      | cons event events => exact checkEvents_silent h _ _
    · exact ih _ _

variable (contains) in
/-- A run: the intrusions of a zone and a track are those that the forgetful limiter admits. -/
theorem intrusion_times (hzone : zone ∈ config.zones)
    (halerts : zone.id ∈ config.intrusionZoneIds)
    {entries : List (FrameInput × List TrackedObject)}
    (hnodup : ∀ entry ∈ entries, (entry.2.map TrackedObject.trackId).Nodup)
    {analyzer : ZoneAnalyzer} {memory : Option Memory}
    (hmemory : Remembers analyzer (zone.id, track) memory)
    (lastAlert : ZoneTrack → Option Micros) :
    alertTimes (zone.id, track) (analyses config contains analyzer lastAlert entries) =
      forgetful config.intrusionCooldown (IntrusionDetector.retention config)
        (lastAlert (zone.id, track))
        (seenVisits config (visits ZoneAnalyzer.staleAfterFrames memory
          (entries.map fun entry => (entry.1.timestamp, sighting contains zone track entry)))) := by
  -- induction on the frames, with the memory of the analyzer and the table of the alerts
  induction entries generalizing analyzer memory lastAlert with
  | nil => rfl
  | cons entry entries ih =>
    obtain ⟨frame, tracked⟩ := entry
    have hfirst := hnodup _ List.mem_cons_self
    obtain ⟨hnext, -⟩ := analyze_remembers contains frame.timestamp frame hfirst
      config.zones_unique hzone hmemory
    obtain ⟨htimes, hkept⟩ := intrusion_step contains frame hfirst hzone halerts
      hmemory lastAlert
    have hrest := ih (fun entry hentry => hnodup entry (List.mem_cons_of_mem _ hentry)) hnext
    rw [analyses, List.map_cons, visits, seenVisits]
    by_cases hrange : InRange config frame.timestamp
    · rw [if_pos hrange, alertTimes, List.flatMap_cons, ← alertTimes, htimes, hrest, hkept,
        List.filter_cons_of_pos (by simpa using hrange), forgetful]
      by_cases hadmitted : visitOf memory (sighting contains zone track (frame, tracked)) =
          .asking ∧ admits config.intrusionCooldown (lastAlert (zone.id, track))
            frame.timestamp = true
      · rw [if_pos hadmitted, if_pos hadmitted, if_pos hadmitted]
        rfl
      · rw [if_neg hadmitted, if_neg hadmitted, if_neg hadmitted]
        rfl
    · -- the table is as before
      rw [if_neg hrange, List.filter_cons_of_neg (by simpa using hrange)]
      exact hrest lastAlert

end Frames

/-! ### The pipeline -/

section Pipeline
variable {σ : Type} (config : CVConfig) (kalman : Kalman σ) (assign : Assignment)
  (contains : Contains)

/-- The visits of a track in the analysed frames of a run, as the intrusion detector sees them. -/
def trackVisits (zone : Zone) (track : Nat) (frames : List FrameInput) : List (Micros × Visit) :=
  seenVisits config (visits ZoneAnalyzer.staleAfterFrames none
    ((analysed config kalman assign SortTracker.empty 1 frames).map fun entry =>
      (entry.1.timestamp, sighting contains zone track entry)))

/-- The intrusion events of a zone and a track keep the cooldown, exactly when the track does not
enter an intrusion zone again within the cooldown of its last alert after a frame that did not
show it. -/
theorem intrusions_spaced_iff {zone : Zone} (hzone : zone ∈ config.zones) (track : Nat)
    {frames : List FrameInput}
    (hsorted : frames.Pairwise fun earlier later => earlier.timestamp ≤ later.timestamp) :
    Spaced config.intrusionCooldown (alertTimes (zone.id, track)
      ((FramePipeline.new : FramePipeline σ).results config kalman assign contains frames)) ↔
    (zone.id ∈ config.intrusionZoneIds → lapses config.intrusionCooldown none false
      (trackVisits config kalman assign contains zone track frames) = false) := by
  have hmemory : Remembers ZoneAnalyzer.new (zone.id, track) none := ⟨rfl, rfl⟩
  rw [results_eq]
  show Spaced _ (alertTimes _ (analyses config contains ZoneAnalyzer.new (fun _ => none)
    (analysed config kalman assign SortTracker.empty 1 frames))) ↔ _
  -- a zone that is not watched has no alerts, which are spaced
  by_cases halerts : zone.id ∈ config.intrusionZoneIds
  · have htimes := intrusion_times contains hzone halerts
      (analysed_nodup config kalman assign (numbered_empty 1) frames) hmemory fun _ => none
    rw [htimes]
    -- the visits are in the order of the frames
    have hvisits : (trackVisits config kalman assign contains zone track frames).Pairwise
        fun earlier later => earlier.1 ≤ later.1 := by
      have hframes := (analysed_sublist config kalman assign SortTracker.empty 1 frames).map
        FrameInput.timestamp
      have hpairwise : (frames.map FrameInput.timestamp).Pairwise (· ≤ ·) :=
        List.pairwise_map.mpr hsorted
      refine List.Pairwise.filter _ (List.pairwise_map.mp ?_)
      rw [visits_times, List.map_map]
      rw [List.map_map] at hframes
      exact hpairwise.sublist hframes
    exact (spaced_iff config.cooldown_nonneg (cooldown_le_retention config) _ hvisits).trans
      ⟨fun h _ => h, fun h => h halerts⟩
  · have hnone : alertTimes (zone.id, track) (analyses config contains ZoneAnalyzer.new
        (fun _ => none) (analysed config kalman assign SortTracker.empty 1 frames)) = [] :=
      alertTimes_silent halerts _ _ _
    rw [hnone]
    exact ⟨fun _ h => absurd h halerts, fun _ => List.Pairwise.nil⟩

end Pipeline

/-! ### A track that the table forgets within the cooldown -/

/-- A zone at the left edge of the frame. -/
def edgeZone : Zone := ⟨"edge", "Edge", [(0, 0), (6, 0), (6, 480), (0, 480)], false⟩

/-- The defaults of `CVConfig`, with an intrusion zone. -/
def edgeConfig : CVConfig where
  zones := [edgeZone]
  intrusionZoneIds := ["edge"]
  intrusionCooldown := 5000000
  intrusionRetentionMargin := 60000000
  tracker := exampleSort
  zones_unique := List.nodup_singleton _
  intrusion_configured := by decide
  cooldown_nonneg := patientConfig.cooldown_nonneg
  margin_nonneg := patientConfig.margin_nonneg

/-- A point is in the zone at the left edge. -/
def inEdge : Contains := fun _ _ point => decide (point.1 ≤ 6)

def stepBox : BBox := ⟨⟨3, 0, 13, 20⟩, by decide, by decide, by decide, by decide⟩

/-- The person after a step out of the zone. -/
def steppedPerson : Detection := ⟨stepBox, fullScore, 0, "person"⟩

/-- A person in the zone steps out for two seconds, is not detected once, and is in the zone
again. -/
def stepOut : List FrameInput :=
  [exampleFrame 0 [examplePerson], exampleFrame 1 [steppedPerson], exampleFrame 2 [steppedPerson],
    exampleFrame 3 [], exampleFrame 4 [examplePerson]]

/-- The square root in millionths, rounded down. In these frames every root is that of 100. -/
def decimalSqrt (x : Rat) : Rat := Nat.sqrt ⌊x * 1000000 ^ 2⌋₊ / 1000000

/-- The filter of the tracker. -/
def trackerFilter : Kalman FilterState := constantVelocity decimalSqrt

/-- The second alert comes four seconds after the first. The filter follows the step, drifts on
while the person is not detected, and still overlaps the person in the last frame. -/
theorem stepOut_alerts_twice : ¬ Spaced edgeConfig.intrusionCooldown (alertTimes ("edge", 1)
    (FramePipeline.new.results edgeConfig trackerFilter diagonal inEdge stepOut)) := by
  have htimes : alertTimes ("edge", 1)
      (FramePipeline.new.results edgeConfig trackerFilter diagonal inEdge stepOut) =
      [0, 4000000] := by
    decide +kernel
  rw [htimes]
  intro h
  exact absurd ((List.pairwise_cons.mp h).1 4000000 List.mem_cons_self) (by decide)

/-- Without the frame that does not show the person there is one alert. -/
theorem seen_alerts_once : Spaced edgeConfig.intrusionCooldown (alertTimes (edgeZone.id, 1)
    (FramePipeline.new.results edgeConfig trackerFilter diagonal inEdge (stepOut.eraseIdx 3))) :=
  (intrusions_spaced_iff edgeConfig trackerFilter diagonal inEdge List.mem_cons_self 1
    (by decide)).mpr fun _ => by decide +kernel

end Rsap.Proofs
