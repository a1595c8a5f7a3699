import Mathlib.Algebra.BigOperators.Group.Finset.Piecewise
import Mathlib.Algebra.BigOperators.Ring.Finset
import Mathlib.Algebra.Order.BigOperators.Group.Finset
import Mathlib.Tactic.Linarith
import Rsap.Cv.PeopleCounter
import Rsap.Library.Machine
import Rsap.Library.Spans

/-!
# `Rsap.Proofs.PeopleCounts`: the counts of a people counter balance

A track has a lifetime as long as its state is retained. `CounterWorld` records for each track what
is retained after each call, so the lifetimes are the spans of this history
(`Rsap.Library.Spans`).

`update_move` says what one call does to one track: it is gone, stays on its side, appears, or
crosses with one event. From it follow the alternation within a lifetime and the balance: an event
changes the difference of the counts by one and the side of its track by two.
-/

set_option autoImplicit false

namespace Rsap.Proofs

open Rsap.Library
open Rsap.Library.Machine (Reachable Any)
open Rsap.Cv
open Rsap.Cv.PeopleCounter (visit visitAll inDeadBand)

/-! ### One call and one track -/

/-- The directions of the events of a track. -/
def directionsOf (track : Nat) (events : List CountEvent) : List CountDirection :=
  (events.filter fun event => event.trackId = track).map CountEvent.direction

/-- A side of the line. -/
def IsSide (side : Int) : Prop := side = 1 ∨ side = -1

/-- The direction from one side to the other. -/
def crossing (before after : Int) : CountDirection :=
  if before < after then .inward else .outward

/-- What a call does to a track, with the directions of its events. -/
inductive TrackMove : Option TrackState → Option TrackState → List CountDirection → Prop where
  | gone (before : Option TrackState) : TrackMove before none []
  | stayed {before after : TrackState} : before.stableSide = after.stableSide →
      TrackMove (some before) (some after) []
  | appeared {after : TrackState} : IsSide after.stableSide → TrackMove none (some after) []
  | crossed {before after : TrackState} : IsSide after.stableSide →
      before.stableSide ≠ after.stableSide →
      TrackMove (some before) (some after) [crossing before.stableSide after.stableSide]

/-- A track that is left alone has no events. -/
theorem TrackMove.refl (state : Option TrackState) : TrackMove state state [] := by
  cases state with
  | none => exact .gone none
  | some state => exact .stayed rfl

section Loop
variable {config : CounterConfig} {start stop : Point} {now : Micros} {counter : PeopleCounter}
  {item : TrackedObject} {track : Nat}

/-- A point is on one side of the line or the other. -/
theorem isSide_side (point start stop : Point) : IsSide (PeopleCounter.side point start stop) := by
  unfold PeopleCounter.side
  split
  · exact .inl rfl
  · exact .inr rfl

/-- What the body of the loop does with an item. -/
inductive VisitCases (counter : PeopleCounter) (item : TrackedObject) (now : Micros) :
    PeopleCounter × List CountEvent → Prop where
  | ignored : VisitCases counter item now (counter, [])
  | seen {state : TrackState} : counter.trackStates item.trackId = some state →
      VisitCases counter item now
        (counter.setTrack item.trackId { state with lastSeenFrame := counter.frameIndex }, [])
  | appeared {side : Int} : counter.trackStates item.trackId = none → IsSide side →
      VisitCases counter item now (counter.setTrack item.trackId ⟨side, counter.frameIndex⟩, [])
  | crossed {state : TrackState} {side : Int} : counter.trackStates item.trackId = some state →
      IsSide side → state.stableSide ≠ side →
      VisitCases counter item now
        ((counter.setTrack item.trackId ⟨side, counter.frameIndex⟩).count
          (crossing state.stableSide side),
        [⟨item.trackId, crossing state.stableSide side, now⟩])

/-- Inversion of the body of the loop: the item is passed over, its track is new, or it is
written, with a crossing or without. -/
theorem visit_cases (config : CounterConfig) (start stop : Point) (now : Micros)
    (counter : PeopleCounter) (item : TrackedObject) :
    VisitCases counter item now (visit config start stop now counter item) := by
  -- in the order of the loop: out of the line's reach, too close to it, new, on the same side,
  -- crossed
  unfold visit
  split
  · exact .ignored
  · split
    · split
      · rename_i state hstate
        exact .seen hstate
      · exact .ignored
    · dsimp only
      have hside := isSide_side item.centroid start stop
      generalize PeopleCounter.side item.centroid start stop = side at hside ⊢
      split
      · rename_i hnone
        exact .appeared hnone hside
      · rename_i state hstate
        split
        · rename_i hsame
          rw [← hsame]
          exact .seen hstate
        · rename_i hne
          exact .crossed hstate hside hne

/-- What the loop does to one track: it leaves it alone, or it writes it and marks it as seen in
this frame. -/
def LoopMove (frameIndex : Nat) (before after : Option TrackState)
    (directions : List CountDirection) : Prop :=
  (after = before ∧ directions = []) ∨
    (TrackMove before after directions ∧ ∀ s, after = some s → s.lastSeenFrame = frameIndex)

/-- One item moves its own track. -/
theorem VisitCases.move {result : PeopleCounter × List CountEvent}
    (h : VisitCases counter item now result) :
    LoopMove counter.frameIndex (counter.trackStates item.trackId)
      (result.1.trackStates item.trackId) (directionsOf item.trackId result.2) := by
  cases h with
  | ignored => exact .inl ⟨rfl, rfl⟩
  | seen hstate =>
    refine .inr ?_
    rw [hstate, PeopleCounter.setTrack_self]
    exact ⟨.stayed rfl, fun s hs => by cases hs; rfl⟩
  | appeared hnone hside =>
    refine .inr ?_
    rw [hnone, PeopleCounter.setTrack_self]
    exact ⟨.appeared hside, fun s hs => by cases hs; rfl⟩
  | @crossed state side hstate hside hne =>
    refine .inr ?_
    have hdirections : directionsOf item.trackId
        [⟨item.trackId, crossing state.stableSide side, now⟩] =
          [crossing state.stableSide side] := by
      simp [directionsOf]
    rw [hstate, hdirections, PeopleCounter.count_trackStates, PeopleCounter.setTrack_self]
    exact ⟨@TrackMove.crossed state ⟨side, _⟩ hside hne, fun s hs => by cases hs; rfl⟩

/-- One item touches no other track. -/
theorem VisitCases.other {result : PeopleCounter × List CountEvent}
    (h : VisitCases counter item now result) (hne : track ≠ item.trackId) :
    result.1.trackStates track = counter.trackStates track := by
  cases h with
  | ignored => rfl
  | seen | appeared => exact PeopleCounter.setTrack_of_ne _ _ hne
  | crossed =>
    rw [PeopleCounter.count_trackStates]
    exact PeopleCounter.setTrack_of_ne _ _ hne

/-- An item does not advance the frame number. -/
theorem VisitCases.frameIndex {result : PeopleCounter × List CountEvent}
    (h : VisitCases counter item now result) : result.1.frameIndex = counter.frameIndex := by
  cases h with
  | ignored | seen | appeared => rfl
  | crossed => exact PeopleCounter.count_frameIndex _ _

/-- An event is about the track of its item. -/
theorem VisitCases.trackId {result : PeopleCounter × List CountEvent}
    (h : VisitCases counter item now result) :
    ∀ event ∈ result.2, event.trackId = item.trackId := by
  cases h with
  | ignored | seen | appeared => exact fun event hevent => absurd hevent List.not_mem_nil
  | crossed =>
    intro event hevent
    rw [List.mem_singleton.mp hevent]

/-- The number of events in a direction. -/
def inDirection (direction : CountDirection) (events : List CountEvent) : Nat :=
  events.countP fun event => event.direction = direction

/-- The counts go up with the events. -/
theorem VisitCases.counts {result : PeopleCounter × List CountEvent}
    (h : VisitCases counter item now result) :
    result.1.countIn = counter.countIn + inDirection .inward result.2 ∧
      result.1.countOut = counter.countOut + inDirection .outward result.2 := by
  cases h with
  | ignored | seen | appeared => exact ⟨rfl, rfl⟩
  | @crossed state side =>
    unfold crossing
    split <;> exact ⟨rfl, rfl⟩

/-- The events of a track in two lists are those of the one and then of the other. -/
theorem directionsOf_append (track : Nat) (events events' : List CountEvent) :
    directionsOf track (events ++ events') =
      directionsOf track events ++ directionsOf track events' := by
  simp [directionsOf]

/-- Events of other tracks are none of this one. -/
theorem directionsOf_other {events : List CountEvent}
    (h : ∀ event ∈ events, event.trackId ≠ track) :
    directionsOf track events = [] := by
  simpa [directionsOf] using h

/-- Events are counted list by list. -/
theorem inDirection_append (direction : CountDirection) (events events' : List CountEvent) :
    inDirection direction (events ++ events') =
      inDirection direction events + inDirection direction events' :=
  List.countP_append

/-- What the loop does with the objects of a frame. -/
structure LoopResult (counter : PeopleCounter) (tracked : List TrackedObject)
    (result : PeopleCounter × List CountEvent) : Prop where
  frameIndex : result.1.frameIndex = counter.frameIndex
  other : ∀ track ∉ tracked.map TrackedObject.trackId,
    result.1.trackStates track = counter.trackStates track
  move : ∀ track, LoopMove counter.frameIndex (counter.trackStates track)
    (result.1.trackStates track) (directionsOf track result.2)
  trackId : ∀ event ∈ result.2, event.trackId ∈ tracked.map TrackedObject.trackId
  countIn : result.1.countIn = counter.countIn + inDirection .inward result.2
  countOut : result.1.countOut = counter.countOut + inDirection .outward result.2

/-- What the loop does, by induction on the objects: distinct objects write distinct tracks. -/
theorem visitAll_result (config : CounterConfig) (start stop : Point) (now : Micros)
    {tracked : List TrackedObject} (hnodup : (tracked.map TrackedObject.trackId).Nodup)
    (counter : PeopleCounter) :
    LoopResult counter tracked (visitAll config start stop now counter tracked) := by
  -- each track occurs once, so its move is that of its own visit
  induction tracked generalizing counter with
  | nil =>
    exact ⟨rfl, fun _ _ => rfl, fun _ => .inl ⟨rfl, rfl⟩,
      fun event hevent => absurd hevent List.not_mem_nil, rfl, rfl⟩
  | cons item tracked ih =>
    obtain ⟨hnew, hrest⟩ := List.nodup_cons.mp hnodup
    have hvisit := visit_cases config start stop now counter item
    have hloop := ih hrest (visit config start stop now counter item).1
    have hall : visitAll config start stop now counter (item :: tracked) =
        ((visitAll config start stop now (visit config start stop now counter item).1 tracked).1,
          (visit config start stop now counter item).2 ++
            (visitAll config start stop now (visit config start stop now counter item).1
              tracked).2) := rfl
    rw [hall]
    generalize visit config start stop now counter item = first at hvisit hloop ⊢
    generalize visitAll config start stop now first.1 tracked = rest at hloop ⊢
    constructor
    case frameIndex => exact hloop.frameIndex.trans hvisit.frameIndex
    case other =>
      intro track hout
      rw [List.map_cons, List.mem_cons, not_or] at hout
      exact (hloop.other track hout.2).trans (hvisit.other hout.1)
    -- the visit of the track, or the rest of the loop
    case move =>
      intro track
      show LoopMove _ _ _ (directionsOf track (first.2 ++ rest.2))
      rw [directionsOf_append]
      by_cases hown : track = item.trackId
      · -- the rest of the loop does not see the track again
        subst hown
        have hnone : directionsOf item.trackId rest.2 = [] :=
          directionsOf_other fun event hevent heq => hnew (heq ▸ hloop.trackId event hevent)
        rw [hloop.other _ hnew, hnone, List.append_nil]
        exact hvisit.move
      · have hnone : directionsOf track first.2 = [] :=
          directionsOf_other fun event hevent heq =>
            hown (heq.symm.trans (hvisit.trackId event hevent))
        rw [hnone, List.nil_append, ← hvisit.other hown, ← hvisit.frameIndex]
        exact hloop.move track
    case trackId =>
      intro event hevent
      rcases List.mem_append.mp hevent with hevent | hevent
      · rw [hvisit.trackId event hevent]
        exact List.mem_cons_self
      · exact List.mem_cons_of_mem _ (hloop.trackId event hevent)
    case countIn =>
      show rest.1.countIn = _ + inDirection .inward (first.2 ++ rest.2)
      rw [hloop.countIn, hvisit.counts.1, inDirection_append, Nat.add_assoc]
    case countOut =>
      show rest.1.countOut = _ + inDirection .outward (first.2 ++ rest.2)
      rw [hloop.countOut, hvisit.counts.2, inDirection_append, Nat.add_assoc]

/-- The events of a call. A call that raises has none. -/
def eventsOf (result : Option CountUpdate) : List CountEvent :=
  (result.map CountUpdate.events).getD []

/-- The cleanup after the loop does not remove a track that the loop wrote. -/
theorem LoopMove.cleanup {before middle : Option TrackState} {directions : List CountDirection}
    {frameIndex : Nat} (h : LoopMove frameIndex before middle directions) (stale : Nat) :
    TrackMove before
      (middle.filter fun state => ¬ stale < frameIndex - state.lastSeenFrame) directions := by
  rcases h with ⟨rfl, rfl⟩ | ⟨hmove, hseen⟩
  · cases hfilter : Option.filter _ middle with
    | none => exact .gone middle
    | some state =>
      rw [(Option.filter_eq_some_iff.mp hfilter).1]
      exact .stayed rfl
  · cases middle with
    | none => exact hmove
    | some state =>
      rw [Option.filter_some, hseen state rfl, if_pos (by simp)]
      exact hmove

/-- What a call of `update` does. -/
structure UpdateResult (counter : PeopleCounter) (frame : CounterFrame)
    (result : PeopleCounter × Option CountUpdate) : Prop where
  move : ∀ track, TrackMove (counter.trackStates track) (result.1.trackStates track)
    (directionsOf track (eventsOf result.2))
  other : ∀ track ∉ frame.tracked.map TrackedObject.trackId, counter.trackStates track = none →
    result.1.trackStates track = none
  trackId : ∀ event ∈ eventsOf result.2, event.trackId ∈ frame.tracked.map TrackedObject.trackId
  countIn : result.1.countIn = counter.countIn + inDirection .inward (eventsOf result.2)
  countOut : result.1.countOut = counter.countOut + inDirection .outward (eventsOf result.2)

/-- What a call does: the loop, and then the cleanup. -/
theorem update_result (config : CounterConfig) (counter : PeopleCounter) {frame : CounterFrame}
    (hnodup : (frame.tracked.map TrackedObject.trackId).Nodup) :
    UpdateResult counter frame (PeopleCounter.update config counter frame) := by
  -- a disabled counter, or one without a line, only counts the frame
  have hquiet : ∀ result : Option CountUpdate, eventsOf result = [] →
      UpdateResult counter frame
        ({ counter with frameIndex := counter.frameIndex + 1 }, result) := by
    intro result hnone
    refine ⟨fun track => ?_, fun _ _ h => h, ?_, ?_, ?_⟩
    · rw [hnone]
      exact .refl _
    · rw [hnone]
      exact fun event hevent => absurd hevent List.not_mem_nil
    · rw [hnone]
      rfl
    · rw [hnone]
      rfl
  unfold PeopleCounter.update
  dsimp only
  split
  · exact hquiet _ rfl
  · split
    · exact hquiet _ rfl
    · rename_i line _ _
      -- the loop over the frame, and then the cleanup of the stale tracks
      have hloop := visitAll_result config (PeopleCounter.pixelLine line frame.shape).1
        (PeopleCounter.pixelLine line frame.shape).2 frame.timestamp hnodup
        { counter with frameIndex := counter.frameIndex + 1 }
      refine ⟨fun track => ?_, fun track hout hnone => ?_, hloop.trackId, hloop.countIn,
        hloop.countOut⟩
      · have hmove := (hloop.move track).cleanup config.staleAfterFrames
        rw [← hloop.frameIndex] at hmove
        exact hmove
      · show Option.filter _ _ = none
        rw [hloop.other track hout]
        show Option.filter _ (counter.trackStates track) = none
        rw [hnone]
        rfl

end Loop

/-! ### Runs -/

/-- A counter with its history: what it retained of each track after each call, with the directions
of the events of the call, the newest first. -/
structure CounterWorld where
  counter : PeopleCounter
  sightings : Nat → List (Option (Int × List CountDirection))
  tracks : Finset Nat
  events : List CountEvent

/-- The history after a call of `update`. -/
def CounterWorld.update (config : CounterConfig) (w : CounterWorld) (frame : CounterFrame) :
    CounterWorld :=
  let result := PeopleCounter.update config w.counter frame
  { counter := result.1
    sightings := fun track =>
      (result.1.trackStates track).map (fun state =>
        (state.stableSide, directionsOf track (eventsOf result.2))) :: w.sightings track
    tracks := w.tracks ∪ (frame.tracked.map TrackedObject.trackId).toFinset
    events := w.events ++ eventsOf result.2 }

/-- A new counter, and calls of `update`. -/
def counterMachine (config : CounterConfig) : Machine CounterWorld CounterFrame where
  init := ⟨.new, fun _ => [], ∅, []⟩
  step w frame := some (w.update config frame)

/-- The tracks of a frame are distinct. -/
def DistinctTracks (_ : CounterWorld) (frame : CounterFrame) : Prop :=
  (frame.tracked.map TrackedObject.trackId).Nodup

instance (w : CounterWorld) (frame : CounterFrame) : Decidable (DistinctTracks w frame) :=
  inferInstanceAs (Decidable (List.Nodup _))

/-- The lifetimes of a track so far: its sides and its events, call by call, the newest first. -/
def lifetimes (w : CounterWorld) (track : Nat) : List (List (Int × List CountDirection)) :=
  spans (w.sightings track)

/-- The directions of the events in a lifetime. -/
def turns (lifetime : List (Int × List CountDirection)) : List CountDirection :=
  lifetime.flatMap Prod.snd

/-- The directions in a lifetime alternate. The last one leads to the current side. -/
structure Turning (lifetime : List (Int × List CountDirection)) : Prop where
  sides : ∀ seen ∈ lifetime, IsSide seen.1
  chain : (turns lifetime).IsChain (· ≠ ·)
  last : ∀ seen, lifetime.head? = some seen → ∀ direction, (turns lifetime).head? = some direction →
    (direction = .inward ↔ seen.1 = 1)

/-- The difference of the counts. -/
def difference (counter : PeopleCounter) : Int := counter.countIn - counter.countOut

structure Balanced (w : CounterWorld) : Prop where
  current : ∀ track, (newest (w.sightings track)).map Prod.fst =
    (w.counter.trackStates track).map TrackState.stableSide
  unseen : ∀ track ∉ w.tracks, lifetimes w track = [] ∧ w.counter.trackStates track = none
  turning : ∀ track, ∀ lifetime ∈ lifetimes w track, Turning lifetime
  total : w.counter.countIn + w.counter.countOut = w.events.length
  balance : 2 * difference w.counter =
    ∑ track ∈ w.tracks, ((lifetimes w track).map (swing Prod.fst)).sum

/-- Which way a direction changes the difference. -/
def sign : CountDirection → Int
  | .inward => 1
  | .outward => -1

/-- The signs of the events add up to the difference of their counts. -/
theorem sum_sign (events : List CountEvent) :
    (events.map fun event => sign event.direction).sum =
      inDirection .inward events - inDirection .outward events := by
  induction events with
  | nil => rfl
  | cons event events ih =>
    rw [List.map_cons, List.sum_cons, ih]
    cases hdirection : event.direction <;> simp [inDirection, sign, hdirection] <;> omega

/-- Every event goes in or out. -/
theorem length_directions (events : List CountEvent) :
    inDirection .inward events + inDirection .outward events = events.length := by
  induction events with
  | nil => rfl
  | cons event events ih =>
    rw [List.length_cons, ← ih]
    cases hdirection : event.direction <;> simp [inDirection, hdirection] <;> omega

/-- The sum over the events, track by track. -/
theorem sum_sign_tracks {events : List CountEvent} {tracks : Finset Nat}
    (h : ∀ event ∈ events, event.trackId ∈ tracks) :
    (events.map fun event => sign event.direction).sum =
      ∑ track ∈ tracks, ((directionsOf track events).map sign).sum := by
  induction events with
  | nil => simp [directionsOf]
  | cons event events ih =>
    obtain ⟨hevent, hrest⟩ := List.forall_mem_cons.mp h
    have hone : ∀ track, ((directionsOf track (event :: events)).map sign).sum =
        (if track = event.trackId then sign event.direction else 0) +
          ((directionsOf track events).map sign).sum := by
      intro track
      by_cases heq : event.trackId = track
      · simp [directionsOf, heq]
      · simp [directionsOf, heq, Ne.symm heq]
    rw [List.map_cons, List.sum_cons, ih hrest, Finset.sum_congr rfl fun track _ => hone track,
      Finset.sum_add_distrib, Finset.sum_ite_eq', if_pos hevent]

/-- From one side to the other the side changes by two. -/
theorem crossing_sign {a b : Int} (ha : IsSide a) (hb : IsSide b) (hne : a ≠ b) :
    b - a = 2 * sign (crossing a b) := by
  rcases ha with rfl | rfl <;> rcases hb with rfl | rfl
  · exact absurd rfl hne
  · rfl
  · rfl
  · exact absurd rfl hne

/-- A move changes the side by twice the signs of its events. -/
theorem TrackMove.gain {before after : Option TrackState} {directions : List CountDirection}
    (h : TrackMove before after directions) (hbefore : ∀ s, before = some s → IsSide s.stableSide)
    {o : Option (Int × List CountDirection)}
    (ho : o.map Prod.fst = before.map TrackState.stableSide) :
    gain Prod.fst o (after.map fun state => (state.stableSide, directions)) =
      2 * (directions.map sign).sum := by
  cases h with
  | gone => cases o <;> rfl
  | @stayed before after hsame =>
    obtain ⟨seen, rfl, hseen⟩ := Option.map_eq_some_iff.mp ho
    show after.stableSide - seen.1 = 0
    omega
  | appeared =>
    obtain rfl : o = none := Option.map_eq_none_iff.mp ho
    rfl
  | @crossed before after hside hne =>
    obtain ⟨seen, rfl, hseen⟩ := Option.map_eq_some_iff.mp ho
    have hsign := crossing_sign (hbefore before rfl) hside hne
    show after.stableSide - seen.1 = 2 * (sign _ + 0)
    omega

/-- A track without events has nothing to alternate. -/
theorem turning_new {side : Int} (h : IsSide side) : Turning [(side, [])] := by
  refine ⟨fun seen hseen => ?_, List.IsChain.nil, fun seen _ direction hdirection => ?_⟩
  · rw [List.mem_singleton.mp hseen]
    exact h
  · cases hdirection

/-- A track that stays or crosses goes on alternating. -/
theorem Turning.move {seen : Int × List CountDirection} {span : List (Int × List CountDirection)}
    {before after : TrackState} {directions : List CountDirection} (h : Turning (seen :: span))
    (hseen : seen.1 = before.stableSide)
    (hmove : TrackMove (some before) (some after) directions) :
    Turning ((after.stableSide, directions) :: seen :: span) := by
  have hside : IsSide before.stableSide := hseen ▸ h.sides seen List.mem_cons_self
  cases hmove with
  | stayed hsame =>
    refine ⟨List.forall_mem_cons.mpr ⟨hsame ▸ hside, h.sides⟩, h.chain, ?_⟩
    intro seen' hseen' direction hdirection
    cases hseen'
    rw [h.last seen rfl direction hdirection, hseen]
    exact Eq.congr_left hsame
  | crossed hafter hne =>
    refine ⟨List.forall_mem_cons.mpr ⟨hafter, h.sides⟩, ?_, ?_⟩
    · refine List.isChain_cons.mpr ⟨fun direction hdirection heq => ?_, h.chain⟩
      -- the last event led to the side before, and this one leads away from it
      have hlast := h.last seen rfl direction hdirection
      rw [hseen] at hlast
      rcases hside with hb | hb <;> rcases hafter with ha | ha <;>
        simp [← heq, crossing, hb, ha] at hlast hne
    · intro seen' hseen' direction hdirection
      cases hseen'
      cases hdirection
      rcases hside with hb | hb <;> rcases hafter with ha | ha <;>
        simp [crossing, hb, ha] at hne ⊢

/-- What the counter retains of a track is the newest observation of its newest lifetime. -/
theorem Balanced.retained {w : CounterWorld} (h : Balanced w) {track : Nat} {state : TrackState}
    (hstate : w.counter.trackStates track = some state) :
    ∃ seen span older, newest (w.sightings track) = some seen ∧ seen.1 = state.stableSide ∧
      lifetimes w track = (seen :: span) :: older ∧ Turning (seen :: span) := by
  have hcurrent := h.current track
  rw [hstate] at hcurrent
  obtain ⟨seen, hseen, hside⟩ := Option.map_eq_some_iff.mp hcurrent
  obtain ⟨span, older, hspans⟩ := spans_of_newest hseen
  refine ⟨seen, span, older, hseen, hside, hspans, h.turning track _ ?_⟩
  rw [lifetimes, hspans]
  exact List.mem_cons_self

/-- Every retained track is on a side. -/
theorem Balanced.side {w : CounterWorld} (h : Balanced w) (track : Nat) :
    ∀ state, w.counter.trackStates track = some state → IsSide state.stableSide := by
  intro state hstate
  obtain ⟨seen, span, older, -, hside, -, hturning⟩ := h.retained hstate
  exact hside ▸ hturning.sides seen List.mem_cons_self

/-- A call makes the lifetimes of a track longer or begins a new one, and both alternate. -/
theorem turning_update (config : CounterConfig) {w : CounterWorld} {frame : CounterFrame}
    (hnodup : (frame.tracked.map TrackedObject.trackId).Nodup) (h : Balanced w) (track : Nat) :
    ∀ lifetime ∈ lifetimes (w.update config frame) track, Turning lifetime := by
  have hmove := (update_result config w.counter hnodup).move track
  refine forall_spans_cons _ (h.turning track) ?_ ?_
  · intro b hb hnewest
    obtain ⟨after, hafter, rfl⟩ := Option.map_eq_some_iff.mp hb
    have hbefore : w.counter.trackStates track = none := by
      have hcurrent := h.current track
      rw [hnewest] at hcurrent
      exact Option.map_eq_none_iff.mp hcurrent.symm
    rw [hbefore, hafter] at hmove
    generalize directionsOf track _ = directions at hmove ⊢
    cases hmove with
    | appeared hside => exact turning_new hside
  · intro a b span hb hnewest hturning
    obtain ⟨after, hafter, rfl⟩ := Option.map_eq_some_iff.mp hb
    have hcurrent := h.current track
    rw [hnewest] at hcurrent
    obtain ⟨before, hbefore, hside⟩ := Option.map_eq_some_iff.mp hcurrent.symm
    rw [hbefore, hafter] at hmove
    exact hturning.move hside.symm hmove

/-- The difference of the counts changes by the signs of the events. -/
theorem UpdateResult.difference {counter : PeopleCounter} {frame : CounterFrame}
    {result : PeopleCounter × Option CountUpdate} (h : UpdateResult counter frame result) :
    difference result.1 = difference counter +
      ((eventsOf result.2).map fun event => sign event.direction).sum := by
  have hin := h.countIn
  have hout := h.countOut
  rw [sum_sign]
  unfold Proofs.difference
  omega

/-- A call of `update` keeps the balance. A track goes on with its lifetime, begins one or loses
it, and counts and turns change by the same events. -/
theorem balanced_step (config : CounterConfig) {w : CounterWorld} {frame : CounterFrame}
    (hnodup : (frame.tracked.map TrackedObject.trackId).Nodup) (h : Balanced w) :
    Balanced (w.update config frame) := by
  have hresult := update_result config w.counter hnodup
  have hknown : ∀ track ∉ w.tracks ∪ (frame.tracked.map TrackedObject.trackId).toFinset,
      track ∉ w.tracks ∧ track ∉ frame.tracked.map TrackedObject.trackId := by
    intro track hout
    rwa [Finset.mem_union, List.mem_toFinset, not_or] at hout
  constructor
  case current =>
    intro track
    show Option.map Prod.fst (Option.map _ _) = _
    rw [Option.map_map]
    rfl
  case unseen =>
    intro track hout
    obtain ⟨hold, hframe⟩ := hknown track hout
    obtain ⟨hspans, hnone⟩ := h.unseen track hold
    have hafter := hresult.other track hframe hnone
    refine ⟨?_, hafter⟩
    show spans (Option.map _ ((PeopleCounter.update config w.counter frame).1.trackStates track) ::
      w.sightings track) = []
    rw [hafter]
    exact hspans
  case turning => exact turning_update config hnodup h
  case total =>
    have hlength := length_directions (eventsOf (PeopleCounter.update config w.counter frame).2)
    have htotal := h.total
    have hin := hresult.countIn
    have hout := hresult.countOut
    show (PeopleCounter.update config w.counter frame).1.countIn +
      (PeopleCounter.update config w.counter frame).1.countOut =
        (w.events ++ eventsOf (PeopleCounter.update config w.counter frame).2).length
    rw [List.length_append]
    omega
  case balance =>
    let tracks := w.tracks ∪ (frame.tracked.map TrackedObject.trackId).toFinset
    have hevents : ∀ event ∈ eventsOf (PeopleCounter.update config w.counter frame).2,
        event.trackId ∈ tracks := fun event hevent =>
      Finset.mem_union_right _ (List.mem_toFinset.mpr (hresult.trackId event hevent))
    -- the lifetimes of the tracks that are new have no change so far
    have hold : ∑ track ∈ tracks, ((lifetimes w track).map (swing Prod.fst)).sum =
        2 * difference w.counter := by
      rw [h.balance]
      refine (Finset.sum_subset Finset.subset_union_left fun track _ hnew => ?_).symm
      rw [(h.unseen track hnew).1]
      rfl
    have hgain : ∀ track, ((lifetimes (w.update config frame) track).map (swing Prod.fst)).sum =
        ((lifetimes w track).map (swing Prod.fst)).sum +
          2 * ((directionsOf track
            (eventsOf (PeopleCounter.update config w.counter frame).2)).map sign).sum := by
      intro track
      rw [← (hresult.move track).gain (h.side track) (h.current track)]
      exact sum_swing_cons Prod.fst _ _
    show 2 * difference (PeopleCounter.update config w.counter frame).1 =
      ∑ track ∈ tracks, ((lifetimes (w.update config frame) track).map (swing Prod.fst)).sum
    rw [Finset.sum_congr rfl fun track _ => hgain track, Finset.sum_add_distrib, hold,
      ← Finset.mul_sum, ← sum_sign_tracks hevents, hresult.difference]
    omega

/-- The balance holds after any sequence of calls. -/
theorem balanced_run {config : CounterConfig} {w : CounterWorld}
    (h : Reachable (counterMachine config) DistinctTracks w) : Balanced w := by
  refine h.invariant ?_ fun w frame w' _ hok hstep hI => ?_
  · exact ⟨fun _ => rfl, fun _ _ => ⟨rfl, rfl⟩,
      fun _ lifetime hl => absurd hl List.not_mem_nil, rfl,
      rfl⟩
  · cases hstep
    exact balanced_step config hok hI

/-- A lifetime changes its side by two at most. -/
theorem Turning.swing_le {lifetime : List (Int × List CountDirection)} (h : Turning lifetime) :
    |swing Prod.fst lifetime| ≤ 2 := by
  cases lifetime with
  | nil => decide
  | cons seen span =>
    have hfirst := h.sides _ (List.getLast_mem (List.cons_ne_nil seen span))
    have hlast := h.sides seen List.mem_cons_self
    show |seen.1 - ((seen :: span).getLast _).1| ≤ 2
    rcases hlast with hl | hl <;> rcases hfirst with hf | hf <;> rw [hl, hf] <;> decide

/-- A lifetime that alternates changes sides by at most one crossing in the sum. -/
theorem abs_sum_swing_le {lifetimes : List (List (Int × List CountDirection))}
    (h : ∀ lifetime ∈ lifetimes, Turning lifetime) :
    |(lifetimes.map (swing Prod.fst)).sum| ≤ 2 * lifetimes.length := by
  induction lifetimes with
  | nil => decide
  | cons lifetime lifetimes ih =>
    obtain ⟨hfirst, hrest⟩ := List.forall_mem_cons.mp h
    rw [List.map_cons, List.sum_cons, List.length_cons]
    have hadd := abs_add_le (swing Prod.fst lifetime) ((lifetimes.map (swing Prod.fst)).sum)
    have hswing := hfirst.swing_le
    have hle := ih hrest
    push_cast
    linarith

/-- The counts never decrease. -/
theorem counts_mono (config : CounterConfig) (counter : PeopleCounter) {frame : CounterFrame}
    (hnodup : (frame.tracked.map TrackedObject.trackId).Nodup) :
    counter.countIn ≤ (PeopleCounter.update config counter frame).1.countIn ∧
      counter.countOut ≤ (PeopleCounter.update config counter frame).1.countOut := by
  have hresult := update_result config counter hnodup
  rw [hresult.countIn, hresult.countOut]
  exact ⟨Nat.le_add_right _ _, Nat.le_add_right _ _⟩

/-- The people counts balance. -/
theorem people_counts_balance {config : CounterConfig} {w : CounterWorld}
    (h : Reachable (counterMachine config) DistinctTracks w) :
    (∀ track, ∀ lifetime ∈ lifetimes w track, (turns lifetime).IsChain (· ≠ ·)) ∧
      w.counter.countIn + w.counter.countOut = w.events.length ∧
      (∀ frame w', DistinctTracks w frame → (counterMachine config).step w frame = some w' →
        w.counter.countIn ≤ w'.counter.countIn ∧ w.counter.countOut ≤ w'.counter.countOut) ∧
      (∀ track ∉ w.tracks, lifetimes w track = []) ∧
      2 * difference w.counter =
        ∑ track ∈ w.tracks, ((lifetimes w track).map (swing Prod.fst)).sum ∧
      |difference w.counter| ≤ ∑ track ∈ w.tracks, ((lifetimes w track).length : Int) := by
  have hbalanced := balanced_run h
  refine ⟨fun track lifetime hl => (hbalanced.turning track lifetime hl).chain, hbalanced.total,
    fun frame w' hok hstep => ?_, fun track hout => (hbalanced.unseen track hout).1,
    hbalanced.balance, ?_⟩
  · cases hstep
    exact counts_mono config w.counter hok
  -- twice the difference is the sum of what each lifetime contributes, at most two apiece
  · have habs : |2 * difference w.counter| ≤
        ∑ track ∈ w.tracks, 2 * ((lifetimes w track).length : Int) := by
      rw [hbalanced.balance]
      refine (Finset.abs_sum_le_sum_abs _ _).trans (Finset.sum_le_sum fun track _ => ?_)
      exact abs_sum_swing_le (hbalanced.turning track)
    rw [← Finset.mul_sum, abs_mul] at habs
    have htwo : |(2 : Int)| = 2 := rfl
    rw [htwo] at habs
    omega

/-- A horizontal line, and tracks that are forgotten when two frames do not show them. -/
def hallCounter : CounterConfig where
  line := some ⟨(0, 50), (100, 50), false, by decide, fun h => by cases h⟩
  hysteresisPixels := 2
  staleAfterFrames := 1
  hysteresis_nonneg := by decide

/-- The score of the sample persons is accepted. -/
theorem full_score : (0 : Rat) ≤ 1 ∧ (1 : Rat) ≤ 1 := by decide

/-- A person in the box. -/
def personIn (bbox : BBox) (trackId : Nat) : TrackedObject :=
  ⟨bbox, trackId, 0, "person", ⟨1, full_score⟩⟩

/-- A person above the line. -/
def personAbove : Nat → TrackedObject :=
  personIn ⟨⟨45, 35, 55, 45⟩, by decide, by decide, by decide, by decide⟩

/-- A person below the line. -/
def personBelow : Nat → TrackedObject :=
  personIn ⟨⟨45, 55, 55, 65⟩, by decide, by decide, by decide, by decide⟩

/-- A track crosses, is forgotten, and is below when it is seen again. Another one crosses twice. -/
def hallFrames : List CounterFrame :=
  [⟨[personAbove 1, personBelow 2], (100, 100), 0⟩, ⟨[personBelow 1, personAbove 2], (100, 100), 1⟩,
    ⟨[personBelow 2], (100, 100), 2⟩, ⟨[], (100, 100), 3⟩, ⟨[personAbove 1], (100, 100), 4⟩]

/-- The balance of the sample, where one of the tracks has two lifetimes. -/
theorem hallFrames_balance :
    let w := (counterMachine hallCounter).final (counterMachine hallCounter).init hallFrames
    2 * difference w.counter =
      ∑ track ∈ w.tracks, ((lifetimes w track).map (swing Prod.fst)).sum :=
  (people_counts_balance (Machine.Reachable.final .init hallFrames (by decide))).2.2.2.2.1

example :
    let w := (counterMachine hallCounter).final (counterMachine hallCounter).init hallFrames
    w.counter.countIn = 2 ∧ w.counter.countOut = 1 ∧
      lifetimes w 1 = [[(-1, [])], [(1, []), (1, [.inward]), (-1, [])]] := by
  decide +kernel

end Rsap.Proofs
