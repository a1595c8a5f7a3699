import Mathlib.Tactic.Linarith
import Rsap.Proofs.Intrusions

/-!
# `Rsap.Proofs.AgePruning`: when pruning by age is unobservable

The intrusion detector drops an entry that is older than the cooldown and the retention margin
together. `Unforgetting.check` is a detector that keeps every intrusion that it emitted. On calls
whose timestamps do not go back, both return the same intrusions: an entry that was dropped is
older than the cooldown, so it would refuse nothing.

The exception are calls so early that the retention reaches back before the first `datetime`. The
subtraction of the detector raises there (`longCooldown_raises`), and it emits nothing. Such a call
changes nothing either, so the other calls are as if it had not been made (`age_pruning`).

`Recollects` relates the table to the history. `prune_recollects`, `checkEvents_recollects` and
`Recollects.early` keep it, and `runCalls_recollects` is the run.
-/

set_option autoImplicit false

namespace Rsap.Proofs

open Rsap.Cv
open Rsap.Cv.IntrusionDetector (Call runCalls retention)

/-! ### A detector that does not forget -/

/-- The intrusion is of the zone and the track. -/
def IsAt (key : ZoneTrack) (intrusion : IntrusionEvent) : Prop :=
  (intrusion.zoneId, intrusion.trackId) = key

instance (key : ZoneTrack) (intrusion : IntrusionEvent) : Decidable (IsAt key intrusion) :=
  inferInstanceAs (Decidable (_ = _))

namespace Unforgetting

/-- The event is an entry into a zone with alerts, and no intrusion of the same zone and track was
emitted less than the cooldown earlier. -/
def Admits (config : CVConfig) (emitted : List IntrusionEvent) (event : ZoneEvent) : Prop :=
  event.zoneId ∈ config.intrusionZoneIds ∧ event.eventType = .enter ∧
    ∀ intrusion ∈ emitted, IsAt (event.zoneId, event.trackId) intrusion →
      ¬ event.timestamp - intrusion.timestamp < config.intrusionCooldown

instance (config : CVConfig) (emitted : List IntrusionEvent) (event : ZoneEvent) :
    Decidable (Admits config emitted event) :=
  inferInstanceAs (Decidable (_ ∧ _))

/-- The intrusions that a list of events adds to the ones emitted so far. -/
def check (config : CVConfig) : List IntrusionEvent → List ZoneEvent → List IntrusionEvent
  | _, [] => []
  | emitted, event :: events =>
    if Admits config emitted event then
      let intrusion : IntrusionEvent :=
        ⟨event.zoneId, event.zoneName, event.trackId, event.timestamp, event.confidence⟩
      intrusion :: check config (intrusion :: emitted) events
    else check config emitted events

/-- The intrusions that a call adds. -/
def answer (config : CVConfig) (emitted : List IntrusionEvent) : Call → List IntrusionEvent
  | .check events => check config emitted events
  | .cleanup _ => []

/-- What the calls return. -/
def run (config : CVConfig) : List IntrusionEvent → List Call → List (List IntrusionEvent)
  | _, [] => []
  | emitted, call :: calls =>
    let intrusions := answer config emitted call
    intrusions :: run config (intrusions ++ emitted) calls

end Unforgetting

/-- The timestamps of a call. -/
def callTimes : Call → List Micros
  | .check events => events.map ZoneEvent.timestamp
  | .cleanup timestamp => [timestamp]

/-- The retention reaches back before `datetime.min` from a timestamp of the call. -/
def Early (config : CVConfig) (call : Call) : Prop :=
  ∃ t ∈ callTimes call, ¬ InRange config t

instance (config : CVConfig) (call : Call) : Decidable (Early config call) :=
  inferInstanceAs (Decidable (∃ t ∈ callTimes call, _))

/-- What the calls return: an early one raises, and any other one returns what the detector that
does not forget would return if the early ones had not been made. -/
def outcomes (config : CVConfig) :
    List IntrusionEvent → List Call → List (Except String (List IntrusionEvent))
  | _, [] => []
  | emitted, call :: calls =>
    if Early config call then .error "date value out of range" :: outcomes config emitted calls
    else
      let intrusions := Unforgetting.answer config emitted call
      .ok intrusions :: outcomes config (intrusions ++ emitted) calls

/-- Every call has one timestamp, and the timestamps do not go back. -/
structure InOrder (calls : List Call) : Prop where
  one : ∀ call ∈ calls, ∀ s ∈ callTimes call, ∀ t ∈ callTimes call, s = t
  sorted : (calls.flatMap callTimes).Pairwise (· ≤ ·)

/-! ### The table against the history -/

/-- An entry of the table is the last intrusion of its key and not too old. A key without an entry
has only intrusions that are too old. -/
structure Recollects (config : CVConfig) (now : Micros) (table : ZoneTrack → Option Micros)
    (emitted : List IntrusionEvent) : Prop where
  past : ∀ intrusion ∈ emitted, intrusion.timestamp ≤ now
  recorded : ∀ key last, table key = some last →
    ∃ intrusion ∈ emitted, IsAt key intrusion ∧ intrusion.timestamp = last
  latest : ∀ key last, table key = some last →
    ∀ intrusion ∈ emitted, IsAt key intrusion → intrusion.timestamp ≤ last
  young : ∀ key last, table key = some last → now - last ≤ retention config
  dropped : ∀ key, table key = none →
    ∀ intrusion ∈ emitted, IsAt key intrusion → retention config < now - intrusion.timestamp

section
variable {config : CVConfig} {now : Micros} {table : ZoneTrack → Option Micros}
  {emitted : List IntrusionEvent}

/-- The entry that the pruning leaves at a key. -/
theorem prune_eq_some {key : ZoneTrack} {last t : Micros} :
    IntrusionDetector.prune (t - retention config) none table key = some last ↔
      table key = some last ∧ t - last ≤ retention config := by
  show (table key).filter _ = some last ↔ _
  simp only [Option.filter_eq_some_iff, Option.not_mem_none, false_and, exists_false, or_false,
    not_lt, decide_eq_true_eq, and_congr_right_iff]
  exact fun _ => sub_le_comm

/-- The pruning at a later time forgets only what is too old then. -/
theorem prune_recollects {t : Micros} (h : Recollects config now table emitted)
    (hle : now ≤ t) :
    Recollects config t (IntrusionDetector.prune (t - retention config) none table) emitted := by
  constructor
  case past => exact fun intrusion hmem => (h.past intrusion hmem).trans hle
  case recorded => exact fun key last hkept => h.recorded key last (prune_eq_some.mp hkept).1
  case latest => exact fun key last hkept => h.latest key last (prune_eq_some.mp hkept).1
  case young => exact fun key last hkept => (prune_eq_some.mp hkept).2
  case dropped =>
    intro key hnone intrusion hmem hat
    cases htable : table key with
    | none =>
      have hold := h.dropped key htable intrusion hmem hat
      linarith
    | some last =>
      -- the entry was there and is removed now
      have hle' := h.latest key last htable intrusion hmem hat
      by_contra hyoung
      have hkept : IntrusionDetector.prune (t - retention config) none table key = some last :=
        prune_eq_some.mpr ⟨htable, by linarith⟩
      rw [hnone] at hkept
      cases hkept

/-- The table refuses an event exactly when the history does. -/
theorem refuses_iff (h : Recollects config now table emitted) (key : ZoneTrack) :
    (∃ previous ∈ table key, now - previous < config.intrusionCooldown) ↔
      ∃ intrusion ∈ emitted, IsAt key intrusion ∧
        now - intrusion.timestamp < config.intrusionCooldown := by
  constructor
  · rintro ⟨previous, hprevious, hlt⟩
    obtain ⟨intrusion, hmem, hat, rfl⟩ := h.recorded key previous hprevious
    exact ⟨intrusion, hmem, hat, hlt⟩
  · rintro ⟨intrusion, hmem, hat, hlt⟩
    cases htable : table key with
    | none =>
      have hold := h.dropped key htable intrusion hmem hat
      have hretention := cooldown_le_retention config
      linarith
    | some last =>
      have hle := h.latest key last htable intrusion hmem hat
      exact ⟨last, rfl, by linarith⟩

/-- An emitted intrusion is recorded. -/
theorem record_recollects (h : Recollects config now table emitted) (intrusion : IntrusionEvent)
    (hnow : intrusion.timestamp = now) :
    Recollects config now
      (Function.update table (intrusion.zoneId, intrusion.trackId) (some now))
      (intrusion :: emitted) := by
  have hretention : 0 ≤ retention config :=
    Int.le_trans config.cooldown_nonneg (cooldown_le_retention config)
  constructor
  case past =>
    intro i hi
    rcases List.mem_cons.mp hi with rfl | hi
    · exact hnow.le
    · exact h.past i hi
  -- the new entry is of the new alert, and the others are as before
  case recorded =>
    intro key last hlast
    by_cases hkey : key = (intrusion.zoneId, intrusion.trackId)
    · rw [hkey, Function.update_self] at hlast
      cases hlast
      exact ⟨intrusion, List.mem_cons_self, hkey.symm, hnow⟩
    · rw [Function.update_of_ne hkey] at hlast
      obtain ⟨i, hi, hat⟩ := h.recorded key last hlast
      exact ⟨i, List.mem_cons_of_mem _ hi, hat⟩
  -- no alert of the key is later than the new one
  case latest =>
    intro key last hlast i hi hat
    by_cases hkey : key = (intrusion.zoneId, intrusion.trackId)
    · rw [hkey, Function.update_self] at hlast
      cases hlast
      rcases List.mem_cons.mp hi with rfl | hi
      · exact hnow.le
      · exact h.past i hi
    · rw [Function.update_of_ne hkey] at hlast
      rcases List.mem_cons.mp hi with rfl | hi
      · exact absurd hat.symm hkey
      · exact h.latest key last hlast i hi hat
  case young =>
    intro key last hlast
    by_cases hkey : key = (intrusion.zoneId, intrusion.trackId)
    · rw [hkey, Function.update_self] at hlast
      cases hlast
      linarith
    · rw [Function.update_of_ne hkey] at hlast
      exact h.young key last hlast
  -- the key of the new alert is in the table
  case dropped =>
    intro key hnone i hi hat
    by_cases hkey : key = (intrusion.zoneId, intrusion.trackId)
    · rw [hkey, Function.update_self] at hnone
      cases hnone
    · rw [Function.update_of_ne hkey] at hnone
      rcases List.mem_cons.mp hi with rfl | hi
      · exact absurd hat.symm hkey
      · exact h.dropped key hnone i hi hat

/-- Only the members of the history count. -/
theorem Recollects.congr {emitted' : List IntrusionEvent}
    (h : Recollects config now table emitted) (hmem : ∀ i, i ∈ emitted' ↔ i ∈ emitted) :
    Recollects config now table emitted' := by
  constructor
  case past => exact fun i hi => h.past i ((hmem i).mp hi)
  case recorded =>
    intro key last hlast
    obtain ⟨i, hi, hat⟩ := h.recorded key last hlast
    exact ⟨i, (hmem i).mpr hi, hat⟩
  case latest => exact fun key last hlast i hi => h.latest key last hlast i ((hmem i).mp hi)
  case young => exact h.young
  case dropped => exact fun key hnone i hi => h.dropped key hnone i ((hmem i).mp hi)

/-- The loop of `check` returns what the detector that does not forget returns. -/
theorem checkEvents_recollects {events : List ZoneEvent}
    (htime : ∀ event ∈ events, event.timestamp = now)
    (h : Recollects config now table emitted) :
    (IntrusionDetector.checkEvents config events table).2 =
        Unforgetting.check config emitted events ∧
      Recollects config now (IntrusionDetector.checkEvents config events table).1
        (Unforgetting.check config emitted events ++ emitted) := by
  -- induction on the events of the frame; the table and the history refuse the same ones
  induction events generalizing table emitted with
  | nil => exact ⟨rfl, h⟩
  | cons event events ih =>
    obtain ⟨rfl, hrest⟩ := List.forall_mem_cons.mp htime
    have hrefuses := refuses_iff h (event.zoneId, event.trackId)
    simp only [IntrusionDetector.checkEvents, Unforgetting.check]
    split
    · rename_i hskip
      have hno : ¬ Unforgetting.Admits config emitted event := by
        rintro ⟨hzone, htype, -⟩
        rcases hskip with hzone' | htype'
        · exact hzone' hzone
        · exact htype' htype
      rw [if_neg hno]
      exact ih hrest h
    · rename_i hkeep
      push Not at hkeep
      split
      · rename_i hearly
        have hno : ¬ Unforgetting.Admits config emitted event := by
          rintro ⟨-, -, hclear⟩
          obtain ⟨intrusion, hmem, hat, hlt⟩ := hrefuses.mp hearly
          exact hclear intrusion hmem hat hlt
        rw [if_neg hno]
        exact ih hrest h
      · rename_i hlate
        have hyes : Unforgetting.Admits config emitted event := by
          refine ⟨hkeep.1, hkeep.2, fun intrusion hmem hat hlt => hlate ?_⟩
          exact hrefuses.mpr ⟨intrusion, hmem, hat, hlt⟩
        rw [if_pos hyes]
        have hrecord := record_recollects h
          ⟨event.zoneId, event.zoneName, event.trackId, event.timestamp, event.confidence⟩ rfl
        obtain ⟨hsame, hafter⟩ := ih hrest hrecord
        refine ⟨congrArg (List.cons _) hsame, hafter.congr fun i => ?_⟩
        simp only [List.mem_append, List.mem_cons]
        tauto

/-- The entries come from calls that did not raise. -/
def Recent (config : CVConfig) (emitted : List IntrusionEvent) : Prop :=
  ∀ intrusion ∈ emitted, InRange config intrusion.timestamp

/-- A time that is out of range comes before every intrusion. So there is none, and the table is
still empty. -/
theorem Recollects.early {t : Micros} (h : Recollects config now table emitted)
    (hrecent : Recent config emitted) (hle : now ≤ t) (hearly : ¬ InRange config t) :
    Recollects config t table emitted := by
  have hnone : emitted = [] := by
    refine List.eq_nil_iff_forall_not_mem.mpr fun intrusion hmem => hearly ?_
    have hstart : datetimeMin ≤ intrusion.timestamp - retention config := hrecent intrusion hmem
    have hpast := h.past intrusion hmem
    show datetimeMin ≤ t - retention config
    linarith
  subst hnone
  have htable : ∀ key last, table key ≠ some last := by
    intro key last hlast
    obtain ⟨intrusion, hmem, -⟩ := h.recorded key last hlast
    cases hmem
  exact
    { past := fun _ hmem => absurd hmem List.not_mem_nil
      recorded := fun key last hlast => absurd hlast (htable key last)
      latest := fun key last hlast => absurd hlast (htable key last)
      young := fun key last hlast => absurd hlast (htable key last)
      dropped := fun _ _ _ hmem => absurd hmem List.not_mem_nil }

/-- The intrusions of a check have the time of its events. -/
theorem check_times {events : List ZoneEvent} {t : Micros}
    (htime : ∀ event ∈ events, event.timestamp = t) :
    ∀ intrusion ∈ Unforgetting.check config emitted events, intrusion.timestamp = t := by
  induction events generalizing emitted with
  | nil => exact fun _ hmem => absurd hmem List.not_mem_nil
  | cons event events ih =>
    obtain ⟨hfirst, hrest⟩ := List.forall_mem_cons.mp htime
    intro intrusion hmem
    simp only [Unforgetting.check] at hmem
    split at hmem
    · rcases List.mem_cons.mp hmem with rfl | hmem
      · exact hfirst
      · exact ih hrest intrusion hmem
    · exact ih hrest intrusion hmem

/-- What a call at the time `t` raises or returns, and the table after it. A check without events
has no time of its own. -/
theorem call_recollects {call : Call} {t : Micros} (hle : now ≤ t)
    (htime : ∀ s ∈ callTimes call, s = t) (hidle : callTimes call = [] → now = t)
    (h : Recollects config now table emitted) (hrecent : Recent config emitted) :
    (Early config call ∧ call.run config table = .error "date value out of range" ∧
      Recollects config t table emitted) ∨
    (¬ Early config call ∧ ∃ table',
      call.run config table = .ok (table', Unforgetting.answer config emitted call) ∧
      Recollects config t table' (Unforgetting.answer config emitted call ++ emitted) ∧
      Recent config (Unforgetting.answer config emitted call ++ emitted)) := by
  cases call with
  -- the subtraction raises exactly out of range, and then nothing changes
  | cleanup timestamp =>
    obtain rfl : timestamp = t := htime timestamp List.mem_cons_self
    have hearly : Early config (.cleanup timestamp) ↔ ¬ InRange config timestamp := by
      simp [Early, callTimes]
    show (_ ∧ Except.map _ (IntrusionDetector.cleanup _ _ _ _) = _ ∧ _) ∨
      (_ ∧ ∃ table', Except.map _ (IntrusionDetector.cleanup _ _ _ _) = _ ∧ _)
    rw [cleanup_eq, hearly]
    by_cases hrange : InRange config timestamp
    · rw [if_pos hrange]
      exact .inr ⟨not_not.mpr hrange, _, rfl, prune_recollects h hle, hrecent⟩
    · rw [if_neg hrange]
      exact .inl ⟨hrange, rfl, h.early hrecent hle hrange⟩
  -- without events there is no subtraction
  | check events =>
    have hevents : ∀ e ∈ events, e.timestamp = t := fun e he => htime _ (List.mem_map_of_mem he)
    show (_ ∧ IntrusionDetector.check config table events = _ ∧ _) ∨
      (_ ∧ ∃ table', IntrusionDetector.check config table events = _ ∧ _)
    rw [check_eq hevents]
    cases events with
    | nil =>
      rw [← hidle rfl, if_pos (.inl rfl)]
      exact .inr ⟨by simp [Early, callTimes], table, rfl, h, hrecent⟩
    | cons event events =>
      have hearly : Early config (.check (event :: events)) ↔ ¬ InRange config t := by
        constructor
        · rintro ⟨s, hs, hout⟩
          exact htime s hs ▸ hout
        · intro hout
          exact ⟨event.timestamp, List.mem_cons_self, hevents event List.mem_cons_self ▸ hout⟩
      by_cases hrange : InRange config t
      -- in range the table is pruned first and then records the new alerts
      · obtain ⟨hsame, hafter⟩ := checkEvents_recollects hevents (prune_recollects h hle)
        rw [if_pos (.inr hrange), hearly]
        refine .inr ⟨not_not.mpr hrange, _, congrArg _ (Prod.ext rfl hsame), hafter, ?_⟩
        intro intrusion hmem
        rcases List.mem_append.mp hmem with hnew | hold
        · exact (check_times hevents intrusion hnew).symm ▸ hrange
        · exact hrecent intrusion hold
      · rw [if_neg (by simp [hrange]), hearly]
        exact .inl ⟨hrange, rfl, h.early hrecent hle hrange⟩

/-- The time of a call among the calls after it. -/
theorem InOrder.head {call : Call} {calls : List Call} (h : InOrder (call :: calls))
    (hnow : ∀ t ∈ (call :: calls).flatMap callTimes, now ≤ t) :
    ∃ t, now ≤ t ∧ (∀ s ∈ callTimes call, s = t) ∧ (callTimes call = [] → now = t) ∧
      ∀ s ∈ calls.flatMap callTimes, t ≤ s := by
  have hsorted := h.sorted
  rw [List.flatMap_cons] at hnow hsorted
  cases htimes : callTimes call with
  | nil =>
    rw [htimes] at hnow
    exact ⟨now, le_rfl, fun s hs => absurd hs List.not_mem_nil, fun _ => rfl, hnow⟩
  | cons t times =>
    have ht : t ∈ callTimes call := htimes ▸ List.mem_cons_self
    refine ⟨t, hnow t (List.mem_append_left _ ht), ?_, ?_, ?_⟩
    · exact fun s hs => h.one call List.mem_cons_self s (htimes ▸ hs) t ht
    · intro hnil
      cases hnil
    · exact fun s hs => (List.pairwise_append.mp hsorted).2.2 t ht s hs

/-- The calls after the first one are in order too. -/
theorem InOrder.tail {call : Call} {calls : List Call} (h : InOrder (call :: calls)) :
    InOrder calls := by
  refine ⟨fun c hc => h.one c (List.mem_cons_of_mem _ hc), ?_⟩
  have hsorted := h.sorted
  rw [List.flatMap_cons] at hsorted
  exact (List.pairwise_append.mp hsorted).2.1

/-- A run from a table that agrees with the history. -/
theorem runCalls_recollects {calls : List Call} (horder : InOrder calls)
    (hnow : ∀ t ∈ calls.flatMap callTimes, now ≤ t)
    (h : Recollects config now table emitted) (hrecent : Recent config emitted) :
    (runCalls config table calls).2 = outcomes config emitted calls ∧
      ∃ now' emitted', now ≤ now' ∧ (∀ t ∈ calls.flatMap callTimes, t ≤ now') ∧
        Recollects config now' (runCalls config table calls).1 emitted' := by
  induction calls generalizing now table emitted with
  | nil => exact ⟨rfl, now, emitted, le_rfl, fun t ht => absurd ht List.not_mem_nil, h⟩
  | cons call calls ih =>
    obtain ⟨t, hle, htime, hidle, hlater⟩ := horder.head hnow
    have hbefore : ∀ {now' : Micros}, t ≤ now' → (∀ s ∈ calls.flatMap callTimes, s ≤ now') →
        ∀ s ∈ (call :: calls).flatMap callTimes, s ≤ now' := by
      intro now' hle' hbound s hs
      rw [List.flatMap_cons] at hs
      rcases List.mem_append.mp hs with hs | hs
      · exact (htime s hs).le.trans hle'
      · exact hbound s hs
    rcases call_recollects hle htime hidle h hrecent with
      ⟨hearly, hrun, hafter⟩ | ⟨hearly, table', hrun, hafter, hlate⟩
    · obtain ⟨hsame, now', emitted', hle', hbound, hend⟩ := ih horder.tail hlater hafter hrecent
      simp only [runCalls, hrun, outcomes, if_pos hearly]
      exact ⟨congrArg _ hsame, now', emitted', hle.trans hle', hbefore hle' hbound, hend⟩
    · obtain ⟨hsame, now', emitted', hle', hbound, hend⟩ := ih horder.tail hlater hafter hlate
      simp only [runCalls, hrun, outcomes, if_neg hearly]
      exact ⟨congrArg _ hsame, now', emitted', hle.trans hle', hbefore hle' hbound, hend⟩

/-- Without early calls no call raises. -/
theorem outcomes_eq_run {calls : List Call} (h : ∀ call ∈ calls, ¬ Early config call) :
    outcomes config emitted calls = (Unforgetting.run config emitted calls).map Except.ok := by
  induction calls generalizing emitted with
  | nil => rfl
  | cons call calls ih =>
    obtain ⟨hfirst, hrest⟩ := List.forall_mem_cons.mp h
    rw [outcomes, if_neg hfirst]
    exact congrArg _ (ih hrest)

/-- The new detector, before the first call. -/
theorem recollects_new (config : CVConfig) (now : Micros) :
    Recollects config now (fun _ => none) [] := by
  constructor
  case past => exact fun i hi => absurd hi List.not_mem_nil
  case dropped => exact fun key hnone i hi => absurd hi List.not_mem_nil
  all_goals
    intro key last hlast
    cases hlast

/-- Every ordered list of times has a lower bound. -/
theorem exists_lower {times : List Micros} (h : times.Pairwise (· ≤ ·)) :
    ∃ now, ∀ t ∈ times, now ≤ t := by
  cases times with
  | nil => exact ⟨0, fun t ht => absurd ht List.not_mem_nil⟩
  | cons first times =>
    refine ⟨first, fun t ht => ?_⟩
    rcases List.mem_cons.mp ht with rfl | ht
    · exact le_rfl
    · exact (List.pairwise_cons.mp h).1 t ht

end

/-- Age pruning is unobservable: a call whose retention reaches back before `datetime.min` raises,
and every other call returns what a detector that forgets nothing returns. What the table keeps is
no older, at the time of any call so far, than the cooldown and the retention margin. -/
theorem age_pruning (config : CVConfig) {calls : List Call} (horder : InOrder calls) :
    (runCalls config (fun _ => none) calls).2 = outcomes config [] calls ∧
      ((∀ call ∈ calls, ¬ Early config call) →
        (runCalls config (fun _ => none) calls).2 =
          (Unforgetting.run config [] calls).map Except.ok) ∧
      ∀ key last, (runCalls config (fun _ => none) calls).1 key = some last →
        ∀ now ∈ calls.flatMap callTimes,
          now - last ≤ config.intrusionCooldown + config.intrusionRetentionMargin := by
  obtain ⟨now, hnow⟩ := exists_lower horder.sorted
  obtain ⟨hsame, now', emitted', -, hbound, hend⟩ :=
    runCalls_recollects horder hnow (recollects_new config now)
      fun _ hmem => absurd hmem List.not_mem_nil
  refine ⟨hsame, fun hnone => hsame.trans (outcomes_eq_run hnone), fun key last hlast t ht => ?_⟩
  have hyoung : now' - last ≤ retention config := hend.young key last hlast
  have hle : t ≤ now' := hbound t ht
  exact (sub_le_sub_right hle last).trans hyoung

/-- The track 1 enters the zone at the edge. -/
def edgeEntry (timestamp : Micros) : ZoneEvent :=
  ⟨"edge", "Edge", 1, .enter, timestamp, fullScore⟩

/-- An entry at `datetime.min`, entries within the cooldown and at its end, and a cleanup that
drops the last one. -/
def edgeCalls : List Call :=
  [.check [edgeEntry datetimeMin], .check [edgeEntry 0], .check [edgeEntry 4999999],
    .check [edgeEntry 5000000], .check [], .cleanup 70000001, .check [edgeEntry 70000001]]

/-- The calls at the edge of the clock: with the raise first, and without it. -/
theorem edgeCalls_pruned :
    (runCalls edgeConfig (fun _ => none) edgeCalls).2 = outcomes edgeConfig [] edgeCalls ∧
      (runCalls edgeConfig (fun _ => none) edgeCalls.tail).2 =
        (Unforgetting.run edgeConfig [] edgeCalls.tail).map Except.ok ∧
      ∀ key last, (runCalls edgeConfig (fun _ => none) edgeCalls).1 key = some last →
        ∀ now ∈ edgeCalls.flatMap callTimes, now - last ≤ 5000000 + 60000000 := by
  obtain ⟨hall, -, hyoung⟩ := @age_pruning edgeConfig edgeCalls ⟨by decide, by decide⟩
  obtain ⟨-, hlate, -⟩ := @age_pruning edgeConfig edgeCalls.tail ⟨by decide, by decide⟩
  exact ⟨hall, hlate (by decide), hyoung⟩

example : (runCalls edgeConfig (fun _ => none) edgeCalls).2.map
      (fun outcome => outcome.toOption.map List.length) =
    [none, some 1, some 0, some 1, some 0, some 0, some 1] := by decide

/-- A cooldown of a hundred billion seconds, which is longer than the years since the year 1. -/
def longConfig : CVConfig where
  zones := [edgeZone]
  intrusionZoneIds := ["edge"]
  intrusionCooldown := 100000000000000000
  intrusionRetentionMargin := 60000000
  tracker := exampleSort
  zones_unique := edgeConfig.zones_unique
  intrusion_configured := edgeConfig.intrusion_configured
  cooldown_nonneg := by decide
  margin_nonneg := patientConfig.margin_nonneg

/-- With this cooldown the very first entry, in the year 1970, makes the detector raise. One that
forgets nothing emits it. -/
theorem longCooldown_raises :
    ¬ ∀ (config : CVConfig) (calls : List Call), InOrder calls →
      (runCalls config (fun _ => none) calls).2 =
        (Unforgetting.run config [] calls).map Except.ok := by
  intro hclaim
  have hsame := hclaim longConfig [.check [edgeEntry 0]] ⟨by decide, by decide⟩
  exact absurd hsame (by decide)

end Rsap.Proofs
