import Rsap.Orchestration.Definitions

/-!
# `Rsap.Proofs.Coercions`: which camera records the catalog coerces

`_zone` makes the id a `str`, and the constructors take every coordinate through `tuple` and
`float`. So an id, a point or a coordinate of another JSON type can pass as the value it converts
to. The scalar settings are checked before and kept as they are (`cvScalars_are`).

A record that is accepted is free of coercion exactly when it is `Typed`
(`camera_configuration_not_coerced`).
-/

set_option autoImplicit false

namespace Rsap.Proofs

open Rsap Rsap.Orchestration.Catalog
open Rsap.Cv (Point CountingLine zonePostInit)

/-! ### Values of the record -/

/-- The JSON number is the value. -/
def NumberIs (j : Json) (value : Rat) : Prop := j = .float value ∨ ∃ n : Int, j = .int n ∧ value = n

/-- The JSON list of two numbers is the point. -/
def PointIs (j : Json) (p : Point) : Prop :=
  ∃ x y, j = .arr [x, y] ∧ NumberIs x p.1 ∧ NumberIs y p.2

/-- The zone has the id and the vertices of the JSON object. -/
def ZoneIs (j : Json) (zone : ZoneConfig) : Prop :=
  ∃ fields points, j = .obj fields ∧ Dict.get fields "id" = some (.str zone.id) ∧
    Dict.get fields "vertices" = some (.arr points) ∧ List.Forall₂ PointIs points zone.vertices

/-- The line has the ends of the JSON object. -/
def LineIs (j : Json) (line : CountingLine) : Prop :=
  ∃ fields start stop, j = .obj fields ∧ Dict.get fields "start" = some start ∧
    Dict.get fields "end" = some stop ∧ PointIs start line.start ∧ PointIs stop line.stop

/-- The setting is the JSON value of its key, or the default where there is none. -/
def SettingIs {α : Type} (raw : Dict) (key : String) (json : α → Json) (default value : α) : Prop :=
  match raw.get key with
  | none => value = default
  | some j => j = json value

/-- A number as it stands in the JSON text. -/
def numberJson : Number → Json
  | .int n => .int n
  | .float x => .float x

/-- Every scalar setting is the JSON value of its key, of the type of the field. -/
structure ScalarsAre (raw : Dict) (s : CvScalars) : Prop where
  analyticsFps : SettingIs raw "analytics_fps" numberJson (.float 10) s.analyticsFps
  confidenceThreshold :
    SettingIs raw "confidence_threshold" numberJson (.float (1 / 2)) s.confidenceThreshold
  faceTolerance : SettingIs raw "face_tolerance" numberJson (.float (3 / 5)) s.faceTolerance
  intrusionCooldownSeconds : SettingIs raw "intrusion_cooldown_seconds" numberJson (.float 5)
    s.intrusionCooldownSeconds
  intrusionRetentionMarginSeconds : SettingIs raw "intrusion_retention_margin_seconds" numberJson
    (.float 60) s.intrusionRetentionMarginSeconds
  iouThreshold : SettingIs raw "iou_threshold" numberJson (.float (9 / 20)) s.iouThreshold
  trackerIouThreshold :
    SettingIs raw "tracker_iou_threshold" numberJson (.float (3 / 10)) s.trackerIouThreshold
  faceInterval : SettingIs raw "face_interval" .int 5 s.faceInterval
  peopleCounterStaleAfterFrames : SettingIs raw "people_counter_stale_after_frames" .int 30
    s.peopleCounterStaleAfterFrames
  trackerMaxAge : SettingIs raw "tracker_max_age" .int 3 s.trackerMaxAge
  trackerMinHits : SettingIs raw "tracker_min_hits" .int 2 s.trackerMinHits
  faceRecognition : SettingIs raw "face_recognition" .bool false s.faceRecognition
  device : SettingIs raw "device" .str "auto" s.device
  targetClassIds : SettingIs raw "target_class_ids" (fun ids => .arr (ids.map .int)) [0, 1, 2, 3]
    s.targetClassIds

/-- The fields of a JSON object, and none of another value. -/
def fieldsOf : Json → Dict
  | .obj fields => fields
  | _ => []

/-- The items of a JSON list, and none of another value. -/
def itemsOf : Json → List Json
  | .arr items => items
  | _ => []

/-- The counting line of the settings, where there is one. -/
def lineItem (record : CameraRecord) : Option Json :=
  ((fieldsOf record.analyticsConfig).get "counting_line").filter fun j => j ≠ .null

/-- The definition has the values of the record, each of its JSON type. -/
structure Uncoerced (record : CameraRecord) (d : CameraDefinition) : Prop where
  scalars : ScalarsAre (fieldsOf record.analyticsConfig) d.cvConfig.scalars
  zones : List.Forall₂ ZoneIs (itemsOf record.zones) d.cvConfig.zones
  line : Option.Rel LineIs (lineItem record) d.cvConfig.line

/-! ### Typed records -/

/-- A JSON number that `float` does not round. -/
def ExactNumber (j : Json) : Prop :=
  (∃ x, j = .float x) ∨ ∃ n : Int, j = .int n ∧ floatOfInt n = some (n : Rat)

def ExactPoint (j : Json) : Prop := ∃ x y, j = .arr [x, y] ∧ ExactNumber x ∧ ExactNumber y

/-- The id is a string, and each vertex is a list of two numbers. -/
def TypedZone (j : Json) : Prop :=
  ∃ fields id points, j = .obj fields ∧ Dict.get fields "id" = some (.str id) ∧
    Dict.get fields "vertices" = some (.arr points) ∧ ∀ p ∈ points, ExactPoint p

/-- Both ends are lists of two numbers. -/
def TypedLine (j : Json) : Prop :=
  ∃ fields start stop, j = .obj fields ∧ Dict.get fields "start" = some start ∧
    Dict.get fields "end" = some stop ∧ ExactPoint start ∧ ExactPoint stop

structure Typed (record : CameraRecord) : Prop where
  zones : ∀ item ∈ itemsOf record.zones, TypedZone item
  line : ∀ item ∈ lineItem record, TypedLine item

/-- The record passes every check, by the parts of `_cv_config` on it. -/
structure Acceptable (py : Builtins) (record : CameraRecord) : Prop where
  source : (sourceOf py record).isSome = true
  scalars : ∃ raw scalars, rawConfig record.analyticsConfig = some raw ∧
    cvScalars raw = some scalars ∧ scalars.inBounds = true ∧ (lineOf py raw).isSome = true
  zones : ∃ zones, zonesOf py record.zones = some zones ∧ (zones.map (·.id)).Nodup

/-! ### Conversions -/

section
variable {py : Builtins} {j : Json} {value : Rat} {p : Point} {fields raw : Dict}

/-- A coordinate has a value exactly when it is finite. -/
theorem finiteValue_eq_some {c : Cv.Coordinate} :
    finiteValue c = some value ↔ c = .finite value := by
  cases c with
  | finite x => simp [finiteValue]
  | infinity => simp [finiteValue]
  | negInfinity => simp [finiteValue]
  | nan => simp [finiteValue]

/-- A number that is not rounded is the value of its conversion, and no other is. -/
theorem numberIs_iff (h : py.float j = some (.finite value)) :
    NumberIs j value ↔ ExactNumber j := by
  cases j with
  -- `float(n)` rounds, so an integer is what it was only when the conversion is exact
  | int n =>
    rw [Builtins.float, Option.map_eq_some_iff] at h
    obtain ⟨rounded, hrounded, heq⟩ := h
    cases heq
    constructor
    · rintro (heq | ⟨m, heq, hvalue⟩)
      · cases heq
      · cases heq
        exact .inr ⟨n, rfl, hvalue ▸ hrounded⟩
    · rintro (⟨x, heq⟩ | ⟨m, heq, hexact⟩)
      · cases heq
      · cases heq
        rw [hrounded] at hexact
        exact .inr ⟨n, rfl, Option.some.inj hexact⟩
  | float x =>
    cases h
    exact iff_of_true (.inl rfl) (.inl ⟨value, rfl⟩)
  | null => cases h
  -- a truth value is a number to Python, but not a number that was written
  | bool b => simp [NumberIs, ExactNumber]
  | str s => simp [NumberIs, ExactNumber]
  | arr items => cases h
  | obj fields => cases h

/-- A list is a point exactly when it has two coordinates that are finite as floats. -/
theorem pointOf_eq_some {coordinates : List Json} : pointOf py coordinates = some p ↔
    ∃ x y, coordinates = [x, y] ∧ py.float x = some (.finite p.1) ∧
      py.float y = some (.finite p.2) := by
  constructor
  · intro h
    unfold pointOf at h
    split at h
    next x y =>
      simp only [Option.bind_eq_bind, Option.bind_eq_some_iff, finiteValue_eq_some] at h
      obtain ⟨a, ⟨c, hx, rfl⟩, b, ⟨c', hy, rfl⟩, heq⟩ := h
      cases heq
      exact ⟨x, y, rfl, hx, hy⟩
    next => cases h
  · rintro ⟨x, y, rfl, hx, hy⟩
    simp only [pointOf, hx, hy, Option.bind_eq_bind, Option.bind_some, finiteValue]
    rfl

/-- A value that converts to a point is the point exactly when it is a list of two exact numbers. -/
theorem pointIs_iff (h : (iterate j >>= pointOf py) = some p) : PointIs j p ↔ ExactPoint j := by
  obtain ⟨coordinates, hiterate, hpoint⟩ := Option.bind_eq_some_iff.mp h
  obtain ⟨x, y, rfl, hx, hy⟩ := pointOf_eq_some.mp hpoint
  constructor
  · rintro ⟨x', y', rfl, hx', hy'⟩
    cases hiterate
    exact ⟨x, y, rfl, (numberIs_iff hx).mp hx', (numberIs_iff hy).mp hy'⟩
  · rintro ⟨x', y', rfl, hx', hy'⟩
    cases hiterate
    exact ⟨x, y, rfl, (numberIs_iff hx).mpr hx', (numberIs_iff hy).mpr hy'⟩

end

/-- A conversion of a list is one of each item. -/
theorem mapM_eq_some_iff {α β : Type} {f : α → Option β} {xs : List α} {ys : List β} :
    xs.mapM f = some ys ↔ List.Forall₂ (fun x y => f x = some y) xs ys := by
  induction xs generalizing ys with
  | nil =>
    constructor
    · intro h
      cases h
      exact .nil
    · intro h
      cases h
      rfl
  | cons x xs ih =>
    rw [List.mapM_cons]
    simp only [Option.bind_eq_bind, Option.bind_eq_some_iff]
    constructor
    · rintro ⟨y, hy, rest, hrest, heq⟩
      cases heq
      exact .cons hy (ih.mp hrest)
    · intro h
      cases h with
      | cons hy hrest => exact ⟨_, hy, _, ih.mpr hrest, rfl⟩

/-- Two relations of the same lists that agree item by item. -/
theorem forall₂_iff {α β : Type} {R S : α → β → Prop} {P : α → Prop} {xs : List α} {ys : List β}
    (h : List.Forall₂ R xs ys) (hiff : ∀ x y, R x y → (S x y ↔ P x)) :
    List.Forall₂ S xs ys ↔ ∀ x ∈ xs, P x := by
  induction h with
  | nil => exact iff_of_true .nil fun x hx => absurd hx List.not_mem_nil
  | cons hxy _ ih =>
    rw [List.forall₂_cons, List.forall_mem_cons, hiff _ _ hxy, ih]

/-! ### Zones and the line -/

section
variable {py : Builtins} {j : Json} {zone : ZoneConfig} {line : CountingLine} {fields raw : Dict}
  {record : CameraRecord}

/-- The checks of a zone change no vertex. -/
theorem zonePostInit_vertices {id : PyStr} {vertices result : List Point} {normalized : Bool}
    (h : zonePostInit id vertices normalized = .ok result) : result = vertices := by
  unfold zonePostInit at h
  repeat' split at h
  all_goals cases h
  rfl

/-- What a zone takes from its object. -/
theorem zoneOf_eq_some (h : zoneOf py j = some zone) : ∃ fields id value points, j = .obj fields ∧
    Dict.get fields "id" = some id ∧ zone.id = py.str id ∧
    Dict.get fields "vertices" = some value ∧ iterate value = some points ∧
    List.Forall₂ (fun point vertex => (iterate point >>= pointOf py) = some vertex) points
      zone.vertices := by
  cases j with
  | obj fields =>
    simp only [zoneOf, verticesField, Option.bind_eq_bind, Option.bind_eq_some_iff] at h
    obtain ⟨normalized, -, alert, -, color, -, id, hid, converted, ⟨value, hvalue, points, hpoints,
      hconverted⟩, vertices, hvertices, heq⟩ := h
    -- `__post_init__` checks the vertices and leaves them
    have hsame : vertices = converted := by
      cases hinit : zonePostInit (PyStr.ofString (py.str id)) converted normalized with
      | error message =>
        rw [hinit] at hvertices
        cases hvertices
      | ok result =>
        rw [hinit] at hvertices
        cases hvertices
        exact zonePostInit_vertices hinit
    cases heq
    rw [hsame]
    exact ⟨fields, id, value, points, rfl, hid, rfl, hvalue, hpoints,
      mapM_eq_some_iff.mp hconverted⟩
  | _ => cases h

/-- An accepted zone is the zone of its object exactly when this is typed. -/
theorem zoneIs_iff (h : zoneOf py j = some zone) : ZoneIs j zone ↔ TypedZone j := by
  obtain ⟨fields, id, value, points, rfl, hid, hzoneId, hvalue, hpoints, hvertices⟩ :=
    zoneOf_eq_some h
  constructor
  · rintro ⟨fields', points', heq, hid', hvalue', hpointsAre⟩
    cases heq
    rw [hvalue] at hvalue'
    cases hvalue'
    cases hpoints
    exact ⟨fields, zone.id, points, rfl, hid', hvalue,
      (forall₂_iff hvertices fun _ _ => pointIs_iff).mp hpointsAre⟩
  · rintro ⟨fields', id', points', heq, hid', hvalue', hexact⟩
    cases heq
    rw [hvalue] at hvalue'
    cases hvalue'
    cases hpoints
    rw [hid] at hid'
    cases hid'
    refine ⟨fields, points, rfl, ?_, hvalue,
      (forall₂_iff hvertices fun _ _ => pointIs_iff).mpr hexact⟩
    rw [hzoneId, hid]
    rfl

/-- An end of the line is the point of its field. -/
theorem endField_eq_some {key : String} {p : Point} (h : endField py fields key = some p) :
    ∃ value, Dict.get fields key = some value ∧ (iterate value >>= pointOf py) = some p := by
  simp only [endField, Option.bind_eq_bind, Option.bind_eq_some_iff] at h
  obtain ⟨value, hvalue, coordinates, hiterate, hpoint⟩ := h
  exact ⟨value, hvalue, Option.bind_eq_some_iff.mpr ⟨coordinates, hiterate, hpoint⟩⟩

/-- The checks of a line change no end. -/
theorem countingLine_eq_some {start stop : Point} {normalized : Bool}
    (h : countingLine start stop normalized = some line) :
    line.start = start ∧ line.stop = stop := by
  unfold countingLine at h
  split at h
  next =>
    split at h
    next =>
      cases h
      exact ⟨rfl, rfl⟩
    next => cases h
  next => cases h

/-- An accepted line is the line of the settings exactly when this is typed. -/
theorem lineIs_iff {result : Option CountingLine} (h : lineOf py raw = some result) :
    Option.Rel LineIs ((raw.get "counting_line").filter fun j => j ≠ .null) result ↔
      ∀ item ∈ (raw.get "counting_line").filter fun j => j ≠ .null, TypedLine item := by
  unfold lineOf at h
  -- without a line, or with null, there is nothing to convert
  cases hget : raw.get "counting_line" with
  | none =>
    rw [hget] at h
    cases h
    exact iff_of_true .none fun item hitem => (by cases hitem)
  | some j =>
    rw [hget] at h
    cases j with
    | null =>
      cases h
      exact iff_of_true .none fun item hitem => (by cases hitem)
    | obj fields =>
      simp only [Option.bind_eq_bind, Option.bind_eq_some_iff] at h
      obtain ⟨normalized, -, start, hstart, stop, hstop, line, hline, heq⟩ := h
      cases heq
      obtain ⟨rfl, rfl⟩ := countingLine_eq_some hline
      obtain ⟨startValue, hstartValue, hstartPoint⟩ := endField_eq_some hstart
      obtain ⟨stopValue, hstopValue, hstopPoint⟩ := endField_eq_some hstop
      -- a line is kept exactly when both of its ends are
      have hsome : (some (Json.obj fields)).filter (fun j => decide (j ≠ .null)) =
          some (.obj fields) := by
        rw [Option.filter_some, if_pos (by simp)]
      rw [hsome]
      constructor
      · intro hrel item hitem
        cases hitem
        cases hrel with
        | some his =>
          obtain ⟨fields', start', stop', heq, hget', hget'', hpoint, hpoint'⟩ := his
          cases heq
          rw [hstartValue] at hget'
          rw [hstopValue] at hget''
          cases hget'
          cases hget''
          exact ⟨fields, startValue, stopValue, rfl, hstartValue, hstopValue,
            (pointIs_iff hstartPoint).mp hpoint, (pointIs_iff hstopPoint).mp hpoint'⟩
      · intro htyped
        obtain ⟨fields', start', stop', heq, hget', hget'', hexact, hexact'⟩ := htyped _ rfl
        cases heq
        rw [hstartValue] at hget'
        rw [hstopValue] at hget''
        cases hget'
        cases hget''
        exact .some ⟨fields, startValue, stopValue, rfl, hstartValue, hstopValue,
          (pointIs_iff hstartPoint).mpr hexact, (pointIs_iff hstopPoint).mpr hexact'⟩
    | _ => cases h

/-- What is iterated and accepted as zones is a list, or nothing. -/
theorem zonesOf_eq_some {zones : Json} {configs : List ZoneConfig}
    (h : zonesOf py zones = some configs) :
    List.Forall₂ (fun item config => zoneOf py item = some config) (itemsOf zones) configs := by
  unfold zonesOf at h
  split at h
  next htruthy =>
    obtain ⟨items, hitems, hmap⟩ := Option.bind_eq_some_iff.mp h
    have hforall := mapM_eq_some_iff.mp hmap
    cases zones with
    | arr items' =>
      cases hitems
      exact hforall
    | obj fields =>
      cases hitems
      -- the keys of an object are no objects
      cases fields with
      | nil => cases htruthy
      | cons field rest =>
        cases hforall with
        | cons hzone _ => cases hzone
    | str s =>
      cases hitems
      cases hchars : s.toList with
      | nil =>
        rw [String.toList_eq_nil_iff.mp hchars] at htruthy
        cases htruthy
      | cons c rest =>
        rw [hchars] at hforall
        cases hforall with
        | cons hzone _ => cases hzone
    | null => cases hitems
    | bool b => cases hitems
    | int n => cases hitems
    | float x => cases hitems
  next htruthy =>
    cases h
    cases zones with
    | arr items =>
      cases items with
      | nil => exact .nil
      | cons item rest => exact absurd rfl htruthy
    | _ => exact .nil

end

/-! ### Scalars -/

section
variable {raw : Dict} {key : String}

/-- A number that is accepted is the one of the record, or the default. -/
theorem numberField_is {default value : Number} (h : numberField raw key default = some value) :
    SettingIs raw key numberJson default value := by
  unfold numberField at h
  unfold SettingIs
  cases hget : raw.get key with
  | none =>
    rw [hget] at h
    exact (Option.some.inj h).symm
  | some j =>
    rw [hget] at h
    cases j with
    | int n =>
      simp only at h
      split at h
      next => exact congrArg numberJson (Option.some.inj h)
      next => cases h
    | float x => exact congrArg numberJson (Option.some.inj h)
    | _ => cases h

/-- An integer that is accepted is the one of the record, or the default. -/
theorem intField_is {default value : Int} (h : intField raw key default = some value) :
    SettingIs raw key .int default value := by
  unfold intField at h
  unfold SettingIs
  cases hget : raw.get key with
  | none =>
    rw [hget] at h
    exact (Option.some.inj h).symm
  | some j =>
    rw [hget] at h
    cases j with
    | int n => exact congrArg Json.int (Option.some.inj h)
    | _ => cases h

/-- A truth value that is accepted is the one of the record, or the default. -/
theorem boolField_is {default value : Bool} (h : boolField raw key default = some value) :
    SettingIs raw key .bool default value := by
  unfold boolField at h
  unfold SettingIs
  cases hget : raw.get key with
  | none =>
    rw [hget] at h
    exact (Option.some.inj h).symm
  | some j =>
    rw [hget] at h
    cases j with
    | bool b => exact congrArg Json.bool (Option.some.inj h)
    | _ => cases h

/-- A device that is accepted is the one of the record, or the default. -/
theorem deviceField_is {value : String} (h : deviceField raw = some value) :
    SettingIs raw "device" .str "auto" value := by
  unfold deviceField at h
  unfold SettingIs
  cases hget : raw.get "device" with
  | none =>
    rw [hget] at h
    exact (Option.some.inj h).symm
  | some j =>
    rw [hget] at h
    cases j with
    | str s => exact congrArg Json.str (Option.some.inj h)
    | _ => cases h

/-- Class ids that are accepted are integers, in the order of the record. -/
theorem classIds_json {items : List Json} {ids : List Int} (h : items.mapM classId = some ids) :
    items = ids.map .int := by
  have hforall := mapM_eq_some_iff.mp h
  induction hforall with
  | nil => rfl
  | cons hitem hrest ih =>
    rename_i item id items ids
    rw [List.map_cons, ← ih (mapM_eq_some_iff.mpr hrest)]
    cases item with
    | int n => rw [Option.some.inj hitem]
    | _ => cases hitem

/-- The class ids that are accepted are those of the record, or the default. -/
theorem classIdsField_is {value : List Int} (h : classIdsField raw = some value) :
    SettingIs raw "target_class_ids" (fun ids => .arr (ids.map .int)) [0, 1, 2, 3] value := by
  unfold classIdsField at h
  unfold SettingIs
  cases hget : raw.get "target_class_ids" with
  | none =>
    rw [hget] at h
    exact (Option.some.inj h).symm
  | some j =>
    rw [hget] at h
    cases j with
    | arr items => exact congrArg Json.arr (classIds_json h)
    | _ => cases h

/-- The scalar settings are never coerced. -/
theorem cvScalars_are {s : CvScalars} (h : cvScalars raw = some s) : ScalarsAre raw s := by
  unfold cvScalars at h
  -- every field is converted on its own, in the order of the constructor
  obtain ⟨fps, hfps, h⟩ := Option.bind_eq_some_iff.mp h
  obtain ⟨confidence, hconfidence, h⟩ := Option.bind_eq_some_iff.mp h
  obtain ⟨tolerance, htolerance, h⟩ := Option.bind_eq_some_iff.mp h
  obtain ⟨cooldown, hcooldown, h⟩ := Option.bind_eq_some_iff.mp h
  obtain ⟨margin, hmargin, h⟩ := Option.bind_eq_some_iff.mp h
  obtain ⟨iou, hiou, h⟩ := Option.bind_eq_some_iff.mp h
  obtain ⟨trackerIou, htrackerIou, h⟩ := Option.bind_eq_some_iff.mp h
  obtain ⟨interval, hinterval, h⟩ := Option.bind_eq_some_iff.mp h
  obtain ⟨stale, hstale, h⟩ := Option.bind_eq_some_iff.mp h
  obtain ⟨age, hage, h⟩ := Option.bind_eq_some_iff.mp h
  obtain ⟨hits, hhits, h⟩ := Option.bind_eq_some_iff.mp h
  obtain ⟨recognition, hrecognition, h⟩ := Option.bind_eq_some_iff.mp h
  obtain ⟨device, hdevice, h⟩ := Option.bind_eq_some_iff.mp h
  obtain ⟨ids, hids, h⟩ := Option.bind_eq_some_iff.mp h
  cases h
  exact {
    analyticsFps := numberField_is hfps
    confidenceThreshold := numberField_is hconfidence
    faceTolerance := numberField_is htolerance
    intrusionCooldownSeconds := numberField_is hcooldown
    intrusionRetentionMarginSeconds := numberField_is hmargin
    iouThreshold := numberField_is hiou
    trackerIouThreshold := numberField_is htrackerIou
    faceInterval := intField_is hinterval
    peopleCounterStaleAfterFrames := intField_is hstale
    trackerMaxAge := intField_is hage
    trackerMinHits := intField_is hhits
    faceRecognition := boolField_is hrecognition
    device := deviceField_is hdevice
    targetClassIds := classIdsField_is hids }

/-- The settings are read from the object of the record, and are empty without one. -/
theorem rawConfig_eq_some {config : Json} (h : rawConfig config = some raw) :
    raw = fieldsOf config := by
  unfold rawConfig at h
  split at h
  next =>
    cases config with
    | obj fields => exact (Option.some.inj h).symm
    | _ => cases h
  next htruthy =>
    cases h
    cases config with
    | obj fields =>
      cases fields with
      | nil => rfl
      | cons field rest => exact absurd rfl htruthy
    | _ => rfl

end

/-! ### Definitions -/

section
variable {py : Builtins} {record : CameraRecord} {d : CameraDefinition}

/-- `_cv_config` succeeds exactly when its parts do and their bounds and ids are right. -/
theorem cvConfig_eq_some {settings : CvSettings} : cvConfig py record = some settings ↔
    ∃ raw, rawConfig record.analyticsConfig = some raw ∧ cvScalars raw = some settings.scalars ∧
      zonesOf py record.zones = some settings.zones ∧ lineOf py raw = some settings.line ∧
      settings.scalars.inBounds = true ∧ (settings.zones.map (·.id)).Nodup := by
  simp only [cvConfig, Option.bind_eq_bind, Option.bind_eq_some_iff]
  constructor
  · rintro ⟨raw, hraw, scalars, hscalars, zones, hzones, line, hline, h⟩
    split at h
    next hchecks =>
      cases h
      exact ⟨raw, hraw, hscalars, hzones, hline, hchecks.1, hchecks.2⟩
    next => cases h
  · rintro ⟨raw, hraw, hscalars, hzones, hline, hbounds, hunique⟩
    refine ⟨raw, hraw, settings.scalars, hscalars, settings.zones, hzones, settings.line, hline, ?_⟩
    rw [if_pos ⟨hbounds, hunique⟩]
    rfl

/-- A definition is made exactly of a source, the settings and the id of the record. -/
theorem definition_ok_iff : definition py record = .ok d ↔ sourceOf py record = some d.source ∧
    cvConfig py record = some d.cvConfig ∧ d.cameraId = record.id.text := by
  unfold definition
  -- the source and the configuration may both raise, and the id is taken as it is
  cases sourceOf py record with
  | none =>
    constructor
    · intro h
      cases h
    · rintro ⟨h, -⟩
      cases h
  | some source =>
    cases cvConfig py record with
    | none =>
      constructor
      · intro h
        cases h
      · rintro ⟨-, h, -⟩
        cases h
    | some config =>
      constructor
      · intro h
        cases h
        exact ⟨rfl, rfl, rfl⟩
      · rintro ⟨hsource, hconfig, hid⟩
        cases hsource
        cases hconfig
        cases d
        cases hid
        rfl

/-- A record that is rejected is rejected as a failure of its configuration. -/
theorem definition_error {error : DefinitionError} (h : definition py record = .error error) :
    error.error.category = .configuration := by
  unfold definition at h
  split at h
  next => cases h
  next =>
    cases h
    rfl

/-- A record is accepted when it passes every check. -/
theorem acceptable_iff : Acceptable py record ↔ ∃ d, definition py record = .ok d := by
  constructor
  · rintro ⟨hsource, ⟨raw, scalars, hraw, hscalars, hbounds, hline⟩, ⟨zones, hzones, hunique⟩⟩
    obtain ⟨source, hsource⟩ := Option.isSome_iff_exists.mp hsource
    obtain ⟨line, hline⟩ := Option.isSome_iff_exists.mp hline
    exact ⟨⟨record.id.text, source, ⟨scalars, zones, line⟩⟩, definition_ok_iff.mpr ⟨hsource,
      cvConfig_eq_some.mpr ⟨raw, hraw, hscalars, hzones, hline, hbounds, hunique⟩, rfl⟩⟩
  · rintro ⟨d, hd⟩
    obtain ⟨hsource, hconfig, -⟩ := definition_ok_iff.mp hd
    obtain ⟨raw, hraw, hscalars, hzones, hline, hbounds, hunique⟩ := cvConfig_eq_some.mp hconfig
    exact { source := Option.isSome_iff_exists.mpr ⟨_, hsource⟩
            scalars := ⟨raw, _, hraw, hscalars, hbounds, Option.isSome_iff_exists.mpr ⟨_, hline⟩⟩
            zones := ⟨_, hzones, hunique⟩ }

/-- A definition has the values of its record exactly when the record is typed. -/
theorem uncoerced_iff (h : definition py record = .ok d) : Uncoerced record d ↔ Typed record := by
  obtain ⟨-, hconfig, -⟩ := definition_ok_iff.mp h
  obtain ⟨raw, hraw, hscalars, hzones, hline, -, -⟩ := cvConfig_eq_some.mp hconfig
  rw [rawConfig_eq_some hraw] at hscalars hline
  have hzonesIff := forall₂_iff (zonesOf_eq_some hzones) fun _ _ => zoneIs_iff
  have hlineIff := lineIs_iff hline
  constructor
  · intro huncoerced
    exact { zones := hzonesIff.mp huncoerced.zones, line := hlineIff.mp huncoerced.line }
  · intro htyped
    exact { scalars := cvScalars_are hscalars
            zones := hzonesIff.mpr htyped.zones
            line := hlineIff.mpr htyped.line }

end

/-- Each record is refused as a configuration error or becomes a definition with its values,
exactly when it is typed or fails another check. -/
theorem camera_configuration_not_coerced (py : Builtins) (record : CameraRecord) :
    ((∃ error, definition py record = .error error ∧ error.error.category = .configuration) ∨
      ∃ d, definition py record = .ok d ∧ Uncoerced record d) ↔
    (Acceptable py record → Typed record) := by
  rw [acceptable_iff]
  constructor
  · rintro (⟨error, herror, -⟩ | ⟨d, hd, huncoerced⟩) ⟨d', hd'⟩
    · rw [herror] at hd'
      cases hd'
    · exact (uncoerced_iff hd).mp huncoerced
  · intro htyped
    cases h : definition py record with
    | error error => exact .inl ⟨error, rfl, definition_error h⟩
    | ok d => exact .inr ⟨d, rfl, (uncoerced_iff h).mpr (htyped ⟨d, h⟩)⟩

/-- The conversions, for integers. -/
def integerBuiltins : Builtins where
  render
    | .int n => toString n
    | _ => ""
  floatText _ := none
  intText _ := none
  isDecimal _ := false

/-- A camera whose zone has the id `5`. -/
def numberedZone : CameraRecord where
  id := 1
  streamUrl := "rtsp://camera"
  streamType := .rtsp
  analyticsConfig := .obj []
  zones := .arr [.obj [("id", .int 5), ("vertices", .arr [.arr [.int 0, .int 0],
    .arr [.int 1, .int 0], .arr [.int 0, .int 1]])]]

/-- The zone becomes `"5"`. -/
theorem camera_configuration_numbered_zone :
    ∃ d, definition integerBuiltins numberedZone = .ok d ∧ ¬ Uncoerced numberedZone d := by
  have hok : (definition integerBuiltins numberedZone).toBool = true := by decide +kernel
  cases h : definition integerBuiltins numberedZone with
  | error error =>
    rw [h] at hok
    cases hok
  | ok d =>
    refine ⟨d, rfl, ?_⟩
    rw [uncoerced_iff h]
    intro htyped
    obtain ⟨fields, id, points, heq, hid, -⟩ := htyped.zones _ List.mem_cons_self
    cases heq
    have hid5 : Dict.get [("id", .int 5), ("vertices", .arr [.arr [.int 0, .int 0],
        .arr [.int 1, .int 0], .arr [.int 0, .int 1]])] "id" = some (.int 5) := rfl
    rw [hid5] at hid
    cases hid

end Rsap.Proofs
