import Rsap.Cv.PeopleCounter
import Rsap.Cv.Zones
import Rsap.Desktop.Schemas
import Rsap.Orchestration.Models

/-!
# `Rsap.Orchestration.Definitions`: `Agent2CameraCatalog._definition`

The camera record becomes a definition for the orchestrator, with a `CVConfig`. Every exception on
the way is caught and becomes one `OrchestrationError`, so the parts return an `Option`.

`Builtins` are the conversions of Python whose text the result depends on and the checks do not:
`str` of a value that is not a string, and how `float`, `int` and `isdecimal` read a text. A float
is a rational number. An integer too large for its 53 bits is rounded by `float`.
-/

set_option autoImplicit false

namespace Rsap.Orchestration.Catalog

open Rsap.Cv (Point Coordinate CountingLine zonePostInit)
open Rsap.Desktop (Uuid StreamType)

/-- Conversions of Python that involve a text. -/
structure Builtins where
  -- `str(value)` of a value that is not a string
  render : Json → String
  -- `float(text)`, where `none` is `ValueError`
  floatText : String → Option Coordinate
  -- `int(text)`, where `none` is `ValueError`
  intText : String → Option Int
  isDecimal : String → Bool

/-- `str(value)`. -/
def Builtins.str (py : Builtins) : Json → String
  | .str s => s
  | value => py.render value

/-- `bool(value)`. -/
def truthy : Json → Bool
  | .null => false
  | .bool b => b
  | .int n => n != 0
  | .float x => x != 0
  | .str s => s != ""
  | .arr items => !items.isEmpty
  | .obj fields => !fields.isEmpty

/-- The nearest number of 53 bits, and the even one of two. -/
def roundBits (n : Nat) : Nat :=
  let shift := n.log2 - 52
  let quotient := n / 2 ^ shift
  let rest := n % 2 ^ shift
  let up := 2 ^ shift < 2 * rest ∨ (2 ^ shift = 2 * rest ∧ quotient % 2 = 1)
  (if up then quotient + 1 else quotient) * 2 ^ shift

/-- `float(n)`, where `none` is `OverflowError`. -/
def floatOfInt (n : Int) : Option Rat :=
  let rounded := roundBits n.natAbs
  if 2 ^ 1024 ≤ rounded then none
  else some (if n < 0 then -rounded else rounded)

/-- `float(value)`, where `none` is any exception. -/
def Builtins.float (py : Builtins) : Json → Option Coordinate
  | .bool b => some (.finite (if b then 1 else 0))
  | .int n => (floatOfInt n).map .finite
  | .float x => some (.finite x)
  | .str s => py.floatText s
  | _ => none

/-- `tuple(value)`: an object gives its keys, a string its characters. -/
def iterate : Json → Option (List Json)
  | .arr items => some items
  | .obj fields => some (fields.map fun field => .str field.1)
  | .str s => some (s.toList.map fun c => .str c.toString)
  | _ => none

/-- The value of a coordinate that is finite. -/
def finiteValue : Coordinate → Option Rat
  | .finite x => some x
  | _ => none

/-- Two coordinates that `float` takes and that are finite. -/
def pointOf (py : Builtins) (point : List Json) : Option Point :=
  match point with
  | [x, y] => do
    let x ← py.float x >>= finiteValue
    let y ← py.float y >>= finiteValue
    return (x, y)
  | _ => none

/-! ### Settings -/

/-- An `int` or a `float`, as the record has it. -/
inductive Number where
  | int (n : Int)
  | float (x : Rat)
  deriving DecidableEq

def Number.value : Number → Rat
  | .int n => n
  | .float x => x

/-- A key of `_CV_FLOAT_FIELDS`. -/
def numberField (raw : Dict) (key : String) (default : Number) : Option Number :=
  match raw.get key with
  | none => some default
  | some (.int n) => if (floatOfInt n).isSome then some (.int n) else none
  | some (.float x) => some (.float x)
  | some _ => none

/-- A key of `_CV_INTEGER_FIELDS`. -/
def intField (raw : Dict) (key : String) (default : Int) : Option Int :=
  match raw.get key with
  | none => some default
  | some (.int n) => some n
  | some _ => none

/-- A key whose value has to be a `bool`. -/
def boolField (fields : Dict) (key : String) (default : Bool) : Option Bool :=
  match fields.get key with
  | none => some default
  | some (.bool b) => some b
  | some _ => none

/-- `device`. -/
def deviceField (raw : Dict) : Option String :=
  match raw.get "device" with
  | none => some "auto"
  | some (.str s) => some s
  | some _ => none

/-- An item of `target_class_ids`. -/
def classId : Json → Option Int
  | .int n => some n
  | _ => none

/-- `target_class_ids`. -/
def classIdsField (raw : Dict) : Option (List Int) :=
  match raw.get "target_class_ids" with
  | none => some [0, 1, 2, 3]
  | some (.arr items) => items.mapM classId
  | some _ => none

/-- The scalar fields of a `CVConfig`. -/
structure CvScalars where
  analyticsFps : Number
  confidenceThreshold : Number
  faceTolerance : Number
  intrusionCooldownSeconds : Number
  intrusionRetentionMarginSeconds : Number
  iouThreshold : Number
  trackerIouThreshold : Number
  faceInterval : Int
  peopleCounterStaleAfterFrames : Int
  trackerMaxAge : Int
  trackerMinHits : Int
  faceRecognition : Bool
  device : String
  targetClassIds : List Int
  deriving DecidableEq

/-- The scalar part of `_cv_config`, with the defaults of `CVConfig`. -/
def cvScalars (raw : Dict) : Option CvScalars := do
  let analyticsFps ← numberField raw "analytics_fps" (.float 10)
  let confidenceThreshold ← numberField raw "confidence_threshold" (.float (1 / 2))
  let faceTolerance ← numberField raw "face_tolerance" (.float (3 / 5))
  let intrusionCooldownSeconds ← numberField raw "intrusion_cooldown_seconds" (.float 5)
  let intrusionRetentionMarginSeconds ←
    numberField raw "intrusion_retention_margin_seconds" (.float 60)
  let iouThreshold ← numberField raw "iou_threshold" (.float (9 / 20))
  let trackerIouThreshold ← numberField raw "tracker_iou_threshold" (.float (3 / 10))
  let faceInterval ← intField raw "face_interval" 5
  let peopleCounterStaleAfterFrames ← intField raw "people_counter_stale_after_frames" 30
  let trackerMaxAge ← intField raw "tracker_max_age" 3
  let trackerMinHits ← intField raw "tracker_min_hits" 2
  let faceRecognition ← boolField raw "face_recognition" false
  let device ← deviceField raw
  let targetClassIds ← classIdsField raw
  return { analyticsFps, confidenceThreshold, faceTolerance, intrusionCooldownSeconds,
           intrusionRetentionMarginSeconds, iouThreshold, trackerIouThreshold, faceInterval,
           peopleCounterStaleAfterFrames, trackerMaxAge, trackerMinHits, faceRecognition, device,
           targetClassIds }

/-- `0|[1-9][0-9]*`. -/
def isDeviceIndex : List Char → Bool
  | ['0'] => true
  | c :: rest => ('1' ≤ c && c ≤ '9') && rest.all fun d => '0' ≤ d && d ≤ '9'
  | [] => false

/-- `validate_device_syntax`. -/
def validDevice (device : String) : Bool :=
  device == "auto" || device == "cpu" ||
    match device.toList with
    | ['c', 'u', 'd', 'a'] => true
    | 'c' :: 'u' :: 'd' :: 'a' :: ':' :: index => isDeviceIndex index
    | _ => false

/-- The bounds that `CVConfig.__post_init__` checks. -/
def CvScalars.inBounds (s : CvScalars) : Bool :=
  validDevice s.device &&
    ([s.confidenceThreshold, s.iouThreshold, s.trackerIouThreshold].all fun v =>
      0 ≤ v.value && v.value ≤ 1) &&
    (0 < s.analyticsFps.value && 1 ≤ s.faceInterval) &&
    (0 ≤ s.trackerMaxAge && 1 ≤ s.trackerMinHits) && 0 ≤ s.peopleCounterStaleAfterFrames &&
    (0 ≤ s.intrusionCooldownSeconds.value && 0 ≤ s.intrusionRetentionMarginSeconds.value)

/-! ### Zones and the counting line -/

/-- A `Zone` of the configuration. -/
structure ZoneConfig where
  id : String
  name : String
  vertices : List Point
  color : List Int
  alertOnEntry : Bool
  normalized : Bool
  deriving DecidableEq

/-- A channel of `color`. -/
def channel : Json → Option Int
  | .int n => if 0 ≤ n ∧ n ≤ 255 then some n else none
  | _ => none

/-- `color`. -/
def colorField (fields : Dict) : Option (List Int) :=
  match fields.get "color" with
  | none => some [0, 255, 0]
  | some (.arr items) => if items.length = 3 then items.mapM channel else none
  | some _ => none

/-- `str(value.get("name") or value["id"])`. -/
def nameField (py : Builtins) (fields : Dict) (id : Json) : String :=
  match fields.get "name" with
  | some name => if truthy name then py.str name else py.str id
  | none => py.str id

/-- The vertices of `_zone`, as the constructor of `Zone` converts them. -/
def verticesField (py : Builtins) (fields : Dict) : Option (List Point) := do
  let value ← fields.get "vertices"
  let points ← iterate value
  points.mapM fun point => iterate point >>= pointOf py

/-- `_zone`, with `Zone.__post_init__`. -/
def zoneOf (py : Builtins) : Json → Option ZoneConfig
  | .obj fields => do
    let normalized ← boolField fields "normalized" true
    let alertOnEntry ← boolField fields "alert_on_entry" false
    let color ← colorField fields
    let id ← Dict.get fields "id"
    let vertices ← verticesField py fields
    let vertices ← (zonePostInit (PyStr.ofString (py.str id)) vertices normalized).toOption
    return { id := py.str id, name := nameField py fields id, vertices, color, alertOnEntry,
             normalized }
  | _ => none

/-- `tuple(_zone(value) for value in record.get("zones") or ())`. -/
def zonesOf (py : Builtins) (zones : Json) : Option (List ZoneConfig) :=
  if truthy zones then iterate zones >>= fun items => items.mapM (zoneOf py) else some []

/-- `CountingLine.__post_init__`. -/
def countingLine (start stop : Point) (normalized : Bool) : Option CountingLine :=
  if hbounds : normalized = true → ∀ value ∈ [start.1, start.2, stop.1, stop.2],
      0 ≤ value ∧ value ≤ 1 then
    if hdistinct : start ≠ stop then some ⟨start, stop, normalized, hdistinct, hbounds⟩ else none
  else none

/-- An end of the counting line. -/
def endField (py : Builtins) (fields : Dict) (key : String) : Option Point := do
  let value ← fields.get key
  let coordinates ← iterate value
  pointOf py coordinates

/-- `counting_line`. -/
def lineOf (py : Builtins) (raw : Dict) : Option (Option CountingLine) :=
  match raw.get "counting_line" with
  | none => some none
  | some .null => some none
  | some (.obj fields) => do
    let normalized ← boolField fields "normalized" true
    let start ← endField py fields "start"
    let stop ← endField py fields "end"
    let line ← countingLine start stop normalized
    return some line
  | some _ => none

/-! ### Definitions -/

/-- The `CVConfig` of a definition. -/
structure CvSettings where
  scalars : CvScalars
  zones : List ZoneConfig
  line : Option CountingLine

/-- `intrusion_zone_ids`. -/
def CvSettings.intrusionZoneIds (s : CvSettings) : List String :=
  (s.zones.filter (·.alertOnEntry)).map (·.id)

/-- What `_definition` reads of a camera record. -/
structure CameraRecord where
  id : Uuid
  streamUrl : String
  streamType : StreamType
  analyticsConfig : Json
  zones : Json

/-- `record.get("analytics_config") or {}`, which has to be an object. -/
def rawConfig (analyticsConfig : Json) : Option Dict :=
  if truthy analyticsConfig then
    match analyticsConfig with
    | .obj fields => some fields
    | _ => none
  else some []

/-- `_cv_config`, with `CVConfig.__post_init__`. The intrusion zones are among the zones. -/
def cvConfig (py : Builtins) (record : CameraRecord) : Option CvSettings := do
  let raw ← rawConfig record.analyticsConfig
  let scalars ← cvScalars raw
  let zones ← zonesOf py record.zones
  let line ← lineOf py raw
  if scalars.inBounds ∧ (zones.map (·.id)).Nodup then return { scalars, zones, line } else none

/-- `CameraDefinition.source`. -/
inductive Source where
  | text (s : String)
  | index (n : Int)
  deriving DecidableEq

/-- The source of the definition. -/
def sourceOf (py : Builtins) (record : CameraRecord) : Option Source :=
  if (PyStr.ofString record.streamUrl).isBlank then none
  else if record.streamType = .webcam ∧ py.isDecimal record.streamUrl then
    (py.intText record.streamUrl).map .index
  else some (.text record.streamUrl)

structure CameraDefinition where
  cameraId : String
  source : Source
  cvConfig : CvSettings

/-- The `OrchestrationError` of `_definition`, with its camera. -/
structure DefinitionError where
  cameraId : Option String
  error : OrchestrationError
  deriving DecidableEq

/-- `_definition`. -/
def definition (py : Builtins) (record : CameraRecord) :
    Except DefinitionError CameraDefinition :=
  match sourceOf py record, cvConfig py record with
  | some source, some cvConfig => .ok { cameraId := Uuid.text record.id, source, cvConfig }
  | _, _ => .error ⟨some (Uuid.text record.id),
      ⟨.configuration, "camera runtime configuration is invalid"⟩⟩

end Rsap.Orchestration.Catalog
