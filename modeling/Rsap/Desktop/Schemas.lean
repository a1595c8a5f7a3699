import Rsap.Json

/-!
# `Rsap.Desktop.Schemas`: the desktop backend's records and central DTOs

The types follow `app/schemas.py` and `app/dtos.py`. A field is `Option` where the source
allows `None`. A partial update keeps apart a field that is not set (`none`) and a nullable
field set to null (`some none`), as `model_dump(exclude_unset=True)` does.

A UUID is its 128-bit value. The canonical text of a UUID has fixed width and lower-case
digits, so texts sort like values. A timestamp is an instant in microseconds. `iso` renders
every instant in UTC, so stored texts sort like instants too. Encrypted columns hold their
plaintext here: decryption inverts encryption under one key and purpose.
-/

set_option autoImplicit false

namespace Rsap.Desktop

/-- A UUID, by its value. -/
abbrev Uuid := Nat

/-- An instant, in microseconds. -/
abbrev Timestamp := Nat

/-- A bearer, refresh or session token. -/
abbrev Token := Nat

/-- `timedelta(seconds=n)`. -/
def seconds (n : Nat) : Nat := n * 1000000

/-- `timedelta(days=n)`. -/
def days (n : Nat) : Nat := seconds (n * 86400)

/-- The canonical text of a UUID, `str(UUID)`. -/
def Uuid.text (u : Uuid) : String :=
  let hex := Nat.toDigits 16 u
  let digits := List.replicate (32 - hex.length) '0' ++ hex
  String.ofList (digits.take 8 ++ '-' :: (digits.drop 8).take 4 ++ '-' :: (digits.drop 12).take 4
    ++ '-' :: (digits.drop 16).take 4 ++ '-' :: digits.drop 20)

/-- The kinds of camera stream. -/
inductive StreamType where
  | rtsp
  | webcam
  | nvr
  deriving DecidableEq, Repr

/-! ### Cameras -/

/-- The seven fields that the desktop and the central side both keep of a camera. -/
structure CameraFields where
  name : String
  streamUrl : String
  streamType : StreamType
  locationLabel : Option String
  analyticsConfig : Dict
  zones : List Dict
  isActive : Bool
  deriving DecidableEq

/-- The body of a local camera creation. -/
structure CameraCreate where
  name : String
  streamUrl : String
  streamType : StreamType
  locationLabel : Option String
  analyticsConfig : Dict
  zones : List Dict
  deriving DecidableEq

/-- The body of a local camera update. `validate_partial_update` rejects an empty one. -/
structure CameraUpdate where
  name : Option String
  streamUrl : Option String
  streamType : Option StreamType
  locationLabel : Option (Option String)
  analyticsConfig : Option Dict
  zones : Option (List Dict)
  isActive : Option Bool
  supplied : (name.isSome || streamUrl.isSome || streamType.isSome || locationLabel.isSome ||
    analyticsConfig.isSome || zones.isSome || isActive.isSome) = true

/-- `CentralCameraCreate`: the body of `POST /cameras/`. -/
structure CentralCameraCreate where
  id : Uuid
  name : String
  streamUrl : String
  streamType : StreamType
  locationLabel : Option String
  analyticsConfig : Dict
  zones : List Dict
  deriving DecidableEq

/-- `CentralCameraUpdate`: the body of `PATCH /cameras/{id}`. -/
structure CentralCameraUpdate where
  name : Option String
  streamUrl : Option String
  streamType : Option StreamType
  locationLabel : Option (Option String)
  isActive : Option Bool
  deriving DecidableEq

/-- `CentralAnalyticsConfig`: the body of `PATCH /cameras/{id}/analytics-config`. -/
structure CentralAnalyticsConfig where
  analyticsConfig : Dict
  zones : List Dict
  deriving DecidableEq

/-- The assignments of a local camera update. -/
def CameraUpdate.assign (changes : CameraUpdate) (fields : CameraFields) : CameraFields where
  name := changes.name.getD fields.name
  streamUrl := changes.streamUrl.getD fields.streamUrl
  streamType := changes.streamType.getD fields.streamType
  locationLabel := changes.locationLabel.getD fields.locationLabel
  analyticsConfig := changes.analyticsConfig.getD fields.analyticsConfig
  zones := changes.zones.getD fields.zones
  isActive := changes.isActive.getD fields.isActive

/-- The part of an update that `CentralCameraUpdate.model_validate` keeps. -/
def CameraUpdate.central (changes : CameraUpdate) : CentralCameraUpdate where
  name := changes.name
  streamUrl := changes.streamUrl
  streamType := changes.streamType
  locationLabel := changes.locationLabel
  isActive := changes.isActive

/-- `exclude_unset` left no field. -/
def CentralCameraUpdate.isEmpty (body : CentralCameraUpdate) : Bool :=
  !(body.name.isSome || body.streamUrl.isSome || body.streamType.isSome ||
    body.locationLabel.isSome || body.isActive.isSome)

/-! ### Analytics records -/

/-- The body of a local analytics event. -/
structure AnalyticsEventCreate where
  cameraId : Uuid
  eventType : String
  payload : Dict
  capturedImagePath : Option String
  capturedImageId : Option Uuid
  createdAt : Timestamp
  deriving DecidableEq

/-- The body of a local alert. -/
structure AlertCreate where
  cameraId : Uuid
  zoneId : Option String
  imagePath : Option String
  capturedImageId : Option Uuid
  confidence : Rat
  resolved : Bool
  createdAt : Timestamp
  deriving DecidableEq

/-- The body of a local people count. -/
structure PeopleCountCreate where
  cameraId : Uuid
  countIn : Nat
  countOut : Nat
  capturedAt : Timestamp
  deriving DecidableEq

/-- `CentralAnalyticsEvent`. -/
structure CentralAnalyticsEvent where
  id : Uuid
  cameraId : Uuid
  eventType : String
  payload : Dict
  capturedImageId : Option Uuid
  createdAt : Timestamp
  deriving DecidableEq

/-- `CentralAlert`. -/
structure CentralAlert where
  id : Uuid
  cameraId : Uuid
  zoneId : Option String
  capturedImageId : Option Uuid
  confidence : Rat
  resolved : Bool
  createdAt : Timestamp
  deriving DecidableEq

/-- `CentralPeopleCount`. -/
structure CentralPeopleCount where
  id : Uuid
  cameraId : Uuid
  countIn : Nat
  countOut : Nat
  timestamp : Timestamp
  deriving DecidableEq

/-! ### Sessions -/

/-- `LocalSession`: the tokens, user and licence of a login. `userId` is `user["id"]`. -/
structure LocalSession where
  accessToken : Token
  sessionToken : Token
  refreshToken : Option Token
  accessExpiresAt : Timestamp
  userId : Option Uuid
  license : Option Dict
  deriving DecidableEq

/-- The status of the local session row. -/
inductive SessionStatus where
  | active
  | revocationPending
  deriving DecidableEq, Repr

/-- `SessionRecord`: what `get_record` returns. -/
structure SessionRecord where
  session : LocalSession
  licenseValidUntil : Option Timestamp
  generation : Nat
  status : SessionStatus
  lastError : Option String
  deriving DecidableEq

end Rsap.Desktop
