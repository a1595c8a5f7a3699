import Rsap.Desktop.Sync
import Mathlib.Logic.Function.Basic

/-!
# `Rsap.Desktop.Central`: the central service as the desktop sees it

What the desktop's requests do at the central side: cameras
(`webapp-backend/app/routers/cameras.py`) and sessions (`webapp-backend/app/routers/auth.py`).
A login revokes the other sessions of its user. A request has an effect only under a live
session. Creating a camera that exists with the posted fields is a success without an effect.

`Central.answer` is one HTTP attempt as seen from outside: whether the service applied the
request, and how the attempt ended at the client. The two are independent, since a response can
be lost, with two exceptions: a success was applied, and a 404 for the deletion of a camera
means that there is no such camera.

`events` is a history: the logins that the service accepted and the logouts that it accepted or
answered with 401 or 403, newest first.
-/

set_option autoImplicit false

namespace Rsap.Desktop

/-- An entry of the history of sessions. -/
inductive CentralEvent where
  | login (user : Uuid) (sessionToken : Token)
  | logout (sessionToken : Token)
  deriving DecidableEq, Repr

/-- The state of the central service. -/
structure Central where
  cameras : Uuid → Option CameraFields
  /-- The sessions that are not revoked, each with its user. -/
  live : List (Uuid × Token)
  /-- The access tokens that are not expired, each with its session token. -/
  access : List (Token × Token)
  /-- Every session token that was issued. -/
  issued : List Token
  events : List CentralEvent

/-- The service before the first login. -/
def Central.empty : Central := ⟨fun _ => none, [], [], [], []⟩

/-! ### Cameras -/

/-- The camera that a creation inserts. The column `is_active` defaults to true. -/
def CentralCameraCreate.created (body : CentralCameraCreate) : CameraFields where
  name := body.name
  streamUrl := body.streamUrl
  streamType := body.streamType
  locationLabel := body.locationLabel
  analyticsConfig := body.analyticsConfig
  zones := body.zones
  isActive := true

/-- `camera_create_matches`. -/
def CentralCameraCreate.createMatches (body : CentralCameraCreate) (row : CameraFields) : Bool :=
  row.name = body.name ∧ row.streamUrl = body.streamUrl ∧ row.streamType = body.streamType ∧
    row.locationLabel = body.locationLabel ∧ row.analyticsConfig = body.analyticsConfig ∧
    row.zones = body.zones

/-- The assignments of `update_camera`. -/
def CentralCameraUpdate.assign (body : CentralCameraUpdate) (row : CameraFields) :
    CameraFields :=
  { row with
      name := body.name.getD row.name
      streamUrl := body.streamUrl.getD row.streamUrl
      streamType := body.streamType.getD row.streamType
      locationLabel := body.locationLabel.getD row.locationLabel
      isActive := body.isActive.getD row.isActive }

/-- The assignments of `update_analytics_config`. -/
def CentralAnalyticsConfig.assign (body : CentralAnalyticsConfig) (row : CameraFields) :
    CameraFields :=
  { row with analyticsConfig := body.analyticsConfig, zones := body.zones }

namespace Central

/-- The cameras after a request, or none when the service rejects it. -/
def handleCameras (cameras : Uuid → Option CameraFields) (request : Request) :
    Option (Uuid → Option CameraFields) :=
  match request.method, request.endpoint, request.body with
  | .post, .cameras, .create body =>
    match cameras body.id with
    | none => some (Function.update cameras body.id (some body.created))
    | some row => if body.createMatches row then some cameras else none
  | .patch, .camera id, .update body =>
    (cameras id).map fun row => Function.update cameras id (some (body.assign row))
  | .patch, .analyticsConfig (.camera id), .analytics body =>
    (cameras id).map fun row => Function.update cameras id (some (body.assign row))
  | .delete, .camera id, _ =>
    (cameras id).map fun _ => Function.update cameras id none
  | .post, .syncEvents, .event _ => some cameras
  | .post, .syncAlerts, .alert _ => some cameras
  | .post, .syncPeopleCount, .count _ => some cameras
  | .post, .logout, _ => some cameras
  | _, _, _ => none

/-! ### Sessions -/

/-- The tokens that a request sends are those of a live session. -/
def Live (central : Central) (session : LocalSession) : Prop :=
  (∃ entry ∈ central.live, entry.2 = session.sessionToken) ∧
    (session.accessToken, session.sessionToken) ∈ central.access

instance (central : Central) (session : LocalSession) : Decidable (central.Live session) :=
  inferInstanceAs (Decidable (_ ∧ _))

/-- An accepted login. -/
def login (central : Central) (user : Uuid) (session : LocalSession) : Central :=
  { central with
      live := (user, session.sessionToken) :: central.live.filter fun entry => entry.1 ≠ user
      access := (session.accessToken, session.sessionToken) :: central.access
      issued := session.sessionToken :: central.issued
      events := .login user session.sessionToken :: central.events }

/-- An accepted refresh of the session. -/
def refresh (central : Central) (accessToken sessionToken : Token) : Central :=
  { central with access := (accessToken, sessionToken) :: central.access }

/-- An access token expires. -/
def expire (central : Central) (accessToken : Token) : Central :=
  { central with access := central.access.filter fun entry => entry.1 ≠ accessToken }

/-- The effect of a request under the tokens of a session, or none when the service rejects
it. -/
def handle (central : Central) (session : LocalSession) (request : Request) : Option Central :=
  if central.Live session then
    (handleCameras central.cameras request).map fun cameras =>
      { central with
          cameras
          live :=
            if request.endpoint = .logout then
              central.live.filter fun entry => entry.2 ≠ session.sessionToken
            else central.live }
  else none

/-! ### Attempts -/

/-- The data of a success. -/
def successData (outcome : AttemptOutcome) : Option Json :=
  match CentralApiClient.settleAttempt true outcome with
  | some (.data data) => some data
  | _ => none

/-- The status of an error that the service answered or the client made up. -/
def errorStatus (outcome : AttemptOutcome) : Option Nat :=
  match CentralApiClient.settleAttempt true outcome with
  | some (.error e) => some e.statusCode
  | _ => none

/-- The service is done with the session of a logout: it applied the logout, or it answered with
a success, a 401 or a 403. -/
def endsSession (applied : Bool) (outcome : AttemptOutcome) : Bool :=
  applied || (successData outcome).isSome || errorStatus outcome = some 401 ||
    errorStatus outcome = some 403

/-- The history after an attempt. -/
def note (session : LocalSession) (request : Request) (applied : Bool)
    (outcome : AttemptOutcome) (central : Central) : Central :=
  if request.endpoint = .logout ∧ endsSession applied outcome then
    { central with events := .logout session.sessionToken :: central.events }
  else central

/-- The service denies the camera of a deletion. -/
def deniesCamera (central : Central) (request : Request) (outcome : AttemptOutcome) : Bool :=
  match request.method, request.endpoint with
  | .delete, .camera id => errorStatus outcome = some 404 && (central.cameras id).isSome
  | _, _ => false

/-- One HTTP attempt. It is none when no service answers like that: a success that was not
applied, an effect that the service rejects, or a 404 for a camera that exists. -/
def answer (central : Central) (session : LocalSession) (request : Request) (applied : Bool)
    (outcome : AttemptOutcome) : Option Central :=
  if applied then
    (central.handle session request).map (note session request applied outcome)
  else if (successData outcome).isSome || central.deniesCamera request outcome then none
  else some (note session request applied outcome central)

end Central

end Rsap.Desktop
