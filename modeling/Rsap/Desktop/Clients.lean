import Rsap.Desktop.Database

/-!
# `Rsap.Desktop.Clients`: what a central call can end in

`CentralApiClient._unwrap` and `_request` (`app/clients.py`). One HTTP attempt ends in a
response or in an exception of `httpx` (`AttemptOutcome`). `_request` catches two classes of
exceptions, time-outs and network errors, and translates them to an `ExternalServiceError`
after its last attempt. An exception of another class leaves `_request` as it is
(`CallResult.raised`). So does an exception of the body's parser that is not a `ValueError`.

`settleAttempt` is the body of the loop of `_request`: the result of the call, or none when the
loop goes on.
-/

set_option autoImplicit false

namespace Rsap.Desktop

/-- `ExternalServiceError`. -/
structure ExternalServiceError where
  code : String
  message : String
  statusCode : Nat
  retryable : Bool
  deriving DecidableEq, Repr

/-- The exceptions that an `httpx` request raises, by class. `timeout` is `TimeoutException`
and `network` is `NetworkError`, each with its subclasses. -/
inductive HttpxError where
  | timeout
  | network
  | protocol
  | proxy
  | unsupportedProtocol
  | decoding
  | tooManyRedirects
  | invalidUrl
  deriving DecidableEq, Repr

/-- What `response.json()` does: return a value, raise a `ValueError`, or raise a
`RecursionError` on a body that is nested too deeply. -/
inductive ParsedBody where
  | value (json : Json)
  | valueError
  | recursionError
  deriving DecidableEq

/-- A response of the central service. -/
structure Response where
  statusCode : Nat
  contentType : String
  body : ParsedBody
  deriving DecidableEq

/-- `httpx.Response.is_error`. -/
def Response.isError (r : Response) : Bool := decide (400 ≤ r.statusCode ∧ r.statusCode ≤ 599)

/-- `content_type.split(";", 1)[0].lower()`. -/
def Response.mediaType (r : Response) : String :=
  (String.ofList (r.contentType.toList.takeWhile (· != ';'))).toLower

/-- The end of one HTTP attempt. -/
inductive AttemptOutcome where
  | response (response : Response)
  | raised (error : HttpxError)
  deriving DecidableEq

/-- The end of a call: the unwrapped data, the client's own error, or another exception. -/
inductive CallResult where
  | data (value : Json)
  | error (error : ExternalServiceError)
  | raised
  deriving DecidableEq

namespace CentralApiClient

/-- The error of a response that cannot be read. -/
def invalidResponse (message : String) (r : Response) : CallResult :=
  .error ⟨"invalid_response", message, 502, decide (500 ≤ r.statusCode)⟩

/-- `body.get("error")` when it is a nonempty string, and a fixed text otherwise. -/
def rejection (body : Json) : String :=
  match body with
  | .obj fields =>
    match Dict.get fields "error" with
    | some (.str message) =>
      if message.isEmpty then "Central service rejected the request" else message
    | _ => "Central service rejected the request"
  | _ => "Central service rejected the request"

/-- The envelope of a success: an object whose `success` is `true`. -/
def envelope (body : Json) : Option Dict :=
  match body with
  | .obj fields => if Dict.get fields "success" = some (.bool true) then some fields else none
  | _ => none

/-- `_unwrap`. -/
def unwrap (r : Response) : CallResult :=
  if r.mediaType ≠ "application/json" then
    invalidResponse "Central service returned an invalid content type" r
  else
    match r.body with
    | .valueError => invalidResponse "Central service returned an invalid response" r
    | .recursionError => .raised
    | .value body =>
      match r.isError, envelope body with
      | false, some fields => .data ((Dict.get fields "data").getD .null)
      | _, _ =>
        .error ⟨"central_rejected", rejection body, r.statusCode, decide (500 ≤ r.statusCode)⟩

/-- The error after the last attempt of a call that never got a response. -/
def unavailable : ExternalServiceError :=
  ⟨"central_unavailable", "Central service is unavailable", 503, true⟩

/-- The body of the loop of `_request`. It is none when the loop sleeps and tries again. -/
def settleAttempt (last : Bool) (outcome : AttemptOutcome) : Option CallResult :=
  match outcome with
  | .raised .timeout | .raised .network => if last then some (.error unavailable) else none
  | .raised _ => some .raised
  | .response r =>
    match unwrap r with
    | .error e => if !e.retryable || last then some (.error e) else none
    | result => some result

/-- The last attempt of a call ends it. -/
theorem settleAttempt_last (outcome : AttemptOutcome) :
    (settleAttempt true outcome).isSome = true := by
  unfold settleAttempt
  split
  · rfl
  · rfl
  · rfl
  · split
    · simp
    · rfl

end CentralApiClient

end Rsap.Desktop
