import Rsap.FileServer.Requests
import Rsap.Library.Machine

/-!
# `Rsap.FileServer.Initialize`: several workers prepare the buckets

The preparation of the storage (`app/minio_client.py`): each of the three buckets is created when it
is missing and made private, and the captures get their expiry rule. Every worker process runs it at
its start, so the calls of several workers interleave on one storage.

The answers of the storage are a parameter (`BucketStorage`). An outage is a call that raises an
error which is not one of the answers of the storage about the bucket, with or without its effect.
-/

set_option autoImplicit false

namespace Rsap.FileServer

open Rsap.Library

/-- What the storage keeps of a bucket besides its objects. -/
structure BucketState where
  present : Bool
  anonymousPolicy : Bool
  expirationDays : Option Nat
  deriving DecidableEq

/-- The error codes of the storage about a bucket. -/
inductive BucketCode where
  | bucketAlreadyOwnedByYou
  | bucketAlreadyExists
  | noSuchBucketPolicy
  | noSuchPolicy
  | noSuchBucket
  deriving DecidableEq

/-- The errors with which an object storage refuses `make_bucket` and `delete_bucket_policy`, with
what its documentation promises: a bucket is refused when it is there already, and a policy when the
bucket has none or is not there. -/
structure BucketStorage where
  makeError : BucketState → Option BucketCode
  policyError : BucketState → Option BucketCode
  make_refused : ∀ bucket code, makeError bucket = some code → bucket.present = true ∧
    code ∈ [BucketCode.bucketAlreadyOwnedByYou, .bucketAlreadyExists]
  policy_refused : ∀ bucket code, policyError bucket = some code →
    ¬ (bucket.present = true ∧ bucket.anonymousPolicy = true) ∧
      code ∈ [BucketCode.noSuchBucketPolicy, .noSuchPolicy, .noSuchBucket]

/-- The storage that refuses whatever it may. -/
def BucketStorage.strict : BucketStorage where
  makeError bucket := if bucket.present then some .bucketAlreadyOwnedByYou else none
  policyError bucket :=
    if !bucket.present then some .noSuchBucket
    else if bucket.anonymousPolicy then none
    else some .noSuchBucketPolicy
  make_refused bucket code h := by
    split at h
    · rename_i hpresent
      cases h
      exact ⟨hpresent, by decide⟩
    · cases h
  policy_refused bucket code h := by
    split at h
    · rename_i habsent
      cases h
      exact ⟨fun hboth => by simp [hboth.1] at habsent, by decide⟩
    · split at h
      · cases h
      · rename_i hnone
        cases h
        exact ⟨fun hboth => hnone hboth.2, by decide⟩

/-- Where a worker is: before a call for a bucket, with the buckets that come after it, before the
call for the expiry rule, or at its end. -/
inductive InitStage where
  | bucketExists (bucket : String) (rest : List String)
  | makeBucket (bucket : String) (rest : List String)
  | bucketExistsAgain (bucket : String) (rest : List String)
  | deletePolicy (bucket : String) (rest : List String)
  | setLifecycle
  | initialized
  | failed
  deriving DecidableEq

/-- The next turn of the loop over the buckets. -/
def InitStage.next : List String → InitStage
  | [] => .setLifecycle
  | bucket :: rest => .bucketExists bucket rest

/-- The buckets, and the workers that have started. -/
structure InitWorld where
  buckets : String → BucketState
  workers : List InitStage

namespace InitWorld

/-- `make_bucket`. -/
def make (w : InitWorld) (bucket : String) : InitWorld :=
  { w with
    buckets := fun b =>
      if b = bucket then { w.buckets b with present := true } else w.buckets b }

/-- `delete_bucket_policy`. -/
def deletePolicy (w : InitWorld) (bucket : String) : InitWorld :=
  { w with
    buckets := fun b =>
      if b = bucket then { w.buckets b with anonymousPolicy := false } else w.buckets b }

/-- `set_bucket_lifecycle` with the rule `expire-captures`. -/
def setLifecycle (w : InitWorld) (bucket : String) (days : Nat) : InitWorld :=
  { w with
    buckets := fun b =>
      if b = bucket then { w.buckets b with expirationDays := some days } else w.buckets b }

/-- The call of a worker, which the storage answers. -/
def call (storage : BucketStorage) (settings : Settings) (days : Nat) (w : InitWorld) :
    InitStage → InitWorld × InitStage
  | .bucketExists bucket rest =>
    (w, if (w.buckets bucket).present then .deletePolicy bucket rest else .makeBucket bucket rest)
  | .makeBucket bucket rest =>
    -- another worker may have created the bucket since the check
    match storage.makeError (w.buckets bucket) with
    | none => (w.make bucket, .deletePolicy bucket rest)
    | some code =>
      (w, if code ∈ [BucketCode.bucketAlreadyOwnedByYou, .bucketAlreadyExists] then
        .bucketExistsAgain bucket rest else .failed)
  | .bucketExistsAgain bucket rest =>
    (w, if (w.buckets bucket).present then .deletePolicy bucket rest else .failed)
  | .deletePolicy bucket rest =>
    match storage.policyError (w.buckets bucket) with
    | none => (w.deletePolicy bucket, .next rest)
    | some code =>
      (w, if code ∈ [BucketCode.noSuchBucketPolicy, .noSuchPolicy, .noSuchBucket] then .next rest
        else .failed)
  | .setLifecycle =>
    if (w.buckets settings.minioBucketCaptures).present then
      (w.setLifecycle settings.minioBucketCaptures days, .initialized)
    else (w, .failed)
  | .initialized => (w, .initialized)
  | .failed => (w, .failed)

end InitWorld

/-- A step: a worker starts, or one of them makes its next call. -/
inductive InitAct where
  | start
  | call (i : Nat)
  | outage (i : Nat) (effect : Bool)
  deriving DecidableEq

/-- The storage answers every call. -/
def InitAct.IsAnswered : InitAct → Prop
  | .outage _ _ => False
  | _ => True

/-- One step. -/
def InitWorld.step (storage : BucketStorage) (settings : Settings) (days : Nat) (w : InitWorld) :
    InitAct → Option InitWorld
  | .start => some { w with workers := w.workers ++ [.next settings.buckets] }
  | .call i =>
    (w.workers[i]?).map fun stage =>
      { (w.call storage settings days stage).1 with
        workers := w.workers.set i (w.call storage settings days stage).2 }
  | .outage i effect =>
    (w.workers[i]?).map fun stage =>
      { (if effect then (w.call storage settings days stage).1 else w) with
        workers := w.workers.set i .failed }

/-- The workers over a storage in any state. -/
def initMachine (storage : BucketStorage) (settings : Settings) (days : Nat)
    (buckets : String → BucketState) : Machine InitWorld InitAct where
  init := ⟨buckets, []⟩
  step := InitWorld.step storage settings days

end Rsap.FileServer
