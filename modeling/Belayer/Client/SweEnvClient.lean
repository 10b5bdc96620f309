import Belayer.Framework.Run
import Belayer.Framework.Text

namespace Belayer.Client

open Belayer.Framework

-- `β` is what a reply holds beside the fields that `_post_with_retry` looks at
variable {β : Type*}

/-- A reply of the pool server, or what stands for one after an exception. -/
structure Response (β : Type*) where
  ok : Bool
  retryable : Bool
  error : String
  body : Option β
  deriving DecidableEq

structure ClientParams where
  appErrorMaxRetries : Int
  allocateAppMaxRetries : Int
  hasSlime : Bool
  isDistributed : Bool

/-- How `_post_once` sends a request: by an actor of slime's `post`, by slime's own client, or by
urllib. -/
inductive Via where
  | actor
  | slime
  | urllib
  deriving DecidableEq

/-- What `_post_with_retry` is about to do or awaits; requests are numbered as they are sent. -/
inductive CallPhase (β : Type*) where
  | posting (attempt : Nat) (via : Via)
  | awaiting (attempt : Nat) (via : Via) (request : Nat)
  | sleeping (attempt : Nat)
  | returned (out : Response β)
  | raised (lastOut : Response β)
  | cancelled
  deriving DecidableEq

/-- A call of `_post_with_retry`. -/
structure ClientCall (β : Type*) where
  phase : CallPhase β
  sent : Nat
  deriving DecidableEq

inductive ClientEvent (β : Type*) where
  | send
  | reply (out : Response β)
  | fail (text : String)
  | wake
  | cancel

def nonRetryableMarkers : List String :=
  ["unknown lease_id", "lease_id required", "image is required", "command required",
    "invalid lease_id", "not initialized"]

namespace ClientParams

/-- `app_max_retries or self.app_error_max_retries`, at least one. -/
def maxAttempts (p : ClientParams) (appMaxRetries : Option Int) : Nat :=
  (max 1 ((appMaxRetries.filter (· ≠ 0)).getD p.appErrorMaxRetries)).toNat

def firstVia (p : ClientParams) : Via :=
  if p.hasSlime then if p.isDistributed then .actor else .slime else .urllib

end ClientParams

section Lower

-- `lower` is `str.lower`
variable (lower : String → String)

/-- `_is_retryable_app_error`. -/
def isRetryableAppError (out : Response β) : Bool :=
  if out.ok then false
  else if out.retryable then true
  else !nonRetryableMarkers.any fun marker => (Text.find marker (lower out.error)).isSome

/-- `_should_fallback_to_urllib`. -/
def shouldFallbackToUrllib (text : String) : Bool :=
  (Text.find "'NoneType' object has no attribute 'post'" text).isSome ||
    (Text.find "_http_client" text).isSome || (Text.find "http client" (lower text)).isSome

namespace ClientCall

variable (p : ClientParams) (maxAttempts : Nat)

def begin : ClientCall β := ⟨.posting 1 p.firstVia, 0⟩

/-- The end of an attempt. -/
def endAttempt (c : ClientCall β) (attempt : Nat) (out : Response β) : ClientCall β :=
  if out.ok then { c with phase := .returned out }
  else if maxAttempts ≤ attempt ∨ isRetryableAppError lower out = false then
    { c with phase := .raised out }
  else { c with phase := .sleeping attempt }

/-- An exception in a request: the next way to send it, or the end of the attempt. -/
def failAttempt (c : ClientCall β) (attempt : Nat) (via : Via) (text : String) : ClientCall β :=
  let out : Response β := ⟨false, true, text, none⟩
  match via with
  | .actor => { c with phase := .posting attempt .slime }
  | .slime =>
    if shouldFallbackToUrllib lower text then { c with phase := .posting attempt .urllib }
    else c.endAttempt lower maxAttempts attempt out
  | .urllib => c.endAttempt lower maxAttempts attempt out

def step (c : ClientCall β) : ClientEvent β → Option (ClientCall β)
  | .send =>
    match c.phase with
    | .posting attempt via => some ⟨.awaiting attempt via c.sent, c.sent + 1⟩
    | _ => none
  | .reply out =>
    match c.phase with
    | .awaiting attempt _ _ => some (c.endAttempt lower maxAttempts attempt out)
    | _ => none
  | .fail text =>
    match c.phase with
    | .awaiting attempt via _ => some (c.failAttempt lower maxAttempts attempt via text)
    | _ => none
  | .wake =>
    match c.phase with
    | .sleeping attempt => some { c with phase := .posting (attempt + 1) p.firstVia }
    | _ => none
  | .cancel =>
    match c.phase with
    | .returned _ | .raised _ | .cancelled => none
    | _ => some { c with phase := .cancelled }

end ClientCall

end Lower

end Belayer.Client
