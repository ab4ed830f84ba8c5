import CsmProver.Binary64

namespace CsmProver

/-!
# Requests of the REST providers

`BaseRestProvider.retryRequest` goes through its base URLs.  On each it makes one
attempt, waits, and leaves the URL to a retrier that doubles its delay with every
retry.  The next URL is tried when the retrier gives up.

A promise runs from the record of what has been done before it.  The retrier calls
itself with no bound of its own, so it is given fuel; a promise that has used it up
has not settled.  Retry counts and delays are integers, as the configuration gives
them, and are subtracted in double precision.
-/

namespace RestProvider

/-- The errors of a request; its status code is there if it got a response. -/
structure RequestError where
  message : String
  statusCode : Option Nat := none
  deriving Repr, DecidableEq

/-- A call of the callback on one of the base URLs, or a timer that has fired. -/
inductive Action where
  | called (position : Nat) (apiURL : String)
  | waited (milliseconds : Nat)
  deriving Repr, DecidableEq

/-- How a promise settles and what has been done until then; `none` if it never does. -/
abbrev Promise (α : Type) :=
  List Action → Option (Except RequestError α × List Action)

namespace Promise

variable {α β : Type}

/-- A promise that has resolved, with nothing done for it. -/
def resolve (value : α) : Promise α :=
  fun done => some (.ok value, done)

/-- A promise that has rejected. -/
def reject (err : RequestError) : Promise α :=
  fun done => some (.error err, done)

/-- `promise.then(onResolved)`. -/
def thenDo (promise : Promise α) (onResolved : α → Promise β) : Promise β :=
  fun done =>
    match promise done with
    | none => none
    | some (.ok value, settled) => onResolved value settled
    | some (.error err, settled) => some (.error err, settled)

/-- `promise.catch(onRejected)`. -/
def catchDo (promise : Promise α) (onRejected : RequestError → Promise α) : Promise α :=
  fun done =>
    match promise done with
    | none => none
    | some (.ok value, settled) => some (.ok value, settled)
    | some (.error err, settled) => onRejected err settled

section Rules

variable {promise : Promise α} {done settled : List Action} {value : α} {err : RequestError}

/-- What never settles is never continued. -/
theorem thenDo_pending
    {onResolved : α → Promise β}
    (pending : promise done = none) :
    promise.thenDo onResolved done = none := by
  simp [thenDo, pending]

/-- A resolved promise is continued with its value. -/
theorem thenDo_resolved
    {onResolved : α → Promise β}
    (resolved : promise done = some (.ok value, settled)) :
    promise.thenDo onResolved done = onResolved value settled := by
  simp [thenDo, resolved]

/-- A rejection passes a `then` by. -/
theorem thenDo_rejected
    {onResolved : α → Promise β}
    (rejected : promise done = some (.error err, settled)) :
    promise.thenDo onResolved done = some (.error err, settled) := by
  simp [thenDo, rejected]

/-- What never settles is never caught. -/
theorem catchDo_pending
    {onRejected : RequestError → Promise α}
    (pending : promise done = none) :
    promise.catchDo onRejected done = none := by
  simp [catchDo, pending]

/-- A value passes a `catch` by. -/
theorem catchDo_resolved
    {onRejected : RequestError → Promise α}
    (resolved : promise done = some (.ok value, settled)) :
    promise.catchDo onRejected done = some (.ok value, settled) := by
  simp [catchDo, resolved]

/-- A rejection is handed to the handler. -/
theorem catchDo_rejected
    {onRejected : RequestError → Promise α}
    (rejected : promise done = some (.error err, settled)) :
    promise.catchDo onRejected done = onRejected err settled := by
  simp [catchDo, rejected]

end Rules

end Promise

variable {ν : Type}

/-! ## Timers -/

/-- The delay of a timer: one millisecond if the delay asked for is out of range. -/
def timerDelay (delayMs : Int) : Nat :=
  if 1 ≤ delayMs ∧ delayMs ≤ 2147483647 then delayMs.toNat else 1

/-- Resolve after the delay. -/
def sleep (delayMs : Int) : Promise Unit :=
  fun done => some (.ok (), done ++ [.waited (timerDelay delayMs)])

/-- Reject with the same error after the delay. -/
def rejectDelay (delayMs : Int) (err : RequestError) : Promise ν :=
  fun done => some (.error err, done ++ [.waited (timerDelay delayMs)])

/-! ## Retrier -/

/-- What a retrier falls back on where its caller passes nothing. -/
structure RetrierDefaults where
  maxRetryCount : Int := 3
  minBackoffMs : Int := 1000
  maxBackoffMs : Int := 60000

/--
Try the callback until it resolves, the retries are used up or the backoff has
reached its maximum.
-/
def retrier (fuel : Nat) (defaults : RetrierDefaults) (callback : Promise ν)
    (maxRetryCount minBackoffMs maxBackoffMs : Option Int) : Promise ν :=
  match fuel with
  | 0 => fun _ => none
  | fuel + 1 =>
      let maxRetryCount := maxRetryCount.getD defaults.maxRetryCount
      let minBackoffMs := minBackoffMs.getD defaults.minBackoffMs
      let maxBackoffMs := maxBackoffMs.getD defaults.maxBackoffMs
      callback.catchDo fun err =>
        if maxRetryCount ≤ 1 ∨ minBackoffMs ≥ maxBackoffMs then
          .reject err
        else
          -- a double doubles exactly, or it is below any maximum and its timer is at one
          (sleep minBackoffMs).thenDo fun _ =>
            retrier fuel {} callback (some (Binary64.sub maxRetryCount 1))
              (some (minBackoffMs * 2)) (some maxBackoffMs)

/-! ## Provider -/

/-- The retries and the first delay of a provider. -/
structure RequestPolicy where
  maxRetries : Int
  retryDelay : Int

/-- A provider has its base URLs in the order of the configuration. -/
structure BaseRestProvider where
  baseUrls : List String
  requestPolicy : RequestPolicy

/-- The options of a request once the defaults are filled in. -/
structure RetryOptions (ν : Type) where
  maxRetries : Int
  useFallbackOnRejected : RequestError → RequestError → Bool
  useFallbackOnResolved : ν → Bool

/-- The options a caller passes. -/
structure PartialRetryOptions (ν : Type) where
  maxRetries : Option Int := none
  useFallbackOnRejected : Option (RequestError → RequestError → Bool) := none
  useFallbackOnResolved : Option (ν → Bool) := none

/-- The options of a request, with the defaults of the provider. -/
def PartialRetryOptions.fill (options : PartialRetryOptions ν) (policy : RequestPolicy) :
    RetryOptions ν where
  maxRetries := options.maxRetries.getD policy.maxRetries
  useFallbackOnRejected := options.useFallbackOnRejected.getD fun _ _ => true
  useFallbackOnResolved := options.useFallbackOnResolved.getD fun _ => false

/-- The promise chain of one base URL: the result, if there is one, and the error after it. -/
def requestUrl (policy : RequestPolicy) (options : RetryOptions ν)
    (retry : Promise ν → Promise ν) (callback : Promise ν) (err : RequestError) :
    Promise (Option ν × RequestError) :=
  (((callback.catchDo (rejectDelay policy.retryDelay)).catchDo
    fun _ => retry callback).thenDo fun r =>
      if options.useFallbackOnResolved r then
        .resolve (none, { message := "Unresolved data on a successful CL API response" })
      else
        .resolve (some r, err)).catchDo fun currentError =>
      if options.useFallbackOnRejected err currentError then
        .resolve (none, currentError)
      else
        .reject currentError

/-- The loop over the base URLs, at the position `i`. -/
def requestFrom (provider : BaseRestProvider) (options : RetryOptions ν)
    (retry : Promise ν → Promise ν) (callback : Nat → String → Promise ν) (i : Nat) :
    List String → Option ν → RequestError → Promise (Option ν)
  | [], res, _ => .resolve res
  | _ :: _, some res, _ => .resolve (some res)
  | apiURL :: rest, none, err =>
      (requestUrl provider.requestPolicy options retry (callback i apiURL) err).thenDo
        fun settled =>
          if i = provider.baseUrls.length - 1 ∧ settled.1.isNone then
            .reject { settled.2 with
              message :=
                "Error while doing CL API request on all passed URLs. " ++ settled.2.message }
          else
            requestFrom provider options retry callback (i + 1) rest settled.1 settled.2

/-- The callback is given the position of its URL besides the URL itself. -/
def retryRequest (fuel : Nat) (provider : BaseRestProvider)
    (callback : Nat → String → Promise ν) (options : PartialRetryOptions ν) :
    Promise (Option ν) :=
  let options := options.fill provider.requestPolicy
  let defaults : RetrierDefaults :=
    { maxRetryCount := options.maxRetries
      minBackoffMs := provider.requestPolicy.retryDelay
      maxBackoffMs := 10000 }
  requestFrom provider options (fun callback => retrier fuel defaults callback none none none)
    callback 0 provider.baseUrls none { message := "" }

/-! ## Outcomes of the attempts -/

/-- How every attempt ends, by the position of the URL and the earlier attempts on it. -/
abbrev Outcomes (ν : Type) :=
  Nat → Nat → Except RequestError ν

/-- The attempts on the URL at a position. -/
def attemptsOn (position : Nat) (done : List Action) : Nat :=
  done.countP fun
    | .called tried _ => tried = position
    | .waited _ => false

/-- One attempt. -/
def attempt (outcomes : Outcomes ν) (position : Nat) (apiURL : String) : Promise ν :=
  fun done =>
    some (outcomes position (attemptsOn position done), done ++ [.called position apiURL])

@[simp] theorem attemptsOn_nil
    (position : Nat) :
    attemptsOn position [] = 0 :=
  rfl

/-- Attempts add up over what is done. -/
@[simp] theorem attemptsOn_append
    (position : Nat)
    (done more : List Action) :
    attemptsOn position (done ++ more) = attemptsOn position done + attemptsOn position more :=
  List.countP_append

@[simp] theorem attemptsOn_waited
    (position milliseconds : Nat)
    (rest : List Action) :
    attemptsOn position (.waited milliseconds :: rest) = attemptsOn position rest := by
  simp [attemptsOn]

@[simp] theorem attemptsOn_called
    (position : Nat)
    (apiURL : String)
    (rest : List Action) :
    attemptsOn position (.called position apiURL :: rest) = attemptsOn position rest + 1 := by
  simp [attemptsOn]

theorem attemptsOn_called_other
    {position tried : Nat}
    (apiURL : String)
    (rest : List Action)
    (other : tried ≠ position) :
    attemptsOn position (.called tried apiURL :: rest) = attemptsOn position rest := by
  simp [attemptsOn, other]

end RestProvider

end CsmProver
