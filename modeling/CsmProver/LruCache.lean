import CsmProver.InsertionMap

namespace CsmProver

/-!
# The cache of the consensus client

`LruCache.getOrFetch` answers from its items, joins a fetch that is in flight, or
starts one.  Calls overlap in any number: a call runs up to its first suspension
when it is made, the async block of a fetch goes on when the fetcher's promise
settles, and a call that waits goes on some time after the promise it waits for.
Any of these may come next.

A fetcher is an async function that does not call the cache itself, so its promise
settles after `getOrFetch` has entered it into `inFlight`.
-/

/-- The capacity and the options of a cache. -/
structure LruCache (TKey TValue : Type) where
  capacity : Nat
  shouldCache : TKey → Bool
  shouldCacheValue : TValue → Bool
  keyToString : TKey → String

namespace LruCache

/-- A promise of a fetch: that of the async block, or the fetcher's own if not cacheable. -/
structure Fetch (TValue ε : Type) where
  cacheKey : Option String
  outcome : Option (Except ε TValue)
  deriving Repr, DecidableEq

/-- Where a call has its answer from. -/
inductive Source (TValue : Type) where
  | cached (value : TValue)
  | promise (index : Nat)
  deriving Repr, DecidableEq

/-- A call of `getOrFetch`, and what it has returned or thrown. -/
structure Call (TKey TValue ε : Type) where
  key : TKey
  source : Source TValue
  outcome : Option (Except ε TValue)
  deriving Repr, DecidableEq

/-- The two maps of a cache, all fetches it has started and all calls it has had. -/
structure State (TKey TValue ε : Type) where
  items : InsertionMap String TValue
  inFlight : InsertionMap String Nat
  fetches : List (Fetch TValue ε)
  calls : List (Call TKey TValue ε)

section Machine

variable {TKey TValue ε : Type}

def State.initial : State TKey TValue ε where
  items := .empty
  inFlight := .empty
  fetches := []
  calls := []

/-- A call that has to wait for a promise. -/
def await (key : TKey) (promise : Nat) (state : State TKey TValue ε) : State TKey TValue ε :=
  { state with
    calls := state.calls ++ [{ key := key, source := .promise promise, outcome := none }] }

/-- Call the fetcher; the promise is the next one. -/
def startFetch (cacheKey : Option String) (state : State TKey TValue ε) :
    State TKey TValue ε :=
  { state with fetches := state.fetches ++ [{ cacheKey := cacheKey, outcome := none }] }

/-- A hit: the entry moves to the end and the call returns its value. -/
def hit (key : TKey) (cacheKey : String) (cached : TValue) (state : State TKey TValue ε) :
    State TKey TValue ε :=
  { state with
    items := (state.items.delete cacheKey).set cacheKey cached
    calls :=
      state.calls ++
        [{ key := key, source := .cached cached, outcome := some (.ok cached) }] }

variable (cache : LruCache TKey TValue)

/-- `getOrFetch` up to its first suspension or its return. -/
def getOrFetch (key : TKey) (state : State TKey TValue ε) : State TKey TValue ε :=
  if cache.shouldCache key then
    let cacheKey := cache.keyToString key
    match state.items.get cacheKey with
    | some cached => hit key cacheKey cached state
    | none =>
        match state.inFlight.get cacheKey with
        | some promise => await key promise state
        | none =>
            let promise := state.fetches.length
            let started := startFetch (some cacheKey) state
            await key promise
              { started with inFlight := started.inFlight.set cacheKey promise }
  else
    await key state.fetches.length (startFetch none state)

/-- Store a value and drop the oldest item if there are too many. -/
def store (cacheKey : String) (value : TValue) (state : State TKey TValue ε) :
    State TKey TValue ε :=
  let items := state.items.set cacheKey value
  let kept :=
    if items.size > cache.capacity then
      match items.oldestKey with
      | some oldestKey => items.delete oldestKey
      | none => items
    else
      items
  { state with items := kept }

/-- The async block after its fetch: the value is stored, then `finally` runs. -/
def finishFetch (cacheKey : String) (outcome : Except ε TValue)
    (state : State TKey TValue ε) : State TKey TValue ε :=
  let kept :=
    match outcome with
    | .ok value =>
        if cache.shouldCacheValue value then store cache cacheKey value state else state
    | .error _ => state
  { kept with inFlight := kept.inFlight.delete cacheKey }

/-- The promise of a fetcher settles; a promise settles once. -/
def settleFetch (promise : Nat) (outcome : Except ε TValue) (state : State TKey TValue ε) :
    State TKey TValue ε :=
  match state.fetches[promise]? with
  | some { cacheKey := cacheKey, outcome := none } =>
      let settled :=
        { state with
          fetches :=
            state.fetches.set promise { cacheKey := cacheKey, outcome := some outcome } }
      match cacheKey with
      | some cacheKey => finishFetch cache cacheKey outcome settled
      | none => settled
  | _ => state

/-- What a call that waits finds out from its promise. -/
def settledCall (fetches : List (Fetch TValue ε)) (call : Call TKey TValue ε) :
    Call TKey TValue ε :=
  match call.source with
  | .cached _ => call
  | .promise promise => { call with outcome := fetches[promise]?.bind Fetch.outcome }

/-- A call goes on; it waits on if its promise has not settled. -/
def resume (index : Nat) (state : State TKey TValue ε) : State TKey TValue ε :=
  { state with calls := state.calls.modify index (settledCall state.fetches) }

/-- `clear` leaves the fetches in flight as they are. -/
def clear (state : State TKey TValue ε) : State TKey TValue ε :=
  { state with items := .empty }

/-- What may happen next to a cache. -/
inductive Event (TKey TValue ε : Type) where
  | called (key : TKey)
  | settled (promise : Nat) (outcome : Except ε TValue)
  | resumed (index : Nat)
  | cleared
  deriving Repr, DecidableEq

def step (state : State TKey TValue ε) : Event TKey TValue ε → State TKey TValue ε
  | .called key => getOrFetch cache key state
  | .settled promise outcome => settleFetch cache promise outcome state
  | .resumed index => resume index state
  | .cleared => clear state

/-- A run of the cache from some state on. -/
def perform (state : State TKey TValue ε) (events : List (Event TKey TValue ε)) :
    State TKey TValue ε :=
  events.foldl (step cache) state

end Machine

end LruCache

end CsmProver
