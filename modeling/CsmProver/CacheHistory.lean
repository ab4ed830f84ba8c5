import CsmProver.SingleFlight

namespace CsmProver

/-!
# Where the answers of a cache come from

The source behind a cache may change while the cache is in use.  A fetch reads it at
some moment between its start and its end.  What a call returns was read under its own
key: by the fetch that stored it, or by a fetch that had not ended when it was made.
-/

namespace LruCache

variable {TKey TValue ε : Type}

/-! ## The history of a run -/

/-- A fetch as it was started, and the moment it settled. -/
structure Request (TKey : Type) where
  key : TKey
  start : Nat
  arrived : Option Nat

/-- A fetch settles once. -/
def Request.arrive (now : Nat) (request : Request TKey) : Request TKey :=
  { request with arrived := some (request.arrived.getD now) }

/-- The fetches by their promises, and the moments of the calls. -/
structure History (TKey : Type) where
  request : Nat → Option (Request TKey)
  called : Nat → Nat

namespace History

/-- Nothing has been asked or called yet. -/
def initial : History TKey where
  request := fun _ => none
  called := fun _ => 0

/-- A call may start the next fetch; what is noted otherwise is written over. -/
def note (now : Nat) (state : State TKey TValue ε) (history : History TKey) :
    Event TKey TValue ε → History TKey
  | .called key =>
      { request :=
          Function.update history.request state.fetches.length
            (some { key := key, start := now, arrived := none })
        called := Function.update history.called state.calls.length now }
  | .settled promise _ =>
      { history with
        request :=
          Function.update history.request promise
            ((history.request promise).map (Request.arrive now)) }
  | .resumed _ => history
  | .cleared => history

end History

/-! ## Honest sources -/

section Source

variable (cache : LruCache TKey TValue) (answers : Nat → String → TValue → Prop)

/-- A fetch that ends with a value has read it since it was started. -/
def Truthful (now : Nat) (history : History TKey) : Event TKey TValue ε → Prop
  | .settled promise (.ok value) =>
      ∀ request,
        history.request promise = some request →
        ∃ moment,
          request.start ≤ moment ∧ moment ≤ now ∧
            answers moment (cache.keyToString request.key) value
  | _ => True

/-- The key a fetch is cached under, if it is to be cached. -/
def cacheKeyOf (key : TKey) : Option String :=
  if cache.shouldCache key then some (cache.keyToString key) else none

/-- What a fetch of the cache has to do with its request. -/
structure Serves (now : Nat) (request : Request TKey) (fetch : Fetch TValue ε) : Prop where
  cacheKey : fetch.cacheKey = cacheKeyOf cache request.key
  waits : fetch.outcome = none → request.arrived = none
  settled : ∀ outcome, fetch.outcome = some outcome → request.arrived.isSome
  arrived : ∀ arrived, request.arrived = some arrived → arrived < now
  value :
    ∀ arrived value,
      request.arrived = some arrived →
      fetch.outcome = some (.ok value) →
      ∃ moment,
        request.start ≤ moment ∧ moment ≤ arrived ∧
          answers moment (cache.keyToString request.key) value

/-- A call waits for a fetch that is started or still open when it is made. -/
structure Joins (history : History TKey) (began : Nat) (key : TKey) (promise : Nat) :
    Prop where
  request :
    ∃ request,
      history.request promise = some request ∧
        cache.keyToString request.key = cache.keyToString key ∧
        (cache.shouldCache key = false → began ≤ request.start) ∧
        ∀ arrived, request.arrived = some arrived → began ≤ arrived

/-- A cached value was read before the call that returns it. -/
structure Remembers (began : Nat) (call : Call TKey TValue ε) (value : TValue) : Prop where
  returned : call.outcome = some (.ok value)
  shouldCache : cache.shouldCache call.key = true
  storable : cache.shouldCacheValue value = true
  read : ∃ moment, moment < began ∧ answers moment (cache.keyToString call.key) value

/-- Where a call has its answer from. -/
def IsSourced (history : History TKey) (began : Nat) (call : Call TKey TValue ε) : Prop :=
  match call.source with
  | .cached value => Remembers cache answers began call value
  | .promise promise => Joins cache history began call.key promise

/-- What the history of a run says of the state it has come to. -/
structure Sourced (now : Nat) (history : History TKey) (state : State TKey TValue ε) :
    Prop where
  consistent : Consistent cache state
  fetches :
    ∀ (promise : Nat) (fetch : Fetch TValue ε),
      state.fetches[promise]? = some fetch →
      ∃ request,
        history.request promise = some request ∧ Serves cache answers now request fetch
  stored :
    ∀ entry ∈ state.items.entries, ∃ moment, moment < now ∧ answers moment entry.1 entry.2
  calls :
    ∀ (index : Nat) (call : Call TKey TValue ε),
      state.calls[index]? = some call →
      history.called index < now ∧
        IsSourced cache answers history (history.called index) call
  waited :
    ∀ call ∈ state.calls, ∀ promise,
      call.source = .promise promise → promise < state.fetches.length

end Source

variable {cache : LruCache TKey TValue} {answers : Nat → String → TValue → Prop}
variable {now : Nat} {history : History TKey} {state : State TKey TValue ε}

/-- A new cache has nothing to account for. -/
theorem sourced_initial
    (cache : LruCache TKey TValue)
    (answers : Nat → String → TValue → Prop)
    (now : Nat) :
    Sourced cache answers now .initial (.initial : State TKey TValue ε) where
  consistent := consistent_initial cache
  fetches := by
    intro promise fetch isFetch
    cases isFetch
  stored := by
    intro entry member
    cases member
  calls := by
    intro index call isCall
    cases isCall
  waited := by
    intro call member
    cases member

/-! ## Steps -/

/-- A fetch serves its request from then on. -/
theorem Serves.later
    {request : Request TKey}
    {fetch : Fetch TValue ε}
    (serves : Serves cache answers now request fetch)
    {later : Nat}
    (isLater : now ≤ later) :
    Serves cache answers later request fetch where
  cacheKey := serves.cacheKey
  waits := serves.waits
  settled := serves.settled
  arrived := fun arrived isArrived => (serves.arrived arrived isArrived).trans_le isLater
  value := serves.value

/-- While nothing happens to the cache its history stays true. -/
theorem Sourced.later
    (sourced : Sourced cache answers now history state)
    {later : Nat}
    (isLater : now ≤ later) :
    Sourced cache answers later history state where
  consistent := sourced.consistent
  fetches := by
    intro promise fetch isFetch
    obtain ⟨request, isRequest, serves⟩ := sourced.fetches promise fetch isFetch
    exact ⟨request, isRequest, serves.later isLater⟩
  stored := by
    intro entry member
    obtain ⟨moment, before, answered⟩ := sourced.stored entry member
    exact ⟨moment, before.trans_le isLater, answered⟩
  calls := by
    intro index call isCall
    obtain ⟨before, isSourced⟩ := sourced.calls index call isCall
    exact ⟨before.trans_le isLater, isSourced⟩
  waited := sourced.waited

/-- What is found after one more was added. -/
theorem getElem?_concat_cases
    {α : Type}
    {items : List α}
    {item found : α}
    {index : Nat}
    (isThere : (items ++ [item])[index]? = some found) :
    items[index]? = some found ∨ index = items.length ∧ found = item := by
  rcases Nat.lt_or_ge index items.length with isOld | isNew
  · rw [List.getElem?_append_left isOld] at isThere
    exact .inl isThere
  · rw [List.getElem?_append_right isNew, List.getElem?_singleton] at isThere
    split at isThere
    · exact .inr ⟨by omega, (Option.some.inj isThere).symm⟩
    · cases isThere

/-! ### Calls -/

/-- What a call does: it returns an item, joins a fetch or starts one. -/
theorem getOrFetch_cases
    (consistent : Consistent cache state)
    (key : TKey) :
    (∃ cached,
      cache.shouldCache key = true ∧
        state.items.get (cache.keyToString key) = some cached ∧
        getOrFetch cache key state = hit key (cache.keyToString key) cached state) ∨
    (∃ promise,
      cache.shouldCache key = true ∧
        state.fetches[promise]? = some (pending (cache.keyToString key)) ∧
        getOrFetch cache key state = await key promise state) ∨
    ∃ inFlight,
      getOrFetch cache key state =
        await key state.fetches.length
          { startFetch (cacheKeyOf cache key) state with inFlight := inFlight } := by
  unfold getOrFetch cacheKeyOf
  split
  case isFalse => exact .inr (.inr ⟨state.inFlight, rfl⟩)
  case isTrue shouldCache =>
    cases stored : state.items.get (cache.keyToString key) with
    | some cached =>
        simp only [stored]
        exact .inl ⟨cached, shouldCache, rfl, rfl⟩
    | none =>
        cases fetched : state.inFlight.get (cache.keyToString key) with
        | some promise =>
            simp only [stored, fetched]
            exact .inr (.inl ⟨promise, shouldCache, (consistent.tracked _ _).mp fetched, rfl⟩)
        | none =>
            simp only [stored, fetched]
            exact .inr (.inr ⟨_, rfl⟩)

theorem cacheKeyOf_eq_some
    {key : TKey}
    {cacheKey : String} :
    cacheKeyOf cache key = some cacheKey ↔
      cache.shouldCache key = true ∧ cache.keyToString key = cacheKey := by
  unfold cacheKeyOf
  split <;> simp_all

/-- The source of a call rests on the one request it waits for. -/
theorem IsSourced.congr
    {began : Nat}
    {call : Call TKey TValue ε}
    (isSourced : IsSourced cache answers history began call)
    {later : History TKey}
    (same :
      ∀ promise, call.source = .promise promise →
        later.request promise = history.request promise) :
    IsSourced cache answers later began call := by
  unfold IsSourced at isSourced ⊢
  split at isSourced
  case h_1 => exact isSourced
  case h_2 promise isSource =>
    obtain ⟨request, isRequest, joins⟩ := isSourced.request
    exact ⟨request, (same promise isSource).trans isRequest, joins⟩

/-- What was noted of the earlier fetches and calls stays when another call is made. -/
theorem Sourced.calls_noted
    (sourced : Sourced cache answers now history state)
    (key : TKey)
    {index : Nat}
    {call : Call TKey TValue ε}
    (isCall : state.calls[index]? = some call) :
    (history.note now state (.called key : Event TKey TValue ε)).called index < now + 1 ∧
      IsSourced cache answers (history.note now state (.called key : Event TKey TValue ε))
        ((history.note now state (.called key : Event TKey TValue ε)).called index) call := by
  have isOld : index ≠ state.calls.length := (List.getElem?_eq_some_iff.mp isCall).1.ne
  obtain ⟨before, isSourced⟩ := sourced.calls index call isCall
  simp only [History.note, Function.update_of_ne isOld]
  refine ⟨before.trans (Nat.lt_succ_self now), isSourced.congr fun promise isSource => ?_⟩
  have isStarted := sourced.waited call (List.mem_of_getElem? isCall) promise isSource
  exact Function.update_of_ne isStarted.ne _ _

/-- The fetches of a state are still accounted for after the next call is noted. -/
theorem Sourced.fetches_noted
    (sourced : Sourced cache answers now history state)
    (key : TKey)
    {promise : Nat}
    {fetch : Fetch TValue ε}
    (isFetch : state.fetches[promise]? = some fetch) :
    ∃ request,
      (history.note now state (.called key : Event TKey TValue ε)).request promise =
          some request ∧
        Serves cache answers (now + 1) request fetch := by
  have isOld : promise ≠ state.fetches.length := (List.getElem?_eq_some_iff.mp isFetch).1.ne
  obtain ⟨request, isRequest, serves⟩ := sourced.fetches promise fetch isFetch
  exact ⟨request, (Function.update_of_ne isOld _ _).trans isRequest,
    serves.later (Nat.le_succ now)⟩

/-- The call is the last one, and it was made now. -/
theorem Sourced.calls_concat
    (sourced : Sourced cache answers now history state)
    {key : TKey}
    {made : Call TKey TValue ε}
    (isSourced :
      IsSourced cache answers (history.note now state (.called key : Event TKey TValue ε))
        now made)
    (index : Nat)
    (call : Call TKey TValue ε)
    (isCall : (state.calls ++ [made])[index]? = some call) :
    (history.note now state (.called key : Event TKey TValue ε)).called index < now + 1 ∧
      IsSourced cache answers (history.note now state (.called key : Event TKey TValue ε))
        ((history.note now state (.called key : Event TKey TValue ε)).called index) call := by
  rcases getElem?_concat_cases isCall with old | ⟨rfl, rfl⟩
  · exact sourced.calls_noted key old
  · simp only [History.note, Function.update_self]
    exact ⟨Nat.lt_succ_self now, isSourced⟩

/-- A call is sourced in the cache, in an open fetch or in one that it starts. -/
theorem Sourced.getOrFetch
    (sourced : Sourced cache answers now history state)
    (key : TKey) :
    Sourced cache answers (now + 1)
      (history.note now state (.called key : Event TKey TValue ε))
      (getOrFetch cache key state) := by
  have consistent := sourced.consistent.getOrFetch key
  have stored := (sourced.later (Nat.le_succ now)).stored
  rcases getOrFetch_cases sourced.consistent key with
    ⟨cached, shouldCache, isStored, hits⟩ | ⟨promise, shouldCache, isPending, joins⟩ |
      ⟨inFlight, starts⟩
  · rw [hits] at consistent ⊢
    have isEntry := InsertionMap.mem_of_get isStored
    exact
      { consistent := consistent
        fetches := fun promise fetch isFetch => sourced.fetches_noted key isFetch
        stored := by
          intro entry member
          change entry ∈ ((state.items.delete _).set _ cached).entries at member
          rw [InsertionMap.entries_delete_set] at member
          rcases List.mem_append.mp member with old | isMoved
          · exact stored entry ((InsertionMap.others_sublist _ _).subset old)
          · rw [List.mem_singleton.mp isMoved]
            exact stored _ isEntry
        calls :=
          sourced.calls_concat
            { returned := rfl
              shouldCache := shouldCache
              storable := sourced.consistent.storable _ isEntry
              read := sourced.stored _ isEntry }
        waited := by
          intro call member promise isSource
          rcases List.mem_append.mp member with old | isMade
          · exact sourced.waited call old promise isSource
          · rw [List.mem_singleton.mp isMade] at isSource
            cases isSource }
  · rw [joins] at consistent ⊢
    have inRange : promise < state.fetches.length :=
      (List.getElem?_eq_some_iff.mp isPending).1
    obtain ⟨request, isRequest, serves⟩ := sourced.fetches promise _ isPending
    obtain ⟨_, sameText⟩ := cacheKeyOf_eq_some.mp serves.cacheKey.symm
    have isOpen := serves.waits rfl
    exact
      { consistent := consistent
        fetches := fun promise fetch isFetch => sourced.fetches_noted key isFetch
        stored := stored
        calls := by
          refine sourced.calls_concat ⟨request, ?_, sameText, ?_, ?_⟩
          · exact (Function.update_of_ne inRange.ne _ _).trans isRequest
          · simp [shouldCache]
          · simp [isOpen]
        waited := by
          intro call member other isSource
          rcases List.mem_append.mp member with old | isMade
          · exact sourced.waited call old other isSource
          · rw [List.mem_singleton.mp isMade] at isSource
            cases isSource
            exact inRange }
  · rw [starts] at consistent ⊢
    have isNoted :
        (history.note now state (.called key : Event TKey TValue ε)).request
            state.fetches.length =
          some { key := key, start := now, arrived := none } :=
      Function.update_self _ _ _
    exact
      { consistent := consistent
        fetches := by
          intro promise fetch isFetch
          rcases getElem?_concat_cases isFetch with old | ⟨rfl, rfl⟩
          · exact sourced.fetches_noted key old
          · refine ⟨_, isNoted, ?_⟩
            constructor <;> simp
        stored := stored
        calls :=
          sourced.calls_concat ⟨_, isNoted, rfl, fun _ => le_rfl, by simp⟩
        waited := by
          intro call member promise isSource
          change promise < (state.fetches ++ [_]).length
          rw [List.length_append, List.length_singleton]
          rcases List.mem_append.mp member with old | isMade
          · exact Nat.lt_succ_of_lt (sourced.waited call old promise isSource)
          · rw [List.mem_singleton.mp isMade] at isSource
            cases isSource
            exact Nat.lt_succ_self _ }

/-! ### The end of a fetch -/

/-- What the end of a fetch does; a fetch that has settled stays as it is. -/
theorem settleFetch_cases
    (consistent : Consistent cache state)
    (promise : Nat)
    (outcome : Except ε TValue) :
    let after := settleFetch cache promise outcome state
    (after = state ∧
      ∀ fetch, state.fetches[promise]? = some fetch → fetch.outcome ≠ none) ∨
    ∃ cacheKey,
      state.fetches[promise]? = some { cacheKey := cacheKey, outcome := none } ∧
        after.fetches =
          state.fetches.set promise { cacheKey := cacheKey, outcome := some outcome } ∧
        after.calls = state.calls ∧
        ∀ entry ∈ after.items.entries,
          entry ∈ state.items.entries ∨
            cacheKey = some entry.1 ∧ outcome = .ok entry.2 := by
  intro after
  cases isFetch : state.fetches[promise]? with
  | none =>
      refine .inl ⟨?_, fun fetch isThere => by cases isThere⟩
      simp only [after, settleFetch, isFetch]
  | some fetch =>
      obtain ⟨cacheKey, settled⟩ := fetch
      cases settled with
      | some earlier =>
          refine .inl ⟨?_, fun fetch isThere => by cases isThere; simp⟩
          simp only [after, settleFetch, isFetch]
      | none =>
          refine .inr ⟨cacheKey, rfl, ?_⟩
          cases cacheKey with
          | none =>
              simp only [after, settleFetch_uncached isFetch]
              exact ⟨trivial, trivial, fun entry member => .inl member⟩
          | some cacheKey =>
              have fits := consistent.fits
              have absent := consistent.absent isFetch
              simp only [after, settleFetch_pending isFetch]
              rcases stored_or_unstored cache outcome with ⟨value, rfl, storable⟩ | unstored
              · rw [finishFetch_stored storable]
                refine ⟨rfl, rfl, fun entry member => ?_⟩
                have added := @mem_entries_store _ _ _ cache
                  { state with
                    fetches :=
                      state.fetches.set promise
                        { cacheKey := some cacheKey, outcome := some (.ok value) } }
                  fits cacheKey absent value entry member
                exact added.imp_right fun isNew => by simp [isNew]
              · rw [finishFetch_unstored unstored]
                exact ⟨rfl, rfl, fun entry member => .inl member⟩

/-- What has arrived does not arrive again. -/
theorem Request.arrive_of_arrived
    {request : Request TKey}
    (hasArrived : request.arrived.isSome)
    (now : Nat) :
    request.arrive now = request := by
  obtain ⟨key, start, arrived⟩ := request
  obtain ⟨arrived, rfl⟩ := Option.isSome_iff_exists.mp hasArrived
  rfl

/-- A call that was made before is not later than what arrives now. -/
theorem IsSourced.arrived
    {began : Nat}
    {call : Call TKey TValue ε}
    (isSourced : IsSourced cache answers history began call)
    (before : began < now)
    (promise : Nat)
    (outcome : Except ε TValue) :
    IsSourced cache answers (history.note now state (.settled promise outcome)) began
      call := by
  unfold IsSourced at isSourced ⊢
  split at isSourced
  case h_1 => exact isSourced
  case h_2 waited _ =>
    obtain ⟨request, isRequest, sameText, started, arrived⟩ := isSourced.request
    by_cases same : waited = promise
    · subst same
      refine ⟨request.arrive now, ?_, sameText, started, fun moment isMoment => ?_⟩
      · simp [History.note, isRequest]
      · cases isArrived : request.arrived with
        | none =>
            rw [Request.arrive, isArrived] at isMoment
            cases isMoment
            exact before.le
        | some earlier =>
            rw [Request.arrive, isArrived] at isMoment
            cases isMoment
            exact arrived _ isArrived
    · refine ⟨request, ?_, sameText, started, arrived⟩
      exact (Function.update_of_ne same _ _).trans isRequest

/-- A fetch that settles truthfully is stored as what was read for its key. -/
theorem Sourced.settleFetch
    (sourced : Sourced cache answers now history state)
    {promise : Nat}
    {outcome : Except ε TValue}
    (truthful :
      Truthful cache answers now history (.settled promise outcome : Event TKey TValue ε)) :
    Sourced cache answers (now + 1) (history.note now state (.settled promise outcome))
      (settleFetch cache promise outcome state) := by
  have consistent := sourced.consistent.settleFetch promise outcome
  have otherFetches
      {other : Nat}
      {fetch : Fetch TValue ε}
      (different : other ≠ promise)
      (isFetch : state.fetches[other]? = some fetch) :
      ∃ request,
        (history.note now state (.settled promise outcome)).request other = some request ∧
          Serves cache answers (now + 1) request fetch := by
    obtain ⟨request, isRequest, serves⟩ := sourced.fetches other fetch isFetch
    exact ⟨request, (Function.update_of_ne different _ _).trans isRequest,
      serves.later (Nat.le_succ now)⟩
  have calls
      (index : Nat)
      (call : Call TKey TValue ε)
      (isCall : state.calls[index]? = some call) :
      history.called index < now + 1 ∧
        IsSourced cache answers (history.note now state (.settled promise outcome))
          (history.called index) call := by
    obtain ⟨before, isSourced⟩ := sourced.calls index call isCall
    exact ⟨before.trans (Nat.lt_succ_self now), isSourced.arrived before promise outcome⟩
  have stored := (sourced.later (Nat.le_succ now)).stored
  rcases settleFetch_cases sourced.consistent promise outcome with
    ⟨unchanged, wasSettled⟩ | ⟨cacheKey, isOpen, fetches, sameCalls, items⟩
  · rw [unchanged] at consistent ⊢
    exact
      { consistent := consistent
        fetches := by
          intro other fetch isFetch
          by_cases same : other = promise
          · subst same
            obtain ⟨request, isRequest, serves⟩ := sourced.fetches other fetch isFetch
            obtain ⟨earlier, isEarlier⟩ := Option.ne_none_iff_exists'.mp (wasSettled fetch isFetch)
            refine ⟨request, ?_, serves.later (Nat.le_succ now)⟩
            simp [History.note, isRequest,
              Request.arrive_of_arrived (serves.settled earlier isEarlier)]
          · exact otherFetches same isFetch
        stored := stored
        calls := calls
        waited := sourced.waited }
  · obtain ⟨request, isRequest, serves⟩ := sourced.fetches promise _ isOpen
    have isNew := serves.waits rfl
    exact
      { consistent := consistent
        fetches := by
          intro other fetch isFetch
          rw [fetches] at isFetch
          by_cases same : other = promise
          · subst same
            rw [List.getElem?_set_self (List.getElem?_eq_some_iff.mp isOpen).1] at isFetch
            rw [← Option.some.inj isFetch]
            refine ⟨request.arrive now, by simp [History.note, isRequest], ?_⟩
            exact
              { cacheKey := serves.cacheKey
                waits := fun isOpenStill => by cases isOpenStill
                settled := fun _ _ => rfl
                arrived := by
                  intro arrived isArrived
                  rw [Request.arrive, isNew] at isArrived
                  cases isArrived
                  exact Nat.lt_succ_self now
                value := by
                  intro arrived value isArrived isValue
                  rw [Request.arrive, isNew] at isArrived
                  cases isArrived
                  cases isValue
                  exact truthful request isRequest }
          · rw [List.getElem?_set_ne (Ne.symm same)] at isFetch
            exact otherFetches same isFetch
        stored := by
          intro entry member
          rcases items entry member with old | ⟨isKey, rfl⟩
          · exact stored entry old
          · obtain ⟨moment, _, atMost, answered⟩ := truthful request isRequest
            have isText := (cacheKeyOf_eq_some.mp (serves.cacheKey.symm.trans isKey)).2
            exact ⟨moment, Nat.lt_succ_of_le atMost, isText ▸ answered⟩
        calls := by
          rw [sameCalls]
          exact calls
        waited := by
          rw [sameCalls, fetches, List.length_set]
          exact sourced.waited }

/-! ### Runs -/

/-- A call keeps its source when its fetch settles. -/
theorem settledCall_source
    (fetches : List (Fetch TValue ε))
    (call : Call TKey TValue ε) :
    (settledCall fetches call).source = call.source := by
  unfold settledCall
  split <;> rfl

theorem IsSourced.settledCall
    {began : Nat}
    {call : Call TKey TValue ε}
    (isSourced : IsSourced cache answers history began call)
    (fetches : List (Fetch TValue ε)) :
    IsSourced cache answers history began (settledCall fetches call) := by
  obtain ⟨key, source, outcome⟩ := call
  cases source <;> exact isSourced

/-- Resuming a call asks and stores nothing. -/
theorem Sourced.resume
    (sourced : Sourced cache answers now history state)
    (index : Nat) :
    Sourced cache answers (now + 1) history (resume index state) where
  consistent := sourced.consistent.resume index
  fetches := (sourced.later (Nat.le_succ now)).fetches
  stored := (sourced.later (Nat.le_succ now)).stored
  calls := by
    intro place call isCall
    change (state.calls.modify index _)[place]? = some call at isCall
    rw [List.getElem?_modify] at isCall
    obtain ⟨before, isBefore, rfl⟩ := Option.map_eq_some_iff.mp isCall
    obtain ⟨began, isSourced⟩ := sourced.calls place before isBefore
    refine ⟨began.trans (Nat.lt_succ_self now), ?_⟩
    split
    · exact isSourced.settledCall state.fetches
    · exact isSourced
  waited := by
    intro call member promise isSource
    obtain ⟨place, isCall⟩ := List.mem_iff_getElem?.mp member
    change (state.calls.modify index _)[place]? = some call at isCall
    rw [List.getElem?_modify] at isCall
    obtain ⟨before, isBefore, rfl⟩ := Option.map_eq_some_iff.mp isCall
    apply sourced.waited before (List.mem_of_getElem? isBefore) promise
    split at isSource
    · rwa [settledCall_source] at isSource
    · exact isSource

/-- Clearing the cache forgets no call. -/
theorem Sourced.clear
    (sourced : Sourced cache answers now history state) :
    Sourced cache answers (now + 1) history (clear state) where
  consistent := sourced.consistent.clear
  fetches := (sourced.later (Nat.le_succ now)).fetches
  stored := by
    intro entry member
    cases member
  calls := (sourced.later (Nat.le_succ now)).calls
  waited := sourced.waited

/-- Step lemma: the history goes on to be true. -/
theorem Sourced.step
    (sourced : Sourced cache answers now history state)
    {event : Event TKey TValue ε}
    (truthful : Truthful cache answers now history event) :
    Sourced cache answers (now + 1) (history.note now state event) (step cache state event) := by
  cases event with
  | called key => exact sourced.getOrFetch key
  | settled promise outcome => exact sourced.settleFetch truthful
  | resumed index => exact sourced.resume index
  | cleared => exact sourced.clear

/-! ## What a call returns -/

/-- A value was read for the key at some moment, and what is not cached not before the call. -/
structure Read (cache : LruCache TKey TValue) (answers : Nat → String → TValue → Prop)
    (now began : Nat) (key : TKey) (value : TValue) : Prop where
  moment :
    ∃ moment,
      moment < now ∧ answers moment (cache.keyToString key) value ∧
        (cache.shouldCache key = false → began ≤ moment) ∧
        (cache.shouldCacheValue value = false →
          ∃ arrived, began ≤ arrived ∧ moment ≤ arrived ∧ arrived < now)

/-- What a call has returned was read for its key. -/
theorem Sourced.read
    (sourced : Sourced cache answers now history state)
    {index : Nat}
    {call : Call TKey TValue ε}
    (isCall : state.calls[index]? = some call)
    {value : TValue}
    (returned : call.outcome = some (.ok value)) :
    Read cache answers now (history.called index) call.key value := by
  obtain ⟨before, isSourced⟩ := sourced.calls index call isCall
  unfold IsSourced at isSourced
  split at isSourced
  case h_1 cached _ =>
    obtain ⟨moment, earlier, answered⟩ := isSourced.read
    have sameValue : value = cached := by
      have same := returned.symm.trans isSourced.returned
      cases same
      rfl
    subst sameValue
    exact ⟨moment, earlier.trans before, answered, by simp [isSourced.shouldCache],
      by simp [isSourced.storable]⟩
  case h_2 promise isSource =>
    obtain ⟨request, isRequest, sameText, started, arrived⟩ := isSourced.request
    have answered :=
      sourced.consistent.answered call (List.mem_of_getElem? isCall) promise _ isSource returned
    obtain ⟨fetch, isFetch, isOutcome⟩ := Option.bind_eq_some_iff.mp answered
    obtain ⟨known, isKnown, serves⟩ := sourced.fetches promise fetch isFetch
    cases isRequest.symm.trans isKnown
    obtain ⟨arrival, isArrived⟩ := Option.isSome_iff_exists.mp (serves.settled _ isOutcome)
    obtain ⟨moment, afterStart, atMost, isAnswer⟩ := serves.value arrival value isArrived isOutcome
    have past := serves.arrived arrival isArrived
    exact ⟨moment, atMost.trans_lt past, sameText ▸ isAnswer,
      fun uncached => (started uncached).trans afterStart,
      fun _ => ⟨arrival, arrived arrival isArrived, atMost, past⟩⟩

end LruCache

end CsmProver
