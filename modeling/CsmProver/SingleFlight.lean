import CsmProver.LruCache
import CsmProver.RecencyList

namespace CsmProver

/-!
# One fetch for a key, and the least recently used item goes

The two maps of a cache never have a key in common: a fetch is started for a key
that is in neither of them, and only its own end puts the key among the items.  So
a stored value always comes last, as in the reference list, and a hit moves its
entry to the end.  The reference is a list of last uses that sees the same events and
has one record of its fetches, but no map of those in flight.
-/

namespace LruCache

variable {TKey TValue ε : Type}

/-- The fetch for a key that has not settled yet. -/
def pending (cacheKey : String) : Fetch TValue ε where
  cacheKey := some cacheKey
  outcome := none

/-- What links the two maps, the fetches and the calls of a cache. -/
structure Consistent (cache : LruCache TKey TValue) (state : State TKey TValue ε) :
    Prop where
  fits : state.items.entries.length ≤ cache.capacity
  storable : ∀ entry ∈ state.items.entries, cache.shouldCacheValue entry.2 = true
  tracked :
    ∀ cacheKey promise,
      state.inFlight.get cacheKey = some promise ↔
        state.fetches[promise]? = some (pending cacheKey)
  disjoint :
    ∀ cacheKey,
      state.inFlight.get cacheKey = none ∨ state.items.get cacheKey = none
  answered :
    ∀ call ∈ state.calls, ∀ promise outcome,
      call.source = .promise promise →
      call.outcome = some outcome →
      state.fetches[promise]?.bind Fetch.outcome = some outcome
  remembered :
    ∀ call ∈ state.calls, ∀ value,
      call.source = .cached value → call.outcome = some (.ok value)

section Steps

variable {cache : LruCache TKey TValue} {state : State TKey TValue ε}

theorem consistent_initial
    (cache : LruCache TKey TValue) :
    Consistent cache (.initial : State TKey TValue ε) where
  fits := Nat.zero_le cache.capacity
  storable := by
    intro entry member
    cases member
  tracked := by
    intro cacheKey promise
    simp [State.initial, InsertionMap.empty, InsertionMap.get]
  disjoint := fun _ => .inl rfl
  answered := by
    intro call member
    cases member
  remembered := by
    intro call member
    cases member

/-! ### Calls -/

theorem Consistent.await
    (consistent : Consistent cache state)
    (key : TKey)
    (promise : Nat) :
    Consistent cache (await key promise state) where
  fits := consistent.fits
  storable := consistent.storable
  tracked := consistent.tracked
  disjoint := consistent.disjoint
  answered := by
    intro call member
    rcases List.mem_append.mp member with old | new
    · exact consistent.answered call old
    · rw [List.mem_singleton.mp new]
      intro other outcome _ returned
      cases returned
  remembered := by
    intro call member
    rcases List.mem_append.mp member with old | new
    · exact consistent.remembered call old
    · rw [List.mem_singleton.mp new]
      intro value isSource
      cases isSource

/-- An outcome that a promise has stays when another fetch is started. -/
theorem outcome_append
    {fetches : List (Fetch TValue ε)}
    {promise : Nat}
    {outcome : Except ε TValue}
    (settled : fetches[promise]?.bind Fetch.outcome = some outcome)
    (fetch : Fetch TValue ε) :
    (fetches ++ [fetch])[promise]?.bind Fetch.outcome = some outcome := by
  obtain ⟨known, isThere, hasOutcome⟩ := Option.bind_eq_some_iff.mp settled
  have inRange : promise < fetches.length := (List.getElem?_eq_some_iff.mp isThere).1
  rw [List.getElem?_append_left inRange]
  exact settled

/-- The fetches after one more was started. -/
theorem getElem?_concat_pending
    {fetches : List (Fetch TValue ε)}
    {fetch : Fetch TValue ε}
    {promise : Nat}
    {cacheKey : String} :
    (fetches ++ [fetch])[promise]? = some (pending cacheKey) ↔
      fetches[promise]? = some (pending cacheKey) ∨
        promise = fetches.length ∧ fetch = pending cacheKey := by
  rcases Nat.lt_trichotomy promise fetches.length with isOld | rfl | isNone
  · rw [List.getElem?_append_left isOld]
    simp [isOld.ne]
  · simp
  · have beyond : (fetches ++ [fetch]).length ≤ promise := by
      rw [List.length_append, List.length_singleton]
      exact isNone
    rw [List.getElem?_eq_none beyond, List.getElem?_eq_none isNone.le]
    simp [isNone.ne']

theorem Consistent.startUncached
    (consistent : Consistent cache state) :
    Consistent cache (startFetch none state) where
  fits := consistent.fits
  storable := consistent.storable
  tracked := by
    intro cacheKey promise
    change _ ↔ (state.fetches ++ [_])[promise]? = _
    rw [getElem?_concat_pending, ← consistent.tracked]
    simp [pending, startFetch]
  disjoint := consistent.disjoint
  answered := fun call member promise outcome isSource returned =>
    outcome_append (consistent.answered call member promise outcome isSource returned) _
  remembered := consistent.remembered

/-- A fetch for a key that is in neither map. -/
theorem Consistent.startCached
    (consistent : Consistent cache state)
    {cacheKey : String}
    (unstored : state.items.get cacheKey = none)
    (unfetched : state.inFlight.get cacheKey = none) :
    Consistent cache
      { startFetch (some cacheKey) state with
        inFlight := state.inFlight.set cacheKey state.fetches.length } where
  fits := consistent.fits
  storable := consistent.storable
  tracked := by
    intro other promise
    change (state.inFlight.set _ _).get other = _ ↔ (state.fetches ++ [_])[promise]? = _
    rw [getElem?_concat_pending, ← consistent.tracked, InsertionMap.get_set]
    by_cases sameKey : other = cacheKey
    · subst sameKey
      simp [unfetched, pending, eq_comm]
    · simp [sameKey, Ne.symm sameKey, pending]
  disjoint := by
    intro other
    change (state.inFlight.set _ _).get other = none ∨ state.items.get other = none
    rw [InsertionMap.get_set]
    by_cases sameKey : other = cacheKey
    · exact .inr (sameKey ▸ unstored)
    · rw [if_neg sameKey]
      exact consistent.disjoint other
  answered := fun call member promise outcome isSource returned =>
    outcome_append (consistent.answered call member promise outcome isSource returned) _
  remembered := consistent.remembered

theorem Consistent.hit
    (consistent : Consistent cache state)
    {key : TKey}
    {cacheKey : String}
    {cached : TValue}
    (stored : state.items.get cacheKey = some cached) :
    Consistent cache (hit key cacheKey cached state) := by
  have moved :
      ((state.items.delete cacheKey).set cacheKey cached).entries =
        Recency.moveToEnd state.items.entries cacheKey cached :=
    InsertionMap.entries_delete_set state.items cacheKey cached
  have fits :
      (Recency.moveToEnd state.items.entries cacheKey cached).length ≤ cache.capacity := by
    have fewer := InsertionMap.length_others_lt stored
    have bounded := consistent.fits
    rw [Recency.moveToEnd, List.length_append, List.length_singleton]
    omega
  exact
    { fits := by
        change ((state.items.delete cacheKey).set cacheKey cached).entries.length ≤ _
        rw [moved]
        exact fits
      storable := by
        intro entry member
        change entry ∈ ((state.items.delete cacheKey).set cacheKey cached).entries at member
        rw [moved] at member
        rcases List.mem_append.mp member with old | isMoved
        · exact consistent.storable entry
            ((InsertionMap.others_sublist state.items.entries cacheKey).subset old)
        · rw [List.mem_singleton.mp isMoved]
          exact consistent.storable _ (InsertionMap.mem_of_get stored)
      tracked := consistent.tracked
      disjoint := by
        intro other
        change state.inFlight.get other = none ∨
          ((state.items.delete cacheKey).set cacheKey cached).get other = none
        rw [InsertionMap.get_set, InsertionMap.get_delete]
        by_cases sameKey : other = cacheKey
        · left
          rcases consistent.disjoint other with unfetched | unstored
          · exact unfetched
          · rw [sameKey, stored] at unstored
            cases unstored
        · rw [if_neg sameKey, if_neg sameKey]
          exact consistent.disjoint other
      answered := by
        intro call member
        rcases List.mem_append.mp member with old | new
        · exact consistent.answered call old
        · rw [List.mem_singleton.mp new]
          intro promise outcome isSource
          cases isSource
      remembered := by
        intro call member
        rcases List.mem_append.mp member with old | new
        · exact consistent.remembered call old
        · rw [List.mem_singleton.mp new]
          rintro value ⟨rfl⟩
          rfl }

theorem Consistent.getOrFetch
    (consistent : Consistent cache state)
    (key : TKey) :
    Consistent cache (getOrFetch cache key state) := by
  unfold LruCache.getOrFetch
  split
  · cases stored : state.items.get (cache.keyToString key) with
    | some cached =>
        simp only [stored]
        exact consistent.hit stored
    | none =>
        cases fetched : state.inFlight.get (cache.keyToString key) with
        | some promise =>
            simp only [stored, fetched]
            exact consistent.await key promise
        | none =>
            simp only [stored, fetched]
            exact (consistent.startCached stored fetched).await key state.fetches.length
  · exact consistent.startUncached.await key state.fetches.length

/-! ### The end of a fetch -/

/-- What is stored comes last, and the oldest item goes if there are too many. -/
theorem entries_store
    (fits : state.items.entries.length ≤ cache.capacity)
    {cacheKey : String}
    (absent : state.items.get cacheKey = none)
    (value : TValue) :
    (store cache cacheKey value state).items.entries =
      (state.items.entries ++ [(cacheKey, value)]).rtake cache.capacity := by
  have grown := InsertionMap.entries_set_of_absent absent value
  have length : (state.items.set cacheKey value).size = state.items.entries.length + 1 := by
    rw [InsertionMap.size, grown, List.length_append, List.length_singleton]
  unfold store
  simp only
  split
  case isTrue tooMany =>
    have isFull : (state.items.entries ++ [(cacheKey, value)]).length - cache.capacity = 1 := by
      rw [List.length_append, List.length_singleton]
      omega
    cases isOldest : (state.items.set cacheKey value).oldestKey with
    | some oldestKey =>
        simp only
        rw [InsertionMap.entries_delete_oldestKey isOldest, grown, List.rtake, isFull,
          List.drop_one]
    | none =>
        rw [InsertionMap.oldestKey, grown] at isOldest
        simp at isOldest
  case isFalse notTooMany =>
    rw [grown, Recency.rtake_of_length_le]
    rw [List.length_append, List.length_singleton]
    omega

/-- A new entry is the only one that a store can add. -/
theorem mem_entries_store
    (fits : state.items.entries.length ≤ cache.capacity)
    {cacheKey : String}
    (absent : state.items.get cacheKey = none)
    {value : TValue}
    {entry : String × TValue}
    (member : entry ∈ (store cache cacheKey value state).items.entries) :
    entry ∈ state.items.entries ∨ entry = (cacheKey, value) := by
  rw [entries_store fits absent] at member
  simpa using List.mem_of_mem_drop member

theorem get_store_of_ne
    (fits : state.items.entries.length ≤ cache.capacity)
    {cacheKey other : String}
    (absent : state.items.get cacheKey = none)
    (value : TValue)
    (otherKey : other ≠ cacheKey)
    (otherAbsent : state.items.get other = none) :
    (store cache cacheKey value state).items.get other = none := by
  rw [InsertionMap.get_eq_none_iff, List.mem_map] at otherAbsent ⊢
  rintro ⟨entry, member, isOther⟩
  rcases mem_entries_store fits absent member with old | rfl
  · exact otherAbsent ⟨entry, old, isOther⟩
  · exact otherKey isOther.symm

theorem finishFetch_inFlight
    (cacheKey : String)
    (outcome : Except ε TValue)
    (state : State TKey TValue ε) :
    (finishFetch cache cacheKey outcome state).inFlight =
      state.inFlight.delete cacheKey := by
  unfold finishFetch
  cases outcome with
  | error error => rfl
  | ok value =>
      simp only
      split <;> rfl

/-- A value that is not to be stored leaves the items as they are, and so does an error. -/
theorem finishFetch_unstored
    {outcome : Except ε TValue}
    (unstored : ∀ value, outcome = .ok value → cache.shouldCacheValue value = false)
    (cacheKey : String)
    (state : State TKey TValue ε) :
    finishFetch cache cacheKey outcome state =
      { state with inFlight := state.inFlight.delete cacheKey } := by
  unfold finishFetch
  cases outcome with
  | error error => rfl
  | ok value =>
      have refused : ¬ cache.shouldCacheValue value = true := by
        simp [unstored value rfl]
      simp only [if_neg refused]

theorem finishFetch_stored
    {value : TValue}
    (storable : cache.shouldCacheValue value = true)
    (cacheKey : String)
    (state : State TKey TValue ε) :
    finishFetch cache cacheKey (.ok value) state =
      { store cache cacheKey value state with
        inFlight := state.inFlight.delete cacheKey } := by
  simp only [finishFetch, if_pos storable]
  rfl

variable {promise : Nat} {outcome : Except ε TValue}

/-- Either the outcome is a value to be stored, or it leaves the items alone. -/
theorem stored_or_unstored
    (cache : LruCache TKey TValue)
    (outcome : Except ε TValue) :
    (∃ value, outcome = .ok value ∧ cache.shouldCacheValue value = true) ∨
      ∀ value, outcome = .ok value → cache.shouldCacheValue value = false := by
  by_cases stores : ∃ value, outcome = .ok value ∧ cache.shouldCacheValue value = true
  · exact .inl stores
  · right
    intro value isValue
    rw [← Bool.not_eq_true]
    exact fun storable => stores ⟨value, isValue, storable⟩

/-- An outcome that a promise has stays when another one settles. -/
theorem outcome_set
    {fetches : List (Fetch TValue ε)}
    {key : Option String}
    (isOpen : fetches[promise]? = some { cacheKey := key, outcome := none })
    {other : Nat}
    {otherOutcome : Except ε TValue}
    (settled : fetches[other]?.bind Fetch.outcome = some otherOutcome)
    (fetch : Fetch TValue ε) :
    (fetches.set promise fetch)[other]?.bind Fetch.outcome = some otherOutcome := by
  have different : promise ≠ other := by
    rintro rfl
    rw [isOpen] at settled
    cases settled
  rw [List.getElem?_set_ne different]
  exact settled

/-- A settled fetch is not in flight; the others are what they were. -/
theorem getElem?_set_settled
    {fetches : List (Fetch TValue ε)}
    {key : Option String}
    {other : Nat}
    {cacheKey : String} :
    (fetches.set promise { cacheKey := key, outcome := some outcome })[other]? =
        some (pending cacheKey) ↔
      other ≠ promise ∧ fetches[other]? = some (pending cacheKey) := by
  by_cases same : other = promise
  · subst same
    rw [List.getElem?_set_self']
    cases fetches[other]? <;> simp [pending]
  · rw [List.getElem?_set_ne (Ne.symm same)]
    simp [same]

/-- The end of a fetch for a cacheable key. -/
theorem settleFetch_pending
    {cacheKey : String}
    (isPending : state.fetches[promise]? = some (pending cacheKey)) :
    settleFetch cache promise outcome state =
      finishFetch cache cacheKey outcome
        { state with
          fetches :=
            state.fetches.set promise
              { cacheKey := some cacheKey, outcome := some outcome } } := by
  simp only [settleFetch, isPending, pending]

/-- The end of a fetch that is not cached. -/
theorem settleFetch_uncached
    (isOpen : state.fetches[promise]? = some { cacheKey := none, outcome := none }) :
    settleFetch cache promise outcome state =
      { state with
        fetches :=
          state.fetches.set promise { cacheKey := none, outcome := some outcome } } := by
  simp only [settleFetch, isOpen]

/-- What the calls have returned is still what their promises have settled with. -/
theorem Consistent.answered_settled
    (consistent : Consistent cache state)
    {key : Option String}
    (isOpen : state.fetches[promise]? = some { cacheKey := key, outcome := none })
    (fetch : Fetch TValue ε) :
    ∀ call ∈ state.calls, ∀ other result,
      call.source = .promise other →
      call.outcome = some result →
      (state.fetches.set promise fetch)[other]?.bind Fetch.outcome = some result :=
  fun call member other result isSource returned =>
    outcome_set isOpen (consistent.answered call member other result isSource returned) fetch

theorem Consistent.settleUncached
    (consistent : Consistent cache state)
    (isOpen : state.fetches[promise]? = some { cacheKey := none, outcome := none }) :
    Consistent cache (settleFetch cache promise outcome state) := by
  rw [settleFetch_uncached isOpen]
  exact
    { fits := consistent.fits
      storable := consistent.storable
      tracked := by
        intro cacheKey other
        rw [getElem?_set_settled, ← consistent.tracked]
        have different (isPending : state.inFlight.get cacheKey = some other) :
            other ≠ promise := by
          rintro rfl
          rw [consistent.tracked, isOpen] at isPending
          cases isPending
        exact ⟨fun isPending => ⟨different isPending, isPending⟩, And.right⟩
      disjoint := consistent.disjoint
      answered := consistent.answered_settled isOpen _
      remembered := consistent.remembered }

/-- The key of a fetch in flight is not stored. -/
theorem Consistent.absent
    (consistent : Consistent cache state)
    {cacheKey : String}
    (isPending : state.fetches[promise]? = some (pending cacheKey)) :
    state.items.get cacheKey = none := by
  rcases consistent.disjoint cacheKey with unfetched | absent
  · rw [(consistent.tracked cacheKey promise).mpr isPending] at unfetched
    cases unfetched
  · exact absent

/-- A settled fetch is no longer tracked, and the others still are. -/
theorem Consistent.tracked_settled
    (consistent : Consistent cache state)
    {cacheKey : String}
    (isPending : state.fetches[promise]? = some (pending cacheKey))
    (outcome : Except ε TValue)
    (other : String)
    (query : Nat) :
    (state.inFlight.delete cacheKey).get other = some query ↔
      (state.fetches.set promise { cacheKey := some cacheKey, outcome := some outcome })[query]? =
        some (pending other) := by
  rw [getElem?_set_settled, InsertionMap.get_delete]
  by_cases sameKey : other = cacheKey
  · subst sameKey
    rw [if_pos rfl, ← consistent.tracked, (consistent.tracked other promise).mpr isPending]
    simp [eq_comm]
  · rw [if_neg sameKey, consistent.tracked]
    have different (isOther : state.fetches[query]? = some (pending other)) :
        query ≠ promise := by
      rintro rfl
      rw [isPending] at isOther
      cases isOther
      exact sameKey rfl
    exact ⟨fun isOther => ⟨different isOther, isOther⟩, And.right⟩

/-- A key that is no longer in flight may be stored. -/
theorem Consistent.disjoint_settled
    (consistent : Consistent cache state)
    {items : InsertionMap String TValue}
    (cacheKey : String)
    (grows : ∀ other, other ≠ cacheKey → state.items.get other = none → items.get other = none)
    (other : String) :
    (state.inFlight.delete cacheKey).get other = none ∨ items.get other = none := by
  rw [InsertionMap.get_delete]
  by_cases sameKey : other = cacheKey
  · exact .inl (if_pos sameKey)
  · rw [if_neg sameKey]
    exact (consistent.disjoint other).imp_right (grows other sameKey)

theorem Consistent.settlePending
    (consistent : Consistent cache state)
    {cacheKey : String}
    (isPending : state.fetches[promise]? = some (pending cacheKey)) :
    Consistent cache (settleFetch cache promise outcome state) := by
  rw [settleFetch_pending isPending]
  have tracked := consistent.tracked_settled isPending outcome
  have answered := consistent.answered_settled isPending
    { cacheKey := some cacheKey, outcome := some outcome }
  rcases stored_or_unstored cache outcome with ⟨value, rfl, storable⟩ | unstored
  · rw [finishFetch_stored storable]
    generalize settledIs :
      ({ state with
          fetches :=
            state.fetches.set promise
              { cacheKey := some cacheKey, outcome := some (.ok value) } } :
        State TKey TValue ε) = settled
    have sameItems : settled.items = state.items := by rw [← settledIs]
    have fits : settled.items.entries.length ≤ cache.capacity := sameItems ▸ consistent.fits
    have absent : settled.items.get cacheKey = none := sameItems ▸ consistent.absent isPending
    have fitsAfter :
        (store cache cacheKey value settled).items.entries.length ≤ cache.capacity := by
      rw [entries_store fits absent, List.rtake, List.length_drop]
      omega
    have storableAfter :
        ∀ entry ∈ (store cache cacheKey value settled).items.entries,
          cache.shouldCacheValue entry.2 = true := by
      intro entry member
      rcases mem_entries_store fits absent member with old | rfl
      · exact consistent.storable entry (sameItems ▸ old)
      · exact storable
    have disjoint := consistent.disjoint_settled cacheKey fun other otherKey otherAbsent =>
      get_store_of_ne fits absent value otherKey (sameItems ▸ otherAbsent)
    subst settledIs
    exact
      { fits := fitsAfter
        storable := storableAfter
        tracked := tracked
        disjoint := disjoint
        answered := answered
        remembered := consistent.remembered }
  · rw [finishFetch_unstored unstored]
    exact
      { fits := consistent.fits
        storable := consistent.storable
        tracked := tracked
        disjoint := consistent.disjoint_settled cacheKey fun _ _ otherAbsent => otherAbsent
        answered := answered
        remembered := consistent.remembered }

theorem Consistent.settleFetch
    (consistent : Consistent cache state)
    (promise : Nat)
    (outcome : Except ε TValue) :
    Consistent cache (settleFetch cache promise outcome state) := by
  cases isFetch : state.fetches[promise]? with
  | none =>
      rw [LruCache.settleFetch, isFetch]
      exact consistent
  | some fetch =>
      obtain ⟨key, settled⟩ := fetch
      cases settled with
      | some earlier =>
          rw [LruCache.settleFetch, isFetch]
          exact consistent
      | none =>
          cases key with
          | none => exact consistent.settleUncached isFetch
          | some cacheKey => exact consistent.settlePending isFetch

/-! ### Runs -/

/-- A call that goes on was there, with its source. -/
theorem mem_resume
    {index : Nat}
    {call : Call TKey TValue ε}
    (member : call ∈ (resume index state).calls) :
    call ∈ state.calls ∨
      ∃ before ∈ state.calls, call = settledCall state.fetches before := by
  obtain ⟨place, isCall⟩ := List.mem_iff_getElem?.mp member
  change (state.calls.modify index _)[place]? = some call at isCall
  rw [List.getElem?_modify] at isCall
  obtain ⟨before, isBefore, isAfter⟩ := Option.map_eq_some_iff.mp isCall
  have wasThere := List.mem_of_getElem? isBefore
  split at isAfter
  · exact .inr ⟨before, wasThere, isAfter.symm⟩
  · exact .inl (isAfter ▸ wasThere)

theorem Consistent.resume
    (consistent : Consistent cache state)
    (index : Nat) :
    Consistent cache (resume index state) where
  fits := consistent.fits
  storable := consistent.storable
  tracked := consistent.tracked
  disjoint := consistent.disjoint
  answered := by
    intro call member promise outcome isSource returned
    rcases mem_resume member with old | ⟨before, _, rfl⟩
    · exact consistent.answered call old promise outcome isSource returned
    · cases source : before.source with
      | cached value =>
          rw [settledCall, source] at isSource
          simp only at isSource
          rw [source] at isSource
          cases isSource
      | promise waited =>
          rw [settledCall, source] at isSource returned
          simp only at isSource returned
          cases isSource
          exact returned
  remembered := by
    intro call member value isSource
    rcases mem_resume member with old | ⟨before, wasThere, rfl⟩
    · exact consistent.remembered call old value isSource
    · cases source : before.source with
      | cached other =>
          rw [settledCall, source] at isSource ⊢
          exact consistent.remembered before wasThere value isSource
      | promise waited =>
          rw [settledCall, source] at isSource
          simp only at isSource
          cases isSource

theorem Consistent.clear
    (consistent : Consistent cache state) :
    Consistent cache (clear state) where
  fits := Nat.zero_le cache.capacity
  storable := by
    intro entry member
    cases member
  tracked := consistent.tracked
  disjoint := fun _ => .inr rfl
  answered := consistent.answered
  remembered := consistent.remembered

/-- Step lemma: whatever happens next keeps the maps linked. -/
theorem Consistent.step
    (consistent : Consistent cache state)
    (event : Event TKey TValue ε) :
    Consistent cache (step cache state event) := by
  cases event with
  | called key => exact consistent.getOrFetch key
  | settled promise outcome => exact consistent.settleFetch promise outcome
  | resumed index => exact consistent.resume index
  | cleared => exact consistent.clear

/-- Run lemma. -/
theorem Consistent.perform
    (consistent : Consistent cache state)
    (events : List (Event TKey TValue ε)) :
    Consistent cache (perform cache state events) := by
  induction events generalizing state with
  | nil => exact consistent
  | cons event rest inductionHypothesis => exact inductionHypothesis (consistent.step event)

/-! ## The reference -/

/--
A least-recently-used list by its uses, the fetches started for what it does not have,
and for each call its key and where its answer is from.
-/
structure Reference (TKey TValue ε : Type) where
  uses : List (Recency.Use String TValue)
  fetches : List (Fetch TValue ε)
  sources : List (TKey × Source TValue)

namespace Reference

def initial : Reference TKey TValue ε where
  uses := []
  fetches := []
  sources := []

/-- The fetch for the key that has not settled. -/
def pending? (cacheKey : String) (fetches : List (Fetch TValue ε)) : Option Nat :=
  fetches.findIdx? fun fetch => fetch.cacheKey = some cacheKey ∧ fetch.outcome.isNone

/-- A call that starts a fetch, and waits for it. -/
def fetch (key : TKey) (cacheKey : Option String) (reference : Reference TKey TValue ε) :
    Reference TKey TValue ε :=
  { reference with
    fetches := reference.fetches ++ [{ cacheKey := cacheKey, outcome := none }]
    sources := reference.sources ++ [(key, .promise reference.fetches.length)] }

variable (cache : LruCache TKey TValue)

/-- A hit is a use; what is not in the list is being fetched, or is fetched now. -/
def call (key : TKey) (reference : Reference TKey TValue ε) : Reference TKey TValue ε :=
  if cache.shouldCache key then
    let cacheKey := cache.keyToString key
    match (Recency.feed cache.capacity reference.uses).lookup cacheKey with
    | some value =>
        { reference with
          uses := reference.uses ++ [.used cacheKey value]
          sources := reference.sources ++ [(key, .cached value)] }
    | none =>
        match pending? cacheKey reference.fetches with
        | some promise =>
            { reference with sources := reference.sources ++ [(key, .promise promise)] }
        | none => reference.fetch key (some cacheKey)
  else
    reference.fetch key none

/-- A completed fetch for a key is a use of its value, if the value is storable. -/
def completed (cacheKey : Option String) (outcome : Except ε TValue) :
    List (Recency.Use String TValue) :=
  match cacheKey, outcome with
  | some cacheKey, .ok value =>
      if cache.shouldCacheValue value then [.used cacheKey value] else []
  | _, _ => []

/-- A fetch settles once. -/
def settle (promise : Nat) (outcome : Except ε TValue) (reference : Reference TKey TValue ε) :
    Reference TKey TValue ε :=
  match reference.fetches[promise]? with
  | some { cacheKey := cacheKey, outcome := none } =>
      { reference with
        uses := reference.uses ++ completed cache cacheKey outcome
        fetches :=
          reference.fetches.set promise { cacheKey := cacheKey, outcome := some outcome } }
  | _ => reference

def step (reference : Reference TKey TValue ε) :
    Event TKey TValue ε → Reference TKey TValue ε
  | .called key => reference.call cache key
  | .settled promise outcome => reference.settle cache promise outcome
  | .resumed _ => reference
  | .cleared => { reference with uses := reference.uses ++ [.cleared] }

/-- The reference after the events of a run. -/
def after (events : List (Event TKey TValue ε)) : Reference TKey TValue ε :=
  events.foldl (step cache) initial

end Reference

variable {reference : Reference TKey TValue ε}

/-- The keys of the calls, and where their answers are from. -/
def sourcesOf (calls : List (Call TKey TValue ε)) : List (TKey × Source TValue) :=
  calls.map fun call => (call.key, call.source)

/-- An open fetch settles. -/
theorem Reference.settle_open
    {key : Option String}
    (isOpen : reference.fetches[promise]? = some { cacheKey := key, outcome := none }) :
    reference.settle cache promise outcome =
      { reference with
        uses := reference.uses ++ completed cache key outcome
        fetches :=
          reference.fetches.set promise { cacheKey := key, outcome := some outcome } } := by
  simp only [settle, isOpen]

theorem Reference.completed_stored
    {value : TValue}
    (storable : cache.shouldCacheValue value = true)
    (cacheKey : String) :
    Reference.completed cache (some cacheKey) (.ok value : Except ε TValue) =
      [.used cacheKey value] :=
  if_pos storable

/-- An error and a value that is not storable are no use. -/
theorem Reference.completed_unstored
    {outcome : Except ε TValue}
    (unstored : ∀ value, outcome = .ok value → cache.shouldCacheValue value = false)
    (cacheKey : String) :
    Reference.completed cache (some cacheKey) outcome = [] := by
  cases outcome with
  | error error => rfl
  | ok value => simp [Reference.completed, unstored value rfl]

/-- The cache has the items, the fetches and the answers of the reference. -/
structure Refines (cache : LruCache TKey TValue) (reference : Reference TKey TValue ε)
    (state : State TKey TValue ε) : Prop where
  items : state.items.entries = Recency.feed cache.capacity reference.uses
  fetches : state.fetches = reference.fetches
  sources : sourcesOf state.calls = reference.sources

/-- The fetch in flight is the one that has not settled. -/
theorem Consistent.get_inFlight
    (consistent : Consistent cache state)
    (cacheKey : String) :
    state.inFlight.get cacheKey = Reference.pending? cacheKey state.fetches := by
  cases found : Reference.pending? cacheKey state.fetches with
  | some promise =>
      obtain ⟨inRange, isPending, _⟩ := List.findIdx?_eq_some_iff_getElem.mp found
      rw [consistent.tracked, List.getElem?_eq_getElem inRange]
      obtain ⟨isKey, isOpen⟩ := of_decide_eq_true isPending
      generalize state.fetches[promise] = fetch at isKey isOpen
      obtain ⟨fetchKey, outcome⟩ := fetch
      cases outcome with
      | some outcome => cases isOpen
      | none => exact congrArg some (congrArg (Fetch.mk · none) isKey)
  | none =>
      rw [Reference.pending?, List.findIdx?_eq_none_iff] at found
      cases isTracked : state.inFlight.get cacheKey with
      | none => rfl
      | some promise =>
          have isPending := (consistent.tracked cacheKey promise).mp isTracked
          have differs := found _ (List.mem_of_getElem? isPending)
          simp [pending] at differs

/-- A new call is noted with its key and its source. -/
theorem sources_concat
    {calls : List (Call TKey TValue ε)}
    {sources : List (TKey × Source TValue)}
    (same : sourcesOf calls = sources)
    (call : Call TKey TValue ε) :
    sourcesOf (calls ++ [call]) = sources ++ [(call.key, call.source)] := by
  rw [sourcesOf, List.map_append, ← same]
  rfl

/-- A call that goes on has the key and the source that it had. -/
theorem sourcesOf_modify
    (fetches : List (Fetch TValue ε))
    (calls : List (Call TKey TValue ε))
    (index : Nat) :
    sourcesOf (calls.modify index (settledCall fetches)) = sourcesOf calls := by
  have same (call : Call TKey TValue ε) :
      ((settledCall fetches call).key, (settledCall fetches call).source) =
        (call.key, call.source) := by
    unfold settledCall
    split <;> rfl
  apply List.ext_getElem?
  intro place
  rw [sourcesOf, sourcesOf, List.getElem?_map, List.getElem?_map, List.getElem?_modify]
  cases calls[place]? with
  | none => rfl
  | some call =>
      rw [Option.map_some]
      split
      · exact congrArg some (same call)
      · rfl

/-- A call finds what the reference has, waits for what it waits for and fetches the rest. -/
theorem Refines.call
    (refines : Refines cache reference state)
    (consistent : Consistent cache state)
    (key : TKey) :
    Refines cache (reference.call cache key) (getOrFetch cache key state) := by
  have starts
      (cacheKey : Option String) :
      state.fetches ++ [{ cacheKey := cacheKey, outcome := none }] =
        reference.fetches ++ [{ cacheKey := cacheKey, outcome := none }] := by
    rw [refines.fetches]
  have waits
      (promise : Nat) :
      sourcesOf (await key promise state).calls =
        reference.sources ++ [(key, .promise promise)] :=
    sources_concat refines.sources _
  unfold getOrFetch Reference.call
  split
  case isFalse =>
    refine ⟨refines.items, starts none, ?_⟩
    rw [Reference.fetch, ← refines.fetches]
    exact waits _
  case isTrue =>
    have sameLookup :
        state.items.get (cache.keyToString key) =
          (Recency.feed cache.capacity reference.uses).lookup (cache.keyToString key) := by
      rw [InsertionMap.get, refines.items]
    have sameFetch := consistent.get_inFlight (cache.keyToString key)
    rw [refines.fetches] at sameFetch
    simp only [← sameLookup, ← sameFetch]
    cases stored : state.items.get (cache.keyToString key) with
    | some cached =>
        refine ⟨?_, refines.fetches, sources_concat refines.sources _⟩
        have isConsistent :
            Consistent cache (hit key (cache.keyToString key) cached state) :=
          consistent.hit stored
        have kept := isConsistent.fits
        change ((state.items.delete _).set _ cached).entries.length ≤ _ at kept
        change ((state.items.delete _).set _ cached).entries = _
        rw [InsertionMap.entries_delete_set] at kept ⊢
        rw [Recency.feed_concat, ← refines.items]
        exact (Recency.rtake_of_length_le kept).symm
    | none =>
        cases fetched : state.inFlight.get (cache.keyToString key) with
        | some promise =>
            exact ⟨refines.items, refines.fetches, waits promise⟩
        | none =>
            refine ⟨refines.items, starts _, ?_⟩
            rw [Reference.fetch, ← refines.fetches]
            exact waits _

/-- A fetch that ends stores what the reference uses. -/
theorem Refines.settle
    (refines : Refines cache reference state)
    (consistent : Consistent cache state)
    (promise : Nat)
    (outcome : Except ε TValue) :
    Refines cache (reference.settle cache promise outcome)
      (settleFetch cache promise outcome state) := by
  have settles
      (fetch : Fetch TValue ε) :
      state.fetches.set promise fetch = reference.fetches.set promise fetch := by
    rw [refines.fetches]
  cases isFetch : state.fetches[promise]? with
  | none =>
      rw [settleFetch, Reference.settle, ← refines.fetches, isFetch]
      exact refines
  | some fetch =>
      obtain ⟨key, settled⟩ := fetch
      cases settled with
      | some earlier =>
          rw [settleFetch, Reference.settle, ← refines.fetches, isFetch]
          exact refines
      | none =>
          rw [Reference.settle_open (refines.fetches ▸ isFetch)]
          cases key with
          | none =>
              rw [settleFetch_uncached isFetch]
              exact ⟨by simpa [Reference.completed] using refines.items, settles _,
                refines.sources⟩
          | some cacheKey =>
              rw [settleFetch_pending isFetch]
              rcases stored_or_unstored cache outcome with ⟨value, rfl, storable⟩ | unstored
              · rw [finishFetch_stored storable]
                refine ⟨?_, settles _, refines.sources⟩
                have absent := consistent.absent isFetch
                refine (entries_store consistent.fits absent value).trans ?_
                rw [Reference.completed_stored storable, Recency.feed_concat, ← refines.items,
                  Recency.use, Recency.remember, Recency.moveToEnd,
                  InsertionMap.others_of_notMem (InsertionMap.get_eq_none_iff.mp absent)]
              · rw [finishFetch_unstored unstored, Reference.completed_unstored unstored,
                  List.append_nil]
                exact ⟨refines.items, settles _, refines.sources⟩

/-- Step lemma: whatever happens next, the cache does what the reference does. -/
theorem Refines.step
    (refines : Refines cache reference state)
    (consistent : Consistent cache state)
    (event : Event TKey TValue ε) :
    Refines cache (reference.step cache event) (step cache state event) := by
  cases event with
  | called key => exact refines.call consistent key
  | settled promise outcome => exact refines.settle consistent promise outcome
  | resumed index =>
      exact ⟨refines.items, refines.fetches,
        (sourcesOf_modify state.fetches state.calls index).trans refines.sources⟩
  | cleared =>
      refine ⟨?_, refines.fetches, refines.sources⟩
      change [] = Recency.feed cache.capacity (reference.uses ++ [.cleared])
      rw [Recency.feed_concat]
      exact (Recency.rtake_of_length_le (Nat.zero_le cache.capacity)).symm

/-- Run lemma: the cache simulates the reference. -/
theorem refines_after
    (cache : LruCache TKey TValue)
    (events : List (Event TKey TValue ε)) :
    Refines cache (Reference.after cache events) (perform cache .initial events) := by
  suffices follows :
      ∀ (reference : Reference TKey TValue ε) (state : State TKey TValue ε),
        Refines cache reference state →
        Consistent cache state →
        Refines cache (events.foldl (Reference.step cache) reference)
          (perform cache state events) from
    follows .initial .initial ⟨rfl, rfl, rfl⟩ (consistent_initial cache)
  induction events with
  | nil => exact fun _ _ refines _ => refines
  | cons event rest inductionHypothesis =>
      intro reference state refines consistent
      exact inductionHypothesis _ _ (refines.step consistent event) (consistent.step event)

/-! ## The next fetch -/

/-- The key is neither stored nor being fetched. -/
structure Idle (state : State TKey TValue ε) (cacheKey : String) : Prop where
  unstored : state.items.get cacheKey = none
  unfetched : state.inFlight.get cacheKey = none

/-- The event is a call that the cache answers under the key. -/
def CallsFor (cache : LruCache TKey TValue) (cacheKey : String) :
    Event TKey TValue ε → Prop
  | .called key => cache.shouldCache key = true ∧ cache.keyToString key = cacheKey
  | _ => False

variable {cacheKey : String}

theorem Idle.getOrFetch
    (idle : Idle state cacheKey)
    {key : TKey}
    (otherKey : ¬ (cache.shouldCache key = true ∧ cache.keyToString key = cacheKey)) :
    Idle (getOrFetch cache key state) cacheKey := by
  unfold LruCache.getOrFetch
  split
  case isFalse => exact { unstored := idle.unstored, unfetched := idle.unfetched }
  case isTrue shouldCache =>
    have different : cacheKey ≠ cache.keyToString key := fun same =>
      otherKey ⟨shouldCache, same.symm⟩
    cases stored : state.items.get (cache.keyToString key) with
    | some cached =>
        simp only [stored]
        exact
          { unstored := by
              change ((state.items.delete _).set _ cached).get cacheKey = none
              rw [InsertionMap.get_set, if_neg different, InsertionMap.get_delete,
                if_neg different]
              exact idle.unstored
            unfetched := idle.unfetched }
    | none =>
        cases fetched : state.inFlight.get (cache.keyToString key) with
        | some promise =>
            simp only [stored, fetched]
            exact { unstored := idle.unstored, unfetched := idle.unfetched }
        | none =>
            simp only [stored, fetched]
            exact
              { unstored := idle.unstored
                unfetched := by
                  change (state.inFlight.set _ _).get cacheKey = none
                  rw [InsertionMap.get_set, if_neg different]
                  exact idle.unfetched }

/-- The end of a fetch leaves its own key idle unless it stores a value. -/
theorem idle_of_unstored
    (absent : state.items.get cacheKey = none)
    {outcome : Except ε TValue}
    (unstored : ∀ value, outcome = .ok value → cache.shouldCacheValue value = false) :
    Idle (finishFetch cache cacheKey outcome state) cacheKey := by
  rw [finishFetch_unstored unstored]
  exact
    { unstored := absent
      unfetched := by
        change (state.inFlight.delete cacheKey).get cacheKey = none
        rw [InsertionMap.get_delete, if_pos rfl] }

theorem Idle.finishFetch
    (idle : Idle state cacheKey)
    (fits : state.items.entries.length ≤ cache.capacity)
    {other : String}
    (absent : state.items.get other = none)
    (different : cacheKey ≠ other)
    (outcome : Except ε TValue) :
    Idle (finishFetch cache other outcome state) cacheKey where
  unstored := by
    rcases stored_or_unstored cache outcome with ⟨value, rfl, storable⟩ | unstored
    · rw [finishFetch_stored storable]
      exact get_store_of_ne fits absent value different idle.unstored
    · rw [finishFetch_unstored unstored]
      exact idle.unstored
  unfetched := by
    rw [finishFetch_inFlight, InsertionMap.get_delete, if_neg different]
    exact idle.unfetched

/-- A key that nobody asks for stays idle. -/
theorem Idle.step
    (idle : Idle state cacheKey)
    (consistent : Consistent cache state)
    {event : Event TKey TValue ε}
    (notFor : ¬ CallsFor cache cacheKey event) :
    Idle (step cache state event) cacheKey := by
  cases event with
  | called key => exact idle.getOrFetch notFor
  | settled promise outcome =>
      change Idle (settleFetch cache promise outcome state) cacheKey
      cases isFetch : state.fetches[promise]? with
      | none =>
          rw [settleFetch, isFetch]
          exact idle
      | some fetch =>
          obtain ⟨key, settled⟩ := fetch
          cases settled with
          | some earlier =>
              rw [settleFetch, isFetch]
              exact idle
          | none =>
              cases key with
              | none =>
                  rw [settleFetch_uncached isFetch]
                  exact { unstored := idle.unstored, unfetched := idle.unfetched }
              | some other =>
                  have different : cacheKey ≠ other := by
                    rintro rfl
                    have isTracked := (consistent.tracked cacheKey promise).mpr isFetch
                    rw [idle.unfetched] at isTracked
                    cases isTracked
                  rw [settleFetch_pending isFetch]
                  apply Idle.finishFetch ?idle ?fits ?absent different outcome
                  case idle =>
                    exact { unstored := idle.unstored, unfetched := idle.unfetched }
                  case fits => exact consistent.fits
                  case absent => exact consistent.absent isFetch
  | resumed index => exact { unstored := idle.unstored, unfetched := idle.unfetched }
  | cleared => exact { unstored := rfl, unfetched := idle.unfetched }

theorem Idle.perform
    (idle : Idle state cacheKey)
    (consistent : Consistent cache state)
    {events : List (Event TKey TValue ε)}
    (noneFor : ∀ event ∈ events, ¬ CallsFor cache cacheKey event) :
    Idle (perform cache state events) cacheKey := by
  induction events generalizing state with
  | nil => exact idle
  | cons event rest inductionHypothesis =>
      exact inductionHypothesis (idle.step consistent (noneFor event (by simp)))
        (consistent.step event) fun later member => noneFor later (by simp [member])

/-- A call for an idle key starts a fetch. -/
theorem getOrFetch_idle
    (idle : Idle state cacheKey)
    {key : TKey}
    (shouldCache : cache.shouldCache key = true)
    (isKey : cache.keyToString key = cacheKey) :
    (getOrFetch cache key state).fetches = state.fetches ++ [pending cacheKey] := by
  subst isKey
  simp only [getOrFetch, shouldCache, if_true, idle.unstored, idle.unfetched]
  rfl

/-- A call for a key in flight waits for the fetch and starts none. -/
theorem getOrFetch_pending
    (consistent : Consistent cache state)
    {promise : Nat}
    {key : TKey}
    (shouldCache : cache.shouldCache key = true)
    (isPending : state.fetches[promise]? = some (pending (cache.keyToString key))) :
    getOrFetch cache key state = await key promise state := by
  have isTracked := (consistent.tracked _ promise).mpr isPending
  simp only [getOrFetch, shouldCache, if_true, consistent.absent isPending, isTracked]

end Steps

/-! ## The cache -/

/-- What holds of a cache in a state it has come to. -/
structure SingleFlight (cache : LruCache TKey TValue)
    (reference : Reference TKey TValue ε) (state : State TKey TValue ε) : Prop where
  /-- Never more items than the capacity. -/
  bounded : state.items.size ≤ cache.capacity
  /-- One fetch for a key at a time. -/
  single :
    ∀ (cacheKey : String) (first second : Nat),
      state.fetches[first]? = some (pending cacheKey) →
      state.fetches[second]? = some (pending cacheKey) →
      first = second
  /-- A call for a key that is being fetched waits for that fetch. -/
  joins :
    ∀ (key : TKey) (promise : Nat),
      cache.shouldCache key = true →
      state.fetches[promise]? = some (pending (cache.keyToString key)) →
      getOrFetch cache key state = await key promise state
  /-- What a call that waited returns is the outcome of its fetch. -/
  sharesOutcome :
    ∀ call ∈ state.calls, ∀ promise outcome,
      call.source = .promise promise →
      call.outcome = some outcome →
      state.fetches[promise]?.bind Fetch.outcome = some outcome
  /-- A call that goes on after its fetch has settled returns that outcome. -/
  returns :
    ∀ (index promise : Nat) (call : Call TKey TValue ε) (outcome : Except ε TValue),
      state.calls[index]? = some call →
      call.source = .promise promise →
      state.fetches[promise]?.bind Fetch.outcome = some outcome →
      (resume index state).calls[index]? = some { call with outcome := some outcome }
  /-- An error changes no item, and the next call for the key fetches again. -/
  rejected :
    ∀ (cacheKey : String) (promise : Nat) (error : ε),
      state.fetches[promise]? = some (pending cacheKey) →
      let failed := settleFetch cache promise (.error error) state
      failed.items = state.items ∧
        ∀ later key,
          (∀ event ∈ later, ¬ CallsFor cache cacheKey event) →
          cache.shouldCache key = true →
          cache.keyToString key = cacheKey →
          (getOrFetch cache key (perform cache failed later)).fetches =
            (perform cache failed later).fetches ++ [pending cacheKey]
  /-- A value that is not to be stored changes no item, but it is the outcome. -/
  unstored :
    ∀ (cacheKey : String) (promise : Nat) (value : TValue),
      state.fetches[promise]? = some (pending cacheKey) →
      cache.shouldCacheValue value = false →
      let returned := settleFetch cache promise (.ok value) state
      returned.items = state.items ∧
        returned.fetches[promise]?.bind Fetch.outcome = some (.ok value)
  storable : ∀ entry ∈ state.items.entries, cache.shouldCacheValue entry.2 = true
  /--
  The items are those of the reference list fed with the hits and the completed storable
  fetches, and calls find, join and start what they do there.
  -/
  refines : Refines cache reference state
  /-- A hit returns the value that is stored. -/
  remembered :
    ∀ call ∈ state.calls, ∀ value,
      call.source = .cached value → call.outcome = some (.ok value)
  /-- The items are the ones that were used last. -/
  leastRecentEvicted :
    state.items.entries = (Recency.latest reference.uses).rtake cache.capacity

theorem Consistent.singleFlight
    {cache : LruCache TKey TValue}
    {reference : Reference TKey TValue ε}
    {state : State TKey TValue ε}
    (consistent : Consistent cache state)
    (refines : Refines cache reference state) :
    SingleFlight cache reference state where
  bounded := consistent.fits
  single := by
    intro cacheKey first second isFirst isSecond
    rw [← consistent.tracked] at isFirst isSecond
    exact Option.some.inj (isFirst.symm.trans isSecond)
  joins := fun _ _ shouldCache isPending =>
    getOrFetch_pending consistent shouldCache isPending
  sharesOutcome := consistent.answered
  returns := by
    intro index promise call outcome isCall isSource settled
    change (state.calls.modify index _)[index]? = _
    rw [List.getElem?_modify_eq, isCall, Option.map_eq_map, Option.map_some, settledCall,
      isSource]
    simp only [settled]
  rejected := by
    intro cacheKey promise error isPending
    have noValue : ∀ value, Except.error error = .ok value → cache.shouldCacheValue value = false := by
      intro value isValue
      cases isValue
    constructor
    · rw [settleFetch_pending isPending, finishFetch_unstored noValue]
    · intro later key noneFor shouldCache isKey
      apply getOrFetch_idle ?_ shouldCache isKey
      apply Idle.perform ?_ (consistent.settleFetch promise (.error error)) noneFor
      rw [settleFetch_pending isPending]
      apply idle_of_unstored ?_ noValue
      exact consistent.absent isPending
  unstored := by
    intro cacheKey promise value isPending refused
    have inRange : promise < state.fetches.length := (List.getElem?_eq_some_iff.mp isPending).1
    have noStore :
        ∀ other, (Except.ok value : Except ε TValue) = .ok other →
          cache.shouldCacheValue other = false := by
      intro other isOther
      cases isOther
      exact refused
    simp only [settleFetch_pending isPending, finishFetch_unstored noStore,
      List.getElem?_set_self inRange]
    exact ⟨trivial, rfl⟩
  storable := consistent.storable
  refines := refines
  remembered := consistent.remembered
  leastRecentEvicted := by
    rw [refines.items, Recency.feed_eq_rtake_latest]

/--
Whatever the capacity and the options of a cache, whatever calls are made, in whatever
order their fetches settle and the calls go on: it is a least-recently-used cache with
one fetch for a key at a time, and does what the reference does with the same events.
-/
theorem single_flight_lru
    (cache : LruCache TKey TValue)
    (events : List (Event TKey TValue ε)) :
    SingleFlight cache (Reference.after cache events) (perform cache .initial events) :=
  ((consistent_initial cache).perform events).singleFlight (refines_after cache events)

/-- Two callers share the first fetch; its key is used again before the third one ends. -/
example :
    let cache : LruCache String Nat :=
      { capacity := 2
        shouldCache := fun _ => true
        shouldCacheValue := fun _ => true
        keyToString := id }
    let state : State String Nat Unit :=
      perform cache .initial
        [.called "a", .called "a", .called "b", .settled 1 (.ok 11), .settled 0 (.ok 10),
          .called "b", .called "c", .settled 2 (.ok 12), .resumed 1]
    state.fetches.length = 3 ∧ state.items.entries = [("b", 11), ("c", 12)] := by
  decide

end LruCache

end CsmProver
