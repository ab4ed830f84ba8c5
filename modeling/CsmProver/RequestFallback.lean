import CsmProver.RetrierBudget
import Mathlib.Data.List.GetD

namespace CsmProver

/-!
# Fallback over the base URLs

A base URL has a budget of attempts: one, and those of the retrier.  A request is
served by the first URL with a success within its budget, at its first success, and
nothing is tried after it.  Without such a URL the request has used up every budget
and rejects with the last error of the last URL.
-/

namespace RestProvider

variable {ν : Type}

/-- The attempts on one base URL. -/
def urlBudget (maxRetries retryDelay : Int) : Nat :=
  1 + retrierBudget maxRetries retryDelay 10000

/-- The attempts on a base URL: one, and after the delay those of the retrier. -/
def urlActions (position : Nat) (apiURL : String) (retryDelay : Int) : Nat → List Action
  | 0 => [.called position apiURL]
  | retries + 1 =>
      .called position apiURL :: .waited (timerDelay retryDelay) ::
        retrierActions position apiURL retryDelay retries

/-- All attempts on all of the base URLs, the first of which is at position `i`. -/
def exhaustedActions (retryDelay : Int) (budget : Nat) : Nat → List String → List Action
  | _, [] => []
  | i, apiURL :: rest =>
      urlActions i apiURL retryDelay (budget - 1) ++
        exhaustedActions retryDelay budget (i + 1) rest

theorem attemptsOn_urlActions_other
    {position tried : Nat}
    (apiURL : String)
    (retryDelay : Int)
    (retries : Nat)
    (other : tried ≠ position) :
    attemptsOn position (urlActions tried apiURL retryDelay retries) = 0 := by
  cases retries with
  | zero =>
      exact attemptsOn_called_other apiURL [] other
  | succ retries =>
      unfold urlActions
      rw [attemptsOn_called_other _ _ other, attemptsOn_waited]
      exact attemptsOn_retrierActions_other _ _ _ other

/-! ## One base URL -/

section Url

variable {outcomes : Outcomes ν} {position : Nat} {apiURL : String}
  {policy : RequestPolicy} {options : PartialRetryOptions ν} {fuel last : Nat}
  {done : List Action} {err : RequestError}

/-- The retrier that a request makes from its options. -/
def requestRetrier (fuel : Nat) (policy : RequestPolicy) (options : PartialRetryOptions ν)
    (callback : Promise ν) : Promise ν :=
  retrier fuel
    { maxRetryCount := (options.fill policy).maxRetries
      minBackoffMs := policy.retryDelay
      maxBackoffMs := 10000 }
    callback none none none

/-- The attempt on which a base URL is left: its first success, or the last of its budget. -/
structure LastAttempt (outcomes : Outcomes ν) (budget position last : Nat) : Prop where
  inBudget : last < budget
  fails : ∀ earlier < last, ¬ Succeeds (outcomes position earlier)
  ends : Succeeds (outcomes position last) ∨ last + 1 = budget

/-- The attempts on a base URL, before the fallback is looked at. -/
theorem attempts_spec
    (counted : CountsExactly (options.fill policy).maxRetries policy.retryDelay 10000)
    (fuelled : urlBudget (options.fill policy).maxRetries policy.retryDelay ≤ fuel)
    (untried : attemptsOn position done = 0)
    (leaves :
      LastAttempt outcomes (urlBudget (options.fill policy).maxRetries policy.retryDelay)
        position last) :
    ((attempt outcomes position apiURL).catchDo (rejectDelay policy.retryDelay)).catchDo
        (fun _ => requestRetrier fuel policy options (attempt outcomes position apiURL)) done =
      some (outcomes position last, done ++ urlActions position apiURL policy.retryDelay last) := by
  obtain ⟨within, fails, ends⟩ := leaves
  unfold urlBudget at within ends fuelled
  cases last with
  | zero =>
      have succeeds : Succeeds (outcomes position 0) := by
        rcases ends with succeeds | spent
        · exact succeeds
        · unfold retrierBudget at spent
          omega
      obtain ⟨value, outcome⟩ := succeeds
      have attempted : attempt outcomes position apiURL done =
          some (.ok value, done ++ [.called position apiURL]) := by
        simp [attempt, untried, outcome]
      rw [Promise.catchDo_resolved (Promise.catchDo_resolved attempted), outcome]
      rfl
  | succ last =>
      obtain ⟨first, outcome⟩ := error_of_not_succeeds (fails 0 (Nat.succ_pos last))
      have attempted : attempt outcomes position apiURL done =
          some (.error first, done ++ [.called position apiURL]) := by
        simp [attempt, untried, outcome]
      let waited :=
        done ++ [.called position apiURL] ++ [.waited (timerDelay policy.retryDelay)]
      have delayed :
          (attempt outcomes position apiURL).catchDo (rejectDelay policy.retryDelay) done =
            some (.error first, waited) := by
        rw [Promise.catchDo_rejected attempted]
        rfl
      have next : ∀ retry, attemptsOn position waited + retry = retry + 1 := by
        intro retry
        simp [waited, untried, Nat.add_comm]
      have retried := @retrier_spec _ outcomes position apiURL
        (options.fill policy).maxRetries policy.retryDelay 10000 waited fuel last
        counted (by omega) (by omega)
        (fun retry before => by
          rw [next]
          exact fails (retry + 1) (by omega))
        (by
          rw [next]
          exact ends.imp_right fun spent => by omega)
      rw [Promise.catchDo_rejected delayed]
      unfold requestRetrier
      rw [retrier_defaults, retried, next]
      simp [waited, urlActions]

/-- A success within the budget is the result. -/
theorem requestUrl_succeeds
    {value : ν}
    (defaultResolved : options.useFallbackOnResolved = none)
    (counted : CountsExactly (options.fill policy).maxRetries policy.retryDelay 10000)
    (fuelled : urlBudget (options.fill policy).maxRetries policy.retryDelay ≤ fuel)
    (untried : attemptsOn position done = 0)
    (leaves :
      LastAttempt outcomes (urlBudget (options.fill policy).maxRetries policy.retryDelay)
        position last)
    (outcome : outcomes position last = .ok value) :
    requestUrl policy (options.fill policy) (requestRetrier fuel policy options)
        (attempt outcomes position apiURL) err done =
      some (.ok (some value, err),
        done ++ urlActions position apiURL policy.retryDelay last) := by
  have attempted := @attempts_spec _ _ _ apiURL _ _ _ _ _ counted fuelled untried leaves
  rw [outcome] at attempted
  unfold requestUrl
  apply Promise.catchDo_resolved
  rw [Promise.thenDo_resolved attempted]
  simp [PartialRetryOptions.fill, defaultResolved, Promise.resolve]

/-- A base URL whose budget is spent leaves its last error. -/
theorem requestUrl_fails
    {final : RequestError}
    (defaultRejected : options.useFallbackOnRejected = none)
    (counted : CountsExactly (options.fill policy).maxRetries policy.retryDelay 10000)
    (fuelled : urlBudget (options.fill policy).maxRetries policy.retryDelay ≤ fuel)
    (untried : attemptsOn position done = 0)
    (leaves :
      LastAttempt outcomes (urlBudget (options.fill policy).maxRetries policy.retryDelay)
        position last)
    (outcome : outcomes position last = .error final) :
    requestUrl policy (options.fill policy) (requestRetrier fuel policy options)
        (attempt outcomes position apiURL) err done =
      some (.ok (none, final),
        done ++ urlActions position apiURL policy.retryDelay last) := by
  have attempted := @attempts_spec _ _ _ apiURL _ _ _ _ _ counted fuelled untried leaves
  rw [outcome] at attempted
  unfold requestUrl
  rw [Promise.catchDo_rejected (Promise.thenDo_rejected attempted)]
  simp [PartialRetryOptions.fill, defaultRejected, Promise.resolve]

end Url

/-! ## All base URLs -/

/-- The budget of every base URL of a request. -/
def requestBudget (provider : BaseRestProvider) (options : PartialRetryOptions ν) : Nat :=
  urlBudget (options.fill provider.requestPolicy).maxRetries provider.requestPolicy.retryDelay

/-- Neither fallback is overridden, and double precision does not change the budget. -/
structure DefaultFallback (provider : BaseRestProvider) (options : PartialRetryOptions ν) :
    Prop where
  onRejected : options.useFallbackOnRejected = none
  onResolved : options.useFallbackOnResolved = none
  counted :
    CountsExactly (options.fill provider.requestPolicy).maxRetries
      provider.requestPolicy.retryDelay 10000

/-- A base URL without a success within its budget. -/
def Exhausts (outcomes : Outcomes ν) (budget position : Nat) : Prop :=
  ∀ attempt < budget, ¬ Succeeds (outcomes position attempt)

theorem Exhausts.lastAttempt
    {outcomes : Outcomes ν}
    {budget position : Nat}
    (exhausts : Exhausts outcomes budget position)
    (positive : 0 < budget) :
    LastAttempt outcomes budget position (budget - 1) where
  inBudget := by omega
  fails := fun earlier before => exhausts earlier (by omega)
  ends := .inr (by omega)

theorem requestBudget_pos
    (provider : BaseRestProvider)
    (options : PartialRetryOptions ν) :
    0 < requestBudget provider options := by
  unfold requestBudget urlBudget
  omega

section Loop

variable {provider : BaseRestProvider} {options : PartialRetryOptions ν}
  {outcomes : Outcomes ν} {fuel : Nat} {done : List Action} {err : RequestError}

/-- The loop of a request from one of its base URLs on. -/
def requestLoop (fuel : Nat) (provider : BaseRestProvider) (options : PartialRetryOptions ν)
    (outcomes : Outcomes ν) (i : Nat) (baseUrls : List String) (res : Option ν)
    (err : RequestError) : Promise (Option ν) :=
  requestFrom provider (options.fill provider.requestPolicy)
    (requestRetrier fuel provider.requestPolicy options) (attempt outcomes) i baseUrls res err

/-- No base URL from this position on has been tried. -/
def Untried (i : Nat) (done : List Action) : Prop :=
  ∀ position, i ≤ position → attemptsOn position done = 0

theorem Untried.append_urlActions
    {i : Nat}
    (untried : Untried i done)
    (apiURL : String)
    (retryDelay : Int)
    (retries : Nat) :
    Untried (i + 1) (done ++ urlActions i apiURL retryDelay retries) := by
  intro position later
  rw [attemptsOn_append, untried position (by omega),
    attemptsOn_urlActions_other _ _ _ (by omega)]

/-- A base URL that exhausts its budget and is not the last one is passed over. -/
theorem requestLoop_passes
    {i : Nat}
    {apiURL : String}
    {rest : List String}
    (setting : DefaultFallback provider options)
    (fuelled : requestBudget provider options ≤ fuel)
    (untried : Untried i done)
    (exhausts : Exhausts outcomes (requestBudget provider options) i)
    (notLast : i ≠ provider.baseUrls.length - 1) :
    ∃ final,
      requestLoop fuel provider options outcomes i (apiURL :: rest) none err done =
        requestLoop fuel provider options outcomes (i + 1) rest none final
          (done ++ urlActions i apiURL provider.requestPolicy.retryDelay
            (requestBudget provider options - 1)) := by
  have leaves := exhausts.lastAttempt (requestBudget_pos provider options)
  obtain ⟨final, outcome⟩ := error_of_not_succeeds (exhausts _ leaves.inBudget)
  have failed := @requestUrl_fails _ outcomes i apiURL _ _ _ _ _ err final
    setting.onRejected setting.counted fuelled (untried i le_rfl) leaves outcome
  refine ⟨final, ?_⟩
  unfold requestLoop
  rw [requestFrom, Promise.thenDo_resolved failed]
  simp [notLast]

/-- The first base URL with a success within its budget ends the loop. -/
theorem requestLoop_served
    {i last : Nat}
    {value : ν}
    {before after : List String}
    {apiURL : String}
    (setting : DefaultFallback provider options)
    (fuelled : requestBudget provider options ≤ fuel)
    (untried : Untried i done)
    (length : i + (before ++ apiURL :: after).length = provider.baseUrls.length)
    (urlsBefore :
      ∀ position, i ≤ position → position < i + before.length →
        Exhausts outcomes (requestBudget provider options) position)
    (leaves : LastAttempt outcomes (requestBudget provider options) (i + before.length) last)
    (outcome : outcomes (i + before.length) last = .ok value) :
    requestLoop fuel provider options outcomes i (before ++ apiURL :: after) none err done =
      some (.ok (some value),
        done ++
          (exhaustedActions provider.requestPolicy.retryDelay (requestBudget provider options)
              i before ++
            urlActions (i + before.length) apiURL provider.requestPolicy.retryDelay last)) := by
  induction before generalizing i done err with
  | nil =>
      have served := @requestUrl_succeeds _ outcomes i apiURL _ _ _ _ _ err value
        setting.onResolved setting.counted fuelled (untried i le_rfl) leaves outcome
      unfold requestLoop
      rw [List.nil_append, requestFrom, Promise.thenDo_resolved served]
      cases after <;> simp [requestFrom, Promise.resolve, exhaustedActions]
  | cons first before inductionHypothesis =>
      have shift : i + (first :: before).length = i + 1 + before.length := by
        simp only [List.length_cons]
        omega
      rw [shift] at leaves outcome urlsBefore ⊢
      obtain ⟨final, passed⟩ := @requestLoop_passes _ provider options outcomes fuel done err
        i first (before ++ apiURL :: after) setting fuelled untried
        (urlsBefore i le_rfl (by omega))
        (by
          simp only [List.cons_append, List.length_cons, List.length_append] at length
          omega)
      rw [List.cons_append, passed,
        inductionHypothesis (untried.append_urlActions _ _ _)
          (by
            simp only [List.cons_append, List.length_cons, List.length_append] at length ⊢
            omega)
          (fun position later before => urlsBefore position (by omega) before) leaves outcome]
      simp [exhaustedActions]

/-- Without a success all budgets are spent and the last error is thrown. -/
theorem requestLoop_rejects
    {i : Nat}
    {apiURL : String}
    {rest : List String}
    (setting : DefaultFallback provider options)
    (fuelled : requestBudget provider options ≤ fuel)
    (untried : Untried i done)
    (length : i + (apiURL :: rest).length = provider.baseUrls.length)
    (exhausted :
      ∀ position, i ≤ position → position < provider.baseUrls.length →
        Exhausts outcomes (requestBudget provider options) position) :
    ∃ final,
      outcomes (provider.baseUrls.length - 1) (requestBudget provider options - 1) =
        .error final ∧
      requestLoop fuel provider options outcomes i (apiURL :: rest) none err done =
        some
          (.error { final with
            message :=
              "Error while doing CL API request on all passed URLs. " ++ final.message },
            done ++ exhaustedActions provider.requestPolicy.retryDelay
              (requestBudget provider options) i (apiURL :: rest)) := by
  induction rest generalizing i apiURL done err with
  | nil =>
      have isLast : i = provider.baseUrls.length - 1 := by
        simp only [List.length_singleton] at length
        omega
      have exhausts := exhausted i le_rfl (by simp only [List.length_singleton] at length; omega)
      have leaves := exhausts.lastAttempt (requestBudget_pos provider options)
      obtain ⟨final, outcome⟩ := error_of_not_succeeds (exhausts _ leaves.inBudget)
      have failed := @requestUrl_fails _ outcomes i apiURL _ _ _ _ _ err final
        setting.onRejected setting.counted fuelled (untried i le_rfl) leaves outcome
      refine ⟨final, isLast ▸ outcome, ?_⟩
      unfold requestLoop
      rw [requestFrom, Promise.thenDo_resolved failed]
      simp [isLast, Promise.reject, exhaustedActions]
  | cons next rest inductionHypothesis =>
      simp only [List.length_cons] at length
      obtain ⟨first, passed⟩ := @requestLoop_passes _ provider options outcomes fuel done err
        i apiURL (next :: rest) setting fuelled untried
        (exhausted i le_rfl (by omega)) (by omega)
      obtain ⟨final, outcome, rejected⟩ :=
        @inductionHypothesis (done ++ urlActions i apiURL provider.requestPolicy.retryDelay
          (requestBudget provider options - 1)) first (i + 1) next
          (untried.append_urlActions _ _ _)
          (by simp only [List.length_cons]; omega)
          (fun position later => exhausted position (by omega))
      refine ⟨final, outcome, ?_⟩
      rw [passed, rejected]
      simp [exhaustedActions]

end Loop

/-! ## Requests -/

/-- A success within the budget of a URL, with none before it. -/
structure FirstSuccess (provider : BaseRestProvider) (options : PartialRetryOptions ν)
    (outcomes : Outcomes ν) (position last : Nat) (value : ν) : Prop where
  inList : position < provider.baseUrls.length
  inBudget : last < requestBudget provider options
  succeeds : outcomes position last = .ok value
  urlsBefore :
    ∀ earlier < position, Exhausts outcomes (requestBudget provider options) earlier
  attemptsBefore : ∀ earlier < last, ¬ Succeeds (outcomes position earlier)

/-- A success within the budget of some URL has a first one. -/
theorem exists_firstSuccess
    {provider : BaseRestProvider}
    {options : PartialRetryOptions ν}
    {outcomes : Outcomes ν}
    (success :
      ∃ position < provider.baseUrls.length,
        ∃ attempt < requestBudget provider options, Succeeds (outcomes position attempt)) :
    ∃ position last value, FirstSuccess provider options outcomes position last value := by
  classical
  obtain ⟨inList, someAttempt⟩ := Nat.find_spec success
  obtain ⟨inBudget, value, outcome⟩ := Nat.find_spec someAttempt
  refine ⟨Nat.find success, Nat.find someAttempt, value, inList, inBudget, outcome, ?_, ?_⟩
  · intro earlier before attempt within succeeds
    exact Nat.find_min success before ⟨before.trans inList, attempt, within, succeeds⟩
  · intro earlier before succeeds
    exact Nat.find_min someAttempt before ⟨before.trans inBudget, succeeds⟩

/-- What a request does over its base URLs. -/
structure FallsBack (fuel : Nat) (provider : BaseRestProvider)
    (options : PartialRetryOptions ν) (outcomes : Outcomes ν) : Prop where
  /-- Served by the first success; the attempts up to it are all that is done. -/
  served :
    ∀ position last value,
      FirstSuccess provider options outcomes position last value →
      retryRequest fuel provider (attempt outcomes) options [] =
        some (.ok (some value),
          exhaustedActions provider.requestPolicy.retryDelay (requestBudget provider options)
              0 (provider.baseUrls.take position) ++
            urlActions position (provider.baseUrls.getD position "")
              provider.requestPolicy.retryDelay last)
  /-- Without a success every budget is spent and the last error of the last URL is thrown. -/
  rejected :
    (∀ position < provider.baseUrls.length,
      Exhausts outcomes (requestBudget provider options) position) →
    ∃ final,
      outcomes (provider.baseUrls.length - 1) (requestBudget provider options - 1) =
        .error final ∧
      retryRequest fuel provider (attempt outcomes) options [] =
        some
          (.error { final with
            message :=
              "Error while doing CL API request on all passed URLs. " ++ final.message },
            exhaustedActions provider.requestPolicy.retryDelay (requestBudget provider options)
              0 provider.baseUrls)
  resolves_iff :
    (∃ result done,
      retryRequest fuel provider (attempt outcomes) options [] = some (.ok result, done)) ↔
      ∃ position < provider.baseUrls.length,
        ∃ attempt < requestBudget provider options, Succeeds (outcomes position attempt)

/-- What a retrier does with the callback of one base URL. -/
structure Retries (fuel : Nat) (outcomes : Outcomes ν) (position : Nat) (apiURL : String)
    (maxRetryCount minBackoffMs maxBackoffMs : Int) : Prop where
  served :
    ∀ last < retrierBudget maxRetryCount minBackoffMs maxBackoffMs, ∀ value,
      outcomes position last = .ok value →
      (∀ earlier < last, ¬ Succeeds (outcomes position earlier)) →
      retrier fuel {} (attempt outcomes position apiURL) (some maxRetryCount)
          (some minBackoffMs) (some maxBackoffMs) [] =
        some (.ok value, retrierActions position apiURL minBackoffMs last)
  rejected :
    Exhausts outcomes (retrierBudget maxRetryCount minBackoffMs maxBackoffMs) position →
    retrier fuel {} (attempt outcomes position apiURL) (some maxRetryCount)
        (some minBackoffMs) (some maxBackoffMs) [] =
      some (outcomes position (retrierBudget maxRetryCount minBackoffMs maxBackoffMs - 1),
        retrierActions position apiURL minBackoffMs
          (retrierBudget maxRetryCount minBackoffMs maxBackoffMs - 1))
  atMost :
    (retrierBudget maxRetryCount minBackoffMs maxBackoffMs : Int) ≤ max 1 maxRetryCount
  stopsEarlier :
    ∀ attempts : Nat, (attempts : Int) < max 1 maxRetryCount →
      (retrierBudget maxRetryCount minBackoffMs maxBackoffMs ≤ attempts ↔
        ∃ retries < attempts, maxBackoffMs ≤ minBackoffMs * 2 ^ retries)

theorem retrier_retries
    {fuel : Nat}
    {maxRetryCount minBackoffMs maxBackoffMs : Int}
    (counted : CountsExactly maxRetryCount minBackoffMs maxBackoffMs)
    (fuelled : retrierBudget maxRetryCount minBackoffMs maxBackoffMs ≤ fuel)
    (outcomes : Outcomes ν)
    (position : Nat)
    (apiURL : String) :
    Retries fuel outcomes position apiURL maxRetryCount minBackoffMs maxBackoffMs where
  served := by
    intro last within value outcome fails
    have run := @retrier_spec _ outcomes position apiURL _ _ _ [] fuel last counted fuelled
      within (by simpa using fails) (.inl ⟨value, by simpa using outcome⟩)
    simpa [outcome] using run
  rejected := by
    intro exhausts
    have leaves := exhausts.lastAttempt (Nat.succ_pos _)
    have run := @retrier_spec _ outcomes position apiURL _ _ _ [] fuel _ counted fuelled
      leaves.inBudget (by simpa using leaves.fails) (by simpa using leaves.ends)
    simpa using run
  atMost := retrierBudget_le
  stopsEarlier := fun _ earlier => retrierBudget_le_iff earlier

section Request

variable {fuel : Nat} {provider : BaseRestProvider} {options : PartialRetryOptions ν}
  {outcomes : Outcomes ν}

theorem untried_nil :
    Untried 0 [] :=
  fun _ _ => rfl

/-- A request is served by the first success. -/
theorem retryRequest_served
    (setting : DefaultFallback provider options)
    (fuelled : requestBudget provider options ≤ fuel)
    {position last : Nat}
    {value : ν}
    (first : FirstSuccess provider options outcomes position last value) :
    retryRequest fuel provider (attempt outcomes) options [] =
      some (.ok (some value),
        exhaustedActions provider.requestPolicy.retryDelay (requestBudget provider options)
            0 (provider.baseUrls.take position) ++
          urlActions position (provider.baseUrls.getD position "")
            provider.requestPolicy.retryDelay last) := by
  have split : provider.baseUrls.take position ++
        provider.baseUrls.getD position "" :: provider.baseUrls.drop (position + 1) =
      provider.baseUrls := by
    rw [List.getD_eq_getElem _ _ first.inList, List.getElem_cons_drop, List.take_append_drop]
  have before : 0 + (provider.baseUrls.take position).length = position := by
    rw [Nat.zero_add, List.length_take, min_eq_left first.inList.le]
  have leaves : LastAttempt outcomes (requestBudget provider options) position last :=
    ⟨first.inBudget, first.attemptsBefore, .inl ⟨value, first.succeeds⟩⟩
  have run := @requestLoop_served _ provider options outcomes fuel [] { message := "" } 0 last
    value (provider.baseUrls.take position) (provider.baseUrls.drop (position + 1))
    (provider.baseUrls.getD position "") setting fuelled untried_nil
    (by rw [split, Nat.zero_add])
    (fun earlier _ below => first.urlsBefore earlier (before ▸ below))
    (before.symm ▸ leaves) (before.symm ▸ first.succeeds)
  rw [split, before, List.nil_append] at run
  exact run

/-- A request without a success rejects once every budget is spent. -/
theorem retryRequest_rejects
    (setting : DefaultFallback provider options)
    (fuelled : requestBudget provider options ≤ fuel)
    (nonempty : provider.baseUrls ≠ [])
    (exhausted :
      ∀ position < provider.baseUrls.length,
        Exhausts outcomes (requestBudget provider options) position) :
    ∃ final,
      outcomes (provider.baseUrls.length - 1) (requestBudget provider options - 1) =
        .error final ∧
      retryRequest fuel provider (attempt outcomes) options [] =
        some
          (.error { final with
            message :=
              "Error while doing CL API request on all passed URLs. " ++ final.message },
            exhaustedActions provider.requestPolicy.retryDelay (requestBudget provider options)
              0 provider.baseUrls) := by
  obtain ⟨apiURL, rest, urls⟩ := List.exists_cons_of_ne_nil nonempty
  obtain ⟨final, outcome, run⟩ := @requestLoop_rejects _ provider options outcomes fuel []
    { message := "" } 0 apiURL rest setting fuelled untried_nil
    (by rw [urls, Nat.zero_add])
    (fun position _ below => exhausted position below)
  refine ⟨final, outcome, ?_⟩
  rw [← urls, List.nil_append] at run
  exact run

theorem retryRequest_fallsBack
    (setting : DefaultFallback provider options)
    (fuelled : requestBudget provider options ≤ fuel)
    (nonempty : provider.baseUrls ≠ [])
    (outcomes : Outcomes ν) :
    FallsBack fuel provider options outcomes where
  served := fun _ _ _ first => retryRequest_served setting fuelled first
  rejected := retryRequest_rejects setting fuelled nonempty
  resolves_iff := by
    constructor
    case mp =>
      rintro ⟨result, done, resolved⟩
      by_contra noSuccess
      have exhausted : ∀ position < provider.baseUrls.length,
          Exhausts outcomes (requestBudget provider options) position :=
        fun position inList attempt within succeeds =>
          noSuccess ⟨position, inList, attempt, within, succeeds⟩
      obtain ⟨final, outcome, run⟩ :=
        retryRequest_rejects setting fuelled nonempty exhausted
      rw [run] at resolved
      cases resolved
    case mpr =>
      intro success
      obtain ⟨position, last, value, first⟩ := exists_firstSuccess success
      exact ⟨_, _, retryRequest_served setting fuelled first⟩

end Request

/--
For a non-empty list of base URLs and the default fallbacks, a request settles under
every assignment of outcomes, and does what `FallsBack` says; so does every retrier.
A retry limit above `2 ^ 53` needs a delay that grows.
-/
theorem requests_fall_back
    (provider : BaseRestProvider)
    (options : PartialRetryOptions ν)
    (outcomes : Outcomes ν)
    (nonempty : provider.baseUrls ≠ [])
    (defaultRejected : options.useFallbackOnRejected = none)
    (defaultResolved : options.useFallbackOnResolved = none)
    (counted :
      (options.fill provider.requestPolicy).maxRetries ≤ 2 ^ 53 ∨
        0 < provider.requestPolicy.retryDelay) :
    (∃ steps, ∀ fuel, steps ≤ fuel → FallsBack fuel provider options outcomes) ∧
      ∀ position apiURL maxRetryCount minBackoffMs maxBackoffMs,
        CountsExactly maxRetryCount minBackoffMs maxBackoffMs →
        ∃ steps, ∀ fuel, steps ≤ fuel →
          Retries fuel outcomes position apiURL maxRetryCount minBackoffMs maxBackoffMs := by
  have setting : DefaultFallback provider options := by
    refine ⟨defaultRejected, defaultResolved, ?_⟩
    exact counted.imp_right fun growing =>
      ⟨growing, le_trans (by norm_num) (pow_le_pow_right₀ one_le_two (show 14 ≤ 1024 by norm_num))⟩
  constructor
  · exact ⟨requestBudget provider options, fun fuel fuelled =>
      retryRequest_fallsBack setting fuelled nonempty outcomes⟩
  · intro position apiURL maxRetryCount minBackoffMs maxBackoffMs exactly
    exact ⟨retrierBudget maxRetryCount minBackoffMs maxBackoffMs, fun fuel fuelled =>
      retrier_retries exactly fuelled outcomes position apiURL⟩

/-- Two nodes, the first of which is down; the second answers its second attempt. -/
theorem requests_fall_back_sample :
    let provider : BaseRestProvider :=
      { baseUrls := ["http://main:5052", "http://backup:5052"]
        requestPolicy := { maxRetries := 3, retryDelay := 500 } }
    let outcomes : Outcomes Nat := fun position attempt =>
      if position = 1 ∧ attempt = 1 then .ok 200 else .error { message := "ECONNREFUSED" }
    (∃ steps, ∀ fuel, steps ≤ fuel → FallsBack fuel provider {} outcomes) ∧
      ∀ position apiURL maxRetryCount minBackoffMs maxBackoffMs,
        CountsExactly maxRetryCount minBackoffMs maxBackoffMs →
        ∃ steps, ∀ fuel, steps ≤ fuel →
          Retries fuel outcomes position apiURL maxRetryCount minBackoffMs maxBackoffMs :=
  requests_fall_back
    { baseUrls := ["http://main:5052", "http://backup:5052"]
      requestPolicy := { maxRetries := 3, retryDelay := 500 } } {} _
    (by decide) rfl rfl (by decide)

/-- A count that subtraction does not lower keeps a retrier without a backoff going. -/
theorem retrier_pending
    {maxRetryCount : Int}
    (stuck : Binary64.sub maxRetryCount 1 = maxRetryCount)
    (many : 1 < maxRetryCount)
    (err : RequestError)
    (position : Nat)
    (apiURL : String)
    (fuel : Nat)
    (done : List Action) :
    retrier fuel {} (attempt (fun _ _ => (.error err : Except RequestError ν)) position apiURL)
      (some maxRetryCount) (some 0) (some 10000) done = none := by
  induction fuel generalizing done with
  | zero =>
      rfl
  | succ fuel inductionHypothesis =>
      have attempted :
          attempt (fun _ _ => (.error err : Except RequestError ν)) position apiURL done =
            some (.error err, done ++ [.called position apiURL]) :=
        rfl
      have continues : ¬ (maxRetryCount ≤ 1 ∨ (0 : Int) ≥ 10000) := by omega
      unfold retrier
      rw [Promise.catchDo_rejected attempted]
      simp only [Option.getD_some, if_neg continues, stuck]
      rw [Promise.thenDo_resolved (rfl : sleep 0 _ = some (.ok (), _))]
      exact inductionHypothesis _

/--
With a retry limit of `2 ^ 53 + 4` and no delay the request never settles: in double
precision the limit less one is the limit again.
-/
theorem retryRequest_never_settles :
    ¬ ∃ fuel settled,
      retryRequest fuel
        { baseUrls := ["http://main:5052"]
          requestPolicy := { maxRetries := 9007199254740996, retryDelay := 0 } }
        (attempt fun _ _ => (.error { message := "ECONNREFUSED" } : Except RequestError Nat))
        {} [] = some settled := by
  rintro ⟨fuel, settled, settles⟩
  apply Option.some_ne_none settled
  rw [← settles]
  have stuck : Binary64.sub 9007199254740996 1 = 9007199254740996 := by decide +kernel
  have pending := fun done => @retrier_pending Nat 9007199254740996 stuck (by norm_num)
    { message := "ECONNREFUSED" } 0 "http://main:5052" fuel done
  have attempted : attempt (fun _ _ => (.error { message := "ECONNREFUSED" } :
      Except RequestError Nat)) 0 "http://main:5052" [] =
        some (.error { message := "ECONNREFUSED" }, [.called 0 "http://main:5052"]) :=
    rfl
  unfold retryRequest requestFrom
  apply Promise.thenDo_pending
  unfold requestUrl
  apply Promise.catchDo_pending
  apply Promise.thenDo_pending
  rw [Promise.catchDo_rejected (Promise.catchDo_rejected attempted)]
  simp only [retrier_defaults]
  exact pending _

end RestProvider

end CsmProver
