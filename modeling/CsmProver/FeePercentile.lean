import CsmProver.FeeCache

namespace CsmProver

/-!
# The percentile of the cached fees

A percentile between 0 and 100 of a list with an entry reads inside the list and lies
between its least and its greatest entry.  A negative percentile does not, and an
empty list has none: which of them can happen depends on the configuration and on the
history of the cache.
-/

namespace Execution

open Async

/-! ## Sorted lists -/

section Sorted

variable {sorted : List Nat} {p : Int}

/-- A position inside the list reads its entry. -/
theorem readAt_eq
    {position : Nat}
    (inside : position < sorted.length) :
    readAt sorted position = some sorted[position] := by
  unfold readAt
  simp [inside]

/-- A negative index reads `undefined`. -/
theorem readAt_negative
    {index : Int}
    (negative : index < 0) :
    readAt sorted index = none := by
  simp [readAt, negative]

/--
The percentile is the middle of the entries at the two positions around its index,
which are one and the same when the index is whole.
-/
theorem percentile_eq
    (nonempty : sorted ≠ [])
    (atLeast : 0 ≤ p)
    (atMost : p ≤ 100) :
    ∃ lower upper,
      ∃ (lowerInside : lower < sorted.length) (upperInside : upper < sorted.length),
        (lower : Int) = p * ((sorted.length : Int) - 1) / 100 ∧
        (upper : Int) = (p * ((sorted.length : Int) - 1) + 99) / 100 ∧
        percentile sorted p = some ((sorted[lower] + sorted[upper]) / 2) := by
  have length : 0 < sorted.length := List.length_pos_iff.mpr nonempty
  have lastNonneg : 0 ≤ (sorted.length : Int) - 1 := by omega
  have indexNonneg : 0 ≤ p * ((sorted.length : Int) - 1) :=
    Int.mul_nonneg atLeast lastNonneg
  have indexLe :
      p * ((sorted.length : Int) - 1) ≤ 100 * ((sorted.length : Int) - 1) :=
    Int.mul_le_mul_of_nonneg_right atMost lastNonneg
  unfold percentile
  generalize indexShape : p * ((sorted.length : Int) - 1) = index at *
  obtain ⟨lower, lowerShape⟩ := Int.eq_ofNat_of_zero_le (by omega : 0 ≤ index / 100)
  obtain ⟨upper, upperShape⟩ :=
    Int.eq_ofNat_of_zero_le (by omega : 0 ≤ (index + 99) / 100)
  have lowerInside : lower < sorted.length := by omega
  have upperInside : upper < sorted.length := by omega
  refine ⟨lower, upper, lowerInside, upperInside, lowerShape.symm, upperShape.symm, ?_⟩
  by_cases whole : index % 100 = 0
  · have same : upper = lower := by omega
    subst same
    simp only [whole, if_true, lowerShape, readAt_eq lowerInside]
    congr 1
    omega
  · have next : (lower : Int) + 1 = upper := by omega
    simp only [whole, if_false, lowerShape, next, readAt_eq lowerInside,
      readAt_eq upperInside]
    rfl

/-- Below zero the index of a list with two entries is negative. -/
theorem percentile_negative
    (several : 2 ≤ sorted.length)
    (negative : p < 0) :
    percentile sorted p = none := by
  have indexNegative : p * ((sorted.length : Int) - 1) < 0 :=
    Int.mul_neg_of_neg_of_pos negative (by omega)
  unfold percentile
  generalize p * ((sorted.length : Int) - 1) = index at *
  have floorNegative : index / 100 < 0 := by omega
  by_cases whole : index % 100 = 0
  · simp only [whole, if_true]
    exact readAt_negative floorNegative
  · simp only [whole, if_false, readAt_negative floorNegative]
    rfl

/-- The empty list has no percentile. -/
theorem percentile_nil :
    percentile [] p = none := by
  have outside : ∀ index, readAt [] index = none := by
    intro index
    unfold readAt
    split
    · rfl
    · simp
  unfold percentile
  simp only [outside]
  split <;> rfl

/-- The percentile lies between the least and the greatest entry. -/
theorem percentile_between
    (ordered : sorted.SortedLE)
    (nonempty : sorted ≠ [])
    (atLeast : 0 ≤ p)
    (atMost : p ≤ 100) :
    ∃ result,
      percentile sorted p = some result ∧
        (∃ lowest ∈ sorted, lowest ≤ result) ∧
        ∃ highest ∈ sorted, result ≤ highest := by
  obtain ⟨lower, upper, lowerInside, upperInside, lowerShape, upperShape, middle⟩ :=
    percentile_eq nonempty atLeast atMost
  have aroundIndex : sorted[lower] ≤ sorted[upper] :=
    ordered.getElem_le_getElem_of_le (by omega)
  refine ⟨_, middle, ⟨sorted[lower], List.getElem_mem _, ?_⟩,
    sorted[upper], List.getElem_mem _, ?_⟩
  · omega
  · omega

/-- A greater percentile is not a lesser fee. -/
theorem percentile_mono
    (ordered : sorted.SortedLE)
    {q : Int}
    (atLeast : 0 ≤ p)
    (less : p ≤ q)
    (atMost : q ≤ 100)
    {first second : Nat}
    (foundFirst : percentile sorted p = some first)
    (foundSecond : percentile sorted q = some second) :
    first ≤ second := by
  have nonempty : sorted ≠ [] := by
    rintro rfl
    rw [percentile_nil] at foundFirst
    cases foundFirst
  have lastNonneg : 0 ≤ (sorted.length : Int) - 1 := by
    have length : 0 < sorted.length := List.length_pos_iff.mpr nonempty
    omega
  obtain ⟨lower, upper, lowerInside, upperInside, lowerShape, upperShape, middle⟩ :=
    percentile_eq nonempty atLeast (by omega : p ≤ 100)
  obtain ⟨lower', upper', lowerInside', upperInside', lowerShape', upperShape', middle'⟩ :=
    percentile_eq nonempty (by omega : 0 ≤ q) atMost
  rw [foundFirst, Option.some.injEq] at middle
  rw [foundSecond, Option.some.injEq] at middle'
  have indexLe :
      p * ((sorted.length : Int) - 1) ≤ q * ((sorted.length : Int) - 1) :=
    Int.mul_le_mul_of_nonneg_right less lastNonneg
  have lowerLe : sorted[lower] ≤ sorted[lower'] :=
    ordered.getElem_le_getElem_of_le (by omega)
  have upperLe : sorted[upper] ≤ sorted[upper'] :=
    ordered.getElem_le_getElem_of_le (by omega)
  omega

end Sorted

/-! ## The cache of a run -/

/-- A cache that has been filled holds several fees, unless none are asked for. -/
structure CacheBounds (config : ExecutionConfig) (world : ExecutionWorld) : Prop where
  unfilled : world.lastFeeHistoryBlockNumber = 0 → world.gasFeeHistoryCache = []
  filled :
    world.lastFeeHistoryBlockNumber ≠ 0 →
      1 ≤ config.txGasFeeHistoryDays → 2 ≤ world.gasFeeHistoryCache.length
  unwanted : config.txGasFeeHistoryDays < 1 → world.gasFeeHistoryCache = []

/-- As many fees are fetched as blocks are asked for. -/
theorem length_fetchedFees
    (config : ExecutionConfig)
    (baseFee : Nat → Nat)
    (latest count : Nat) :
    (fetchedFees config baseFee latest count).length = count := by
  simp [fetchedFees, byDistance]

section Bounds

variable {config : ExecutionConfig} {answers : ExecutionAnswers} {baseFee : Nat → Nat}
variable {before after : ExecutionWorld}

/-- An update builds a list of the length it has computed beforehand. -/
theorem length_of_built
    (honest : answers.baseFeeHistory = feeHistory baseFee)
    {newGasFees : List Nat}
    (built :
      Returns
        (fetchGasFees config answers (blocksToFetch config answers before)
          (blocksToFetch config answers before) answers.latestBlockNumber [])
        before newGasFees) :
    newGasFees.length = blocksToFetch config answers before := by
  have within : blocksToFetch config answers before ≤ answers.latestBlockNumber := by
    unfold blocksToFetch
    simp only
    omega
  rw [fetchGasFees_returns config honest (Nat.le_refl _) within built, List.append_nil]
  exact length_fetchedFees config baseFee _ _

/-- An update keeps the bounds of the cache. -/
theorem CacheBounds.update
    (bounds : CacheBounds config before)
    (honest : answers.baseFeeHistory = feeHistory baseFee)
    (update : CacheUpdate config answers before after) :
    CacheBounds config after := by
  cases update with
  | recent notDue => exact bounds
  | fetched newGasFees due built =>
      have length := length_of_built honest built
      unfold blocksToFetch at length
      simp only [maxBlocksPerHour] at length due
      constructor
      · intro unfilled
        simp only [cacheGasFees] at unfilled
        omega
      · intro _ wanted
        simp only [cacheGasFees, List.length_append]
        omega
      · intro unwanted
        have nothing : newGasFees = [] := by
          apply List.eq_nil_of_length_eq_zero
          omega
        simp [cacheGasFees, nothing, bounds.unwanted unwanted]

/-- So does a call, whether it updates the cache or fails before that. -/
theorem CacheBounds.step
    (bounds : CacheBounds config before)
    (honest : answers.baseFeeHistory = feeHistory baseFee)
    (step : FeeStep config answers before after) :
    CacheBounds config after := by
  cases step with
  | failed => exact bounds
  | read updated update note =>
      have kept := bounds.update honest update
      constructor
      · intro unfilled
        simp [ExecutionWorld.noteAttempt, sortGasFees, kept.unfilled unfilled]
      · intro filled wanted
        simp only [ExecutionWorld.noteAttempt, sortGasFees, List.length_insertionSort]
        exact kept.filled filled wanted
      · intro unwanted
        simp [ExecutionWorld.noteAttempt, sortGasFees, kept.unwanted unwanted]

end Bounds

/-- After any calls the cache is within its bounds. -/
theorem feeRun_bounds
    (config : ExecutionConfig)
    (transactionCount : Nat)
    {baseFee : Nat → Nat}
    {feeCalls : List FeeCall}
    (honest :
      ∀ feeCall ∈ feeCalls, feeCall.answers.baseFeeHistory = feeHistory baseFee) :
    CacheBounds config (feeRun config transactionCount feeCalls) := by
  induction feeCalls using List.reverseRecOn with
  | nil =>
      constructor
      · intro _
        rfl
      · intro filled
        exact absurd rfl filled
      · intro _
        rfl
  | append_singleton feeCalls feeCall inductionHypothesis =>
      rw [feeRun_concat]
      have bounds :=
        inductionHypothesis fun earlier member => honest earlier (by simp [member])
      exact bounds.step (honest feeCall (by simp)) (perform_step config _ feeCall)

/-- After an update the cache has several fees or none. -/
theorem cache_after_update
    {config : ExecutionConfig}
    {answers : ExecutionAnswers}
    {baseFee : Nat → Nat}
    {before after : ExecutionWorld}
    (bounds : CacheBounds config before)
    (honest : answers.baseFeeHistory = feeHistory baseFee)
    (update : CacheUpdate config answers before after) :
    (after.gasFeeHistoryCache = [] ∧
        ¬ (1 ≤ config.txGasFeeHistoryDays ∧
          (before.lastFeeHistoryBlockNumber ≠ 0 ∨
            maxBlocksPerHour ≤ answers.latestBlockNumber))) ∨
      (2 ≤ after.gasFeeHistoryCache.length ∧
        1 ≤ config.txGasFeeHistoryDays ∧
        (before.lastFeeHistoryBlockNumber ≠ 0 ∨
          maxBlocksPerHour ≤ answers.latestBlockNumber)) := by
  have kept := bounds.update honest update
  by_cases wanted : 1 ≤ config.txGasFeeHistoryDays
  · cases update with
    | recent notDue =>
        by_cases unfilled : before.lastFeeHistoryBlockNumber = 0
        · refine Or.inl ⟨bounds.unfilled unfilled, ?_⟩
          omega
        · exact Or.inr ⟨bounds.filled unfilled wanted, wanted, Or.inl unfilled⟩
    | fetched newGasFees due built =>
        have latest : maxBlocksPerHour ≤ answers.latestBlockNumber := by omega
        have known : answers.latestBlockNumber ≠ 0 := by
          simp only [maxBlocksPerHour] at latest
          omega
        exact Or.inr ⟨kept.filled known wanted, wanted, Or.inr latest⟩
  · exact Or.inl ⟨kept.unwanted (by omega), fun both => wanted both.1⟩

/--
After an update the percentile of the cache is read inside the array, lies between the
least and the greatest cached fee and grows with the percentile, exactly when the
configured percentile is not negative, at least one day of history is configured, and
the chain has or had an hour of blocks.
-/
theorem percentile_safe_iff
    (config : ExecutionConfig)
    (transactionCount : Nat)
    {baseFee : Nat → Nat}
    {feeCalls : List FeeCall}
    (honestCalls :
      ∀ feeCall ∈ feeCalls, feeCall.answers.baseFeeHistory = feeHistory baseFee)
    {answers : ExecutionAnswers}
    (honest : answers.baseFeeHistory = feeHistory baseFee)
    {settles : List Settle}
    {after : ExecutionWorld}
    (returned :
      conclude settles (updateGasFeeHistoryCache config answers)
          (feeRun config transactionCount feeCalls) =
        (.ok (), after)) :
    (∃ recommended,
      percentile (sortGasFees after).gasFeeHistoryCache
          config.txGasFeeHistoryPercentile = some recommended ∧
        (∃ lowest ∈ after.gasFeeHistoryCache, lowest ≤ recommended) ∧
        (∃ highest ∈ after.gasFeeHistoryCache, recommended ≤ highest) ∧
        ∀ (higherPercentile : Int) (higher : Nat),
          config.txGasFeeHistoryPercentile ≤ higherPercentile →
          higherPercentile ≤ 100 →
          percentile (sortGasFees after).gasFeeHistoryCache higherPercentile =
            some higher →
          recommended ≤ higher) ↔
      0 ≤ config.txGasFeeHistoryPercentile.1 ∧
        1 ≤ config.txGasFeeHistoryDays ∧
        ((feeRun config transactionCount feeCalls).lastFeeHistoryBlockNumber ≠ 0 ∨
          maxBlocksPerHour ≤ answers.latestBlockNumber) := by
  have bounds := feeRun_bounds config transactionCount honestCalls
  have update := update_returned config answers returned
  have ordered : (sortGasFees after).gasFeeHistoryCache.SortedLE :=
    List.sortedLE_insertionSort
  have same : (sortGasFees after).gasFeeHistoryCache.Perm after.gasFeeHistoryCache :=
    List.perm_insertionSort _ _
  constructor
  · rintro ⟨recommended, found, _⟩
    rcases cache_after_update bounds honest update with
      ⟨empty, _⟩ | ⟨several, wanted, known⟩
    · have sortedEmpty : (sortGasFees after).gasFeeHistoryCache = [] := by
        simp [sortGasFees, empty]
      rw [sortedEmpty, percentile_nil] at found
      cases found
    · refine ⟨?_, wanted, known⟩
      by_contra negative
      rw [← same.length_eq] at several
      rw [percentile_negative several (by omega)] at found
      cases found
  · rintro ⟨atLeast, wanted, known⟩
    rcases cache_after_update bounds honest update with
      ⟨_, unknown⟩ | ⟨several, _, _⟩
    · exact absurd ⟨wanted, known⟩ unknown
    · have nonempty : (sortGasFees after).gasFeeHistoryCache ≠ [] := by
        intro empty
        rw [← same.length_eq, empty] at several
        simp at several
      have atMost := config.txGasFeeHistoryPercentile.2
      obtain ⟨recommended, found, ⟨lowest, lowestIn, lowestLe⟩, highest, highestIn,
        leHighest⟩ := percentile_between ordered nonempty atLeast atMost
      refine ⟨recommended, found, ⟨lowest, same.mem_iff.mp lowestIn, lowestLe⟩,
        ⟨highest, same.mem_iff.mp highestIn, leHighest⟩, ?_⟩
      intro higherPercentile higher less notOver foundHigher
      exact percentile_mono ordered atLeast less notOver found foundHigher

/-- A configuration that passes validation, with the given percentile. -/
def withPercentile (percentile : { percentile : Int // percentile ≤ 100 }) :
    ExecutionConfig :=
  { ExecutionConfig.defaults (.defaults "module" 1) with
    txGasFeeHistoryPercentile := percentile }

/-- The state after the first update of a process that finds the given latest block. -/
def firstUpdate (config : ExecutionConfig) (latestBlockNumber : Nat) : ExecutionWorld :=
  (conclude [] (updateGasFeeHistoryCache config (callAt latestBlockNumber).answers)
    (feeRun config 0 [])).2

set_option maxRecDepth 20000 in
theorem percentile_safe_iff_sample :
    ∃ recommended,
      percentile (sortGasFees (firstUpdate (withPercentile ⟨50, by decide⟩) 300)).gasFeeHistoryCache
        50 = some recommended := by
  have safe :=
    @percentile_safe_iff (withPercentile ⟨50, by decide⟩) 0
      (fun block => if block = 1 then 2 else 1) [] (by simp) (callAt 300).answers rfl []
      (firstUpdate (withPercentile ⟨50, by decide⟩) 300) rfl
  obtain ⟨recommended, found, _⟩ := safe.mpr ⟨by decide, by decide, Or.inr (by decide)⟩
  exact ⟨recommended, found⟩

/--
The percentile reads outside the array with a percentile of -1, which passes
validation, and on a chain of 299 blocks, whose cache is still empty.
-/
theorem percentile_reads_outside :
    percentile
        (sortGasFees (firstUpdate (withPercentile ⟨-1, by decide⟩) 300)).gasFeeHistoryCache
        (-1) = none ∧
    percentile
        (sortGasFees (firstUpdate (withPercentile ⟨50, by decide⟩) 299)).gasFeeHistoryCache
        50 = none := by
  constructor
  · decide +kernel
  · decide +kernel

end Execution

end CsmProver
