import CsmProver.FeeHistory
import CsmProver.Async.Logic
import Mathlib.Data.List.Induction
import Mathlib.Data.List.Infix

namespace CsmProver

/-!
# The cached fee history

The cache is one array with two readers: an update throws out its first entries as
the oldest ones, and the percentile sorts it in place.  From the second update on the
entries thrown out are the least ones.
-/

/-! ## A window over a sequence of batches -/

namespace Window

variable {β : Type}

/-- Put a batch behind a window that keeps its size, or takes that of the batch. -/
def slide (window batch : List β) : List β :=
  (window ++ batch).drop ((window ++ batch).length - max window.length batch.length)

/-- The window after a sequence of batches. -/
def after (batches : List (List β)) : List β :=
  batches.foldl slide []

/-- A batch pushes out as many of the first entries as it brings. -/
theorem slide_eq
    (window batch : List β) :
    slide window batch = window.drop batch.length ++ batch := by
  unfold slide
  rcases Nat.le_total batch.length window.length with shorter | longer
  · have out :
        (window ++ batch).length - max window.length batch.length = batch.length := by
      rw [List.length_append]
      omega
    rw [out, List.drop_append_of_le_length shorter]
  · have out :
        (window ++ batch).length - max window.length batch.length = window.length := by
      rw [List.length_append]
      omega
    rw [out, List.drop_eq_nil_of_le longer]
    simp

theorem after_concat
    (batches : List (List β))
    (batch : List β) :
    after (batches ++ [batch]) = slide (after batches) batch := by
  simp [after]

end Window

namespace Execution

open Async

/-! ## One call -/

/-- The number of blocks whose fees an update fetches. -/
def blocksToFetch (config : ExecutionConfig) (answers : ExecutionAnswers)
    (world : ExecutionWorld) : Nat :=
  let delay := answers.latestBlockNumber - world.lastFeeHistoryBlockNumber
  (min (delay : Int) (config.txGasFeeHistoryDays * (24 * maxBlocksPerHour))).toNat

/-- What an update that returns has made of the state. -/
inductive CacheUpdate (config : ExecutionConfig) (answers : ExecutionAnswers)
    (before : ExecutionWorld) : ExecutionWorld → Prop where
  | recent
      (notDue :
        answers.latestBlockNumber - before.lastFeeHistoryBlockNumber <
          maxBlocksPerHour) :
      CacheUpdate config answers before before
  | fetched
      (newGasFees : List Nat)
      (due :
        maxBlocksPerHour ≤
          answers.latestBlockNumber - before.lastFeeHistoryBlockNumber)
      (built :
        Returns
          (fetchGasFees config answers (blocksToFetch config answers before)
            (blocksToFetch config answers before) answers.latestBlockNumber [])
          before newGasFees) :
      CacheUpdate config answers before
        (cacheGasFees newGasFees answers.latestBlockNumber before)

/-- What a call of `calcFeePerGas` has made of the state, returned or failed. -/
inductive FeeStep (config : ExecutionConfig) (answers : ExecutionAnswers)
    (before : ExecutionWorld) : ExecutionWorld → Prop where
  | failed : FeeStep config answers before before
  | read
      (updated : ExecutionWorld)
      (update : CacheUpdate config answers before updated)
      (note : Attempt → Attempt) :
      FeeStep config answers before ((sortGasFees updated).noteAttempt note)

/-- Calls one after the other: nobody else moves while one is suspended. -/
def undisturbed (aborted : ExecutionWorld → Prop) : Protocol ExecutionWorld where
  rely := fun world moved => moved = world
  suspended := fun _ => True
  aborted := fun _ world => aborted world

section Specs

variable (config : ExecutionConfig) (answers : ExecutionAnswers)
variable {aborted : ExecutionWorld → Prop} {before : ExecutionWorld}

theorem fetchGasFees_spec
    (aborts : aborted before)
    (fuel count newest : Nat)
    (newGasFees : List Nat) :
    wp (undisturbed aborted) (fun _ after => after = before)
      (fetchGasFees config answers fuel count newest newGasFees) before := by
  induction fuel generalizing count newest newGasFees with
  | zero =>
      exact rfl
  | succ fuel inductionHypothesis =>
      unfold fetchGasFees
      split
      · exact rfl
      · rw [wp_bind, wp_request]
        refine ⟨trivial, ?_⟩
        rintro moved rfl
        exact ⟨inductionHypothesis _ _ _, aborts⟩

theorem updateGasFeeHistoryCache_spec
    (aborts : aborted before) :
    wp (undisturbed aborted)
      (fun _ after => CacheUpdate config answers before after)
      (updateGasFeeHistoryCache config answers) before := by
  unfold updateGasFeeHistoryCache
  rw [wp_bind, wp_request]
  refine ⟨trivial, ?_⟩
  rintro moved rfl
  refine ⟨?_, aborts⟩
  rw [wp_bind, wp_read]
  change wp _ _ (ite _ _ _) _
  split
  · rename_i notDue
    exact CacheUpdate.recent notDue
  · rename_i due
    rw [wp_bind]
    apply wp_mono (wp_returns (fetchGasFees_spec config answers aborts _ _ _ _))
    rintro newGasFees after ⟨rfl, built⟩
    exact CacheUpdate.fetched newGasFees (Nat.le_of_not_lt due) built

theorem calcFeePerGas_spec :
    wp (undisturbed (FeeStep config answers before))
      (fun _ after => FeeStep config answers before after)
      (calcFeePerGas config answers) before := by
  unfold calcFeePerGas
  rw [wp_bind, wp_request]
  refine ⟨trivial, ?_⟩
  rintro moved rfl
  refine ⟨?_, FeeStep.failed⟩
  rw [wp_bind, wp_call]
  apply wp_mono (updateGasFeeHistoryCache_spec config answers FeeStep.failed)
  intro _ updated update
  refine ⟨trivial, ?_⟩
  rintro resumed rfl
  simp only [wp_bind, wp_modify, wp_read]
  split
  · exact FeeStep.read resumed update _
  · exact FeeStep.read resumed update _

/-- An update that fails leaves everything as it was. -/
theorem update_failed
    {settles : List Settle}
    {reason : Abort}
    {after : ExecutionWorld}
    (failed :
      conclude settles (updateGasFeeHistoryCache config answers) before =
        (.error reason, after)) :
    after = before := by
  have unchanged :=
    conclude_sound (fun _ => rfl)
      (@updateGasFeeHistoryCache_spec config answers (· = before) before rfl) settles
  rw [failed] at unchanged
  exact unchanged

theorem update_returned
    {settles : List Settle}
    {after : ExecutionWorld}
    (returned :
      conclude settles (updateGasFeeHistoryCache config answers) before =
        (.ok (), after)) :
    CacheUpdate config answers before after := by
  have updated :=
    conclude_sound (fun _ => rfl)
      (@updateGasFeeHistoryCache_spec config answers (· = before) before rfl) settles
  rw [returned] at updated
  exact updated

end Specs

/-! ## Runs -/

/-- A call of `calcFeePerGas`: the answers to its requests, and how they settle. -/
structure FeeCall where
  answers : ExecutionAnswers
  settles : List Settle

def FeeCall.perform (config : ExecutionConfig) (world : ExecutionWorld)
    (feeCall : FeeCall) : ExecutionWorld :=
  (conclude feeCall.settles (calcFeePerGas config feeCall.answers) world).2

/-- The state of a process after a sequence of calls. -/
def feeRun (config : ExecutionConfig) (transactionCount : Nat)
    (feeCalls : List FeeCall) : ExecutionWorld :=
  feeCalls.foldl (FeeCall.perform config) (.starting transactionCount)

theorem perform_step
    (config : ExecutionConfig)
    (world : ExecutionWorld)
    (feeCall : FeeCall) :
    FeeStep config feeCall.answers world (feeCall.perform config world) := by
  have concluded :=
    conclude_sound (fun _ => rfl)
      (@calcFeePerGas_spec config feeCall.answers world) feeCall.settles
  unfold FeeCall.perform
  revert concluded
  cases conclude feeCall.settles (calcFeePerGas config feeCall.answers) world with
  | mk outcome after =>
      cases outcome with
      | ok value => exact id
      | error reason => exact id

theorem feeRun_concat
    (config : ExecutionConfig)
    (transactionCount : Nat)
    (feeCalls : List FeeCall)
    (feeCall : FeeCall) :
    feeRun config transactionCount (feeCalls ++ [feeCall]) =
      feeCall.perform config (feeRun config transactionCount feeCalls) := by
  simp [feeRun]

/-- A property of every entry of a list and of the entries before it. -/
theorem forall_split_concat_iff
    {β : Type}
    {property : List β → β → Prop}
    {items : List β}
    {item : β} :
    (∀ earlier middle later,
        items ++ [item] = earlier ++ middle :: later → property earlier middle) ↔
      (∀ earlier middle later,
        items = earlier ++ middle :: later → property earlier middle) ∧
      property items item := by
  constructor
  · intro holds
    refine ⟨fun earlier middle later shape => ?_, holds items item [] rfl⟩
    apply holds earlier middle (later ++ [item])
    rw [shape]
    simp
  · rintro ⟨inside, last⟩ earlier middle later shape
    rcases List.eq_nil_or_concat' later with rfl | ⟨front, final, rfl⟩
    · obtain ⟨rfl, sameItem⟩ := List.append_inj' shape rfl
      cases sameItem
      exact last
    · have regrouped : items ++ [item] = (earlier ++ middle :: front) ++ [final] := by
        simpa using shape
      obtain ⟨sameItems, _⟩ := List.append_inj' regrouped rfl
      exact inside earlier middle front sameItems

/-! ## The window of the cache -/

/-- The cache holds the fees of the window, in whatever order. -/
def Represents (world : ExecutionWorld) : Prop :=
  world.gasFeeHistoryCache.Perm (Window.after world.fetched)

/-- The first entries of a window are its least ones, as a multiset. -/
def OldestAreLeast (window : List Nat) (count : Nat) : Prop :=
  ((window.insertionSort (· ≤ ·)).take count).Perm (window.take count)

/-- Of two equal multisets the rests are equal exactly when the parts taken are. -/
theorem drop_perm_iff_take_perm
    {first second : List Nat}
    (same : first.Perm second)
    (count : Nat) :
    (first.drop count).Perm (second.drop count) ↔
      (first.take count).Perm (second.take count) := by
  have whole :
      (first.take count ++ first.drop count).Perm
        (second.take count ++ second.drop count) := by
    rw [List.take_append_drop, List.take_append_drop]
    exact same
  constructor
  · intro rests
    have exchanged :=
      whole.trans (List.Perm.append_left (second.take count) rests.symm)
    exact (List.perm_append_right_iff _).mp exchanged
  · intro parts
    have exchanged :=
      whole.trans (List.Perm.append_right (second.drop count) parts.symm)
    exact (List.perm_append_left_iff _).mp exchanged

/-- A sorted cache slides with its window exactly when the oldest fees are the least. -/
theorem slides_iff
    {cache window : List Nat}
    (sorted : cache.SortedLE)
    (same : cache.Perm window)
    (batch : List Nat) :
    (cache.drop batch.length ++ batch).Perm (Window.slide window batch) ↔
      OldestAreLeast window batch.length := by
  have isSort : cache = window.insertionSort (· ≤ ·) :=
    List.Perm.eq_of_sortedLE sorted List.sortedLE_insertionSort
      (same.trans (List.perm_insertionSort _ window).symm)
  rw [Window.slide_eq, List.perm_append_right_iff]
  unfold OldestAreLeast
  rw [← isSort]
  exact drop_perm_iff_take_perm same batch.length

section Runs

variable {config : ExecutionConfig} {answers : ExecutionAnswers}
variable {before after : ExecutionWorld}

/-- Between two calls the cache is sorted. -/
theorem sorted_of_step
    (sorted : before.gasFeeHistoryCache.SortedLE)
    (step : FeeStep config answers before after) :
    after.gasFeeHistoryCache.SortedLE := by
  cases step with
  | failed => exact sorted
  | read updated update note => exact List.sortedLE_insertionSort

theorem feeRun_sorted
    (config : ExecutionConfig)
    (transactionCount : Nat)
    (feeCalls : List FeeCall) :
    (feeRun config transactionCount feeCalls).gasFeeHistoryCache.SortedLE := by
  induction feeCalls using List.reverseRecOn with
  | nil =>
      exact List.Pairwise.sortedLE List.Pairwise.nil
  | append_singleton feeCalls feeCall inductionHypothesis =>
      rw [feeRun_concat]
      exact sorted_of_step inductionHypothesis (perform_step config _ feeCall)

/-- The fetched fees of a run are only added to. -/
theorem fetched_of_step
    (step : FeeStep config answers before after) :
    ∃ newer, after.fetched = before.fetched ++ newer := by
  cases step with
  | failed => exact ⟨[], (List.append_nil _).symm⟩
  | read updated update note =>
      cases update with
      | recent notDue => exact ⟨[], (List.append_nil _).symm⟩
      | fetched newGasFees due built => exact ⟨[newGasFees], rfl⟩

/-- What one call adds to the fetched fees, and when the cache follows them. -/
theorem represents_of_step
    (sorted : before.gasFeeHistoryCache.SortedLE)
    (represents : Represents before)
    (step : FeeStep config answers before after) :
    (after.fetched = before.fetched ∧ Represents after) ∨
      ∃ newGasFees,
        after.fetched = before.fetched ++ [newGasFees] ∧
          (Represents after ↔
            OldestAreLeast (Window.after before.fetched) newGasFees.length) := by
  cases step with
  | failed =>
      exact Or.inl ⟨rfl, represents⟩
  | read updated update note =>
      cases update with
      | recent notDue =>
          refine Or.inl ⟨rfl, ?_⟩
          exact (List.perm_insertionSort _ _).trans represents
      | fetched newGasFees due built =>
          refine Or.inr ⟨newGasFees, rfl, ?_⟩
          rw [← slides_iff sorted represents newGasFees]
          unfold Represents
          simp only [ExecutionWorld.noteAttempt, sortGasFees, cacheGasFees,
            Window.after_concat]
          exact (List.perm_insertionSort _ _).congr_left _

end Runs

/-- A process that has just started represents the empty window. -/
theorem represents_starting
    (transactionCount : Nat) :
    Represents (.starting transactionCount) :=
  List.Perm.refl []

/--
The cache is the sliding window of the fetched fees after every call of a run exactly
when at each update of the run the oldest fees of the window that go out are, as a
multiset, its least ones.  An update that fails changes neither the cache nor the
block number.
-/
theorem cache_slides_iff
    (config : ExecutionConfig)
    (transactionCount : Nat)
    (feeCalls : List FeeCall) :
    ((∀ performed,
        performed <+: feeCalls →
        (feeRun config transactionCount performed).gasFeeHistoryCache.Perm
          (Window.after (feeRun config transactionCount performed).fetched)) ↔
      ∀ earlier newGasFees later,
        (feeRun config transactionCount feeCalls).fetched =
          earlier ++ newGasFees :: later →
        OldestAreLeast (Window.after earlier) newGasFees.length) ∧
    ∀ answers settles world reason after,
      conclude settles (updateGasFeeHistoryCache config answers) world =
        (.error reason, after) →
      after.gasFeeHistoryCache = world.gasFeeHistoryCache ∧
        after.lastFeeHistoryBlockNumber = world.lastFeeHistoryBlockNumber := by
  constructor
  · induction feeCalls using List.reverseRecOn with
    | nil =>
        constructor
        · intro _ earlier newGasFees later shape
          simp [feeRun, ExecutionWorld.starting] at shape
        · intro _ performed starts
          rw [List.prefix_nil.mp starts]
          exact represents_starting transactionCount
    | append_singleton feeCalls feeCall inductionHypothesis =>
        have step :=
          perform_step config (feeRun config transactionCount feeCalls) feeCall
        have sorted := feeRun_sorted config transactionCount feeCalls
        simp only [List.prefix_concat_iff, forall_eq_or_imp]
        rw [feeRun_concat, inductionHypothesis]
        constructor
        · rintro ⟨represents, slid⟩
          have before : Represents (feeRun config transactionCount feeCalls) :=
            inductionHypothesis.mpr slid feeCalls List.prefix_rfl
          rcases represents_of_step sorted before step with
            ⟨sameFetched, _⟩ | ⟨newGasFees, fetched, follows⟩
          · rw [sameFetched]
            exact slid
          · rw [fetched]
            exact forall_split_concat_iff.mpr ⟨slid, follows.mp represents⟩
        · intro slid
          obtain ⟨newer, grown⟩ := fetched_of_step step
          have slidBefore :
              ∀ earlier newGasFees later,
                (feeRun config transactionCount feeCalls).fetched =
                  earlier ++ newGasFees :: later →
                OldestAreLeast (Window.after earlier) newGasFees.length := by
            intro earlier newGasFees later shape
            apply slid earlier newGasFees (later ++ newer)
            rw [grown, shape]
            simp
          have before : Represents (feeRun config transactionCount feeCalls) :=
            inductionHypothesis.mpr slidBefore feeCalls List.prefix_rfl
          refine ⟨?_, slidBefore⟩
          rcases represents_of_step sorted before step with
            ⟨_, represents⟩ | ⟨newGasFees, fetched, follows⟩
          · exact represents
          · rw [fetched] at slid
            exact follows.mpr (forall_split_concat_iff.mp slid).2
  · intro answers settles world reason after failed
    rw [update_failed config answers failed]
    exact ⟨rfl, rfl⟩

/-- A call that finds the given latest block; the fee of block 1 was twice the others. -/
def callAt (latestBlockNumber : Nat) : FeeCall where
  answers :=
    { blankAnswers with
      latestBlockNumber := latestBlockNumber
      baseFeeHistory := feeHistory fun block => if block = 1 then 2 else 1 }
  settles := []

/-- A call that finds the given latest block; the fee of a block is its number. -/
def risingCallAt (latestBlockNumber : Nat) : FeeCall where
  answers :=
    { blankAnswers with
      latestBlockNumber := latestBlockNumber
      baseFeeHistory := feeHistory id }
  settles := []

/-- Of a window in the order of its fees the oldest are the least. -/
theorem oldestAreLeast_of_sorted
    {window : List Nat}
    (sorted : window.Pairwise (· ≤ ·))
    (count : Nat) :
    OldestAreLeast window count := by
  rw [OldestAreLeast, sorted.insertionSort_eq]

/-- The second update pushes the fees of the blocks 1 to 300 out of the window. -/
theorem cache_slides_iff_sample :
    (feeRun (.defaults (.defaults "module" 1)) 0
        [risingCallAt 600, risingCallAt 900]).gasFeeHistoryCache.Perm
      (Window.after
        (feeRun (.defaults (.defaults "module" 1)) 0
          [risingCallAt 600, risingCallAt 900]).fetched) := by
  have slides :=
    (cache_slides_iff (.defaults (.defaults "module" 1)) 0
      [risingCallAt 600, risingCallAt 900]).1
  apply slides.mpr ?_ [risingCallAt 600, risingCallAt 900] List.prefix_rfl
  intro earlier newGasFees later shape
  have rising :
      ∀ fetched ∈
        (feeRun (.defaults (.defaults "module" 1)) 0
          [risingCallAt 600, risingCallAt 900]).fetched.inits,
        (Window.after fetched).IsChain (· ≤ ·) := by
    decide +kernel
  have isPrefix : earlier ∈ (earlier ++ newGasFees :: later).inits :=
    (List.mem_inits _ _).mpr (List.prefix_append _ _)
  rw [← shape] at isPrefix
  exact oldestAreLeast_of_sorted (rising earlier isPrefix).pairwise newGasFees.length

/--
Block 1 leaves the window of 301 blocks with the second update, but its fee stays in
the cache: the sort for the first percentile has put it last.
-/
theorem highest_fee_stays :
    ¬ (feeRun (.defaults (.defaults "module" 1)) 0
          [callAt 301, callAt 601]).gasFeeHistoryCache.Perm
        (Window.after
          (feeRun (.defaults (.defaults "module" 1)) 0
            [callAt 301, callAt 601]).fetched) := by
  intro same
  have inCache :
      2 ∈ (feeRun (.defaults (.defaults "module" 1)) 0
          [callAt 301, callAt 601]).gasFeeHistoryCache := by
    decide +kernel
  have notInWindow :
      2 ∉ Window.after
          (feeRun (.defaults (.defaults "module" 1)) 0
            [callAt 301, callAt 601]).fetched := by
    decide +kernel
  exact notInWindow (same.subset inCache)

end Execution

end CsmProver
