import CsmProver.RestProvider
import Mathlib.Data.Nat.Find

namespace CsmProver

/-!
# Attempts of a retrier

A retrier has a budget of attempts: it gives up when its retries are counted down or
its backoff has reached the maximum.  It ends with its first success, or with its
last attempt when all of them fail.

Counting the retries down is exact as long as the limit has at most 53 bits.  Above
that a growing backoff still ends the retries.
-/

namespace RestProvider

variable {ν : Type}

/-! ## Budgets -/

/-- The retrier gives up after the attempt that follows this many retries. -/
def GivesUpAfter (maxRetryCount minBackoffMs maxBackoffMs : Int) (retries : Nat) : Prop :=
  maxRetryCount ≤ retries + 1 ∨ maxBackoffMs ≤ minBackoffMs * 2 ^ retries

instance (maxRetryCount minBackoffMs maxBackoffMs : Int) :
    DecidablePred (GivesUpAfter maxRetryCount minBackoffMs maxBackoffMs) :=
  fun _ => inferInstanceAs (Decidable (_ ∨ _))

/-- Some retry is the last one, whatever the count, since the delay doubles. -/
theorem exists_givesUpAfter
    (maxRetryCount minBackoffMs maxBackoffMs : Int) :
    ∃ retries, GivesUpAfter maxRetryCount minBackoffMs maxBackoffMs retries :=
  ⟨maxRetryCount.toNat, .inl (by omega)⟩

/-- The retries of a retrier whose attempts all fail. -/
def retriesOf (maxRetryCount minBackoffMs maxBackoffMs : Int) : Nat :=
  Nat.find (exists_givesUpAfter maxRetryCount minBackoffMs maxBackoffMs)

/-- The attempts of a retrier. -/
def retrierBudget (maxRetryCount minBackoffMs maxBackoffMs : Int) : Nat :=
  retriesOf maxRetryCount minBackoffMs maxBackoffMs + 1

section Budgets

variable {maxRetryCount minBackoffMs maxBackoffMs : Int}

theorem retriesOf_le
    {retries : Nat}
    (givesUp : GivesUpAfter maxRetryCount minBackoffMs maxBackoffMs retries) :
    retriesOf maxRetryCount minBackoffMs maxBackoffMs ≤ retries :=
  Nat.find_min' _ givesUp

/-- A retrier gives up after its budget. -/
theorem givesUpAfter_retriesOf :
    GivesUpAfter maxRetryCount minBackoffMs maxBackoffMs
      (retriesOf maxRetryCount minBackoffMs maxBackoffMs) :=
  Nat.find_spec (exists_givesUpAfter maxRetryCount minBackoffMs maxBackoffMs)

/-- Before that it goes on. -/
theorem not_givesUpAfter
    {retries : Nat}
    (earlier : retries < retriesOf maxRetryCount minBackoffMs maxBackoffMs) :
    ¬ GivesUpAfter maxRetryCount minBackoffMs maxBackoffMs retries :=
  Nat.find_min _ earlier

/-- A retrier makes at most `max 1 maxRetryCount` attempts. -/
theorem retrierBudget_le :
    (retrierBudget maxRetryCount minBackoffMs maxBackoffMs : Int) ≤ max 1 maxRetryCount := by
  have bound : retriesOf maxRetryCount minBackoffMs maxBackoffMs ≤ (maxRetryCount - 1).toNat :=
    retriesOf_le (.inl (by omega))
  unfold retrierBudget
  omega

/-- It stops before that exactly when its backoff has reached the maximum. -/
theorem retrierBudget_le_iff
    {attempts : Nat}
    (earlier : (attempts : Int) < max 1 maxRetryCount) :
    retrierBudget maxRetryCount minBackoffMs maxBackoffMs ≤ attempts ↔
      ∃ retries < attempts, maxBackoffMs ≤ minBackoffMs * 2 ^ retries := by
  constructor
  case mp =>
    intro within
    refine ⟨retriesOf maxRetryCount minBackoffMs maxBackoffMs, within, ?_⟩
    rcases @givesUpAfter_retriesOf maxRetryCount minBackoffMs maxBackoffMs with counted | reached
    · unfold retrierBudget at within
      omega
    · exact reached
  case mpr =>
    rintro ⟨retries, before, reached⟩
    have found : retriesOf maxRetryCount minBackoffMs maxBackoffMs ≤ retries :=
      retriesOf_le (.inr reached)
    unfold retrierBudget
    omega

end Budgets

-- a count of three stops a retrier first, with a count of ten the backoff does
example : retrierBudget 3 500 10000 = 3 ∧ retrierBudget 10 500 10000 = 6 := by decide +kernel

/-! ## Counting down -/

/-- The retry count a retrier has left after some retries. -/
def countdown (maxRetryCount : Int) (retries : Nat) : Int :=
  (fun count => Binary64.sub count 1)^[retries] maxRetryCount

theorem countdown_succ
    (maxRetryCount : Int)
    (retries : Nat) :
    countdown maxRetryCount (retries + 1) = Binary64.sub (countdown maxRetryCount retries) 1 :=
  Function.iterate_succ_apply' _ _ _

/-- A retrier that has retried once counts down from one less. -/
theorem countdown_sub
    (maxRetryCount : Int)
    (retries : Nat) :
    countdown (Binary64.sub maxRetryCount 1) retries = countdown maxRetryCount (retries + 1) :=
  rfl

/-- Up to `2 ^ 53` every retry takes one from the count. -/
theorem countdown_exact
    {maxRetryCount : Int}
    (small : maxRetryCount ≤ 2 ^ 53)
    {retries : Nat}
    (left : (retries : Int) < max 1 maxRetryCount) :
    countdown maxRetryCount retries = maxRetryCount - retries := by
  induction retries with
  | zero =>
      simp [countdown]
  | succ retries inductionHypothesis =>
      have counted := inductionHypothesis (by omega)
      rw [countdown_succ, counted, Binary64.sub_exact]
      · push_cast
        ring
      · rw [abs_le]
        omega

/-- A count above `2 ^ 53` stays large for as many retries. -/
theorem countdown_large
    {maxRetryCount : Int}
    (large : 2 ^ 53 < maxRetryCount)
    {retries : Nat}
    (few : retries ≤ 2 ^ 53) :
    2 ^ 53 - (retries : Int) ≤ countdown maxRetryCount retries := by
  induction retries with
  | zero =>
      simpa [countdown] using large.le
  | succ retries inductionHypothesis =>
      have counted := inductionHypothesis (by omega)
      rw [countdown_succ]
      rcases le_or_gt (2 ^ 53) (countdown maxRetryCount retries - 1) with above | below
      · have := Binary64.le_sub above
        omega
      · rw [Binary64.sub_exact]
        · omega
        · rw [abs_le]
          omega

/-- Where double precision does not change when a retrier gives up. -/
def CountsExactly (maxRetryCount minBackoffMs maxBackoffMs : Int) : Prop :=
  maxRetryCount ≤ 2 ^ 53 ∨ 0 < minBackoffMs ∧ maxBackoffMs ≤ 2 ^ 1024

section Countdown

variable {maxRetryCount minBackoffMs maxBackoffMs : Int}

/-- A positive backoff reaches a maximum that is a double within `1024` retries. -/
theorem retriesOf_le_of_backoff
    (growing : 0 < minBackoffMs)
    (bounded : maxBackoffMs ≤ 2 ^ 1024) :
    retriesOf maxRetryCount minBackoffMs maxBackoffMs ≤ 1024 := by
  apply retriesOf_le
  right
  calc
    maxBackoffMs ≤ 1 * 2 ^ 1024 := by
        rw [one_mul]
        exact bounded
    _ ≤ minBackoffMs * 2 ^ 1024 := by
        apply Int.mul_le_mul_of_nonneg_right growing
        positivity

/-- The retrier's own count tells when it gives up. -/
theorem givesUp_countdown_iff
    (counted : CountsExactly maxRetryCount minBackoffMs maxBackoffMs)
    {retries : Nat}
    (within : retries ≤ retriesOf maxRetryCount minBackoffMs maxBackoffMs) :
    (countdown maxRetryCount retries ≤ 1 ∨ minBackoffMs * 2 ^ retries ≥ maxBackoffMs) ↔
      GivesUpAfter maxRetryCount minBackoffMs maxBackoffMs retries := by
  have sameCount : countdown maxRetryCount retries ≤ 1 ↔ maxRetryCount ≤ retries + 1 := by
    rcases le_or_gt maxRetryCount (2 ^ 53) with small | large
    · have budget := @retrierBudget_le maxRetryCount minBackoffMs maxBackoffMs
      unfold retrierBudget at budget
      rw [countdown_exact small (by omega)]
      omega
    · rcases counted with small | ⟨growing, bounded⟩
      · omega
      · have few := @retriesOf_le_of_backoff maxRetryCount _ _ growing bounded
        have := countdown_large large (show retries ≤ 2 ^ 53 by omega)
        omega
  unfold GivesUpAfter
  rw [sameCount]

end Countdown

/-! ## What is done -/

/-- The attempts of a retrier, with its backoff between them. -/
def retrierActions (position : Nat) (apiURL : String) (minBackoffMs : Int) (retries : Nat) :
    List Action :=
  ((List.range retries).flatMap fun retry =>
    [.called position apiURL, .waited (timerDelay (minBackoffMs * 2 ^ retry))]) ++
      [.called position apiURL]

/-- One more retry: call, wait, and the rest with the doubled delay. -/
theorem retrierActions_succ
    (position : Nat)
    (apiURL : String)
    (minBackoffMs : Int)
    (retries : Nat) :
    retrierActions position apiURL minBackoffMs (retries + 1) =
      .called position apiURL :: .waited (timerDelay minBackoffMs) ::
        retrierActions position apiURL (minBackoffMs * 2) retries := by
  simp [retrierActions, List.range_succ_eq_map, List.flatMap_map, pow_succ', mul_assoc]

/-- A retrier calls its own URL only. -/
theorem attemptsOn_retrierActions_other
    {position tried : Nat}
    (apiURL : String)
    (minBackoffMs : Int)
    (retries : Nat)
    (other : tried ≠ position) :
    attemptsOn position (retrierActions tried apiURL minBackoffMs retries) = 0 := by
  induction retries generalizing minBackoffMs with
  | zero =>
      exact attemptsOn_called_other apiURL [] other
  | succ retries inductionHypothesis =>
      rw [retrierActions_succ, attemptsOn_called_other _ _ other, attemptsOn_waited]
      exact inductionHypothesis _

/-! ## Retrier -/

/-- An attempt that resolves. -/
def Succeeds (outcome : Except RequestError ν) : Prop :=
  ∃ value, outcome = .ok value

theorem error_of_not_succeeds
    {outcome : Except RequestError ν}
    (fails : ¬ Succeeds outcome) :
    ∃ err, outcome = .error err := by
  cases outcome with
  | ok value =>
      exact (fails ⟨value, rfl⟩).elim
  | error err =>
      exact ⟨err, rfl⟩

theorem retrier_defaults
    (fuel : Nat)
    (defaults : RetrierDefaults)
    (callback : Promise ν) :
    retrier fuel defaults callback none none none =
      retrier fuel {} callback (some defaults.maxRetryCount) (some defaults.minBackoffMs)
        (some defaults.maxBackoffMs) := by
  cases fuel <;> rfl

section Retrier

variable {outcomes : Outcomes ν} {position : Nat} {apiURL : String}
  {maxRetryCount minBackoffMs maxBackoffMs : Int} {done : List Action}

/-- A retrier ends with the first attempt that resolves or that it gives up after. -/
theorem retrier_run
    {retries fuel : Nat}
    (fuelled : retries < fuel)
    (fails :
      ∀ retry < retries, ¬ Succeeds (outcomes position (attemptsOn position done + retry)))
    (goesOn :
      ∀ retry < retries,
        ¬ (countdown maxRetryCount retry ≤ 1 ∨ minBackoffMs * 2 ^ retry ≥ maxBackoffMs))
    (ends :
      Succeeds (outcomes position (attemptsOn position done + retries)) ∨
        (countdown maxRetryCount retries ≤ 1 ∨ minBackoffMs * 2 ^ retries ≥ maxBackoffMs)) :
    retrier fuel {} (attempt outcomes position apiURL) (some maxRetryCount) (some minBackoffMs)
        (some maxBackoffMs) done =
      some (outcomes position (attemptsOn position done + retries),
        done ++ retrierActions position apiURL minBackoffMs retries) := by
  induction retries generalizing fuel maxRetryCount minBackoffMs done with
  | zero =>
      obtain ⟨fuel, rfl⟩ := Nat.exists_eq_succ_of_ne_zero fuelled.ne'
      have attempted : attempt outcomes position apiURL done =
        some (outcomes position (attemptsOn position done), done ++ [.called position apiURL]) :=
          rfl
      unfold retrier
      cases outcome : outcomes position (attemptsOn position done) with
      | ok value =>
          rw [outcome] at attempted
          rw [Promise.catchDo_resolved attempted]
          simp [retrierActions]
      | error err =>
          rw [outcome] at attempted
          have gaveUp : maxRetryCount ≤ 1 ∨ minBackoffMs ≥ maxBackoffMs := by
            simpa [Succeeds, outcome, countdown] using ends
          rw [Promise.catchDo_rejected attempted]
          simp [retrierActions, gaveUp, Promise.reject]
  | succ retries inductionHypothesis =>
      obtain ⟨fuel, rfl⟩ := Nat.exists_eq_succ_of_ne_zero (Nat.ne_zero_of_lt fuelled)
      obtain ⟨err, outcome⟩ := error_of_not_succeeds (fails 0 (Nat.succ_pos retries))
      have attempted : attempt outcomes position apiURL done =
          some (.error err, done ++ [.called position apiURL]) := by
        simpa [attempt] using outcome
      have continues : ¬ (maxRetryCount ≤ 1 ∨ minBackoffMs ≥ maxBackoffMs) := by
        simpa [countdown] using goesOn 0 (Nat.succ_pos retries)
      let waited := done ++ [.called position apiURL] ++ [.waited (timerDelay minBackoffMs)]
      have next : attemptsOn position waited = attemptsOn position done + 1 := by
        simp [waited]
      have doubled : ∀ retry, minBackoffMs * 2 * 2 ^ retry = minBackoffMs * 2 ^ (retry + 1) :=
        fun retry => by rw [pow_succ', mul_assoc]
      have rest := @inductionHypothesis (Binary64.sub maxRetryCount 1) (minBackoffMs * 2) waited
        fuel (by omega)
        (fun retry before => by
          rw [next, Nat.add_right_comm]
          exact fails (retry + 1) (by omega))
        (fun retry before => by
          rw [countdown_sub, doubled]
          exact goesOn (retry + 1) (by omega))
        (by
          rw [next, Nat.add_right_comm, countdown_sub, doubled]
          exact ends)
      unfold retrier
      rw [Promise.catchDo_rejected attempted]
      simp only [Option.getD_some, if_neg continues]
      rw [Promise.thenDo_resolved (rfl : sleep minBackoffMs _ = some (.ok (), waited)), rest,
        next, Nat.add_right_comm, retrierActions_succ]
      simp [waited, Nat.add_assoc]

/-- A retrier makes its attempts up to the first success, or all of its budget. -/
theorem retrier_spec
    {fuel last : Nat}
    (counted : CountsExactly maxRetryCount minBackoffMs maxBackoffMs)
    (fuelled : retrierBudget maxRetryCount minBackoffMs maxBackoffMs ≤ fuel)
    (within : last < retrierBudget maxRetryCount minBackoffMs maxBackoffMs)
    (fails : ∀ retry < last, ¬ Succeeds (outcomes position (attemptsOn position done + retry)))
    (ends :
      Succeeds (outcomes position (attemptsOn position done + last)) ∨
        last + 1 = retrierBudget maxRetryCount minBackoffMs maxBackoffMs) :
    retrier fuel {} (attempt outcomes position apiURL) (some maxRetryCount) (some minBackoffMs)
        (some maxBackoffMs) done =
      some (outcomes position (attemptsOn position done + last),
        done ++ retrierActions position apiURL minBackoffMs last) := by
  unfold retrierBudget at within ends fuelled
  apply retrier_run (by omega) fails
  case goesOn =>
    intro retry before gaveUp
    exact not_givesUpAfter (by omega) ((givesUp_countdown_iff counted (by omega)).mp gaveUp)
  case ends =>
    rcases ends with succeeds | spent
    · exact .inl succeeds
    · right
      have atEnd : last = retriesOf maxRetryCount minBackoffMs maxBackoffMs := by omega
      rw [atEnd]
      exact (givesUp_countdown_iff counted le_rfl).mpr givesUpAfter_retriesOf

end Retrier

end RestProvider

end CsmProver
