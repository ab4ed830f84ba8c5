import CsmProver.Async.Loop
import CsmProver.Execution

namespace CsmProver

/-!
# Nonces of concurrently sent transactions

A nonce is the count that `populateTransaction` finds, and the count moves on
only when a transaction with the nonce it shows is accepted.  So two transactions
share a nonce exactly when none with that nonce was accepted between their
`populateTransaction` calls.  A task populates its next transaction only when it is
through with the last one; what it has not sent yet another task may outrun.
-/

/-! ## A counter that moves on when its number is used -/

namespace Counter

/-- The counter after a number was used. -/
def advance (counter used : Nat) : Nat :=
  if used = counter then counter + 1 else counter

/-- The counter after a list of numbers was used, in order. -/
def countAfter (start : Nat) (uses : List Nat) : Nat :=
  uses.foldl advance start

@[simp] theorem countAfter_nil
    (start : Nat) :
    countAfter start [] = start :=
  rfl

theorem countAfter_append
    (start : Nat)
    (first second : List Nat) :
    countAfter start (first ++ second) = countAfter (countAfter start first) second :=
  List.foldl_append

theorem le_countAfter
    (start : Nat)
    (uses : List Nat) :
    start ≤ countAfter start uses := by
  induction uses generalizing start with
  | nil =>
      exact Nat.le_refl start
  | cons used rest inductionHypothesis =>
      have first : start ≤ advance start used := by
        unfold advance
        split <;> omega
      exact Nat.le_trans first (inductionHypothesis _)

/-- The counter shows the same number again exactly when that number was not used. -/
theorem countAfter_eq_self_iff
    (start : Nat)
    (uses : List Nat) :
    countAfter start uses = start ↔ start ∉ uses := by
  induction uses with
  | nil =>
      simp
  | cons used rest inductionHypothesis =>
      by_cases isStart : used = start
      · subst isStart
        have passed : used + 1 ≤ countAfter (used + 1) rest :=
          le_countAfter (used + 1) rest
        have unfolded :
            countAfter used (used :: rest) = countAfter (used + 1) rest := by
          simp [countAfter, advance]
        rw [unfolded]
        simp only [List.mem_cons, true_or, not_true_eq_false, iff_false]
        omega
      · have unfolded :
            countAfter start (used :: rest) = countAfter start rest := by
          simp [countAfter, advance, isStart]
        have isNew : start ≠ used := fun same => isStart same.symm
        rw [unfolded, inductionHypothesis]
        simp [isNew]

end Counter

/-! ## What the log says -/

namespace TransactionEvent

def acceptedNonce? : TransactionEvent → Option Nat
  | .accepted transaction => some transaction.transaction.nonce
  | _ => none

/-- The transaction that is passed to the provider or accepted. -/
def passed? : TransactionEvent → Option PopulatedTransaction
  | .populated _ => none
  | .sent transaction => some transaction
  | .accepted transaction => some transaction

end TransactionEvent

/-- The nonces of the accepted transactions, in order. -/
def acceptedNonces (log : List TransactionEvent) : List Nat :=
  log.filterMap TransactionEvent.acceptedNonce?

theorem mem_acceptedNonces
    {log : List TransactionEvent}
    {nonce : Nat} :
    nonce ∈ acceptedNonces log ↔
      ∃ populated, .accepted populated ∈ log ∧ populated.transaction.nonce = nonce := by
  unfold acceptedNonces
  rw [List.mem_filterMap]
  constructor
  · rintro ⟨event, member, found⟩
    cases event with
    | accepted populated =>
        exact ⟨populated, member, Option.some.inj found⟩
    | populated transaction =>
        cases found
    | sent populated =>
        cases found
  · rintro ⟨populated, member, sameNonce⟩
    exact ⟨.accepted populated, member, congrArg some sameNonce⟩

/-- A transaction with the nonce was accepted between two places of the log. -/
def AcceptedBetween (log : List TransactionEvent) (first second nonce : Nat) : Prop :=
  ∃ populated,
    .accepted populated ∈ (log.take second).drop first ∧
      populated.transaction.nonce = nonce

/-- An acceptance at a place between the two is one. -/
theorem acceptedBetween_of_place
    {log : List TransactionEvent}
    {first second place : Nat}
    {populated : PopulatedTransaction}
    (accepted : log[place]? = some (.accepted populated))
    (above : first ≤ place)
    (below : place < second) :
    AcceptedBetween log first second populated.transaction.nonce := by
  refine ⟨populated, List.mem_of_getElem? (?found : _[place - first]? = _), rfl⟩
  rw [List.getElem?_drop, Nat.add_sub_cancel' above, List.getElem?_take_of_lt below]
  exact accepted

/-- Different transactions passed to the provider have different nonces. -/
def NoncesDistinct (log : List TransactionEvent) : Prop :=
  ∀ first second,
    .sent first ∈ log →
    .sent second ∈ log →
    first.transaction ≠ second.transaction →
    first.transaction.nonce ≠ second.transaction.nonce

namespace PopulatedTransaction

/-- The log has the transaction's `populateTransaction` call at the place it names. -/
def IsIn (populated : PopulatedTransaction) (log : List TransactionEvent) : Prop :=
  log[populated.moment]? = some (.populated populated.transaction)

theorem IsIn.of_grows
    {populated : PopulatedTransaction}
    {log longer : List TransactionEvent}
    (isIn : populated.IsIn log)
    (grows : log <+: longer) :
    populated.IsIn longer := by
  obtain ⟨rest, rfl⟩ := grows
  obtain ⟨inside, found⟩ := List.getElem?_eq_some_iff.mp isIn
  have insideLonger :
      (log ++ rest)[populated.moment]? = log[populated.moment]? :=
    List.getElem?_append_left inside
  exact insideLonger.trans isIn

end PopulatedTransaction

/-! ## The invariant -/

/-- The count and every nonce in the log come from the transactions accepted before. -/
structure Coherent (transactionCount : Nat) (world : ExecutionWorld) : Prop where
  count :
    world.transactionCount =
      Counter.countAfter transactionCount (acceptedNonces world.log)
  populated :
    ∀ populated : PopulatedTransaction,
      populated.IsIn world.log →
      populated.transaction.nonce =
        Counter.countAfter transactionCount
          (acceptedNonces (world.log.take populated.moment))
  sent :
    ∀ populated,
      .sent populated ∈ world.log →
      populated.IsIn world.log

namespace Coherent

variable {transactionCount : Nat} {world : ExecutionWorld}

theorem starting
    (transactionCount : Nat) :
    Coherent transactionCount (.starting transactionCount) where
  count := rfl
  populated := by
    intro populated isIn
    cases isIn
  sent := by
    intro populated member
    cases member

/-- One more event keeps the invariant when it tells the truth. -/
theorem append
    (coherent : Coherent transactionCount world)
    {after : ExecutionWorld}
    {event : TransactionEvent}
    (logged : after.log = world.log ++ [event])
    (count :
      after.transactionCount =
        Counter.countAfter world.transactionCount (acceptedNonces [event]))
    (populated :
      ∀ transaction,
        event = .populated transaction →
        transaction.nonce = world.transactionCount)
    (sent : ∀ populated, event = .sent populated → populated.IsIn world.log) :
    Coherent transactionCount after where
  count := by
    have split :
        acceptedNonces (world.log ++ [event]) =
          acceptedNonces world.log ++ acceptedNonces [event] :=
      List.filterMap_append
    rw [count, logged, split, Counter.countAfter_append, ← coherent.count]
  populated := by
    intro other isIn
    unfold PopulatedTransaction.IsIn at isIn
    rw [logged] at isIn
    rw [logged]
    by_cases inside : other.moment < world.log.length
    · rw [List.getElem?_append_left inside] at isIn
      have sameTake :
          (world.log ++ [event]).take other.moment =
            world.log.take other.moment :=
        List.take_append_of_le_length (Nat.le_of_lt inside)
      rw [sameTake]
      exact coherent.populated other isIn
    · have isLast : other.moment = world.log.length := by
        obtain ⟨bound, _⟩ := List.getElem?_eq_some_iff.mp isIn
        simp only [List.length_append, List.length_singleton] at bound
        omega
      rw [isLast, List.getElem?_concat_length] at isIn
      rw [isLast, List.take_left' rfl, ← coherent.count]
      exact populated other.transaction (Option.some.inj isIn)
  sent := by
    intro other member
    have grows : world.log <+: after.log := by
      rw [logged]
      exact List.prefix_append _ _
    rw [logged, List.mem_append, List.mem_singleton] at member
    rcases member with earlier | isLast
    · exact (coherent.sent other earlier).of_grows grows
    · exact (sent other isLast.symm).of_grows grows

/--
Two transactions of a coherent log share a nonce exactly when none with that
nonce was accepted between their `populateTransaction` calls.
-/
theorem nonce_eq_iff
    (coherent : Coherent transactionCount world)
    {first second : PopulatedTransaction}
    (firstIn : first.IsIn world.log)
    (secondIn : second.IsIn world.log)
    (ordered : first.moment ≤ second.moment) :
    first.transaction.nonce = second.transaction.nonce ↔
      ¬ AcceptedBetween world.log first.moment second.moment
          first.transaction.nonce := by
  have split :
      world.log.take second.moment =
        world.log.take first.moment ++
          (world.log.take second.moment).drop first.moment := by
    have shorter :
        (world.log.take second.moment).take first.moment =
          world.log.take first.moment := by
      rw [List.take_take, Nat.min_eq_left ordered]
    rw [← shorter]
    exact (List.take_append_drop _ _).symm
  have continued :
      second.transaction.nonce =
        Counter.countAfter first.transaction.nonce
          (acceptedNonces ((world.log.take second.moment).drop first.moment)) := by
    rw [coherent.populated second secondIn, coherent.populated first firstIn,
      ← Counter.countAfter_append]
    have appended :
        acceptedNonces (world.log.take second.moment) =
          acceptedNonces (world.log.take first.moment) ++
            acceptedNonces ((world.log.take second.moment).drop first.moment) := by
      unfold acceptedNonces
      rw [← List.filterMap_append, ← split]
    rw [appended]
  rw [continued]
  constructor
  · intro shared accepted
    have unused := (Counter.countAfter_eq_self_iff _ _).mp shared.symm
    exact unused (mem_acceptedNonces.mpr accepted)
  · intro notAccepted
    have unused :
        first.transaction.nonce ∉
          acceptedNonces ((world.log.take second.moment).drop first.moment) :=
      fun used => notAccepted (mem_acceptedNonces.mp used)
    exact ((Counter.countAfter_eq_self_iff _ _).mpr unused).symm

end Coherent

/-! ## Who has written what -/

/-- The daemon's two tasks that send. -/
inductive Sender where
  | processBadPerformers
  | processNextRoot
  deriving Repr, DecidableEq

/-- The state of the service, and the task that has written each entry of its log. -/
structure Shared where
  world : ExecutionWorld
  writer : Nat → Sender

namespace Shared

/-- A process that has just started; nobody has written anything. -/
def starting (transactionCount : Nat) : Shared where
  world := .starting transactionCount
  writer := fun _ => .processNextRoot

/-- The state as a task leaves it; what the log has more is of its writing. -/
def write (sender : Sender) (after : ExecutionWorld) (shared : Shared) : Shared where
  world := after
  writer place :=
    if place < shared.world.log.length then shared.writer place else sender

@[simp] theorem write_world
    (sender : Sender)
    (after : ExecutionWorld)
    (shared : Shared) :
    (shared.write sender after).world = after :=
  rfl

/-- What was written keeps its writer. -/
theorem writer_write_of_lt
    {sender : Sender}
    {after : ExecutionWorld}
    {shared : Shared}
    {place : Nat}
    (inside : place < shared.world.log.length) :
    (shared.write sender after).writer place = shared.writer place :=
  if_pos inside

/-- What is written is the task's. -/
theorem writer_write_of_le
    {sender : Sender}
    {after : ExecutionWorld}
    {shared : Shared}
    {place : Nat}
    (added : shared.world.log.length ≤ place) :
    (shared.write sender after).writer place = sender :=
  if_neg (Nat.not_lt.mpr added)

end Shared

/-- A computation of one of the tasks. -/
def asSender {α : Type} (sender : Sender) (program : Async ExecutionWorld α) :
    Async Shared α :=
  program.zoom Shared.world (Shared.write sender)

/-- Up to a place of the log the transaction is the last one that the task has populated. -/
structure LatestOf (shared : Shared) (sender : Sender) (populated : PopulatedTransaction)
    (place : Nat) : Prop where
  before : populated.moment < place
  writer : shared.writer populated.moment = sender
  latest :
    ∀ between transaction,
      populated.moment < between → between < place →
      shared.world.log[between]? = some (.populated transaction) →
      shared.writer between ≠ sender

/-- A coherent log in which a task passes on and has accepted only its latest transaction. -/
structure Accurate (transactionCount : Nat) (shared : Shared) : Prop where
  coherent : Coherent transactionCount shared.world
  passed :
    ∀ place event populated,
      shared.world.log[place]? = some event →
      event.passed? = some populated →
      LatestOf shared (shared.writer place) populated place

theorem Accurate.starting
    (transactionCount : Nat) :
    Accurate transactionCount (.starting transactionCount) where
  coherent := Coherent.starting transactionCount
  passed := by
    intro place event populated found
    cases found

/-! ## What every step does -/

/-- A step writes to the end of the log in the names of some tasks, and keeps the invariant. -/
structure Advances (transactionCount : Nat) (writers : Sender → Prop)
    (before after : Shared) : Prop where
  grows : before.world.log <+: after.world.log
  kept : ∀ place < before.world.log.length, after.writer place = before.writer place
  wrote :
    ∀ place,
      before.world.log.length ≤ place → place < after.world.log.length →
      writers (after.writer place)
  keeps : Accurate transactionCount before → Accurate transactionCount after

namespace Advances

variable {transactionCount : Nat} {writers : Sender → Prop} {before after : Shared}

theorem refl
    (shared : Shared) :
    Advances transactionCount writers shared shared where
  grows := List.prefix_rfl
  kept := fun _ _ => rfl
  wrote := fun _ above below => absurd below (Nat.not_lt.mpr above)
  keeps := id

theorem trans
    {first middle last : Shared}
    (firstStep : Advances transactionCount writers first middle)
    (secondStep : Advances transactionCount writers middle last) :
    Advances transactionCount writers first last where
  grows := firstStep.grows.trans secondStep.grows
  kept := by
    intro place inside
    have insideMiddle := inside.trans_le firstStep.grows.length_le
    exact (secondStep.kept place insideMiddle).trans (firstStep.kept place inside)
  wrote := by
    intro place above below
    rcases Nat.lt_or_ge place middle.world.log.length with inMiddle | afterMiddle
    · rw [secondStep.kept place inMiddle]
      exact firstStep.wrote place above inMiddle
    · exact secondStep.wrote place afterMiddle below
  keeps := fun sound => secondStep.keeps (firstStep.keeps sound)

/-- Fewer tasks write than may. -/
theorem mono
    {wider : Sender → Prop}
    (advances : Advances transactionCount writers before after)
    (widens : ∀ sender, writers sender → wider sender) :
    Advances transactionCount wider before after where
  grows := advances.grows
  kept := advances.kept
  wrote := fun place above below => widens _ (advances.wrote place above below)
  keeps := advances.keeps

/-- An entry of the log stays where it is. -/
theorem getElem?_eq
    (grows : before.world.log <+: after.world.log)
    {place : Nat}
    (inside : place < before.world.log.length) :
    after.world.log[place]? = before.world.log[place]? := by
  obtain ⟨rest, appended⟩ := grows
  rw [← appended]
  exact List.getElem?_append_left inside

end Advances

namespace LatestOf

variable {transactionCount : Nat} {writers : Sender → Prop} {before after : Shared}
variable {sender : Sender} {populated : PopulatedTransaction} {place : Nat}

/-- What is said about the log up to a place stays true. -/
theorem of_grows
    (latest : LatestOf before sender populated place)
    (atMost : place ≤ before.world.log.length)
    (grows : before.world.log <+: after.world.log)
    (kept : ∀ other < before.world.log.length, after.writer other = before.writer other) :
    LatestOf after sender populated place where
  before := latest.before
  writer := (kept _ (latest.before.trans_le atMost)).trans latest.writer
  latest := by
    intro between transaction above below found
    have inside := below.trans_le atMost
    rw [Advances.getElem?_eq grows inside] at found
    rw [kept between inside]
    exact latest.latest between transaction above below found

/-- What the other tasks write leaves a transaction the latest of its task. -/
theorem moved
    (latest : LatestOf before sender populated before.world.log.length)
    (advances : Advances transactionCount writers before after)
    (others : ¬ writers sender) :
    LatestOf after sender populated after.world.log.length where
  before := latest.before.trans_le advances.grows.length_le
  writer := (advances.kept _ latest.before).trans latest.writer
  latest := by
    intro between transaction above below found
    rcases Nat.lt_or_ge between before.world.log.length with inside | added
    · rw [Advances.getElem?_eq advances.grows inside] at found
      rw [advances.kept between inside]
      exact latest.latest between transaction above inside found
    · rintro rfl
      exact others (advances.wrote between added below)

end LatestOf

/-! ### The steps of a task -/

/-- A step that writes nothing to the log and sends nothing. -/
structure Quiet (before after : ExecutionWorld) : Prop where
  transactionCount : after.transactionCount = before.transactionCount
  log : after.log = before.log

namespace Advances

variable {transactionCount : Nat} {writers : Sender → Prop} {sender : Sender}
variable {shared : Shared} {after : ExecutionWorld}

/-- The fee history and the notes about attempts are of no account here. -/
theorem of_quiet
    (quiet : Quiet shared.world after) :
    Advances transactionCount writers shared (shared.write sender after) := by
  have grows : shared.world.log <+: (shared.write sender after).world.log :=
    ⟨[], by rw [List.append_nil, Shared.write_world, quiet.log]⟩
  have kept :
      ∀ place < shared.world.log.length,
        (shared.write sender after).writer place = shared.writer place := by
    exact fun place inside => Shared.writer_write_of_lt inside
  refine ⟨grows, kept, fun place above below => ?_, fun sound => ⟨?_, ?_⟩⟩
  · rw [Shared.write_world, quiet.log] at below
    omega
  · constructor
    · rw [Shared.write_world, quiet.transactionCount, quiet.log]
      exact sound.coherent.count
    · rw [Shared.write_world, quiet.log]
      exact sound.coherent.populated
    · rw [Shared.write_world, quiet.log]
      exact sound.coherent.sent
  · intro place event populated found isPassed
    rw [Shared.write_world, quiet.log] at found
    have inside := (List.getElem?_eq_some_iff.mp found).1
    rw [kept place inside]
    exact (sound.passed place event populated found isPassed).of_grows inside.le grows kept

/-- A task writes one event, which tells the truth. -/
theorem append
    {event : TransactionEvent}
    (logged : after.log = shared.world.log ++ [event])
    (count :
      after.transactionCount =
        Counter.countAfter shared.world.transactionCount (acceptedNonces [event]))
    (populated :
      ∀ transaction,
        event = .populated transaction →
        transaction.nonce = shared.world.transactionCount)
    (sent : ∀ populated, event = .sent populated → populated.IsIn shared.world.log)
    (passed :
      ∀ populated,
        event.passed? = some populated →
        LatestOf shared sender populated shared.world.log.length) :
    Advances transactionCount (· = sender) shared (shared.write sender after) := by
  have grows : shared.world.log <+: (shared.write sender after).world.log := by
    rw [Shared.write_world, logged]
    exact List.prefix_append _ _
  have kept :
      ∀ place < shared.world.log.length,
        (shared.write sender after).writer place = shared.writer place := by
    exact fun place inside => Shared.writer_write_of_lt inside
  have wrote :
      ∀ place,
        shared.world.log.length ≤ place →
        (shared.write sender after).writer place = sender := by
    exact fun place added => Shared.writer_write_of_le added
  refine ⟨grows, kept, fun place above _ => wrote place above, fun sound => ?_⟩
  refine ⟨sound.coherent.append logged count populated sent, ?_⟩
  intro place other transaction found isPassed
  rcases Nat.lt_or_ge place shared.world.log.length with inside | added
  · rw [Advances.getElem?_eq grows inside] at found
    rw [kept place inside]
    exact (sound.passed place other transaction found isPassed).of_grows inside.le grows kept
  · rw [Shared.write_world, logged] at found
    have isLast : place = shared.world.log.length := by
      obtain ⟨bound, _⟩ := List.getElem?_eq_some_iff.mp found
      simp only [List.length_append, List.length_singleton] at bound
      omega
    subst isLast
    rw [List.getElem?_concat_length] at found
    obtain rfl := Option.some.inj found
    rw [wrote _ le_rfl]
    exact (passed transaction isPassed).of_grows le_rfl grows kept

end Advances

/-- The task holds a transaction: it is in the log, and the latest that the task has populated. -/
structure Holds (sender : Sender) (populated : PopulatedTransaction) (shared : Shared) :
    Prop where
  isIn : populated.IsIn shared.world.log
  latest : LatestOf shared sender populated shared.world.log.length

namespace Holds

variable {transactionCount : Nat} {sender : Sender} {populated : PopulatedTransaction}
variable {shared : Shared} {after : ExecutionWorld}

/-- A transaction is held while other tasks write. -/
theorem moved
    (holds : Holds sender populated shared)
    {later : Shared}
    (advances : Advances transactionCount (· ≠ sender) shared later) :
    Holds sender populated later where
  isIn := holds.isIn.of_grows advances.grows
  latest := holds.latest.moved advances fun differs => differs rfl

/-- A transaction is held until the task populates another one. -/
theorem write
    (holds : Holds sender populated shared)
    {event : TransactionEvent}
    (logged : after.log = shared.world.log ++ [event])
    (isPassed : event.passed? ≠ none) :
    Holds sender populated (shared.write sender after) where
  isIn := by
    rw [Shared.write_world, logged]
    exact holds.isIn.of_grows (List.prefix_append _ _)
  latest := by
    have within := holds.latest.before
    refine ⟨?_, ?_, ?_⟩
    · rw [Shared.write_world, logged, List.length_append]
      omega
    · rw [Shared.writer_write_of_lt within]
      exact holds.latest.writer
    · intro between transaction above _ found
      rw [Shared.write_world, logged] at found
      rcases Nat.lt_or_ge between shared.world.log.length with inside | added
      · rw [List.getElem?_append_left inside] at found
        rw [Shared.writer_write_of_lt inside]
        exact holds.latest.latest between transaction above inside found
      · obtain ⟨bound, _⟩ := List.getElem?_eq_some_iff.mp found
        obtain rfl : between = shared.world.log.length := by
          simp only [List.length_append, List.length_singleton] at bound
          omega
        rw [List.getElem?_concat_length] at found
        rw [Option.some.inj found] at isPassed
        exact (isPassed rfl).elim

end Holds

/-! ## The tasks -/

namespace Execution

open Async

variable {transactionCount : Nat}
variable (config : ExecutionConfig) (answers : ExecutionAnswers)

theorem read_guarantees :
    (read : Async ExecutionWorld ExecutionWorld).Guarantees Quiet :=
  guarantees_read fun _ => ⟨rfl, rfl⟩

theorem noteAttempt_guarantees
    (note : Attempt → Attempt) :
    (modify (ExecutionWorld.noteAttempt note)).Guarantees Quiet := by
  have contained :
      ∀ current, Quiet current (current.noteAttempt note) :=
    fun current => ⟨rfl, rfl⟩
  exact (guarantees_modify _).mpr contained

theorem fetchGasFees_guarantees
    (fuel totalBlockCountToFetch latestBlockToRequest : Nat)
    (newGasFees : List Nat) :
    (fetchGasFees config answers fuel totalBlockCountToFetch latestBlockToRequest
      newGasFees).Guarantees Quiet := by
  induction fuel generalizing totalBlockCountToFetch latestBlockToRequest newGasFees with
  | zero =>
      trivial
  | succ fuel inductionHypothesis =>
      unfold fetchGasFees
      split
      · trivial
      · apply guarantees_bind (guarantees_request _)
        intro stats
        exact inductionHypothesis _ _ _

theorem updateGasFeeHistoryCache_guarantees :
    (updateGasFeeHistoryCache config answers).Guarantees Quiet := by
  apply guarantees_bind (guarantees_request _)
  intro latestBlockNumber
  apply guarantees_bind read_guarantees
  intro world
  change Guarantees _ (ite _ _ _)
  split
  · trivial
  · apply guarantees_bind (fetchGasFees_guarantees config answers _ _ _ _)
    intro newGasFees
    have contained :
        ∀ current, Quiet current (cacheGasFees newGasFees latestBlockNumber current) :=
      fun current => ⟨rfl, rfl⟩
    exact (guarantees_modify _).mpr contained

theorem calcFeePerGas_guarantees :
    (calcFeePerGas config answers).Guarantees Quiet := by
  apply guarantees_bind (guarantees_request _)
  intro currentFee
  apply guarantees_bind
    (guarantees_call (updateGasFeeHistoryCache_guarantees config answers))
  intro _
  have contained :
      ∀ current, Quiet current (sortGasFees current) :=
    fun current => ⟨rfl, rfl⟩
  apply guarantees_bind ((guarantees_modify _).mpr contained)
  intro _
  apply guarantees_bind read_guarantees
  intro world
  apply guarantees_bind (noteAttempt_guarantees _)
  intro _
  split <;> trivial

theorem isFeePerGasAcceptable_guarantees :
    (isFeePerGasAcceptable config answers).Guarantees Quiet := by
  apply guarantees_bind (guarantees_call (calcFeePerGas_guarantees config answers))
  rintro ⟨recommended, current⟩
  apply guarantees_bind (noteAttempt_guarantees _)
  intro _
  split
  · trivial
  · split <;> trivial

theorem calcPriorityFee_guarantees :
    (calcPriorityFee config answers).Guarantees Quiet := by
  apply guarantees_bind (guarantees_request _)
  intro baseFeePerGas
  apply guarantees_bind (guarantees_request _)
  intro reward
  trivial

theorem emulate_guarantees
    (request : TransactionRequest)
    (fees : PriorityFeeParams) :
    (emulate config answers request fees).Guarantees Quiet := by
  apply guarantees_bind guarantees_settle
  intro _
  apply guarantees_bind (noteAttempt_guarantees _)
  intro _
  apply guarantees_bind (guarantees_request _)
  intro estimatedGas
  apply guarantees_bind (noteAttempt_guarantees _)
  intro _
  change Guarantees _ (ite _ _ _)
  split
  · exact guarantees_raise _
  · trivial

theorem confirmSending_guarantees
    (isFeePerGasAcceptable : Bool) :
    (confirmSending config answers isFeePerGasAcceptable).Guarantees Quiet := by
  unfold confirmSending
  split
  · exact guarantees_raise _
  · split
    · apply guarantees_bind (guarantees_request _)
      intro sendingConfirmed
      apply guarantees_bind (noteAttempt_guarantees _)
      intro _
      split
      · trivial
      · exact guarantees_raise _
    · split
      · trivial
      · exact guarantees_raise _

section Tasks

variable (sender : Sender)

/-- What the task may do to the shared state, and what it puts up with. -/
abbrev TaskKeeps {α : Type} (transactionCount : Nat) (sender : Sender)
    (post : α → Shared → Prop) (program : Async ExecutionWorld α) (shared : Shared) : Prop :=
  (asSender sender program).Keeps (Advances transactionCount (· ≠ sender))
    (Advances transactionCount (· = sender)) post shared

/-- What a task needs nothing for, it does without losing what it holds. -/
theorem keeps_around
    {α : Type}
    {program : Async ExecutionWorld α}
    (guarantees : program.Guarantees Quiet)
    (shared : Shared) :
    TaskKeeps transactionCount sender
      (fun _ final => Advances transactionCount (· ≠ sender) shared final) program shared := by
  have own :
      (asSender sender program).Guarantees fun before after =>
        ∃ world, Quiet before.world world ∧ after = before.write sender world :=
    guarantees_zoom (fun state moved quiet => ⟨moved, quiet, rfl⟩) guarantees
  refine keeps_of_guarantees Advances.refl Advances.trans id ?_ own shared
  rintro state _ ⟨world, quiet, rfl⟩
  exact ⟨Advances.of_quiet quiet, Advances.of_quiet quiet⟩

/-- A populated transaction is held from its call on. -/
theorem populateTransaction_keeps
    (prepared : PreparedTransaction)
    (shared : Shared) :
    TaskKeeps transactionCount sender (Holds sender) (populateTransaction prepared) shared := by
  let transaction : Transaction :=
    { toPreparedTransaction := prepared, nonce := shared.world.transactionCount }
  let looked := shared.write sender shared.world
  let recorded := looked.write sender (shared.world.record (.populated transaction))
  have looks : Advances transactionCount (· = sender) shared looked :=
    Advances.of_quiet ⟨rfl, rfl⟩
  have populates : Advances transactionCount (· = sender) looked recorded := by
    apply Advances.append rfl rfl
    · rintro _ ⟨⟩
      rfl
    · intro populated isSent
      cases isSent
    · intro populated isPassed
      cases isPassed
  have holds : Holds sender ⟨shared.world.log.length, transaction⟩ recorded := by
    have length : recorded.world.log.length = shared.world.log.length + 1 :=
      List.length_append
    refine ⟨List.getElem?_concat_length, ?_, Shared.writer_write_of_le le_rfl, ?_⟩
    · rw [length]
      exact Nat.lt_succ_self _
    · intro between _ above below
      rw [length] at below
      exact absurd (Nat.lt_succ_iff.mp below) (Nat.not_le.mpr above)
  refine ⟨looks, populates, fun moved moves settles => ?_⟩
  cases settles with
  | resolved => exact holds.moved moves
  | rejected => trivial

/-- A task that holds a transaction passes it on and has it accepted. -/
theorem sendTransaction_keeps
    {populated : PopulatedTransaction}
    {shared : Shared}
    (holds : Holds sender populated shared) :
    TaskKeeps transactionCount sender (fun _ _ => True) (sendTransaction populated) shared := by
  unfold TaskKeeps asSender sendTransaction
  simp only [zoom_bind, zoom_modify, zoom_settle, keeps_bind, keeps_modify, keeps_settle]
  refine ⟨Advances.append rfl rfl ?_ ?_ ?_, fun moved moves => ?_⟩
  · rintro _ ⟨⟩
  · rintro _ ⟨⟩
    exact holds.isIn
  · rintro _ ⟨⟩
    exact holds.latest
  · have logged
        (note : Attempt → Attempt) :
        ((shared.world.record (.sent populated)).noteAttempt note).log =
          shared.world.log ++ [.sent populated] :=
      rfl
    have sent := (holds.write (logged _) (Option.some_ne_none populated)).moved moves
    refine ⟨Advances.append rfl rfl ?_ ?_ ?_, fun _ _ => trivial⟩
    · rintro _ ⟨⟩
    · rintro _ ⟨⟩
    · rintro _ ⟨⟩
      exact sent.latest

theorem broadcast_keeps
    {populated : PopulatedTransaction}
    {shared : Shared}
    (holds : Holds sender populated shared) :
    TaskKeeps transactionCount sender (fun _ _ => True) (broadcast answers populated)
      shared := by
  unfold TaskKeeps asSender broadcast
  simp only [zoom_bind, zoom_settle, keeps_bind, keeps_settle]
  intro signed moves
  apply (sendTransaction_keeps sender (holds.moved moves)).mono
  intro _ final _ mined _
  rw [zoom_modify, keeps_modify]
  refine ⟨Advances.of_quiet ⟨rfl, rfl⟩, ?_⟩
  split
  · trivial
  · exact keeps_raise _ _ _

theorem _execute_keeps
    (shared : Shared) :
    TaskKeeps transactionCount sender (fun _ _ => True) (_execute config answers) shared := by
  unfold TaskKeeps asSender _execute
  rw [zoom_bind, keeps_bind, zoom_modify, keeps_modify]
  refine ⟨Advances.of_quiet ⟨rfl, rfl⟩, ?_⟩
  rw [zoom_bind, keeps_bind]
  apply (keeps_around sender
    (guarantees_call (calcPriorityFee_guarantees config answers)) _).mono
  intro fees afterFees _
  rw [zoom_bind, keeps_bind]
  apply (keeps_around sender (guarantees_request _) afterFees).mono
  intro txBase afterCallback _
  rw [zoom_bind, keeps_bind]
  apply (keeps_around sender (emulate_guarantees config answers txBase fees) afterCallback).mono
  intro tx afterEmulation _
  split
  · exact keeps_raise _ _ _
  · rw [zoom_bind, keeps_bind]
    apply (populateTransaction_keeps sender tx afterEmulation).mono
    intro populatedTx afterPopulate holds
    rw [zoom_bind, keeps_bind]
    apply (keeps_around sender
      (guarantees_call (isFeePerGasAcceptable_guarantees config answers))
      afterPopulate).mono
    intro acceptable afterCheck checked
    rw [zoom_bind, keeps_bind]
    apply (keeps_around sender
      (confirmSending_guarantees config answers acceptable) afterCheck).mono
    intro _ confirmed confirming
    exact broadcast_keeps answers sender ((holds.moved checked).moved confirming)

theorem concludeAttempt_keeps
    {onHighGasFee : Async ExecutionWorld Unit}
    (keeps :
      ∀ shared, TaskKeeps transactionCount sender (fun _ _ => True) onHighGasFee shared)
    (outcome : Except Abort Unit)
    (shared : Shared) :
    TaskKeeps transactionCount sender (fun _ _ => True)
      (concludeAttempt onHighGasFee outcome) shared := by
  unfold TaskKeeps asSender
  cases outcome with
  | ok value =>
      trivial
  | error reason =>
      change Async.Keeps _ _ _ (zoom _ _ (ite _ _ (ite _ _ _))) shared
      split
      · trivial
      · split
        · exact keeps shared
        · trivial

/-- An attempt of a call, its error caught. -/
theorem attempt_keeps
    {onHighGasFee : Async ExecutionWorld Unit}
    (keeps :
      ∀ shared, TaskKeeps transactionCount sender (fun _ _ => True) onHighGasFee shared)
    (shared : Shared) :
    TaskKeeps transactionCount sender (fun _ _ => True)
      (callCatching (_execute config answers) >>= concludeAttempt onHighGasFee) shared := by
  unfold TaskKeeps asSender
  rw [zoom_bind, keeps_bind, zoom_callCatching]
  apply (keeps_callCatching (_execute_keeps config answers sender shared)).mono
  intro outcome after _
  exact concludeAttempt_keeps sender keeps outcome after

theorem executeDaemon_keeps
    (executeCall : ExecuteCall)
    (highGasAttempts left : Nat)
    (shared : Shared) :
    TaskKeeps transactionCount sender (fun _ _ => True)
      (executeDaemon config executeCall highGasAttempts left) shared := by
  induction left generalizing highGasAttempts shared with
  | zero =>
      exact attempt_keeps config _ sender (fun _ => keeps_raise _ _ _) shared
  | succ left inductionHypothesis =>
      refine attempt_keeps config _ sender (fun waiting => ?_) shared
      unfold TaskKeeps asSender
      rw [zoom_bind, keeps_bind, zoom_tick, keeps_tick]
      intro moved _
      exact inductionHypothesis (highGasAttempts + 1) moved

theorem execute_keeps
    (executeCall : ExecuteCall)
    (shared : Shared) :
    TaskKeeps transactionCount sender (fun _ _ => True) (execute config executeCall)
      shared := by
  unfold TaskKeeps asSender execute
  split
  · rw [zoom_call, keeps_call]
    apply (attempt_keeps config (executeCall 0) sender
      (fun _ => keeps_raise _ _ _) shared).mono
    intros
    trivial
  · rw [zoom_call, keeps_call]
    apply (executeDaemon_keeps config sender executeCall _ _ shared).mono
    intros
    trivial

theorem sendingTask_keeps
    (calls : List ExecuteCall)
    (shared : Shared) :
    TaskKeeps transactionCount sender (fun _ _ => True) (sendingTask config calls)
      shared := by
  unfold TaskKeeps asSender sendingTask
  rw [zoom_forEach]
  apply keeps_forEach
  intro executeCall _ before
  rw [zoom_bind, keeps_bind, zoom_callCatching]
  apply (keeps_callCatching (execute_keeps config sender executeCall before)).mono
  intros
  trivial

end Tasks

/-! ## Runs of the daemon -/

/-- The daemon's two sending tasks, `processBadPerformers` and `processNextRoot`. -/
def daemonTasks (badPerformers nextRoot : List ExecuteCall) : List (Async Shared Unit) :=
  [asSender .processBadPerformers (sendingTask config badPerformers),
    asSender .processNextRoot (sendingTask config nextRoot)]

/-- The two tasks driven through an interleaving. -/
def daemonRun (transactionCount : Nat) (badPerformers nextRoot : List ExecuteCall)
    (schedule : List (Nat × Settle)) : Shared :=
  let started :=
    Pool.start (daemonTasks config badPerformers nextRoot) (.starting transactionCount)
  (started.run schedule).shared

/-- The task at a place of the pool. -/
def senderAt (index : Nat) : Sender :=
  if index = 0 then .processBadPerformers else .processNextRoot

/-- What one of the two tasks does the other one puts up with. -/
theorem daemonTasks_compose
    (transactionCount : Nat)
    (badPerformers nextRoot : List ExecuteCall) :
    Pool.Composes (daemonTasks config badPerformers nextRoot).length
      (fun index => Advances transactionCount (· ≠ senderAt index))
      (fun index => Advances transactionCount (· = senderAt index)) where
  relyRefl := fun _ => Advances.refl
  relyTrans := Advances.trans
  refl := fun _ => Advances.refl
  trans := Advances.trans
  others := by
    intro index other before after inside otherInside differ advances
    change index < 2 at inside
    change other < 2 at otherInside
    refine advances.mono fun sender isOther same => ?_
    rw [isOther] at same
    simp only [senderAt] at same
    split at same <;> split at same <;> first | omega | cases same

/-- Each of the two tasks keeps to its guarantee. -/
theorem daemonTasks_keep
    (transactionCount : Nat)
    (badPerformers nextRoot : List ExecuteCall) :
    Pool.StartsKeeping (fun index => Advances transactionCount (· ≠ senderAt index))
      (fun index => Advances transactionCount (· = senderAt index))
      (daemonTasks config badPerformers nextRoot) := by
  intro index program isTask shared
  match index with
  | 0 =>
      obtain rfl := Option.some.inj isTask
      exact sendingTask_keeps config .processBadPerformers badPerformers shared
  | 1 =>
      obtain rfl := Option.some.inj isTask
      exact sendingTask_keeps config .processNextRoot nextRoot shared
  | _ + 2 => cases isTask

/-- Every interleaving leaves a sound log. -/
theorem daemonRun_sound
    (transactionCount : Nat)
    (badPerformers nextRoot : List ExecuteCall)
    (schedule : List (Nat × Settle)) :
    Accurate transactionCount
      (daemonRun config transactionCount badPerformers nextRoot schedule) := by
  have composes := daemonTasks_compose config transactionCount badPerformers nextRoot
  have keeps := daemonTasks_keep config transactionCount badPerformers nextRoot
  have moved :
      Advances transactionCount (fun _ => True) (.starting transactionCount)
        (daemonRun config transactionCount badPerformers nextRoot schedule) := by
    refine Pool.run_start_moves Advances.refl Advances.trans ?widens composes keeps
      (.starting transactionCount) schedule
    case widens =>
      exact fun advances => advances.mono fun _ _ => trivial
  exact moved.keeps (Accurate.starting transactionCount)

/-- A task populates a transaction only after it has passed on and had accepted the last one. -/
theorem passed_before_next
    {transactionCount : Nat}
    {shared : Shared}
    (sound : Accurate transactionCount shared)
    {first second : PopulatedTransaction}
    (secondIn : second.IsIn shared.world.log)
    (ordered : first.moment < second.moment)
    (sameTask : shared.writer first.moment = shared.writer second.moment)
    {place : Nat}
    {event : TransactionEvent}
    (found : shared.world.log[place]? = some event)
    (isPassed : event.passed? = some first) :
    place < second.moment := by
  have latest := sound.passed place event first found isPassed
  by_contra notBefore
  rcases (Nat.not_lt.mp notBefore).lt_or_eq with above | isSame
  · exact latest.latest second.moment second.transaction ordered above secondIn
      (sameTask.symm.trans latest.writer)
  · rw [← isSame, secondIn] at found
    rw [← Option.some.inj found] at isPassed
    cases isPassed

/--
Whatever the interleaving, two transactions passed to the provider carry the same nonce
exactly when no transaction with that nonce was accepted between their
`populateTransaction` calls.  Within one task all that is sent and accepted of the first
comes before the second is populated.  So when they share a nonce and the first was
accepted, the other task had populated the second before that.
-/
theorem sent_nonce_eq_iff
    (transactionCount : Nat)
    (badPerformers nextRoot : List ExecuteCall)
    (schedule : List (Nat × Settle))
    (first second : PopulatedTransaction)
    (firstSent :
      .sent first ∈
        (daemonRun config transactionCount badPerformers nextRoot schedule).world.log)
    (secondSent :
      .sent second ∈
        (daemonRun config transactionCount badPerformers nextRoot schedule).world.log)
    (ordered : first.moment ≤ second.moment) :
    let shared := daemonRun config transactionCount badPerformers nextRoot schedule
    (first.transaction.nonce = second.transaction.nonce ↔
      ¬ AcceptedBetween shared.world.log first.moment second.moment
          first.transaction.nonce) ∧
    (first.moment < second.moment →
      (shared.writer first.moment = shared.writer second.moment →
        ∀ place event,
          shared.world.log[place]? = some event →
          event.passed? = some first →
          place < second.moment) ∧
      (first.transaction.nonce = second.transaction.nonce →
        ∀ place,
          shared.world.log[place]? = some (.accepted first) →
          second.moment < place ∧
            shared.writer first.moment ≠ shared.writer second.moment)) := by
  intro shared
  have sound : Accurate transactionCount shared :=
    daemonRun_sound config transactionCount badPerformers nextRoot schedule
  have secondIn := sound.coherent.sent second secondSent
  have shares :=
    sound.coherent.nonce_eq_iff (sound.coherent.sent first firstSent) secondIn ordered
  refine ⟨shares, fun earlier => ⟨?_, fun sameNonce place accepted => ?_⟩⟩
  · intro sameTask place event found isPassed
    exact passed_before_next sound secondIn earlier sameTask found isPassed
  · have notBefore : ¬ place < second.moment := by
      intro below
      have above := (sound.passed place _ first accepted rfl).before
      exact shares.mp sameNonce (acceptedBetween_of_place accepted above.le below)
    refine ⟨?_, fun sameTask => ?_⟩
    · refine lt_of_le_of_ne (Nat.not_lt.mp notBefore) ?_
      rintro isSame
      rw [← isSame, secondIn] at accepted
      cases accepted
    · exact notBefore (passed_before_next sound secondIn earlier sameTask accepted rfl)

/-! ## Two tasks at once -/

section Sample

def sampleConfig : ExecutionConfig :=
  .defaults (.defaults "module" 1)

/-- A call whose requests are answered, at low fees. -/
def sampleCall (data : String) : ExecuteCall := fun _ => {
  pendingBaseFee := 10
  reward := [[3]]
  request := { toAddress := 5, data := data }
  estimatedGas := 100
  currentBaseFee := some 10
  latestBlockNumber := 300
  baseFeeHistory := fun _ _ => [10, 11]
  sendingConfirmed := true
  hash := "hash"
  receiptStatus := 1
}

/-- A strikes report and a slashing proof on an account that has sent seven transactions. -/
def sampleRun (schedule : List (Nat × Settle)) : Shared :=
  daemonRun sampleConfig 7 [sampleCall "strikes"] [sampleCall "slashing"] schedule

def moves (index count : Nat) : List (Nat × Settle) :=
  List.replicate count (index, .resolved)

/-- Both tasks populate their transaction before either of them sends. -/
def overlapping : List (Nat × Settle) :=
  moves 0 6 ++ moves 1 6 ++ moves 0 9 ++ moves 1 7

/-- The report is accepted before the proof is populated. -/
def sequential : List (Nat × Settle) :=
  moves 0 15 ++ moves 1 13

def sampleSent (moment : Nat) (data : String) (nonce : Nat) :
    PopulatedTransaction where
  moment := moment
  transaction := {
    request := { toAddress := 5, data := data }
    fees := { maxFeePerGas := 50000020, maxPriorityFeePerGas := 50000000 }
    gasLimit := 120
    nonce := nonce
  }

/-- The tasks pass two different transactions with one nonce to the provider. -/
theorem overlapping_sends_share_nonce :
    ¬ NoncesDistinct (sampleRun overlapping).world.log := by
  intro distinct
  have reportSent :
      .sent (sampleSent 0 "strikes" 7) ∈ (sampleRun overlapping).world.log := by
    decide
  have proofSent :
      .sent (sampleSent 1 "slashing" 7) ∈ (sampleRun overlapping).world.log := by
    decide
  exact distinct _ _ reportSent proofSent (by decide) rfl

/--
In the sequential run the nonces differ because the report was accepted in between; in
the overlapping one the acceptance of the report comes after the proof is populated.
-/
theorem sent_nonce_eq_iff_sample :
    ((sampleSent 0 "strikes" 7).transaction.nonce =
          (sampleSent 3 "slashing" 8).transaction.nonce ↔
        ¬ AcceptedBetween (sampleRun sequential).world.log 0 3
            (sampleSent 0 "strikes" 7).transaction.nonce) ∧
      (1 < 3 ∧
        (sampleRun overlapping).writer 0 ≠ (sampleRun overlapping).writer 1) := by
  constructor
  · exact (sent_nonce_eq_iff sampleConfig 7 [sampleCall "strikes"] [sampleCall "slashing"]
      sequential (sampleSent 0 "strikes" 7) (sampleSent 3 "slashing" 8)
      (by decide) (by decide) (by decide)).1
  · exact ((sent_nonce_eq_iff sampleConfig 7 [sampleCall "strikes"] [sampleCall "slashing"]
      overlapping (sampleSent 0 "strikes" 7) (sampleSent 1 "slashing" 7)
      (by decide) (by decide) (by decide)).2 (by decide)).2 rfl 3 (by decide)

end Sample

end Execution

end CsmProver
