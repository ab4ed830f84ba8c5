import CsmProver.Execution

namespace CsmProver

/-!
# At most one broadcast

One call of `execute` runs attempts until one of them ends otherwise than with a
high fee.  An attempt passes its transaction to the provider as its last step but
one, and every error it can end with after that is neither quiet nor retried.
-/

namespace Execution

open Async

/-! ## Statement -/

/-- The base fee passes the cap and the percentile. -/
def FeeAcceptable (config : ExecutionConfig) (recommended current : Nat) : Prop :=
  (∃ cap, config.txMaxBaseFee = some cap ∧ ¬ (0 < cap ∧ cap < current)) ∧
    current ≤ recommended

/-- What an attempt has established before it broadcasts a transaction. -/
structure Cleared (config : ExecutionConfig) (attempt : Attempt)
    (transaction : Transaction) : Prop where
  called : attempt.called = true
  emulated :
    ∃ estimatedGas,
      attempt.estimatedGas = some estimatedGas ∧
        transaction.gasLimit =
          estimatedGas * (100 + config.txGasLimitBufferPercent) / 100
  withinLimit : (transaction.gasLimit : Int) ≤ config.txGasLimit
  signer : config.txSignerPrivateKey ≠ none
  live : config.dryRun = false
  confirmed : isCLI config = true → attempt.sendingConfirmed = some true
  acceptable :
    isCLI config = false →
      ∃ history baseFee recommended,
        attempt.feesFrom = some (history, baseFee) ∧
          percentile history config.txGasFeeHistoryPercentile = some recommended ∧
          attempt.fees = some (recommended, baseFee.getD 0) ∧
          FeeAcceptable config recommended (baseFee.getD 0)

/-- The transactions passed to the provider. -/
def broadcasts (attempts : List Attempt) : List Transaction :=
  attempts.flatMap (·.broadcasts)

/-- How far a call may have gone. -/
structure Safe (config : ExecutionConfig) (attempts : List Attempt) : Prop where
  once : (broadcasts attempts).length ≤ 1
  bounded : attempts.length ≤ config.txHighGasFeeMaxRetries + 1
  cleared :
    ∀ attempt ∈ attempts, ∀ transaction ∈ attempt.broadcasts,
      Cleared config attempt transaction

/-- How a call may have resolved. -/
def Resolved (config : ExecutionConfig) (attempts : List Attempt) : Prop :=
  (∃ attempt ∈ attempts, ∃ transaction,
      broadcasts attempts = [transaction] ∧
        transaction ∈ attempt.broadcasts ∧
        attempt.minedStatus = some 1) ∨
    (broadcasts attempts = [] ∧
      (config.txSignerPrivateKey = none ∨ config.dryRun = true))

/-- What other tasks do to the shared fields meanwhile. -/
structure Disturbance where
  transactionCount : Nat
  gasFeeHistoryCache : List Nat
  lastFeeHistoryBlockNumber : Nat

/-- They write the fields that all calls of the process share. -/
def Disturbance.act (disturbance : Disturbance) (world : ExecutionWorld) :
    ExecutionWorld :=
  { world with
    transactionCount := disturbance.transactionCount
    gasFeeHistoryCache := disturbance.gasFeeHistoryCache
    lastFeeHistoryBlockNumber := disturbance.lastFeeHistoryBlockNumber }

/-! ## Errors are told apart -/

/-- Texts that begin differently are different. -/
theorem append_ne
    {first rest text : String}
    (differs : text.toList.take first.toList.length ≠ first.toList) :
    first ++ rest ≠ text := by
  intro same
  apply differs
  rw [← same, String.toList_append]
  simp

/-- An estimate above the limit ends the call with an error. -/
theorem gasLimitExceeded_not_quiet
    (estimatedGas bufferPct gasLimit : Nat)
    (cap : Int) :
    ¬ endsQuietly (.thrown (gasLimitExceeded estimatedGas bufferPct gasLimit cap)) := by
  have notSigner : gasLimitExceeded estimatedGas bufferPct gasLimit cap ≠ noSigner := by
    unfold gasLimitExceeded
    simp only [String.append_assoc]
    apply append_ne
    decide
  have notDryRun : gasLimitExceeded estimatedGas bufferPct gasLimit cap ≠ dryRunMode := by
    unfold gasLimitExceeded
    simp only [String.append_assoc]
    apply append_ne
    decide
  simp [endsQuietly, notSigner, notDryRun]

/-- A reverted transaction ends the call with an error, and is not sent again. -/
theorem revertedOnChain_final
    (status : Nat)
    (hash : String) :
    ¬ endsQuietly (.thrown (revertedOnChain status hash)) ∧
      Abort.thrown (revertedOnChain status hash) ≠ .thrown highGasFee := by
  have notSigner : revertedOnChain status hash ≠ noSigner := by
    unfold revertedOnChain
    simp only [String.append_assoc]
    apply append_ne
    decide
  have notDryRun : revertedOnChain status hash ≠ dryRunMode := by
    unfold revertedOnChain
    simp only [String.append_assoc]
    apply append_ne
    decide
  have notHighGas : revertedOnChain status hash ≠ highGasFee := by
    unfold revertedOnChain
    simp only [String.append_assoc]
    apply append_ne
    decide
  simp [endsQuietly, notSigner, notDryRun, notHighGas]

/-! ## Steps that leave the attempts alone -/

/-- A protocol under which nothing is known but the attempts. -/
structure Frames (protocol : Protocol ExecutionWorld) (attempts : List Attempt) :
    Prop where
  relies :
    ∀ {world moved}, protocol.rely world moved → moved.attempts = world.attempts
  suspends : ∀ {world}, world.attempts = attempts → protocol.suspended world
  rejects : ∀ {world}, world.attempts = attempts → protocol.aborted .rejected world

section Framed

variable {protocol : Protocol ExecutionWorld} {attempts : List Attempt}
variable (frames : Frames protocol attempts)
variable (config : ExecutionConfig) (answers : ExecutionAnswers)

include frames

/-- At a suspension nothing but the attempts is carried on. -/
theorem wp_settle_framed
    {post : Unit → ExecutionWorld → Prop}
    {world : ExecutionWorld}
    (same : world.attempts = attempts)
    (continues : ∀ moved, moved.attempts = attempts → post () moved) :
    wp protocol post settle world := by
  rw [wp_settle]
  refine ⟨frames.suspends same, fun moved relied => ?_⟩
  have movedSame : moved.attempts = attempts := (frames.relies relied).trans same
  exact ⟨continues moved movedSame, frames.rejects movedSame⟩

/-- So it is at a request, whatever it is answered. -/
theorem wp_request_framed
    {α : Type}
    {answer : α}
    {post : α → ExecutionWorld → Prop}
    {world : ExecutionWorld}
    (same : world.attempts = attempts)
    (continues : ∀ moved, moved.attempts = attempts → post answer moved) :
    wp protocol post (request answer) world := by
  rw [wp_request]
  refine ⟨frames.suspends same, fun moved relied => ?_⟩
  have movedSame : moved.attempts = attempts := (frames.relies relied).trans same
  exact ⟨continues moved movedSame, frames.rejects movedSame⟩

/-- And at an awaited call whose body leaves the attempts alone. -/
theorem wp_call_framed
    {α : Type}
    {body : Async ExecutionWorld α}
    {post : α → Prop}
    {world : ExecutionWorld}
    (holds :
      wp protocol (fun value final => final.attempts = attempts ∧ post value) body world) :
    wp protocol (fun value final => final.attempts = attempts ∧ post value)
      (call body) world := by
  rw [wp_call]
  apply wp_mono holds
  intro value final ⟨same, established⟩
  exact ⟨frames.suspends same, fun moved relied =>
    ⟨(frames.relies relied).trans same, established⟩⟩

/-- The tip is computed without touching the attempts. -/
theorem calcPriorityFee_framed
    {world : ExecutionWorld}
    (same : world.attempts = attempts) :
    wp protocol (fun _ final => final.attempts = attempts ∧ True)
      (calcPriorityFee config answers) world := by
  unfold calcPriorityFee
  rw [wp_bind]
  apply wp_request_framed frames same
  intro afterBaseFee baseFeeSame
  rw [wp_bind]
  apply wp_request_framed frames baseFeeSame
  intro afterReward rewardSame
  exact ⟨rewardSame, trivial⟩

/-- The fee history is fetched without touching them. -/
theorem fetchGasFees_framed
    (fuel totalBlockCountToFetch latestBlockToRequest : Nat)
    (newGasFees : List Nat)
    {world : ExecutionWorld}
    (same : world.attempts = attempts) :
    wp protocol (fun _ final => final.attempts = attempts ∧ True)
      (fetchGasFees config answers fuel totalBlockCountToFetch latestBlockToRequest
        newGasFees) world := by
  induction fuel
    generalizing totalBlockCountToFetch latestBlockToRequest newGasFees world with
  | zero =>
      exact ⟨same, trivial⟩
  | succ fuel inductionHypothesis =>
      unfold fetchGasFees
      split
      · exact ⟨same, trivial⟩
      · rw [wp_bind]
        apply wp_request_framed frames same
        intro moved movedSame
        exact inductionHypothesis _ _ _ movedSame

/-- The cache of fees is updated without touching them. -/
theorem updateGasFeeHistoryCache_framed
    {world : ExecutionWorld}
    (same : world.attempts = attempts) :
    wp protocol (fun _ final => final.attempts = attempts ∧ True)
      (updateGasFeeHistoryCache config answers) world := by
  unfold updateGasFeeHistoryCache
  rw [wp_bind]
  apply wp_request_framed frames same
  intro current currentSame
  rw [wp_bind, wp_read]
  change wp _ _ (ite _ _ _) current
  split
  · exact ⟨currentSame, trivial⟩
  · rw [wp_bind]
    apply wp_mono (fetchGasFees_framed frames config answers _ _ _ _ currentSame)
    intro newGasFees final ⟨finalSame, _⟩
    exact ⟨finalSame, trivial⟩

/-- Populating a transaction keeps what was prepared. -/
theorem populateTransaction_framed
    (prepared : PreparedTransaction)
    {world : ExecutionWorld}
    (same : world.attempts = attempts) :
    wp protocol
      (fun populated final =>
        final.attempts = attempts ∧
          populated.transaction.toPreparedTransaction = prepared)
      (populateTransaction prepared) world := by
  unfold populateTransaction
  simp only [wp_bind, wp_read, wp_modify]
  apply wp_settle_framed frames
  · exact same
  · intro moved movedSame
    exact ⟨movedSame, rfl⟩

end Framed

/-! ## One attempt -/

/-- How an attempt leaves its call: resolved, to be retried, or with an error. -/
structure AttemptEnds (config : ExecutionConfig) (count : Nat)
    (outcome : Except Abort Unit) (attempts : List Attempt) : Prop where
  safe : Safe config attempts
  counted : attempts.length = count + 1
  returned : outcome = .ok () → Resolved config attempts
  quiet :
    ∀ reason, outcome = .error reason → endsQuietly reason → Resolved config attempts
  retried : outcome = .error (.thrown highGasFee) → broadcasts attempts = []

/-- What holds whenever a call is suspended or has failed. -/
def callProtocol (config : ExecutionConfig) : Protocol ExecutionWorld where
  rely := fun world moved => moved.attempts = world.attempts
  suspended := fun world => Safe config world.attempts
  aborted := fun _ world => Safe config world.attempts

/-- An attempt answers to its call for the error it ends with. -/
def attemptProtocol (config : ExecutionConfig) (count : Nat) :
    Protocol ExecutionWorld :=
  { callProtocol config with
    aborted := fun reason world =>
      AttemptEnds config count (.error reason) world.attempts }

/-- An attempt may abort when it ends there. -/
theorem AttemptEnds.raised
    {config : ExecutionConfig}
    {count : Nat}
    {attempts : List Attempt}
    {reason : Abort}
    (ended : AttemptEnds config count (.error reason) attempts)
    {α : Type}
    {post : α → ExecutionWorld → Prop}
    {world : ExecutionWorld}
    (same : world.attempts = attempts) :
    wp (attemptProtocol config count) post (.fail reason) world := by
  subst same
  exact ended

/-- An attempt is under way and nothing has been broadcast. -/
structure Idle (config : ExecutionConfig) (count : Nat) (attempts : List Attempt) :
    Prop where
  silent : broadcasts attempts = []
  counted : attempts.length = count + 1
  bounded : count ≤ config.txHighGasFeeMaxRetries

namespace Idle

variable {config : ExecutionConfig} {count : Nat} {attempts earlier : List Attempt}
variable {attempt : Attempt}

/-- An attempt that has sent nothing is safe. -/
theorem safe
    (idle : Idle config count attempts) :
    Safe config attempts where
  once := by
    rw [idle.silent]
    exact Nat.zero_le 1
  bounded := by
    rw [idle.counted]
    exact Nat.succ_le_succ idle.bounded
  cleared := by
    intro attempt member transaction sent
    have isBroadcast : transaction ∈ broadcasts attempts :=
      List.mem_flatMap.mpr ⟨attempt, member, sent⟩
    rw [idle.silent] at isBroadcast
    cases isBroadcast

/-- Before the broadcast an attempt may end with any error that is not quiet. -/
theorem fails
    (idle : Idle config count attempts)
    {reason : Abort}
    (loud : ¬ endsQuietly reason) :
    AttemptEnds config count (.error reason) attempts where
  safe := idle.safe
  counted := idle.counted
  returned := by
    intro returned
    cases returned
  quiet := by
    rintro _ ⟨⟩ isQuiet
    exact absurd isQuiet loud
  retried := fun _ => idle.silent

/-- It ends quietly only without a signer or in a dry run. -/
theorem ends_quietly
    (idle : Idle config count attempts)
    (notSending : config.txSignerPrivateKey = none ∨ config.dryRun = true)
    (reason : Abort) :
    AttemptEnds config count (.error reason) attempts where
  safe := idle.safe
  counted := idle.counted
  returned := by
    intro returned
    cases returned
  quiet := fun _ _ _ => Or.inr ⟨idle.silent, notSending⟩
  retried := fun _ => idle.silent

/-- Steps that leave the attempts alone may suspend and fail. -/
theorem frames
    (idle : Idle config count attempts) :
    Frames (attemptProtocol config count) attempts where
  relies := id
  suspends := by
    intro world same
    have safe := idle.safe
    rw [← same] at safe
    exact safe
  rejects := by
    intro world same
    have failed := idle.fails (by decide : ¬ endsQuietly .rejected)
    rw [← same] at failed
    exact failed

/-- Notes that are no broadcasts change nothing about that. -/
theorem note
    (idle : Idle config count (attempt :: earlier))
    (noted : Attempt)
    (sameBroadcasts : noted.broadcasts = attempt.broadcasts) :
    Idle config count (noted :: earlier) where
  silent := by
    have silent := idle.silent
    simp only [broadcasts, List.flatMap_cons] at silent ⊢
    rw [sameBroadcasts]
    exact silent
  counted := idle.counted
  bounded := idle.bounded

end Idle

section Steps

variable {config : ExecutionConfig} {count : Nat} {attempt : Attempt}
variable {earlier : List Attempt} (answers : ExecutionAnswers)

/-- After the emulation the attempt has called and estimated, within the gas limit. -/
theorem emulate_spec
    (idle : Idle config count (attempt :: earlier))
    (request : TransactionRequest)
    (fees : PriorityFeeParams)
    {world : ExecutionWorld}
    (underWay : world.attempts = attempt :: earlier) :
    wp (attemptProtocol config count)
      (fun prepared final =>
        final.attempts =
            { attempt with called := true, estimatedGas := some answers.estimatedGas } ::
              earlier ∧
        prepared.gasLimit =
          answers.estimatedGas * (100 + config.txGasLimitBufferPercent) / 100 ∧
        (prepared.gasLimit : Int) ≤ config.txGasLimit)
      (emulate config answers request fees) world := by
  unfold emulate
  rw [wp_bind]
  apply wp_settle_framed idle.frames underWay
  intro called calledSame
  rw [wp_bind, wp_modify]
  have calledNoted :
      (called.noteAttempt fun attempt => { attempt with called := true }).attempts =
        { attempt with called := true } :: earlier := by
    simp [ExecutionWorld.noteAttempt, calledSame]
  rw [wp_bind]
  apply wp_request_framed (idle.note { attempt with called := true } rfl).frames calledNoted
  intro estimated estimatedSame
  rw [wp_bind, wp_modify]
  have noted :
      (estimated.noteAttempt fun attempt =>
          { attempt with estimatedGas := some answers.estimatedGas }).attempts =
        { attempt with called := true, estimatedGas := some answers.estimatedGas } ::
          earlier := by
    simp [ExecutionWorld.noteAttempt, estimatedSame]
  change wp _ _ (ite _ _ _) _
  split
  · have failed :=
      (idle.note
        { attempt with called := true, estimatedGas := some answers.estimatedGas } rfl).fails
        (gasLimitExceeded_not_quiet answers.estimatedGas config.txGasLimitBufferPercent
          (answers.estimatedGas * (100 + config.txGasLimitBufferPercent) / 100)
          config.txGasLimit)
    exact failed.raised noted
  · rename_i withinLimit
    exact ⟨noted, rfl, Int.not_lt.mp withinLimit⟩

/-- The attempt with the fees of its check. -/
def withFees (attempt : Attempt) (history : List Nat) (baseFee : Option Nat)
    (fees : Option (Nat × Nat)) : Attempt :=
  { attempt with feesFrom := some (history, baseFee), fees := fees }

/-- The recommended fee is the percentile of the cache, the current one the answered one. -/
theorem calcFeePerGas_noted
    (idle : Idle config count (attempt :: earlier))
    {world : ExecutionWorld}
    (underWay : world.attempts = attempt :: earlier) :
    wp (attemptProtocol config count)
      (fun fees final =>
        ∃ history,
          final.attempts =
              withFees attempt history answers.currentBaseFee attempt.fees :: earlier ∧
            percentile history config.txGasFeeHistoryPercentile = some fees.1 ∧
            fees.2 = answers.currentBaseFee.getD 0)
      (calcFeePerGas config answers) world := by
  unfold calcFeePerGas
  rw [wp_bind]
  apply wp_request_framed idle.frames underWay
  intro answered answeredSame
  rw [wp_bind]
  have updated :=
    wp_call_framed idle.frames
      (updateGasFeeHistoryCache_framed idle.frames config answers answeredSame)
  apply wp_mono updated
  intro _ final ⟨finalSame, _⟩
  simp only [wp_bind, wp_modify, wp_read]
  have noted :
      ((sortGasFees final).noteAttempt fun attempt =>
          { attempt with
            feesFrom :=
              some ((sortGasFees final).gasFeeHistoryCache, answers.currentBaseFee) }).attempts =
        withFees attempt (sortGasFees final).gasFeeHistoryCache answers.currentBaseFee
          attempt.fees :: earlier := by
    simp [ExecutionWorld.noteAttempt, sortGasFees, finalSame, withFees]
  split
  · have failed :=
      (idle.note
        (withFees attempt (sortGasFees final).gasFeeHistoryCache answers.currentBaseFee
          attempt.fees) rfl).fails
        (by decide : ¬ endsQuietly .rejected)
    exact failed.raised noted
  · rename_i recommended isRecommended
    exact ⟨_, noted, isRecommended, rfl⟩

/-- The check compares the answered base fee with the percentile of the cache. -/
theorem isFeePerGasAcceptable_spec
    (idle : Idle config count (attempt :: earlier))
    {world : ExecutionWorld}
    (underWay : world.attempts = attempt :: earlier) :
    wp (attemptProtocol config count)
      (fun acceptable final =>
        ∃ history recommended,
          final.attempts =
              withFees attempt history answers.currentBaseFee
                  (some (recommended, answers.currentBaseFee.getD 0)) ::
                earlier ∧
            percentile history config.txGasFeeHistoryPercentile = some recommended ∧
            (acceptable = true →
              FeeAcceptable config recommended (answers.currentBaseFee.getD 0)))
      (isFeePerGasAcceptable config answers) world := by
  unfold isFeePerGasAcceptable
  rw [wp_bind, wp_call]
  apply wp_mono (calcFeePerGas_noted answers idle underWay)
  rintro ⟨recommended, current⟩ returned ⟨history, returnedSame, isPercentile, isAnswered⟩
  obtain rfl : current = answers.currentBaseFee.getD 0 := isAnswered
  have priced := idle.note (withFees attempt history answers.currentBaseFee attempt.fees) rfl
  refine ⟨priced.frames.suspends returnedSame, fun final relied => ?_⟩
  have finalSame := (priced.frames.relies relied).trans returnedSame
  simp only [wp_bind, wp_modify]
  have noted :
      (final.noteAttempt fun attempt =>
          { attempt with
            fees := some (recommended, answers.currentBaseFee.getD 0) }).attempts =
        withFees attempt history answers.currentBaseFee
            (some (recommended, answers.currentBaseFee.getD 0)) ::
          earlier := by
    simp [ExecutionWorld.noteAttempt, finalSame, withFees]
  split
  · have failed :=
      (idle.note
        (withFees attempt history answers.currentBaseFee
          (some (recommended, answers.currentBaseFee.getD 0))) rfl).fails
        (by decide : ¬ endsQuietly .rejected)
    exact failed.raised noted
  · rename_i cap capped
    split
    · exact ⟨history, recommended, noted, isPercentile, by simp⟩
    · rename_i belowCap
      refine ⟨history, recommended, noted, isPercentile, fun acceptable => ?_⟩
      exact ⟨⟨cap, capped, belowCap⟩, of_decide_eq_true acceptable⟩

/-- The reasons not to send: what is left when there are none. -/
theorem confirmSending_spec
    (idle : Idle config count (attempt :: earlier))
    (acceptable : Bool)
    {world : ExecutionWorld}
    (underWay : world.attempts = attempt :: earlier) :
    wp (attemptProtocol config count)
      (fun _ final =>
        config.dryRun = false ∧
        ∃ sendingConfirmed,
          final.attempts =
              { attempt with sendingConfirmed := sendingConfirmed } :: earlier ∧
            (isCLI config = true → sendingConfirmed = some true) ∧
            (isCLI config = false → acceptable = true))
      (confirmSending config answers acceptable) world := by
  unfold confirmSending
  split
  · rename_i dryRun
    exact (idle.ends_quietly (Or.inr dryRun) (.thrown dryRunMode)).raised underWay
  · rename_i live
    split
    · rename_i isCli
      rw [wp_bind]
      apply wp_request_framed idle.frames underWay
      intro answered answeredSame
      have noted :
          (answered.noteAttempt fun attempt =>
              { attempt with sendingConfirmed := some answers.sendingConfirmed }).attempts =
            { attempt with sendingConfirmed := some answers.sendingConfirmed } ::
              earlier := by
        simp [ExecutionWorld.noteAttempt, answeredSame]
      rw [wp_bind, wp_modify]
      split
      · rename_i confirmed
        refine ⟨by simpa using live, _, noted, ?_, ?_⟩
        · intro _
          rw [confirmed]
        · intro notCli
          rw [isCli] at notCli
          cases notCli
      · have failed :=
          (idle.note
            { attempt with sendingConfirmed := some answers.sendingConfirmed } rfl).fails
            (by decide : ¬ endsQuietly (.thrown userCancellation))
        exact failed.raised noted
    · rename_i notCli
      split
      · rename_i isAcceptable
        refine ⟨by simpa using live, attempt.sendingConfirmed, underWay, ?_, ?_⟩
        · intro isCli
          exact absurd isCli notCli
        · intro _
          exact isAcceptable
      · have failed :=
          idle.fails (by decide : ¬ endsQuietly (.thrown highGasFee))
        exact failed.raised underWay

/-- The one broadcast of an attempt and of its call. -/
structure Sent (config : ExecutionConfig) (count : Nat) (transaction : Transaction)
    (attempts : List Attempt) : Prop where
  once : broadcasts attempts = [transaction]
  counted : attempts.length = count + 1
  bounded : count ≤ config.txHighGasFeeMaxRetries
  cleared :
    ∃ attempt earlier,
      attempts = attempt :: earlier ∧
        attempt.broadcasts = [transaction] ∧
        broadcasts earlier = [] ∧
        Cleared config attempt transaction

namespace Sent

variable {transaction : Transaction} {attempts : List Attempt}

/-- One broadcast by a cleared attempt is safe. -/
theorem safe
    (sent : Sent config count transaction attempts) :
    Safe config attempts where
  once := by
    rw [sent.once]
    exact Nat.le_refl 1
  bounded := by
    rw [sent.counted]
    exact Nat.succ_le_succ sent.bounded
  cleared := by
    obtain ⟨latest, earlier, rfl, broadcast, silent, cleared⟩ := sent.cleared
    intro attempt member other isBroadcast
    rcases List.mem_cons.mp member with rfl | inEarlier
    · rw [broadcast, List.mem_singleton] at isBroadcast
      rw [isBroadcast]
      exact cleared
    · have unexpected : other ∈ broadcasts earlier :=
        List.mem_flatMap.mpr ⟨attempt, inEarlier, isBroadcast⟩
      rw [silent] at unexpected
      cases unexpected

/-- After the broadcast an attempt ends neither quietly nor to be retried. -/
theorem fails
    (sent : Sent config count transaction attempts)
    {reason : Abort}
    (final : ¬ endsQuietly reason ∧ reason ≠ .thrown highGasFee) :
    AttemptEnds config count (.error reason) attempts where
  safe := sent.safe
  counted := sent.counted
  returned := by
    intro returned
    cases returned
  quiet := by
    rintro _ ⟨⟩ isQuiet
    exact absurd isQuiet final.1
  retried := by
    rintro ⟨⟩
    exact absurd rfl final.2

/-- Waiting for the transaction leaves it the only one. -/
theorem frames
    (sent : Sent config count transaction attempts) :
    Frames (attemptProtocol config count) attempts where
  relies := id
  suspends := by
    intro world same
    have safe := sent.safe
    rw [← same] at safe
    exact safe
  rejects := by
    intro world same
    have failed :=
      sent.fails
        (by decide :
          ¬ endsQuietly .rejected ∧ Abort.rejected ≠ .thrown highGasFee)
    rw [← same] at failed
    exact failed

end Sent

/-- The attempt as its broadcast leaves it. -/
def broadcastBy (attempt : Attempt) (transaction : Transaction)
    (minedStatus : Option Nat) : Attempt :=
  { attempt with
    broadcasts := attempt.broadcasts ++ [transaction]
    minedStatus := minedStatus }

/-- The first broadcast of a cleared attempt is the one of its call. -/
theorem Idle.sent
    (idle : Idle config count (attempt :: earlier))
    {transaction : Transaction}
    (cleared : Cleared config attempt transaction)
    (minedStatus : Option Nat) :
    Sent config count transaction
      (broadcastBy attempt transaction minedStatus :: earlier) := by
  have silent := idle.silent
  simp only [broadcasts, List.flatMap_cons, List.append_eq_nil_iff] at silent
  obtain ⟨attemptSilent, earlierSilent⟩ := silent
  have isOnly : (broadcastBy attempt transaction minedStatus).broadcasts = [transaction] := by
    simp [broadcastBy, attemptSilent]
  refine ⟨?once, idle.counted, idle.bounded, _, earlier, rfl, isOnly, earlierSilent, ?_⟩
  case once =>
    simp only [broadcasts, List.flatMap_cons, isOnly]
    rw [earlierSilent, List.append_nil]
  exact ⟨cleared.called, cleared.emulated, cleared.withinLimit, cleared.signer, cleared.live,
    cleared.confirmed, cleared.acceptable⟩

/-- Waiting for a transaction that was sent ends the attempt. -/
theorem broadcast_spec
    (idle : Idle config count (attempt :: earlier))
    (unmined : attempt.minedStatus = none)
    {populated : PopulatedTransaction}
    (cleared : Cleared config attempt populated.transaction)
    {world : ExecutionWorld}
    (underWay : world.attempts = attempt :: earlier) :
    wp (attemptProtocol config count)
      (fun _ final => AttemptEnds config count (.ok ()) final.attempts)
      (broadcast answers populated) world := by
  unfold broadcast sendTransaction
  rw [wp_bind]
  apply wp_settle_framed idle.frames underWay
  intro signed signedSame
  have sent := idle.sent cleared none
  have passed :
      ((signed.record (.sent populated)).noteAttempt fun attempt =>
          { attempt with
            broadcasts := attempt.broadcasts ++ [populated.transaction] }).attempts =
        broadcastBy attempt populated.transaction none :: earlier := by
    simp [ExecutionWorld.noteAttempt, ExecutionWorld.record, signedSame, broadcastBy,
      unmined]
  simp only [wp_bind, wp_modify]
  apply wp_settle_framed sent.frames passed
  intro submitted submittedSame
  apply wp_settle_framed sent.frames (submittedSame : submitted.attempts = _)
  intro answered answeredSame
  apply wp_settle_framed sent.frames answeredSame
  intro mined minedSame
  have noted :
      (mined.noteAttempt fun attempt =>
          { attempt with minedStatus := some answers.receiptStatus }).attempts =
        broadcastBy attempt populated.transaction (some answers.receiptStatus) ::
          earlier := by
    simp [ExecutionWorld.noteAttempt, minedSame, broadcastBy]
  have sentMined := idle.sent cleared (some answers.receiptStatus)
  split
  · rename_i succeeded
    rw [pure_eq_done, wp_done, noted]
    refine ⟨sentMined.safe, sentMined.counted, fun _ => ?_, ?_, ?_⟩
    · refine Or.inl ⟨_, List.mem_cons_self, populated.transaction, sentMined.once, ?_, ?_⟩
      · simp [broadcastBy]
      · simp [broadcastBy, succeeded]
    · rintro _ ⟨⟩
    · rintro ⟨⟩
  · have failed :=
      sentMined.fails (revertedOnChain_final answers.receiptStatus answers.hash)
    exact failed.raised noted

/-- An attempt ends in a way its call can answer to. -/
theorem _execute_spec
    {world : ExecutionWorld}
    (silent : broadcasts world.attempts = [])
    (bounded : world.attempts.length ≤ config.txHighGasFeeMaxRetries) :
    wp (attemptProtocol config world.attempts.length)
      (fun _ final =>
        AttemptEnds config world.attempts.length (.ok ()) final.attempts)
      (_execute config answers) world := by
  have begun :
      Idle config world.attempts.length (Attempt.fresh :: world.attempts) :=
    ⟨by simpa [broadcasts, Attempt.fresh] using silent, rfl, bounded⟩
  unfold _execute
  rw [wp_bind, wp_modify, wp_bind]
  have priced :=
    wp_call_framed begun.frames
      (calcPriorityFee_framed begun.frames config answers
        (rfl : world.beginAttempt.attempts = _))
  apply wp_mono priced
  intro fees afterFees ⟨feesSame, _⟩
  rw [wp_bind]
  apply wp_request_framed begun.frames feesSame
  intro afterCallback callbackSame
  rw [wp_bind]
  apply wp_mono (emulate_spec answers begun _ fees callbackSame)
  intro tx afterEmulation ⟨emulatedSame, gasLimit, withinLimit⟩
  have emulated :=
    begun.note
      { Attempt.fresh with called := true, estimatedGas := some answers.estimatedGas } rfl
  split
  · rename_i noKey
    exact (emulated.ends_quietly (Or.inl noKey) (.thrown noSigner)).raised emulatedSame
  · rename_i hasKey
    rw [wp_bind]
    apply wp_mono (populateTransaction_framed emulated.frames tx emulatedSame)
    intro populatedTx afterPopulate ⟨populatedSame, fromPrepared⟩
    rw [wp_bind, wp_call]
    apply wp_mono (isFeePerGasAcceptable_spec answers emulated populatedSame)
    rintro acceptable afterCheck
      ⟨history, recommended, checkedSame, isPercentile, isAcceptable⟩
    have checked :=
      emulated.note
        (withFees
          { Attempt.fresh with called := true, estimatedGas := some answers.estimatedGas }
          history answers.currentBaseFee
          (some (recommended, answers.currentBaseFee.getD 0)))
        rfl
    refine ⟨checked.frames.suspends checkedSame, fun resumed relied => ?_⟩
    have resumedSame := (checked.frames.relies relied).trans checkedSame
    rw [wp_bind]
    apply wp_mono (confirmSending_spec answers checked acceptable resumedSame)
    rintro _ confirmed ⟨live, sendingConfirmed, confirmedSame, byUser, byFee⟩
    refine broadcast_spec answers (checked.note _ ?silent) ?unmined ?cleared confirmedSame
    case silent => rfl
    case unmined => rfl
    refine ⟨rfl, ⟨_, rfl, ?_⟩, ?_, hasKey, live, byUser, fun daemon => ?_⟩
    · rw [fromPrepared]
      exact gasLimit
    · rw [fromPrepared]
      exact withinLimit
    · exact ⟨history, answers.currentBaseFee, recommended, rfl, isPercentile, rfl,
        isAcceptable (byFee daemon)⟩

end Steps

/-! ## The call -/

/-- What holds when a call has returned. -/
def Returned (config : ExecutionConfig) (_ : Unit) (world : ExecutionWorld) : Prop :=
  Safe config world.attempts ∧ Resolved config world.attempts

section Call

variable {config : ExecutionConfig} (executeCall : ExecuteCall)

/-- One attempt of a call, its error caught. -/
theorem attempt_spec
    (answers : ExecutionAnswers)
    {world : ExecutionWorld}
    (silent : broadcasts world.attempts = [])
    (bounded : world.attempts.length ≤ config.txHighGasFeeMaxRetries) :
    wp (callProtocol config)
      (fun outcome final =>
        AttemptEnds config world.attempts.length outcome final.attempts)
      (callCatching (_execute config answers)) world := by
  apply wp_callCatching
  · intro outcome final ended
    exact ended.safe
  · intro outcome final moved ended relied
    have same : moved.attempts = final.attempts := relied
    rw [same]
    exact ended
  · exact _execute_spec answers silent bounded

/-- How a call goes on after an attempt. -/
theorem concludeAttempt_spec
    {onHighGasFee : Async ExecutionWorld Unit}
    {outcome : Except Abort Unit}
    {count : Nat}
    {world : ExecutionWorld}
    (ended : AttemptEnds config count outcome world.attempts)
    (retries :
      broadcasts world.attempts = [] →
      wp (callProtocol config) (Returned config)
        onHighGasFee world) :
    wp (callProtocol config) (Returned config)
      (concludeAttempt onHighGasFee outcome) world := by
  cases outcome with
  | ok value =>
      exact ⟨ended.safe, ended.returned rfl⟩
  | error reason =>
      change wp _ _ (ite _ _ (ite _ _ _)) world
      split
      · rename_i isQuiet
        exact ⟨ended.safe, ended.quiet reason rfl isQuiet⟩
      · split
        · rename_i isHighGas
          apply retries
          apply ended.retried
          rw [isHighGas]
        · exact ended.safe

/-- The command asks until it has sent a transaction or given up. -/
theorem executeCLI_spec
    {world : ExecutionWorld}
    (fresh : world.attempts = []) :
    wp (callProtocol config) (Returned config)
      (executeCLI config executeCall) world := by
  unfold executeCLI
  rw [wp_bind]
  have attempted :=
    @attempt_spec config (executeCall 0) world
      (by rw [fresh]; rfl) (by rw [fresh]; exact Nat.zero_le _)
  apply wp_mono attempted
  intro outcome final ended
  apply concludeAttempt_spec ended
  intro _
  exact ended.safe

/-- The induction is on the retries that are left; so far nothing has been broadcast. -/
theorem executeDaemon_spec
    (highGasAttempts left : Nat)
    {world : ExecutionWorld}
    (silent : broadcasts world.attempts = [])
    (counted : world.attempts.length + left = config.txHighGasFeeMaxRetries) :
    wp (callProtocol config) (Returned config)
      (executeDaemon config executeCall highGasAttempts left) world := by
  induction left generalizing highGasAttempts world with
  | zero =>
      unfold executeDaemon
      rw [wp_bind]
      apply wp_mono (attempt_spec (executeCall highGasAttempts) silent (by omega))
      intro outcome final ended
      apply concludeAttempt_spec ended
      intro _
      exact ended.safe
  | succ left inductionHypothesis =>
      unfold executeDaemon
      rw [wp_bind]
      apply wp_mono (attempt_spec (executeCall highGasAttempts) silent (by omega))
      intro outcome final ended
      apply concludeAttempt_spec ended
      intro stillSilent
      rw [wp_bind, wp_tick]
      refine ⟨ended.safe, fun moved relied => ?_⟩
      have same : moved.attempts = final.attempts := relied
      apply inductionHypothesis
      · rw [same]
        exact stillSilent
      · rw [same, ended.counted]
        omega

/-- A call in either mode returns resolved. -/
theorem execute_spec
    {world : ExecutionWorld}
    (fresh : world.attempts = []) :
    wp (callProtocol config) (Returned config)
      (execute config executeCall) world := by
  have settles :
      ∀ (value : Unit) (final : ExecutionWorld),
        Returned config value final →
        (callProtocol config).suspended final ∧
          ∀ moved,
            (callProtocol config).rely final moved → Returned config value moved := by
    intro value final ⟨safe, resolved⟩
    refine ⟨safe, fun moved relied => ?_⟩
    have same : moved.attempts = final.attempts := relied
    exact ⟨by rw [same]; exact safe, by rw [same]; exact resolved⟩
  unfold execute
  split
  · rw [wp_call]
    exact wp_mono (executeCLI_spec executeCall fresh) settles
  · rw [wp_call]
    have started :=
      @executeDaemon_spec config executeCall 0 config.txHighGasFeeMaxRetries world
        (by rw [fresh]; rfl) (by rw [fresh]; exact Nat.zero_add _)
    exact wp_mono started settles

/-- Others do not touch the attempts of a call. -/
theorem callProtocol_stable :
    (callProtocol config).Stable where
  refl := fun _ => rfl
  trans := fun first second => second.trans first
  suspended := by
    intro world moved safe relied
    have same : moved.attempts = world.attempts := relied
    change Safe config moved.attempts
    rw [same]
    exact safe
  aborted := by
    intro reason world moved safe relied
    have same : moved.attempts = world.attempts := relied
    change Safe config moved.attempts
    rw [same]
    exact safe

end Call

/--
A call of `execute`, whatever its requests are answered, however its promises settle
and whatever other tasks do meanwhile: at every point of its run at most one
transaction has been broadcast, by an attempt that was cleared for it, and there are
at most one more attempts than retries.  When it has resolved, its transaction was
mined with status 1, or it was not to send any.  It ends when its promises settle;
otherwise than resolved it ends rejected.
-/
theorem execute_safe
    (config : ExecutionConfig)
    (executeCall : ExecuteCall)
    (world : ExecutionWorld) :
    (∀ script : List (Beat Disturbance),
      let ran :=
        run Disturbance.act (execute config executeCall)
          script { world with attempts := [] }
      Safe config ran.2.attempts ∧
        (ran.1 = .done () → Resolved config ran.2.attempts)) ∧
    ∀ beats : Nat → Beat Disturbance, ∃ count,
      (run Disturbance.act (execute config executeCall)
        ((List.range count).map beats) { world with attempts := [] }).1.Ended := by
  constructor
  · intro script ran
    have allowed :
        ∀ (move : Disturbance) (state : ExecutionWorld),
          (callProtocol config).rely state (move.act state) :=
      fun _ _ => rfl
    have started :=
      @execute_spec config executeCall { world with attempts := [] } rfl
    have established : Established (callProtocol config) (Returned config) ran :=
      run_sound callProtocol_stable allowed started script
    constructor
    · exact established.holds (fun final => Safe config final.attempts)
        (fun _ suspended => suspended) (fun _ _ aborted => aborted)
        (fun _ _ returned => returned.1)
    · intro returned
      have shape : ran = (.done (), ran.2) := Prod.ext returned rfl
      rw [shape] at established
      exact established.2
  · intro beats
    exact exists_ended Disturbance.act (execute config executeCall) beats
      { world with attempts := [] }

/-- A call at a low fee: all its requests are answered and it is mined. -/
def minedCall : ExecuteCall := fun _ => {
  pendingBaseFee := 10
  reward := [[3]]
  request := { toAddress := 5, data := "report" }
  estimatedGas := 100
  currentBaseFee := some 10
  latestBlockNumber := 300
  baseFeeHistory := fun _ _ => [10, 11]
  sendingConfirmed := true
  hash := "hash"
  receiptStatus := 1
}

theorem execute_safe_sample :
    Resolved (.defaults (.defaults "module" 1))
      (run Disturbance.act
        (execute (.defaults (.defaults "module" 1)) minedCall)
        (List.replicate 20 (.quiet .resolved))
        { ExecutionWorld.starting 7 with attempts := [] }).2.attempts := by
  have safe :=
    (execute_safe (.defaults (.defaults "module" 1)) minedCall (.starting 7)).1
      (List.replicate 20 (.quiet .resolved))
  exact safe.2 rfl

end Execution

end CsmProver
