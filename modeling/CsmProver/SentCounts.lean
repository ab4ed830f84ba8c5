import CsmProver.Async.Counting
import CsmProver.ReportedKeys
import CsmProver.StrikesBatches

namespace CsmProver

/-!
# The counts of the handlers

A handler of `ProverService` returns how many proofs it has sent, those for balance
increases of the parent block included.  With a signer and without a dry run that is
how many proofs were mined for it meanwhile; otherwise none were.
-/

open Async

/-- A mined proof, of whatever kind. -/
def isProof : Event → Bool
  | .proofResolved _ _ => true
  | .balanceProofResolved _ _ => true
  | _ => false

/-- How many proofs the log shows as mined. -/
def minedProofs (world : World) : Nat :=
  world.log.countP isProof

/-- No proof was mined. -/
abbrev SameCount (world moved : World) : Prop :=
  minedProofs moved = minedProofs world

/-- Doing nothing mines no proof. -/
theorem sameCount_refl
    (world : World) :
    SameCount world world :=
  rfl

/-- Others may do anything but mine proofs for the process. -/
def proofCounting : Counting World where
  rely := SameCount
  measure := minedProofs
  keeps := fun same => same

/-- As many proofs as a handler has counted, if transactions are sent at all. -/
def WereMined (config : Config) (sentCount added : Nat) : Prop :=
  added = if Live config then sentCount else 0

/-- An event counts if it is a mined proof. -/
theorem minedProofs_record
    (world : World)
    (event : Event) :
    minedProofs (world.record event) = minedProofs world + if isProof event then 1 else 0 := by
  simp [minedProofs]

/-- The counts of two parts add up. -/
theorem WereMined.add
    {config : Config}
    {sentCount added moreCount more : Nat}
    (mined : WereMined config sentCount added)
    (minedAgain : WereMined config moreCount more) :
    WereMined config (moreCount + sentCount) (added + more) := by
  unfold WereMined at mined minedAgain ⊢
  split <;> simp_all [Nat.add_comm]

/-! ## Sending -/

section Sending

variable {config : Config}

/-- A transaction gets its proof mined, if it is sent. -/
theorem execute_adds
    {mined : World → World}
    (raises : ∀ world, minedProofs (mined world) = minedProofs world + 1) :
    (execute config mined).Adds proofCounting fun _ added => WereMined config 1 added := by
  refine adds_silent_bind guarantees_settle fun _ => ?_
  unfold WereMined
  split
  · refine adds_silent_bind guarantees_settle fun _ => ?_
    have mines : (modify mined).Adds proofCounting fun _ added => added = 1 :=
      adds_modify raises rfl
    refine adds_bind mines ?_
    rintro _ _ rfl state
    refine wp_mono (adds_of_guarantees guarantees_tick state) ?_
    rintro _ final ⟨_, reached, rfl⟩
    exact ⟨0, reached, rfl⟩
  · exact adds_pure rfl

/-- All payloads of a worker are sent before they are counted. -/
theorem buildAndSend_adds
    {π : Type}
    {mined : π → World → World}
    (raises : ∀ payload world, minedProofs (mined payload world) = minedProofs world + 1)
    (built : Except Abort (List π)) :
    (do
      let payloads ← work built
      sendPayloads config mined payloads
      return payloads.length : Async World Nat).Adds proofCounting (WereMined config) := by
  refine adds_silent_bind (work_guarantees built) fun payloads => ?_
  have sends :
      (sendPayloads config mined payloads).Adds proofCounting fun _ added =>
        added = payloads.length * if Live config then 1 else 0 :=
    adds_forEach fun payload _ => adds_call (execute_adds (raises payload))
  refine adds_bind sends ?_
  rintro _ _ rfl
  refine adds_pure ?_
  unfold WereMined
  split <;> simp

end Sending

/-! ## The handlers -/

section Handlers

variable (config : Config) (consensus : Consensus) (balances : Bool)

/-- Nothing was sent, and nothing was mined. -/
theorem wereMined_zero :
    WereMined config 0 0 := by
  simp [WereMined]

/-- Sending the balance proofs counts those that are mined. -/
theorem sendBalanceChangeProofs_adds
    (blockHeader : BlockHeaderResponse)
    (state : State)
    (balanceChanges : InvolvedKeys)
    (recentHeader : BlockHeaderResponse) :
    (Balances.sendBalanceChangeProofs config consensus blockHeader state balanceChanges
      recentHeader).Adds proofCounting (WereMined config) := by
  have buildAndSend
      (recentBlock : RecentBlock) :
      (Balances.buildAndSend config blockHeader state balanceChanges recentBlock).Adds
        proofCounting (WereMined config) :=
    buildAndSend_adds (fun _ _ => minedProofs_record _ _) _
  unfold Balances.sendBalanceChangeProofs
  split
  · exact adds_pure (wereMined_zero config)
  · split
    · refine adds_call (adds_silent_bind ?_ fun anchor => buildAndSend anchor.1)
      exact resolveRecentBlock_reads sameCount_refl consensus _
    · refine adds_call (adds_silent_bind ?_ fun _ => buildAndSend _)
      exact nextHeaderTimestamp_guarantees consensus _

/-- Choosing the keys of a balance report mines nothing. -/
theorem getUnprovenBalanceChangeProofs_reads
    (currentState : State)
    (keys : InvolvedKeys) :
    (Balances.getUnprovenBalanceChangeProofs config consensus currentState
      keys).Guarantees SameCount := by
  unfold Balances.getUnprovenBalanceChangeProofs
  split
  · trivial
  · apply guarantees_bind (guarantees_request _)
    intro currentBalances
    apply guarantees_bind (guarantees_request _)
    intro currentExitEpochs
    apply guarantees_bind
    · exact guarantees_call (getKeyAddedBalances_reads sameCount_refl _)
    · intro addedBalances
      trivial

/-- So does the balance duty. -/
theorem handleBalanceChanges_adds
    {getKeys : Async World InvolvedKeys}
    (silent : getKeys.Guarantees SameCount)
    (blockHeader finalizedHeader : BlockHeaderResponse) :
    (Prover.handleBalanceChanges config consensus balances blockHeader finalizedHeader
      getKeys).Adds proofCounting (WereMined config) := by
  unfold Prover.handleBalanceChanges
  split
  · exact adds_pure (wereMined_zero config)
  · refine adds_silent_bind silent fun keyMap => ?_
    split
    · exact adds_pure (wereMined_zero config)
    · refine adds_silent_bind (guarantees_request _) fun currentState => ?_
      refine adds_silent_bind ?_ fun balanceChanges => ?_
      · exact guarantees_call (getUnprovenBalanceChangeProofs_reads config consensus _ _)
      · exact adds_call (sendBalanceChangeProofs_adds config consensus _ _ _ _)

/-- So does the balance duty of a parent block. -/
theorem handleParentBalances_adds
    (blockInfo : SupportedBlock)
    (finalizedHeader : BlockHeaderResponse)
    (involved : InvolvedKeys) :
    (Prover.handleParentBalances config consensus balances blockInfo finalizedHeader
      involved).Adds proofCounting (WereMined config) := by
  unfold Prover.handleParentBalances
  split
  · exact adds_pure (wereMined_zero config)
  · refine adds_silent_bind (guarantees_request _) fun parentHeader => ?_
    have given : (pure involved : Async World InvolvedKeys).Guarantees SameCount := trivial
    exact adds_call (handleBalanceChanges_adds config consensus balances given _ _)

/-- The proofs of a block are counted together with those of its parent. -/
theorem sendBoth_adds
    {first second : Async World Nat}
    (adds : first.Adds proofCounting (WereMined config))
    (addsAgain : second.Adds proofCounting (WereMined config)) :
    (do
      let balanceSentCount ← first
      let sentCount ← call second
      return sentCount + balanceSentCount).Adds proofCounting (WereMined config) := by
  refine adds_bind adds fun balanceSentCount added mined => ?_
  refine adds_bind (adds_call addsAgain) fun sentCount more minedAgain => ?_
  exact adds_pure (mined.add minedAgain)

/-- Looking up the validators of a block and asking about them mines nothing. -/
theorem lookup_reads
    {ν : Type}
    (kind : ProofKind)
    (keyInfoFn : KeyInfoFn)
    (valIndices : List Nat)
    (keyOf : ν → KeyInfo)
    (select : World → List (Nat × ν)) :
    (do
      let world ← read
      noteLookups kind keyInfoFn valIndices
      if select world = [] then
        return []
      filterUnproven kind keyOf (select world) : Async World (List (Nat × ν))).Guarantees
        SameCount := by
  have notes :
      (noteLookups kind keyInfoFn valIndices).Guarantees SameCount := by
    refine (guarantees_modify _).mpr fun world => ?_
    have none : (lookupEvents kind keyInfoFn valIndices world).countP isProof = 0 := by
      rw [List.countP_eq_zero]
      intro event member
      obtain ⟨valIndex, _, rfl⟩ := List.mem_map.mp member
      simp [isProof]
    simp [SameCount, minedProofs, none]
  apply guarantees_bind (guarantees_read sameCount_refl)
  intro world
  apply guarantees_bind notes
  intro _
  split
  · trivial
  · have asks :=
      @filterUnproven_yields (fun _ => True) SameCount sameCount_refl _ (fun _ => True) kind
        keyOf (select world) fun _ _ => trivial
    exact guarantees_of_yields asks

/-- The slashing duty counts its own proofs and those of the parent balances. -/
theorem handleSlashingsInBlock_adds
    (blockInfo : SupportedBlock)
    (finalizedHeader : BlockHeaderResponse)
    (keyInfoFn : KeyInfoFn) :
    (Prover.handleSlashingsInBlock config consensus balances blockInfo finalizedHeader
      keyInfoFn).Adds proofCounting (WereMined config) := by
  have sends
      (slashings : InvolvedKeys) :
      (Slashings.sendSlashingProofs config consensus finalizedHeader slashings).Adds
        proofCounting (WereMined config) := by
    unfold Slashings.sendSlashingProofs
    split
    · exact adds_pure (wereMined_zero config)
    · refine adds_silent_bind (guarantees_request _) fun finalizedState => ?_
      refine adds_silent_bind (nextHeaderTimestamp_guarantees consensus _)
        fun rootsTimestamp => ?_
      exact buildAndSend_adds (fun _ _ => minedProofs_record _ _) _
  refine adds_silent_bind ?_ fun slashings => ?_
  · exact guarantees_call (lookup_reads _ _ _ _ _)
  · exact sendBoth_adds config (handleParentBalances_adds config consensus balances _ _ _)
      (sends slashings)

/-- The withdrawal duty counts its own proofs and those of the parent balances. -/
theorem handleWithdrawalsInBlock_adds
    (blockRoot : RootHex)
    (blockInfo : SupportedBlock)
    (finalizedHeader : BlockHeaderResponse)
    (keyInfoFn : KeyInfoFn) :
    (Prover.handleWithdrawalsInBlock config consensus balances blockRoot blockInfo
      finalizedHeader keyInfoFn).Adds proofCounting (WereMined config) := by
  have buildAndSend
      (blockHeader : BlockHeaderResponse)
      (state : State)
      (withdrawals : List (Nat × Withdrawals.KeyWithWithdrawal))
      (recentBlock : RecentBlock) :
      (Withdrawals.buildAndSend config consensus blockHeader state withdrawals
        recentBlock).Adds proofCounting (WereMined config) :=
    buildAndSend_adds (fun _ _ => minedProofs_record _ _) _
  have sends
      (withdrawals : List (Nat × Withdrawals.KeyWithWithdrawal)) :
      (Withdrawals.sendWithdrawalProofs config consensus blockRoot blockInfo finalizedHeader
        withdrawals).Adds proofCounting (WereMined config) := by
    unfold Withdrawals.sendWithdrawalProofs
    split
    · exact adds_pure (wereMined_zero config)
    · refine adds_silent_bind (guarantees_request _) fun blockHeader => ?_
      refine adds_silent_bind (guarantees_request _) fun state => ?_
      split
      · refine adds_call (adds_silent_bind ?_ fun anchor => buildAndSend _ _ _ anchor.1)
        exact resolveRecentBlock_reads sameCount_refl consensus _
      · refine adds_call (adds_silent_bind ?_ fun _ => buildAndSend _ _ _ _)
        exact nextHeaderTimestamp_guarantees consensus _
  refine adds_silent_bind ?_ fun withdrawals => ?_
  · exact guarantees_call (lookup_reads _ _ _ _ _)
  · exact sendBoth_adds config (handleParentBalances_adds config consensus balances _ _ _)
      (sends withdrawals)

/-- The balance duty of a block counts what is mined. -/
theorem handleBalanceChangesInBlock_adds
    {getKeys : Async World InvolvedKeys}
    (silent : getKeys.Guarantees SameCount)
    (blockRoot : RootHex)
    (finalizedHeader : BlockHeaderResponse) :
    (Prover.handleBalanceChangesInBlock config consensus balances blockRoot finalizedHeader
      getKeys).Adds proofCounting (WereMined config) := by
  unfold Prover.handleBalanceChangesInBlock
  split
  · exact adds_pure (wereMined_zero config)
  · refine adds_silent_bind (guarantees_request _) fun blockHeader => ?_
    exact adds_call (handleBalanceChanges_adds config consensus balances silent _ _)

end Handlers

/-! ## Bad performers -/

section Strikes

open BadPerformers

/-- The service has its world to itself; a mined key leaves a penalty. -/
def penaltyCounting : Counting StrikesWorld where
  rely := Eq
  measure := fun world => world.exitPenalties.length
  keeps := fun same => same ▸ rfl

variable {config : Config} {reads : StrikesReads} {world : StrikesWorld}

/-- A live batch leaves one penalty for each of its leaves. -/
theorem afterBatch_exitPenalties
    (number : Nat)
    (payload : BadPerformanceProof) :
    (afterBatch config reads number payload world).exitPenalties.length =
      world.exitPenalties.length + if Live config then payload.leaves.length else 0 := by
  unfold afterBatch
  split <;> simp [batchMined]

/-- Every key of the batches leaves a penalty, if transactions are sent. -/
theorem wp_processBatches_counted
    {strikesTree : StrikesTree}
    {keys : List BadPerformer}
    (held : world.badPerformers.currentStrikesTree = some strikesTree)
    (placed : ∀ key ∈ keys, IsPlaced strikesTree key) :
    wp (countingProtocol penaltyCounting)
      (fun _ final =>
        final.exitPenalties.length =
          world.exitPenalties.length + if Live config then keys.length else 0)
      (processBadPerformerBatches config reads keys) world := by
  -- What the batches that still wait will add is missing from the whole.
  let waiting (rest : List (List BadPerformer × Nat)) : Nat :=
    if Live config then ((rest.map Prod.fst).flatten).length else 0
  apply wp_processBatches held placed fun rest state =>
    state.exitPenalties.length + waiting rest =
      world.exitPenalties.length + if Live config then keys.length else 0
  case enters =>
    simp only [waiting, (@flatten_batchesOf config keys).length_eq]
  case exits =>
    intro state reached
    simpa [waiting] using reached
  case sends =>
    intro batch rest state payload _ isPayload reached
    have sameLength := isPayload.leaves.length_eq
    have after := @afterBatch_exitPenalties config reads state batch.2 payload
    refine ⟨trivial, fun _ _ => trivial, trivial, ?_⟩
    simp only [StrikesWorld.record_exitPenalties, waiting, List.map_cons, List.flatten_cons,
      List.length_append, List.length_map] at reached sameLength ⊢
    split at after
    case isTrue live =>
      simp only [live, if_true] at reached ⊢
      omega
    case isFalse off =>
      simp_all

/-- A round counts the penalties that its reports leave. -/
theorem program_adds
    (config : Config)
    (round : StrikesRound) :
    (round.program config).Adds penaltyCounting (WereMined config) := by
  intro world
  have nothing
      (state : StrikesWorld)
      (same : state.exitPenalties = world.exitPenalties) :
      ∃ added,
        state.exitPenalties.length = world.exitPenalties.length + added ∧
          WereMined config 0 added :=
    ⟨0, by rw [same]; rfl, wereMined_zero config⟩
  apply StrikesRound.wp_program
  · trivial
  · exact fun _ => trivial
  · exact fun _ => nothing _ rfl
  · exact fun _ _ => nothing _ (by simp)
  · exact fun _ _ _ => nothing _ (by simp)
  · intro opens treeRead toBeProcessed
    apply wp_selectBadPerformers rfl
    · exact fun _ _ => trivial
    · intro keys built
      refine ⟨trivial, fun _ _ _ _ => trivial, trivial, fun _ _ _ _ => trivial, ?_⟩
      apply wp_sendBadPerformanceProofs rfl
      · exact fun _ => nothing _ (by simp; rfl)
      · intro _
        have taken :=
          takenFrom_unknownKeys built round.reads (round.working world).exitPenalties
            round.blockTag
        have sends :=
          @wp_processBatches_counted config round.reads
            (afterSelection round.reads round.blockTag keys (round.working world))
            (publishedTree round.reads round.blockTag world.badPerformers)
            (withinLimit round.reads
              (unknownKeys round.reads (round.working world).exitPenalties round.blockTag keys))
            rfl fun key member => taken.placed key (mem_of_mem_withinLimit member)
        refine ⟨trivial, fun _ _ => trivial, fun _ => nothing _ rfl, wp_mono sends ?_⟩
        intro _ final sent
        have counted :
            ∃ added,
              final.exitPenalties.length = world.exitPenalties.length + added ∧
                WereMined config _ added :=
          ⟨_, sent, rfl⟩
        exact ⟨fun _ => by simpa [penaltyCounting] using counted, fun _ => counted⟩

end Strikes

end CsmProver
