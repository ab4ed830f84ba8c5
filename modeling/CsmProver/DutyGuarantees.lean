import CsmProver.RootsProcessor

namespace CsmProver

/-!
# What the duties may change

The duties of a block read the index and the chain, write to the log, and change
the contract by mined proofs.  Whatever relation contains these updates contains
every update of a duty run: the stack, the index and the files stay as the other
tasks leave them.
-/

open Async

/-- A preorder that contains every update of the balance duty. -/
structure BalanceFrame (relation : World → World → Prop) : Prop where
  refl : ∀ world, relation world world
  trans :
    ∀ {first middle last},
      relation first middle → relation middle last → relation first last
  allKeysLookup :
    ∀ world,
      relation world
        (world.record (.allKeysLookup world.keysIndexer.info.storageStateSlot))
  balanceMined :
    ∀ key balanceGwei world, relation world (balanceMined key balanceGwei world)

/-- A preorder that contains every update of the duties. -/
structure DutyFrame (relation : World → World → Prop) : Prop
    extends BalanceFrame relation where
  keyLookups :
    ∀ duty keyInfoFn valIndices world,
      relation world
        { world with
          log := world.log ++ lookupEvents duty keyInfoFn valIndices world }
  proofMined : ∀ kind key world, relation world (proofMined kind key world)

section Sending

variable {relation : World → World → Prop} {config : Config}

/-- A transaction does what being mined does, and nothing else. -/
theorem execute_guarantees
    {mined : World → World}
    (contained : ∀ world, relation world (mined world)) :
    (execute config mined).Guarantees relation := by
  apply guarantees_bind guarantees_settle
  intro _
  split
  · apply guarantees_bind guarantees_settle
    intro _
    apply guarantees_bind ((guarantees_modify mined).mpr contained)
    intro _
    exact guarantees_tick
  · trivial

/-- The loop over the payloads does what their transactions do. -/
theorem sendPayloads_guarantees
    {π : Type}
    {mined : π → World → World}
    (contained : ∀ payload world, relation world (mined payload world))
    (payloads : List π) :
    (sendPayloads config mined payloads).Guarantees relation := by
  apply guarantees_forEach
  intro payload
  exact guarantees_call (execute_guarantees (contained payload))

/-- A worker changes nothing. -/
theorem work_guarantees
    {α : Type}
    (result : Except Abort α) :
    (work result).Guarantees relation := by
  apply guarantees_bind guarantees_settle
  intro _
  cases result with
  | ok value =>
      trivial
  | error reason =>
      trivial

/-- Looking for the canonical child of a root changes nothing. -/
theorem nextHeaderTimestamp_guarantees
    (consensus : Consensus)
    (root : RootHex) :
    (nextHeaderTimestamp consensus root).Guarantees relation := by
  apply guarantees_bind (guarantees_request _)
  intro headers
  split
  · exact guarantees_raise _
  · trivial

/-- Looking for a historical summary changes nothing. -/
theorem resolveHistoricalSummary_guarantees
    (consensus : Consensus)
    (finalizedSlot targetSlot : Nat) :
    (resolveHistoricalSummary consensus finalizedSlot targetSlot).Guarantees relation := by
  unfold resolveHistoricalSummary
  split
  · apply guarantees_bind guarantees_tick
    intro _
    exact guarantees_raise _
  · next summaryInfo _ =>
    split
    · apply guarantees_bind guarantees_tick
      intro _
      exact guarantees_bind (guarantees_raise _) fun _ => by
        apply guarantees_bind (guarantees_request _)
        intro _
        exact guarantees_bind guarantees_tick fun _ => trivial
    · apply guarantees_bind (guarantees_request _)
      intro _
      exact guarantees_bind guarantees_tick fun _ => trivial

end Sending

section Reading

variable {relation : World → World → Prop} (refl : ∀ world, relation world world)

include refl

/-- Anchoring a historical proof changes nothing. -/
theorem resolveRecentBlock_reads
    (consensus : Consensus)
    (targetSlot : Nat) :
    (resolveRecentBlock consensus targetSlot).Guarantees relation := by
  apply guarantees_bind
  · apply guarantees_bind guarantees_settle
    intro _
    exact guarantees_bind (guarantees_read refl) fun _ => trivial
  · intro finalizedHeader
    apply guarantees_bind (nextHeaderTimestamp_guarantees consensus _)
    intro rootsTimestamp
    apply guarantees_bind (guarantees_request _)
    intro _
    exact guarantees_bind (resolveHistoricalSummary_guarantees consensus _ _)
      fun _ => trivial

/-- Reading the operators' ranges of keys changes nothing. -/
theorem readRanges_reads
    (keyInfos : List KeyInfo)
    (operatorIds : List Nat) :
    (StakingModuleContract.readRanges keyInfos operatorIds).Guarantees relation := by
  induction operatorIds with
  | nil =>
      trivial
  | cons operatorId rest inductionHypothesis =>
      apply guarantees_bind guarantees_settle
      intro _
      apply guarantees_bind (guarantees_read refl)
      intro world
      exact guarantees_bind inductionHypothesis fun _ => trivial

/-- Reading the added balances of the keys changes nothing. -/
theorem getKeyAddedBalances_reads
    (keyInfos : List KeyInfo) :
    (StakingModuleContract.getKeyAddedBalances keyInfos).Guarantees relation := by
  apply guarantees_bind (readRanges_reads refl keyInfos _)
  intro rangeByOperator
  split
  · trivial
  · exact guarantees_raise _

/-- Asking whether a block is the first of its epoch changes nothing. -/
theorem isFirstBlockInEpoch_reads
    (consensus : Consensus)
    (blockInfo : SupportedBlock) :
    (RootsProcessor.isFirstBlockInEpoch consensus blockInfo).Guarantees relation := by
  apply guarantees_bind (guarantees_read refl)
  intro world
  apply guarantees_bind
  · unfold RootsProcessor.getParentSlot
    split
    · trivial
    · exact guarantees_request _
  · exact fun _ => trivial

end Reading

namespace BalanceFrame

variable {relation : World → World → Prop} (frame : BalanceFrame relation)
variable (config : Config) (consensus : Consensus) (balances : Bool)

include frame

/-- Reading the state. -/
theorem read_guarantees :
    (read : Async World World).Guarantees relation :=
  guarantees_read frame.refl

/-- Choosing the keys whose balance is to be proved changes nothing. -/
theorem getUnprovenBalanceChangeProofs_guarantees
    (currentState : State)
    (keys : InvolvedKeys) :
    (Balances.getUnprovenBalanceChangeProofs config consensus currentState
      keys).Guarantees relation := by
  unfold Balances.getUnprovenBalanceChangeProofs
  split
  · trivial
  · apply guarantees_bind (guarantees_request _)
    intro currentBalances
    apply guarantees_bind (guarantees_request _)
    intro currentExitEpochs
    apply guarantees_bind
    · exact guarantees_call (getKeyAddedBalances_reads frame.refl _)
    · intro addedBalances
      trivial

/-- Sending the balance proofs does what the mined ones do. -/
theorem sendBalanceChangeProofs_guarantees
    (blockHeader : BlockHeaderResponse)
    (state : State)
    (balanceChanges : InvolvedKeys)
    (recentHeader : BlockHeaderResponse) :
    (Balances.sendBalanceChangeProofs config consensus blockHeader state
      balanceChanges recentHeader).Guarantees relation := by
  have buildAndSend
      (recentBlock : RecentBlock) :
      (Balances.buildAndSend config blockHeader state balanceChanges
        recentBlock).Guarantees relation := by
    apply guarantees_bind (work_guarantees _)
    intro payloads
    apply guarantees_bind
    · exact sendPayloads_guarantees (fun _ => frame.balanceMined _ _) payloads
    · intro _
      trivial
  unfold Balances.sendBalanceChangeProofs
  split
  · trivial
  · split
    · apply guarantees_call
      apply guarantees_bind (resolveRecentBlock_reads frame.refl consensus _)
      intro anchor
      exact buildAndSend anchor.1
    · apply guarantees_call
      apply guarantees_bind (nextHeaderTimestamp_guarantees consensus _)
      intro rootsTimestamp
      exact buildAndSend _

/-- The balance duty on some keys does what its mined proofs do. -/
theorem handleBalanceChanges_guarantees
    (blockHeader finalizedHeader : BlockHeaderResponse)
    {getKeys : Async World InvolvedKeys}
    (keys : getKeys.Guarantees relation) :
    (Prover.handleBalanceChanges config consensus balances blockHeader
      finalizedHeader getKeys).Guarantees relation := by
  unfold Prover.handleBalanceChanges
  split
  · trivial
  · apply guarantees_bind keys
    intro keyMap
    split
    · trivial
    · apply guarantees_bind (guarantees_request _)
      intro currentState
      apply guarantees_bind
      · exact guarantees_call
          (frame.getUnprovenBalanceChangeProofs_guarantees config consensus _ _)
      · intro balanceChanges
        exact guarantees_call
          (frame.sendBalanceChangeProofs_guarantees config consensus _ _ _ _)

/-- The balance duty of the parent of a block, on the keys the block involves. -/
theorem handleParentBalances_guarantees
    (blockInfo : SupportedBlock)
    (finalizedHeader : BlockHeaderResponse)
    (involved : InvolvedKeys) :
    (Prover.handleParentBalances config consensus balances blockInfo
      finalizedHeader involved).Guarantees relation := by
  unfold Prover.handleParentBalances
  split
  · trivial
  · apply guarantees_bind (guarantees_request _)
    intro parentHeader
    exact guarantees_call
      (frame.handleBalanceChanges_guarantees config consensus balances _ _ trivial)

/-- The balance duty of a block, on all keys of the index. -/
theorem handleBalanceChangesInBlock_guarantees
    (blockRoot : RootHex)
    (finalizedHeader : BlockHeaderResponse) :
    (Prover.handleBalanceChangesInBlock config consensus balances blockRoot
      finalizedHeader (RootsProcessor.getAllKeys config)).Guarantees relation := by
  unfold Prover.handleBalanceChangesInBlock
  split
  · trivial
  · apply guarantees_bind (guarantees_request _)
    intro blockHeader
    apply guarantees_call
    apply frame.handleBalanceChanges_guarantees
    apply guarantees_bind ((guarantees_modify _).mpr frame.allKeysLookup)
    intro _
    exact guarantees_bind frame.read_guarantees fun _ => trivial

end BalanceFrame

namespace DutyFrame

variable {relation : World → World → Prop} (frame : DutyFrame relation)
variable (config : Config) (consensus : Consensus) (balances : Bool)

include frame

/-- Asking the contract about one key after the other changes nothing. -/
theorem filterUnproven_guarantees
    {ν : Type}
    (kind : ProofKind)
    (keyOf : ν → KeyInfo)
    (entries : List (Nat × ν)) :
    (filterUnproven kind keyOf entries).Guarantees relation := by
  induction entries with
  | nil =>
      trivial
  | cons entry rest inductionHypothesis =>
      apply guarantees_bind guarantees_settle
      intro _
      apply guarantees_bind frame.read_guarantees
      intro world
      apply guarantees_bind inductionHypothesis
      intro unproven
      split <;> trivial

/-- The lookups of the keys are logged. -/
theorem noteLookups_guarantees
    (duty : ProofKind)
    (keyInfoFn : KeyInfoFn)
    (valIndices : List Nat) :
    (noteLookups duty keyInfoFn valIndices).Guarantees relation :=
  (guarantees_modify _).mpr (frame.keyLookups duty keyInfoFn valIndices)

/-- Choosing the slashings to prove logs the lookups. -/
theorem getUnprovenSlashings_guarantees
    (blockInfo : SupportedBlock)
    (keyInfoFn : KeyInfoFn) :
    (Slashings.getUnprovenSlashings blockInfo keyInfoFn).Guarantees relation := by
  apply guarantees_bind frame.read_guarantees
  intro world
  apply guarantees_bind (frame.noteLookups_guarantees _ _ _)
  intro _
  simp only
  split
  · trivial
  · exact frame.filterUnproven_guarantees _ _ _

/-- Sending the slashing proofs does what the mined ones do. -/
theorem sendSlashingProofs_guarantees
    (finalizedHeader : BlockHeaderResponse)
    (slashings : InvolvedKeys) :
    (Slashings.sendSlashingProofs config consensus finalizedHeader
      slashings).Guarantees relation := by
  unfold Slashings.sendSlashingProofs
  split
  · trivial
  · apply guarantees_bind (guarantees_request _)
    intro finalizedState
    apply guarantees_bind (nextHeaderTimestamp_guarantees consensus _)
    intro rootsTimestamp
    apply guarantees_bind (work_guarantees _)
    intro payloads
    apply guarantees_bind
    · exact sendPayloads_guarantees (fun _ => frame.proofMined _ _) payloads
    · intro _
      trivial

/-- Choosing the withdrawals to prove logs the lookups. -/
theorem getUnprovenWithdrawals_guarantees
    (blockInfo : SupportedBlock)
    (keyInfoFn : KeyInfoFn) :
    (Withdrawals.getUnprovenWithdrawals blockInfo keyInfoFn).Guarantees relation := by
  apply guarantees_bind frame.read_guarantees
  intro world
  apply guarantees_bind (frame.noteLookups_guarantees _ _ _)
  intro _
  simp only
  split
  · trivial
  · exact frame.filterUnproven_guarantees _ _ _

/-- Sending the withdrawal proofs does what the mined ones do. -/
theorem sendWithdrawalProofs_guarantees
    (blockRoot : RootHex)
    (blockInfo : SupportedBlock)
    (finalizedHeader : BlockHeaderResponse)
    (withdrawals : List (Nat × Withdrawals.KeyWithWithdrawal)) :
    (Withdrawals.sendWithdrawalProofs config consensus blockRoot blockInfo
      finalizedHeader withdrawals).Guarantees relation := by
  have buildAndSend
      (blockHeader : BlockHeaderResponse)
      (state : State)
      (recentBlock : RecentBlock) :
      (Withdrawals.buildAndSend config consensus blockHeader state withdrawals
        recentBlock).Guarantees relation := by
    apply guarantees_bind (work_guarantees _)
    intro payloads
    apply guarantees_bind
    · exact sendPayloads_guarantees (fun _ => frame.proofMined _ _) payloads
    · intro _
      trivial
  unfold Withdrawals.sendWithdrawalProofs
  split
  · trivial
  · apply guarantees_bind (guarantees_request _)
    intro blockHeader
    apply guarantees_bind (guarantees_request _)
    intro state
    split
    · apply guarantees_call
      apply guarantees_bind (resolveRecentBlock_reads frame.refl consensus _)
      intro anchor
      exact buildAndSend blockHeader state anchor.1
    · apply guarantees_call
      apply guarantees_bind (nextHeaderTimestamp_guarantees consensus _)
      intro rootsTimestamp
      exact buildAndSend blockHeader state _

/-- The slashing duty of a block. -/
theorem handleSlashingsInBlock_guarantees
    (blockInfo : SupportedBlock)
    (finalizedHeader : BlockHeaderResponse)
    (keyInfoFn : KeyInfoFn) :
    (Prover.handleSlashingsInBlock config consensus balances blockInfo
      finalizedHeader keyInfoFn).Guarantees relation := by
  apply guarantees_bind
  · exact guarantees_call (frame.getUnprovenSlashings_guarantees blockInfo keyInfoFn)
  · intro slashings
    apply guarantees_bind
    · exact frame.handleParentBalances_guarantees config consensus balances _ _ _
    · intro balanceSentCount
      apply guarantees_bind
      · exact guarantees_call
          (frame.sendSlashingProofs_guarantees config consensus _ _)
      · intro sentCount
        trivial

/-- The withdrawal duty of a block, with the balances of its parent. -/
theorem handleWithdrawalsInBlock_guarantees
    (blockRoot : RootHex)
    (blockInfo : SupportedBlock)
    (finalizedHeader : BlockHeaderResponse)
    (keyInfoFn : KeyInfoFn) :
    (Prover.handleWithdrawalsInBlock config consensus balances blockRoot blockInfo
      finalizedHeader keyInfoFn).Guarantees relation := by
  apply guarantees_bind
  · exact guarantees_call (frame.getUnprovenWithdrawals_guarantees blockInfo keyInfoFn)
  · intro withdrawals
    apply guarantees_bind
    · exact frame.handleParentBalances_guarantees config consensus balances _ _ _
    · intro balanceSentCount
      apply guarantees_bind
      · exact guarantees_call
          (frame.sendWithdrawalProofs_guarantees config consensus _ _ _ _)
      · intro sentCount
        trivial

/-- Every update of a duty run lies in a relation that frames the duties. -/
theorem runDuties_guarantees
    (blockRootToProcess : RootHex)
    (blockInfo : SupportedBlock)
    (finalizedHeader : BlockHeaderResponse) :
    (RootsProcessor.runDuties config consensus balances blockRootToProcess blockInfo
      finalizedHeader).Guarantees relation := by
  apply guarantees_bind
  · exact guarantees_call
      (frame.handleSlashingsInBlock_guarantees config consensus balances _ _ _)
  · intro _
    apply guarantees_bind
    · exact guarantees_call
        (frame.handleWithdrawalsInBlock_guarantees config consensus balances _ _ _ _)
    · intro _
      apply guarantees_bind
      · exact guarantees_call (isFirstBlockInEpoch_reads frame.refl consensus _)
      · intro isFirst
        split
        · apply guarantees_bind
          · exact guarantees_call
              (frame.handleBalanceChangesInBlock_guarantees config consensus balances _ _)
          · intro _
            trivial
        · trivial

end DutyFrame

end CsmProver
