import CsmProver.RootsStack

namespace CsmProver

/-!
# Proof duties

Slashings, full withdrawals and balance changes of one block: which keys the
block involves, which of them the contract does not know yet, the payloads the
workers build for them, and the transactions sent one after the other.

Merkle witnesses are not modelled.  A worker that fails to build or to verify a
proof rejects its promise, which every `settle` allows.

The duties see a transaction from outside, and no theorem ties this view to the
attempts, fees and nonces of the execution client.  A transaction whose wait fails
counts as not mined here; on chain it may still be mined after the duty has failed.
-/

open Std (TreeMap)
open Async

/-- Involved keys in validator-index order. -/
abbrev InvolvedKeys := List (Nat × KeyInfo)

/-- A key lookup reads the index when it is called. -/
abbrev KeyInfoFn := World → Nat → Option KeyInfo

/-- The lookups of one synchronous block, in the order of the calls. -/
def lookupEvents (duty : ProofKind) (keyInfoFn : KeyInfoFn) (valIndices : List Nat)
    (world : World) : List Event :=
  valIndices.map fun valIndex =>
    .keyLookup duty world.keysIndexer.info.storageStateSlot valIndex
      (keyInfoFn world valIndex)

/-- Record the lookups of one synchronous block. -/
def noteLookups (duty : ProofKind) (keyInfoFn : KeyInfoFn) (valIndices : List Nat) :
    Async World Unit :=
  .modify fun world =>
    { world with log := world.log ++ lookupEvents duty keyInfoFn valIndices world }

/-- Promises the contract answers one by one: the entries it has not proved. -/
def filterUnproven {ν : Type} (kind : ProofKind) (keyOf : ν → KeyInfo) :
    List (Nat × ν) → Async World (List (Nat × ν))
  | [] => return []
  | entry :: rest => do
      settle
      let world ← read
      let unproven ← filterUnproven kind keyOf rest
      if world.stakingModule.proved kind (keyOf entry.2).id then
        return unproven
      return entry :: unproven

/-! ## Payloads -/

/-- What a payload says of its validator, and of the key it is reported for. -/
structure ValidatorPayload where
  index : Nat
  nodeOperatorId : Nat
  keyIndex : Nat
  object : Validator
  deriving DecidableEq

def ValidatorPayload.key (payload : ValidatorPayload) : KeyId :=
  (payload.nodeOperatorId, payload.keyIndex)

/-- A header and the timestamp under which its root is found on chain. -/
structure RecentBlock where
  header : BlockHeaderResponse
  rootsTimestamp : Int
  deriving DecidableEq

/-- The loop of a worker over the involved keys; a body that returns `none` skips. -/
def buildPayloads {ν π : Type} (build : Nat → ν → Except Abort (Option π)) :
    List (Nat × ν) → Except Abort (List π)
  | [] => return []
  | (valIndex, involved) :: rest => do
      let payload ← build valIndex involved
      let payloads ← buildPayloads build rest
      return payload.toList ++ payloads

/-- `validators.getReadonly(valIndex)`; an index outside the list is an error. -/
def getValidator (state : State) (valIndex : Nat) : Except Abort Validator :=
  match state.validators[valIndex]? with
  | some validator => .ok validator
  | none => .error .rejected

/-- A validator with another key than the index has for it ends the report. -/
def checkPubkey (validator : Validator) (keyInfo : KeyInfo) : Except Abort Unit :=
  if validator.pubkey ≠ keyInfo.pubKey then
    .error (.thrown "Validator pubkey mismatch")
  else
    .ok ()

def validatorPayload (valIndex : Nat) (keyInfo : KeyInfo) (validator : Validator) :
    ValidatorPayload where
  index := valIndex
  nodeOperatorId := keyInfo.operatorId
  keyIndex := keyInfo.keyIndex
  object := validator

/-- Await a worker: its answer, or the error it fails with. -/
def work {α : Type} (result : Except Abort α) : Async World α := do
  settle
  match result with
  | .ok value => return value
  | .error reason => .fail reason

/-! ## Sending -/

/-- Transactions are sent: there is a signer and no dry run. -/
def Live (config : Config) : Prop :=
  config.txSignerPrivateKey.isSome ∧ ¬ config.dryRun

instance (config : Config) : Decidable (Live config) :=
  inferInstanceAs (Decidable (_ ∧ _))

/--
`Execution.execute`, seen from its callers: a transaction that is populated and
emulated, and sent when there is a signer and no dry run.  It resolves when the
transaction is mined, with the given effect on the chain, and it rejects without one:
what is mined after a failed wait is left out.
-/
def execute (config : Config) (mined : World → World) : Async World Unit := do
  settle
  if Live config then
    settle
    modify mined
    tick

/-- The effect of a mined slashing or withdrawal proof. -/
def proofMined (kind : ProofKind) (key : KeyId) (world : World) : World :=
  { world with stakingModule := world.stakingModule.prove kind key }.record
    (.proofResolved kind key)

/-- What the contract makes of a mined balance proof is not modelled. -/
def balanceMined (key : KeyId) (balanceGwei : Nat) (world : World) : World :=
  world.record (.balanceProofResolved key balanceGwei)

/-- Send the payloads one after the other; the first failure stops the loop. -/
def sendPayloads {π : Type} (config : Config) (mined : π → World → World)
    (payloads : List π) : Async World Unit :=
  forEach payloads fun payload => call (execute config (mined payload))

/-! ## Headers and summaries -/

def nextHeaderNotFound (root : RootHex) : String :=
  "Next canonical block header after " ++ toString root ++ " not found"

/-- The timestamp of the canonical child of a root. -/
def nextHeaderTimestamp (consensus : Consensus) (root : RootHex) : Async World Int := do
  let headers ← request (consensus.beaconHeadersByParentRoot root)
  match firstCanonical headers.data with
  | none => raise (nextHeaderNotFound root)
  | some nextHeader => return consensus.slotToTimestamp nextHeader.message.slot

/-- Whether a block is too old for the recent block roots of the finalized state. -/
def isHistoricalBlock (consensus : Consensus) (slot finalizedSlot : Nat) : Bool :=
  let finalizationBufferEpochs := 2
  let finalizationBufferSlots := consensus.epochToSlot finalizationBufferEpochs
  (finalizedSlot : Int) - slot ≥
    (consensus.beaconConfig.slotsPerHistoricalRoot : Int) - finalizationBufferSlots

structure HistoricalSummaryInfo where
  summaryIndex : Nat
  summarySlot : Nat
  rootIndex : Nat
  deriving Repr, DecidableEq

/--
A block before Capella has no summary; otherwise the place of its root follows from its
slot.
-/
def getHistoricalSummaryInfo (consensus : Consensus) (targetSlot : Nat) :
    Option HistoricalSummaryInfo :=
  let capellaForkSlot := consensus.epochToSlot consensus.beaconConfig.capellaForkEpoch
  let slotsPerHistoricalRoot := consensus.beaconConfig.slotsPerHistoricalRoot
  if targetSlot < capellaForkSlot then
    none
  else
    let summaryIndex := (targetSlot - capellaForkSlot) / slotsPerHistoricalRoot
    some
      { summaryIndex := summaryIndex
        rootIndex := targetSlot % slotsPerHistoricalRoot
        summarySlot := capellaForkSlot + (summaryIndex + 1) * slotsPerHistoricalRoot }

/-- `resolveHistoricalSummaryContext`, with the errors its callers throw. -/
def resolveHistoricalSummary (consensus : Consensus) (finalizedSlot targetSlot : Nat) :
    Async World HistoricalSummaryInfo := do
  match getHistoricalSummaryInfo consensus targetSlot with
  | none =>
      tick
      raise "Historical summary is not available before Capella fork slot"
  | some summaryInfo =>
      if summaryInfo.summarySlot > finalizedSlot then
        tick
        raise
          ("Historical summary is not available yet (summary slot " ++
            toString summaryInfo.summarySlot ++ ")")
      let _summaryState ← request (consensus.stateAtSlot summaryInfo.summarySlot)
      tick
      return summaryInfo

/-- `getBeaconHeader('finalized')`. -/
def getFinalizedHeader : Async World BlockHeaderResponse := do
  settle
  let world ← read
  return world.finalizedHeader

/--
The anchor of a historical proof: the finalized header as it is now, the
timestamp of its child, and the summary that covers the proved slot.
-/
def resolveRecentBlock (consensus : Consensus) (targetSlot : Nat) :
    Async World (RecentBlock × HistoricalSummaryInfo) := do
  let finalizedHeader ← getFinalizedHeader
  let rootsTimestamp ← nextHeaderTimestamp consensus finalizedHeader.root
  let _finalizedState ← request (consensus.state finalizedHeader.message.stateRoot)
  let summaryInfo ←
    resolveHistoricalSummary consensus finalizedHeader.message.slot targetSlot
  return ({ header := finalizedHeader, rootsTimestamp := rootsTimestamp }, summaryInfo)

/-! ## Slashings -/

namespace Slashings

/-- The known keys of the given validators, under their indices. -/
def knownKeys (keyInfoFn : Nat → Option KeyInfo) (valIndices : List Nat) :
    TreeMap Nat KeyInfo :=
  valIndices.foldl
    (fun slashed valIndex =>
      match keyInfoFn valIndex with
      | none => slashed
      | some keyInfo => slashed.insert valIndex keyInfo)
    ∅

/-- Validators that attested twice, by attester slashing. -/
def accusedAttesters (blockInfo : SupportedBlock) : List Nat :=
  blockInfo.attesterSlashings.flatMap fun att =>
    att.attestation1.attestingIndices.filter fun valIndex =>
      att.attestation2.attestingIndices.contains valIndex

/-- The proposers that the block has slashed. -/
def accusedProposers (blockInfo : SupportedBlock) : List Nat :=
  blockInfo.proposerSlashings.map (·.proposerIndex)

/-- Those of the slashed attesters that the index knows. -/
def getSlashedAttesters (blockInfo : SupportedBlock)
    (keyInfoFn : Nat → Option KeyInfo) : TreeMap Nat KeyInfo :=
  knownKeys keyInfoFn (accusedAttesters blockInfo)

/-- Those of the slashed proposers that the index knows. -/
def getSlashedProposers (blockInfo : SupportedBlock)
    (keyInfoFn : Nat → Option KeyInfo) : TreeMap Nat KeyInfo :=
  knownKeys keyInfoFn (accusedProposers blockInfo)

/-- Proposers and attesters are spread into one object: an index appears once. -/
def getSlashed (blockInfo : SupportedBlock) (keyInfoFn : Nat → Option KeyInfo) :
    InvolvedKeys :=
  (KeysIndexer.assign (getSlashedProposers blockInfo keyInfoFn)
    (getSlashedAttesters blockInfo keyInfoFn)).toList

/-- The slashed keys of a block that the contract has not seen slashed. -/
def getUnprovenSlashings (blockInfo : SupportedBlock) (keyInfoFn : KeyInfoFn) :
    Async World InvolvedKeys := do
  let world ← read
  noteLookups .slashing keyInfoFn
    (accusedProposers blockInfo ++ accusedAttesters blockInfo)
  let slashings := getSlashed blockInfo (keyInfoFn world)
  if slashings = [] then
    return []
  filterUnproven .slashing id slashings

structure ProcessSlashedInput where
  validator : ValidatorPayload
  recentBlock : RecentBlock
  deriving DecidableEq

/-- The `build-slashing-proof-payloads` worker; it does not compare public keys. -/
def buildSlashingProofPayload (state : State) (recentBlock : RecentBlock)
    (valIndex : Nat) (keyInfo : KeyInfo) : Except Abort (Option ProcessSlashedInput) := do
  let validator ← getValidator state valIndex
  return some
    { validator := validatorPayload valIndex keyInfo validator
      recentBlock := recentBlock }

/-- The keys found slashed are proved in the finalized state, one transaction each. -/
def sendSlashingProofs (config : Config) (consensus : Consensus)
    (finalizedHeader : BlockHeaderResponse) (slashings : InvolvedKeys) :
    Async World Nat := do
  if slashings = [] then
    return 0
  let finalizedState ← request (consensus.state finalizedHeader.message.stateRoot)
  let rootsTimestamp ← nextHeaderTimestamp consensus finalizedHeader.root
  let recentBlock : RecentBlock :=
    { header := finalizedHeader, rootsTimestamp := rootsTimestamp }
  let payloads ← work
    (buildPayloads (buildSlashingProofPayload finalizedState recentBlock) slashings)
  sendPayloads config (fun payload => proofMined .slashing payload.validator.key) payloads
  return payloads.length

end Slashings

/-! ## Withdrawals -/

namespace Withdrawals

/-- 8 ETH in Gwei. -/
def FULL_WITHDRAWAL_MIN_AMOUNT : Nat :=
  8 * 10 ^ 9

/-- A key with its last full withdrawal of the block and the position of it there. -/
structure KeyWithWithdrawal where
  keyInfo : KeyInfo
  withdrawal : Withdrawal
  offset : Nat
  deriving Repr, DecidableEq

/-- The loop over the withdrawals of a payload, from the given offset on. -/
def collectFullWithdrawals (keyInfoFn : Nat → Option KeyInfo) (offset : Nat)
    (fullWithdrawals : TreeMap Nat KeyWithWithdrawal) :
    List Withdrawal → TreeMap Nat KeyWithWithdrawal
  | [] => fullWithdrawals
  | withdrawal :: rest =>
      let collected :=
        match keyInfoFn withdrawal.validatorIndex with
        | none => fullWithdrawals
        | some keyInfo =>
            if withdrawal.amount < FULL_WITHDRAWAL_MIN_AMOUNT then
              fullWithdrawals
            else
              fullWithdrawals.insert withdrawal.validatorIndex
                { keyInfo := keyInfo, withdrawal := withdrawal, offset := offset }
      collectFullWithdrawals keyInfoFn (offset + 1) collected rest

/-- A validator with several full withdrawals keeps the last one. -/
def getFullWithdrawals (keyInfoFn : Nat → Option KeyInfo) (blockInfo : SupportedBlock) :
    List (Nat × KeyWithWithdrawal) :=
  (collectFullWithdrawals keyInfoFn 0 ∅ blockInfo.withdrawals).toList

/-- The fully withdrawn keys of a block whose withdrawal is not proved. -/
def getUnprovenWithdrawals (blockInfo : SupportedBlock) (keyInfoFn : KeyInfoFn) :
    Async World (List (Nat × KeyWithWithdrawal)) := do
  let world ← read
  noteLookups .withdrawal keyInfoFn (blockInfo.withdrawals.map (·.validatorIndex))
  let withdrawals := getFullWithdrawals (keyInfoFn world) blockInfo
  if withdrawals = [] then
    return []
  filterUnproven .withdrawal (·.keyInfo) withdrawals

structure ProcessWithdrawalInput where
  offset : Nat
  withdrawal : Withdrawal
  validator : ValidatorPayload
  withdrawalBlock : BlockHeaderResponse
  recentBlock : RecentBlock
  deriving DecidableEq

/--
The two withdrawal workers, which differ in the block their witnesses lead to.
Slashed validators and partial withdrawals are skipped.
-/
def buildWithdrawalProofPayload (state : State) (epoch : Nat)
    (withdrawalBlock : BlockHeaderResponse) (recentBlock : RecentBlock)
    (valIndex : Nat) (involved : KeyWithWithdrawal) :
    Except Abort (Option ProcessWithdrawalInput) := do
  let validator ← getValidator state valIndex
  checkPubkey validator involved.keyInfo
  if validator.slashed then
    return none
  if (epoch : EpochInf) < validator.withdrawableEpoch then
    return none
  return some
    { offset := involved.offset
      withdrawal := involved.withdrawal
      validator := validatorPayload valIndex involved.keyInfo validator
      withdrawalBlock := withdrawalBlock
      recentBlock := recentBlock }

section Send

variable (config : Config) (consensus : Consensus)
variable (blockHeader : BlockHeaderResponse) (blockInfo : SupportedBlock) (state : State)
variable (withdrawals : List (Nat × KeyWithWithdrawal))

/-- The workers take the epoch of the header, not of the block. -/
def buildAndSend (recentBlock : RecentBlock) : Async World Nat := do
  let epoch := consensus.slotToEpoch blockHeader.message.slot
  let payloads ← work
    (buildPayloads
      (buildWithdrawalProofPayload state epoch blockHeader recentBlock) withdrawals)
  sendPayloads config (fun payload => proofMined .withdrawal payload.validator.key) payloads
  return payloads.length

/-- A recent withdrawal is proved by the root of its own block. -/
def sendGeneralWithdrawalProofs : Async World Nat := do
  let rootsTimestamp ← nextHeaderTimestamp consensus blockHeader.root
  buildAndSend config consensus blockHeader state withdrawals
    { header := blockHeader, rootsTimestamp := rootsTimestamp }

/-- An old withdrawal is proved by a summary of a recent block. -/
def sendHistoricalWithdrawalProofs : Async World Nat := do
  let (recentBlock, _) ← resolveRecentBlock consensus blockInfo.slot
  buildAndSend config consensus blockHeader state withdrawals recentBlock

end Send

/-- `sendWithdrawalProofs`: one of the two ways for the whole block. -/
def sendWithdrawalProofs (config : Config) (consensus : Consensus) (blockRoot : RootHex)
    (blockInfo : SupportedBlock) (finalizedHeader : BlockHeaderResponse)
    (withdrawals : List (Nat × KeyWithWithdrawal)) : Async World Nat := do
  if withdrawals = [] then
    return 0
  let blockHeader ← request (consensus.beaconHeader blockRoot)
  let state ← request (consensus.state blockHeader.message.stateRoot)
  if isHistoricalBlock consensus blockInfo.slot finalizedHeader.message.slot then
    call (sendHistoricalWithdrawalProofs config consensus blockHeader blockInfo state withdrawals)
  else
    call (sendGeneralWithdrawalProofs config consensus blockHeader state withdrawals)

end Withdrawals

/-! ## Added balances -/

/-- `getKeyConfirmedBalances`: the values of `count` keys from `start` on. -/
def StakingModule.getKeyConfirmedBalances (stakingModule : StakingModule)
    (operatorId start count : Nat) : List Nat :=
  (List.range count).map fun offset =>
    stakingModule.keyAddedBalance (operatorId, start + offset)

namespace StakingModuleContract

/-- The values read for one operator; the first one is that of the key `start`. -/
structure OperatorRange where
  start : Nat
  balances : List Nat
  deriving Repr, DecidableEq

/-- The key indexes of an operator, in the order of the keys. -/
def keyIndexesOf (keyInfos : List KeyInfo) (operatorId : Nat) : List Nat :=
  (keyInfos.filter fun keyInfo => keyInfo.operatorId = operatorId).map (·.keyIndex)

/-- One contiguous range for the candidate keys of an operator, gaps included. -/
def readRange (keyInfos : List KeyInfo) (stakingModule : StakingModule)
    (operatorId : Nat) : OperatorRange :=
  let keyIndexes := keyIndexesOf keyInfos operatorId
  let start := keyIndexes.min?.getD 0
  let count := keyIndexes.max?.getD 0 - start + 1
  { start := start
    balances := stakingModule.getKeyConfirmedBalances operatorId start count }

/-- The ranges are requested together; each is answered on its own. -/
def readRanges (keyInfos : List KeyInfo) :
    List Nat → Async World (List (Nat × OperatorRange))
  | [] => return []
  | operatorId :: rest => do
      settle
      let world ← read
      let ranges ← readRanges keyInfos rest
      return (operatorId, readRange keyInfos world.stakingModule operatorId) :: ranges

/-- The balance of a key in the range of its operator. -/
def balanceIn (rangeByOperator : List (Nat × OperatorRange)) (keyInfo : KeyInfo) :
    Option Nat := do
  let range ← rangeByOperator.lookup keyInfo.operatorId
  range.balances[keyInfo.keyIndex - range.start]?

/-- A balance that the ranges do not give ends the scan. -/
def getKeyAddedBalances (keyInfos : List KeyInfo) : Async World (List Nat) := do
  let operatorIds := (keyInfos.map (·.operatorId)).eraseDups
  let rangeByOperator ← readRanges keyInfos operatorIds
  match keyInfos.mapM (balanceIn rangeByOperator) with
  | some balances => return balances
  | none => raise "Cannot mix BigInt and other types, use explicit conversions"

end StakingModuleContract

/-! ## Balances -/

namespace Balances

/-- The comparisons are between integers: the reportable maximum may be negative. -/
def isProvableBalance (config : Config) (consensus : Consensus)
    (keyAddedBalanceWei balanceGwei : Nat) (exitEpoch : Option EpochInf) : Bool :=
  let minActivationBalanceGwei : Int := consensus.beaconConfig.minActivationBalance
  let maxEffectiveBalanceGwei : Int := consensus.beaconConfig.maxEffectiveBalanceElectra
  let reportableMaxGwei := maxEffectiveBalanceGwei - config.balanceProofTopupStepGwei
  let keyConfirmedBalanceGwei := keyAddedBalanceWei / 1000000000
  let confirmedBalanceGwei := minActivationBalanceGwei + keyConfirmedBalanceGwei
  if reportableMaxGwei ≤ confirmedBalanceGwei then
    false
  else if (balanceGwei : Int) ≤ confirmedBalanceGwei then
    false
  else
    let balanceDeltaGwei := balanceGwei - confirmedBalanceGwei
    balanceDeltaGwei > config.balanceProofMinDeltaGwei ||
      exitEpoch ≠ some ⊤ ||
      (balanceGwei : Int) ≥ reportableMaxGwei

/-- The `get-validator-balances` and `get-validator-exit-epochs` workers are two reads. -/
def getUnprovenBalanceChangeProofs (config : Config) (consensus : Consensus)
    (currentState : State) (keys : InvolvedKeys) : Async World InvolvedKeys := do
  if keys = [] then
    return []
  let currentBalances ← request currentState.balances
  let currentExitEpochs ← request (currentState.validators.map (·.exitEpoch))
  let entries := keys.filter fun entry =>
    match currentBalances[entry.1]? with
    | none => false
    | some balance => balance > consensus.beaconConfig.minActivationBalance
  let addedBalances ← call (StakingModuleContract.getKeyAddedBalances (entries.map (·.2)))
  let provable := (entries.zip addedBalances).filter fun candidate =>
    isProvableBalance config consensus candidate.2
      (currentBalances[candidate.1.1]?.getD 0) currentExitEpochs[candidate.1.1]?
  return provable.map (·.1)

structure ProcessBalanceProofInput where
  validator : ValidatorPayload
  balance : Nat
  balanceBlock : BlockHeaderResponse
  recentBlock : RecentBlock
  deriving DecidableEq

/-- The two balance workers. -/
def buildBalanceProofPayload (state : State) (balanceBlock : BlockHeaderResponse)
    (recentBlock : RecentBlock) (valIndex : Nat) (keyInfo : KeyInfo) :
    Except Abort (Option ProcessBalanceProofInput) := do
  let validator ← getValidator state valIndex
  checkPubkey validator keyInfo
  return some
    { validator := validatorPayload valIndex keyInfo validator
      balance := state.balances[valIndex]?.getD 0
      balanceBlock := balanceBlock
      recentBlock := recentBlock }

section Send

variable (config : Config) (consensus : Consensus)
variable (blockHeader : BlockHeaderResponse) (state : State)
variable (balanceChanges : InvolvedKeys)

/-- All payloads are built before the first transaction. -/
def buildAndSend (recentBlock : RecentBlock) : Async World Nat := do
  let payloads ← work
    (buildPayloads (buildBalanceProofPayload state blockHeader recentBlock) balanceChanges)
  sendPayloads config
    (fun payload => balanceMined payload.validator.key payload.balance) payloads
  return payloads.length

/-- Balances of a recent block are proved by its own root. -/
def sendGeneralBalanceProofs : Async World Nat := do
  let rootsTimestamp ← nextHeaderTimestamp consensus blockHeader.root
  buildAndSend config blockHeader state balanceChanges
    { header := blockHeader, rootsTimestamp := rootsTimestamp }

/-- Balances of an old block are proved by a summary. -/
def sendHistoricalBalanceProofs : Async World Nat := do
  let (recentBlock, _) ← resolveRecentBlock consensus blockHeader.message.slot
  buildAndSend config blockHeader state balanceChanges recentBlock

def sendBalanceChangeProofs (recentHeader : BlockHeaderResponse) : Async World Nat := do
  if balanceChanges = [] then
    return 0
  if isHistoricalBlock consensus blockHeader.message.slot recentHeader.message.slot then
    call (sendHistoricalBalanceProofs config consensus blockHeader state balanceChanges)
  else
    call (sendGeneralBalanceProofs config consensus blockHeader state balanceChanges)

end Send

end Balances

end CsmProver
