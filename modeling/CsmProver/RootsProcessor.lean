import CsmProver.Duties

namespace CsmProver

/-!
# Processing one root

`ProverService` runs the duties of one block; `RootsProcessor.processNext` puts
the root into the stack, runs the duties, takes the root out of the stack when
the index is trusted for every duty, and moves the last processed root.
-/

open Async

namespace Prover

section Handlers

-- `balances` says whether the module has the optional balances service.
variable (config : Config) (consensus : Consensus) (balances : Bool)

/-- Without the feature or without keys the state is not even fetched. -/
def handleBalanceChanges (blockHeader finalizedHeader : BlockHeaderResponse)
    (getKeys : Async World InvolvedKeys) : Async World Nat := do
  if ¬ balances then
    return 0
  let keyMap ← getKeys
  if keyMap = [] then
    return 0
  let currentState ← request (consensus.state blockHeader.message.stateRoot)
  let balanceChanges ←
    call (Balances.getUnprovenBalanceChangeProofs config consensus currentState keyMap)
  call (Balances.sendBalanceChangeProofs config consensus blockHeader currentState
    balanceChanges finalizedHeader)

/-- Balance increases of the parent block are reported before the proofs of this one. -/
def handleParentBalances (blockInfo : SupportedBlock)
    (finalizedHeader : BlockHeaderResponse) (involved : InvolvedKeys) :
    Async World Nat := do
  if balances = false ∨ involved = [] then
    return 0
  let parentHeader ← request (consensus.beaconHeader blockInfo.parentRoot)
  call (handleBalanceChanges config consensus balances parentHeader finalizedHeader
    (return involved))

/-- The slashed keys are looked up in the index as it is when the block is read. -/
def handleSlashingsInBlock (blockInfo : SupportedBlock)
    (finalizedHeader : BlockHeaderResponse) (keyInfoFn : KeyInfoFn) :
    Async World Nat := do
  let slashings ← call (Slashings.getUnprovenSlashings blockInfo keyInfoFn)
  let balanceSentCount ←
    handleParentBalances config consensus balances blockInfo finalizedHeader slashings
  let sentCount ←
    call (Slashings.sendSlashingProofs config consensus finalizedHeader slashings)
  return sentCount + balanceSentCount

/-- The same for withdrawals, which are proved against the block itself. -/
def handleWithdrawalsInBlock (blockRoot : RootHex) (blockInfo : SupportedBlock)
    (finalizedHeader : BlockHeaderResponse) (keyInfoFn : KeyInfoFn) :
    Async World Nat := do
  let withdrawals ← call (Withdrawals.getUnprovenWithdrawals blockInfo keyInfoFn)
  let balanceSentCount ←
    handleParentBalances config consensus balances blockInfo finalizedHeader
      (withdrawals.map fun entry => (entry.1, entry.2.keyInfo))
  let sentCount ←
    call (Withdrawals.sendWithdrawalProofs config consensus blockRoot blockInfo
      finalizedHeader withdrawals)
  return sentCount + balanceSentCount

/-- The scan of all keys, made for the first block of an epoch only. -/
def handleBalanceChangesInBlock (blockRoot : RootHex)
    (finalizedHeader : BlockHeaderResponse)
    (getKeys : Async World InvolvedKeys) : Async World Nat := do
  if ¬ balances then
    return 0
  let blockHeader ← request (consensus.beaconHeader blockRoot)
  call (handleBalanceChanges config consensus balances blockHeader finalizedHeader getKeys)

end Handlers

end Prover

namespace RootsProcessor

section Process

variable (config : Config) (consensus : Consensus) (balances : Bool)

/-- The lookup handed to the slashing and withdrawal handlers. -/
def getKey : KeyInfoFn := fun world =>
  KeysIndexer.getKey config world.keysIndexer

/-- The lookup handed to the balance handler, recorded in the log. -/
def getAllKeys : Async World InvolvedKeys := do
  modify fun world =>
    world.record (.allKeysLookup world.keysIndexer.info.storageStateSlot)
  let world ← read
  return KeysIndexer.getAllKeys config world.keysIndexer

/-- The header of the parent is fetched only when it is not the last processed root. -/
def getParentSlot (blockInfo : SupportedBlock) (lastProcessed : Option RootSlot) :
    Async World Nat :=
  match lastProcessed.filter fun last => blockInfo.parentRoot = last.blockRoot with
  | some last => pure last.slotNumber
  | none => request (consensus.beaconHeader blockInfo.parentRoot).message.slot

/-- A block is the first of its epoch when its parent lies in an earlier one. -/
def isFirstBlockInEpoch (blockInfo : SupportedBlock) : Async World Bool := do
  let currentSlot := blockInfo.slot
  let world ← read
  let parentSlot ← getParentSlot consensus blockInfo (RootsStack.getLastProcessed world)
  return consensus.slotToEpoch parentSlot < consensus.slotToEpoch currentSlot

/-- The duties of one block, in the order of the processor. -/
def runDuties (blockRootToProcess : RootHex) (blockInfo : SupportedBlock)
    (finalizedHeader : BlockHeaderResponse) : Async World Unit := do
  let _ ← call (Prover.handleSlashingsInBlock config consensus balances blockInfo
    finalizedHeader (getKey config))
  let _ ← call (Prover.handleWithdrawalsInBlock config consensus balances
    blockRootToProcess blockInfo finalizedHeader (getKey config))
  let isFirst ← call (isFirstBlockInEpoch consensus blockInfo)
  if isFirst then
    let _ ← call (Prover.handleBalanceChangesInBlock config consensus balances
      blockRootToProcess finalizedHeader (getAllKeys config))

/-- The trust check reads the index after all duties have returned. -/
def settleRoot (rootSlot : RootSlot) : Async World Unit := do
  let world ← read
  note (.dutiesReturned rootSlot)
  note (.trustChecked world.keysIndexer.info.storageStateSlot)
  if KeysIndexer.isTrustedForEveryDuty consensus
      world.keysIndexer.info.storageStateSlot rootSlot.slotNumber then
    call (RootsStack.purge rootSlot)
  call (RootsStack.setLastProcessed rootSlot)

/-- `processNext`: push, duties, trust check, and the root is the last processed one. -/
def processNext (blockRootToProcess : RootHex) (finalizedHeader : BlockHeaderResponse) :
    Async World Unit := do
  let blockInfoToProcess ← request (consensus.blockInfo blockRootToProcess)
  let rootSlot : RootSlot :=
    { blockRoot := blockRootToProcess, slotNumber := blockInfoToProcess.slot }
  -- In case of a revert the root is processed again.
  call (RootsStack.push rootSlot)
  runDuties config consensus balances blockRootToProcess blockInfoToProcess
    finalizedHeader
  settleRoot consensus rootSlot

end Process

end RootsProcessor

namespace Daemon

/--
The part of `DaemonService.baseRun` that takes the next root and processes it.
One root is in processing at a time.
-/
def walkNext (config : Config) (consensus : Consensus) (balances : Bool)
    (finalizedHeader : BlockHeaderResponse) : Async World Unit := do
  let nextRoot ← call (RootsProvider.getNext config consensus finalizedHeader)
  match nextRoot with
  | none => tick
  | some nextRoot =>
      call (RootsProcessor.processNext config consensus balances nextRoot finalizedHeader)

end Daemon

end CsmProver
