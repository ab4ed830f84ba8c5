import Mathlib.Data.List.Sort
import CsmProver.Duties

namespace CsmProver

/-!
# Bad performers

`BadPerformersService` finds the keys whose strikes reach the threshold of their
operator's curve and reports them in batches.  It remembers four values between
rounds: the strikes tree it worked on, the thresholds and the curve ids it
worked under, and the root of the tree it has finished with.

The four values are private and rounds never overlap, so nothing else moves
while a round waits.  The lookup of keys is fixed during a round here.  The source
asks the index about one leaf after the other and awaits the threshold of each, so
an update of the index that commits in between could change the later answers.

What a round reads from outside, and which of its requests fail, is given by a
`StrikesReads`.  The exit penalties the contract stores belong to the state: a round
reads them at its finalized block and its mined batches add to them.  The log and
the payloads beside it are ghosts.
-/

open Async

/-! ## State -/

/-- A `Map` as its entries; a key is entered once. -/
abbrev NumberMap := List (Nat × Nat)

/-- What the service remembers between rounds. -/
structure BadPerformersFields where
  currentStrikesTree : Option StrikesTree
  currentStrikesThresholdsByCurveId : NumberMap
  currentNodeOperatorsCurveIds : NumberMap
  lastProcessedStrikesTreeRoot : Option Nat
  deriving Repr, DecidableEq

/-- A service that has just been constructed. -/
def BadPerformersFields.initial : BadPerformersFields where
  currentStrikesTree := none
  currentStrikesThresholdsByCurveId := []
  currentNodeOperatorsCurveIds := []
  lastProcessedStrikesTreeRoot := none

/-- A strikes penalty the contract holds for a key since the given block. -/
structure ExitPenalty where
  operatorId : Nat
  pubKey : PubKey
  block : Nat
  deriving Repr, DecidableEq

/-- What a payload says of one key. -/
structure KeyStrikes where
  nodeOperatorId : Nat
  keyIndex : Nat
  data : List Nat
  deriving Repr, DecidableEq

/-- A call of the strikes contract: the leaves it proves and what it says of them. -/
structure BadPerformanceProof where
  leaves : List StrikesTreeLeaf
  keyStrikesList : List KeyStrikes
  deriving Repr, DecidableEq

/-- What a round of the service did. -/
inductive StrikesEvent where
  | roundStarted
  | skipped (tree : StrikesTree) (thresholds curveIds : NumberMap)
  | found (thresholds curveIds : NumberMap) (leaf : StrikesTreeLeaf)
  | batchSent (leaves : List StrikesTreeLeaf)
  | batchMined (leaves : List StrikesTreeLeaf) (block : Nat)
  | batchResolved (leaves : List StrikesTreeLeaf)
  deriving Repr, DecidableEq

/-- The service, the penalties on chain, and what was sent and logged. -/
structure StrikesWorld where
  badPerformers : BadPerformersFields
  exitPenalties : List ExitPenalty
  payloads : List BadPerformanceProof
  log : List StrikesEvent
  deriving Repr, DecidableEq

namespace StrikesWorld

/-- A service and a chain without a history. -/
def fresh : StrikesWorld where
  badPerformers := .initial
  exitPenalties := []
  payloads := []
  log := []

/-- Append one event to the log. -/
def record (world : StrikesWorld) (event : StrikesEvent) : StrikesWorld :=
  { world with log := world.log ++ [event] }

/-- Logging leaves the service alone. -/
@[simp] theorem record_badPerformers
    (world : StrikesWorld)
    (event : StrikesEvent) :
    (world.record event).badPerformers = world.badPerformers :=
  rfl

/-- Logging leaves the penalties alone. -/
@[simp] theorem record_exitPenalties
    (world : StrikesWorld)
    (event : StrikesEvent) :
    (world.record event).exitPenalties = world.exitPenalties :=
  rfl

/-- Logging leaves the payloads alone. -/
@[simp] theorem record_payloads
    (world : StrikesWorld)
    (event : StrikesEvent) :
    (world.record event).payloads = world.payloads :=
  rfl

/-- Logging appends to the log. -/
@[simp] theorem record_log
    (world : StrikesWorld)
    (event : StrikesEvent) :
    (world.record event).log = world.log ++ [event] :=
  rfl

/-- Log that a batch is sent, and keep its payload. -/
def submit (world : StrikesWorld) (payload : BadPerformanceProof) : StrikesWorld :=
  { world with payloads := world.payloads ++ [payload] }.record (.batchSent payload.leaves)

/-- Sending leaves the service alone. -/
@[simp] theorem submit_badPerformers
    (world : StrikesWorld)
    (payload : BadPerformanceProof) :
    (world.submit payload).badPerformers = world.badPerformers :=
  rfl

/-- Sending leaves the penalties alone. -/
@[simp] theorem submit_exitPenalties
    (world : StrikesWorld)
    (payload : BadPerformanceProof) :
    (world.submit payload).exitPenalties = world.exitPenalties :=
  rfl

/-- Sending keeps the payload. -/
@[simp] theorem submit_payloads
    (world : StrikesWorld)
    (payload : BadPerformanceProof) :
    (world.submit payload).payloads = world.payloads ++ [payload] :=
  rfl

/-- Sending is logged. -/
@[simp] theorem submit_log
    (world : StrikesWorld)
    (payload : BadPerformanceProof) :
    (world.submit payload).log = world.log ++ [.batchSent payload.leaves] :=
  rfl

/-- The process starts again: the service forgets, the chain does not. -/
def restart (world : StrikesWorld) : StrikesWorld :=
  { world with badPerformers := .initial }

end StrikesWorld

/-! ## What a round reads -/

/-- A full key with its place in the tree and the strikes found there. -/
structure BadPerformer extends FullKeyInfo where
  leafIndex : Nat
  strikesData : List Nat
  deriving Repr, DecidableEq

/-- The pair under which the staking module stores the key. -/
def BadPerformer.id (key : BadPerformer) : KeyId :=
  (key.operatorId, key.keyIndex)

/-- The strikes of a key, as the tree has them. -/
def BadPerformer.leaf (key : BadPerformer) : StrikesTreeLeaf where
  nodeOperatorId := key.operatorId
  pubKey := key.pubKey
  strikesData := key.strikesData

/-- The requests of a round; the batches are counted from 0. -/
inductive StrikesRequest where
  | exitLimitAtStart
  | blockInfo
  | treeRoot
  | treeCid
  | ipfs
  | curvesCount
  | strikeParams (curveId : Nat)
  | bondCurveId (nodeOperatorId : Nat)
  | isEjectionProved (key : BadPerformer)
  | isWithdrawalProved (key : BadPerformer)
  | exitLimitAtSend
  | sendBadPerformanceProof (batch : Nat)
  deriving Repr, DecidableEq

/--
The order in which the library proves the requested leaves of a tree.  It is the
library's own, but no leaf is left out or proved twice.
-/
structure MultiProofOrder where
  order : StrikesTree → List Nat → List Nat
  requested : ∀ strikesTree leavesIndices,
    (order strikesTree leavesIndices).Perm leavesIndices

/-- The leaves in the order in which they are requested. -/
def MultiProofOrder.asRequested : MultiProofOrder where
  order := fun _ leavesIndices => leavesIndices
  requested := fun _ leavesIndices => .refl leavesIndices

/-- Answers to the requests of one round, and the requests that fail instead. -/
structure StrikesReads where
  exitLimitAtStart : Nat
  treeRoot : BlockHash → Nat
  treeCid : BlockHash → String
  ipfs : String → StrikesTree
  curvesCount : BlockHash → Nat
  strikeThreshold : BlockHash → Nat → Nat
  bondCurveId : BlockHash → Nat → Nat
  blockNumber : BlockHash → Nat
  stakingModule : StakingModule
  multiProofOrder : MultiProofOrder
  exitLimitAtSend : Nat
  minedAt : Nat → Nat
  failure : StrikesRequest → Option Abort

/-- A lookup by public key. -/
abbrev FullKeyInfoByPubKeyFn := PubKey → Option FullKeyInfo

namespace BadPerformers

section Reads

variable {α β : Type} (reads : StrikesReads)

/-- Await one request. -/
def ask (request : StrikesRequest) (answer : α) : Async StrikesWorld α := do
  tick
  match reads.failure request with
  | none => return answer
  | some reason => .fail reason

/-- `Promise.all` over the requests of a list. -/
def askAll (items : List β) (request : β → StrikesRequest) (answer : β → α) :
    Async StrikesWorld (List α) := do
  forEach items fun item => ask reads (request item) ()
  return items.map answer

/-- The contract names a CID; `0x` stands for none. -/
def isPublished (blockTag : BlockHash) : Bool :=
  reads.treeCid blockTag ≠ "" && reads.treeCid blockTag ≠ "0x"

/-- The error of a tree that is not the published one. -/
def unexpectedTreeRoot (treeCid : String) : String :=
  "Unexpected Tree root from Tree CID " ++ treeCid

/-- Load the tree of a CID and check its root. -/
def loadStrikesTree (treeRoot : Nat) (treeCid : String) :
    Async StrikesWorld (Option StrikesTree) := do
  let tree ← ask reads .ipfs (reads.ipfs treeCid)
  if tree.root ≠ treeRoot then
    raise (unexpectedTreeRoot treeCid)
  return some tree

/-- The published tree, loaded unless the service holds it already. -/
def getStrikesTree (blockTag : BlockHash) : Async StrikesWorld (Option StrikesTree) := do
  let treeRoot ← ask reads .treeRoot (reads.treeRoot blockTag)
  let treeCid ← ask reads .treeCid (reads.treeCid blockTag)
  if isPublished reads blockTag then
    let world ← read
    match world.badPerformers.currentStrikesTree with
    | none => loadStrikesTree reads treeRoot treeCid
    | some currentStrikesTree =>
        if currentStrikesTree.root = treeRoot then
          return some currentStrikesTree
        loadStrikesTree reads treeRoot treeCid
  else
    return none

/-- The threshold of every curve. -/
def getStrikesThresholds (blockTag : BlockHash) : Async StrikesWorld NumberMap := do
  let curvesCount ← ask reads .curvesCount (reads.curvesCount blockTag)
  askAll reads (List.range curvesCount) .strikeParams fun curveId =>
    (curveId, reads.strikeThreshold blockTag curveId)

/-- The operators of a tree, each once. -/
def nodeOperatorIds (strikesTree : StrikesTree) : List Nat :=
  (strikesTree.leaves.map (·.nodeOperatorId)).eraseDups

/-- The curve of every operator of the tree. -/
def getNodeOperatorsCurveIds (strikesTree : StrikesTree) (blockTag : BlockHash) :
    Async StrikesWorld NumberMap :=
  askAll reads (nodeOperatorIds strikesTree) .bondCurveId fun nodeOperatorId =>
    (nodeOperatorId, reads.bondCurveId blockTag nodeOperatorId)

end Reads

/-! ## Preparing the tree -/

/-- The service has finished with the tree of this root. -/
def isStrikesTreeAlreadyProcessed (fields : BadPerformersFields)
    (strikesTreeRoot : Nat) : Bool :=
  fields.lastProcessedStrikesTreeRoot = some strikesTreeRoot

/-- Whether an entry has another value than before; entries that went are not seen. -/
def isAnyChanged (current latest : NumberMap) : Bool :=
  latest.any fun entry => current.lookup entry.1 ≠ some entry.2

/-- A curve has another threshold than in the last round that worked. -/
def isAnyStrikesThresholdChanged (fields : BadPerformersFields)
    (thresholds : NumberMap) : Bool :=
  isAnyChanged fields.currentStrikesThresholdsByCurveId thresholds

/-- An operator is on another curve than in the last round that worked. -/
def isAnyNodeOperatorCurveIdChanged (fields : BadPerformersFields)
    (curveIds : NumberMap) : Bool :=
  isAnyChanged fields.currentNodeOperatorsCurveIds curveIds

/-- Remember what the round is going to work on. -/
def commit (strikesTree : StrikesTree) (thresholds curveIds : NumberMap)
    (world : StrikesWorld) : StrikesWorld :=
  { world with
    badPerformers :=
      { world.badPerformers with
        currentStrikesTree := some strikesTree
        currentStrikesThresholdsByCurveId := thresholds
        currentNodeOperatorsCurveIds := curveIds } }

/-- Whether there is work to do; if so, its tree, thresholds and curves are remembered. -/
def prepareStrikesTreeForProcessing (reads : StrikesReads) (blockTag : BlockHash) :
    Async StrikesWorld Bool := do
  match ← getStrikesTree reads blockTag with
  | none => return false
  | some strikesTree =>
      let thresholds ← getStrikesThresholds reads blockTag
      let curveIds ← getNodeOperatorsCurveIds reads strikesTree blockTag
      let world ← read
      if isStrikesTreeAlreadyProcessed world.badPerformers strikesTree.root ∧
          ¬ isAnyStrikesThresholdChanged world.badPerformers thresholds ∧
          ¬ isAnyNodeOperatorCurveIdChanged world.badPerformers curveIds then
        modify fun current =>
          current.record (.skipped strikesTree thresholds curveIds)
        return false
      modify (commit strikesTree thresholds curveIds)
      return true

/-! ## Selecting the keys -/

/-- The error of an operator without a curve. -/
def curveIdNotFound (nodeOperatorId : Nat) : String :=
  "Curve Id for Node Operator ID " ++ toString nodeOperatorId ++
    " not found in the cache"

/-- The error of a curve without a threshold. -/
def strikesThresholdNotFound (nodeOperatorId curveId : Nat) : String :=
  "Strikes threshold for Node Operator ID " ++ toString nodeOperatorId ++
    " (Curve ID " ++ toString curveId ++ ") not found in the cache"

/-- The error of a leaf whose key is not found. -/
def noFullKeyInfo (pubKey : PubKey) : String :=
  "No full key info found for pubkey " ++ toString pubKey ++ " in the Strikes Tree"

/-- The error of a leaf whose key belongs to another operator. -/
def unexpectedNodeOperatorId (operatorId : Nat) (pubKey : PubKey) : String :=
  "Unexpected Node Operator ID (" ++ toString operatorId ++ ") for " ++
    toString pubKey ++ " pubkey"

/-- The remembered threshold of the curve of an operator. -/
def getStrikesThresholdByNodeOperatorId (fields : BadPerformersFields)
    (nodeOperatorId : Nat) : Except Abort Nat :=
  match fields.currentNodeOperatorsCurveIds.lookup nodeOperatorId with
  | none => .error (.thrown (curveIdNotFound nodeOperatorId))
  | some curveId =>
      match fields.currentStrikesThresholdsByCurveId.lookup curveId with
      | none => .error (.thrown (strikesThresholdNotFound nodeOperatorId curveId))
      | some threshold => .ok threshold

/-- The strikes of a leaf over all frames. -/
def strikesSum (leaf : StrikesTreeLeaf) : Nat :=
  leaf.strikesData.foldl (fun acc val => acc + val) 0

/-- A key that was found for a leaf, and its place. -/
def badPerformer (leafIndex : Nat) (leaf : StrikesTreeLeaf) (fullKeyInfo : FullKeyInfo) :
    BadPerformer :=
  { fullKeyInfo with
    leafIndex := leafIndex
    strikesData := leaf.strikesData }

/-- The body of the loop over the tree. -/
def badPerformerOfLeaf (config : Config) (fullKeyInfoFn : FullKeyInfoByPubKeyFn)
    (fields : BadPerformersFields) (leafIndex : Nat) (leaf : StrikesTreeLeaf) :
    Except Abort (Option BadPerformer) := do
  let threshold ← getStrikesThresholdByNodeOperatorId fields leaf.nodeOperatorId
  if strikesSum leaf < threshold then
    return none
  match fullKeyInfoFn leaf.pubKey with
  | none =>
      if config.workingMode = .cli then
        return none
      .error (.thrown (noFullKeyInfo leaf.pubKey))
  | some fullKeyInfo =>
      if fullKeyInfo.operatorId ≠ leaf.nodeOperatorId then
        .error (.thrown (unexpectedNodeOperatorId fullKeyInfo.operatorId leaf.pubKey))
      else
        return some (badPerformer leafIndex leaf fullKeyInfo)

/-- The values of a tree with their indices. -/
def entries (strikesTree : StrikesTree) : List (Nat × StrikesTreeLeaf) :=
  strikesTree.leaves.zipIdx.map Prod.swap

/-- `undefined` for an empty list of keys. -/
def unlessEmpty (keys : List BadPerformer) : Option (List BadPerformer) :=
  if keys = [] then none else some keys

/-- The loop over the tree; no keys are `undefined`. -/
def getBadPerformersKeys (config : Config) (fullKeyInfoFn : FullKeyInfoByPubKeyFn) :
    Async StrikesWorld (Option (List BadPerformer)) := do
  let world ← read
  match world.badPerformers.currentStrikesTree with
  | none => raise "Strikes Tree should be initialized"
  | some strikesTree =>
      match buildPayloads
          (badPerformerOfLeaf config fullKeyInfoFn world.badPerformers)
          (entries strikesTree) with
      | .error reason => .fail reason
      | .ok badPerfKeys => return unlessEmpty badPerfKeys

/-- Record the keys of a round that need no report. -/
def noteFound (keys : List BadPerformer) (world : StrikesWorld) : StrikesWorld :=
  { world with
    log := world.log ++ keys.map fun key =>
      .found world.badPerformers.currentStrikesThresholdsByCurveId
        world.badPerformers.currentNodeOperatorsCurveIds key.leaf }

/-- Ask about every key and keep those for which the answer is no. -/
def getKeysWithout (reads : StrikesReads) (request : BadPerformer → StrikesRequest)
    (proved : BadPerformer → Bool) (keys : List BadPerformer) :
    Async StrikesWorld (Option (List BadPerformer)) := do
  let _answers ← askAll reads keys request proved
  modify (noteFound (keys.filter proved))
  return unlessEmpty (keys.filter fun key => ! proved key)

/-- The contract's answer at the given block, which later penalties do not change. -/
def isEjectionProved (reads : StrikesReads) (exitPenalties : List ExitPenalty)
    (blockTag : BlockHash) (key : BadPerformer) : Bool :=
  exitPenalties.any fun penalty =>
    penalty.operatorId = key.operatorId && penalty.pubKey = key.pubKey &&
      decide (penalty.block ≤ reads.blockNumber blockTag)

/-- The keys without a penalty at the finalized block. -/
def getUnprovenKeys (reads : StrikesReads) (blockTag : BlockHash)
    (keys : List BadPerformer) : Async StrikesWorld (Option (List BadPerformer)) := do
  let world ← read
  getKeysWithout reads .isEjectionProved
    (isEjectionProved reads world.exitPenalties blockTag) keys

/-- The latest answer of the staking module. -/
def isWithdrawalProved (reads : StrikesReads) (key : BadPerformer) : Bool :=
  reads.stakingModule.proved .withdrawal key.id

/-- The keys whose withdrawal is not proved. -/
def getNonWithdrawnKeys (reads : StrikesReads) (keys : List BadPerformer) :
    Async StrikesWorld (Option (List BadPerformer)) :=
  getKeysWithout reads .isWithdrawalProved (isWithdrawalProved reads) keys

/-- The part of the selection that works on the prepared tree. -/
def selectBadPerformers (config : Config) (reads : StrikesReads) (blockTag : BlockHash)
    (fullKeyInfoFn : FullKeyInfoByPubKeyFn) : Async StrikesWorld (List BadPerformer) := do
  match ← getBadPerformersKeys config fullKeyInfoFn with
  | none => return []
  | some badPerfKeys =>
      match ← getUnprovenKeys reads blockTag badPerfKeys with
      | none => return []
      | some unproven =>
          match ← getNonWithdrawnKeys reads unproven with
          | none => return []
          | some unprovenNonWithdrawn => return unprovenNonWithdrawn

/-- Prepare the tree, and select its keys if there is work to do. -/
def getUnprovenNonWithdrawnBadPerformers (config : Config) (reads : StrikesReads)
    (headBlockInfo : SupportedBlock) (fullKeyInfoFn : FullKeyInfoByPubKeyFn) :
    Async StrikesWorld (List BadPerformer) := do
  let isAnyToProcess ← prepareStrikesTreeForProcessing reads headBlockInfo.blockHash
  if isAnyToProcess then
    selectBadPerformers config reads headBlockInfo.blockHash fullKeyInfoFn
  else
    return []

/-! ## Sending -/

/-- The values `getMultiProof` proves; the witnesses are not modelled. -/
def multiProofLeaves (reads : StrikesReads) (strikesTree : StrikesTree)
    (leavesIndices : List Nat) : List StrikesTreeLeaf :=
  (reads.multiProofOrder.order strikesTree leavesIndices).filterMap fun leafIndex =>
    strikesTree.leaves[leafIndex]?

/-- The error of a proved leaf without a key in the batch. -/
def keyInfoNotFound (pubKey : PubKey) : String :=
  "Key info not found for pubkey " ++ toString pubKey ++
    " in the batch but it should be there"

/-- What the payload says of the proved leaves, in their order. -/
def buildKeyStrikesPayload (leaves : List StrikesTreeLeaf) (batch : List BadPerformer) :
    Except Abort (List KeyStrikes) :=
  leaves.mapM fun leaf =>
    match batch.find? fun key => key.pubKey == leaf.pubKey with
    | none => .error (.thrown (keyInfoNotFound leaf.pubKey))
    | some keyInfo =>
        .ok
          { nodeOperatorId := leaf.nodeOperatorId
            keyIndex := keyInfo.keyIndex
            data := leaf.strikesData }

/-- The penalty that a mined leaf leaves on chain. -/
def penaltyOf (block : Nat) (leaf : StrikesTreeLeaf) : ExitPenalty where
  operatorId := leaf.nodeOperatorId
  pubKey := leaf.pubKey
  block := block

/-- The penalties a mined batch leaves on chain. -/
def batchMined (leaves : List StrikesTreeLeaf) (block : Nat) (world : StrikesWorld) :
    StrikesWorld :=
  { world with exitPenalties := world.exitPenalties ++ leaves.map (penaltyOf block) }.record
    (.batchMined leaves block)

/--
The request fee, the emulation, the broadcast and the wait for the receipt are
one request here.  Without a signer and in a dry run nothing is sent.  The log
names the reported keys by their leaves, which the payload follows.
-/
def sendBadPerformanceProof (config : Config) (reads : StrikesReads) (number : Nat)
    (payload : BadPerformanceProof) : Async StrikesWorld Unit := do
  modify fun world => world.submit payload
  ask reads (.sendBadPerformanceProof number) ()
  if Live config then
    modify (batchMined payload.leaves (reads.minedAt number))
    tick
  modify fun world => world.record (.batchResolved payload.leaves)

/-- The slices of a list, each of the given size but for the last. -/
def slices (size : { size : Nat // 0 < size }) {α : Type} :
    Nat → List α → List (List α)
  | _, [] => []
  | 0, _ :: _ => []
  | fuel + 1, items =>
      items.take size :: slices size fuel (items.drop size)

/-- Prove the leaves of a batch and send its payload. -/
def sendBatch (config : Config) (reads : StrikesReads) (strikesTree : StrikesTree)
    (batch : List BadPerformer × Nat) : Async StrikesWorld Unit := do
  let leaves := multiProofLeaves reads strikesTree (batch.1.map (·.leafIndex))
  match buildKeyStrikesPayload leaves batch.1 with
  | .error reason => .fail reason
  | .ok keyStrikesList =>
      sendBadPerformanceProof config reads batch.2
        { leaves := leaves, keyStrikesList := keyStrikesList }

/-- The numbered batches, which go from the last leaf of the tree to the first. -/
def batchesOf (config : Config) (badPerformers : List BadPerformer) :
    List (List BadPerformer × Nat) :=
  let sorted := badPerformers.insertionSort fun a b => b.leafIndex ≤ a.leafIndex
  (slices config.txStrikesPayloadMaxBatchSize sorted.length sorted).zipIdx

/-- Send the batches one after the other. -/
def processBadPerformerBatches (config : Config) (reads : StrikesReads)
    (badPerformers : List BadPerformer) : Async StrikesWorld Unit := do
  let world ← read
  match world.badPerformers.currentStrikesTree with
  | none => raise "Strikes Tree should be initialized before processing batches"
  | some strikesTree =>
      forEach (batchesOf config badPerformers) (sendBatch config reads strikesTree)

/-- Remember that the current tree needs no more work. -/
def markProcessed (world : StrikesWorld) : StrikesWorld :=
  match world.badPerformers.currentStrikesTree with
  | none => world
  | some strikesTree =>
      { world with
        badPerformers :=
          { world.badPerformers with
            lastProcessedStrikesTreeRoot := some strikesTree.root } }

/-- The mark leaves the tree the service holds. -/
@[simp] theorem markProcessed_currentStrikesTree
    (world : StrikesWorld) :
    (markProcessed world).badPerformers.currentStrikesTree =
      world.badPerformers.currentStrikesTree := by
  unfold markProcessed
  split <;> rfl

/-- The mark leaves the penalties alone. -/
@[simp] theorem markProcessed_exitPenalties
    (world : StrikesWorld) :
    (markProcessed world).exitPenalties = world.exitPenalties := by
  unfold markProcessed
  split <;> rfl

/-- The mark leaves the payloads alone. -/
@[simp] theorem markProcessed_payloads
    (world : StrikesWorld) :
    (markProcessed world).payloads = world.payloads := by
  unfold markProcessed
  split <;> rfl

/-- The mark is not logged. -/
@[simp] theorem markProcessed_log
    (world : StrikesWorld) :
    (markProcessed world).log = world.log := by
  unfold markProcessed
  split <;> rfl

/-- Send as many keys as the exit limit allows; the tree is marked if these were all. -/
def sendBadPerformanceProofs (config : Config) (reads : StrikesReads)
    (badPerformers : List BadPerformer) : Async StrikesWorld Nat := do
  if badPerformers = [] then
    modify markProcessed
    return 0
  let world ← read
  if world.badPerformers.currentStrikesTree = none then
    raise "Strikes Tree should be initialized before sending bad performance proofs"
  let exitLimit ← ask reads .exitLimitAtSend reads.exitLimitAtSend
  let sendAll := exitLimit ≥ badPerformers.length
  let toSend := if sendAll then badPerformers else badPerformers.take exitLimit
  if toSend = [] then
    return 0
  processBadPerformerBatches config reads toSend
  if sendAll then
    modify markProcessed
  return toSend.length

end BadPerformers

/-! ## A round -/

/-- `ProverService.handleBadPerformers`. -/
def handleBadPerformers (config : Config) (consensus : Consensus) (reads : StrikesReads)
    (finalizedHeader : BlockHeaderResponse) (fullKeyInfoFn : FullKeyInfoByPubKeyFn) :
    Async StrikesWorld Nat := do
  modify fun world => world.record .roundStarted
  let exitLimit ← BadPerformers.ask reads .exitLimitAtStart reads.exitLimitAtStart
  if exitLimit = 0 then
    return 0
  let finalizedBlockInfo ←
    BadPerformers.ask reads .blockInfo (consensus.blockInfo finalizedHeader.root)
  let badPerformers ←
    BadPerformers.getUnprovenNonWithdrawnBadPerformers config reads finalizedBlockInfo
      fullKeyInfoFn
  BadPerformers.sendBadPerformanceProofs config reads badPerformers

end CsmProver
