import CsmProver.Async.Loop
import CsmProver.PayloadKeys
import CsmProver.RootsProcessor
import CsmProver.Strikes

namespace CsmProver

/-!
# The prove command

`ProveCommand.run` asks what is to be proved, reads the public key of the selected key
from the staking module, and hands the selected key to one handler of `ProverService`.
There is no index: the lookups of the handlers know one key and no other.

Ids and indices are numbers below 2^53.  The source converts its options with `Number`
for the lookups and the payloads and asks the staking module with the strings it was
given, and up to there both are the same number.
-/

open Async

namespace StakingModuleContract

/-- What becomes of a call of `getTopUpQueue`; a call exception carries the data returned. -/
inductive TopUpQueue where
  | read (enabled : Bool)
  | callException (data : String)
  | failed
  deriving Repr, DecidableEq

/-- A module without a top-up queue reverts without data; it can prove balance changes. -/
def canProveBalanceChanges {σ : Type} (topUpQueue : TopUpQueue) : Async σ Bool := do
  tick
  match topUpQueue with
  | .read enabled => return enabled
  | .callException data => if data ≠ "0x" then .fail .rejected else return true
  | .failed => .fail .rejected

/-- The question whether balances can be proved changes nothing. -/
theorem canProveBalanceChanges_guarantees
    {σ : Type}
    {relation : σ → σ → Prop}
    (topUpQueue : TopUpQueue) :
    (canProveBalanceChanges topUpQueue : Async σ Bool).Guarantees relation := by
  refine guarantees_bind guarantees_tick fun _ => ?_
  cases topUpQueue with
  | read enabled =>
      trivial
  | callException data =>
      dsimp only
      split <;> trivial
  | failed =>
      trivial

end StakingModuleContract

namespace ProveCommand

/-! ## What is to be proved -/

inductive ProofType where
  | slashing
  | withdrawal
  | badPerformer
  | balance
  deriving Repr, DecidableEq

/-- The words of the command line. -/
def ProofType.text : ProofType → String
  | .slashing => "slashing"
  | .withdrawal => "withdrawal"
  | .badPerformer => "bad_performer"
  | .balance => "balance"

/-- The proofs in the order in which an error lists them. -/
def PROOF_TYPES : List ProofType :=
  [.slashing, .withdrawal, .badPerformer, .balance]

def unknownProofType (input : String) : String :=
  "Unknown proof type \"" ++ input ++ "\". Expected one of: " ++
    ", ".intercalate (PROOF_TYPES.map ProofType.text)

/-- Any other word, or none, ends the command. -/
def getProofTypeOrThrow (input : Option String) : Except Abort ProofType :=
  match PROOF_TYPES.find? fun proofType => input = some proofType.text with
  | some proofType => .ok proofType
  | none => .error (.thrown (unknownProofType (input.getD "")))

/-- A block of the consensus layer, as the command is given it. -/
inductive ClBlock where
  | root (blockRoot : RootHex)
  | slot (slotNumber : Nat)
  deriving Repr, DecidableEq

/-- The options after validation, as numbers. -/
structure ProofOptions where
  nodeOperatorId : Nat
  keyIndex : Nat
  validatorIndex : Nat
  clBlock : Option ClBlock
  deriving Repr, DecidableEq

/-- The options that were given as flags. -/
structure GivenOptions where
  nodeOperatorId : Option Nat
  keyIndex : Option Nat
  validatorIndex : Option Nat
  clBlock : Option ClBlock
  deriving Repr, DecidableEq

/-- What the user answers to the questions, each of which is asked until it is valid. -/
structure Prompted where
  nodeOperatorId : Nat
  keyIndex : Nat
  validatorIndex : Nat
  clBlock : ClBlock
  deriving Repr, DecidableEq

/-- The question set: what is given is not asked, and bad performers need no block. -/
def askProofInput (proofType : ProofType) (given : GivenOptions) (prompted : Prompted) :
    ProofOptions where
  nodeOperatorId := given.nodeOperatorId.getD prompted.nodeOperatorId
  keyIndex := given.keyIndex.getD prompted.keyIndex
  validatorIndex := given.validatorIndex.getD prompted.validatorIndex
  clBlock :=
    match given.clBlock with
    | some clBlock => some clBlock
    | none => if proofType ≠ .badPerformer then some prompted.clBlock else none

/-! ## The selected key -/

section SelectedKey

variable (options : ProofOptions) (pubKey : PubKey)

/-- The selected key, whose ids `Number` reads exactly. -/
def getSelectedKeyInfo : KeyInfo where
  operatorId := options.nodeOperatorId
  keyIndex := options.keyIndex
  pubKey := pubKey

/-- The lookup of the handlers, which does not depend on any index. -/
def selectedKeyInfoFn : KeyInfoFn := fun _ =>
  keyInfoFn options.validatorIndex (getSelectedKeyInfo options pubKey)

/-- The lookup by public key, which knows the selected key only. -/
def fullKeyInfoFn : FullKeyInfoByPubKeyFn := fun asked =>
  if asked = pubKey then
    some
      { operatorId := options.nodeOperatorId
        keyIndex := options.keyIndex
        pubKey := pubKey
        validatorIndex := options.validatorIndex }
  else
    none

end SelectedKey

/-! ## The command -/

/-- The worlds that the duties of the command act on. -/
structure ProveState where
  world : World
  strikes : StrikesWorld

/-- The handlers run on the world of the command. -/
def onWorld {α : Type} (program : Async World α) : Async ProveState α :=
  program.zoom ProveState.world fun world state => { state with world := world }

/-- The reports of strikes run on the state of their service. -/
def onStrikes {α : Type} (program : Async StrikesWorld α) : Async ProveState α :=
  program.zoom ProveState.strikes fun strikes state => { state with strikes := strikes }

/-- Answers of the user, the clients and the contracts; the finalized header is state. -/
structure Answers where
  prompted : Prompted
  consensus : Consensus
  blockInfo : ClBlock → SupportedBlock
  beaconHeader : ClBlock → BlockHeaderResponse
  nodeOperatorKey : Nat → Nat → PubKey
  topUpQueue : StakingModuleContract.TopUpQueue
  strikesReads : StrikesReads

section Run

variable (config : Config) (balances : Bool) (answers : Answers)

/-- A block must be given for every proof but that of bad performers. -/
def ensureClBlock (clBlock : Option ClBlock) : Async ProveState ClBlock :=
  match clBlock with
  | some clBlock => return clBlock
  | none => raise "--cl-block is required for this proof mode"

/-- The part of the run that depends on the proof type. -/
def prove (proofType : ProofType) (options : ProofOptions) (pubKey : PubKey)
    (finalizedHeader : BlockHeaderResponse) : Async ProveState Nat :=
  match proofType with
  | .withdrawal => do
      let clBlock ← ensureClBlock options.clBlock
      let withdrawalBlockInfo ← request (answers.blockInfo clBlock)
      let withdrawalBlock ← request (answers.beaconHeader clBlock)
      onWorld <| call <|
        Prover.handleWithdrawalsInBlock config answers.consensus balances
          withdrawalBlock.root withdrawalBlockInfo finalizedHeader
          (selectedKeyInfoFn options pubKey)
  | .badPerformer => do
      let headHeader ← onWorld getFinalizedHeader
      onStrikes <| call <|
        handleBadPerformers config answers.consensus answers.strikesReads headHeader
          (fullKeyInfoFn options pubKey)
  | .slashing => do
      let clBlock ← ensureClBlock options.clBlock
      let slashingBlockInfo ← request (answers.blockInfo clBlock)
      onWorld <| call <|
        Prover.handleSlashingsInBlock config answers.consensus balances slashingBlockInfo
          finalizedHeader (selectedKeyInfoFn options pubKey)
  | .balance => do
      let clBlock ← ensureClBlock options.clBlock
      let canProve ← call (StakingModuleContract.canProveBalanceChanges answers.topUpQueue)
      if ¬ canProve then
        raise "Balance change proving is not supported for this module"
      let balanceBlock ← request (answers.beaconHeader clBlock)
      onWorld <| call <|
        Prover.handleBalanceChangesInBlock config answers.consensus balances
          balanceBlock.root finalizedHeader
          (return [(options.validatorIndex, getSelectedKeyInfo options pubKey)])

/-- The body of the `try`. -/
def runProof (input : Option String) (given : GivenOptions) : Async ProveState Nat := do
  let proofType ← ofOutcome (getProofTypeOrThrow input)
  let prompted ← request answers.prompted
  let options := askProofInput proofType given prompted
  let pubKey ← request (answers.nodeOperatorKey options.nodeOperatorId options.keyIndex)
  let finalizedHeader ← onWorld getFinalizedHeader
  prove config balances answers proofType options pubKey finalizedHeader

/-- The count of the proofs sent, or the error the process exits with. -/
def run (input : Option String) (given : GivenOptions) : Async ProveState Nat := do
  let outcome ← attempt (runProof config balances answers input given)
  match outcome with
  | .ok sentCount => return sentCount
  | .error (.thrown message) => raise ("CLI proving failed: " ++ message)
  | .error .rejected => .fail .rejected

end Run

end ProveCommand

end CsmProver
