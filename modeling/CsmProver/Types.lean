import Mathlib.Tactic.Linarith

namespace CsmProver

/-!
# Data exchanged by the services

Beacon-chain objects as the consensus client delivers them, keys as the keys
index and the contracts name them, and the configuration values the modelled
services read.  Roots and public keys are compared for equality only, so they
are numbers here.
-/

/-- The root of a beacon block or state. -/
abbrev RootHex := Nat
/-- The public key of a validator. -/
abbrev PubKey := Nat

/-- The execution block of a beacon block; contract reads name it as their block tag. -/
abbrev BlockHash := Nat

/-- An epoch of the validator registry; `⊤` is the far-future epoch. -/
abbrev EpochInf := WithTop Nat

/-! ## Keys -/

/-- What the index holds for a validator. -/
structure KeyInfo where
  operatorId : Nat
  keyIndex : Nat
  pubKey : PubKey
  deriving Repr, DecidableEq

/-- A key together with the index of its validator. -/
structure FullKeyInfo where
  operatorId : Nat
  keyIndex : Nat
  pubKey : PubKey
  validatorIndex : Nat
  deriving Repr, DecidableEq

/-- The pair under which the staking module stores a key. -/
abbrev KeyId := Nat × Nat

/-- The pair of a key that the index holds. -/
def KeyInfo.id (keyInfo : KeyInfo) : KeyId :=
  (keyInfo.operatorId, keyInfo.keyIndex)

/-! ## Beacon chain -/

/-- A withdrawal of a block, in gwei. -/
structure Withdrawal where
  index : Nat
  validatorIndex : Nat
  address : Nat
  amount : Nat
  deriving Repr, DecidableEq

/-- The accused of a proposer slashing. -/
structure ProposerSlashing where
  proposerIndex : Nat
  deriving Repr, DecidableEq

/-- The attesters of one of two attestations that contradict each other. -/
structure IndexedAttestation where
  attestingIndices : List Nat
  deriving Repr, DecidableEq

/-- The accused are the attesters that both attestations name. -/
structure AttesterSlashing where
  attestation1 : IndexedAttestation
  attestation2 : IndexedAttestation
  deriving Repr, DecidableEq

/-- A beacon block, as far as the duties read it. -/
structure SupportedBlock where
  slot : Nat
  parentRoot : RootHex
  blockHash : BlockHash
  withdrawals : List Withdrawal
  proposerSlashings : List ProposerSlashing
  attesterSlashings : List AttesterSlashing
  deriving Repr, DecidableEq

/-- The header of a block, as it is hashed. -/
structure BeaconBlockHeader where
  slot : Nat
  proposerIndex : Nat
  parentRoot : RootHex
  stateRoot : RootHex
  bodyRoot : RootHex
  deriving Repr, DecidableEq

/-- A header as a node serves it, with its root. -/
structure BlockHeaderResponse where
  root : RootHex
  canonical : Bool
  message : BeaconBlockHeader
  deriving Repr, DecidableEq

/-- The headers that a node knows under one parent. -/
structure BeaconHeadersByParentRootResponse where
  finalized : Bool
  data : List BlockHeaderResponse
  deriving Repr, DecidableEq

/-- A validator of a beacon state. -/
structure Validator where
  pubkey : PubKey
  withdrawalCredentials : Nat
  effectiveBalance : Nat
  slashed : Bool
  activationEligibilityEpoch : EpochInf
  activationEpoch : EpochInf
  exitEpoch : EpochInf
  withdrawableEpoch : EpochInf
  deriving DecidableEq

/-- A beacon state, as far as the workers read it. -/
structure State where
  validators : List Validator
  balances : List Nat
  deriving DecidableEq

/-- The parameters of the chain that the services read. -/
structure BeaconConfig where
  slotsPerEpoch : Nat
  secondsPerSlot : Nat
  capellaForkEpoch : Nat
  maxEffectiveBalanceElectra : Nat
  minActivationBalance : Nat
  eth1FollowDistance : Nat
  epochsPerEth1VotingPeriod : Nat
  slotsPerHistoricalRoot : Nat
  minValidatorWithdrawabilityDelay : Nat
  deriving Repr, DecidableEq

/-- The values a mainnet client serves. -/
def BeaconConfig.mainnet : BeaconConfig where
  slotsPerEpoch := 32
  secondsPerSlot := 12
  capellaForkEpoch := 194048
  maxEffectiveBalanceElectra := 2048 * 1000000000
  minActivationBalance := 32 * 1000000000
  eth1FollowDistance := 2048
  epochsPerEth1VotingPeriod := 64
  slotsPerHistoricalRoot := 8192
  minValidatorWithdrawabilityDelay := 256

/-! ## Walk -/

/-- A root of the walk and its slot. -/
structure RootSlot where
  blockRoot : RootHex
  slotNumber : Nat
  deriving Repr, DecidableEq

/-! ## KeysAPI -/

/-- The execution block KeysAPI answered at; its timestamp is in unix seconds. -/
structure ELBlockSnapshot where
  timestamp : Int
  deriving Repr, DecidableEq

/-- A key as KeysAPI serves it. -/
structure Key where
  index : Nat
  key : PubKey
  used : Bool
  operatorIndex : Nat
  deriving Repr, DecidableEq

/-- A KeysAPI answer to `getModuleKeys` or `findModuleKeys`. -/
structure ModuleKeys where
  keys : List Key
  elBlockSnapshot : ELBlockSnapshot
  deriving Repr, DecidableEq

/-- A staking module as KeysAPI serves it. -/
structure Module where
  id : Nat
  stakingModuleAddress : String
  deriving Repr, DecidableEq

/-! ## Strikes -/

/-- The strikes of one key, frame by frame. -/
structure StrikesTreeLeaf where
  nodeOperatorId : Nat
  pubKey : PubKey
  strikesData : List Nat
  deriving Repr, DecidableEq

/-- A published Merkle tree: its root and its values in the order of the dump. -/
structure StrikesTree where
  root : Nat
  leaves : List StrikesTreeLeaf
  deriving Repr, DecidableEq

/-! ## Configuration -/

/-- Who runs the duties: the loop, or one command. -/
inductive WorkingMode where
  | daemon
  | cli
  deriving Repr, DecidableEq

/-- The configuration values the modelled services read. -/
structure Config where
  workingMode : WorkingMode
  startRoot : Option RootHex
  rootsProcessingLagSlots : Nat
  stakingModuleAddress : String
  txSignerPrivateKey : Option Nat
  dryRun : Bool
  keysIndexerRunningPeriodMs : Int
  keysIndexerKeyapiFreshnessPeriodMs : Int
  balanceProofMinDeltaGwei : Nat
  balanceProofTopupStepGwei : Nat
  daemonNodeOperatorIds : Option (List Nat)
  /-- With batches of no keys the loop that sends them would not end. -/
  txStrikesPayloadMaxBatchSize : { size : Nat // 0 < size }
  deriving Repr, DecidableEq

/-- The defaults of the environment; the address and the signer have none. -/
def Config.defaults (stakingModuleAddress : String) (txSignerPrivateKey : Nat) :
    Config where
  workingMode := .daemon
  startRoot := none
  rootsProcessingLagSlots := 0
  stakingModuleAddress := stakingModuleAddress
  txSignerPrivateKey := some txSignerPrivateKey
  dryRun := false
  keysIndexerRunningPeriodMs := 3 * 3600 * 1000
  keysIndexerKeyapiFreshnessPeriodMs := 8 * 3600 * 1000
  balanceProofMinDeltaGwei := 512 * 1000000000
  balanceProofTopupStepGwei := 2 * 1000000000
  daemonNodeOperatorIds := none
  txStrikesPayloadMaxBatchSize := ⟨10, by decide⟩

end CsmProver
