import CsmProver.Types

namespace CsmProver

/-!
# The consensus client

The answers a consensus client gives while one computation runs.  Finalized
objects are addressed by root, so their answers do not change; the finalized
header itself is part of the shared state and not of this record.
-/

/-- Answers of the consensus client; a request may still be rejected. -/
structure Consensus where
  genesisTimestamp : Nat
  beaconConfig : BeaconConfig
  blockInfo : RootHex → SupportedBlock
  beaconHeader : RootHex → BlockHeaderResponse
  beaconHeadersByParentRoot : RootHex → BeaconHeadersByParentRootResponse
  state : RootHex → State
  stateAtSlot : Nat → State

namespace Consensus

/-- The time of a slot in unix seconds. -/
def slotToTimestamp (consensus : Consensus) (slot : Nat) : Int :=
  consensus.genesisTimestamp + slot * consensus.beaconConfig.secondsPerSlot

/-- The first slot of an epoch. -/
def epochToSlot (consensus : Consensus) (epoch : Nat) : Nat :=
  epoch * consensus.beaconConfig.slotsPerEpoch

/-- The epoch of a slot. -/
def slotToEpoch (consensus : Consensus) (slot : Nat) : Nat :=
  slot / consensus.beaconConfig.slotsPerEpoch

end Consensus

/-- The first header the client marks canonical. -/
def firstCanonical (headers : List BlockHeaderResponse) : Option BlockHeaderResponse :=
  headers.find? (·.canonical)

end CsmProver
