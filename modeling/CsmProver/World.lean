import CsmProver.Async.Logic
import CsmProver.Consensus

namespace CsmProver

/-!
# The state shared by the daemon's tasks

The in-memory fields of the services, the four files they persist, the part of
the staking module contract the duties read and write, and the consensus
client's finalized header.  The log is a ghost: nothing reads it, and it records
in order what the theorems speak about.
-/

open Std (TreeMap)

/-! ## Service fields and files -/

/-- The info file of the index. -/
structure KeysIndexerServiceInfo where
  moduleAddress : String
  moduleId : Nat
  storageStateSlot : Nat
  lastValidatorsCount : Nat
  deriving Repr, DecidableEq

/-- Keys by validator index; an object with integer keys enumerates them in order. -/
abbrev KeysIndexerServiceStorage := TreeMap Nat KeyInfo

/-- The index in memory. -/
structure KeysIndexerFields where
  info : KeysIndexerServiceInfo
  storage : KeysIndexerServiceStorage

/-- Block roots by slot. -/
abbrev RootsStackServiceStorage := TreeMap Nat RootHex

/-- The stack in memory. -/
structure RootsStackFields where
  lastProcessedRootSlot : Option RootSlot
  storage : RootsStackServiceStorage

/-- The persisted files; `none` is a file that was never written. -/
structure Disk where
  keysIndexerInfo : Option KeysIndexerServiceInfo
  keysIndexerStorage : Option KeysIndexerServiceStorage
  rootsStackInfo : Option (Option RootSlot)
  rootsStackStorage : Option RootsStackServiceStorage

/-! ## The staking module contract -/

/-- The proofs the staking module keeps a flag for. -/
inductive ProofKind where
  | withdrawal
  | slashing
  deriving Repr, DecidableEq

/-- On-chain flags and added balances (in wei) of the module's keys. -/
structure StakingModule where
  withdrawn : KeyId → Bool
  slashed : KeyId → Bool
  keyAddedBalance : KeyId → Nat

namespace StakingModule

/-- The flag a proof of the given kind sets. -/
def proved (stakingModule : StakingModule) : ProofKind → KeyId → Bool
  | .withdrawal => stakingModule.withdrawn
  | .slashing => stakingModule.slashed

/-- The contract after a proof for a key was mined. -/
def prove (stakingModule : StakingModule) (kind : ProofKind) (key : KeyId) :
    StakingModule :=
  match kind with
  | .withdrawal =>
      { stakingModule with withdrawn := Function.update stakingModule.withdrawn key true }
  | .slashing =>
      { stakingModule with slashed := Function.update stakingModule.slashed key true }

/-- A proof sets the flag of its own kind and key and no other. -/
theorem proved_prove
    (stakingModule : StakingModule)
    (kind other : ProofKind)
    (key query : KeyId) :
    (stakingModule.prove kind key).proved other query =
      (decide (other = kind ∧ query = key) ||
        stakingModule.proved other query) := by
  cases kind <;> cases other <;>
    by_cases sameKey : query = key <;>
    simp [prove, proved, Function.update, sameKey]

end StakingModule

/-! ## The log -/

/-- What a step of the daemon did. -/
inductive Event where
  | keyLookup (duty : ProofKind) (storageStateSlot : Nat)
      (valIndex : Nat) (found : Option KeyInfo)
  | allKeysLookup (storageStateSlot : Nat)
  | indexCommitted (storageStateSlot : Nat)
  | keysApiConsulted (snapshot : ELBlockSnapshot)
  | trustChecked (storageStateSlot : Nat)
  | purged (rootSlot : RootSlot)
  | dutiesReturned (rootSlot : RootSlot)
  | lastProcessedSet (rootSlot : RootSlot)
  | proofResolved (kind : ProofKind) (key : KeyId)
  | balanceProofResolved (key : KeyId) (balanceGwei : Nat)
  deriving Repr, DecidableEq

/-! ## The world -/

/-- What the tasks of the daemon share, with the log of what happened. -/
structure World where
  keysIndexer : KeysIndexerFields
  rootsStack : RootsStackFields
  disk : Disk
  stakingModule : StakingModule
  finalizedHeader : BlockHeaderResponse
  log : List Event

namespace World

/-- A process without files that has read and done nothing. -/
def blank (finalizedHeader : BlockHeaderResponse) : World where
  keysIndexer :=
    { info :=
        { moduleAddress := ""
          moduleId := 0
          storageStateSlot := 0
          lastValidatorsCount := 0 }
      storage := ∅ }
  rootsStack := { lastProcessedRootSlot := none, storage := ∅ }
  disk :=
    { keysIndexerInfo := none
      keysIndexerStorage := none
      rootsStackInfo := none
      rootsStackStorage := none }
  stakingModule :=
    { withdrawn := fun _ => false
      slashed := fun _ => false
      keyAddedBalance := fun _ => 0 }
  finalizedHeader := finalizedHeader
  log := []

/-- Append one event to the log. -/
def record (world : World) (event : Event) : World :=
  { world with log := world.log ++ [event] }

/-- Logging leaves the index alone. -/
@[simp] theorem record_keysIndexer
    (world : World)
    (event : Event) :
    (world.record event).keysIndexer = world.keysIndexer :=
  rfl

/-- Logging leaves the stack alone. -/
@[simp] theorem record_rootsStack
    (world : World)
    (event : Event) :
    (world.record event).rootsStack = world.rootsStack :=
  rfl

/-- Logging leaves the files alone. -/
@[simp] theorem record_disk
    (world : World)
    (event : Event) :
    (world.record event).disk = world.disk :=
  rfl

/-- Logging leaves the contract alone. -/
@[simp] theorem record_stakingModule
    (world : World)
    (event : Event) :
    (world.record event).stakingModule = world.stakingModule :=
  rfl

/-- Logging appends to the log. -/
@[simp] theorem record_log
    (world : World)
    (event : Event) :
    (world.record event).log = world.log ++ [event] :=
  rfl

end World

/-- Append one event to the log. -/
def note (event : Event) : Async World Unit :=
  .modify fun world => world.record event

/-- A note is followed by the rest. -/
@[simp] theorem wp_note
    (protocol : Async.Protocol World)
    (event : Event)
    (post : Unit → World → Prop)
    (world : World) :
    Async.wp protocol post (note event) world ↔ post () (world.record event) :=
  Iff.rfl

/-- An undisturbed note. -/
@[simp] theorem finish_note
    (event : Event)
    (world : World) :
    Async.finish (note event) world = (.ok (), world.record event) :=
  rfl

/-- `write()` of one file: the content is serialised when the call is made. -/
def writeFile (save : World → Disk → Disk) : Async World Unit := do
  let world ← .read
  .settle
  .modify fun current => { current with disk := save world current.disk }
  .tick

/-- A write waits before and after it changes the file, and writes what was in memory before. -/
theorem wp_writeFile
    {protocol : Async.Protocol World}
    {post : Unit → World → Prop}
    {save : World → Disk → Disk}
    {world : World} :
    Async.wp protocol post (writeFile save) world ↔
      protocol.suspended world ∧
        ∀ current,
          protocol.rely world current →
          let written : World := { current with disk := save world current.disk }
          (protocol.suspended written ∧
              ∀ final, protocol.rely written final → post () final) ∧
            protocol.aborted .rejected current := by
  simp only [writeFile, Async.wp_bind, Async.wp_read, Async.wp_settle, Async.wp_modify,
    Async.wp_tick]

/-- An assertion that survives the others and the write holds after it. -/
theorem writeFile_keeps
    {protocol : Async.Protocol World}
    {assertion : World → Prop}
    {save : World → Disk → Disk}
    {world : World}
    (holds : assertion world)
    (suspends : ∀ state, assertion state → protocol.suspended state)
    (aborts : ∀ reason state, assertion state → protocol.aborted reason state)
    (stays :
      ∀ state moved, assertion state → protocol.rely state moved → assertion moved)
    (saves :
      ∀ current,
        protocol.rely world current →
        assertion current →
        assertion { current with disk := save world current.disk }) :
    Async.wp protocol (fun _ final => assertion final) (writeFile save) world := by
  refine wp_writeFile.mpr ⟨suspends _ holds, fun current rely => ?_⟩
  have stillHolds := stays _ _ holds rely
  have written := saves current rely stillHolds
  exact ⟨⟨suspends _ written, fun final later => stays _ _ written later⟩,
    aborts _ _ stillHolds⟩

/-- An undisturbed write. -/
@[simp] theorem finish_writeFile
    (save : World → Disk → Disk)
    (world : World) :
    Async.finish (writeFile save) world =
      (.ok (), { world with disk := save world world.disk }) :=
  rfl

end CsmProver
