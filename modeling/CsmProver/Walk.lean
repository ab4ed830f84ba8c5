import CsmProver.DutyGuarantees

namespace CsmProver

/-!
# The walk loses no block

The walk moves over a chain of canonical blocks.  Its last processed root goes
back to replay a stacked block and forward again by child links; the highest
block it has ever been at is the frontier.  Below the frontier every block has
been processed, and nothing above the frontier's child is ever stacked, through
failures at any suspension, crashes between the writes of the two files and
arbitrary changes of what the index is trusted for.
-/

open Std (TreeMap)
open Async

namespace Walk

/-! ## The canonical chain -/

/-- The canonical blocks by height. -/
structure Chain where
  block : Nat → RootSlot
  increasing : StrictMono fun height => (block height).slotNumber

/--
The client serves the chain: the block of a root, and as a canonical child only
the next block.
-/
structure Serves (chain : Chain) (consensus : Consensus) : Prop where
  blockInfo :
    ∀ height,
      (consensus.blockInfo (chain.block height).blockRoot).slot =
        (chain.block height).slotNumber
  child :
    ∀ height header,
      (consensus.beaconHeadersByParentRoot
        (chain.block height).blockRoot).finalized = true →
      firstCanonical
          (consensus.beaconHeadersByParentRoot
            (chain.block height).blockRoot).data =
        some header →
      header.root = (chain.block (height + 1)).blockRoot ∧
        header.message.slot = (chain.block (height + 1)).slotNumber

/-- A finalized child of a block is the next block. -/
theorem Serves.childOf
    {chain : Chain}
    {consensus : Consensus}
    (serves : Serves chain consensus)
    {finalizedHeader : BlockHeaderResponse}
    {height : Nat}
    {child : RootSlot}
    (isChild :
      RootsProvider.childOf consensus finalizedHeader (chain.block height) = some child) :
    child = chain.block (height + 1) := by
  obtain ⟨header, finalized, isCanonical, rfl⟩ := RootsProvider.childOf_eq_some isChild
  obtain ⟨sameRoot, sameSlot⟩ := serves.child height header finalized isCanonical
  rw [sameRoot, sameSlot]

/-! ## The invariant -/

/-- The fields of the stack stand between the start and the child of the frontier. -/
structure Holds (chain : Chain) (start frontier : Nat) (fields : RootsStackFields) :
    Prop where
  lastProcessed :
    ∃ height,
      start ≤ height ∧ height ≤ frontier ∧
        fields.lastProcessedRootSlot = some (chain.block height)
  stacked :
    ∀ slot blockRoot,
      fields.storage[slot]? = some blockRoot →
      ∃ height,
        start < height ∧ height ≤ frontier + 1 ∧
          chain.block height = { blockRoot := blockRoot, slotNumber := slot }

/-- The log of a walk whose frontier is at the given height. -/
structure Reached (chain : Chain) (start frontier : Nat) (log : List Event) : Prop where
  ahead : start ≤ frontier
  visited :
    ∀ rs,
      .lastProcessedSet rs ∈ log →
      ∃ height, height ≤ frontier ∧ rs = chain.block height
  top : frontier = start ∨ .lastProcessedSet (chain.block frontier) ∈ log
  completed :
    ∀ height,
      start < height → height ≤ frontier →
      .dutiesReturned (chain.block height) ∈ log

/-- Memory, disk and log of a walk agree on one frontier. -/
structure Walked (chain : Chain) (start frontier : Nat) (world : World) : Prop where
  reached : Reached chain start frontier world.log
  memory : Holds chain start frontier world.rootsStack
  disk : Holds chain start frontier (RootsStack.readServiceData world.disk)

/-- The walk is at some frontier. -/
def Walks (chain : Chain) (start : Nat) (world : World) : Prop :=
  ∃ frontier, Walked chain start frontier world

section Invariant

variable {chain : Chain} {start frontier : Nat}

theorem Holds.mono
    {fields : RootsStackFields}
    (holds : Holds chain start frontier fields)
    {higher : Nat}
    (above : frontier ≤ higher) :
    Holds chain start higher fields where
  lastProcessed := by
    obtain ⟨height, low, high, isLast⟩ := holds.lastProcessed
    exact ⟨height, low, by omega, isLast⟩
  stacked := by
    intro slot blockRoot found
    obtain ⟨height, low, high, isBlock⟩ := holds.stacked slot blockRoot found
    exact ⟨height, low, by omega, isBlock⟩

/-- Pushing a block at most one above the frontier. -/
theorem Holds.push
    {fields : RootsStackFields}
    (holds : Holds chain start frontier fields)
    {height : Nat}
    (low : start < height)
    (high : height ≤ frontier + 1) :
    Holds chain start frontier
      { fields with
        storage :=
          fields.storage.insert (chain.block height).slotNumber
            (chain.block height).blockRoot } where
  lastProcessed := holds.lastProcessed
  stacked := by
    intro slot blockRoot found
    rw [TreeMap.getElem?_insert] at found
    split at found
    · next same =>
        rw [Nat.compare_eq_eq] at same
        exact ⟨height, low, high, by rw [← same, ← Option.some.inj found]⟩
    · exact holds.stacked slot blockRoot found

/-- Removing a stacked block. -/
theorem Holds.purge
    {fields : RootsStackFields}
    (holds : Holds chain start frontier fields)
    (slot : Nat) :
    Holds chain start frontier { fields with storage := fields.storage.erase slot } where
  lastProcessed := holds.lastProcessed
  stacked := by
    intro other blockRoot found
    rw [TreeMap.getElem?_erase] at found
    split at found
    · cases found
    · exact holds.stacked other blockRoot found

/-- A file of the stack takes over what the memory holds. -/
theorem Holds.combine
    {first second : RootsStackFields}
    (firstHolds : Holds chain start frontier first)
    (secondHolds : Holds chain start frontier second) :
    Holds chain start frontier
      { lastProcessedRootSlot := first.lastProcessedRootSlot
        storage := second.storage } where
  lastProcessed := firstHolds.lastProcessed
  stacked := secondHolds.stacked

/-- The last processed root moves to a block whose duties have returned. -/
theorem Reached.advance
    {log : List Event}
    (reached : Reached chain start frontier log)
    {height : Nat}
    (high : height ≤ frontier + 1)
    (returned : .dutiesReturned (chain.block height) ∈ log) :
    Reached chain start (max frontier height)
      (log ++ [.lastProcessedSet (chain.block height)]) where
  ahead := le_max_of_le_left reached.ahead
  visited := by
    intro rs member
    rcases List.mem_append.mp member with earlier | now
    · obtain ⟨visitedHeight, below, isBlock⟩ := reached.visited rs earlier
      exact ⟨visitedHeight, le_max_of_le_left below, isBlock⟩
    · rw [List.mem_singleton, Event.lastProcessedSet.injEq] at now
      exact ⟨height, le_max_right frontier height, now⟩
  top := by
    rcases Nat.lt_or_ge frontier height with above | below
    · rw [max_eq_right above.le]
      exact .inr (by simp)
    · rw [max_eq_left below]
      rcases reached.top with isStart | visited
      · exact .inl isStart
      · exact .inr (List.mem_append_left _ visited)
  completed := by
    intro other low below
    rcases Nat.lt_or_ge frontier other with above | atMost
    · have isHeight : other = height := by
        rcases le_max_iff.mp below with atMost | atMost <;> omega
      exact List.mem_append_left _ (isHeight ▸ returned)
    · exact List.mem_append_left _ (reached.completed other low atMost)

end Invariant

/-! ## The protocol of one iteration -/

/-- The stack, its files and the walk's own events stay as they are. -/
structure Beside (world moved : World) : Prop where
  stack : moved.rootsStack = world.rootsStack
  info : moved.disk.rootsStackInfo = world.disk.rootsStackInfo
  storage : moved.disk.rootsStackStorage = world.disk.rootsStackStorage
  visited :
    ∀ rs, .lastProcessedSet rs ∈ moved.log ↔ .lastProcessedSet rs ∈ world.log
  returned :
    ∀ rs, .dutiesReturned rs ∈ moved.log ↔ .dutiesReturned rs ∈ world.log

/-- Duties that have returned stay returned. -/
def Keeps (world moved : World) : Prop :=
  ∀ rs, .dutiesReturned rs ∈ world.log → .dutiesReturned rs ∈ moved.log

def protocol (chain : Chain) (start : Nat) : Protocol World where
  rely := Beside
  suspended := Walks chain start
  aborted := fun _ => Walks chain start

section Specs

variable {chain : Chain} {start frontier height : Nat} {world moved : World}
variable {config : Config} {consensus : Consensus} {balances : Bool}

theorem beside_refl
    (world : World) :
    Beside world world :=
  ⟨rfl, rfl, rfl, fun _ => Iff.rfl, fun _ => Iff.rfl⟩

theorem beside_trans
    {first middle last : World}
    (earlier : Beside first middle)
    (later : Beside middle last) :
    Beside first last where
  stack := later.stack.trans earlier.stack
  info := later.info.trans earlier.info
  storage := later.storage.trans earlier.storage
  visited := fun rs => (later.visited rs).trans (earlier.visited rs)
  returned := fun rs => (later.returned rs).trans (earlier.returned rs)

theorem Walked.beside
    (walked : Walked chain start frontier world)
    (beside : Beside world moved) :
    Walked chain start frontier moved where
  reached :=
    { ahead := walked.reached.ahead
      visited := fun rs member =>
        walked.reached.visited rs ((beside.visited rs).mp member)
      top := walked.reached.top.imp_right (beside.visited _).mpr
      completed := fun height low high =>
        (beside.returned _).mpr (walked.reached.completed height low high) }
  memory := by
    rw [beside.stack]
    exact walked.memory
  disk := by
    rw [RootsStack.readServiceData, beside.info, beside.storage]
    exact walked.disk

theorem protocol_stable
    (chain : Chain)
    (start : Nat) :
    (protocol chain start).Stable := by
  have kept {world moved : World}
      (walks : Walks chain start world)
      (beside : Beside world moved) :
      Walks chain start moved := by
    obtain ⟨frontier, walked⟩ := walks
    exact ⟨frontier, walked.beside beside⟩
  exact
    { refl := beside_refl
      trans := beside_trans
      suspended := kept
      aborted := kept }

/-- A change of the log that adds none of the walk's own events. -/
theorem beside_of_log
    {events : List Event}
    (unvisited : ∀ rs, .lastProcessedSet rs ∉ events)
    (unreturned : ∀ rs, .dutiesReturned rs ∉ events)
    (sameStack : moved.rootsStack = world.rootsStack)
    (sameDisk : moved.disk = world.disk)
    (log : moved.log = world.log ++ events) :
    Beside world moved where
  stack := sameStack
  info := by rw [sameDisk]
  storage := by rw [sameDisk]
  visited := by
    intro rs
    simp [log, unvisited rs]
  returned := by
    intro rs
    simp [log, unreturned rs]

theorem beside_frame :
    DutyFrame Beside where
  refl := beside_refl
  trans := beside_trans
  keyLookups := by
    intro duty keyInfoFn valIndices world
    exact beside_of_log (by simp [lookupEvents]) (by simp [lookupEvents]) rfl rfl rfl
  allKeysLookup := by
    intro world
    exact beside_of_log (by simp) (by simp) rfl rfl rfl
  proofMined := by
    intro kind key world
    exact beside_of_log (by simp) (by simp) rfl rfl rfl
  balanceMined := by
    intro key balanceGwei world
    exact beside_of_log (by simp) (by simp) rfl rfl rfl

/-- Steps beside the walk keep its frontier. -/
theorem beside_spec
    {α : Type}
    {program : Async World α}
    (guarantees : program.Guarantees Beside)
    (walked : Walked chain start frontier world) :
    wp (protocol chain start) (fun _ final => Walked chain start frontier final)
      program world :=
  wp_mono
    (wp_of_guarantees beside_refl beside_trans id
      (fun _ beside => Exists.intro frontier (walked.beside beside))
      (fun _ _ beside => Exists.intro frontier (walked.beside beside))
      guarantees)
    fun _ _ beside => walked.beside beside

/-- Writing a file of the stack keeps the frontier when the new content holds. -/
theorem writeFile_spec
    {save : World → Disk → Disk}
    (walked : Walked chain start frontier world)
    (saved :
      ∀ disk,
        disk.rootsStackInfo = world.disk.rootsStackInfo →
        disk.rootsStackStorage = world.disk.rootsStackStorage →
        Holds chain start frontier (RootsStack.readServiceData (save world disk))) :
    wp (protocol chain start)
      (fun _ final => Walked chain start frontier final ∧ Keeps world final)
      (writeFile save) world := by
  refine @writeFile_keeps _
    (fun final => Walked chain start frontier final ∧ Keeps world final) _ _
    ⟨walked, fun _ returned => returned⟩ (fun _ held => ⟨frontier, held.1⟩)
    (fun _ _ held => ⟨frontier, held.1⟩) ?stays ?saves
  case stays =>
    rintro current moved ⟨currentWalked, keeps⟩ beside
    exact ⟨currentWalked.beside beside, fun rs returned =>
      (beside.returned rs).mpr (keeps rs returned)⟩
  case saves =>
    rintro current beside ⟨currentWalked, keeps⟩
    have written :
        Walked chain start frontier
          { current with disk := save world current.disk } :=
      { reached := currentWalked.reached
        memory := currentWalked.memory
        disk := saved current.disk beside.info beside.storage }
    exact ⟨written, keeps⟩

theorem writeStorage_spec
    (walked : Walked chain start frontier world) :
    wp (protocol chain start)
      (fun _ final => Walked chain start frontier final ∧ Keeps world final)
      RootsStack.writeStorage world := by
  apply writeFile_spec walked
  intro disk sameInfo _
  have combined := walked.disk.combine walked.memory
  rw [RootsStack.readServiceData] at combined ⊢
  rw [sameInfo]
  exact combined

theorem writeInfo_spec
    (walked : Walked chain start frontier world) :
    wp (protocol chain start)
      (fun _ final => Walked chain start frontier final ∧ Keeps world final)
      RootsStack.writeInfo world := by
  apply writeFile_spec walked
  intro disk _ sameStorage
  have combined := walked.memory.combine walked.disk
  rw [RootsStack.readServiceData] at combined ⊢
  rw [sameStorage]
  exact combined

/-! ## One iteration -/

theorem push_spec
    (walked : Walked chain start frontier world)
    (low : start < height)
    (high : height ≤ frontier + 1) :
    wp (protocol chain start) (fun _ final => Walked chain start frontier final)
      (RootsStack.push (chain.block height)) world := by
  rw [RootsStack.push, wp_bind, wp_read]
  cases world.rootsStack.storage[(chain.block height).slotNumber]? with
  | some stacked =>
      exact walked
  | none =>
      rw [wp_bind, RootsStack.modifyStorage, wp_modify]
      have pushed :
          Walked chain start frontier
            { world with
              rootsStack :=
                { world.rootsStack with
                  storage :=
                    world.rootsStack.storage.insert (chain.block height).slotNumber
                      (chain.block height).blockRoot } } :=
        { reached := walked.reached
          memory := walked.memory.push low high
          disk := walked.disk }
      exact wp_mono (writeStorage_spec pushed) fun _ _ written => written.1

theorem purge_spec
    (rs : RootSlot)
    (walked : Walked chain start frontier world) :
    wp (protocol chain start)
      (fun _ final => Walked chain start frontier final ∧ Keeps world final)
      (RootsStack.purge rs) world := by
  rw [RootsStack.purge, wp_bind, wp_read]
  cases world.rootsStack.storage[rs.slotNumber]? with
  | none =>
      exact ⟨walked, fun _ returned => returned⟩
  | some stacked =>
      rw [wp_bind, RootsStack.modifyStorage, wp_modify, wp_bind, wp_note]
      have purged :
          Walked chain start frontier
            { world with
              rootsStack :=
                { world.rootsStack with
                  storage := world.rootsStack.storage.erase rs.slotNumber } } :=
        { reached := walked.reached
          memory := walked.memory.purge rs.slotNumber
          disk := walked.disk }
      refine wp_mono
        (writeStorage_spec
          (purged.beside (beside_of_log (by simp) (by simp) rfl rfl rfl)))
        fun _ _ written => ⟨written.1, ?_⟩
      exact fun rs returned => written.2 rs (by simp [returned])

/-- The frontier moves to a child whose duties have returned. -/
theorem setLastProcessed_spec
    (walked : Walked chain start frontier world)
    (low : start < height)
    (high : height ≤ frontier + 1)
    (returned : .dutiesReturned (chain.block height) ∈ world.log) :
    wp (protocol chain start) (fun _ final => Walks chain start final)
      (RootsStack.setLastProcessed (chain.block height)) world := by
  rw [RootsStack.setLastProcessed, wp_bind, wp_modify, wp_bind, wp_note]
  have advanced :
      Walked chain start (max frontier height)
        ({ world with
            rootsStack :=
              { world.rootsStack with
                lastProcessedRootSlot := some (chain.block height) } }.record
          (.lastProcessedSet (chain.block height))) :=
    { reached := walked.reached.advance high returned
      memory :=
        { lastProcessed :=
            ⟨height, low.le, le_max_right frontier height, rfl⟩
          stacked := (walked.memory.mono (le_max_left frontier height)).stacked }
      disk := walked.disk.mono (le_max_left frontier height) }
  exact wp_mono (writeInfo_spec advanced) fun _ _ written => ⟨_, written.1⟩

theorem settleRoot_spec
    (walked : Walked chain start frontier world)
    (low : start < height)
    (high : height ≤ frontier + 1) :
    wp (protocol chain start) (fun _ final => Walks chain start final)
      (RootsProcessor.settleRoot consensus (chain.block height)) world := by
  simp only [RootsProcessor.settleRoot, wp_bind, wp_read, wp_note]
  have recorded :
      Walked chain start frontier
        ((world.record (.dutiesReturned (chain.block height))).record
          (.trustChecked world.keysIndexer.info.storageStateSlot)) :=
    { reached :=
        { ahead := walked.reached.ahead
          visited := by
            intro rs member
            exact walked.reached.visited rs (by simpa using member)
          top := walked.reached.top.imp_right (by simp +contextual)
          completed := by
            intro other below above
            have returned := walked.reached.completed other below above
            simp [returned] }
      memory := walked.memory
      disk := walked.disk }
  have returned :
      .dutiesReturned (chain.block height) ∈
        ((world.record (.dutiesReturned (chain.block height))).record
          (.trustChecked world.keysIndexer.info.storageStateSlot)).log := by
    simp
  have lastProcessed {current : World}
      (currentWalked : Walked chain start frontier current)
      (currentReturned : .dutiesReturned (chain.block height) ∈ current.log) :
      wp (protocol chain start) (fun _ final => Walks chain start final)
        (call (RootsStack.setLastProcessed (chain.block height))) current := by
    rw [wp_call]
    refine wp_mono
      (setLastProcessed_spec currentWalked low high currentReturned)
      fun _ final walks => ⟨walks, ?_⟩
    exact fun _ beside => (protocol_stable chain start).suspended walks beside
  split
  · rw [wp_bind, wp_call]
    refine wp_mono (purge_spec _ recorded) fun _ purged holds => ?_
    obtain ⟨purgedWalked, keeps⟩ := holds
    refine ⟨⟨frontier, purgedWalked⟩, fun moved beside => ?_⟩
    exact lastProcessed (purgedWalked.beside beside)
      ((beside.returned _).mpr (keeps _ returned))
  · exact lastProcessed recorded returned

/-- Processing a block at most one above the frontier. -/
theorem processNext_spec
    {finalizedHeader : BlockHeaderResponse}
    (serves : Serves chain consensus)
    (walked : Walked chain start frontier world)
    (low : start < height)
    (high : height ≤ frontier + 1) :
    wp (protocol chain start) (fun _ final => Walks chain start final)
      (RootsProcessor.processNext config consensus balances
        (chain.block height).blockRoot finalizedHeader) world := by
  rw [RootsProcessor.processNext, wp_bind, wp_request]
  refine ⟨⟨frontier, walked⟩, fun answered beside => ?_⟩
  have answeredWalked := walked.beside beside
  refine ⟨?_, ⟨frontier, answeredWalked⟩⟩
  -- The block the client serves for the root is the block of the chain.
  rw [serves.blockInfo height, wp_bind, wp_call]
  refine wp_mono (push_spec answeredWalked low high) fun _ pushed pushedWalked => ?_
  refine ⟨⟨frontier, pushedWalked⟩, fun moved movedBeside => ?_⟩
  rw [wp_bind]
  refine wp_mono
    (beside_spec (beside_frame.runDuties_guarantees config consensus balances _ _ _)
      (pushedWalked.beside movedBeside))
    fun _ done doneWalked => ?_
  exact settleRoot_spec doneWalked low high

/-- A root to process next: a stacked block or the child of one below the frontier. -/
def Next (chain : Chain) (start frontier : Nat) (candidate : RootSlot) : Prop :=
  ∃ height,
    start < height ∧ height ≤ frontier + 1 ∧ candidate = chain.block height

/-- What `getNext` answers is next. -/
theorem nextOf_next
    {finalizedHeader : BlockHeaderResponse}
    (serves : Serves chain consensus)
    (walked : Walked chain start frontier world)
    {root : RootHex}
    (isNext : RootsProvider.nextOf config consensus finalizedHeader world = some root) :
    ∃ candidate, Next chain start frontier candidate ∧ root = candidate.blockRoot := by
  obtain ⟨height, low, high, isLast⟩ := walked.memory.lastProcessed
  rw [RootsProvider.nextOf, isLast] at isNext
  obtain ⟨candidate, isCandidate, unlagged⟩ := Option.bind_eq_some_iff.mp isNext
  refine ⟨candidate, ?_, (RootsProvider.eq_of_unlessLagging unlagged).symm⟩
  rcases Option.or_eq_some_iff.mp isCandidate with eligible | ⟨_, isChild⟩
  · have onStack := (RootsStack.getNextEligible_some eligible).1
    obtain ⟨stackedHeight, above, below, isBlock⟩ := walked.memory.stacked _ _ onStack
    exact ⟨stackedHeight, above, below, isBlock.symm⟩
  · exact ⟨height + 1, by omega, by omega, serves.childOf isChild⟩

/-- Step lemma: one iteration keeps the walk, and so does a crash inside it. -/
theorem walkNext_spec
    {finalizedHeader : BlockHeaderResponse}
    (serves : Serves chain consensus)
    (walks : Walks chain start world) :
    wp (protocol chain start) (fun _ final => Walks chain start final)
      (Daemon.walkNext config consensus balances finalizedHeader) world := by
  obtain ⟨frontier, walked⟩ := walks
  have stable := protocol_stable chain start
  rw [Daemon.walkNext, wp_bind, wp_call]
  have stays (taken : World) (beside : Beside world taken) : Walks chain start taken :=
    ⟨frontier, walked.beside beside⟩
  apply RootsProvider.getNext_spec stable stays stays
  refine fun taken takenBeside => ⟨stays taken takenBeside, fun moved beside => ?_⟩
  have movedWalked := (walked.beside takenBeside).beside beside
  cases isNext : RootsProvider.nextOf config consensus finalizedHeader world with
  | none =>
      simp only [wp_tick]
      exact ⟨⟨frontier, movedWalked⟩, fun _ later => ⟨frontier, movedWalked.beside later⟩⟩
  | some root =>
      obtain ⟨candidate, ⟨height, low, high, rfl⟩, rfl⟩ := nextOf_next serves walked isNext
      simp only [wp_call]
      refine wp_mono (processNext_spec serves movedWalked low high) fun _ final walks => ?_
      exact ⟨walks, fun _ later => stable.suspended walks later⟩

end Specs

/-! ## Runs -/

/-- What happens next on the walk. -/
inductive Step where
  | iterate (consensus : Consensus) (finalizedHeader : BlockHeaderResponse)
      (script : List (Beat Nat))
  | reindex (storageStateSlot : Nat)
  | crash

/-- The index moves to another state slot. -/
def moveIndex (storageStateSlot : Nat) (world : World) : World :=
  { world with
    keysIndexer :=
      { world.keysIndexer with
        info :=
          { world.keysIndexer.info with storageStateSlot := storageStateSlot } } }

/-- A new process reads both files of the stack. -/
def restart (world : World) : World :=
  { world with rootsStack := RootsStack.readServiceData world.disk }

section Runs

variable (config : Config) (balances : Bool)

/-- One iteration up to the end of its script; it may be cut at any suspension. -/
def iteration (consensus : Consensus) (finalizedHeader : BlockHeaderResponse)
    (script : List (Beat Nat)) (world : World) : Async World Unit × World :=
  run moveIndex (Daemon.walkNext config consensus balances finalizedHeader) script world

/-- An iteration whose script ends before it does was cut by a crash. -/
def Step.perform (world : World) : Step → World
  | .iterate consensus finalizedHeader script =>
      leave restart (iteration config balances consensus finalizedHeader script world)
  | .reindex storageStateSlot => moveIndex storageStateSlot world
  | .crash => restart world

def perform (world : World) (steps : List Step) : World :=
  steps.foldl (Step.perform config balances) world

/-- Every client of the step serves the chain. -/
def Step.Serves (chain : Chain) : Step → Prop
  | .iterate consensus _ _ => Walk.Serves chain consensus
  | _ => True

end Runs

section Runs

variable {chain : Chain} {start : Nat} {world : World}
variable {config : Config} {balances : Bool}

/-- What every step keeps holds after every run. -/
theorem perform_keeps
    {invariant : World → Prop}
    {meets : Step → Prop}
    (keeps :
      ∀ step world,
        meets step → invariant world → invariant (step.perform config balances world))
    {steps : List Step}
    (meet : ∀ step ∈ steps, meets step)
    (initial : invariant world) :
    invariant (perform config balances world steps) := by
  induction steps generalizing world with
  | nil =>
      exact initial
  | cons step rest inductionHypothesis =>
      exact inductionHypothesis (fun later member => meet later (by simp [member]))
        (keeps step world (meet step (by simp)) initial)

theorem moveIndex_beside
    (storageStateSlot : Nat)
    (world : World) :
    Beside world (moveIndex storageStateSlot world) :=
  ⟨rfl, rfl, rfl, fun _ => Iff.rfl, fun _ => Iff.rfl⟩

theorem restart_walks
    (walks : Walks chain start world) :
    Walks chain start (restart world) := by
  obtain ⟨frontier, walked⟩ := walks
  exact ⟨frontier,
    { reached := walked.reached
      memory := walked.disk
      disk := walked.disk }⟩

/-- At every point of an iteration the walk keeps its frontier. -/
theorem iteration_established
    {consensus : Consensus}
    (serves : Serves chain consensus)
    (finalizedHeader : BlockHeaderResponse)
    (script : List (Beat Nat))
    (walks : Walks chain start world) :
    Established (protocol chain start) (fun _ final => Walks chain start final)
      (iteration config balances consensus finalizedHeader script world) :=
  run_sound (protocol_stable chain start)
    (fun storageStateSlot state => moveIndex_beside storageStateSlot state)
    (walkNext_spec serves walks) script

/-- Step lemma: every step keeps the walk. -/
theorem perform_walks
    {step : Step}
    (serves : step.Serves chain)
    (walks : Walks chain start world) :
    Walks chain start (step.perform config balances world) := by
  cases step with
  | iterate consensus finalizedHeader script =>
      exact Established.leave restart (Walks chain start)
        (fun _ suspended => restart_walks suspended)
        (fun _ _ aborted => aborted)
        (fun _ _ returned => returned)
        (iteration_established serves finalizedHeader script walks)
  | reindex storageStateSlot =>
      obtain ⟨frontier, walked⟩ := walks
      exact ⟨frontier, walked.beside (moveIndex_beside storageStateSlot world)⟩
  | crash =>
      exact restart_walks walks

/-- Run lemma: every run keeps the walk. -/
theorem run_walks
    {steps : List Step}
    (serves : ∀ step ∈ steps, step.Serves chain)
    (walks : Walks chain start world) :
    Walks chain start (perform config balances world steps) :=
  perform_keeps (fun _ _ => perform_walks) serves walks

end Runs

/-! ## No block is lost -/

/-- The largest slot the last processed root has held, from its first value on. -/
def largestSlot (lastProcessed : RootSlot) (log : List Event) : Nat :=
  log.foldl
    (fun largest event =>
      match event with
      | .lastProcessedSet rs => max largest rs.slotNumber
      | _ => largest)
    lastProcessed.slotNumber

private theorem foldl_largest_le
    (log : List Event)
    (first bound : Nat) :
    log.foldl
        (fun largest event =>
          match event with
          | .lastProcessedSet rs => max largest rs.slotNumber
          | _ => largest)
        first ≤ bound ↔
      first ≤ bound ∧
        ∀ rs, .lastProcessedSet rs ∈ log → rs.slotNumber ≤ bound := by
  induction log generalizing first with
  | nil =>
      simp
  | cons event rest inductionHypothesis =>
      rw [List.foldl_cons, inductionHypothesis]
      cases event with
      | lastProcessedSet rs =>
          simp only [max_le_iff, List.mem_cons, Event.lastProcessedSet.injEq]
          constructor
          · rintro ⟨⟨firstBelow, rsBelow⟩, restBelow⟩
            refine ⟨firstBelow, fun other member => ?_⟩
            rcases member with rfl | inRest
            · exact rsBelow
            · exact restBelow other inRest
          · rintro ⟨firstBelow, below⟩
            exact ⟨⟨firstBelow, below rs (.inl rfl)⟩, fun other inRest =>
              below other (.inr inRest)⟩
      | _ =>
          simp

/-- The largest slot is the slot of the frontier. -/
theorem Reached.largestSlot
    {chain : Chain}
    {start frontier : Nat}
    {log : List Event}
    (reached : Reached chain start frontier log) :
    largestSlot (chain.block start) log = (chain.block frontier).slotNumber := by
  apply le_antisymm
  · rw [Walk.largestSlot, foldl_largest_le]
    refine ⟨chain.increasing.monotone reached.ahead, fun rs visited => ?_⟩
    obtain ⟨height, below, rfl⟩ := reached.visited rs visited
    exact chain.increasing.monotone below
  · have bounded :=
      (foldl_largest_le log (chain.block start).slotNumber
        (Walk.largestSlot (chain.block start) log)).mp le_rfl
    rcases reached.top with isStart | visited
    · rw [isStart]
      exact bounded.1
    · exact bounded.2 _ visited

/-- A block is in the stack of a process. -/
def OnStack (fields : RootsStackFields) (rs : RootSlot) : Prop :=
  fields.storage[rs.slotNumber]? = some rs.blockRoot

/--
Every canonical block up to the largest slot of the last processed root is in
the stack or has had its duties returned, and every stacked root is such a block
or the canonical child of the largest one.
-/
structure NothingLost (chain : Chain) (start : Nat) (world : World) : Prop where
  below :
    ∀ height,
      (chain.block start).slotNumber < (chain.block height).slotNumber →
      (chain.block height).slotNumber ≤ largestSlot (chain.block start) world.log →
      OnStack world.rootsStack (chain.block height) ∨
        .dutiesReturned (chain.block height) ∈ world.log
  stacked :
    ∀ rs,
      OnStack world.rootsStack rs →
      ∃ height,
        rs = chain.block height ∧
          (rs.slotNumber ≤ largestSlot (chain.block start) world.log ∨
            ∃ top,
              height = top + 1 ∧
                (chain.block top).slotNumber =
                  largestSlot (chain.block start) world.log)

theorem Walks.nothingLost
    {chain : Chain}
    {start : Nat}
    {world : World}
    (walks : Walks chain start world) :
    NothingLost chain start world := by
  obtain ⟨frontier, reached, memory, _⟩ := walks
  constructor
  · intro height above atMost
    rw [reached.largestSlot] at atMost
    exact .inr
      (reached.completed height (chain.increasing.lt_iff_lt.mp above)
        (chain.increasing.le_iff_le.mp atMost))
  · intro rs onStack
    obtain ⟨height, _, atMost, isBlock⟩ := memory.stacked _ _ onStack
    refine ⟨height, isBlock.symm, ?_⟩
    rw [reached.largestSlot]
    rcases Nat.lt_or_ge frontier height with above | below
    · exact .inr ⟨frontier, by omega, rfl⟩
    · have slotBelow := chain.increasing.monotone below
      simp only [isBlock] at slotBelow
      exact .inl slotBelow

/--
From a persisted last processed root with an empty stack, no run of iterations,
index changes and crashes loses a block, at its end or inside an iteration.
-/
theorem no_block_lost
    (config : Config)
    (balances : Bool)
    (chain : Chain)
    (start : Nat)
    (world : World)
    (lastProcessed : world.disk.rootsStackInfo = some (some (chain.block start)))
    (emptyStack :
      ∀ slot : Nat, (world.disk.rootsStackStorage.getD ∅)[slot]? = none)
    (noEvents : world.log = [])
    (steps : List Step)
    (serves : ∀ step ∈ steps, step.Serves chain) :
    NothingLost chain start (perform config balances (restart world) steps) ∧
      ∀ consensus finalizedHeader script,
        Serves chain consensus →
        NothingLost chain start
          (iteration config balances consensus finalizedHeader script
            (perform config balances (restart world) steps)).2 := by
  have holds : Holds chain start start (RootsStack.readServiceData world.disk) :=
    { lastProcessed := ⟨start, le_rfl, le_rfl, by simp [RootsStack.readServiceData, lastProcessed]⟩
      stacked := by
        intro slot blockRoot found
        rw [RootsStack.readServiceData, emptyStack slot] at found
        cases found }
  have initial : Walks chain start (restart world) :=
    ⟨start,
      { reached :=
          { ahead := le_rfl
            visited := by simp [restart, noEvents]
            top := .inl rfl
            completed := fun height low high => by omega }
        memory := holds
        disk := holds }⟩
  have final :
      Walks chain start (perform config balances (restart world) steps) :=
    run_walks serves initial
  refine ⟨final.nothingLost, fun consensus finalizedHeader script clientServes => ?_⟩
  exact
    ((iteration_established clientServes finalizedHeader script final).holds
      (Walks chain start) (fun _ walks => walks) (fun _ _ walks => walks)
      (fun _ _ walks => walks)).nothingLost

/-- A chain without missed slots. -/
def sampleChain : Chain where
  block := fun height => { blockRoot := height, slotNumber := height }
  increasing := fun _ _ below => below

def sampleHeader (slot : Nat) : BlockHeaderResponse where
  root := slot
  canonical := true
  message :=
    { slot := slot
      proposerIndex := 0
      parentRoot := slot - 1
      stateRoot := slot
      bodyRoot := slot }

def sampleConsensus : Consensus where
  genesisTimestamp := 0
  beaconConfig := .mainnet
  blockInfo := fun root =>
    { slot := root
      parentRoot := root - 1
      blockHash := root
      withdrawals := []
      proposerSlashings := []
      attesterSlashings := [] }
  beaconHeader := sampleHeader
  beaconHeadersByParentRoot := fun root =>
    { finalized := true, data := [sampleHeader (root + 1)] }
  state := fun _ => { validators := [], balances := [] }
  stateAtSlot := fun _ => { validators := [], balances := [] }

theorem sampleConsensus_serves :
    Serves sampleChain sampleConsensus where
  blockInfo := fun _ => rfl
  child := by
    rintro height header - isCanonical
    have isChild : sampleHeader (height + 1) = header := by
      simpa [firstCanonical, sampleConsensus, sampleHeader, sampleChain] using isCanonical
    rw [← isChild]
    exact ⟨rfl, rfl⟩

/-- A walk that stands at slot 5 when the process starts. -/
def sampleWorld : World :=
  { World.blank (sampleHeader 7) with
    disk :=
      { (World.blank (sampleHeader 7)).disk with
        rootsStackInfo := some (some { blockRoot := 5, slotNumber := 5 }) } }

def iterateQuietly (suspensions : Nat) : Step :=
  .iterate sampleConsensus (sampleHeader 7)
    (List.replicate suspensions (.quiet .resolved))

/-- A block, a crash inside the next one, that block again from the stack. -/
def sampleSteps : List Step :=
  [iterateQuietly 40, iterateQuietly 6, .reindex 10, iterateQuietly 40]

set_option maxRecDepth 4000 in
theorem no_block_lost_sample :
    (perform (.defaults "0xab" 1) false (restart sampleWorld)
        sampleSteps).rootsStack.lastProcessedRootSlot =
        some { blockRoot := 7, slotNumber := 7 } ∧
      NothingLost sampleChain 5
        (perform (.defaults "0xab" 1) false (restart sampleWorld) sampleSteps) :=
  ⟨by decide,
    (no_block_lost (.defaults "0xab" 1) false sampleChain 5 sampleWorld rfl
      (by simp [sampleWorld, World.blank]) rfl sampleSteps
      (by
        intro step member
        simp only [sampleSteps, iterateQuietly, List.mem_cons, List.not_mem_nil,
          or_false] at member
        rcases member with rfl | rfl | rfl | rfl
        all_goals first | exact sampleConsensus_serves | trivial)).1⟩

end Walk

end CsmProver
