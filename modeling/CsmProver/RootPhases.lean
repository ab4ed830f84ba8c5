import CsmProver.Walk

namespace CsmProver

/-!
# The phases of one root

A root that is handed to `processNext` is pushed, its duties return, it leaves the stack
when the index is trusted for every duty, and it becomes the last processed one; every
change of the stack is followed by a write of a file.  What is assumed of the root before
its duties have returned, after that, and at the end is an assertion for each phase.
Assertions that survive the updates of their phase hold when the phase ends, and what
they have in common holds at every suspension and at every failure.
-/

open Std (TreeMap)
open Async
open Walk

namespace RootPhases

variable {chain : Chain} {height : Nat} {world moved : World}

/-! ## The updates -/

/-- The duties of the block have returned. -/
def Done (chain : Chain) (log : List Event) (height : Nat) : Prop :=
  .dutiesReturned (chain.block height) ∈ log

/-- The stack with the root of a height. -/
def stackedWith (chain : Chain) (height : Nat) (world : World) : World :=
  { world with
    rootsStack :=
      { world.rootsStack with
        storage :=
          world.rootsStack.storage.insert (chain.block height).slotNumber
            (chain.block height).blockRoot } }

/-- The duties have returned, and the trust in the index has been asked for. -/
def afterDuties (chain : Chain) (height storageStateSlot : Nat) (world : World) : World :=
  (world.record (.dutiesReturned (chain.block height))).record
    (.trustChecked storageStateSlot)

/-- The stack without the root of a height. -/
def erased (chain : Chain) (height : Nat) (world : World) : World :=
  { world with
      rootsStack :=
        { world.rootsStack with
          storage := world.rootsStack.storage.erase (chain.block height).slotNumber } }.record
    (.purged (chain.block height))

/-- The world in which the last processed root has moved to a height. -/
def advanced (chain : Chain) (height : Nat) (world : World) : World :=
  { world with
      rootsStack :=
        { world.rootsStack with lastProcessedRootSlot := some (chain.block height) } }.record
    (.lastProcessedSet (chain.block height))

/-- The storage file has taken over the stack. -/
def savedStorage (world : World) : World :=
  { world with
    disk := { world.disk with rootsStackStorage := some world.rootsStack.storage } }

/-- The info file has taken over the last processed root. -/
def savedInfo (world : World) : World :=
  { world with
    disk :=
      { world.disk with rootsStackInfo := some world.rootsStack.lastProcessedRootSlot } }

/-- Different heights have different slots. -/
theorem height_eq_of_slot
    {other : Nat}
    (same : (chain.block height).slotNumber = (chain.block other).slotNumber) :
    other = height :=
  (chain.increasing.injective same).symm

/-- Different heights have different blocks. -/
theorem height_eq_of_block
    {other : Nat}
    (same : chain.block height = chain.block other) :
    other = height :=
  height_eq_of_slot (congrArg RootSlot.slotNumber same)

theorem getElem?_stackedWith
    (slot : Nat) :
    (stackedWith chain height world).rootsStack.storage[slot]? =
      if (chain.block height).slotNumber = slot then some (chain.block height).blockRoot
      else world.rootsStack.storage[slot]? := by
  simp [stackedWith, TreeMap.getElem?_insert]

theorem getElem?_erased
    (slot : Nat) :
    (erased chain height world).rootsStack.storage[slot]? =
      if (chain.block height).slotNumber = slot then none
      else world.rootsStack.storage[slot]? := by
  simp [erased, TreeMap.getElem?_erase]

/-- A push stacks the root of its height and no other. -/
@[simp] theorem onStack_stackedWith
    {other : Nat} :
    OnStack (stackedWith chain height world).rootsStack (chain.block other) ↔
      other = height ∨ OnStack world.rootsStack (chain.block other) := by
  rw [OnStack, getElem?_stackedWith]
  split
  · next same =>
      obtain rfl := height_eq_of_slot same
      simp
  · next different =>
      constructor
      · exact .inr
      · rintro (rfl | onStack)
        · exact absurd rfl different
        · exact onStack

/-- A purge unstacks the root of its height and no other. -/
@[simp] theorem onStack_erased
    {other : Nat} :
    OnStack (erased chain height world).rootsStack (chain.block other) ↔
      other ≠ height ∧ OnStack world.rootsStack (chain.block other) := by
  rw [OnStack, getElem?_erased]
  split
  · next same =>
      obtain rfl := height_eq_of_slot same
      simp
  · next different =>
      have isOther : other ≠ height := by
        rintro rfl
        exact different rfl
      simp [isOther, OnStack]

@[simp] theorem onStack_advanced
    {rs : RootSlot} :
    OnStack (advanced chain height world).rootsStack rs ↔ OnStack world.rootsStack rs :=
  Iff.rfl

/-- The duties of one block more have returned. -/
@[simp] theorem done_afterDuties
    {storageStateSlot other : Nat} :
    Done chain (afterDuties chain height storageStateSlot world).log other ↔
      other = height ∨ Done chain world.log other := by
  constructor
  · intro done
    rcases (by simpa [Done, afterDuties] using done :
        .dutiesReturned (chain.block other) ∈ world.log ∨
          chain.block other = chain.block height) with earlier | same
    · exact .inr earlier
    · exact .inl (height_eq_of_block same.symm)
  · rintro (rfl | done)
    · simp [Done, afterDuties]
    · simp [Done, afterDuties, show Event.dutiesReturned (chain.block other) ∈ world.log from done]

@[simp] theorem done_erased
    {other : Nat} :
    Done chain (erased chain height world).log other ↔ Done chain world.log other := by
  simp [Done, erased]

@[simp] theorem done_advanced
    {other : Nat} :
    Done chain (advanced chain height world).log other ↔ Done chain world.log other := by
  simp [Done, advanced]

/-- The others let no duties return. -/
theorem done_beside
    (beside : Beside world moved)
    (other : Nat) :
    Done chain moved.log other ↔ Done chain world.log other :=
  beside.returned _

/-! ## Assertions for the phases -/

/--
Assertions about a root before its duties have returned, until it becomes the last
processed one, and after that; `held` is what holds throughout.
-/
structure Phases (chain : Chain) (height : Nat)
    (held handed settling settled : World → Prop) : Prop where
  handedHeld : ∀ world, handed world → held world
  settlingHeld : ∀ world, settling world → held world
  settledHeld : ∀ world, settled world → held world
  handedStays : ∀ world moved, handed world → Beside world moved → handed moved
  settlingStays : ∀ world moved, settling world → Beside world moved → settling moved
  settledStays : ∀ world moved, settled world → Beside world moved → settled moved
  push : ∀ world, handed world → handed (stackedWith chain height world)
  returns :
    ∀ world storageStateSlot,
      handed world → settling (afterDuties chain height storageStateSlot world)
  erase : ∀ world, settling world → settling (erased chain height world)
  advance : ∀ world, settling world → settled (advanced chain height world)
  savesHanded : ∀ world, handed world → handed (savedStorage world)
  savesSettling : ∀ world, settling world → settling (savedStorage world)
  savesSettled : ∀ world, settled world → settled (savedInfo world)

/-- Two families of assertions hold side by side. -/
theorem Phases.and
    {held handed settling settled otherHeld otherHanded otherSettling otherSettled :
      World → Prop}
    (phases : Phases chain height held handed settling settled)
    (others : Phases chain height otherHeld otherHanded otherSettling otherSettled) :
    Phases chain height (fun world => held world ∧ otherHeld world)
      (fun world => handed world ∧ otherHanded world)
      (fun world => settling world ∧ otherSettling world)
      (fun world => settled world ∧ otherSettled world) where
  handedHeld := fun _ holds => holds.imp (phases.handedHeld _) (others.handedHeld _)
  settlingHeld := fun _ holds => holds.imp (phases.settlingHeld _) (others.settlingHeld _)
  settledHeld := fun _ holds => holds.imp (phases.settledHeld _) (others.settledHeld _)
  handedStays := fun _ _ holds beside =>
    ⟨phases.handedStays _ _ holds.1 beside, others.handedStays _ _ holds.2 beside⟩
  settlingStays := fun _ _ holds beside =>
    ⟨phases.settlingStays _ _ holds.1 beside, others.settlingStays _ _ holds.2 beside⟩
  settledStays := fun _ _ holds beside =>
    ⟨phases.settledStays _ _ holds.1 beside, others.settledStays _ _ holds.2 beside⟩
  push := fun _ holds => holds.imp (phases.push _) (others.push _)
  returns := fun _ slot holds => holds.imp (phases.returns _ slot) (others.returns _ slot)
  erase := fun _ holds => holds.imp (phases.erase _) (others.erase _)
  advance := fun _ holds => holds.imp (phases.advance _) (others.advance _)
  savesHanded := fun _ holds => holds.imp (phases.savesHanded _) (others.savesHanded _)
  savesSettling := fun _ holds =>
    holds.imp (phases.savesSettling _) (others.savesSettling _)
  savesSettled := fun _ holds => holds.imp (phases.savesSettled _) (others.savesSettled _)

/-- The others move beside the walk, and what holds throughout holds when it is cut. -/
def protocol (held : World → Prop) : Protocol World where
  rely := Beside
  suspended := held
  aborted := fun _ => held

theorem protocol_stable
    {held : World → Prop}
    (stays : ∀ world moved, held world → Beside world moved → held moved) :
    (protocol held).Stable where
  refl := beside_refl
  trans := beside_trans
  suspended := fun holds beside => stays _ _ holds beside
  aborted := fun holds beside => stays _ _ holds beside

/-! ## Processing a root -/

section Specs

variable {held handed settling settled : World → Prop}

/-- Writing a file keeps an assertion that survives the write. -/
theorem writeFile_spec
    {assertion : World → Prop}
    {save : World → Disk → Disk}
    (holds : assertion world)
    (within : ∀ current, assertion current → held current)
    (stays : ∀ current later, assertion current → Beside current later → assertion later)
    (saves :
      ∀ current,
        Beside world current →
        assertion current →
        assertion { current with disk := save world current.disk }) :
    wp (protocol held) (fun _ final => assertion final) (writeFile save) world :=
  writeFile_keeps holds within (fun _ => within) stays saves

/-- A called function of the walk keeps what it ends in until its caller goes on. -/
theorem call_spec
    {assertion : World → Prop}
    {body : Async World Unit}
    (within : ∀ current, assertion current → held current)
    (stays : ∀ current later, assertion current → Beside current later → assertion later)
    (holds : wp (protocol held) (fun _ final => assertion final) body world) :
    wp (protocol held) (fun _ final => assertion final) (call body) world := by
  rw [wp_call]
  refine wp_mono holds fun _ final reached => ⟨within final reached, fun later beside => ?_⟩
  exact stays final later reached beside

/-- The stack that is written is the stack in memory. -/
theorem writeStorage_spec
    {assertion : World → Prop}
    (holds : assertion world)
    (within : ∀ current, assertion current → held current)
    (stays : ∀ current later, assertion current → Beside current later → assertion later)
    (saves : ∀ current, assertion current → assertion (savedStorage current)) :
    wp (protocol held) (fun _ final => assertion final) RootsStack.writeStorage world := by
  refine writeFile_spec holds within stays fun current beside reached => ?_
  rw [← beside.stack]
  exact saves current reached

variable (phases : Phases chain height held handed settling settled)

include phases

theorem push_spec
    (holds : handed world) :
    wp (protocol held) (fun _ final => handed final)
      (RootsStack.push (chain.block height)) world := by
  rw [RootsStack.push, wp_bind, wp_read]
  cases world.rootsStack.storage[(chain.block height).slotNumber]? with
  | some stacked =>
      exact holds
  | none =>
      rw [wp_bind, RootsStack.modifyStorage, wp_modify]
      exact writeStorage_spec (phases.push world holds) phases.handedHeld
        phases.handedStays phases.savesHanded

theorem purge_spec
    (holds : settling world) :
    wp (protocol held) (fun _ final => settling final)
      (RootsStack.purge (chain.block height)) world := by
  rw [RootsStack.purge, wp_bind, wp_read]
  cases world.rootsStack.storage[(chain.block height).slotNumber]? with
  | none =>
      exact holds
  | some stacked =>
      rw [wp_bind, RootsStack.modifyStorage, wp_modify, wp_bind, wp_note]
      exact writeStorage_spec (phases.erase world holds) phases.settlingHeld
        phases.settlingStays phases.savesSettling

theorem setLastProcessed_spec
    (holds : settling world) :
    wp (protocol held) (fun _ final => settled final)
      (RootsStack.setLastProcessed (chain.block height)) world := by
  rw [RootsStack.setLastProcessed, wp_bind, wp_modify, wp_bind, wp_note]
  refine writeFile_spec (phases.advance world holds) phases.settledHeld
    phases.settledStays fun current beside reached => ?_
  rw [← beside.stack]
  exact phases.savesSettled current reached

theorem settleRoot_spec
    {consensus : Consensus}
    (holds : handed world) :
    wp (protocol held) (fun _ final => settled final)
      (RootsProcessor.settleRoot consensus (chain.block height)) world := by
  simp only [RootsProcessor.settleRoot, wp_bind, wp_read, wp_note]
  have settlingNow :=
    phases.returns world world.keysIndexer.info.storageStateSlot holds
  have lastProcessed {current : World} (reached : settling current) :
      wp (protocol held) (fun _ final => settled final)
        (call (RootsStack.setLastProcessed (chain.block height))) current :=
    call_spec phases.settledHeld phases.settledStays (setLastProcessed_spec phases reached)
  split
  · rw [wp_bind]
    exact wp_mono
      (call_spec phases.settlingHeld phases.settlingStays (purge_spec phases settlingNow))
      fun _ _ reached => lastProcessed reached
  · exact lastProcessed settlingNow

/-- Processing a root goes through the phases. -/
theorem processNext_spec
    {config : Config}
    {consensus : Consensus}
    {balances : Bool}
    {finalizedHeader : BlockHeaderResponse}
    (serves : Serves chain consensus)
    (holds : handed world) :
    wp (protocol held) (fun _ final => settled final)
      (RootsProcessor.processNext config consensus balances
        (chain.block height).blockRoot finalizedHeader) world := by
  rw [RootsProcessor.processNext, wp_bind, wp_request]
  refine ⟨phases.handedHeld world holds, fun answered beside => ?_⟩
  have answeredHolds := phases.handedStays world answered holds beside
  refine ⟨?_, phases.handedHeld answered answeredHolds⟩
  -- The block the client serves for the root is the block of the chain.
  rw [serves.blockInfo height, wp_bind]
  refine wp_mono
    (call_spec phases.handedHeld phases.handedStays (push_spec phases answeredHolds))
    fun _ pushed pushedHolds => ?_
  rw [wp_bind]
  refine wp_mono
    (wp_of_guarantees beside_refl beside_trans id
      (fun current beside =>
        phases.handedHeld current (phases.handedStays pushed current pushedHolds beside))
      (fun _ current beside =>
        phases.handedHeld current (phases.handedStays pushed current pushedHolds beside))
      (beside_frame.runDuties_guarantees config consensus balances _ _ _))
    fun _ done doneBeside => ?_
  exact settleRoot_spec phases (phases.handedStays pushed done pushedHolds doneBeside)

end Specs

/--
One iteration keeps an invariant, if every root that is handed over from it goes
through phases that end in it.
-/
theorem walkNext_spec
    {config : Config}
    {consensus : Consensus}
    {balances : Bool}
    {finalizedHeader : BlockHeaderResponse}
    {held invariant : World → Prop}
    (serves : Serves chain consensus)
    (within : ∀ current, invariant current → held current)
    (stays : ∀ current later, invariant current → Beside current later → invariant later)
    (heldStays : ∀ current later, held current → Beside current later → held later)
    (holds : invariant world)
    (hands :
      ∀ root,
        RootsProvider.nextOf config consensus finalizedHeader world = some root →
        ∃ height handed settling,
          root = (chain.block height).blockRoot ∧
            Phases chain height held handed settling invariant ∧ handed world) :
    wp (protocol held) (fun _ final => invariant final)
      (Daemon.walkNext config consensus balances finalizedHeader) world := by
  rw [Daemon.walkNext, wp_bind, wp_call]
  have besideHolds (taken : World) (beside : Beside world taken) : invariant taken :=
    stays world taken holds beside
  apply RootsProvider.getNext_spec (protocol_stable heldStays)
  · exact fun taken beside => within taken (besideHolds taken beside)
  · exact fun taken beside => within taken (besideHolds taken beside)
  · intro taken takenBeside
    refine ⟨within taken (besideHolds taken takenBeside), fun moved beside => ?_⟩
    have movedBeside := beside_trans takenBeside beside
    have movedHolds := besideHolds moved movedBeside
    cases isNext : RootsProvider.nextOf config consensus finalizedHeader world with
    | none =>
        simp only [wp_tick]
        exact ⟨within moved movedHolds, fun later laterBeside =>
          stays moved later movedHolds laterBeside⟩
    | some root =>
        obtain ⟨height, handed, settling, rfl, phases, handedOver⟩ := hands root isNext
        exact call_spec within stays
          (processNext_spec phases serves
            (phases.handedStays world moved handedOver movedBeside))

end RootPhases

end CsmProver
