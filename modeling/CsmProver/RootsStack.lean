import CsmProver.KeysIndexer

namespace CsmProver

/-!
# Roots stack and roots provider

The stack keeps, under its slot, every root whose processing is not settled
yet.  The provider takes the next root from the stack when the index can be
trusted for it, and otherwise the finalized child of the last processed root.
-/

open Std (TreeMap)
open Async

namespace RootsStack

section Stack

variable (consensus : Consensus)

/-- The lowest stacked slot the index is trusted for in some duty. -/
def getNextEligible (world : World) : Option RootSlot :=
  (world.rootsStack.storage.toList.find? fun entry =>
      KeysIndexer.isTrustedForAnyDuty consensus
        world.keysIndexer.info.storageStateSlot entry.1).map
    fun entry => { blockRoot := entry.2, slotNumber := entry.1 }

section Eligible

variable {consensus : Consensus} {world : World}

/-- The next eligible root is the lowest stacked one the index is trusted for. -/
theorem getNextEligible_some
    {rs : RootSlot}
    (eligible : getNextEligible consensus world = some rs) :
    world.rootsStack.storage[rs.slotNumber]? = some rs.blockRoot ∧
      KeysIndexer.isTrustedForAnyDuty consensus
          world.keysIndexer.info.storageStateSlot rs.slotNumber = true ∧
      ∀ slot blockRoot,
        world.rootsStack.storage[slot]? = some blockRoot →
        KeysIndexer.isTrustedForAnyDuty consensus
            world.keysIndexer.info.storageStateSlot slot = true →
        rs.slotNumber ≤ slot := by
  rw [getNextEligible, Option.map_eq_some_iff] at eligible
  obtain ⟨entry, found, rfl⟩ := eligible
  have stacked :=
    TreeMap.mem_toList_iff_getElem?_eq_some.mp (List.mem_of_find?_eq_some found)
  obtain ⟨trusted, before, after, shape, earlier⟩ :=
    List.find?_eq_some_iff_append.mp found
  refine ⟨stacked, trusted, fun slot blockRoot otherStacked otherTrusted => ?_⟩
  have member := TreeMap.mem_toList_iff_getElem?_eq_some.mpr otherStacked
  have ordered :
      world.rootsStack.storage.toList.Pairwise fun lower higher =>
        compare lower.1 higher.1 = .lt :=
    TreeMap.ordered_keys_toList
  rw [shape] at member ordered
  rcases List.mem_append.mp member with inBefore | inRest
  · have untrusted := earlier (slot, blockRoot) inBefore
    simp [otherTrusted] at untrusted
  · rcases List.mem_cons.mp inRest with isEntry | inAfter
    · exact (congrArg Prod.fst isEntry).ge
    · have above := (List.pairwise_cons.mp (List.pairwise_append.mp ordered).2.1).1 _ inAfter
      exact (Nat.compare_eq_lt.mp above).le

theorem getNextEligible_none
    (none : getNextEligible consensus world = none)
    (slot : Nat)
    (blockRoot : RootHex)
    (stacked : world.rootsStack.storage[slot]? = some blockRoot) :
    ¬ KeysIndexer.isTrustedForAnyDuty consensus
        world.keysIndexer.info.storageStateSlot slot = true := by
  rw [getNextEligible, Option.map_eq_none_iff, List.find?_eq_none] at none
  exact none (slot, blockRoot) (TreeMap.mem_toList_iff_getElem?_eq_some.mpr stacked)

end Eligible

/-- Change the in-memory stack. -/
def modifyStorage (update : RootsStackServiceStorage → RootsStackServiceStorage) :
    Async World Unit :=
  .modify fun world =>
    { world with
      rootsStack :=
        { world.rootsStack with storage := update world.rootsStack.storage } }

/-- `storage.write()`. -/
def writeStorage : Async World Unit :=
  writeFile fun world disk =>
    { disk with rootsStackStorage := some world.rootsStack.storage }

/-- `info.write()`. -/
def writeInfo : Async World Unit :=
  writeFile fun world disk =>
    { disk with rootsStackInfo := some world.rootsStack.lastProcessedRootSlot }

/-- A root already stacked under the slot is kept. -/
def push (rs : RootSlot) : Async World Unit := do
  let world ← read
  match world.rootsStack.storage[rs.slotNumber]? with
  | some _ => return ()
  | none =>
      modifyStorage fun storage => storage.insert rs.slotNumber rs.blockRoot
      writeStorage

/-- Removes whatever root is stacked under the slot. -/
def purge (rs : RootSlot) : Async World Unit := do
  let world ← read
  match world.rootsStack.storage[rs.slotNumber]? with
  | none => return ()
  | some _ =>
      modifyStorage fun storage => storage.erase rs.slotNumber
      note (.purged rs)
      writeStorage

def getLastProcessed (world : World) : Option RootSlot :=
  world.rootsStack.lastProcessedRootSlot

def setLastProcessed (item : RootSlot) : Async World Unit := do
  modify fun world =>
    { world with
      rootsStack := { world.rootsStack with lastProcessedRootSlot := some item } }
  note (.lastProcessedSet item)
  writeInfo

/-- `onModuleInit`: a process starts only after both files are read. -/
def readServiceData (disk : Disk) : RootsStackFields where
  lastProcessedRootSlot := disk.rootsStackInfo.getD none
  storage := disk.rootsStackStorage.getD ∅

end Stack

end RootsStack

namespace RootsProvider

section Provider

variable (config : Config) (consensus : Consensus)

def getKnown (finalizedHeader : BlockHeaderResponse) : RootHex :=
  match config.startRoot with
  | some configured => configured
  | none => finalizedHeader.root

def getChild (lastProcessed : RootSlot) (finalizedHeader : BlockHeaderResponse) :
    Async World (Option RootSlot) := do
  if lastProcessed.blockRoot = finalizedHeader.root then
    return none
  let childHeaders ← request (consensus.beaconHeadersByParentRoot lastProcessed.blockRoot)
  if childHeaders.data.length = 0 ∨ ¬ childHeaders.finalized then
    return none
  match firstCanonical childHeaders.data with
  | none => return none
  | some canonical =>
      return some { blockRoot := canonical.root, slotNumber := canonical.message.slot }

/-- The stack goes before the child of the last processed root. -/
def getCandidate (lastProcessed : RootSlot) (stacked : Option RootSlot)
    (finalizedHeader : BlockHeaderResponse) : Async World (Option RootSlot) :=
  match stacked with
  | some stacked => pure (some stacked)
  | none => call (getChild consensus lastProcessed finalizedHeader)

/-- The lag gate is off for a cold start. -/
def getNext (finalizedHeader : BlockHeaderResponse) : Async World (Option RootHex) := do
  let world ← read
  match RootsStack.getLastProcessed world with
  | none => return some (getKnown config finalizedHeader)
  | some lastProcessed =>
      let candidate ← getCandidate consensus lastProcessed
        (RootsStack.getNextEligible consensus world) finalizedHeader
      match candidate with
      | none => return none
      | some candidate =>
          let lag : Int := config.rootsProcessingLagSlots
          let diff : Int := finalizedHeader.message.slot - candidate.slotNumber
          if lag > 0 ∧ lag > diff then
            return none
          return some candidate.blockRoot

end Provider

/-! ## The answers of the provider -/

section Answers

variable (config : Config) (consensus : Consensus)
variable (finalizedHeader : BlockHeaderResponse)

/-- What `getChild` answers. -/
def childOf (lastProcessed : RootSlot) : Option RootSlot :=
  let childHeaders := consensus.beaconHeadersByParentRoot lastProcessed.blockRoot
  if lastProcessed.blockRoot = finalizedHeader.root then none
  else if childHeaders.data.length = 0 ∨ ¬ childHeaders.finalized then none
  else
    (firstCanonical childHeaders.data).map fun canonical =>
      { blockRoot := canonical.root, slotNumber := canonical.message.slot }

/-- A candidate too close to the finalized block waits. -/
def unlessLagging (candidate : RootSlot) : Option RootHex :=
  let lag : Int := config.rootsProcessingLagSlots
  let diff : Int := finalizedHeader.message.slot - candidate.slotNumber
  if lag > 0 ∧ lag > diff then none else some candidate.blockRoot

/-- What `getNext` answers in the state in which it is called. -/
def nextOf (world : World) : Option RootHex :=
  match world.rootsStack.lastProcessedRootSlot with
  | none => some (getKnown config finalizedHeader)
  | some last =>
      ((RootsStack.getNextEligible consensus world).or
        (childOf consensus finalizedHeader last)).bind
          (unlessLagging config finalizedHeader)

variable {config consensus finalizedHeader}

theorem eq_of_unlessLagging
    {candidate : RootSlot}
    {root : RootHex}
    (ahead : unlessLagging config finalizedHeader candidate = some root) :
    candidate.blockRoot = root := by
  simp only [unlessLagging] at ahead
  split at ahead
  · cases ahead
  · exact Option.some.inj ahead

/-- A child is the first canonical header of a finalized answer. -/
theorem childOf_eq_some
    {lastProcessed child : RootSlot}
    (isChild : childOf consensus finalizedHeader lastProcessed = some child) :
    ∃ header,
      (consensus.beaconHeadersByParentRoot lastProcessed.blockRoot).finalized = true ∧
        firstCanonical
            (consensus.beaconHeadersByParentRoot lastProcessed.blockRoot).data =
          some header ∧
        child = { blockRoot := header.root, slotNumber := header.message.slot } := by
  simp only [childOf] at isChild
  split at isChild
  · cases isChild
  · split at isChild
    · cases isChild
    · next served =>
        rw [not_or, not_not] at served
        obtain ⟨header, isCanonical, rfl⟩ := Option.map_eq_some_iff.mp isChild
        exact ⟨header, served.2, isCanonical, rfl⟩

variable {protocol : Protocol World} {world : World}

/-- The children are asked for at most once, in one request. -/
theorem getChild_spec
    {post : Option RootSlot → World → Prop}
    (stable : protocol.Stable)
    (suspends : protocol.suspended world)
    (aborts : ∀ moved, protocol.rely world moved → protocol.aborted .rejected moved)
    (lastProcessed : RootSlot)
    (returns :
      ∀ moved,
        protocol.rely world moved →
        post (childOf consensus finalizedHeader lastProcessed) moved) :
    wp protocol post (getChild consensus lastProcessed finalizedHeader) world := by
  unfold getChild
  unfold childOf at returns
  by_cases atFinalized : lastProcessed.blockRoot = finalizedHeader.root
  · simp only [if_pos atFinalized] at returns ⊢
    exact returns world (stable.refl world)
  · simp only [if_neg atFinalized, wp_bind, wp_request] at returns ⊢
    refine ⟨suspends, fun moved relied => ⟨?_, aborts moved relied⟩⟩
    have returned := returns moved relied
    by_cases unserved :
      (consensus.beaconHeadersByParentRoot lastProcessed.blockRoot).data.length = 0 ∨
        ¬ (consensus.beaconHeadersByParentRoot
            lastProcessed.blockRoot).finalized = true
    · simp only [if_pos unserved] at returned ⊢
      exact returned
    · simp only [if_neg unserved] at returned ⊢
      cases canonical :
          firstCanonical
            (consensus.beaconHeadersByParentRoot lastProcessed.blockRoot).data <;>
        rw [canonical] at returned <;>
        exact returned

theorem getNext_spec
    {post : Option RootHex → World → Prop}
    (stable : protocol.Stable)
    (suspends : ∀ moved, protocol.rely world moved → protocol.suspended moved)
    (aborts : ∀ moved, protocol.rely world moved → protocol.aborted .rejected moved)
    (returns :
      ∀ moved,
        protocol.rely world moved →
        post (nextOf config consensus finalizedHeader world) moved) :
    wp protocol post (getNext config consensus finalizedHeader) world := by
  have suspendsHere := suspends world (stable.refl world)
  rw [getNext, wp_bind, wp_read, RootsStack.getLastProcessed]
  cases isLast : world.rootsStack.lastProcessedRootSlot with
  | none =>
      have answer : nextOf config consensus finalizedHeader world =
          some (getKnown config finalizedHeader) := by
        rw [nextOf, isLast]
      rw [answer] at returns
      exact returns world (stable.refl world)
  | some last =>
      have candidateSpec :
          wp protocol
            (fun candidate final =>
              candidate =
                  (RootsStack.getNextEligible consensus world).or
                    (childOf consensus finalizedHeader last) ∧
                protocol.rely world final)
            (getCandidate consensus last (RootsStack.getNextEligible consensus world)
              finalizedHeader) world := by
        cases RootsStack.getNextEligible consensus world with
        | some stacked =>
            exact ⟨rfl, stable.refl world⟩
        | none =>
            rw [getCandidate, wp_call]
            refine getChild_spec stable suspendsHere aborts last fun moved relied => ?_
            refine ⟨suspends moved relied, fun later laterRelied => ⟨rfl, ?_⟩⟩
            exact stable.trans relied laterRelied
      simp only [wp_bind]
      refine wp_mono candidateSpec fun candidate final holds => ?_
      obtain ⟨isCandidate, relied⟩ := holds
      have answer : nextOf config consensus finalizedHeader world =
          candidate.bind (unlessLagging config finalizedHeader) := by
        rw [nextOf, isLast, isCandidate]
      have returned := returns final relied
      rw [answer] at returned
      cases candidate with
      | none =>
          exact returned
      | some candidate =>
          rw [Option.bind_some, unlessLagging] at returned
          simp only at returned ⊢
          split
          · next lagging =>
              rw [if_pos lagging] at returned
              exact returned
          · next ahead =>
              rw [if_neg ahead] at returned
              exact returned

/-- The undisturbed call finds the child and changes nothing. -/
theorem finish_getChild
    (lastProcessed : RootSlot) :
    finish (getChild consensus lastProcessed finalizedHeader) world =
      (.ok (childOf consensus finalizedHeader lastProcessed), world) := by
  unfold getChild childOf
  by_cases atFinalized : lastProcessed.blockRoot = finalizedHeader.root
  · simp only [if_pos atFinalized]
    rfl
  · simp only [if_neg atFinalized, finish_bind, finish_request]
    by_cases unserved :
      (consensus.beaconHeadersByParentRoot lastProcessed.blockRoot).data.length = 0 ∨
        ¬ (consensus.beaconHeadersByParentRoot
            lastProcessed.blockRoot).finalized = true
    · simp only [if_pos unserved]
      rfl
    · simp only [if_neg unserved]
      cases firstCanonical
          (consensus.beaconHeadersByParentRoot lastProcessed.blockRoot).data with
      | none => rfl
      | some canonical => rfl

theorem finish_getNext :
    finish (getNext config consensus finalizedHeader) world =
      (.ok (nextOf config consensus finalizedHeader world), world) := by
  simp only [getNext, finish_bind, finish_read, RootsStack.getLastProcessed, nextOf]
  cases world.rootsStack.lastProcessedRootSlot with
  | none =>
      rfl
  | some last =>
      have candidateResult :
          finish
              (getCandidate consensus last (RootsStack.getNextEligible consensus world)
                finalizedHeader) world =
            (.ok
              ((RootsStack.getNextEligible consensus world).or
                (childOf consensus finalizedHeader last)), world) := by
        cases RootsStack.getNextEligible consensus world with
        | some stacked => rfl
        | none =>
            rw [getCandidate, finish_call, finish_getChild]
            rfl
      simp only [finish_bind, candidateResult]
      cases
        (RootsStack.getNextEligible consensus world).or
          (childOf consensus finalizedHeader last) with
      | none => rfl
      | some candidate =>
          rw [Option.bind_some, unlessLagging]
          simp only
          split <;> rfl

end Answers

end RootsProvider

end CsmProver
