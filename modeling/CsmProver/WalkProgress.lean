import CsmProver.ReplayWalk
import CsmProver.Walk

namespace CsmProver

/-!
# The walk makes progress

With the state slot of the index and the finalized header fixed, the walk of the
daemon is a walk with replays: a stacked block is taken again when the index is
trusted for any duty of it, and leaves the stack when the index is trusted for
every duty.  A block between the two is stuck, and the walk reaches the finalized
block exactly when it does not come to such a block.
-/

open Std (TreeMap)
open Async
open Walk (Chain Serves)

namespace WalkProgress

/-! ## The setting of a walk -/

/-- A walk over a chain up to its finalized block, without a processing lag. -/
structure Setting where
  config : Config
  consensus : Consensus
  balances : Bool
  finalizedHeader : BlockHeaderResponse
  storageStateSlot : Nat
  chain : Chain
  finalized : Nat
  first : Nat
  serves : Serves chain consensus
  finalizedRoot : finalizedHeader.root = (chain.block finalized).blockRoot
  children :
    ∀ height < finalized,
      (consensus.beaconHeadersByParentRoot
          (chain.block height).blockRoot).finalized = true ∧
        ∃ header,
          firstCanonical
              (consensus.beaconHeadersByParentRoot
                (chain.block height).blockRoot).data =
            some header
  firstRoot :
    RootsProvider.getKnown config finalizedHeader = (chain.block first).blockRoot
  first_le : first ≤ finalized
  noLag : config.rootsProcessingLagSlots = 0

/-- The stack and the last processed root are blocks of the chain. -/
structure OnChain (chain : Chain) (fields : RootsStackFields) : Prop where
  lastProcessed :
    ∀ rs, fields.lastProcessedRootSlot = some rs → ∃ height, rs = chain.block height
  stacked :
    ∀ slot blockRoot,
      fields.storage[slot]? = some blockRoot →
      ∃ height,
        chain.block height = { blockRoot := blockRoot, slotNumber := slot }

/-- No block of the stack and no last processed block is beyond the slot. -/
structure UpTo (slot : Nat) (fields : RootsStackFields) : Prop where
  lastProcessed :
    ∀ rs, fields.lastProcessedRootSlot = some rs → rs.slotNumber ≤ slot
  stacked :
    ∀ stackedSlot blockRoot,
      fields.storage[stackedSlot]? = some blockRoot → stackedSlot ≤ slot

/-- The other tasks leave the stack and the state slot of the index as they are. -/
structure Aside (world moved : World) : Prop where
  stack : moved.rootsStack = world.rootsStack
  stateSlot :
    moved.keysIndexer.info.storageStateSlot =
      world.keysIndexer.info.storageStateSlot

/-- Whatever the other tasks do meanwhile. -/
abbrev Meanwhile :=
  { move : World → World // ∀ world, Aside world (move world) }

/-- A world of the walk: on the chain, not beyond the finalized block, at the slot. -/
structure Walking (setting : Setting) (world : World) : Prop where
  stateSlot : world.keysIndexer.info.storageStateSlot = setting.storageStateSlot
  onChain : OnChain setting.chain world.rootsStack
  upTo : UpTo (setting.chain.block setting.finalized).slotNumber world.rootsStack

namespace Setting

/-- The slots of the chain as the track of a walk with replays. -/
def track (setting : Setting) : ReplayWalk.Track where
  on := fun slot => ∃ height, slot = (setting.chain.block height).slotNumber
  first := (setting.chain.block setting.first).slotNumber
  tip := (setting.chain.block setting.finalized).slotNumber
  eligible := fun slot =>
    KeysIndexer.isTrustedForAnyDuty setting.consensus setting.storageStateSlot slot = true
  settled := fun slot =>
    KeysIndexer.isTrustedForEveryDuty setting.consensus setting.storageStateSlot slot = true
  onFirst := ⟨setting.first, rfl⟩
  onTip := ⟨setting.finalized, rfl⟩
  first_le_tip := setting.chain.increasing.monotone setting.first_le
  settled_eligible := by
    intro slot settled
    rw [KeysIndexer.isTrustedForEveryDuty_iff] at settled
    rw [KeysIndexer.isTrustedForAnyDuty_iff]
    exact .inl settled.1
  -- Both trust checks are bounds on the slot, so they fail only further up.
  settled_lt := by
    intro slot stuck settled _ unsettled
    rw [KeysIndexer.isTrustedForEveryDuty_iff] at settled unsettled
    simp only [KeysIndexer.isTrustedForSlashings,
      KeysIndexer.isTrustedForFullWithdrawals,
      KeysIndexer.isWithinDelay_iff] at settled unsettled
    omega

end Setting

/-- Where the walk is, by slots. -/
def walkState (world : World) : ReplayWalk.State where
  last := world.rootsStack.lastProcessedRootSlot.map (·.slotNumber)
  stacked := { slot | ∃ blockRoot, world.rootsStack.storage[slot]? = some blockRoot }

/-! ## The next root -/

/-- What `getNext` answers in the setting. -/
def nextRoot (setting : Setting) (world : World) : Option RootHex :=
  RootsProvider.nextOf setting.config setting.consensus setting.finalizedHeader world

section NextRoot

variable {setting : Setting} {world moved final : World}

/-- Doing nothing is aside from the walk. -/
theorem aside_refl
    (world : World) :
    Aside world world :=
  ⟨rfl, rfl⟩

/-- Moves aside from the walk compose. -/
theorem aside_trans
    {first middle last : World}
    (earlier : Aside first middle)
    (later : Aside middle last) :
    Aside first last where
  stack := later.stack.trans earlier.stack
  stateSlot := later.stateSlot.trans earlier.stateSlot

/-- The others stay aside; an iteration that waits or fails is asked nothing. -/
def protocol : Protocol World where
  rely := Aside
  suspended := fun _ => True
  aborted := fun _ _ => True

/-- What stays aside once stays aside. -/
theorem protocol_stable :
    protocol.Stable where
  refl := aside_refl
  trans := aside_trans
  suspended := fun _ _ => trivial
  aborted := fun _ _ => trivial

/-- Steps aside leave the stack and the state slot as they are. -/
theorem aside_spec
    {α : Type}
    {program : Async World α}
    (guarantees : program.Guarantees Aside) :
    wp protocol (fun _ final => Aside world final) program world :=
  wp_of_guarantees aside_refl aside_trans id (fun _ _ => trivial)
    (fun _ _ _ => trivial) guarantees

/-- Without a lag every candidate is returned. -/
theorem unlessLagging_noLag
    (candidate : RootSlot) :
    RootsProvider.unlessLagging setting.config setting.finalizedHeader candidate =
      some candidate.blockRoot := by
  simp [RootsProvider.unlessLagging, setting.noLag]

/-- Blocks of different heights have different roots. -/
theorem height_eq_of_root
    {low high : Nat}
    (sameRoot :
      (setting.chain.block low).blockRoot = (setting.chain.block high).blockRoot) :
    low = high := by
  have sameSlot := congrArg (fun root => (setting.consensus.blockInfo root).slot) sameRoot
  simp only [setting.serves.blockInfo] at sameSlot
  exact setting.chain.increasing.injective sameSlot

/-- The finalized block has no child to go to. -/
theorem childOf_finalized :
    RootsProvider.childOf setting.consensus setting.finalizedHeader
        (setting.chain.block setting.finalized) =
      none := by
  rw [RootsProvider.childOf, if_pos setting.finalizedRoot.symm]

/-- Below the finalized block the walk goes to the next one. -/
theorem childOf_below
    {height : Nat}
    (below : height < setting.finalized) :
    RootsProvider.childOf setting.consensus setting.finalizedHeader
        (setting.chain.block height) =
      some (setting.chain.block (height + 1)) := by
  obtain ⟨finalized, header, isCanonical⟩ := setting.children height below
  have notFinalized :
      (setting.chain.block height).blockRoot ≠ setting.finalizedHeader.root := by
    rw [setting.finalizedRoot]
    intro sameRoot
    have sameHeight := height_eq_of_root sameRoot
    omega
  have someData :
      (setting.consensus.beaconHeadersByParentRoot
        (setting.chain.block height).blockRoot).data.length ≠ 0 := by
    intro empty
    rw [List.length_eq_zero_iff] at empty
    rw [empty] at isCanonical
    cases isCanonical
  obtain ⟨sameRoot, sameSlot⟩ :=
    setting.serves.child height header finalized isCanonical
  rw [RootsProvider.childOf, if_neg notFinalized, if_neg (by simp [finalized, someData]), isCanonical,
    Option.map_some, sameRoot, sameSlot]

/-- The daemon's choice of the next root is the choice of a walk with replays. -/
theorem nextRoot_cases
    (walking : Walking setting world) :
    (nextRoot setting world = none ∧
        ReplayWalk.AtTip setting.track (walkState world)) ∨
      ∃ height,
        nextRoot setting world = some (setting.chain.block height).blockRoot ∧
          ReplayWalk.Next setting.track (walkState world)
            (setting.chain.block height).slotNumber := by
  rw [nextRoot, RootsProvider.nextOf]
  cases isLast : world.rootsStack.lastProcessedRootSlot with
  | none =>
      have next : ReplayWalk.Next setting.track (walkState world) setting.track.first :=
        .first (by simp [walkState, isLast])
      exact .inr ⟨setting.first, congrArg some setting.firstRoot, next⟩
  | some last =>
      have stateLast : (walkState world).last = some last.slotNumber := by
        simp [walkState, isLast]
      cases eligible : RootsStack.getNextEligible setting.consensus world with
      | some rs =>
          obtain ⟨stacked, trusted, lowest⟩ := RootsStack.getNextEligible_some eligible
          obtain ⟨height, isBlock⟩ := walking.onChain.stacked _ _ stacked
          rw [walking.stateSlot] at trusted lowest
          refine .inr ⟨height, by simp [isBlock, unlessLagging_noLag], ?_⟩
          rw [isBlock]
          refine .replay stateLast ⟨rs.blockRoot, stacked⟩ trusted ?_
          rintro slot ⟨blockRoot, otherStacked⟩ otherTrusted
          exact lowest slot blockRoot otherStacked otherTrusted
      | none =>
          have ineligible :
              ∀ slot ∈ (walkState world).stacked, ¬ setting.track.eligible slot := by
            rintro slot ⟨blockRoot, stacked⟩
            have untrusted := RootsStack.getNextEligible_none eligible slot blockRoot stacked
            rw [walking.stateSlot] at untrusted
            exact untrusted
          obtain ⟨height, rfl⟩ := walking.onChain.lastProcessed last isLast
          have atMost : height ≤ setting.finalized :=
            setting.chain.increasing.le_iff_le.mp (walking.upTo.lastProcessed _ isLast)
          rcases atMost.lt_or_eq with below | rfl
          · have increasing := setting.chain.increasing
            refine .inr ⟨height + 1, by simp [childOf_below below, unlessLagging_noLag], ?_⟩
            refine .forward stateLast ineligible ⟨height + 1, rfl⟩
              (increasing (Nat.lt_succ_self height)) (increasing.monotone below) ?_
            rintro slot ⟨other, rfl⟩ above
            exact increasing.monotone (increasing.lt_iff_lt.mp above)
          · exact .inl ⟨by simp [childOf_finalized], stateLast, ineligible⟩

end NextRoot

/-! ## One iteration -/

/-- What pushing a root does to the stack. -/
structure Pushed (rs : RootSlot) (world final : World) : Prop where
  lastProcessed :
    final.rootsStack.lastProcessedRootSlot = world.rootsStack.lastProcessedRootSlot
  stacked :
    ∀ slot blockRoot,
      final.rootsStack.storage[slot]? = some blockRoot ↔
        world.rootsStack.storage[slot]? = some blockRoot ∨
          world.rootsStack.storage[slot]? = none ∧
            ({ blockRoot := blockRoot, slotNumber := slot } : RootSlot) = rs
  stateSlot :
    final.keysIndexer.info.storageStateSlot =
      world.keysIndexer.info.storageStateSlot

/-- What processing a root does to the stack. -/
structure Processed (setting : Setting) (rs : RootSlot) (world final : World) : Prop where
  lastProcessed : final.rootsStack.lastProcessedRootSlot = some rs
  stacked :
    ∀ slot blockRoot,
      final.rootsStack.storage[slot]? = some blockRoot ↔
        (world.rootsStack.storage[slot]? = some blockRoot ∨
          world.rootsStack.storage[slot]? = none ∧
            ({ blockRoot := blockRoot, slotNumber := slot } : RootSlot) = rs) ∧
        ¬ (slot = rs.slotNumber ∧ setting.track.settled slot)
  stateSlot :
    final.keysIndexer.info.storageStateSlot =
      world.keysIndexer.info.storageStateSlot

section Iteration

variable {setting : Setting} {world moved final : World} {rs : RootSlot}

/-- The duties are aside from the walk. -/
theorem aside_frame :
    DutyFrame Aside where
  refl := aside_refl
  trans := aside_trans
  keyLookups := fun _ _ _ _ => ⟨rfl, rfl⟩
  allKeysLookup := fun _ => ⟨rfl, rfl⟩
  proofMined := by
    intro kind key world
    exact ⟨rfl, rfl⟩
  balanceMined := by
    intro key balanceGwei world
    exact ⟨rfl, rfl⟩

/-- Writing a file is aside from the walk. -/
theorem writeFile_aside
    (save : World → Disk → Disk) :
    (writeFile save).Guarantees Aside := by
  apply guarantees_bind (guarantees_read aside_refl)
  intro world
  apply guarantees_bind guarantees_settle
  intro _
  apply guarantees_bind
  · rw [guarantees_modify]
    exact fun _ => ⟨rfl, rfl⟩
  · exact fun _ => guarantees_tick

/-- What is stacked stays stacked while the others move. -/
theorem Pushed.aside
    (pushed : Pushed rs world moved)
    (aside : Aside moved final) :
    Pushed rs world final where
  lastProcessed := by rw [aside.stack, pushed.lastProcessed]
  stacked := by
    rw [aside.stack]
    exact pushed.stacked
  stateSlot := aside.stateSlot.trans pushed.stateSlot

/-- What is processed stays so while the others move. -/
theorem Processed.aside
    (processed : Processed setting rs world moved)
    (aside : Aside moved final) :
    Processed setting rs world final where
  lastProcessed := by rw [aside.stack, processed.lastProcessed]
  stacked := by
    rw [aside.stack]
    exact processed.stacked
  stateSlot := aside.stateSlot.trans processed.stateSlot

/-- A push stacks the root and leaves the rest. -/
theorem push_spec
    (rs : RootSlot) :
    wp protocol (fun _ final => Pushed rs world final) (RootsStack.push rs) world := by
  rw [RootsStack.push, wp_bind, wp_read]
  cases found : world.rootsStack.storage[rs.slotNumber]? with
  | some kept =>
      refine ⟨rfl, fun slot blockRoot => ⟨.inl, fun either => ?_⟩, rfl⟩
      rcases either with stacked | ⟨absent, rfl⟩
      · exact stacked
      · cases found.symm.trans absent
  | none =>
      rw [wp_bind, RootsStack.modifyStorage, wp_modify]
      have pushed :
          Pushed rs world
            { world with
              rootsStack :=
                { world.rootsStack with
                  storage :=
                    world.rootsStack.storage.insert rs.slotNumber rs.blockRoot } } := by
        refine ⟨rfl, fun slot blockRoot => ?_, rfl⟩
        rw [TreeMap.getElem?_insert]
        split
        · next same =>
            rw [Nat.compare_eq_eq] at same
            subst same
            obtain ⟨root, slotNumber⟩ := rs
            simp only at found
            simp [found, eq_comm]
        · next other =>
            rw [Nat.compare_eq_eq] at other
            constructor
            · exact .inl
            · rintro (stacked | ⟨_, rfl⟩)
              · exact stacked
              · exact (other rfl).elim
      exact wp_mono (aside_spec (writeFile_aside _)) fun _ final aside =>
        pushed.aside aside

/-- A purge takes the slot off the stack and leaves the rest. -/
theorem purge_spec
    (rs : RootSlot) :
    wp protocol
      (fun _ final =>
        final.keysIndexer.info.storageStateSlot =
            world.keysIndexer.info.storageStateSlot ∧
          ∀ slot blockRoot,
            final.rootsStack.storage[slot]? = some blockRoot ↔
              world.rootsStack.storage[slot]? = some blockRoot ∧ slot ≠ rs.slotNumber)
      (RootsStack.purge rs) world := by
  rw [RootsStack.purge, wp_bind, wp_read]
  cases found : world.rootsStack.storage[rs.slotNumber]? with
  | none =>
      refine ⟨rfl, fun slot blockRoot => ⟨fun stacked => ⟨stacked, ?_⟩, And.left⟩⟩
      rintro rfl
      cases found.symm.trans stacked
  | some kept =>
      rw [wp_bind, RootsStack.modifyStorage, wp_modify, wp_bind, wp_note]
      refine wp_mono (aside_spec (writeFile_aside _)) fun _ final aside => ?_
      refine ⟨aside.stateSlot, fun slot blockRoot => ?_⟩
      rw [aside.stack, World.record_rootsStack, TreeMap.getElem?_erase]
      by_cases same : rs.slotNumber = slot
      · simp [same]
      · simp [same, Ne.symm same]

/-- The root becomes the last processed one, and the stack stays. -/
theorem setLastProcessed_spec
    (rs : RootSlot) :
    wp protocol
      (fun _ final =>
        final.rootsStack.lastProcessedRootSlot = some rs ∧
          final.rootsStack.storage = world.rootsStack.storage ∧
          final.keysIndexer.info.storageStateSlot =
            world.keysIndexer.info.storageStateSlot)
      (RootsStack.setLastProcessed rs) world := by
  rw [RootsStack.setLastProcessed, wp_bind, wp_modify, wp_bind, wp_note]
  refine wp_mono (aside_spec (writeFile_aside _)) fun _ final aside => ?_
  rw [aside.stack]
  exact ⟨rfl, rfl, aside.stateSlot⟩

/--
After its duties the root is the last one, and leaves the stack if it is trusted for every
duty.
-/
theorem settleRoot_spec
    (stateSlot :
      world.keysIndexer.info.storageStateSlot = setting.storageStateSlot) :
    wp protocol
      (fun _ final =>
        final.rootsStack.lastProcessedRootSlot = some rs ∧
          (∀ slot blockRoot,
            final.rootsStack.storage[slot]? = some blockRoot ↔
              world.rootsStack.storage[slot]? = some blockRoot ∧
                ¬ (slot = rs.slotNumber ∧ setting.track.settled slot)) ∧
          final.keysIndexer.info.storageStateSlot =
            world.keysIndexer.info.storageStateSlot)
      (RootsProcessor.settleRoot setting.consensus rs) world := by
  simp only [RootsProcessor.settleRoot, wp_bind, wp_read, wp_note]
  split
  · next trusted =>
      rw [wp_bind, wp_call]
      refine wp_mono (purge_spec rs) fun _ purged holds => ⟨trivial, fun moved aside => ?_⟩
      rw [wp_call]
      refine wp_mono (setLastProcessed_spec rs) fun _ marked marks => ⟨trivial, ?_⟩
      intro final later
      obtain ⟨isLast, sameStack, sameSlot⟩ := marks
      rw [stateSlot] at trusted
      refine ⟨by rw [later.stack, isLast], fun slot blockRoot => ?_, ?_⟩
      · rw [later.stack, sameStack, aside.stack, holds.2]
        constructor
        · rintro ⟨stacked, different⟩
          exact ⟨stacked, fun settled => different settled.1⟩
        · rintro ⟨stacked, unsettled⟩
          refine ⟨stacked, ?_⟩
          rintro rfl
          exact unsettled ⟨rfl, trusted⟩
      · rw [later.stateSlot, sameSlot, aside.stateSlot, holds.1]
        rfl
  · next untrusted =>
      rw [wp_call]
      refine wp_mono (setLastProcessed_spec rs) fun _ marked marks => ⟨trivial, ?_⟩
      intro final later
      obtain ⟨isLast, sameStack, sameSlot⟩ := marks
      rw [stateSlot] at untrusted
      refine ⟨by rw [later.stack, isLast], fun slot blockRoot => ?_, ?_⟩
      · rw [later.stack, sameStack]
        refine ⟨fun stacked => ⟨stacked, ?_⟩, And.left⟩
        rintro ⟨rfl, settled⟩
        exact untrusted settled
      · rw [later.stateSlot, sameSlot]
        rfl

/-- An iteration that returns has processed its root. -/
theorem processNext_spec
    (stateSlot :
      world.keysIndexer.info.storageStateSlot = setting.storageStateSlot)
    (height : Nat) :
    wp protocol
      (fun _ final => Processed setting (setting.chain.block height) world final)
      (RootsProcessor.processNext setting.config setting.consensus setting.balances
        (setting.chain.block height).blockRoot setting.finalizedHeader) world := by
  rw [RootsProcessor.processNext, wp_bind, wp_request]
  refine ⟨trivial, fun answered answeredAside => ⟨?_, trivial⟩⟩
  rw [setting.serves.blockInfo height, wp_bind, wp_call]
  refine wp_mono (push_spec (setting.chain.block height)) fun _ pushed push =>
    ⟨trivial, fun moved movedAside => ?_⟩
  rw [wp_bind]
  refine wp_mono
    (aside_spec
      (aside_frame.runDuties_guarantees setting.config setting.consensus
        setting.balances _ _ _))
    fun _ done doneAside => ?_
  have donePushed := push.aside (aside_trans movedAside doneAside)
  have doneSlot :
      done.keysIndexer.info.storageStateSlot = setting.storageStateSlot := by
    rw [donePushed.stateSlot, answeredAside.stateSlot, stateSlot]
  refine wp_mono (settleRoot_spec doneSlot) fun _ final settles => ?_
  obtain ⟨isLast, settled, sameSlot⟩ := settles
  refine ⟨isLast, fun slot blockRoot => ?_, ?_⟩
  · rw [settled, donePushed.stacked, answeredAside.stack]
  · rw [sameSlot, donePushed.stateSlot, answeredAside.stateSlot]

/-- A walk goes on while the others move. -/
theorem Walking.aside
    (walking : Walking setting world)
    (aside : Aside world moved) :
    Walking setting moved where
  stateSlot := aside.stateSlot.trans walking.stateSlot
  onChain := by
    rw [aside.stack]
    exact walking.onChain
  upTo := by
    rw [aside.stack]
    exact walking.upTo

/-- Moves aside from the walk leave its place. -/
theorem walkState_aside
    (aside : Aside world moved) :
    walkState moved = walkState world := by
  rw [walkState, walkState, aside.stack]

/-- A walk is within its track. -/
theorem Walking.within
    (walking : Walking setting world) :
    ReplayWalk.Within setting.track (walkState world) where
  last := by
    intro slot isLast
    obtain ⟨rs, last, rfl⟩ := Option.map_eq_some_iff.mp isLast
    obtain ⟨height, rfl⟩ := walking.onChain.lastProcessed rs last
    exact ⟨⟨height, rfl⟩, walking.upTo.lastProcessed _ last⟩
  stacked := by
    rintro slot ⟨blockRoot, stacked⟩
    obtain ⟨height, isBlock⟩ := walking.onChain.stacked slot blockRoot stacked
    refine ⟨⟨height, ?_⟩, walking.upTo.stacked slot blockRoot stacked⟩
    rw [isBlock]

/-- Processing a root is a visit of its slot. -/
theorem Processed.visit
    (processed : Processed setting rs world final) :
    walkState final = (walkState world).visit setting.track rs.slotNumber := by
  rw [walkState, ReplayWalk.State.visit, processed.lastProcessed, Option.map_some]
  congr 1
  ext slot
  simp only [processed.stacked, Set.mem_ofPred_eq, walkState]
  constructor
  · rintro ⟨blockRoot, stacked, unsettled⟩
    refine ⟨?_, ?_⟩
    · rcases stacked with before | ⟨_, rfl⟩
      · exact .inl ⟨blockRoot, before⟩
      · exact .inr rfl
    · rintro ⟨rfl, settled⟩
      exact unsettled ⟨rfl, settled⟩
  · rintro ⟨stacked, unsettled⟩
    have stays : ¬ (slot = rs.slotNumber ∧ setting.track.settled slot) := by
      rintro ⟨rfl, settled⟩
      exact unsettled ⟨rfl, settled⟩
    cases before : world.rootsStack.storage[slot]? with
    | some blockRoot =>
        exact ⟨blockRoot, .inl rfl, stays⟩
    | none =>
        rcases stacked with ⟨blockRoot, present⟩ | rfl
        · cases before.symm.trans present
        · exact ⟨rs.blockRoot, .inr ⟨rfl, rfl⟩, stays⟩

/-- A processed block keeps the walk on the chain. -/
theorem Processed.walking
    {height : Nat}
    (walking : Walking setting world)
    (atMost :
      (setting.chain.block height).slotNumber ≤
        (setting.chain.block setting.finalized).slotNumber)
    (processed : Processed setting (setting.chain.block height) world final) :
    Walking setting final where
  stateSlot := processed.stateSlot.trans walking.stateSlot
  onChain :=
    { lastProcessed := by
        intro rs isLast
        rw [processed.lastProcessed] at isLast
        exact ⟨height, (Option.some.inj isLast).symm⟩
      stacked := by
        intro slot blockRoot stacked
        rcases ((processed.stacked slot blockRoot).mp stacked).1 with before | ⟨_, isBlock⟩
        · exact walking.onChain.stacked slot blockRoot before
        · exact ⟨height, isBlock.symm⟩ }
  upTo :=
    { lastProcessed := by
        intro rs isLast
        rw [processed.lastProcessed] at isLast
        rw [← Option.some.inj isLast]
        exact atMost
      stacked := by
        intro slot blockRoot stacked
        rcases ((processed.stacked slot blockRoot).mp stacked).1 with before | ⟨_, isBlock⟩
        · exact walking.upTo.stacked slot blockRoot before
        · rw [← isBlock] at atMost
          exact atMost }

/-- Step lemma: one iteration is one step of a walk with replays. -/
theorem walkNext_spec
    (walking : Walking setting world) :
    wp protocol
      (fun _ final =>
        ReplayWalk.Step setting.track (walkState world) (walkState final) ∧
          Walking setting final)
      (Daemon.walkNext setting.config setting.consensus setting.balances
        setting.finalizedHeader) world := by
  rw [Daemon.walkNext, wp_bind, wp_call]
  apply RootsProvider.getNext_spec protocol_stable (fun _ _ => trivial) (fun _ _ => trivial)
  refine fun taken takenAside => ⟨trivial, fun moved movedAside => ?_⟩
  have aside := aside_trans takenAside movedAside
  rw [← nextRoot]
  rcases nextRoot_cases walking with ⟨isNone, atTip⟩ | ⟨height, isSome, next⟩
  · rw [isNone]
    simp only [wp_tick]
    refine ⟨trivial, fun final later => ?_⟩
    have finalAside := aside_trans aside later
    rw [walkState_aside finalAside]
    exact ⟨.rest atTip, walking.aside finalAside⟩
  · rw [isSome]
    simp only [wp_call]
    have movedWalking := walking.aside aside
    refine wp_mono (processNext_spec movedWalking.stateSlot height) fun _ done processed =>
      ⟨trivial, fun final later => ?_⟩
    have finalProcessed := processed.aside later
    rw [finalProcessed.visit, walkState_aside aside]
    exact ⟨.visit next, finalProcessed.walking movedWalking (next.on walking.within).2⟩

end Iteration

/-! ## Iterating -/

/-- One iteration in which every call succeeds, whatever happens meanwhile. -/
def Iterates (setting : Setting) (world moved : World) : Prop :=
  ∃ script : List (Beat Meanwhile), ∃ final,
    run (fun move => move.1)
        (Daemon.walkNext setting.config setting.consensus setting.balances
          setting.finalizedHeader) script world =
      (.done (), final) ∧
    Aside final moved

/-- What `getNext` returns. -/
def Gets (setting : Setting) (world : World) (answer : Option RootHex) : Prop :=
  (finish
    (RootsProvider.getNext setting.config setting.consensus setting.finalizedHeader)
    world).1 = .ok answer

/-- Nothing is left to process and the last processed root is the finalized one. -/
def ReachesFinalized (setting : Setting) (worlds : Nat → World) : Prop :=
  ∃ time, Gets setting (worlds time) none ∧
    ∃ last, (worlds time).rootsStack.lastProcessedRootSlot = some last ∧
      last.blockRoot = setting.finalizedHeader.root

/-- A root that was returned and processed is not returned again. -/
def ReturnsOnce (setting : Setting) (worlds : Nat → World) : Prop :=
  ∀ earlier later root,
    earlier < later →
    Gets setting (worlds earlier) (some root) →
    ¬ Gets setting (worlds later) (some root)

section Runs

variable {setting : Setting} {worlds : Nat → World}

/-- What the provider returns is computed from the state it reads. -/
theorem gets_iff
    {world : World}
    (answer : Option RootHex) :
    Gets setting world answer ↔ nextRoot setting world = answer := by
  rw [Gets, RootsProvider.finish_getNext, Except.ok.injEq, nextRoot]

/-- Run lemma: iterating is a walk with replays. -/
theorem walk_of_iterates
    (walking : Walking setting (worlds 0))
    (iterates : ∀ time, Iterates setting (worlds time) (worlds (time + 1))) :
    (∀ time, Walking setting (worlds time)) ∧
      ReplayWalk.Walk setting.track fun time => walkState (worlds time) := by
  have step {world moved : World}
      (walking : Walking setting world)
      (iterates : Iterates setting world moved) :
      ReplayWalk.Step setting.track (walkState world) (walkState moved) ∧
        Walking setting moved := by
    obtain ⟨script, final, ran, aside⟩ := iterates
    have established :=
      run_sound protocol_stable (fun move state => move.2 state)
        (walkNext_spec walking) script
    rw [ran] at established
    rw [walkState_aside aside]
    exact ⟨established.1, established.2.aside aside⟩
  have always (time : Nat) : Walking setting (worlds time) := by
    induction time with
    | zero =>
        exact walking
    | succ time inductionHypothesis =>
        exact (step inductionHypothesis (iterates time)).2
  exact ⟨always, fun time => (step (always time) (iterates time)).1⟩

/-- Reaching the finalized block, in terms of the track. -/
theorem reachesFinalized_iff
    (always : ∀ time, Walking setting (worlds time)) :
    ReachesFinalized setting worlds ↔
      ReplayWalk.Reaches setting.track fun time => walkState (worlds time) := by
  constructor
  · rintro ⟨time, gets, _⟩
    rw [gets_iff] at gets
    rcases nextRoot_cases (always time) with ⟨_, atTip⟩ | ⟨height, isSome, _⟩
    · exact ⟨time, atTip⟩
    · cases gets.symm.trans isSome
  · rintro ⟨time, atTip⟩
    rcases nextRoot_cases (always time) with ⟨isNone, _⟩ | ⟨height, _, next⟩
    · obtain ⟨last, isLast, sameSlot⟩ := Option.map_eq_some_iff.mp atTip.1
      obtain ⟨height, rfl⟩ := (always time).onChain.lastProcessed last isLast
      have sameHeight := setting.chain.increasing.injective sameSlot
      refine ⟨time, (gets_iff none).mpr isNone, _, isLast, ?_⟩
      rw [sameHeight, setting.finalizedRoot]
    · exact (next.not_atTip atTip).elim

/-- Returning no root again, in terms of the track. -/
theorem returnsOnce_iff
    (always : ∀ time, Walking setting (worlds time)) :
    ReturnsOnce setting worlds ↔
      ReplayWalk.VisitsOnce setting.track fun time => walkState (worlds time) := by
  -- The root of a block and its slot determine each other.
  have next_of_gets {time : Nat} {root : RootHex}
      (gets : Gets setting (worlds time) (some root)) :
      ∃ height,
        root = (setting.chain.block height).blockRoot ∧
          ReplayWalk.Next setting.track (walkState (worlds time))
            (setting.chain.block height).slotNumber := by
    rw [gets_iff] at gets
    rcases nextRoot_cases (always time) with ⟨isNone, _⟩ | ⟨height, isSome, next⟩
    · cases isNone.symm.trans gets
    · exact ⟨height, Option.some.inj (gets.symm.trans isSome), next⟩
  have gets_of_next {time slot : Nat}
      (next : ReplayWalk.Next setting.track (walkState (worlds time)) slot) :
      ∃ height,
        slot = (setting.chain.block height).slotNumber ∧
          Gets setting (worlds time) (some (setting.chain.block height).blockRoot) := by
    rcases nextRoot_cases (always time) with ⟨_, atTip⟩ | ⟨height, isSome, alsoNext⟩
    · exact (next.not_atTip atTip).elim
    · exact ⟨height, next.unique alsoNext, (gets_iff _).mpr isSome⟩
  constructor
  · intro once earlier later slot order next again
    obtain ⟨height, rfl, gets⟩ := gets_of_next next
    obtain ⟨other, sameSlot, getsAgain⟩ := gets_of_next again
    rw [← setting.chain.increasing.injective sameSlot] at getsAgain
    exact once earlier later _ order gets getsAgain
  · intro once earlier later root order gets getsAgain
    obtain ⟨height, rfl, next⟩ := next_of_gets gets
    obtain ⟨other, sameRoot, again⟩ := next_of_gets getsAgain
    rw [← height_eq_of_root sameRoot] at again
    exact once earlier later _ order next again

end Runs

/--
Iterating reaches the finalized block and returns no root twice exactly when no
stuck block is ahead, and a walk that starts anew is not rewound behind its start.
-/
theorem reaches_finalized_iff
    (setting : Setting)
    (worlds : Nat → World)
    (walking : Walking setting (worlds 0))
    (iterates : ∀ time, Iterates setting (worlds time) (worlds (time + 1))) :
    ReachesFinalized setting worlds ∧ ReturnsOnce setting worlds ↔
      ¬ ReplayWalk.Blocked setting.track (walkState (worlds 0)) ∧
        ¬ ReplayWalk.Rewound setting.track (walkState (worlds 0)) := by
  obtain ⟨always, walk⟩ := walk_of_iterates walking iterates
  rw [reachesFinalized_iff always, returnsOnce_iff always]
  exact ReplayWalk.reaches_and_visitsOnce_iff walk (always 0).within

/-! ## Reachable stacks -/

/-- Memory and files of the stack are on the chain. -/
structure Kept (chain : Chain) (world : World) : Prop where
  memory : OnChain chain world.rootsStack
  disk : OnChain chain (RootsStack.readServiceData world.disk)

/--
The others leave the stack alone; wherever an iteration waits or fails, the stack is on
the chain.
-/
def keeping (chain : Chain) : Protocol World where
  rely := Walk.Beside
  suspended := Kept chain
  aborted := fun _ => Kept chain

/-- The first root of a cold start is on the chain. -/
def FirstOnChain (chain : Chain) (config : Config) (finalizedHeader : BlockHeaderResponse) :
    Prop :=
  ∃ height,
    RootsProvider.getKnown config finalizedHeader = (chain.block height).blockRoot

section Reachable

variable {chain : Chain} {world moved : World} {height : Nat}
variable {config : Config} {consensus : Consensus} {balances : Bool}
variable {finalizedHeader : BlockHeaderResponse}

/-- One of the two fields may come from elsewhere. -/
theorem OnChain.combine
    {first second : RootsStackFields}
    (firstOnChain : OnChain chain first)
    (secondOnChain : OnChain chain second) :
    OnChain chain
      { lastProcessedRootSlot := first.lastProcessedRootSlot
        storage := second.storage } where
  lastProcessed := firstOnChain.lastProcessed
  stacked := secondOnChain.stacked

/-- What is kept stays so while the others move. -/
theorem Kept.beside
    (kept : Kept chain world)
    (beside : Walk.Beside world moved) :
    Kept chain moved where
  memory := by
    rw [beside.stack]
    exact kept.memory
  disk := by
    rw [RootsStack.readServiceData, beside.info, beside.storage]
    exact kept.disk

/-- So the protocol is stable. -/
theorem keeping_stable :
    (keeping chain).Stable where
  refl := Walk.beside_refl
  trans := Walk.beside_trans
  suspended := Kept.beside
  aborted := Kept.beside

/-- What leaves the stack alone keeps it on the chain. -/
theorem kept_spec
    {α : Type}
    {program : Async World α}
    (guarantees : program.Guarantees Walk.Beside)
    (kept : Kept chain world) :
    wp (keeping chain) (fun _ final => Kept chain final) program world :=
  wp_mono
    (wp_of_guarantees Walk.beside_refl Walk.beside_trans id
      (fun _ beside => kept.beside beside) (fun _ _ beside => kept.beside beside)
      guarantees)
    fun _ _ beside => kept.beside beside

/-- A call keeps what its body keeps. -/
theorem call_kept
    {α : Type}
    {body : Async World α}
    (holds : wp (keeping chain) (fun _ final => Kept chain final) body world) :
    wp (keeping chain) (fun _ final => Kept chain final) (call body) world := by
  rw [wp_call]
  exact wp_mono holds fun _ _ kept => ⟨kept, fun _ beside => kept.beside beside⟩

/-- A write keeps the stack on the chain if what it writes is. -/
theorem writeFile_kept
    {save : World → Disk → Disk}
    (kept : Kept chain world)
    (saved :
      ∀ disk,
        disk.rootsStackInfo = world.disk.rootsStackInfo →
        disk.rootsStackStorage = world.disk.rootsStackStorage →
        OnChain chain (RootsStack.readServiceData (save world disk))) :
    wp (keeping chain) (fun _ final => Kept chain final) (writeFile save) world := by
  refine writeFile_keeps kept (fun _ kept => kept) (fun _ _ kept => kept)
    (fun _ _ kept beside => kept.beside beside) fun current beside currentKept => ?_
  exact
    { memory := currentKept.memory
      disk := saved current.disk beside.info beside.storage }

/-- Writing the stacked roots keeps them on the chain. -/
theorem writeStorage_kept
    (kept : Kept chain world) :
    wp (keeping chain) (fun _ final => Kept chain final) RootsStack.writeStorage world := by
  apply writeFile_kept kept
  intro disk sameInfo _
  have combined := kept.disk.combine kept.memory
  rw [RootsStack.readServiceData] at combined ⊢
  rw [sameInfo]
  exact combined

/-- Writing the last processed root keeps it on the chain. -/
theorem writeInfo_kept
    (kept : Kept chain world) :
    wp (keeping chain) (fun _ final => Kept chain final) RootsStack.writeInfo world := by
  apply writeFile_kept kept
  intro disk _ sameStorage
  have combined := kept.memory.combine kept.disk
  rw [RootsStack.readServiceData] at combined ⊢
  rw [sameStorage]
  exact combined

/-- A block of the chain is stacked. -/
theorem push_kept
    (kept : Kept chain world) :
    wp (keeping chain) (fun _ final => Kept chain final)
      (RootsStack.push (chain.block height)) world := by
  rw [RootsStack.push, wp_bind, wp_read]
  cases world.rootsStack.storage[(chain.block height).slotNumber]? with
  | some stacked =>
      exact kept
  | none =>
      rw [wp_bind, RootsStack.modifyStorage, wp_modify]
      apply writeStorage_kept
      refine ⟨⟨kept.memory.lastProcessed, fun slot blockRoot found => ?_⟩, kept.disk⟩
      rw [TreeMap.getElem?_insert] at found
      split at found
      · next same =>
          rw [Nat.compare_eq_eq] at same
          exact ⟨height, by rw [← same, ← Option.some.inj found]⟩
      · exact kept.memory.stacked slot blockRoot found

/-- Taking a root off keeps the others. -/
theorem purge_kept
    (rs : RootSlot)
    (kept : Kept chain world) :
    wp (keeping chain) (fun _ final => Kept chain final) (RootsStack.purge rs) world := by
  rw [RootsStack.purge, wp_bind, wp_read]
  cases world.rootsStack.storage[rs.slotNumber]? with
  | none =>
      exact kept
  | some stacked =>
      rw [wp_bind, RootsStack.modifyStorage, wp_modify, wp_bind, wp_note]
      apply writeStorage_kept
      refine ⟨⟨kept.memory.lastProcessed, fun slot blockRoot found => ?_⟩, kept.disk⟩
      rw [World.record_rootsStack, TreeMap.getElem?_erase] at found
      split at found
      · cases found
      · exact kept.memory.stacked slot blockRoot found

/-- A block of the chain becomes the last one. -/
theorem setLastProcessed_kept
    (kept : Kept chain world) :
    wp (keeping chain) (fun _ final => Kept chain final)
      (RootsStack.setLastProcessed (chain.block height)) world := by
  rw [RootsStack.setLastProcessed, wp_bind, wp_modify, wp_bind, wp_note]
  apply writeInfo_kept
  refine ⟨⟨?_, kept.memory.stacked⟩, kept.disk⟩
  rintro rs ⟨rfl⟩
  exact ⟨height, rfl⟩

/-- Processing a block of the chain keeps the stack on it. -/
theorem processNext_kept
    (serves : Serves chain consensus)
    (kept : Kept chain world) :
    wp (keeping chain) (fun _ final => Kept chain final)
      (RootsProcessor.processNext config consensus balances
        (chain.block height).blockRoot finalizedHeader) world := by
  rw [RootsProcessor.processNext, wp_bind, wp_request]
  refine ⟨kept, fun answered beside => ⟨?_, kept.beside beside⟩⟩
  rw [serves.blockInfo height, wp_bind]
  refine wp_mono (call_kept (push_kept (kept.beside beside))) fun _ pushed pushedKept => ?_
  rw [wp_bind]
  refine wp_mono
    (kept_spec (Walk.beside_frame.runDuties_guarantees config consensus balances _ _ _)
      pushedKept)
    fun _ done doneKept => ?_
  simp only [RootsProcessor.settleRoot, wp_bind, wp_read, wp_note]
  have noted (checked : Nat) :
      Kept chain
        ((done.record (.dutiesReturned (chain.block height))).record
          (.trustChecked checked)) :=
    ⟨doneKept.memory, doneKept.disk⟩
  split
  · rw [wp_bind]
    exact wp_mono (call_kept (purge_kept _ (noted _))) fun _ _ purgedKept =>
      call_kept (setLastProcessed_kept purgedKept)
  · exact call_kept (setLastProcessed_kept (noted _))

/-- The next root is on the chain. -/
theorem nextOf_onChain
    (serves : Serves chain consensus)
    (firstOnChain : FirstOnChain chain config finalizedHeader)
    (onChain : OnChain chain world.rootsStack)
    {root : RootHex}
    (isNext : RootsProvider.nextOf config consensus finalizedHeader world = some root) :
    ∃ height, root = (chain.block height).blockRoot := by
  rw [RootsProvider.nextOf] at isNext
  cases isLast : world.rootsStack.lastProcessedRootSlot with
  | none =>
      rw [isLast] at isNext
      obtain ⟨first, isFirst⟩ := firstOnChain
      exact ⟨first, (Option.some.inj isNext).symm.trans isFirst⟩
  | some last =>
      rw [isLast] at isNext
      obtain ⟨candidate, isCandidate, unlagged⟩ := Option.bind_eq_some_iff.mp isNext
      obtain rfl := RootsProvider.eq_of_unlessLagging unlagged
      rcases Option.or_eq_some_iff.mp isCandidate with eligible | ⟨_, isChild⟩
      · obtain ⟨height, isBlock⟩ :=
          onChain.stacked _ _ (RootsStack.getNextEligible_some eligible).1
        exact ⟨height, by rw [isBlock]⟩
      · obtain ⟨height, rfl⟩ := onChain.lastProcessed last isLast
        exact ⟨height + 1, by rw [serves.childOf isChild]⟩

/-- One iteration of the walk keeps the stack on the chain. -/
theorem walkNext_kept
    (serves : Serves chain consensus)
    (firstOnChain : FirstOnChain chain config finalizedHeader)
    (kept : Kept chain world) :
    wp (keeping chain) (fun _ final => Kept chain final)
      (Daemon.walkNext config consensus balances finalizedHeader) world := by
  rw [Daemon.walkNext, wp_bind, wp_call]
  apply RootsProvider.getNext_spec keeping_stable (fun _ => kept.beside) fun _ => kept.beside
  refine fun taken takenBeside => ⟨kept.beside takenBeside, fun moved beside => ?_⟩
  have movedKept := (kept.beside takenBeside).beside beside
  cases isNext : RootsProvider.nextOf config consensus finalizedHeader world with
  | none =>
      simp only [wp_tick]
      exact ⟨movedKept, fun _ later => movedKept.beside later⟩
  | some root =>
      obtain ⟨height, rfl⟩ := nextOf_onChain serves firstOnChain kept.memory isNext
      exact call_kept (processNext_kept serves movedKept)

/-- The clients of a step serve the chain, and a cold start begins on it. -/
def Follows (chain : Chain) (config : Config) : Walk.Step → Prop
  | .iterate consensus finalizedHeader _ =>
      Serves chain consensus ∧ FirstOnChain chain config finalizedHeader
  | _ => True

/-- So does a restart from the files. -/
theorem restart_kept
    (kept : Kept chain world) :
    Kept chain (Walk.restart world) :=
  ⟨kept.disk, kept.disk⟩

/-- Step lemma: every step keeps the stack on the chain. -/
theorem perform_kept
    {step : Walk.Step}
    (follows : Follows chain config step)
    (kept : Kept chain world) :
    Kept chain (step.perform config balances world) := by
  cases step with
  | iterate consensus finalizedHeader script =>
      exact Established.leave Walk.restart (Kept chain)
        (fun _ suspended => restart_kept suspended)
        (fun _ _ aborted => aborted)
        (fun _ _ returned => returned)
        (run_sound keeping_stable Walk.moveIndex_beside
          (walkNext_kept follows.1 follows.2 kept) script)
  | reindex storageStateSlot =>
      exact kept.beside (Walk.moveIndex_beside storageStateSlot world)
  | crash =>
      exact restart_kept kept

/-- Run lemma: whatever the daemon does from its first start on, its stack is on the chain. -/
theorem reachable_onChain
    (config : Config)
    (balances : Bool)
    (world : World)
    (noInfo : world.disk.rootsStackInfo = none)
    (noStorage : world.disk.rootsStackStorage = none)
    (steps : List Walk.Step)
    (follows : ∀ step ∈ steps, Follows chain config step) :
    OnChain chain
      (Walk.perform config balances (Walk.restart world) steps).rootsStack := by
  have fresh : OnChain chain (RootsStack.readServiceData world.disk) :=
    { lastProcessed := by simp [RootsStack.readServiceData, noInfo]
      stacked := by simp [RootsStack.readServiceData, noStorage] }
  have initial : Kept chain (Walk.restart world) := ⟨fresh, fresh⟩
  have kept : Kept chain (Walk.perform config balances (Walk.restart world) steps) :=
    Walk.perform_keeps (fun _ _ follows kept => perform_kept follows kept) follows initial
  exact kept.memory

end Reachable

/-! ### A walk that ends and one that does not -/

/-- A setting with a given finalized block. -/
def sampleSetting (finalized : Nat) : Setting where
  config := .defaults "0xab" 1
  consensus := Walk.sampleConsensus
  balances := false
  finalizedHeader := Walk.sampleHeader finalized
  storageStateSlot := 1
  chain := Walk.sampleChain
  finalized := finalized
  first := finalized
  serves := Walk.sampleConsensus_serves
  finalizedRoot := rfl
  children := fun height _ => ⟨rfl, Walk.sampleHeader (height + 1), rfl⟩
  firstRoot := rfl
  first_le := le_rfl
  noLag := rfl

/-- A process that stands at a block with an index of state slot 1. -/
def standing (lastProcessed : Nat) : World :=
  { World.blank (Walk.sampleHeader lastProcessed) with
    keysIndexer :=
      { info :=
          { moduleAddress := "0xab"
            moduleId := 3
            storageStateSlot := 1
            lastValidatorsCount := 0 }
        storage := ∅ }
    rootsStack :=
      { lastProcessedRootSlot :=
          some { blockRoot := lastProcessed, slotNumber := lastProcessed }
        storage := ∅ } }

/-- The states of undisturbed iterations. -/
def undisturbed (setting : Setting) (world : World) : Nat → World
  | 0 => world
  | time + 1 =>
      (finish
        (Daemon.walkNext setting.config setting.consensus setting.balances
          setting.finalizedHeader) (undisturbed setting world time)).2

/-- An undisturbed iteration that succeeds is a step of the walk. -/
theorem iterates_undisturbed
    {setting : Setting}
    {world : World}
    (time : Nat)
    (succeeds :
      (finish
        (Daemon.walkNext setting.config setting.consensus setting.balances
          setting.finalizedHeader) (undisturbed setting world time)).1 = .ok ()) :
    Iterates setting (undisturbed setting world time)
      (undisturbed setting world (time + 1)) := by
  obtain ⟨script, ran⟩ :=
    exists_run_finish (fun move : Meanwhile => move.1)
      (Daemon.walkNext setting.config setting.consensus setting.balances
        setting.finalizedHeader) (undisturbed setting world time)
  refine ⟨script, undisturbed setting world (time + 1), ?_, aside_refl _⟩
  rw [ran, undisturbed]
  revert succeeds
  rcases finish (Daemon.walkNext setting.config setting.consensus setting.balances
    setting.finalizedHeader) (undisturbed setting world time) with ⟨_ | _, final⟩
  · rintro ⟨⟩
  · exact fun _ => rfl

/-- The first iteration takes a process to a block at which all later ones leave it. -/
private theorem undisturbed_iterates
    (setting : Setting)
    (world : World)
    (begins :
      (finish
        (Daemon.walkNext setting.config setting.consensus setting.balances
          setting.finalizedHeader) world).1 = .ok ())
    (stays :
      ∀ disk log, ∃ laterDisk laterLog,
        finish
            (Daemon.walkNext setting.config setting.consensus setting.balances
              setting.finalizedHeader)
            { undisturbed setting world 1 with disk := disk, log := log } =
          (.ok (),
            { undisturbed setting world 1 with disk := laterDisk, log := laterLog })) :
    ∀ time,
      Iterates setting (undisturbed setting world time)
        (undisturbed setting world (time + 1)) := by
  have stands (time : Nat) :
      ∃ disk log,
        undisturbed setting world (time + 1) =
          { undisturbed setting world 1 with disk := disk, log := log } := by
    induction time with
    | zero =>
        exact ⟨(undisturbed setting world 1).disk, (undisturbed setting world 1).log, rfl⟩
    | succ time inductionHypothesis =>
        obtain ⟨disk, log, before⟩ := inductionHypothesis
        obtain ⟨laterDisk, laterLog, step⟩ := stays disk log
        refine ⟨laterDisk, laterLog, ?_⟩
        rw [undisturbed, before, step]
  intro time
  apply iterates_undisturbed
  cases time with
  | zero =>
      exact begins
  | succ time =>
      obtain ⟨disk, log, before⟩ := stands time
      obtain ⟨_, _, step⟩ := stays disk log
      rw [before, step]

/-- A state that stands at a block below the finalized one is a walk. -/
private theorem standing_walking
    {lastProcessed finalized : Nat}
    (atMost : lastProcessed ≤ finalized) :
    Walking (sampleSetting finalized) (standing lastProcessed) where
  stateSlot := rfl
  onChain :=
    { lastProcessed := by
        rintro rs ⟨rfl⟩
        exact ⟨lastProcessed, rfl⟩
      stacked := by simp [standing] }
  upTo :=
    { lastProcessed := by
        rintro rs ⟨rfl⟩
        exact atMost
      stacked := by simp [standing] }

/-- Nothing is stuck near the state slot of the index. -/
theorem reaches_finalized_sample :
    ReachesFinalized (sampleSetting 7) (undisturbed (sampleSetting 7) (standing 6)) ∧
      ReturnsOnce (sampleSetting 7) (undisturbed (sampleSetting 7) (standing 6)) := by
  apply (reaches_finalized_iff (sampleSetting 7)
    (undisturbed (sampleSetting 7) (standing 6)) (standing_walking (by decide))
    (undisturbed_iterates (sampleSetting 7) (standing 6) rfl
      fun _ _ => ⟨_, _, rfl⟩)).mpr
  constructor
  · rintro ⟨slot, ⟨_, unsettled⟩, _, below, _⟩
    apply unsettled
    have belowTip : slot ≤ 7 := below
    have trusted (safeDelay : Nat) (long : 7 ≤ 1 + safeDelay) :
        KeysIndexer.isWithinDelay safeDelay 1 slot = true := by
      rw [KeysIndexer.isWithinDelay_iff]
      omega
    exact (KeysIndexer.isTrustedForEveryDuty_iff _ _ _).mpr
      ⟨trusted _ (by decide), trusted _ (by decide)⟩
  · rintro ⟨fresh, _⟩
    cases fresh

/--
Block 5000 is too far from state slot 1 for slashings but not for withdrawals:
it stays in the stack and is processed without end, and block 5001 is not reached.
-/
theorem stuck_block_never_passed :
    Walking (sampleSetting 5001) (standing 4999) ∧
      (∀ time,
        Iterates (sampleSetting 5001)
          (undisturbed (sampleSetting 5001) (standing 4999) time)
          (undisturbed (sampleSetting 5001) (standing 4999) (time + 1))) ∧
      ¬ ReachesFinalized (sampleSetting 5001)
          (undisturbed (sampleSetting 5001) (standing 4999)) := by
  have walking := standing_walking (by decide : 4999 ≤ 5001)
  have iterates :=
    undisturbed_iterates (sampleSetting 5001) (standing 4999) rfl
      fun _ _ => ⟨_, _, rfl⟩
  refine ⟨walking, iterates, ?_⟩
  obtain ⟨always, walk⟩ := walk_of_iterates walking iterates
  rw [reachesFinalized_iff always]
  rintro ⟨time, atTip⟩
  have blocked :
      ReplayWalk.Blocked (sampleSetting 5001).track (walkState (standing 4999)) :=
    ⟨5000, ⟨rfl, Bool.false_ne_true⟩, ⟨5000, rfl⟩, Nat.le_succ 5000,
      .inr (.inl ⟨4999, rfl, Nat.lt_succ_self 4999⟩)⟩
  exact (walk.blocked walking.within blocked time).not_atTip atTip

end WalkProgress

end CsmProver
