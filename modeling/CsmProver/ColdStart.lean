import CsmProver.RootPhases

namespace CsmProver

/-!
# The walk from a cold start

Until a root is processed for the first time every attempt starts from the finalized
root of its moment, and the roots of failed attempts pile up in the stack.  When every
attempt gets past its push and the finalized root moves on by a block at most, the stack
has no gap and nothing can be lost.  Over a gap the walk has to go down to the lowest
stacked root and from there up again block by block; a replay that goes from one stacked
root to the next leaves the blocks between them behind.
-/

open Std (TreeMap)
open Async
open Walk
open RootPhases

namespace ColdStart

/-! ## Accounted blocks -/

/-- The block has been processed to completion or is in the stack. -/
def Accounted (chain : Chain) (log : List Event) (fields : RootsStackFields)
    (height : Nat) : Prop :=
  Done chain log height ∨ OnStack fields (chain.block height)

/-- The block is the last processed one or is in the stack. -/
def Named (chain : Chain) (fields : RootsStackFields) (height : Nat) : Prop :=
  fields.lastProcessedRootSlot = some (chain.block height) ∨
    OnStack fields (chain.block height)

/-- Every block from the first one on and below the height is accounted for. -/
def Filled (chain : Chain) (first : Nat) (log : List Event) (fields : RootsStackFields)
    (height : Nat) : Prop :=
  ∀ below, first ≤ below → below < height → Accounted chain log fields below

/-- Every block from the first one on and below the height is done or above a stacked one. -/
def Reserved (chain : Chain) (first : Nat) (log : List Event) (fields : RootsStackFields)
    (height : Nat) : Prop :=
  ∀ below,
    first ≤ below → below < height →
    Done chain log below ∨
      ∃ stacked ≤ below, OnStack fields (chain.block stacked)

/-! ## Conditions of a run -/

section Conditions

variable (config : Config) (balances : Bool) (chain : Chain) (first : Nat)

/-- Every step meets the condition in the state in which it is taken. -/
def AtEachStep (meets : World → Step → Prop) : World → List Step → Prop
  | _, [] => True
  | world, step :: rest =>
      meets world step ∧ AtEachStep meets (step.perform config balances world) rest

/--
If a process that dies leaves a last processed root, the roots of its stack that are below
a root of the files are in the file, too, unless they have been processed.
-/
def Saved (world : World) : Prop :=
  (RootsStack.readServiceData world.disk).lastProcessedRootSlot ≠ none →
  ∀ height above,
    first ≤ height → height < above →
    Named chain (RootsStack.readServiceData world.disk) above →
    OnStack world.rootsStack (chain.block height) →
    Accounted chain world.log (RootsStack.readServiceData world.disk) height

/--
No gap opens before the first success: what is below the finalized root is accounted for
when that root is tried.
-/
def WithoutGap (world : World) : Step → Prop
  | .iterate consensus finalizedHeader script =>
      (world.rootsStack.lastProcessedRootSlot = none →
        ∀ height,
          finalizedHeader.root = (chain.block height).blockRoot →
          Filled chain first world.log world.rootsStack height) ∧
      ((iteration config balances consensus finalizedHeader script world).1.Suspended →
        Saved chain first
          (iteration config balances consensus finalizedHeader script world).2)
  | .reindex _ => True
  | .crash => Saved chain first world

/-- `ROOTS_PROCESSING_LAG_SLOTS` keeps a candidate of this slot back. -/
def IsLagging (finalizedHeader : BlockHeaderResponse) (slotNumber : Nat) : Prop :=
  0 < config.rootsProcessingLagSlots ∧
    (finalizedHeader.message.slot : Int) - slotNumber < config.rootsProcessingLagSlots

/--
The walk goes in order: a cold attempt has a stacked root at or below every unprocessed
block, and the lowest stacked root, when the index is trusted for it, is not separated
from a last processed root below it by an unprocessed block.
-/
def InOrder (world : World) : Step → Prop
  | .iterate consensus finalizedHeader _ =>
      (world.rootsStack.lastProcessedRootSlot = none →
        ∀ height,
          finalizedHeader.root = (chain.block height).blockRoot →
          Reserved chain first world.log world.rootsStack height) ∧
      ∀ last lowest,
        world.rootsStack.lastProcessedRootSlot = some (chain.block last) →
        OnStack world.rootsStack (chain.block lowest) →
        (∀ stacked,
          OnStack world.rootsStack (chain.block stacked) →
          lowest ≤ stacked) →
        KeysIndexer.isTrustedForAnyDuty consensus
            world.keysIndexer.info.storageStateSlot (chain.block lowest).slotNumber =
          true →
        ¬ IsLagging config finalizedHeader (chain.block lowest).slotNumber →
        ∀ between,
          first ≤ between → last < between → between < lowest →
          Done chain world.log between
  | _ => True

/-- Once there is a last processed root the iterations return and the process does not die. -/
def Undisturbed (world : World) : Step → Prop
  | .iterate consensus finalizedHeader script =>
      (world.rootsStack.lastProcessedRootSlot ≠ none →
        (iteration config balances consensus finalizedHeader script world).1 =
          .done ()) ∧
      ((iteration config balances consensus finalizedHeader script world).1.Suspended →
        (RootsStack.readServiceData
            (iteration config balances consensus finalizedHeader script
              world).2.disk).lastProcessedRootSlot =
          none)
  | .reindex _ => True
  | .crash => (RootsStack.readServiceData world.disk).lastProcessedRootSlot = none

/-- The walk has come down to the bottom of the stack, in memory and in the file. -/
def AtBottom (world : World) : Prop :=
  ∃ last,
    world.rootsStack.lastProcessedRootSlot = some (chain.block last) ∧
      (RootsStack.readServiceData world.disk).lastProcessedRootSlot =
        some (chain.block last) ∧
      ∀ stacked, OnStack world.rootsStack (chain.block stacked) → last ≤ stacked

/--
The walk is in order, and nothing fails from its first success until it has come down to
the bottom of the stack.
-/
def GoesDown (world : World) (steps : List Step) : Prop :=
  AtEachStep config balances (InOrder config chain first) world steps ∧
    ∃ before after,
      steps = before ++ after ∧
        AtEachStep config balances (Undisturbed config balances) world before ∧
        AtBottom chain (perform config balances world before)

/-- No gap opens, or the walk comes down to the bottom of the stack in order. -/
def Covers (world : World) (steps : List Step) : Prop :=
  AtEachStep config balances (WithoutGap config balances chain first) world steps ∨
    GoesDown config balances chain first world steps

/-- The finalized headers of the run are blocks of the chain and do not go back. -/
def AdvancesTo (top : Nat) : Nat → List Step → Prop
  | low, [] => low ≤ top
  | low, .iterate _ finalizedHeader _ :: rest =>
      ∃ height,
        low ≤ height ∧ finalizedHeader.root = (chain.block height).blockRoot ∧
          AdvancesTo top height rest
  | low, _ :: rest => AdvancesTo top low rest

end Conditions

/-! ## Blocks up to the top -/

/-- The stack and the last processed root are blocks of the chain, not above the top. -/
structure Placed (chain : Chain) (top : Nat) (log : List Event) (fields : RootsStackFields) :
    Prop where
  lastProcessed :
    ∀ rs,
      fields.lastProcessedRootSlot = some rs →
      ∃ height ≤ top, rs = chain.block height ∧ Done chain log height
  stacked :
    ∀ slot blockRoot,
      fields.storage[slot]? = some blockRoot →
      ∃ height ≤ top, chain.block height = { blockRoot := blockRoot, slotNumber := slot }

/-- Memory, files and log know of no block above the top. -/
structure Based (chain : Chain) (top : Nat) (world : World) : Prop where
  memory : Placed chain top world.log world.rootsStack
  disk : Placed chain top world.log (RootsStack.readServiceData world.disk)
  visited :
    ∀ rs, .lastProcessedSet rs ∈ world.log → ∃ height ≤ top, rs = chain.block height
  done : ∀ height, Done chain world.log height → height ≤ top
  named :
    (RootsStack.readServiceData world.disk).lastProcessedRootSlot ≠ none →
    world.rootsStack.lastProcessedRootSlot ≠ none

section Blocks

variable {chain : Chain} {first top height : Nat} {log grown : List Event}
variable {fields after : RootsStackFields} {world moved : World}

theorem Placed.mono
    (placed : Placed chain top log fields)
    {higher : Nat}
    (above : top ≤ higher)
    (grows : ∀ other, Done chain log other → Done chain grown other) :
    Placed chain higher grown fields where
  lastProcessed := by
    intro rs isLast
    obtain ⟨height, atMost, isBlock, done⟩ := placed.lastProcessed rs isLast
    exact ⟨height, atMost.trans above, isBlock, grows height done⟩
  stacked := by
    intro slot blockRoot found
    obtain ⟨height, atMost, isBlock⟩ := placed.stacked slot blockRoot found
    exact ⟨height, atMost.trans above, isBlock⟩

/-- A stacked block is not above the top. -/
theorem Placed.le_of_onStack
    (placed : Placed chain top log fields)
    (onStack : OnStack fields (chain.block height)) :
    height ≤ top := by
  obtain ⟨stacked, atMost, isBlock⟩ := placed.stacked _ _ onStack
  rw [← height_eq_of_block isBlock] at atMost
  exact atMost

/-- The last processed block is done, and not above the top. -/
theorem Placed.last
    (placed : Placed chain top log fields)
    (isLast : fields.lastProcessedRootSlot = some (chain.block height)) :
    height ≤ top ∧ Done chain log height := by
  obtain ⟨last, atMost, isBlock, done⟩ := placed.lastProcessed _ isLast
  obtain rfl := height_eq_of_block isBlock
  exact ⟨atMost, done⟩

/-- One of the two fields may come from elsewhere. -/
theorem Placed.combine
    {other : RootsStackFields}
    (placed : Placed chain top log fields)
    (others : Placed chain top log other) :
    Placed chain top log
      { lastProcessedRootSlot := fields.lastProcessedRootSlot, storage := other.storage } where
  lastProcessed := placed.lastProcessed
  stacked := others.stacked

theorem Based.mono
    (based : Based chain top world)
    {higher : Nat}
    (above : top ≤ higher) :
    Based chain higher world where
  memory := based.memory.mono above fun _ done => done
  disk := based.disk.mono above fun _ done => done
  visited := by
    intro rs member
    obtain ⟨height, atMost, isBlock⟩ := based.visited rs member
    exact ⟨height, atMost.trans above, isBlock⟩
  done := fun height done => (based.done height done).trans above
  named := based.named

theorem Based.beside
    (based : Based chain top world)
    (beside : Beside world moved) :
    Based chain top moved where
  memory := by
    rw [beside.stack]
    exact based.memory.mono le_rfl fun other => (done_beside beside other).mpr
  disk := by
    rw [RootsStack.readServiceData, beside.info, beside.storage]
    exact based.disk.mono le_rfl fun other => (done_beside beside other).mpr
  visited := fun rs member => based.visited rs ((beside.visited rs).mp member)
  done := fun height done => based.done height ((done_beside beside height).mp done)
  named := by
    rw [beside.stack, RootsStack.readServiceData, beside.info]
    exact based.named

/-- A new process takes both fields from the files. -/
theorem Based.restart
    (based : Based chain top world) :
    Based chain top (restart world) where
  memory := based.disk
  disk := based.disk
  visited := based.visited
  done := based.done
  named := id

/-- A root that is not above the top leaves nothing above it. -/
theorem based_phases
    (atMost : height ≤ top) :
    Phases chain height (Based chain top) (Based chain top)
      (fun world => Based chain top world ∧ Done chain world.log height)
      (Based chain top) where
  handedHeld := fun _ => id
  settlingHeld := fun _ => And.left
  settledHeld := fun _ => id
  handedStays := fun _ _ based beside => based.beside beside
  settlingStays := fun _ _ settling beside =>
    ⟨settling.1.beside beside, (done_beside beside height).mpr settling.2⟩
  settledStays := fun _ _ based beside => based.beside beside
  push := by
    intro world based
    refine ⟨⟨based.memory.lastProcessed, fun slot blockRoot found => ?_⟩, based.disk,
      based.visited, based.done, based.named⟩
    rw [getElem?_stackedWith] at found
    split at found
    · next same =>
        refine ⟨height, atMost, ?_⟩
        rw [← same, ← Option.some.inj found]
    · exact based.memory.stacked slot blockRoot found
  returns := by
    intro world storageStateSlot based
    have grows :
        ∀ other,
          Done chain world.log other →
          Done chain (afterDuties chain height storageStateSlot world).log other :=
      fun other done => done_afterDuties.mpr (.inr done)
    refine ⟨⟨based.memory.mono le_rfl grows, based.disk.mono le_rfl grows, ?_, ?_,
      based.named⟩, done_afterDuties.mpr (.inl rfl)⟩
    · intro rs member
      exact based.visited rs (by simpa [afterDuties] using member)
    · intro other done
      rcases done_afterDuties.mp done with rfl | earlier
      · exact atMost
      · exact based.done other earlier
  erase := by
    rintro world ⟨based, done⟩
    have grows :
        ∀ other,
          Done chain world.log other →
          Done chain (erased chain height world).log other :=
      fun other => done_erased.mpr
    have memory := based.memory.mono le_rfl grows
    refine ⟨⟨⟨memory.lastProcessed, fun slot blockRoot found => ?_⟩,
      based.disk.mono le_rfl grows, ?_, ?_, based.named⟩, grows height done⟩
    · rw [getElem?_erased] at found
      split at found
      · cases found
      · exact memory.stacked slot blockRoot found
    · intro rs member
      exact based.visited rs (by simpa [erased] using member)
    · exact fun other otherDone => based.done other (done_erased.mp otherDone)
  advance := by
    rintro world ⟨based, done⟩
    have grows :
        ∀ other,
          Done chain world.log other →
          Done chain (advanced chain height world).log other :=
      fun other => done_advanced.mpr
    refine ⟨⟨?_, based.memory.stacked⟩, based.disk.mono le_rfl grows, ?_, ?_,
      fun _ => Option.some_ne_none _⟩
    · rintro rs ⟨rfl⟩
      exact ⟨height, atMost, rfl, grows height done⟩
    · intro rs member
      rcases List.mem_append.mp member with earlier | now
      · exact based.visited rs earlier
      · rw [List.mem_singleton, Event.lastProcessedSet.injEq] at now
        exact ⟨height, atMost, now⟩
    · exact fun other otherDone => based.done other (done_advanced.mp otherDone)
  savesHanded := fun _ based =>
    ⟨based.memory, based.disk.combine based.memory, based.visited, based.done, based.named⟩
  savesSettling := fun _ settling =>
    ⟨⟨settling.1.memory, settling.1.disk.combine settling.1.memory, settling.1.visited,
      settling.1.done, settling.1.named⟩, settling.2⟩
  savesSettled := fun _ based =>
    ⟨based.memory, based.memory.combine based.disk, based.visited, based.done, id⟩

end Blocks

/-! ## A stack without a gap -/

/-- The block is named in memory or in the files. -/
def Known (chain : Chain) (world : World) (height : Nat) : Prop :=
  Named chain world.rootsStack height ∨
    Named chain (RootsStack.readServiceData world.disk) height

/-- Below every block that memory or the files name, every block is accounted for. -/
def Gapless (chain : Chain) (first : Nat) (world : World) : Prop :=
  ∀ height, Known chain world height → Filled chain first world.log world.rootsStack height

section Gapless

variable {chain : Chain} {first top height : Nat} {log grown : List Event}
variable {fields after : RootsStackFields} {world moved : World}

theorem Filled.mono
    (filled : Filled chain first log fields height)
    (keeps : ∀ other, Accounted chain log fields other → Accounted chain grown after other) :
    Filled chain first grown after height :=
  fun below low under => keeps below (filled below low under)

/-- A change that names no new block but one above accounted ones. -/
theorem Gapless.change
    (gapless : Gapless chain first world)
    (keeps :
      ∀ other,
        Accounted chain world.log world.rootsStack other →
        Accounted chain moved.log moved.rootsStack other)
    (names :
      ∀ other,
        Known chain moved other →
        Known chain world other ∨ Filled chain first world.log world.rootsStack other) :
    Gapless chain first moved := by
  intro other known
  rcases names other known with before | filled
  · exact (gapless other before).mono keeps
  · exact filled.mono keeps

theorem accounted_beside
    (beside : Beside world moved)
    (other : Nat) :
    Accounted chain moved.log moved.rootsStack other ↔
      Accounted chain world.log world.rootsStack other := by
  rw [Accounted, Accounted, beside.stack, done_beside beside]

theorem Filled.beside
    (filled : Filled chain first world.log world.rootsStack height)
    (beside : Beside world moved) :
    Filled chain first moved.log moved.rootsStack height :=
  filled.mono fun other => (accounted_beside beside other).mpr

theorem Gapless.beside
    (gapless : Gapless chain first world)
    (beside : Beside world moved) :
    Gapless chain first moved := by
  refine gapless.change (fun other => (accounted_beside beside other).mpr) fun other known => ?_
  rw [Known, beside.stack, RootsStack.readServiceData, beside.info, beside.storage] at known
  exact .inl known

/-- A file that takes what memory has names nothing that was not named. -/
theorem Known.of_saved
    {other : Nat}
    (known : Known chain moved other)
    (sameStack : moved.rootsStack = world.rootsStack)
    (isLast :
      (RootsStack.readServiceData moved.disk).lastProcessedRootSlot =
          world.rootsStack.lastProcessedRootSlot ∨
        (RootsStack.readServiceData moved.disk).lastProcessedRootSlot =
          (RootsStack.readServiceData world.disk).lastProcessedRootSlot)
    (isStorage :
      (RootsStack.readServiceData moved.disk).storage = world.rootsStack.storage ∨
        (RootsStack.readServiceData moved.disk).storage =
          (RootsStack.readServiceData world.disk).storage) :
    Known chain world other := by
  rw [Known, Named, Named, OnStack, OnStack, sameStack] at known
  rcases known with (last | onStack) | last | onStack
  · exact .inl (.inl last)
  · exact .inl (.inr onStack)
  · rcases isLast with same | same
    · exact .inl (.inl (same.symm.trans last))
    · exact .inr (.inl (same.symm.trans last))
  · rcases isStorage with same | same
    · rw [same] at onStack
      exact .inl (.inr onStack)
    · rw [same] at onStack
      exact .inr (.inr onStack)

/-- A root above accounted blocks opens no gap, and none is opened when it is unstacked. -/
theorem gapless_phases :
    Phases chain height (Gapless chain first)
      (fun world =>
        Gapless chain first world ∧
          Filled chain first world.log world.rootsStack height)
      (fun world =>
        Gapless chain first world ∧
          Filled chain first world.log world.rootsStack height ∧ Done chain world.log height)
      (Gapless chain first) where
  handedHeld := fun _ => And.left
  settlingHeld := fun _ => And.left
  settledHeld := fun _ => id
  handedStays := fun _ _ handed beside =>
    ⟨handed.1.beside beside, handed.2.beside beside⟩
  settlingStays := fun _ _ settling beside =>
    ⟨settling.1.beside beside, settling.2.1.beside beside,
      (done_beside beside height).mpr settling.2.2⟩
  settledStays := fun _ _ gapless beside => gapless.beside beside
  push := by
    rintro world ⟨gapless, filled⟩
    have keeps :
        ∀ other,
          Accounted chain world.log world.rootsStack other →
          Accounted chain world.log (stackedWith chain height world).rootsStack other :=
      fun other => .imp_right fun onStack => onStack_stackedWith.mpr (.inr onStack)
    refine ⟨gapless.change keeps ?_, filled.mono keeps⟩
    rintro other ((isLast | onStack) | onFile)
    · exact .inl (.inl (.inl isLast))
    · rcases onStack_stackedWith.mp onStack with rfl | before
      · exact .inr filled
      · exact .inl (.inl (.inr before))
    · exact .inl (.inr onFile)
  returns := by
    rintro world storageStateSlot ⟨gapless, filled⟩
    have keeps :
        ∀ other,
          Accounted chain world.log world.rootsStack other →
          Accounted chain (afterDuties chain height storageStateSlot world).log
            world.rootsStack other :=
      fun other => .imp_left fun done => done_afterDuties.mpr (.inr done)
    exact ⟨gapless.change keeps fun _ => .inl, filled.mono keeps,
      done_afterDuties.mpr (.inl rfl)⟩
  erase := by
    rintro world ⟨gapless, filled, done⟩
    have keeps :
        ∀ other,
          Accounted chain world.log world.rootsStack other →
          Accounted chain (erased chain height world).log (erased chain height world).rootsStack
            other := by
      rintro other (otherDone | onStack)
      · exact .inl (done_erased.mpr otherDone)
      · by_cases same : other = height
        · exact .inl (done_erased.mpr (same ▸ done))
        · exact .inr (onStack_erased.mpr ⟨same, onStack⟩)
    refine ⟨gapless.change keeps ?_, filled.mono keeps, done_erased.mpr done⟩
    rintro other ((isLast | onStack) | onFile)
    · exact .inl (.inl (.inl isLast))
    · exact .inl (.inl (.inr (onStack_erased.mp onStack).2))
    · exact .inl (.inr onFile)
  advance := by
    rintro world ⟨gapless, filled, _⟩
    have keeps :
        ∀ other,
          Accounted chain world.log world.rootsStack other →
          Accounted chain (advanced chain height world).log
            (advanced chain height world).rootsStack other :=
      fun other => .imp done_advanced.mpr onStack_advanced.mpr
    refine gapless.change keeps ?_
    rintro other ((isLast | onStack) | onFile)
    · obtain rfl := height_eq_of_block (Option.some.inj isLast)
      exact .inr filled
    · exact .inl (.inl (.inr (onStack_advanced.mp onStack)))
    · exact .inl (.inr onFile)
  savesHanded := fun _ handed =>
    ⟨handed.1.change (fun _ => id) fun _ known =>
      .inl (known.of_saved rfl (.inr rfl) (.inl rfl)), handed.2⟩
  savesSettling := fun _ settling =>
    ⟨settling.1.change (fun _ => id) fun _ known =>
      .inl (known.of_saved rfl (.inr rfl) (.inl rfl)), settling.2⟩
  savesSettled := fun _ gapless =>
    gapless.change (fun _ => id) fun _ known =>
      .inl (known.of_saved rfl (.inl rfl) (.inr rfl))

/-- Between two steps: once there is a last processed root the stack has no gap. -/
structure Whole (chain : Chain) (first top : Nat) (world : World) : Prop where
  based : Based chain top world
  gapless : world.rootsStack.lastProcessedRootSlot ≠ none → Gapless chain first world

/-- Nothing named is above the top, so what is filled below the top has no gap. -/
theorem gapless_of_filled
    (based : Based chain top world)
    (filled : Filled chain first world.log world.rootsStack top) :
    Gapless chain first world := by
  have atMost {fields : RootsStackFields} {other : Nat}
      (placed : Placed chain top world.log fields)
      (named : Named chain fields other) :
      other ≤ top :=
    named.elim (fun isLast => (placed.last isLast).1) placed.le_of_onStack
  intro other known below low under
  have isAtMost : other ≤ top :=
    known.elim (atMost based.memory) (atMost based.disk)
  exact filled below low (by omega)

/-- A new process finds no gap when the old one had none and its roots are saved. -/
theorem Whole.restart
    (based : Based chain top world)
    (gapless : Gapless chain first world)
    (saved : Saved chain first world) :
    Whole chain first top (restart world) where
  based := based.restart
  gapless := by
    intro isSet height known below low under
    have named : Named chain (RootsStack.readServiceData world.disk) height :=
      known.elim id id
    rcases gapless height (.inr named) below low under with done | onStack
    · exact .inl done
    · exact saved isSet below height low under named onStack

end Gapless

/-! ## Going down -/

/-- The block is done, or the walk will still come to it. -/
def WatchedAt (chain : Chain) (log : List Event) (fields : RootsStackFields)
    (height : Nat) : Prop :=
  Done chain log height ∨
    (∃ stacked ≤ height, OnStack fields (chain.block stacked)) ∨
    ∃ last < height, fields.lastProcessedRootSlot = some (chain.block last)

/-- Once there is a last processed root every block from the first one on is watched. -/
def Watches (chain : Chain) (first : Nat) (log : List Event) (fields : RootsStackFields) :
    Prop :=
  fields.lastProcessedRootSlot ≠ none →
  ∀ height, first ≤ height → WatchedAt chain log fields height

section Watching

variable {chain : Chain} {first top height : Nat} {log grown : List Event}
variable {fields after : RootsStackFields} {world moved : World}

theorem Reserved.mono
    (reserved : Reserved chain first log fields height)
    (grows : ∀ other, Done chain log other → Done chain grown other)
    (keeps :
      ∀ other < height,
        OnStack fields (chain.block other) → OnStack after (chain.block other)) :
    Reserved chain first grown after height := by
  intro below low under
  rcases reserved below low under with done | ⟨stacked, atMost, onStack⟩
  · exact .inl (grows below done)
  · exact .inr ⟨stacked, atMost, keeps stacked (by omega) onStack⟩

theorem Reserved.beside
    (reserved : Reserved chain first world.log world.rootsStack height)
    (beside : Beside world moved) :
    Reserved chain first moved.log moved.rootsStack height := by
  rw [beside.stack]
  exact reserved.mono (fun other => (done_beside beside other).mpr) fun _ _ onStack => onStack

theorem Watches.beside
    (watches : Watches chain first world.log world.rootsStack)
    (beside : Beside world moved) :
    Watches chain first moved.log moved.rootsStack := by
  rw [beside.stack]
  intro isSet height low
  exact (watches isSet height low).imp_left (done_beside beside height).mpr

/-- The last processed root watches what is above it. -/
theorem watches_of_last
    (reserved : Reserved chain first log fields height)
    (done : Done chain log height)
    (isLast : fields.lastProcessedRootSlot = some (chain.block height)) :
    Watches chain first log fields := by
  intro _ other low
  rcases Nat.lt_trichotomy other height with below | rfl | above
  · exact (reserved other low below).imp_right .inl
  · exact .inl done
  · exact .inr (.inr ⟨height, above, isLast⟩)

/--
A root with nothing given up below it.  Of an attempt before the first success the
blocks are watched even when it fails.
-/
theorem watching_phases
    (cold : Prop) :
    Phases chain height
      (fun world => cold → Watches chain first world.log world.rootsStack)
      (fun world =>
        Reserved chain first world.log world.rootsStack height ∧
          (cold → world.rootsStack.lastProcessedRootSlot = none))
      (fun world =>
        Reserved chain first world.log world.rootsStack height ∧
          Done chain world.log height ∧
            (cold → world.rootsStack.lastProcessedRootSlot = none))
      (fun world => Watches chain first world.log world.rootsStack) where
  handedHeld := fun _ handed isCold isSet => absurd (handed.2 isCold) isSet
  settlingHeld := fun _ settling isCold isSet => absurd (settling.2.2 isCold) isSet
  settledHeld := fun _ watches _ => watches
  handedStays := fun _ _ handed beside =>
    ⟨handed.1.beside beside, by rw [beside.stack]; exact handed.2⟩
  settlingStays := fun _ _ settling beside =>
    ⟨settling.1.beside beside, (done_beside beside height).mpr settling.2.1,
      by rw [beside.stack]; exact settling.2.2⟩
  settledStays := fun _ _ watches beside => watches.beside beside
  push := fun _ handed =>
    ⟨handed.1.mono (fun _ done => done) fun _ _ onStack =>
      onStack_stackedWith.mpr (.inr onStack), handed.2⟩
  returns := fun _ _ handed =>
    ⟨handed.1.mono (fun _ done => done_afterDuties.mpr (.inr done)) fun _ _ onStack => onStack,
      done_afterDuties.mpr (.inl rfl), handed.2⟩
  erase := fun _ settling =>
    ⟨settling.1.mono (fun _ => done_erased.mpr) fun _ below onStack =>
      onStack_erased.mpr ⟨below.ne, onStack⟩, done_erased.mpr settling.2.1, settling.2.2⟩
  advance := fun _ settling =>
    watches_of_last (settling.1.mono (fun _ => done_advanced.mpr) fun _ _ onStack => onStack)
      (done_advanced.mpr settling.2.1) rfl
  savesHanded := fun _ => id
  savesSettling := fun _ => id
  savesSettled := fun _ => id

end Watching

/-! ## Going up -/

/-- Every block from the first one up to the height is done. -/
def Passed (chain : Chain) (first : Nat) (log : List Event) (height : Nat) : Prop :=
  ∀ below, first ≤ below → below ≤ height → Done chain log below

/-- The walk has passed every block up to the last processed one, which both fields name. -/
structure Caught (chain : Chain) (first : Nat) (world : World) : Prop where
  memory :
    ∃ last,
      world.rootsStack.lastProcessedRootSlot = some (chain.block last) ∧
        Passed chain first world.log last
  disk :
    ∃ last,
      (RootsStack.readServiceData world.disk).lastProcessedRootSlot =
          some (chain.block last) ∧
        Passed chain first world.log last

section Passing

variable {chain : Chain} {first top height : Nat} {log grown : List Event}
variable {world moved : World}

theorem Passed.mono
    (passed : Passed chain first log height)
    (grows : ∀ other, Done chain log other → Done chain grown other) :
    Passed chain first grown height :=
  fun below low atMost => grows below (passed below low atMost)

theorem Caught.mono
    (caught : Caught chain first world)
    (grows : ∀ other, Done chain world.log other → Done chain moved.log other)
    (sameLast :
      moved.rootsStack.lastProcessedRootSlot = world.rootsStack.lastProcessedRootSlot)
    (sameInfo : moved.disk.rootsStackInfo = world.disk.rootsStackInfo) :
    Caught chain first moved where
  memory := by
    obtain ⟨last, isLast, passed⟩ := caught.memory
    exact ⟨last, sameLast.trans isLast, passed.mono grows⟩
  disk := by
    obtain ⟨last, isLast, passed⟩ := caught.disk
    refine ⟨last, ?_, passed.mono grows⟩
    rw [RootsStack.readServiceData, sameInfo]
    exact isLast

theorem Caught.beside
    (caught : Caught chain first world)
    (beside : Beside world moved) :
    Caught chain first moved :=
  caught.mono (fun other => (done_beside beside other).mpr)
    (congrArg RootsStackFields.lastProcessedRootSlot beside.stack) beside.info

theorem Caught.restart
    (caught : Caught chain first world) :
    Caught chain first (restart world) :=
  ⟨caught.disk, caught.disk⟩

/-- A root with only done blocks below it. -/
theorem caught_phases :
    Phases chain height (Caught chain first)
      (fun world =>
        Caught chain first world ∧
          ∀ below, first ≤ below → below < height → Done chain world.log below)
      (fun world => Caught chain first world ∧ Passed chain first world.log height)
      (Caught chain first) where
  handedHeld := fun _ => And.left
  settlingHeld := fun _ => And.left
  settledHeld := fun _ => id
  handedStays := fun _ _ handed beside =>
    ⟨handed.1.beside beside, fun below low under =>
      (done_beside beside below).mpr (handed.2 below low under)⟩
  settlingStays := fun _ _ settling beside =>
    ⟨settling.1.beside beside,
      settling.2.mono fun other => (done_beside beside other).mpr⟩
  settledStays := fun _ _ caught beside => caught.beside beside
  push := fun _ handed => ⟨handed.1.mono (fun _ done => done) rfl rfl, handed.2⟩
  returns := by
    rintro world storageStateSlot ⟨caught, passed⟩
    refine ⟨caught.mono (fun _ done => done_afterDuties.mpr (.inr done)) rfl rfl, ?_⟩
    intro below low atMost
    rcases atMost.lt_or_eq with under | rfl
    · exact done_afterDuties.mpr (.inr (passed below low under))
    · exact done_afterDuties.mpr (.inl rfl)
  erase := fun _ settling =>
    ⟨settling.1.mono (fun _ => done_erased.mpr) rfl rfl,
      settling.2.mono fun _ => done_erased.mpr⟩
  advance := by
    rintro world ⟨caught, passed⟩
    obtain ⟨last, isLast, filePassed⟩ := caught.disk
    exact
      { memory := ⟨height, rfl, passed.mono fun _ => done_advanced.mpr⟩
        disk := ⟨last, isLast, filePassed.mono fun _ => done_advanced.mpr⟩ }
  savesHanded := fun _ handed => ⟨handed.1.mono (fun _ done => done) rfl rfl, handed.2⟩
  savesSettling := fun _ settling =>
    ⟨settling.1.mono (fun _ done => done) rfl rfl, settling.2⟩
  savesSettled := fun _ caught => ⟨caught.memory, caught.memory⟩

/-- At the bottom of a watched stack every block up to the last processed one is done. -/
theorem caught_of_bottom
    (based : Based chain top world)
    (watches : Watches chain first world.log world.rootsStack)
    (atBottom : AtBottom chain world) :
    Caught chain first world := by
  obtain ⟨last, isLast, isFileLast, bottom⟩ := atBottom
  have done := (based.memory.last isLast).2
  have passed : Passed chain first world.log last := by
    intro below low atMost
    rcases watches (by simp [isLast]) below low with
      isDone | ⟨stacked, under, onStack⟩ | ⟨other, under, isOther⟩
    · exact isDone
    · have least := bottom stacked onStack
      obtain rfl : below = last := by omega
      exact done
    · have same := height_eq_of_block (Option.some.inj (isLast.symm.trans isOther))
      omega
  exact ⟨⟨last, isLast, passed⟩, ⟨last, isFileLast, passed⟩⟩

end Passing

/-! ## The next root -/

section Next

variable {config : Config} {consensus : Consensus} {finalizedHeader : BlockHeaderResponse}
variable {chain : Chain} {first top : Nat} {world : World}

/-- A trust window that has a slot has every lower one. -/
theorem isTrustedForAnyDuty_of_le
    {storageStateSlot lower slotNumber : Nat}
    (trusted : KeysIndexer.isTrustedForAnyDuty consensus storageStateSlot slotNumber = true)
    (below : lower ≤ slotNumber) :
    KeysIndexer.isTrustedForAnyDuty consensus storageStateSlot lower = true := by
  rw [KeysIndexer.isTrustedForAnyDuty_iff] at trusted ⊢
  simp only [KeysIndexer.isTrustedForSlashings, KeysIndexer.isTrustedForFullWithdrawals,
    KeysIndexer.isWithinDelay_iff] at trusted ⊢
  omega

/-- Where a root that is handed over comes from. -/
inductive Origin (config : Config) (consensus : Consensus)
    (finalizedHeader : BlockHeaderResponse) (chain : Chain) (top : Nat) (world : World) :
    Nat → Prop where
  | finalized :
      world.rootsStack.lastProcessedRootSlot = none →
      Origin config consensus finalizedHeader chain top world top
  | stacked {last lowest : Nat} :
      world.rootsStack.lastProcessedRootSlot = some (chain.block last) →
      OnStack world.rootsStack (chain.block lowest) →
      (∀ other,
        OnStack world.rootsStack (chain.block other) →
        lowest ≤ other) →
      KeysIndexer.isTrustedForAnyDuty consensus world.keysIndexer.info.storageStateSlot
          (chain.block lowest).slotNumber =
        true →
      ¬ IsLagging config finalizedHeader (chain.block lowest).slotNumber →
      Origin config consensus finalizedHeader chain top world lowest
  | child {last : Nat} :
      world.rootsStack.lastProcessedRootSlot = some (chain.block last) →
      last < top →
      Origin config consensus finalizedHeader chain top world (last + 1)

theorem not_isLagging
    {candidate : RootSlot}
    {root : RootHex}
    (ahead : RootsProvider.unlessLagging config finalizedHeader candidate = some root) :
    ¬ IsLagging config finalizedHeader candidate.slotNumber := by
  intro lagging
  simp only [RootsProvider.unlessLagging] at ahead
  rw [if_pos ⟨by exact_mod_cast lagging.1, lagging.2⟩] at ahead
  cases ahead

/-- What `getNext` hands out is the finalized root, the lowest stacked root or the next block. -/
theorem origin_of_next
    (serves : Serves chain consensus)
    (noStartRoot : config.startRoot = none)
    (finalized : finalizedHeader.root = (chain.block top).blockRoot)
    (based : Based chain top world)
    {root : RootHex}
    (isNext : RootsProvider.nextOf config consensus finalizedHeader world = some root) :
    ∃ height ≤ top,
      root = (chain.block height).blockRoot ∧
        Origin config consensus finalizedHeader chain top world height := by
  rw [RootsProvider.nextOf] at isNext
  cases isLast : world.rootsStack.lastProcessedRootSlot with
  | none =>
      simp only [isLast, RootsProvider.getKnown, noStartRoot, Option.some.injEq] at isNext
      exact ⟨top, le_rfl, isNext ▸ finalized, .finalized isLast⟩
  | some rs =>
      obtain ⟨last, lastAtMost, rfl, _⟩ := based.memory.lastProcessed rs isLast
      simp only [isLast] at isNext
      obtain ⟨candidate, isCandidate, unlagged⟩ := Option.bind_eq_some_iff.mp isNext
      have isRoot := (RootsProvider.eq_of_unlessLagging unlagged).symm
      rcases Option.or_eq_some_iff.mp isCandidate with eligible | ⟨_, isChild⟩
      · obtain ⟨onStack, trusted, lowest⟩ := RootsStack.getNextEligible_some eligible
        obtain ⟨height, atMost, isBlock⟩ := based.memory.stacked _ _ onStack
        obtain rfl : chain.block height = candidate := isBlock
        refine ⟨height, atMost, isRoot,
          .stacked isLast onStack (fun other otherStacked => ?_) trusted
            (not_isLagging unlagged)⟩
        by_contra below
        have under : (chain.block other).slotNumber < (chain.block height).slotNumber :=
          chain.increasing (by omega)
        have least :=
          lowest _ _ otherStacked (isTrustedForAnyDuty_of_le trusted under.le)
        omega
      · obtain rfl := serves.childOf isChild
        have notTop : last ≠ top := by
          rintro rfl
          rw [RootsProvider.childOf, if_pos finalized.symm] at isChild
          cases isChild
        exact ⟨last + 1, by omega, isRoot, .child isLast (by omega)⟩

variable {balances : Bool} {script : List (Beat Nat)} {height : Nat}

/-- Over a stack without a gap every root is handed over above accounted blocks. -/
theorem Origin.filled
    (origin : Origin config consensus finalizedHeader chain top world height)
    (based : Based chain top world)
    (gapless : Gapless chain first world)
    (cold :
      world.rootsStack.lastProcessedRootSlot = none →
      Filled chain first world.log world.rootsStack top) :
    Filled chain first world.log world.rootsStack height := by
  cases origin with
  | finalized unset =>
      exact cold unset
  | stacked _ onStack _ _ _ =>
      exact gapless height (.inl (.inr onStack))
  | child isLast _ =>
      have done := (based.memory.last isLast).2
      intro below low under
      rcases Nat.lt_succ_iff_lt_or_eq.mp under with lower | rfl
      · exact gapless _ (.inl (.inl isLast)) below low lower
      · exact .inl done

/-- A walk in order hands over no root above a block that is given up. -/
theorem Origin.reserved
    (origin : Origin config consensus finalizedHeader chain top world height)
    (finalized : finalizedHeader.root = (chain.block top).blockRoot)
    (inOrder : InOrder config chain first world (.iterate consensus finalizedHeader script))
    (watches : Watches chain first world.log world.rootsStack) :
    Reserved chain first world.log world.rootsStack height := by
  obtain ⟨cold, replay⟩ := inOrder
  -- The last processed root watches only what is above it.
  have watched
      {last below : Nat}
      (isLast : world.rootsStack.lastProcessedRootSlot = some (chain.block last))
      (low : first ≤ below) :
      (Done chain world.log below ∨
        ∃ stacked ≤ below, OnStack world.rootsStack (chain.block stacked)) ∨
        last < below := by
    rcases watches (by simp [isLast]) below low with done | stacked | ⟨other, under, isOther⟩
    · exact .inl (.inl done)
    · exact .inl (.inr stacked)
    · obtain rfl := height_eq_of_block (Option.some.inj (isLast.symm.trans isOther))
      exact .inr under
  cases origin with
  | finalized unset =>
      exact cold unset top finalized
  | stacked isLast onStack lowest trusted unlagged =>
      intro below low under
      rcases watched isLast low with reserved | above
      · exact reserved
      · exact .inl
          (replay _ _ isLast onStack lowest trusted unlagged below low above under)
  | child isLast _ =>
      intro below low under
      exact (watched isLast low).resolve_right (by omega)

/-- A walk in order that has caught up hands over no root above an unprocessed block. -/
theorem Origin.passed
    (origin : Origin config consensus finalizedHeader chain top world height)
    (inOrder : InOrder config chain first world (.iterate consensus finalizedHeader script))
    (caught : Caught chain first world) :
    ∀ below, first ≤ below → below < height → Done chain world.log below := by
  obtain ⟨caughtLast, isCaught, passed⟩ := caught.memory
  intro below low under
  cases origin with
  | finalized unset =>
      cases unset.symm.trans isCaught
  | stacked isLast onStack lowest trusted unlagged =>
      obtain rfl := height_eq_of_block (Option.some.inj (isLast.symm.trans isCaught))
      rcases Nat.lt_or_ge caughtLast below with above | atMost
      · exact inOrder.2 _ _ isLast onStack lowest trusted unlagged below low above under
      · exact passed below low atMost
  | child isLast _ =>
      obtain rfl := height_eq_of_block (Option.some.inj (isLast.symm.trans isCaught))
      exact passed below low (by omega)

end Next

/-! ## Steps -/

section Steps

variable {config : Config} {consensus : Consensus} {finalizedHeader : BlockHeaderResponse}
variable {balances : Bool} {script : List (Beat Nat)}
variable {chain : Chain} {first top : Nat} {world : World}

/-- An iteration keeps what its roots keep, at its end and wherever it is cut. -/
theorem iteration_established
    {held invariant : World → Prop}
    (serves : Serves chain consensus)
    (noStartRoot : config.startRoot = none)
    (finalized : finalizedHeader.root = (chain.block top).blockRoot)
    (within : ∀ current, invariant current → held current)
    (stays : ∀ current later, invariant current → Beside current later → invariant later)
    (heldStays : ∀ current later, held current → Beside current later → held later)
    (based : Based chain top world)
    (holds : invariant world)
    (hands :
      ∀ height,
        Origin config consensus finalizedHeader chain top world height →
        ∃ handed settling,
          Phases chain height held handed settling invariant ∧ handed world) :
    Established (RootPhases.protocol fun current => Based chain top current ∧ held current)
      (fun _ final => Based chain top final ∧ invariant final)
      (iteration config balances consensus finalizedHeader script world) := by
  have heldStaysBased (current later : World)
      (reached : Based chain top current ∧ held current)
      (beside : Beside current later) :
      Based chain top later ∧ held later :=
    ⟨reached.1.beside beside, heldStays current later reached.2 beside⟩
  apply run_sound (RootPhases.protocol_stable heldStaysBased)
    (fun storageStateSlot state => moveIndex_beside storageStateSlot state)
  refine RootPhases.walkNext_spec serves (fun current reached => ⟨reached.1, within _ reached.2⟩)
    (fun current later reached beside =>
      ⟨reached.1.beside beside, stays _ _ reached.2 beside⟩)
    heldStaysBased ⟨based, holds⟩ fun root isNext => ?_
  obtain ⟨height, atMost, isRoot, origin⟩ :=
    origin_of_next serves noStartRoot finalized based isNext
  obtain ⟨handed, settling, phases, handedOver⟩ := hands height origin
  exact ⟨height, _, _, isRoot, (based_phases atMost).and phases, based, handedOver⟩

/-- Step lemma: no iteration opens a gap. -/
theorem iterate_whole
    (serves : Serves chain consensus)
    (noStartRoot : config.startRoot = none)
    (finalized : finalizedHeader.root = (chain.block top).blockRoot)
    (whole : Whole chain first top world)
    (withoutGap :
      WithoutGap config balances chain first world
        (.iterate consensus finalizedHeader script)) :
    Whole chain first top
      ((Step.iterate consensus finalizedHeader script).perform config balances world) := by
  obtain ⟨cold, saved⟩ := withoutGap
  have gapless : Gapless chain first world := by
    by_cases unset : world.rootsStack.lastProcessedRootSlot = none
    · exact gapless_of_filled whole.based (cold unset top finalized)
    · exact whole.gapless unset
  have established :=
    @iteration_established config consensus finalizedHeader balances script chain top world
      (Gapless chain first) (Gapless chain first) serves noStartRoot finalized
      (fun _ => id) (fun _ _ gapless beside => gapless.beside beside)
      (fun _ _ gapless beside => gapless.beside beside) whole.based
      gapless fun height origin =>
        ⟨_, _, gapless_phases, gapless,
          origin.filled whole.based gapless fun unset => cold unset top finalized⟩
  rw [Step.perform]
  generalize iteration config balances consensus finalizedHeader script world = ended
    at established saved ⊢
  obtain ⟨program, final⟩ := ended
  cases program with
  | done value => exact ⟨established.1, fun _ => established.2⟩
  | fail reason => exact ⟨established.1, fun _ => established.2⟩
  | sync update next => exact established.elim
  | await next => exact .restart established.1 established.2 (saved trivial)

/-- Between two steps of a walk that goes down. -/
structure Watched (chain : Chain) (first top : Nat) (world : World) : Prop where
  based : Based chain top world
  watches : Watches chain first world.log world.rootsStack

/-- Step lemma: an iteration in order that nothing disturbs gives up no block. -/
theorem iterate_watched
    (serves : Serves chain consensus)
    (noStartRoot : config.startRoot = none)
    (finalized : finalizedHeader.root = (chain.block top).blockRoot)
    (watched : Watched chain first top world)
    (inOrder : InOrder config chain first world (.iterate consensus finalizedHeader script))
    (undisturbed :
      Undisturbed config balances world (.iterate consensus finalizedHeader script)) :
    Watched chain first top
      ((Step.iterate consensus finalizedHeader script).perform config balances world) := by
  obtain ⟨returns, dies⟩ := undisturbed
  have established :=
    @iteration_established config consensus finalizedHeader balances script chain top world
      (fun current =>
        world.rootsStack.lastProcessedRootSlot = none →
        Watches chain first current.log current.rootsStack)
      (fun current => Watches chain first current.log current.rootsStack)
      serves noStartRoot finalized (fun _ watches _ => watches)
      (fun _ _ watches beside => watches.beside beside)
      (fun _ _ held beside isCold => (held isCold).beside beside) watched.based
      watched.watches
      fun height origin =>
        ⟨_, _, watching_phases _,
          origin.reserved finalized inOrder watched.watches, id⟩
  rw [Step.perform]
  generalize iteration config balances consensus finalizedHeader script world = ended
    at established returns dies ⊢
  obtain ⟨program, final⟩ := ended
  cases program with
  | done value => exact ⟨established.1, established.2⟩
  | fail reason =>
      have isCold : world.rootsStack.lastProcessedRootSlot = none := by
        by_contra isSet
        cases returns isSet
      exact ⟨established.1, established.2 isCold⟩
  | sync update next => exact established.elim
  | await next => exact ⟨established.1.restart, fun isSet => absurd (dies trivial) isSet⟩

/-- Between two steps of a walk that goes up. -/
structure Rising (chain : Chain) (first top : Nat) (world : World) : Prop where
  based : Based chain top world
  caught : Caught chain first world

/-- Step lemma: a walk that has caught up passes every block, whatever fails. -/
theorem iterate_rising
    (serves : Serves chain consensus)
    (noStartRoot : config.startRoot = none)
    (finalized : finalizedHeader.root = (chain.block top).blockRoot)
    (rising : Rising chain first top world)
    (inOrder :
      InOrder config chain first world (.iterate consensus finalizedHeader script)) :
    Rising chain first top
      ((Step.iterate consensus finalizedHeader script).perform config balances world) := by
  have established :=
    @iteration_established config consensus finalizedHeader balances script chain top world
      (Caught chain first) (Caught chain first) serves noStartRoot finalized
      (fun _ => id) (fun _ _ caught beside => caught.beside beside)
      (fun _ _ caught beside => caught.beside beside) rising.based rising.caught
      fun height origin =>
        ⟨_, _, caught_phases, rising.caught, origin.passed inOrder rising.caught⟩
  refine Established.leave restart (Rising chain first top) ?_ ?_ ?_ established
  · rintro _ ⟨based, caught⟩
    exact ⟨based.restart, caught.restart⟩
  · rintro _ _ ⟨based, caught⟩
    exact ⟨based, caught⟩
  · rintro _ _ ⟨based, caught⟩
    exact ⟨based, caught⟩

/-- What is known in memory is known beside any move of the index. -/
theorem Whole.beside
    {moved : World}
    (whole : Whole chain first top world)
    (beside : Beside world moved) :
    Whole chain first top moved where
  based := whole.based.beside beside
  gapless := by
    intro isSet
    rw [beside.stack] at isSet
    exact (whole.gapless isSet).beside beside

/-- A process may die when its file has the roots of its stack. -/
theorem Whole.crash
    (whole : Whole chain first top world)
    (saved : Saved chain first world) :
    Whole chain first top (Walk.restart world) where
  based := whole.based.restart
  gapless := by
    intro isSet
    exact (Whole.restart whole.based (whole.gapless (whole.based.named isSet)) saved).gapless
      isSet

theorem Watched.beside
    {moved : World}
    (watched : Watched chain first top world)
    (beside : Beside world moved) :
    Watched chain first top moved :=
  ⟨watched.based.beside beside, watched.watches.beside beside⟩

theorem Rising.beside
    {moved : World}
    (rising : Rising chain first top world)
    (beside : Beside world moved) :
    Rising chain first top moved :=
  ⟨rising.based.beside beside, rising.caught.beside beside⟩

end Steps

/-! ## Runs -/

section Runs

variable {config : Config} {balances : Bool} {chain : Chain} {first top low : Nat}
variable {world : World}

/--
An invariant that every step keeps, with the finalized block as its top, holds after a
run whose steps meet the condition of the step.
-/
theorem run_keeps
    {invariant : Nat → World → Prop}
    {meets : World → Step → Prop}
    (rises :
      ∀ {lower higher world},
        invariant lower world → lower ≤ higher → invariant higher world)
    (iterates :
      ∀ {top world consensus finalizedHeader script},
        Serves chain consensus →
        finalizedHeader.root = (chain.block top).blockRoot →
        invariant top world →
        meets world (.iterate consensus finalizedHeader script) →
        invariant top
          ((Step.iterate consensus finalizedHeader script).perform config balances world))
    (moves : ∀ {top world moved}, invariant top world → Beside world moved → invariant top moved)
    (crashes :
      ∀ {top world}, invariant top world → meets world .crash → invariant top (restart world))
    {steps : List Step}
    (serves : ∀ step ∈ steps, step.Serves chain)
    (advances : AdvancesTo chain top low steps)
    (meet : AtEachStep config balances meets world steps)
    (initial : invariant low world) :
    invariant top (perform config balances world steps) := by
  induction steps generalizing world low with
  | nil =>
      exact rises initial advances
  | cons step rest inductionHypothesis =>
      obtain ⟨stepMeets, restMeet⟩ := meet
      have restServes : ∀ later ∈ rest, later.Serves chain :=
        fun later member => serves later (by simp [member])
      cases step with
      | iterate consensus finalizedHeader script =>
          obtain ⟨height, above, finalized, restAdvances⟩ := advances
          have stepServes : Serves chain consensus := serves _ (List.mem_cons_self ..)
          exact inductionHypothesis restServes restAdvances restMeet
            (iterates stepServes finalized (rises initial above) stepMeets)
      | reindex storageStateSlot =>
          exact inductionHypothesis restServes advances restMeet
            (moves initial (moveIndex_beside storageStateSlot world))
      | crash =>
          exact inductionHypothesis restServes advances restMeet (crashes initial stepMeets)

/-- A run of two parts has a finalized block between them. -/
theorem AdvancesTo.split
    {before after : List Step}
    (advances : AdvancesTo chain top low (before ++ after)) :
    ∃ middle, AdvancesTo chain middle low before ∧ AdvancesTo chain top middle after := by
  induction before generalizing low with
  | nil =>
      exact ⟨low, le_rfl, advances⟩
  | cons step rest inductionHypothesis =>
      cases step with
      | iterate consensus finalizedHeader script =>
          obtain ⟨height, above, finalized, restAdvances⟩ := advances
          obtain ⟨middle, restMiddle, afterMiddle⟩ := inductionHypothesis restAdvances
          exact ⟨middle, ⟨height, above, finalized, restMiddle⟩, afterMiddle⟩
      | reindex storageStateSlot => exact inductionHypothesis advances
      | crash => exact inductionHypothesis advances

/-- The steps of both parts of a run meet the condition. -/
theorem AtEachStep.split
    {meets : World → Step → Prop}
    {before after : List Step}
    (meet : AtEachStep config balances meets world (before ++ after)) :
    AtEachStep config balances meets world before ∧
      AtEachStep config balances meets (perform config balances world before) after := by
  induction before generalizing world with
  | nil =>
      exact ⟨trivial, meet⟩
  | cons step rest inductionHypothesis =>
      obtain ⟨restMeet, afterMeet⟩ := inductionHypothesis meet.2
      exact ⟨⟨meet.1, restMeet⟩, afterMeet⟩

theorem AtEachStep.and
    {meets alsoMeets : World → Step → Prop}
    {steps : List Step}
    (meet : AtEachStep config balances meets world steps)
    (alsoMeet : AtEachStep config balances alsoMeets world steps) :
    AtEachStep config balances (fun world step => meets world step ∧ alsoMeets world step)
      world steps := by
  induction steps generalizing world with
  | nil => trivial
  | cons step rest inductionHypothesis =>
      exact ⟨⟨meet.1, alsoMeet.1⟩, inductionHypothesis meet.2 alsoMeet.2⟩

/-- Run lemma: a run in which no gap opens has none. -/
theorem run_whole
    {steps : List Step}
    (noStartRoot : config.startRoot = none)
    (serves : ∀ step ∈ steps, step.Serves chain)
    (advances : AdvancesTo chain top low steps)
    (withoutGap :
      AtEachStep config balances (WithoutGap config balances chain first) world steps)
    (whole : Whole chain first low world) :
    Whole chain first top (perform config balances world steps) :=
  run_keeps
    (fun whole above => ⟨whole.based.mono above, whole.gapless⟩)
    (fun serves finalized whole meets =>
      iterate_whole serves noStartRoot finalized whole meets)
    Whole.beside Whole.crash serves advances withoutGap whole

/-- Run lemma: up to the bottom of the stack a run in order gives up no block. -/
theorem run_watched
    {steps : List Step}
    (noStartRoot : config.startRoot = none)
    (serves : ∀ step ∈ steps, step.Serves chain)
    (advances : AdvancesTo chain top low steps)
    (inOrder : AtEachStep config balances (InOrder config chain first) world steps)
    (undisturbed : AtEachStep config balances (Undisturbed config balances) world steps)
    (watched : Watched chain first low world) :
    Watched chain first top (perform config balances world steps) :=
  run_keeps
    (fun watched above => ⟨watched.based.mono above, watched.watches⟩)
    (fun serves finalized watched meets =>
      iterate_watched serves noStartRoot finalized watched meets.1 meets.2)
    Watched.beside
    (fun watched meets => ⟨watched.based.restart, fun isSet => absurd meets.2 isSet⟩)
    serves advances (inOrder.and undisturbed) watched

/-- Run lemma: from the bottom of the stack on a run in order passes every block. -/
theorem run_rising
    {steps : List Step}
    (noStartRoot : config.startRoot = none)
    (serves : ∀ step ∈ steps, step.Serves chain)
    (advances : AdvancesTo chain top low steps)
    (inOrder : AtEachStep config balances (InOrder config chain first) world steps)
    (rising : Rising chain first low world) :
    Rising chain first top (perform config balances world steps) :=
  run_keeps
    (fun rising above => ⟨rising.based.mono above, rising.caught⟩)
    (fun serves finalized rising meets =>
      iterate_rising serves noStartRoot finalized rising meets)
    Rising.beside (fun rising _ => ⟨rising.based.restart, rising.caught.restart⟩)
    serves advances inOrder rising

/-- A run that covers its blocks has accounted for those up to its last processed one. -/
theorem run_accounted
    {steps : List Step}
    (noStartRoot : config.startRoot = none)
    (serves : ∀ step ∈ steps, step.Serves chain)
    (advances : AdvancesTo chain top low steps)
    (covers : Covers config balances chain first world steps)
    (based : Based chain low world)
    (unset : world.rootsStack.lastProcessedRootSlot = none) :
    Based chain top (perform config balances world steps) ∧
      ∀ last,
        (perform config balances world steps).rootsStack.lastProcessedRootSlot =
          some (chain.block last) →
        ∀ height,
          first ≤ height → height ≤ last →
          Accounted chain (perform config balances world steps).log
            (perform config balances world steps).rootsStack height := by
  rcases covers with withoutGap | ⟨inOrder, before, after, rfl, undisturbed, atBottom⟩
  · have whole :=
      run_whole noStartRoot serves advances withoutGap
        ⟨based, fun isSet => absurd unset isSet⟩
    refine ⟨whole.based, fun last isLast height low atMost => ?_⟩
    have done := (whole.based.memory.last isLast).2
    rcases atMost.lt_or_eq with under | rfl
    · exact whole.gapless (by simp [isLast]) last (.inl (.inl isLast)) height low under
    · exact .inl done
  · obtain ⟨middle, beforeAdvances, afterAdvances⟩ := advances.split
    obtain ⟨beforeInOrder, afterInOrder⟩ := inOrder.split
    have watched :=
      run_watched noStartRoot (fun step member => serves step (by simp [member]))
        beforeAdvances beforeInOrder undisturbed
        ⟨based, fun isSet => absurd unset isSet⟩
    have rising :=
      run_rising noStartRoot (fun step member => serves step (by simp [member]))
        afterAdvances afterInOrder
        ⟨watched.based, caught_of_bottom watched.based watched.watches atBottom⟩
    have whole :
        perform config balances world (before ++ after) =
          perform config balances (perform config balances world before) after :=
      List.foldl_append
    rw [whole]
    refine ⟨rising.based, fun last isLast height low atMost => .inl ?_⟩
    obtain ⟨caughtLast, isCaught, passed⟩ := rising.caught.memory
    obtain rfl := height_eq_of_block (Option.some.inj (isLast.symm.trans isCaught))
    exact passed height low atMost

end Runs

/-! ## At rest -/

/-- The stack has nothing to replay and the last processed root is the finalized one. -/
structure Rests (consensus : Consensus) (finalizedHeader : BlockHeaderResponse)
    (world : World) : Prop where
  noneEligible : RootsStack.getNextEligible consensus world = none
  atFinalized :
    world.rootsStack.lastProcessedRootSlot.map RootSlot.blockRoot =
      some finalizedHeader.root

/-- The provider rests because the last processed root is the finalized one. -/
theorem Rests.nextOf
    {consensus : Consensus}
    {finalizedHeader : BlockHeaderResponse}
    {world : World}
    (rests : Rests consensus finalizedHeader world)
    (config : Config) :
    RootsProvider.nextOf config consensus finalizedHeader world = none := by
  obtain ⟨last, isLast, atFinalized⟩ := Option.map_eq_some_iff.mp rests.atFinalized
  simp [RootsProvider.nextOf, isLast, rests.noneEligible, RootsProvider.childOf, atFinalized]

/-- At rest the last processed block is the finalized one. -/
theorem Rests.last
    {chain : Chain}
    {top : Nat}
    {world : World}
    {consensus : Consensus}
    {finalizedHeader : BlockHeaderResponse}
    (rests : Rests consensus finalizedHeader world)
    (serves : Serves chain consensus)
    (finalized : finalizedHeader.root = (chain.block top).blockRoot)
    (based : Based chain top world) :
    world.rootsStack.lastProcessedRootSlot = some (chain.block top) := by
  obtain ⟨rs, isLast, atFinalized⟩ := Option.map_eq_some_iff.mp rests.atFinalized
  obtain ⟨last, _, rfl, _⟩ := based.memory.lastProcessed rs isLast
  have sameRoot : (chain.block last).blockRoot = (chain.block top).blockRoot :=
    atFinalized.trans finalized
  have sameSlot : (chain.block last).slotNumber = (chain.block top).slotNumber := by
    rw [← serves.blockInfo last, sameRoot, serves.blockInfo top]
  rw [isLast, height_eq_of_slot sameSlot]

/--
A run that starts with empty files and without a configured root skips no block, if no
gap opens before its first success or the walk comes down to the bottom of its stack in
order: when the provider rests at the finalized root, every block from the first one
handed over up to the largest slot of the last processed root has had its duties
returned or is in the stack.
-/
theorem cold_start_covers
    (config : Config)
    (noStartRoot : config.startRoot = none)
    (balances : Bool)
    (chain : Chain)
    (first top : Nat)
    (world : World)
    (emptyInfo : world.disk.rootsStackInfo.getD none = none)
    (emptyStack :
      ∀ slot : Nat, (world.disk.rootsStackStorage.getD ∅)[slot]? = none)
    (noEvents : world.log = [])
    (steps : List Step)
    (serves : ∀ step ∈ steps, step.Serves chain)
    (advances : AdvancesTo chain top 0 steps)
    (covers : Covers config balances chain first (restart world) steps)
    (consensus : Consensus)
    (finalizedHeader : BlockHeaderResponse)
    (clientServes : Serves chain consensus)
    (finalized : finalizedHeader.root = (chain.block top).blockRoot)
    (rests :
      Rests consensus finalizedHeader (perform config balances (restart world) steps))
    (height : Nat)
    (low : first ≤ height)
    (high :
      ∃ rs,
        .lastProcessedSet rs ∈ (perform config balances (restart world) steps).log ∧
          (chain.block height).slotNumber ≤ rs.slotNumber) :
    OnStack (perform config balances (restart world) steps).rootsStack
        (chain.block height) ∨
      .dutiesReturned (chain.block height) ∈
        (perform config balances (restart world) steps).log := by
  have placed : Placed chain 0 (restart world).log (RootsStack.readServiceData world.disk) :=
    { lastProcessed := by
        intro rs isLast
        rw [RootsStack.readServiceData, emptyInfo] at isLast
        cases isLast
      stacked := by
        intro slot blockRoot found
        rw [RootsStack.readServiceData, emptyStack slot] at found
        cases found }
  have based : Based chain 0 (restart world) :=
    { memory := placed
      disk := placed
      visited := by simp [restart, noEvents]
      done := by simp [Done, restart, noEvents]
      named := id }
  obtain ⟨finalBased, accounted⟩ :=
    run_accounted noStartRoot serves advances covers based emptyInfo
  obtain ⟨rs, wasLast, atMost⟩ := high
  obtain ⟨visited, visitedAtMost, rfl⟩ := finalBased.visited rs wasLast
  have isLast := rests.last clientServes finalized finalBased
  exact (accounted top isLast height low
    ((chain.increasing.le_iff_le.mp atMost).trans visitedAtMost)).symm

/-! ## Sample runs -/

def attempt (finalizedSlot : Nat) (script : List (Beat Nat)) : Step :=
  .iterate sampleConsensus (sampleHeader finalizedSlot) script

/-- An attempt that is left to return. -/
def returned (finalizedSlot : Nat) : Step :=
  attempt finalizedSlot (List.replicate 40 (.quiet .resolved))

/-- An attempt that the process does not outlive: its root is stacked in the file. -/
def crashed (finalizedSlot : Nat) : Step :=
  attempt finalizedSlot (List.replicate 6 (.quiet .resolved))

/-- An attempt in which the header of the parent is not answered. -/
def aborted (finalizedSlot : Nat) : Step :=
  attempt finalizedSlot (List.replicate 11 (.quiet .resolved) ++ [.quiet .rejected])

def sampleConfig : Config :=
  .defaults "0xab" 1

def coldWorld : World :=
  restart (World.blank (sampleHeader 5))

/-- Two adjacent roots are stacked before the first success. -/
def adjacentSteps : List Step :=
  [crashed 5, aborted 6, returned 7, returned 7, returned 7, returned 7]

/-- A root is stacked before the first success, which leaves a block out. -/
def descendingSteps : List Step :=
  [crashed 5, returned 7, returned 7, returned 7, returned 7]

/-- Two roots with a block between them are stacked before the first success. -/
def scatteredSteps : List Step :=
  [crashed 5, aborted 7, returned 9, returned 9, returned 9, returned 9, returned 9]

/-- A cold sample attempt at a height opens no gap when what is below it is accounted for. -/
theorem withoutGap_of_cold
    {first height : Nat}
    {world : World}
    {script : List (Beat Nat)}
    (filled : Filled sampleChain first world.log world.rootsStack height)
    (unwritten :
      (RootsStack.readServiceData
          (iteration sampleConfig false sampleConsensus (sampleHeader height) script
            world).2.disk).lastProcessedRootSlot =
        none) :
    WithoutGap sampleConfig false sampleChain first world (attempt height script) := by
  refine ⟨fun _ other isOther => ?_, fun _ isSet => absurd unwritten isSet⟩
  obtain rfl : height = other := isOther
  exact filled

/-- A sample attempt that returns opens no gap. -/
theorem withoutGap_of_returned
    {first height : Nat}
    {world : World}
    {script : List (Beat Nat)}
    (filled :
      world.rootsStack.lastProcessedRootSlot = none →
      Filled sampleChain first world.log world.rootsStack height)
    (isDone :
      (iteration sampleConfig false sampleConsensus (sampleHeader height) script world).1 =
        .done ()) :
    WithoutGap sampleConfig false sampleChain first world (attempt height script) := by
  refine ⟨fun unset other isOther => ?_, fun isSuspended => ?_⟩
  · obtain rfl : height = other := isOther
    exact filled unset
  · rw [isDone] at isSuspended
    exact isSuspended.elim

set_option maxRecDepth 20000 in
theorem adjacent_withoutGap :
    AtEachStep sampleConfig false (WithoutGap sampleConfig false sampleChain 5) coldWorld
      adjacentSteps := by
  refine ⟨?crashed, ?aborted, ?succeeded, ?replayed, ?replayedNext, ?child, trivial⟩
  case crashed =>
    refine withoutGap_of_cold (fun below low under => ?_) (by decide)
    omega
  case aborted =>
    refine withoutGap_of_cold (fun below low under => ?_) (by decide)
    obtain rfl : below = 5 := by omega
    exact .inr rfl
  case succeeded =>
    refine withoutGap_of_returned (fun _ below low under => ?_) rfl
    obtain rfl | rfl : below = 5 ∨ below = 6 := by omega
    · exact .inr rfl
    · exact .inr rfl
  case replayed =>
    exact withoutGap_of_returned (fun unset => by cases unset) rfl
  case replayedNext =>
    exact withoutGap_of_returned (fun unset => by cases unset) rfl
  case child =>
    exact withoutGap_of_returned (fun unset => by cases unset) rfl

/-- A stacked root at or below the last processed one is no reason to jump. -/
theorem inOrder_of_bottom
    {first bottom last : Nat}
    {world : World}
    {step : Step}
    (onStack : OnStack world.rootsStack (sampleChain.block bottom))
    (isLast : world.rootsStack.lastProcessedRootSlot = some (sampleChain.block last))
    (below : bottom ≤ last) :
    InOrder sampleConfig sampleChain first world step := by
  cases step with
  | iterate consensus finalizedHeader script =>
      refine ⟨fun unset => (by rw [isLast] at unset; cases unset), ?_⟩
      intro other lowest isOther _ least _ _ between _ above under
      have atMost := least bottom onStack
      obtain rfl := height_eq_of_block (Option.some.inj (isLast.symm.trans isOther))
      omega
  | reindex storageStateSlot => trivial
  | crash => trivial

/-- With an empty stack there is nowhere to jump. -/
theorem inOrder_of_empty
    {first : Nat}
    {world : World}
    {step : Step}
    (isSet : world.rootsStack.lastProcessedRootSlot ≠ none)
    (isEmpty : world.rootsStack.storage.isEmpty = true) :
    InOrder sampleConfig sampleChain first world step := by
  cases step with
  | iterate consensus finalizedHeader script =>
      refine ⟨fun unset => absurd unset isSet, ?_⟩
      intro other lowest _ onStack
      rw [OnStack, TreeMap.getElem?_of_isEmpty isEmpty] at onStack
      cases onStack
  | reindex storageStateSlot => trivial
  | crash => trivial

/-- A cold sample attempt is in order when a root is stacked at the first height. -/
theorem inOrder_of_cold
    {first height : Nat}
    {world : World}
    {script : List (Beat Nat)}
    (unset : world.rootsStack.lastProcessedRootSlot = none)
    (onStack : first < height → OnStack world.rootsStack (sampleChain.block first)) :
    InOrder sampleConfig sampleChain first world (attempt height script) := by
  refine ⟨fun _ other isOther below low under => ?_, fun _ _ isLast => ?_⟩
  · obtain rfl : height = other := isOther
    exact .inr ⟨first, low, onStack (by omega)⟩
  · cases unset.symm.trans isLast

set_option maxRecDepth 20000 in
theorem descending_goesDown :
    GoesDown sampleConfig false sampleChain 5 coldWorld descendingSteps := by
  refine ⟨⟨?crashed, ?succeeded, ?replayed, ?next, ?last, trivial⟩,
    [crashed 5, returned 7, returned 7], [returned 7, returned 7], rfl,
    ⟨?crash, ?success, ?replay, trivial⟩, 5, by decide +kernel, by decide +kernel, ?bottom⟩
  case crashed =>
    exact inOrder_of_cold rfl fun below => by omega
  case succeeded =>
    exact inOrder_of_cold rfl fun _ => rfl
  case replayed =>
    exact @inOrder_of_bottom 5 5 7 _ _ rfl rfl (by decide)
  case next =>
    exact inOrder_of_empty (by decide +kernel) (by decide +kernel)
  case last =>
    exact inOrder_of_empty (by decide +kernel) (by decide +kernel)
  case crash =>
    exact ⟨fun isSet => absurd rfl isSet, fun _ => by decide +kernel⟩
  case success =>
    exact ⟨fun _ => rfl, fun isSuspended => isSuspended.elim⟩
  case replay =>
    exact ⟨fun _ => rfl, fun isSuspended => isSuspended.elim⟩
  case bottom =>
    have isEmpty :
        (perform sampleConfig false coldWorld
          [crashed 5, returned 7, returned 7]).rootsStack.storage.isEmpty = true := by
      decide +kernel
    intro stacked onStack
    rw [OnStack, TreeMap.getElem?_of_isEmpty isEmpty] at onStack
    cases onStack

theorem adjacent_rests :
    Rests sampleConsensus (sampleHeader 7)
      (perform sampleConfig false coldWorld adjacentSteps) where
  noneEligible := by decide +kernel
  atFinalized := by decide +kernel

theorem adjacent_serves :
    ∀ step ∈ adjacentSteps, step.Serves sampleChain := by
  simp [adjacentSteps, crashed, aborted, returned, attempt, Step.Serves,
    sampleConsensus_serves]

theorem descending_rests :
    Rests sampleConsensus (sampleHeader 7)
      (perform sampleConfig false coldWorld descendingSteps) where
  noneEligible := by decide +kernel
  atFinalized := by decide +kernel

/-- One run opens no gap, and the other one goes down over a gap and up again. -/
theorem cold_start_covers_sample :
    (OnStack (perform sampleConfig false coldWorld adjacentSteps).rootsStack
          (sampleChain.block 6) ∨
        .dutiesReturned (sampleChain.block 6) ∈
          (perform sampleConfig false coldWorld adjacentSteps).log) ∧
      (OnStack (perform sampleConfig false coldWorld descendingSteps).rootsStack
          (sampleChain.block 6) ∨
        .dutiesReturned (sampleChain.block 6) ∈
          (perform sampleConfig false coldWorld descendingSteps).log) := by
  constructor
  · exact cold_start_covers sampleConfig rfl false sampleChain 5 7
      (World.blank (sampleHeader 5)) rfl (by simp [World.blank]) rfl
      adjacentSteps adjacent_serves
      ⟨5, by decide, rfl, 6, by decide, rfl, 7, by decide, rfl, 7, by decide, rfl,
        7, by decide, rfl, 7, by decide, rfl, le_rfl⟩
      (.inl adjacent_withoutGap) sampleConsensus (sampleHeader 7) sampleConsensus_serves
      rfl adjacent_rests
      6 (by decide) ⟨{ blockRoot := 7, slotNumber := 7 }, by decide +kernel, by decide⟩
  · exact cold_start_covers sampleConfig rfl false sampleChain 5 7
      (World.blank (sampleHeader 5)) rfl (by simp [World.blank]) rfl
      descendingSteps
      (by
        simp [descendingSteps, crashed, returned, attempt, Step.Serves,
          sampleConsensus_serves])
      ⟨5, by decide, rfl, 7, by decide, rfl, 7, by decide, rfl, 7, by decide, rfl,
        7, by decide, rfl, le_rfl⟩
      (.inr descending_goesDown) sampleConsensus (sampleHeader 7) sampleConsensus_serves
      rfl descending_rests
      6 (by decide) ⟨{ blockRoot := 7, slotNumber := 7 }, by decide +kernel, by decide⟩

/--
The replay goes from the stacked block 5 to the stacked block 7: at rest block 6 has
neither been processed nor is it in the stack.
-/
theorem block_between_replays_skipped :
    (∀ step ∈ scatteredSteps, step.Serves sampleChain) ∧
      AdvancesTo sampleChain 9 0 scatteredSteps ∧
      RootsProvider.nextOf sampleConfig sampleConsensus (sampleHeader 5) coldWorld =
        some (sampleChain.block 5).blockRoot ∧
      Rests sampleConsensus (sampleHeader 9)
        (perform sampleConfig false coldWorld scatteredSteps) ∧
      .lastProcessedSet (sampleChain.block 9) ∈
        (perform sampleConfig false coldWorld scatteredSteps).log ∧
      ¬ OnStack (perform sampleConfig false coldWorld scatteredSteps).rootsStack
        (sampleChain.block 6) ∧
      .dutiesReturned (sampleChain.block 6) ∉
        (perform sampleConfig false coldWorld scatteredSteps).log := by
  refine ⟨?serves, ?advances, by decide, ⟨by decide +kernel, by decide +kernel⟩,
    by decide +kernel, ?unstacked, by decide +kernel⟩
  case serves =>
    simp [scatteredSteps, crashed, aborted, returned, attempt, Step.Serves,
      sampleConsensus_serves]
  case advances =>
    exact ⟨5, by decide, rfl, 7, by decide, rfl, 9, by decide, rfl, 9, by decide, rfl,
      9, by decide, rfl, 9, by decide, rfl, 9, by decide, rfl, le_rfl⟩
  case unstacked =>
    rw [OnStack]
    decide +kernel

end ColdStart

end CsmProver
