import CsmProver.FirstOfGroup
import CsmProver.Walk

namespace CsmProver

/-!
# First blocks of epochs

The balances are processed at the first block of each epoch.  The processor tells
it by the slot of the parent, which it takes from the last processed root if that
is the parent and from the parent's header otherwise.

The last processed root may be anywhere: the replays move it back, a failure leaves
it where it was, a restart takes it from a file.  All that matters is that a root of
the chain is never recorded with the slot of another block.  Neither the stack nor
the order of the walk nor the finalized header has any part in it.
-/

open Async
open Walk

namespace FirstBlocks

/-! ## The chain and its epochs -/

/-- The client shows the blocks of the chain and their headers. -/
structure Shows (chain : Chain) (consensus : Consensus) : Prop where
  slot :
    ∀ height,
      (consensus.blockInfo (chain.block height).blockRoot).slot =
        (chain.block height).slotNumber
  parentRoot :
    ∀ height,
      (consensus.blockInfo (chain.block (height + 1)).blockRoot).parentRoot =
        (chain.block height).blockRoot
  header :
    ∀ height,
      (consensus.beaconHeader (chain.block height).blockRoot).message.slot =
        (chain.block height).slotNumber

/-- The epoch of a block. -/
def epochOf (chain : Chain) (consensus : Consensus) (height : Nat) : Nat :=
  consensus.slotToEpoch (chain.block height).slotNumber

/-- No block of a smaller slot is in the epoch of the block. -/
def FirstInEpoch (chain : Chain) (consensus : Consensus) (height : Nat) : Prop :=
  ∀ other,
    (chain.block other).slotNumber < (chain.block height).slotNumber →
    epochOf chain consensus other ≠ epochOf chain consensus height

section Epochs

variable {chain : Chain} {consensus : Consensus}

/-- Later blocks lie in later epochs or the same. -/
theorem epochOf_monotone :
    Monotone (epochOf chain consensus) :=
  fun _ _ atMost => Nat.div_le_div_right (chain.increasing.monotone atMost)

/-- The first block of an epoch starts a group. -/
theorem firstInEpoch_iff
    {height : Nat} :
    FirstInEpoch chain consensus height ↔
      Groups.StartsGroup (epochOf chain consensus) height := by
  constructor
  · exact fun first other below => first other (chain.increasing below)
  · exact fun starts other below => starts other (chain.increasing.lt_iff_lt.mp below)

/-- Only the parent has to be looked at, however many slots or epochs are empty. -/
theorem firstInEpoch_succ_iff
    {height : Nat} :
    FirstInEpoch chain consensus (height + 1) ↔
      epochOf chain consensus height < epochOf chain consensus (height + 1) :=
  firstInEpoch_iff.trans (Groups.startsGroup_succ_iff epochOf_monotone height)

/-- Every epoch with a block has one first block. -/
theorem existsUnique_firstInEpoch
    (height : Nat) :
    ∃! first,
      epochOf chain consensus first = epochOf chain consensus height ∧
        FirstInEpoch chain consensus first := by
  simp only [firstInEpoch_iff]
  exact Groups.existsUnique_start (epochOf chain consensus) height

end Epochs

/-! ## The recorded pair -/

/-- A root of the chain is recorded with its own slot. -/
def Recorded (chain : Chain) (lastProcessed : Option RootSlot) : Prop :=
  ∀ rs, lastProcessed = some rs →
    ∀ height, rs.blockRoot = (chain.block height).blockRoot →
      rs.slotNumber = (chain.block height).slotNumber

theorem recorded_none
    (chain : Chain) :
    Recorded chain none := by
  intro rs isLast
  cases isLast

/-- The pair of the processor, whatever root it was given. -/
theorem recorded_blockInfo
    {chain : Chain}
    {consensus : Consensus}
    (shows : Shows chain consensus)
    (blockRoot : RootHex) :
    Recorded chain
      (some
        { blockRoot := blockRoot
          slotNumber := (consensus.blockInfo blockRoot).slot }) := by
  intro rs isPair height sameRoot
  cases isPair
  simp only at sameRoot ⊢
  rw [sameRoot, shows.slot]

/-- Memory and file hold a right pair. -/
structure Records (chain : Chain) (world : World) : Prop where
  memory : Recorded chain world.rootsStack.lastProcessedRootSlot
  disk : Recorded chain (RootsStack.readServiceData world.disk).lastProcessedRootSlot

/-- While the others stand beside, the recorded root is one of the chain. -/
def protocol (chain : Chain) : Protocol World where
  rely := Beside
  suspended := Records chain
  aborted := fun _ => Records chain

section Specs

variable {chain : Chain} {world moved : World}
variable {config : Config} {consensus : Consensus} {balances : Bool}

/-- Those beside the walk do not move the recorded root. -/
theorem Records.beside
    (records : Records chain world)
    (beside : Beside world moved) :
    Records chain moved where
  memory := by
    rw [beside.stack]
    exact records.memory
  disk := by
    rw [RootsStack.readServiceData, beside.info]
    exact records.disk

/-- It stays so at a suspension. -/
theorem protocol_stable :
    (protocol chain).Stable where
  refl := beside_refl
  trans := beside_trans
  suspended := Records.beside
  aborted := Records.beside

/-- What a program beside the walk does is of no account. -/
theorem beside_spec
    {α : Type}
    {program : Async World α}
    (guarantees : program.Guarantees Beside)
    (records : Records chain world) :
    wp (protocol chain) (fun _ final => Records chain final) program world :=
  wp_mono
    (wp_of_guarantees beside_refl beside_trans id
      (fun _ beside => records.beside beside)
      (fun _ _ beside => records.beside beside) guarantees)
    fun _ _ beside => records.beside beside

/-- Writing a file whose content has a right pair. -/
theorem writeFile_spec
    {save : World → Disk → Disk}
    (records : Records chain world)
    (saved :
      ∀ disk,
        disk.rootsStackInfo = world.disk.rootsStackInfo →
        Recorded chain
          (RootsStack.readServiceData (save world disk)).lastProcessedRootSlot) :
    wp (protocol chain) (fun _ final => Records chain final) (writeFile save) world := by
  apply writeFile_keeps records (fun _ => id) (fun _ _ => id)
  case stays => exact fun _ _ holds beside => holds.beside beside
  case saves =>
    exact fun current beside holds =>
      { memory := holds.memory
        disk := saved current.disk beside.info }

theorem writeStorage_spec
    (records : Records chain world) :
    wp (protocol chain) (fun _ final => Records chain final) RootsStack.writeStorage
      world := by
  apply writeFile_spec records
  intro disk sameInfo
  rw [RootsStack.readServiceData, sameInfo]
  exact records.disk

/-- A push does not move the recorded root. -/
theorem push_spec
    (records : Records chain world)
    (rs : RootSlot) :
    wp (protocol chain) (fun _ final => Records chain final) (RootsStack.push rs) world := by
  rw [RootsStack.push, wp_bind, wp_read]
  cases world.rootsStack.storage[rs.slotNumber]? with
  | some stacked => exact records
  | none =>
      rw [wp_bind, RootsStack.modifyStorage, wp_modify]
      exact writeStorage_spec { memory := records.memory, disk := records.disk }

/-- A purge does not move the recorded root. -/
theorem purge_spec
    (records : Records chain world)
    (rs : RootSlot) :
    wp (protocol chain) (fun _ final => Records chain final) (RootsStack.purge rs) world := by
  rw [RootsStack.purge, wp_bind, wp_read]
  cases world.rootsStack.storage[rs.slotNumber]? with
  | none => exact records
  | some stacked =>
      rw [wp_bind, RootsStack.modifyStorage, wp_modify, wp_bind, wp_note]
      exact writeStorage_spec { memory := records.memory, disk := records.disk }

/-- A root of the chain may be recorded as the last processed one. -/
theorem setLastProcessed_spec
    (records : Records chain world)
    {rs : RootSlot}
    (recorded : Recorded chain (some rs)) :
    wp (protocol chain) (fun _ final => Records chain final)
      (RootsStack.setLastProcessed rs) world := by
  rw [RootsStack.setLastProcessed, wp_bind, wp_modify, wp_bind, wp_note]
  exact writeFile_spec { memory := recorded, disk := records.disk } fun _ _ => recorded

/-- So may the root that is settled. -/
theorem settleRoot_spec
    (records : Records chain world)
    {rs : RootSlot}
    (recorded : Recorded chain (some rs)) :
    wp (protocol chain) (fun _ final => Records chain final)
      (RootsProcessor.settleRoot consensus rs) world := by
  simp only [RootsProcessor.settleRoot, wp_bind, wp_read, wp_note]
  have noted :
      Records chain
        ((world.record (.dutiesReturned rs)).record
          (.trustChecked world.keysIndexer.info.storageStateSlot)) :=
    { memory := records.memory, disk := records.disk }
  have marks {current : World} (currentRecords : Records chain current) :
      wp (protocol chain) (fun _ final => Records chain final)
        (call (RootsStack.setLastProcessed rs)) current := by
    rw [wp_call]
    refine wp_mono (setLastProcessed_spec currentRecords recorded) fun _ _ marked => ?_
    exact ⟨marked, fun _ beside => marked.beside beside⟩
  split
  · rw [wp_bind, wp_call]
    refine wp_mono (purge_spec noted rs) fun _ _ purged => ?_
    exact ⟨purged, fun _ beside => marks (purged.beside beside)⟩
  · exact marks noted

/-! ## The question -/

/-- An iteration up to the answer whether its block is the first one of its epoch. -/
def upToAnswer (config : Config) (consensus : Consensus) (balances : Bool)
    (finalizedHeader : BlockHeaderResponse) : Async World (Option (RootSlot × Bool)) := do
  let nextRoot ← call (RootsProvider.getNext config consensus finalizedHeader)
  match nextRoot with
  | none => return none
  | some blockRoot =>
      let blockInfo ← request (consensus.blockInfo blockRoot)
      let rootSlot : RootSlot := { blockRoot := blockRoot, slotNumber := blockInfo.slot }
      call (RootsStack.push rootSlot)
      let _ ← call (Prover.handleSlashingsInBlock config consensus balances blockInfo
        finalizedHeader (RootsProcessor.getKey config))
      let _ ← call (Prover.handleWithdrawalsInBlock config consensus balances blockRoot
        blockInfo finalizedHeader (RootsProcessor.getKey config))
      let isFirst ← call (RootsProcessor.isFirstBlockInEpoch consensus blockInfo)
      return some (rootSlot, isFirst)

/-- The rest of the iteration: the balances are handled on a positive answer only. -/
def onAnswer (config : Config) (consensus : Consensus) (balances : Bool)
    (finalizedHeader : BlockHeaderResponse) : Option (RootSlot × Bool) → Async World Unit
  | none => tick
  | some (rootSlot, isFirst) => do
      if isFirst then
        let _ ← call (Prover.handleBalanceChangesInBlock config consensus balances
          rootSlot.blockRoot finalizedHeader (RootsProcessor.getAllKeys config))
      RootsProcessor.settleRoot consensus rootSlot
      tick

/-- An iteration is its question and what follows on the answer. -/
theorem walkNext_eq
    (config : Config)
    (consensus : Consensus)
    (balances : Bool)
    (finalizedHeader : BlockHeaderResponse) :
    Daemon.walkNext config consensus balances finalizedHeader =
      upToAnswer config consensus balances finalizedHeader >>=
        onAnswer config consensus balances finalizedHeader := by
  rw [Daemon.walkNext, upToAnswer, bind_assoc]
  refine bind_congr fun nextRoot => ?_
  cases nextRoot with
  | none => rfl
  | some blockRoot =>
      simp only [RootsProcessor.processNext, RootsProcessor.runDuties, call, bind_assoc]
      simp only [onAnswer, pure_bind]
      -- Nine parts come before the two branches: the block, the push, two duties, the answer.
      iterate 9 refine bind_congr fun _ => ?_
      split
      · simp only [call, bind_assoc, pure_bind]
        rfl
      · rfl

/-- The slot of the parent, from wherever it was taken. -/
theorem getParentSlot_spec
    (shows : Shows chain consensus)
    (records : Records chain world)
    (height : Nat) :
    wp (protocol chain)
      (fun parentSlot final =>
        Records chain final ∧ parentSlot = (chain.block height).slotNumber)
      (RootsProcessor.getParentSlot consensus
        (consensus.blockInfo (chain.block (height + 1)).blockRoot)
        (RootsStack.getLastProcessed world)) world := by
  unfold RootsProcessor.getParentSlot
  rw [shows.parentRoot height]
  split
  case h_1 last isParent =>
    obtain ⟨isLast, sameRoot⟩ := Option.filter_eq_some_iff.mp isParent
    have lastRoot : last.blockRoot = (chain.block height).blockRoot :=
      (of_decide_eq_true sameRoot).symm
    exact ⟨records, records.memory last isLast height lastRoot⟩
  case h_2 =>
    rw [wp_request]
    refine ⟨records, fun moved beside => ⟨⟨records.beside beside, ?_⟩, records.beside beside⟩⟩
    exact shows.header height

/-- The answer is that of the chain, whatever was processed last. -/
theorem isFirstBlockInEpoch_spec
    (shows : Shows chain consensus)
    (records : Records chain world)
    (height : Nat) :
    wp (protocol chain)
      (fun isFirst final =>
        Records chain final ∧
          isFirst =
            decide
              (epochOf chain consensus height < epochOf chain consensus (height + 1)))
      (RootsProcessor.isFirstBlockInEpoch consensus
        (consensus.blockInfo (chain.block (height + 1)).blockRoot)) world := by
  rw [RootsProcessor.isFirstBlockInEpoch, wp_bind, wp_read, wp_bind]
  refine wp_mono (getParentSlot_spec shows records height) fun parentSlot final holds => ?_
  refine ⟨holds.1, ?_⟩
  simp only [holds.2, shows.slot]
  rfl

/-- The answer for a root, if it is the root of a block with a parent. -/
def AnswersFor (chain : Chain) (consensus : Consensus) (blockRoot : RootHex)
    (isFirst : Bool) : Prop :=
  ∀ height,
    blockRoot = (chain.block (height + 1)).blockRoot →
    isFirst = decide (epochOf chain consensus height < epochOf chain consensus (height + 1))

/-- Blocks of different heights have different roots. -/
theorem Shows.height_eq
    (shows : Shows chain consensus)
    {low high : Nat}
    (sameRoot : (chain.block low).blockRoot = (chain.block high).blockRoot) :
    low = high := by
  have sameSlot : (chain.block low).slotNumber = (chain.block high).slotNumber := by
    rw [← shows.slot low, ← shows.slot high, sameRoot]
  exact chain.increasing.injective sameSlot

/-- The question is answered for the block, whichever way the parent slot is found. -/
theorem isFirstBlockInEpoch_answers
    (shows : Shows chain consensus)
    (records : Records chain world)
    (blockRoot : RootHex) :
    wp (protocol chain)
      (fun isFirst final =>
        Records chain final ∧ AnswersFor chain consensus blockRoot isFirst)
      (RootsProcessor.isFirstBlockInEpoch consensus (consensus.blockInfo blockRoot))
      world := by
  by_cases hasParent : ∃ height, blockRoot = (chain.block (height + 1)).blockRoot
  · obtain ⟨height, rfl⟩ := hasParent
    refine wp_mono (isFirstBlockInEpoch_spec shows records height) fun isFirst final holds => ?_
    refine ⟨holds.1, fun other sameRoot => ?_⟩
    cases shows.height_eq sameRoot
    exact holds.2
  · refine wp_mono
      (beside_spec (isFirstBlockInEpoch_reads beside_frame.refl consensus _) records)
      fun isFirst final kept => ⟨kept, fun height isBlock => ?_⟩
    exact (hasParent ⟨height, isBlock⟩).elim

/-- The pair and the answer that an iteration has come to. -/
structure Answered (chain : Chain) (consensus : Consensus) (answer : RootSlot × Bool) :
    Prop where
  recorded : Recorded chain (some answer.1)
  answers : AnswersFor chain consensus answer.1.blockRoot answer.2

/-- A call that keeps the pair right, and what comes after it. -/
theorem wp_call_bind
    {α β : Type}
    {body : Async World α}
    {next : α → Async World β}
    {answers : α → Prop}
    {post : β → World → Prop}
    (keeps :
      wp (protocol chain) (fun value final => Records chain final ∧ answers value) body
        world)
    (continues :
      ∀ value final,
        Records chain final →
        answers value →
        wp (protocol chain) post (next value) final) :
    wp (protocol chain) post (call body >>= next) world := by
  rw [wp_bind, wp_call]
  refine wp_mono keeps fun value final holds => ⟨holds.1, fun moved beside => ?_⟩
  exact continues value moved (holds.1.beside beside) holds.2

/-- A step beside the walk leaves the pair right, whatever it answers. -/
theorem wp_call_beside
    {α β : Type}
    {body : Async World α}
    {next : α → Async World β}
    {post : β → World → Prop}
    (guarantees : body.Guarantees Beside)
    (records : Records chain world)
    (continues :
      ∀ value final,
        Records chain final →
        wp (protocol chain) post (next value) final) :
    wp (protocol chain) post (call body >>= next) world :=
  @wp_call_bind chain world _ _ body next (fun _ => True) post
    (wp_mono (beside_spec guarantees records) fun _ _ kept => ⟨kept, trivial⟩)
    fun value final kept _ => continues value final kept

/-- Up to the answer the call keeps to the chain. -/
theorem upToAnswer_spec
    {finalizedHeader : BlockHeaderResponse}
    (shows : Shows chain consensus)
    (records : Records chain world) :
    wp (protocol chain)
      (fun result final =>
        Records chain final ∧ ∀ answer, result = some answer → Answered chain consensus answer)
      (upToAnswer config consensus balances finalizedHeader) world := by
  have stays (moved : World) (beside : Beside world moved) : Records chain moved :=
    records.beside beside
  rw [upToAnswer, wp_bind, wp_call]
  apply RootsProvider.getNext_spec protocol_stable stays stays
  refine fun taken takenBeside => ⟨stays taken takenBeside, fun moved beside => ?_⟩
  have movedRecords := (stays taken takenBeside).beside beside
  cases RootsProvider.nextOf config consensus finalizedHeader world with
  | none =>
      refine ⟨movedRecords, ?_⟩
      intro answer isAnswer
      cases isAnswer
  | some blockRoot =>
      rw [wp_bind, wp_request]
      refine ⟨movedRecords, fun shown shownBeside => ?_⟩
      have shownRecords := movedRecords.beside shownBeside
      refine ⟨?_, shownRecords⟩
      apply @wp_call_bind _ _ _ _ _ _ fun _ => True
      · exact wp_mono (push_spec shownRecords _) fun _ _ kept => ⟨kept, trivial⟩
      · intro _ _ pushedRecords _
        apply wp_call_beside
          (beside_frame.handleSlashingsInBlock_guarantees config consensus balances _ _ _)
          pushedRecords
        intro _ _ slashingRecords
        apply wp_call_beside
          (beside_frame.handleWithdrawalsInBlock_guarantees config consensus balances _ _ _ _)
          slashingRecords
        intro _ _ withdrawalRecords
        apply wp_call_bind (isFirstBlockInEpoch_answers shows withdrawalRecords blockRoot)
        rintro isFirst final finalRecords answers
        refine ⟨finalRecords, ?_⟩
        rintro answer isAnswer
        cases isAnswer
        exact
          { recorded := recorded_blockInfo shows blockRoot
            answers := answers }

/-- Step lemma: one iteration keeps the pair right, and so does a crash inside it. -/
theorem walkNext_spec
    {finalizedHeader : BlockHeaderResponse}
    (shows : Shows chain consensus)
    (records : Records chain world) :
    wp (protocol chain) (fun _ final => Records chain final)
      (Daemon.walkNext config consensus balances finalizedHeader) world := by
  rw [walkNext_eq, wp_bind]
  refine wp_mono (upToAnswer_spec shows records) fun answer asked holds => ?_
  obtain ⟨askedRecords, answered⟩ := holds
  have ticks {current : World} (currentRecords : Records chain current) :
      wp (protocol chain) (fun _ final => Records chain final) tick current := by
    rw [wp_tick]
    exact ⟨currentRecords, fun _ beside => currentRecords.beside beside⟩
  cases answer with
  | none => exact ticks askedRecords
  | some answer =>
      obtain ⟨rootSlot, isFirst⟩ := answer
      have settles {current : World} (currentRecords : Records chain current) :
          wp (protocol chain) (fun _ final => Records chain final)
            (RootsProcessor.settleRoot consensus rootSlot >>= fun _ => tick) current := by
        rw [wp_bind]
        exact wp_mono (settleRoot_spec currentRecords (answered _ rfl).recorded)
          fun _ _ settled => ticks settled
      unfold onAnswer
      simp only
      split
      · exact wp_call_beside
          (beside_frame.handleBalanceChangesInBlock_guarantees config consensus balances _ _)
          askedRecords fun _ _ => settles
      · exact settles askedRecords

end Specs

/-! ## Runs -/

/-- Every client of the step shows the chain. -/
def StepShows (chain : Chain) : Step → Prop
  | .iterate consensus _ _ => Shows chain consensus
  | _ => True

section Runs

variable {chain : Chain} {world : World} {config : Config} {balances : Bool}

/-- A restart reads a root of the chain. -/
theorem restart_records
    (records : Records chain world) :
    Records chain (restart world) where
  memory := records.disk
  disk := records.disk

/-- Step lemma: every step of a run keeps the pair right. -/
theorem perform_records
    {step : Step}
    (shows : StepShows chain step)
    (records : Records chain world) :
    Records chain (step.perform config balances world) := by
  cases step with
  | iterate consensus finalizedHeader script =>
      have established :
          Established (protocol chain) (fun _ final => Records chain final)
            (iteration config balances consensus finalizedHeader script world) :=
        run_sound protocol_stable
          (fun storageStateSlot state => moveIndex_beside storageStateSlot state)
          (walkNext_spec shows records) script
      exact Established.leave restart (Records chain)
        (fun _ suspended => restart_records suspended)
        (fun _ _ aborted => aborted) (fun _ _ returned => returned) established
  | reindex storageStateSlot =>
      exact records.beside (moveIndex_beside storageStateSlot world)
  | crash =>
      exact restart_records records

/-- Run lemma: the pair is right in every world that a run reaches. -/
theorem run_records
    {steps : List Step}
    (shows : ∀ step ∈ steps, StepShows chain step)
    (records : Records chain world) :
    Records chain (perform config balances world steps) :=
  perform_keeps (fun _ _ => perform_records) shows records

end Runs

/-- The answer that the header of the parent gives. -/
def headerAnswer (consensus : Consensus) (blockRoot : RootHex) : Bool :=
  let blockInfo := consensus.blockInfo blockRoot
  consensus.slotToEpoch (consensus.beaconHeader blockInfo.parentRoot).message.slot <
    consensus.slotToEpoch blockInfo.slot

/--
In every run that starts with a right pair in the file or with none, every iteration
comes to the right answer for a block with a parent: the block is the first one of its
epoch.  The balances are handled on that answer and on no other.  The answer is that of
the parent's header, wherever the slot came from, and every epoch has one such block.
-/
theorem first_block_of_epoch
    (config : Config)
    (balances : Bool)
    (chain : Chain)
    (world : World)
    (recorded : Recorded chain (world.disk.rootsStackInfo.getD none))
    (steps : List Step)
    (shows : ∀ step ∈ steps, StepShows chain step)
    (consensus : Consensus)
    (clientShows : Shows chain consensus)
    (finalizedHeader : BlockHeaderResponse) :
    Daemon.walkNext config consensus balances finalizedHeader =
        upToAnswer config consensus balances finalizedHeader >>=
          onAnswer config consensus balances finalizedHeader ∧
      (∀ script height rootSlot isFirst final,
        run moveIndex (upToAnswer config consensus balances finalizedHeader) script
            (perform config balances (restart world) steps) =
          (.done (some (rootSlot, isFirst)), final) →
        rootSlot.blockRoot = (chain.block (height + 1)).blockRoot →
        (isFirst = true ↔ FirstInEpoch chain consensus (height + 1)) ∧
          isFirst = headerAnswer consensus rootSlot.blockRoot) ∧
      ∀ height,
        ∃! first,
          epochOf chain consensus first = epochOf chain consensus height ∧
            FirstInEpoch chain consensus first := by
  refine ⟨walkNext_eq config consensus balances finalizedHeader, ?_,
    existsUnique_firstInEpoch⟩
  intro script height rootSlot isFirst final ran isBlock
  have records : Records chain (perform config balances (restart world) steps) :=
    run_records shows { memory := recorded, disk := recorded }
  have established :=
    run_sound protocol_stable
      (fun storageStateSlot state => moveIndex_beside storageStateSlot state)
      (@upToAnswer_spec chain _ config consensus balances finalizedHeader clientShows records)
      script
  rw [ran] at established
  have answered : Answered chain consensus (rootSlot, isFirst) := established.2 _ rfl
  have isAnswer :
      isFirst = decide (epochOf chain consensus height < epochOf chain consensus (height + 1)) :=
    answered.answers height isBlock
  constructor
  · rw [firstInEpoch_succ_iff, isAnswer, decide_eq_true_iff]
  · rw [isAnswer, headerAnswer, isBlock]
    simp only [clientShows.parentRoot, clientShows.header, clientShows.slot]
    rfl

/-! ## A cold start in the middle of an epoch -/

/-- The sample client shows the sample chain. -/
theorem sampleConsensus_shows :
    Shows sampleChain sampleConsensus where
  slot := fun _ => rfl
  parentRoot := fun _ => rfl
  header := fun _ => rfl

/-- Block 31 is processed at once; the process dies while it works on block 32. -/
def midEpochSteps : List Step :=
  [ .iterate sampleConsensus (sampleHeader 31) (List.replicate 40 (.quiet .resolved)),
    .iterate sampleConsensus (sampleHeader 40) (List.replicate 8 (.quiet .resolved)) ]

theorem first_block_of_epoch_sample :
    (∃ final,
      run moveIndex
          (upToAnswer (.defaults "0xab" 1) sampleConsensus true (sampleHeader 40))
          (List.replicate 20 (.quiet .resolved))
          (perform (.defaults "0xab" 1) true (restart (World.blank (sampleHeader 31)))
            midEpochSteps) =
        (.done (some (sampleChain.block 32, true)), final)) ∧
      FirstInEpoch sampleChain sampleConsensus 32 := by
  have right :=
    first_block_of_epoch (.defaults "0xab" 1) true sampleChain
      (World.blank (sampleHeader 31)) (recorded_none sampleChain) midEpochSteps
      (by simp [midEpochSteps, StepShows, sampleConsensus_shows])
      sampleConsensus sampleConsensus_shows (sampleHeader 40)
  have ran :
      ∃ final,
        run moveIndex
            (upToAnswer (.defaults "0xab" 1) sampleConsensus true (sampleHeader 40))
            (List.replicate 20 (.quiet .resolved))
            (perform (.defaults "0xab" 1) true (restart (World.blank (sampleHeader 31)))
              midEpochSteps) =
          (.done (some (sampleChain.block 32, true)), final) :=
    ⟨_, rfl⟩
  obtain ⟨final, returned⟩ := ran
  exact ⟨⟨final, returned⟩, (right.2.1 _ 31 _ true final returned rfl).1.mp rfl⟩

end FirstBlocks

end CsmProver
