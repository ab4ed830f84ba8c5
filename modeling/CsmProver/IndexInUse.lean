import CsmProver.Async.Exclusive
import CsmProver.KeysIndexRuns
import CsmProver.ServiceMoves

namespace CsmProver

/-!
# The index in use

The duties look keys up while the index is being updated.  An update never takes
it back: at each of its suspensions both pairs of storage and info agree with the
registry, as long as nobody else changes the index.  An index that is initialised
stays so, and an initialisation that returns has made it so.
-/

open Async
open KeysIndexer

namespace KeysIndex

/-- The others leave the index and its files alone, whatever they do besides. -/
structure KeepsIndex (world moved : World) : Prop where
  keysIndexer : moved.keysIndexer = world.keysIndexer
  info : moved.disk.keysIndexerInfo = world.disk.keysIndexerInfo
  storage : moved.disk.keysIndexerStorage = world.disk.keysIndexerStorage

theorem keepsIndex_refl
    (world : World) :
    KeepsIndex world world :=
  ⟨rfl, rfl, rfl⟩

theorem keepsIndex_trans
    {first middle last : World}
    (earlier : KeepsIndex first middle)
    (later : KeepsIndex middle last) :
    KeepsIndex first last where
  keysIndexer := later.keysIndexer.trans earlier.keysIndexer
  info := later.info.trans earlier.info
  storage := later.storage.trans earlier.storage

/-! ## Updates -/

/-- Both pairs agree with the registry, and the index is initialised. -/
structure InService (registry : Registry) (world : World) : Prop where
  running : Running registry world.keysIndexer world.disk
  initialized : isInitialized world = true

/-- A computation that has the index for itself and never takes it out of service. -/
def inService (registry : Registry) : Protocol World where
  rely := KeepsIndex
  suspended := InService registry
  aborted := fun _ => InService registry

section Update

variable {registry : Registry} {config : Config} {consensus : Consensus}
variable {keysapi : Keysapi} {world : World}

theorem KeepsIndex.running
    {moved : World}
    (keeps : KeepsIndex world moved)
    (running : Running registry world.keysIndexer world.disk) :
    Running registry moved.keysIndexer moved.disk := by
  have sameStorage : diskStorage moved.disk = diskStorage world.disk := by
    rw [diskStorage, diskStorage, keeps.storage]
  have sameCount : diskCount moved.disk = diskCount world.disk := by
    rw [diskCount, diskCount, keeps.info]
  rw [keeps.keysIndexer]
  exact
    { memory := running.memory
      files := by
        rw [sameStorage, sameCount]
        exact running.files
      ahead := by
        rw [sameCount]
        exact running.ahead }

theorem KeepsIndex.inService
    {moved : World}
    (keeps : KeepsIndex world moved)
    (holds : InService registry world) :
    InService registry moved where
  running := keeps.running holds.running
  initialized := by
    unfold isInitialized
    rw [keeps.keysIndexer]
    exact holds.initialized

/-- A request finds the index as it was. -/
private theorem inService_request
    {α : Type}
    {answer : α}
    {post : α → World → Prop}
    (holds : InService registry world)
    (continues : ∀ moved, KeepsIndex world moved → post answer moved) :
    wp (inService registry) post (request answer) world := by
  rw [wp_request]
  exact ⟨holds, fun moved keeps => ⟨continues moved keeps, keeps.inService holds⟩⟩

private theorem inService_healthCheck
    {finalizedTimestamp : Int}
    {elBlockSnapshot : ELBlockSnapshot}
    {post : Unit → World → Prop}
    (holds : InService registry world)
    (continues : post () world) :
    wp (inService registry) post
      (healthCheck config finalizedTimestamp elBlockSnapshot) world := by
  unfold healthCheck
  split
  · rw [wp_raise]
    exact holds
  · exact continues

/-- The update of the storage keeps the index in service and covers the new count. -/
theorem updateStorage_inService
    (honest : Honest registry consensus keysapi)
    (stateRoot : RootHex)
    (finalizedSlot : Nat)
    (holds : InService registry world) :
    wp (inService registry)
      (fun totalValLength final =>
        InService registry final ∧
          Agrees registry final.keysIndexer.storage totalValLength)
      (updateStorage config consensus keysapi (consensus.state stateRoot) finalizedSlot)
      world := by
  obtain ⟨used, appeared, _, answers⟩ := honest.answers
  simp only [updateStorage, wp_bind, wp_read]
  refine inService_request holds fun answered keepsFirst => ?_
  have answeredHolds := keepsFirst.inService holds
  split
  · next noNewKeys =>
      rw [pure_eq_done, wp_done, getNewValidatorKeys_length]
      refine ⟨answeredHolds, answeredHolds.running.memory.mono ?_⟩
      rw [keepsFirst.keysIndexer]
      exact length_le_of_noNewKeys (honest.shows stateRoot) noNewKeys
  · simp only [wp_bind, wp_read, wp_note]
    refine inService_request answeredHolds fun found keepsSecond => ?_
    have foundHolds := keepsSecond.inService answeredHolds
    refine inService_healthCheck ⟨foundHolds.running, foundHolds.initialized⟩ ?_
    have sameCount :
        found.keysIndexer.info.lastValidatorsCount =
          world.keysIndexer.info.lastValidatorsCount := by
      rw [keepsSecond.keysIndexer, keepsFirst.keysIndexer]
    have agrees :=
      assign_newEntries_agrees (honest.shows stateRoot)
        (answers answered.keysIndexer.info.moduleId _)
        (appeared stateRoot) (sameCount ▸ foundHolds.running.memory)
    rw [wp_modifyFields, pure_eq_done, wp_done, getNewValidatorKeys_length]
    simp only [World.record_keysIndexer, sameCount]
    exact
      ⟨⟨foundHolds.running.grow agrees.sound fun _ => assign_grows _,
        foundHolds.initialized⟩, agrees⟩

/-- Writing the storage file makes the two storages equal. -/
theorem writeStorage_inService
    (holds : InService registry world) :
    wp (inService registry)
      (fun _ final =>
        InService registry final ∧
          Complete registry (diskStorage final.disk)
            final.keysIndexer.info.lastValidatorsCount)
      writeStorage world := by
  refine wp_writeFile.mpr ⟨holds, fun current keeps => ?_⟩
  have currentHolds := keeps.inService holds
  have agrees :
      Agrees registry world.keysIndexer.storage
        world.keysIndexer.info.lastValidatorsCount :=
    holds.running.memory
  have written :
      InService registry
        { current with
          disk :=
            { current.disk with keysIndexerStorage := some world.keysIndexer.storage } } :=
    { running :=
        { memory := currentHolds.running.memory
          files :=
            { sound := agrees.sound
              complete := by
                have ahead := currentHolds.running.ahead
                rw [keeps.keysIndexer] at ahead
                exact ahead }
          ahead := currentHolds.running.ahead }
      initialized := currentHolds.initialized }
  refine ⟨⟨written, fun final later => ⟨later.inService written, ?_⟩⟩, currentHolds⟩
  rw [diskStorage, later.storage, later.keysIndexer, keeps.keysIndexer]
  exact agrees.complete

/-- Writing the info file is safe once the storage file covers its count. -/
theorem writeInfo_inService
    (holds : InService registry world)
    (covered :
      Complete registry (diskStorage world.disk)
        world.keysIndexer.info.lastValidatorsCount) :
    wp (inService registry) (fun _ final => InService registry final) writeInfo world := by
  refine wp_writeFile.mpr ⟨holds, fun current keeps => ?_⟩
  have currentHolds := keeps.inService holds
  have written :
      InService registry
        { current with
          disk := { current.disk with keysIndexerInfo := some world.keysIndexer.info } } :=
    { running :=
        { memory := currentHolds.running.memory
          files :=
            { sound := currentHolds.running.files.sound
              complete := by
                rw [diskStorage, ← keeps.storage] at covered
                exact covered }
          ahead := by
            have complete := currentHolds.running.memory.complete
            rw [keeps.keysIndexer] at complete ⊢
            exact complete }
      initialized := currentHolds.initialized }
  exact ⟨⟨written, fun final later => later.inService written⟩, currentHolds⟩

/-- An update keeps the index in service at each of its suspensions and at its end. -/
theorem update_inService
    (honest : Honest registry consensus keysapi)
    {finalizedHeader : BlockHeaderResponse}
    (finalized : 0 < finalizedHeader.message.slot)
    (holds : InService registry world) :
    wp (inService registry) (fun _ final => InService registry final)
      (update config consensus keysapi finalizedHeader) world := by
  simp only [update, baseRun, commit, wp_call, wp_bind, wp_modify]
  refine inService_request holds fun answered keeps => ?_
  refine wp_mono
    (updateStorage_inService honest finalizedHeader.message.stateRoot
      finalizedHeader.message.slot (keeps.inService holds)) ?_
  rintro totalValLength extended ⟨extendedHolds, agrees⟩
  refine ⟨extendedHolds, fun moved movedKeeps => ?_⟩
  have movedHolds := movedKeeps.inService extendedHolds
  rw [← movedKeeps.keysIndexer] at agrees
  have identified : moved.keysIndexer.info.moduleId ≠ 0 := by
    have initialized := movedHolds.initialized
    simp only [isInitialized, Bool.and_eq_true, decide_eq_true_eq] at initialized
    exact initialized.1
  have committed :
      InService registry
        ({ moved with
          keysIndexer :=
            { moved.keysIndexer with
              info :=
                { moved.keysIndexer.info with
                  storageStateSlot := finalizedHeader.message.slot
                  lastValidatorsCount := totalValLength } } }.record
          (.indexCommitted finalizedHeader.message.slot)) :=
    { running :=
        { memory := agrees
          files := movedHolds.running.files
          ahead := movedHolds.running.ahead }
      initialized := by simp [isInitialized, identified, finalized] }
  refine wp_mono (writeStorage_inService committed) ?_
  rintro _ stored ⟨storedHolds, covered⟩
  refine wp_mono (writeInfo_inService storedHolds covered) fun _ final finalHolds => ?_
  exact ⟨finalHolds, fun _ later => later.inService finalHolds⟩

end Update

/-! ## Initialisation -/

/-- The chain has finalized a block after its genesis. -/
def Finalized (world : World) : Prop :=
  0 < world.finalizedHeader.message.slot

/-- While the index is initialised, only the finalized header moves on. -/
def initializing : Protocol World where
  rely := fun world moved =>
    moved.keysIndexer = world.keysIndexer ∧ (Finalized world → Finalized moved)
  suspended := Finalized
  aborted := fun _ => Finalized

section Init

variable {config : Config} {consensus : Consensus} {keysapi : Keysapi} {world : World}

private theorem initializing_request
    {α : Type}
    {answer : α}
    {post : α → World → Prop}
    (finalized : Finalized world)
    (continues :
      ∀ moved,
        moved.keysIndexer = world.keysIndexer → Finalized moved → post answer moved) :
    wp initializing post (request answer) world := by
  rw [wp_request]
  exact ⟨finalized, fun moved relied =>
    ⟨continues moved relied.1 (relied.2 finalized), relied.2 finalized⟩⟩

/-- Writing a file changes nothing in memory. -/
private theorem initializing_writeFile
    {save : World → Disk → Disk}
    (finalized : Finalized world) :
    wp initializing
      (fun _ final => final.keysIndexer = world.keysIndexer ∧ Finalized final)
      (writeFile save) world := by
  refine wp_writeFile.mpr ⟨finalized, fun current relied => ?_⟩
  have stillFinalized : Finalized current := relied.2 finalized
  exact ⟨⟨stillFinalized, fun final later =>
    ⟨later.1.trans relied.1, later.2 stillFinalized⟩⟩, stillFinalized⟩

private theorem readServiceData_finalized
    {fileReads : FileReads}
    (finalized : Finalized world) :
    wp initializing (fun _ final => Finalized final)
      (readServiceData config fileReads) world := by
  simp only [readServiceData, wp_bind, wp_modifyFields, wp_readFile]
  refine ⟨finalized, fun fresh freshRelied => ?_⟩
  have freshFinalized : Finalized fresh := freshRelied.2 finalized
  split
  · refine ⟨freshFinalized, fun loaded loadedRelied => ?_⟩
    have loadedFinalized : Finalized loaded := loadedRelied.2 freshFinalized
    split
    · exact loadedFinalized
    · exact loadedFinalized
  · exact freshFinalized

/-- The module that is found has an id, as the modules of the staking router have. -/
private theorem findModule_identifies
    (identified : ∀ module ∈ keysapi.modules, module.id ≠ 0)
    (finalized : Finalized world) :
    wp initializing
      (fun _ final => final.keysIndexer.info.moduleId ≠ 0 ∧ Finalized final)
      (findModule keysapi) world := by
  simp only [findModule, wp_bind, wp_read]
  split
  · rw [wp_bind]
    refine initializing_request finalized fun answered _ answeredFinalized => ?_
    split
    · rw [wp_bind, wp_tick]
      exact ⟨answeredFinalized, fun moved relied => relied.2 answeredFinalized⟩
    · next module found =>
      rw [wp_bind, wp_modifyFields]
      refine wp_mono (initializing_writeFile answeredFinalized) ?_
      rintro _ final ⟨sameFields, finalFinalized⟩
      rw [sameFields]
      exact ⟨identified module (List.mem_of_find?_eq_some found), finalFinalized⟩
  · next known =>
      exact ⟨known, finalized⟩

/-- The storage is built for the module that was found. -/
private theorem initStorage_identified
    {state : State}
    {finalizedSlot : Nat}
    (known : world.keysIndexer.info.moduleId ≠ 0)
    (finalized : Finalized world) :
    wp initializing
      (fun _ final => final.keysIndexer.info.moduleId ≠ 0 ∧ Finalized final)
      (initStorage config consensus keysapi state finalizedSlot) world := by
  simp only [initStorage, wp_bind, wp_read, wp_note]
  refine initializing_request finalized fun answered sameFirst answeredFinalized => ?_
  unfold healthCheck
  split
  · rw [wp_raise]
    exact answeredFinalized
  · refine initializing_request answeredFinalized fun moved sameSecond movedFinalized => ?_
    rw [wp_modifyFields, pure_eq_done, wp_done]
    refine ⟨?_, movedFinalized⟩
    rw [sameSecond]
    exact sameFirst.symm ▸ known

/-- An initialisation that returns has initialised the index. -/
theorem initOrReadServiceData_initializes
    {fileReads : FileReads}
    (identified : ∀ module ∈ keysapi.modules, module.id ≠ 0)
    (finalized : Finalized world) :
    wp initializing (fun _ final => isInitialized final = true ∧ Finalized final)
      (initOrReadServiceData config consensus keysapi fileReads) world := by
  simp only [initOrReadServiceData, wp_bind, wp_read]
  refine wp_mono (readServiceData_finalized finalized) fun _ loaded loadedFinalized => ?_
  refine wp_mono (findModule_identifies identified loadedFinalized) ?_
  rintro _ found ⟨known, foundFinalized⟩
  split
  · rw [wp_bind, wp_settle]
    refine ⟨foundFinalized, fun moved relied => ?_⟩
    have movedFinalized : Finalized moved := relied.2 foundFinalized
    rw [← relied.1] at known
    refine ⟨?_, movedFinalized⟩
    simp only [wp_bind, wp_read, baseRun, commit, wp_call, wp_modify]
    refine initializing_request movedFinalized fun answered same answeredFinalized => ?_
    rw [← same] at known
    refine wp_mono (initStorage_identified known answeredFinalized) ?_
    rintro totalValLength built ⟨builtKnown, builtFinalized⟩
    refine ⟨builtFinalized, fun current currentRelied => ?_⟩
    have currentFinalized : Finalized current := currentRelied.2 builtFinalized
    refine wp_mono (initializing_writeFile currentFinalized) ?_
    rintro _ stored ⟨storedFields, storedFinalized⟩
    refine wp_mono (initializing_writeFile storedFinalized) ?_
    rintro _ final ⟨finalFields, finalFinalized⟩
    refine ⟨?_, finalFinalized⟩
    rw [← currentRelied.1] at builtKnown
    unfold isInitialized
    rw [finalFields, storedFields]
    simpa [builtKnown, Finalized] using movedFinalized
  · next read =>
      refine ⟨?_, foundFinalized⟩
      simpa [isInitialized, known] using Nat.pos_of_ne_zero read

end Init

end KeysIndex

end CsmProver
