import CsmProver.KeysIndex

namespace CsmProver

/-!
# Runs of the keys indexer

The daemon initialises the index until it succeeds and then starts updates, one
at a time.  An attempt may abort wherever it awaits a promise, and the process
may crash there and start again from the two files.  Every attempt keeps both
pairs of storage and info in agreement with the registry, as long as no
initialisation reads the info file and then fails to read the storage file.
-/

open Async
open KeysIndexer

namespace KeysIndex

/-! ## The two pairs -/

/-- The storage a restarted process reads. -/
def diskStorage (disk : Disk) : KeysIndexerServiceStorage :=
  disk.keysIndexerStorage.getD ∅

/-- The validators count a restarted process reads. -/
def diskCount (disk : Disk) : Nat :=
  (disk.keysIndexerInfo.map (·.lastValidatorsCount)).getD 0

/-- Both pairs agree with the registry, and the memory is not behind the disk. -/
structure Running (registry : Registry) (fields : KeysIndexerFields) (disk : Disk) :
    Prop where
  memory : Agrees registry fields.storage fields.info.lastValidatorsCount
  files : Agrees registry (diskStorage disk) (diskCount disk)
  ahead : Complete registry fields.storage (diskCount disk)

/-- Both pairs agree with the registry; a memory behind the disk is not used. -/
structure Consistent (registry : Registry) (world : World) : Prop where
  memory :
    Agrees registry world.keysIndexer.storage
      world.keysIndexer.info.lastValidatorsCount
  files : Agrees registry (diskStorage world.disk) (diskCount world.disk)
  ahead :
    isInitialized world = true →
      Complete registry world.keysIndexer.storage (diskCount world.disk)

/-- A running index is consistent in itself. -/
theorem Running.consistent
    {registry : Registry}
    {world : World}
    (running : Running registry world.keysIndexer world.disk) :
    Consistent registry world where
  memory := running.memory
  files := running.files
  ahead := fun _ => running.ahead

/-- Once it is initialised it is running. -/
theorem Consistent.running
    {registry : Registry}
    {world : World}
    (consistent : Consistent registry world)
    (initialized : isInitialized world = true) :
    Running registry world.keysIndexer world.disk where
  memory := consistent.memory
  files := consistent.files
  ahead := consistent.ahead initialized

/-- Adding sound entries to the memory keeps both pairs. -/
theorem Running.grow
    {registry : Registry}
    {fields : KeysIndexerFields}
    {disk : Disk}
    (running : Running registry fields disk)
    {storage : KeysIndexerServiceStorage}
    (sound : Sound registry storage)
    (grows :
      ∀ index : Nat, fields.storage[index]?.isSome → storage[index]?.isSome) :
    Running registry { fields with storage := storage } disk where
  memory :=
    { sound := sound
      complete := fun index below isModuleKey =>
        grows index (running.memory.complete index below isModuleKey) }
  files := running.files
  ahead := fun index below isModuleKey =>
    grows index (running.ahead index below isModuleKey)

/-! ## The protocol of one attempt -/

/-- The other tasks neither change the index nor write its files. -/
def SameIndex (world moved : World) : Prop :=
  moved.keysIndexer = world.keysIndexer ∧ moved.disk = world.disk

/-- An attempt may be cut wherever the files agree, and leaves both pairs consistent. -/
def protocol (registry : Registry) : Protocol World where
  rely := SameIndex
  suspended := fun world =>
    Agrees registry (diskStorage world.disk) (diskCount world.disk)
  aborted := fun _ world => Consistent registry world

theorem protocol_stable
    (registry : Registry) :
    (protocol registry).Stable where
  refl := fun _ => ⟨rfl, rfl⟩
  trans := fun first second =>
    ⟨second.1.trans first.1, second.2.trans first.2⟩
  suspended := by
    intro world moved agrees same
    simp only [protocol] at agrees ⊢
    rw [same.2]
    exact agrees
  aborted := by
    intro reason world moved consistent same
    obtain ⟨sameFields, sameDisk⟩ := same
    exact
      { memory := sameFields ▸ consistent.memory
        files := sameDisk ▸ consistent.files
        ahead := by
          unfold isInitialized
          rw [sameFields, sameDisk]
          exact consistent.ahead }

/-- Who leaves the index alone leaves it running. -/
theorem SameIndex.running
    {registry : Registry}
    {world moved : World}
    (same : SameIndex world moved)
    (running : Running registry world.keysIndexer world.disk) :
    Running registry moved.keysIndexer moved.disk := by
  rw [same.1, same.2]
  exact running

section Specs

variable {registry : Registry} {config : Config} {consensus : Consensus}
variable {keysapi : Keysapi} {world : World}

/-- A request made while both pairs agree returns to the same pairs. -/
private theorem running_request
    {α : Type}
    {answer : α}
    {post : α → World → Prop}
    (running : Running registry world.keysIndexer world.disk)
    (continues : ∀ moved, SameIndex world moved → post answer moved) :
    wp (protocol registry) post (request answer) world := by
  rw [wp_request]
  exact ⟨running.files, fun moved same =>
    ⟨continues moved same, (same.running running).consistent⟩⟩

/-- Writing the storage file keeps both pairs and makes the two storages equal. -/
theorem writeStorage_spec
    (running : Running registry world.keysIndexer world.disk) :
    wp (protocol registry)
      (fun _ final =>
        Running registry final.keysIndexer final.disk ∧
          final.keysIndexer = world.keysIndexer ∧
          diskStorage final.disk = final.keysIndexer.storage)
      writeStorage world := by
  refine wp_writeFile.mpr ⟨running.files, fun moved same => ⟨?_, ?_⟩⟩
  · obtain ⟨sameFields, sameDisk⟩ := same
    have written : Running registry world.keysIndexer
        { moved.disk with keysIndexerStorage := some world.keysIndexer.storage } :=
      { memory := running.memory
        files :=
          { sound := running.memory.sound
            complete := by
              rw [sameDisk]
              exact running.ahead }
        ahead := by
          rw [sameDisk]
          exact running.ahead }
    refine ⟨written.files, fun final finalSame => ?_⟩
    obtain ⟨finalFields, finalDisk⟩ := finalSame
    simp only at finalFields finalDisk
    rw [finalFields, finalDisk, sameFields]
    exact ⟨written, rfl, rfl⟩
  · exact (same.running running).consistent

/-- Writing the info file keeps both pairs when the storage file covers its count. -/
theorem writeInfo_spec
    (running : Running registry world.keysIndexer world.disk)
    (covered :
      Complete registry (diskStorage world.disk)
        world.keysIndexer.info.lastValidatorsCount) :
    wp (protocol registry)
      (fun _ final =>
        Running registry final.keysIndexer final.disk ∧
          final.keysIndexer = world.keysIndexer)
      writeInfo world := by
  refine wp_writeFile.mpr ⟨running.files, fun moved same => ⟨?_, ?_⟩⟩
  · obtain ⟨sameFields, sameDisk⟩ := same
    have written : Running registry world.keysIndexer
        { moved.disk with keysIndexerInfo := some world.keysIndexer.info } :=
      { memory := running.memory
        files :=
          { sound := by
              rw [sameDisk]
              exact running.files.sound
            complete := by
              rw [sameDisk]
              exact covered }
        ahead := running.memory.complete }
    refine ⟨written.files, fun final finalSame => ?_⟩
    obtain ⟨finalFields, finalDisk⟩ := finalSame
    simp only at finalFields finalDisk
    rw [finalFields, finalDisk, sameFields]
    exact ⟨written, rfl⟩
  · exact (same.running running).consistent

/-- A storage callback extends the index up to the count it returns. -/
def Extends (registry : Registry) (callback : Async World Nat) : Prop :=
  ∀ world,
    Running registry world.keysIndexer world.disk →
    wp (protocol registry)
      (fun totalValLength final =>
        Running registry final.keysIndexer final.disk ∧
          Agrees registry final.keysIndexer.storage totalValLength)
      callback world

/-- The health check changes nothing of the index. -/
theorem healthCheck_spec
    {finalizedTimestamp : Int}
    {elBlockSnapshot : ELBlockSnapshot}
    {post : Unit → World → Prop}
    (running : Running registry world.keysIndexer world.disk)
    (continues : post () world) :
    wp (protocol registry) post
      (healthCheck config finalizedTimestamp elBlockSnapshot) world := by
  unfold healthCheck
  split
  · rw [wp_raise]
    exact running.consistent
  · exact continues

/-- A new index lists the validators from the first one on. -/
theorem initStorage_extends
    (honest : Honest registry consensus keysapi)
    (stateRoot : RootHex)
    (finalizedSlot : Nat) :
    Extends registry
      (initStorage config consensus keysapi (consensus.state stateRoot)
        finalizedSlot) := by
  obtain ⟨used, appeared, answers, _⟩ := honest.answers
  intro world running
  simp only [initStorage, wp_bind, wp_read, wp_note]
  refine running_request running fun answered sameFirst => ?_
  have runningFirst := sameFirst.running running
  refine healthCheck_spec runningFirst ?_
  refine running_request runningFirst fun moved sameSecond => ?_
  have runningSecond := sameSecond.running runningFirst
  have agrees :=
    initEntries_agrees (honest.shows stateRoot)
      (answers world.keysIndexer.info.moduleId)
      (appeared stateRoot) runningSecond.memory.sound
  rw [wp_modifyFields, pure_eq_done, wp_done]
  exact
    ⟨runningSecond.grow agrees.sound fun _ => initEntries_grows _ _ _,
      getNewValidatorKeys_length _ 0 ▸ agrees⟩

/-- An update goes on from the last validator it has seen. -/
theorem updateStorage_extends
    (honest : Honest registry consensus keysapi)
    (stateRoot : RootHex)
    (finalizedSlot : Nat) :
    Extends registry
      (updateStorage config consensus keysapi (consensus.state stateRoot)
        finalizedSlot) := by
  obtain ⟨used, appeared, _, answers⟩ := honest.answers
  intro world running
  simp only [updateStorage, wp_bind, wp_read]
  refine running_request running fun answered sameFirst => ?_
  have runningFirst := sameFirst.running running
  split
  · next noNewKeys =>
      rw [pure_eq_done, wp_done, getNewValidatorKeys_length]
      refine ⟨runningFirst, runningFirst.memory.mono ?_⟩
      rw [sameFirst.1]
      exact length_le_of_noNewKeys (honest.shows stateRoot) noNewKeys
  · simp only [wp_bind, wp_read, wp_note]
    refine running_request runningFirst fun found sameSecond => ?_
    have runningSecond := sameSecond.running runningFirst
    refine healthCheck_spec runningSecond ?_
    have sameCount :
        found.keysIndexer.info.lastValidatorsCount =
          world.keysIndexer.info.lastValidatorsCount := by
      rw [sameSecond.1, sameFirst.1]
    have agrees :=
      assign_newEntries_agrees (honest.shows stateRoot)
        (answers answered.keysIndexer.info.moduleId _)
        (appeared stateRoot) (sameCount ▸ runningSecond.memory)
    rw [wp_modifyFields, pure_eq_done, wp_done, getNewValidatorKeys_length]
    simp only [World.record_keysIndexer, sameCount]
    exact ⟨runningSecond.grow agrees.sound fun _ => assign_grows _, agrees⟩

/-- A run of the indexer commits the count its callback has reached. -/
theorem baseRun_spec
    {stateRoot : RootHex}
    {finalizedSlot : Nat}
    {callback : State → Nat → Async World Nat}
    (extend : Extends registry (callback (consensus.state stateRoot) finalizedSlot))
    (running : Running registry world.keysIndexer world.disk) :
    wp (protocol registry)
      (fun _ final => Running registry final.keysIndexer final.disk)
      (baseRun consensus stateRoot finalizedSlot callback) world := by
  simp only [baseRun, commit, wp_bind, wp_call, wp_modify]
  refine running_request running fun answered same => ?_
  refine wp_mono (extend answered (same.running running)) ?_
  rintro totalValLength extended ⟨extendedRunning, agrees⟩
  refine ⟨extendedRunning.files, fun moved movedSame => ?_⟩
  have committed :
      Running registry
        { moved.keysIndexer with
          info :=
            { moved.keysIndexer.info with
              storageStateSlot := finalizedSlot
              lastValidatorsCount := totalValLength } }
        moved.disk :=
    { memory := by
        rw [movedSame.1]
        exact agrees
      files := (movedSame.running extendedRunning).files
      ahead := (movedSame.running extendedRunning).ahead }
  refine wp_mono (writeStorage_spec committed) ?_
  rintro _ written ⟨writtenRunning, _, sameStorage⟩
  have covered :
      Complete registry (diskStorage written.disk)
        written.keysIndexer.info.lastValidatorsCount := by
    rw [sameStorage]
    exact writtenRunning.memory.complete
  exact wp_mono (writeInfo_spec writtenRunning covered) fun _ _ final => final.1

/-- An update leaves a running index behind, whether it returns or fails. -/
theorem update_spec
    (honest : Honest registry consensus keysapi)
    (finalizedHeader : BlockHeaderResponse)
    (running : Running registry world.keysIndexer world.disk) :
    wp (protocol registry)
      (fun _ final => Running registry final.keysIndexer final.disk)
      (update config consensus keysapi finalizedHeader) world := by
  unfold update
  rw [wp_call]
  refine wp_mono
    (baseRun_spec (updateStorage_extends honest _ _) running)
    fun _ final finalRunning => ?_
  exact ⟨finalRunning.files, fun _ same => same.running finalRunning⟩

/-! ## Initialisation -/

/--
The info file is read and the storage file is not, although a validator with a
module key stands below the count of the info file.
-/
def HalfRead (registry : Registry) (fileReads : FileReads) (disk : Disk) : Prop :=
  fileReads.info = true ∧ fileReads.storage = false ∧
    ∃ valIndex, valIndex < diskCount disk ∧ (registry.entry valIndex).isSome

/-- Reading both files gives the memory the pair of the disk. -/
theorem readServiceData_spec
    {fileReads : FileReads}
    (whole : ¬ HalfRead registry fileReads world.disk)
    (files : Agrees registry (diskStorage world.disk) (diskCount world.disk)) :
    wp (protocol registry)
      (fun _ final =>
        Running registry final.keysIndexer final.disk ∧
          Complete registry (diskStorage final.disk)
            final.keysIndexer.info.lastValidatorsCount)
      (readServiceData config fileReads) world := by
  simp only [readServiceData, wp_bind, wp_modifyFields, wp_readFile]
  refine ⟨files, fun fresh sameFresh => ?_⟩
  obtain ⟨freshFields, freshDisk⟩ := sameFresh
  simp only at freshFields freshDisk
  rw [← freshDisk] at whole files
  have freshCount :
      (fresh.disk.keysIndexerInfo.getD fresh.keysIndexer.info).lastValidatorsCount =
        diskCount fresh.disk := by
    rw [freshFields, diskCount]
    cases fresh.disk.keysIndexerInfo <;> rfl
  cases infoRead : fileReads.info with
  | false =>
      exact
        { memory := by
            rw [freshFields]
            exact Agrees.empty registry
          files := files
          ahead := by
            intro initialized
            simp [isInitialized, freshFields, defaultInfo] at initialized }
  | true =>
      refine ⟨files, fun loaded sameLoaded => ?_⟩
      obtain ⟨loadedFields, loadedDisk⟩ := sameLoaded
      simp only at loadedFields loadedDisk
      rw [← loadedDisk] at whole files
      have loadedCount :
          loaded.keysIndexer.info.lastValidatorsCount = diskCount loaded.disk := by
        rw [loadedFields, loadedDisk]
        exact freshCount
      have loadedStorage : loaded.keysIndexer.storage = ∅ := by
        rw [loadedFields, freshFields]
      cases storageRead : fileReads.storage with
      | false =>
          have agrees :
              Agrees registry loaded.keysIndexer.storage (diskCount loaded.disk) := by
            rw [loadedStorage]
            exact
              { sound := (Agrees.empty registry).sound
                complete := fun valIndex below isModuleKey =>
                  (whole ⟨infoRead, storageRead, valIndex, below, isModuleKey⟩).elim }
          exact
            { memory := by
                rw [loadedCount]
                exact agrees
              files := files
              ahead := fun _ => agrees.complete }
      | true =>
          have pair :
              Agrees registry
                (loaded.disk.keysIndexerStorage.getD loaded.keysIndexer.storage)
                (diskCount loaded.disk) := by
            rw [loadedStorage]
            exact files
          exact
            ⟨{ memory := by
                 rw [loadedCount]
                 exact pair
               files := files
               ahead := pair.complete },
              by
                rw [loadedCount]
                exact files.complete⟩

/-- A module that is found is written into the service data. -/
theorem findModule_spec
    (running : Running registry world.keysIndexer world.disk)
    (covered :
      Complete registry (diskStorage world.disk)
        world.keysIndexer.info.lastValidatorsCount) :
    wp (protocol registry)
      (fun _ final => Running registry final.keysIndexer final.disk)
      (findModule keysapi) world := by
  simp only [findModule, wp_bind, wp_read]
  split
  · rw [wp_bind]
    refine running_request running fun answered same => ?_
    have answeredRunning := same.running running
    split
    · rw [wp_bind, wp_tick]
      exact ⟨answeredRunning.files, fun moved moves =>
        (moves.running answeredRunning).consistent⟩
    · next module _ =>
      rw [wp_bind, wp_modifyFields]
      rw [← same.1, ← same.2] at covered
      have identified :
          Running registry
            { answered.keysIndexer with
              info := { answered.keysIndexer.info with moduleId := module.id } }
            answered.disk :=
        { memory := answeredRunning.memory
          files := answeredRunning.files
          ahead := answeredRunning.ahead }
      exact wp_mono (writeInfo_spec identified covered) fun _ _ final => final.1
  · exact running

/-- An initialisation that returns has the index running. -/
theorem initOrReadServiceData_spec
    {fileReads : FileReads}
    (honest : Honest registry consensus keysapi)
    (whole : ¬ HalfRead registry fileReads world.disk)
    (files : Agrees registry (diskStorage world.disk) (diskCount world.disk)) :
    wp (protocol registry)
      (fun _ final => Running registry final.keysIndexer final.disk)
      (initOrReadServiceData config consensus keysapi fileReads) world := by
  simp only [initOrReadServiceData, wp_bind, wp_read]
  refine wp_mono (readServiceData_spec whole files) ?_
  rintro _ loaded ⟨loadedRunning, covered⟩
  refine wp_mono (findModule_spec loadedRunning covered) ?_
  intro _ found foundRunning
  split
  · rw [wp_bind, wp_settle]
    refine ⟨foundRunning.files, fun moved same => ?_⟩
    have movedRunning := same.running foundRunning
    refine ⟨?_, movedRunning.consistent⟩
    simp only [wp_bind, wp_read]
    exact baseRun_spec (initStorage_extends honest _ _) movedRunning
  · exact foundRunning

end Specs

/-! ## Runs -/

/-- One task of the daemon that changes the index, with the answers it is given. -/
inductive Task where
  | init (fileReads : FileReads)
  | update (finalizedHeader : BlockHeaderResponse)
  deriving DecidableEq

/-- What happens next: a task that runs through a script, or a crash between tasks. -/
inductive Step where
  | attempt (task : Task) (consensus : Consensus) (keysapi : Keysapi)
      (script : List (Beat BlockHeaderResponse))
  | crash

section Runs

variable (config : Config)

/-- The loop initialises an index that is not initialised, and updates one that is. -/
def Task.program (consensus : Consensus) (keysapi : Keysapi) : Task → Async World Unit
  | .init fileReads => do
      let world ← read
      if isInitialized world then
        return ()
      initOrReadServiceData config consensus keysapi fileReads
  | .update finalizedHeader => do
      let world ← read
      if isInitialized world then
        KeysIndexer.update config consensus keysapi finalizedHeader

/-- A new process: nothing is read yet. -/
def restart (world : World) : World :=
  { world with keysIndexer := { info := defaultInfo config, storage := ∅ } }

/-- The finalized header moves while a task is suspended. -/
def observe (finalizedHeader : BlockHeaderResponse) (world : World) : World :=
  { world with finalizedHeader := finalizedHeader }

/-- An attempt that is cut or fails leaves what it has written, a crash the files. -/
def Step.perform (world : World) : Step → World
  | .attempt task consensus keysapi script =>
      leave (restart config)
        (run observe (task.program config consensus keysapi) script world)
  | .crash => restart config world

/-- The worlds a run passes through, the last one last. -/
def perform (world : World) (steps : List Step) : World :=
  steps.foldl (Step.perform config) world

/-- An initialisation that reads half of the index. -/
def Task.HalfReads (registry : Registry) (world : World) : Task → Prop
  | .init fileReads =>
      isInitialized world = false ∧ HalfRead registry fileReads world.disk
  | .update _ => False

/-- Whether an initialisation reads one file of an index and not the other. -/
def Step.HalfReads (registry : Registry) (world : World) : Step → Prop
  | .attempt task _ _ _ => task.HalfReads registry world
  | .crash => False

/-- No step of the run reads half of the index. -/
def ReadsWhole (registry : Registry) : World → List Step → Prop
  | _, [] => True
  | world, step :: rest =>
      ¬ step.HalfReads registry world ∧
        ReadsWhole registry (step.perform config world) rest

/-- The answers a step is given are drawn from the registry. -/
def Step.Honest (registry : Registry) : Step → Prop
  | .attempt _ consensus keysapi _ => KeysIndex.Honest registry consensus keysapi
  | .crash => True

end Runs

section Invariant

variable {registry : Registry} {config : Config} {world : World}

/-- After a restart the index is empty, and the files are as they were. -/
theorem restart_consistent
    (files : Agrees registry (diskStorage world.disk) (diskCount world.disk)) :
    Consistent registry (restart config world) where
  memory := Agrees.empty registry
  files := files
  ahead := by
    intro initialized
    simp [restart, isInitialized, defaultInfo] at initialized

/-- Every task that is not a half read keeps the index consistent. -/
theorem program_spec
    {consensus : Consensus}
    {keysapi : Keysapi}
    {task : Task}
    (honest : Honest registry consensus keysapi)
    (consistent : Consistent registry world)
    (whole : ¬ task.HalfReads registry world) :
    wp (protocol registry)
      (fun _ final => Consistent registry final)
      (task.program config consensus keysapi) world := by
  cases task with
  | init fileReads =>
      simp only [Task.program, wp_bind, wp_read]
      split
      · exact consistent
      · next notInitialized =>
          rw [Bool.not_eq_true] at notInitialized
          exact wp_mono
            (initOrReadServiceData_spec honest
              (fun half => whole ⟨notInitialized, half⟩) consistent.files)
            fun _ _ running => running.consistent
  | update finalizedHeader =>
      simp only [Task.program, wp_bind, wp_read]
      split
      · next initialized =>
          exact wp_mono
            (update_spec honest finalizedHeader (consistent.running initialized))
            fun _ _ updated => Running.consistent updated
      · exact consistent

/-- Step lemma: every step that does not read half of the index keeps both pairs. -/
theorem perform_consistent
    {step : Step}
    (honest : step.Honest registry)
    (consistent : Consistent registry world)
    (whole : ¬ step.HalfReads registry world) :
    Consistent registry (step.perform config world) := by
  cases step with
  | crash =>
      exact restart_consistent consistent.files
  | attempt task consensus keysapi script =>
      have allowed :
          ∀ finalizedHeader state,
            (protocol registry).rely state (observe finalizedHeader state) :=
        fun _ _ => ⟨rfl, rfl⟩
      exact Established.leave (restart config) (Consistent registry)
        (fun _ files => restart_consistent files)
        (fun _ _ aborted => aborted)
        (fun _ _ returned => returned)
        (run_sound (protocol_stable registry) allowed
          (program_spec honest consistent whole) script)

/-- Run lemma: both pairs agree with the registry after every run. -/
theorem run_consistent
    {steps : List Step}
    (honest : ∀ step ∈ steps, step.Honest registry)
    (consistent : Consistent registry world)
    (whole : ReadsWhole config registry world steps) :
    Consistent registry (perform config world steps) := by
  induction steps generalizing world with
  | nil =>
      exact consistent
  | cons step rest inductionHypothesis =>
      exact inductionHypothesis
        (fun later member => honest later (by simp [member]))
        (perform_consistent (honest step (by simp)) consistent whole.1)
        whole.2

end Invariant

/-! ## Completeness of the index -/

/-- A pair of storage and info holds the module's keys of its validators and no others. -/
structure Indexed (registry : Registry) (storage : KeysIndexerServiceStorage)
    (lastValidatorsCount : Nat) : Prop where
  present :
    ∀ valIndex, valIndex < lastValidatorsCount →
      (storage[valIndex]?.isSome ↔
        (registry.moduleKey (registry.validators valIndex)).isSome)
  carries :
    ∀ valIndex keyInfo,
      storage[valIndex]? = some keyInfo →
      keyInfo.pubKey = registry.validators valIndex ∧
        registry.moduleKey keyInfo.pubKey =
          some (keyInfo.operatorId, keyInfo.keyIndex)

/-- Agreement has every validator seen that has a key. -/
theorem Agrees.indexed
    {registry : Registry}
    {storage : KeysIndexerServiceStorage}
    {count : Nat}
    (agrees : Agrees registry storage count) :
    Indexed registry storage count where
  present := by
    intro valIndex below
    rw [agrees.lookup below, Registry.entry, Option.isSome_map]
  carries := by
    intro valIndex keyInfo found
    obtain ⟨moduleKey, samePubKey⟩ :=
      (registry.entry_eq_some valIndex keyInfo).mp
        (agrees.sound valIndex keyInfo found)
    exact ⟨samePubKey, samePubKey ▸ moduleKey⟩

/-- The index `initStorage` builds from nothing. -/
def scratchStorage (consensus : Consensus) (keysapi : Keysapi)
    (stateRoot : RootHex) (moduleId : Nat) : KeysIndexerServiceStorage :=
  let result := getNewValidatorKeys (consensus.state stateRoot) 0
  initEntries (keysMap (keysapi.moduleKeys moduleId).keys) result.valKeys
    result.totalValLength ∅

/-- A storage holds what an index built from nothing holds, wherever both reach. -/
def SameAsScratch (registry : Registry) (storage : KeysIndexerServiceStorage)
    (lastValidatorsCount : Nat) : Prop :=
  ∀ consensus keysapi stateRoot moduleId,
    Honest registry consensus keysapi →
    ∀ valIndex,
      valIndex < lastValidatorsCount →
      valIndex < (consensus.state stateRoot).validators.length →
      storage[valIndex]? =
        (scratchStorage consensus keysapi stateRoot moduleId)[valIndex]?

/-- Agreement is what an index built at once would have. -/
theorem Agrees.sameAsScratch
    {registry : Registry}
    {storage : KeysIndexerServiceStorage}
    {count : Nat}
    (agrees : Agrees registry storage count) :
    SameAsScratch registry storage count := by
  intro consensus keysapi stateRoot moduleId honest valIndex below listed
  obtain ⟨used, appeared, answers, _⟩ := honest.answers
  have scratch :=
    initEntries_agrees (honest.shows stateRoot) (answers moduleId)
      (appeared stateRoot) (Agrees.empty registry).sound
  rw [agrees.lookup below]
  exact (scratch.lookup listed).symm

/--
From a first start without files, every run that never reads half of the index
leaves a complete and correct index in memory and on disk.  A run may end inside
an attempt, so the files are complete at every point of it.
-/
theorem index_complete
    (registry : Registry)
    (config : Config)
    (world : World)
    (noInfo : world.disk.keysIndexerInfo = none)
    (noStorage : world.disk.keysIndexerStorage = none)
    (steps : List Step)
    (honest : ∀ step ∈ steps, step.Honest registry)
    (whole : ReadsWhole config registry (restart config world) steps) :
    let final := perform config (restart config world) steps
    (Indexed registry final.keysIndexer.storage
        final.keysIndexer.info.lastValidatorsCount ∧
      SameAsScratch registry final.keysIndexer.storage
        final.keysIndexer.info.lastValidatorsCount) ∧
    (Indexed registry (diskStorage final.disk) (diskCount final.disk) ∧
      SameAsScratch registry (diskStorage final.disk) (diskCount final.disk)) := by
  have files : Agrees registry (diskStorage world.disk) (diskCount world.disk) := by
    rw [diskStorage, diskCount, noInfo, noStorage]
    exact Agrees.empty registry
  have final := run_consistent honest (restart_consistent files) whole
  exact
    ⟨⟨final.memory.indexed, final.memory.sameAsScratch⟩,
      final.files.indexed, final.files.sameAsScratch⟩

/-! ### A registry with one module key -/

section Sample

/-- Validators numbered by their public keys; the first one is a module key. -/
def sampleRegistry : Registry where
  validators := id
  distinct := fun _ _ same => same
  moduleKey := fun pubKey => if pubKey = 0 then some (7, 0) else none

/-- A used key of operator 7. -/
def sampleKey : Key where
  index := 0
  key := 0
  used := true
  operatorIndex := 7

def sampleValidator (pubKey : PubKey) : Validator where
  pubkey := pubKey
  withdrawalCredentials := 0
  effectiveBalance := 0
  slashed := false
  activationEligibilityEpoch := 0
  activationEpoch := 0
  exitEpoch := ⊤
  withdrawableEpoch := ⊤

/-- The canonical header of a slot, one above its parent. -/
def sampleHeader (slot : Nat) : BlockHeaderResponse where
  root := slot
  canonical := true
  message :=
    { slot := slot
      proposerIndex := 0
      parentRoot := slot - 1
      stateRoot := slot
      bodyRoot := slot }

/-- The state of a root lists as many validators as the root's number. -/
def sampleConsensus : Consensus where
  genesisTimestamp := 0
  beaconConfig := .mainnet
  blockInfo := fun root =>
    { slot := root
      parentRoot := root - 1
      blockHash := root
      withdrawals := []
      proposerSlashings := []
      attesterSlashings := [] }
  beaconHeader := sampleHeader
  beaconHeadersByParentRoot := fun root =>
    { finalized := true, data := [sampleHeader (root + 1)] }
  state := fun root =>
    { validators := (List.range root).map sampleValidator, balances := [] }
  stateAtSlot := fun slot =>
    { validators := (List.range slot).map sampleValidator, balances := [] }

def sampleKeysapi : Keysapi where
  modules := [{ id := 3, stakingModuleAddress := "0xab" }]
  moduleKeys := fun _ =>
    { keys := [sampleKey], elBlockSnapshot := { timestamp := 24 } }
  findModuleKeys := fun _ requested =>
    { keys := [sampleKey].filter (·.key ∈ requested)
      elBlockSnapshot := { timestamp := 24 } }

theorem sample_honest :
    Honest sampleRegistry sampleConsensus sampleKeysapi where
  shows := by
    intro stateRoot
    simp [Registry.Shows, sampleConsensus, sampleRegistry, sampleValidator,
      Function.comp_def]
  answers := by
    have isSampleKey (key : Key) :
        key = sampleKey ↔
          key.used = true ∧
            sampleRegistry.moduleKey key.key =
              some (key.operatorIndex, key.index) := by
      obtain ⟨index, pubKey, used, operatorIndex⟩ := key
      simp only [sampleKey, sampleRegistry, Key.mk.injEq]
      split <;> simp <;> tauto
    refine ⟨fun _ => True, fun _ _ _ _ => trivial, fun _ key => ?_,
      fun _ requested key => ?_⟩
    · simp [sampleKeysapi, isSampleKey]
    · simp only [sampleKeysapi, List.mem_filter, List.mem_singleton,
        decide_eq_true_eq, true_and, isSampleKey, and_assoc]

/-- The default configuration of the module. -/
def sampleConfig : Config :=
  .defaults "0xAB" 1

/-- A process that starts without files at a finalized slot 2. -/
def sampleWorld : World :=
  restart sampleConfig (.blank (sampleHeader 2))

/-- A task with nobody else about. -/
def quietly (task : Task) : Step :=
  .attempt task sampleConsensus sampleKeysapi
    (List.replicate 20 (.quiet .resolved))

/-- An index that is built, updated, lost with its process and read again. -/
def sampleRun : List Step :=
  [quietly (.init { info := true, storage := true }),
    quietly (.update (sampleHeader 3)),
    .crash,
    quietly (.init { info := true, storage := true }),
    quietly (.update (sampleHeader 1))]

set_option maxRecDepth 4000 in
theorem index_complete_sample :
    (perform sampleConfig sampleWorld sampleRun).keysIndexer.storage[0]? =
        some { operatorId := 7, keyIndex := 0, pubKey := 0 } ∧
      Indexed sampleRegistry
        (perform sampleConfig sampleWorld sampleRun).keysIndexer.storage
        (perform sampleConfig sampleWorld sampleRun).keysIndexer.info.lastValidatorsCount :=
  ⟨by decide,
    (index_complete sampleRegistry sampleConfig (.blank (sampleHeader 2)) rfl rfl
      sampleRun
      (by
        intro step member
        simp only [sampleRun, quietly, List.mem_cons, List.not_mem_nil, or_false] at member
        rcases member with rfl | rfl | rfl | rfl | rfl
        all_goals first | exact sample_honest | trivial)
      (by
        simp [ReadsWhole, sampleRun, quietly, Step.HalfReads, Task.HalfReads, HalfRead])).1.1⟩

/-- A restart whose read of the storage file is rejected. -/
def halfRun : List Step :=
  [quietly (.init { info := true, storage := true }),
    .crash,
    quietly (.init { info := true, storage := false })]

set_option maxRecDepth 4000 in
/--
After the half read the daemon goes on as initialised, with two validators in
the info and no key in the storage; the next update writes that to the files.
-/
theorem index_lost_after_half_read :
    (∀ step ∈ halfRun, step.Honest sampleRegistry) ∧
      isInitialized (perform sampleConfig sampleWorld halfRun) = true ∧
      ¬ Indexed sampleRegistry
          (perform sampleConfig sampleWorld halfRun).keysIndexer.storage
          (perform sampleConfig sampleWorld halfRun).keysIndexer.info.lastValidatorsCount ∧
      ¬ Indexed sampleRegistry
          (diskStorage
            (perform sampleConfig sampleWorld
              (halfRun ++ [quietly (.update (sampleHeader 3))])).disk)
          (diskCount
            (perform sampleConfig sampleWorld
              (halfRun ++ [quietly (.update (sampleHeader 3))])).disk) := by
  refine ⟨?_, by decide, ?_, ?_⟩
  · intro step member
    simp only [halfRun, quietly, List.mem_cons, List.not_mem_nil, or_false] at member
    rcases member with rfl | rfl | rfl
    all_goals first | exact sample_honest | trivial
  · intro indexed
    exact absurd ((indexed.present 0 (by decide)).mpr (by decide)) (by decide)
  · intro indexed
    exact absurd ((indexed.present 0 (by decide)).mpr (by decide)) (by decide)

end Sample

end KeysIndex

end CsmProver
