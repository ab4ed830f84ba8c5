import CsmProver.DaemonWalk
import CsmProver.IndexInUse

namespace CsmProver

/-!
# The index of the daemon

The loop initialises the index before it starts any task, and from then on one
task at a time updates it while the duties look keys up.  So once there are tasks
the index in memory agrees with the registry, at every point of every interleaving,
and the files agree with it all the time: the next process finds them so wherever
this one is killed.
-/

open Async
open KeysIndex

/-! ## What leaves the index alone -/

/-- The index, its files and the finalized header stay as they are. -/
structure LeavesIndex (world moved : World) : Prop extends KeepsIndex world moved where
  finalizedHeader : moved.finalizedHeader = world.finalizedHeader

theorem leavesIndex_refl
    (world : World) :
    LeavesIndex world world :=
  ⟨keepsIndex_refl world, rfl⟩

/-- The duties leave the index alone. -/
theorem leavesIndex_dutyFrame :
    DutyFrame LeavesIndex where
  refl := leavesIndex_refl
  trans := fun earlier later =>
    ⟨keepsIndex_trans earlier.toKeepsIndex later.toKeepsIndex,
      later.finalizedHeader.trans earlier.finalizedHeader⟩
  allKeysLookup := fun _ => ⟨⟨rfl, rfl, rfl⟩, rfl⟩
  keyLookups := fun _ _ _ _ => ⟨⟨rfl, rfl, rfl⟩, rfl⟩
  balanceMined := fun _ _ _ => ⟨⟨rfl, rfl, rfl⟩, rfl⟩
  proofMined := fun _ _ _ => ⟨⟨rfl, rfl, rfl⟩, rfl⟩

/-- So does the stack of roots. -/
theorem leavesIndex_stackFrame :
    StackFrame LeavesIndex where
  refl := leavesIndex_refl
  rootsStack := fun _ _ => ⟨⟨rfl, rfl, rfl⟩, rfl⟩
  files := fun _ _ _ => ⟨⟨rfl, rfl, rfl⟩, rfl⟩
  event := fun _ _ _ => ⟨⟨rfl, rfl, rfl⟩, rfl⟩

namespace DaemonService

/-- What everybody but the task of the index does. -/
structure BesideIndex (state moved : DaemonState) : Prop where
  running : moved.running .updateKeysIndexer = state.running .updateKeysIndexer
  world : KeepsIndex state.world moved.world
  finalized : Finalized state.world → Finalized moved.world

theorem besideIndex_refl
    (state : DaemonState) :
    BesideIndex state state :=
  ⟨rfl, keepsIndex_refl state.world, id⟩

/-- What does not touch the world and the flag is beside the index. -/
theorem besideIndex_of_same
    {state moved : DaemonState}
    (running : moved.running .updateKeysIndexer = state.running .updateKeysIndexer)
    (world : moved.world = state.world) :
    BesideIndex state moved where
  running := running
  world := world ▸ keepsIndex_refl state.world
  finalized := world ▸ id

theorem besideIndex_trans
    {first middle last : DaemonState}
    (earlier : BesideIndex first middle)
    (later : BesideIndex middle last) :
    BesideIndex first last where
  running := later.running.trans earlier.running
  world := keepsIndex_trans earlier.world later.world
  finalized := later.finalized ∘ earlier.finalized

/-- A program of the world that leaves the index alone is beside it. -/
theorem onWorld_besideIndex
    {α : Type}
    {program : Async World α}
    (leaves : program.Guarantees LeavesIndex) :
    (onWorld program).Guarantees BesideIndex := by
  refine guarantees_zoom (fun state moved moves => ⟨rfl, moves.toKeepsIndex, ?_⟩) leaves
  intro finalized
  change 0 < moved.finalizedHeader.message.slot
  rw [moves.finalizedHeader]
  exact finalized

/-! ## Phases of the index -/

section Phases

variable (registry : Registry)

/-- The index is initialised and agrees with the registry, on disk as in memory. -/
def Provides (state : DaemonState) : Prop :=
  InService registry state.world ∧ Finalized state.world

/-- A task has the index. -/
abbrev HasIndex : DaemonState → Prop :=
  Holds .updateKeysIndexer (Provides registry)

/-- The index waits for its next update. -/
abbrev IndexFree : DaemonState → Prop :=
  Clear .updateKeysIndexer (Provides registry)

/-- The tasks leave the index to one of them. -/
abbrev Serving (pool : Pool DaemonState) : Prop :=
  pool.Exclusive BesideIndex (HasIndex registry) (IndexFree registry)

/-- No task is started yet, and the files agree with the registry. -/
structure Starting (pool : Pool DaemonState) : Prop where
  tasks : pool.tasks = []
  running : pool.shared.running .updateKeysIndexer = false
  files :
    Agrees registry (diskStorage pool.shared.world.disk) (diskCount pool.shared.world.disk)
  finalized : Finalized pool.shared.world

/-- No task is started yet, and the index is not being initialised. -/
def Unstarted (pool : Pool DaemonState) : Prop :=
  Starting registry pool ∧ Consistent registry pool.shared.world

/-- The phase of the daemon while the loop waits. -/
def Phased (pool : Pool DaemonState) : Prop :=
  Starting registry pool ∨ Serving registry pool

/-- The phase of the daemon between two rounds of the loop. -/
def BetweenRounds (pool : Pool DaemonState) : Prop :=
  Unstarted registry pool ∨ Serving registry pool

/-- What the tasks and the outside may do while the loop waits. -/
structure PhaseMoves (pool moved : Pool DaemonState) : Prop where
  starting :
    Starting registry pool →
    Starting registry moved ∧ SameIndex pool.shared.world moved.shared.world
  serving : Serving registry pool → Serving registry moved

end Phases

variable {registry : Registry}

/-- Whoever has the index keeps it, whatever is done beside it. -/
theorem besideIndex_region :
    Pool.Region BesideIndex (HasIndex registry) (IndexFree registry) where
  refl := besideIndex_refl
  trans := besideIndex_trans
  heldStays := fun _ _ held beside =>
    ⟨beside.running.trans held.1, beside.world.inService held.2.1, beside.finalized held.2.2⟩
  freeStays := fun _ _ free beside =>
    ⟨beside.running.trans free.1, beside.world.inService free.2.1, beside.finalized free.2.2⟩

/-- While the tasks serve the index, it is initialised and agrees. -/
theorem Serving.provides
    {pool : Pool DaemonState}
    (serving : Serving registry pool) :
    Provides registry pool.shared := by
  rcases serving.held_or_free with held | free
  · exact held.2
  · exact free.2

/-- The index is served on while the loop waits. -/
theorem steady_serving :
    Steady (PhaseMoves registry) (Phased registry) (Serving registry) where
  suspends := .inr
  stays := fun serving moves => moves.serving serving

/-- Nothing starts while the loop waits before its first round. -/
theorem Unstarted.moved
    {pool moved : Pool DaemonState}
    (unstarted : Unstarted registry pool)
    (moves : PhaseMoves registry pool moved) :
    Unstarted registry moved := by
  obtain ⟨starting, same⟩ := moves.starting unstarted.1
  have consistent :
      (KeysIndex.protocol registry).aborted .rejected moved.shared.world :=
    (KeysIndex.protocol_stable registry).aborted unstarted.2 same
  exact ⟨starting, consistent⟩

/-- Between two rounds the daemon is in one of the two phases, and stays in it. -/
theorem steady_betweenRounds :
    Steady (PhaseMoves registry) (Phased registry) (BetweenRounds registry) where
  suspends := Or.imp_left And.left
  stays := fun between moves =>
    between.imp (fun unstarted => unstarted.moved moves) moves.serving

/-- An index that is found initialised is in service. -/
theorem BetweenRounds.serving
    {pool : Pool DaemonState}
    (between : BetweenRounds registry pool)
    (initialized : KeysIndexer.isInitialized pool.shared.world = true) :
    Serving registry pool := by
  rcases between with ⟨starting, consistent⟩ | serving
  · refine .inl ⟨⟨starting.running, ⟨consistent.running initialized, initialized⟩,
      starting.finalized⟩, ?_⟩
    rw [Pool.Guarantees, starting.tasks]
    simp
  · exact serving

/-! ## Initialisation -/

section Loop

variable {config : Config} {balances : Bool} {answers : Answers}

/-- An initialisation has the daemon for itself. -/
def alone (registry : Registry) : Async.Protocol DaemonState where
  rely := fun state moved =>
    moved.running .updateKeysIndexer = state.running .updateKeysIndexer ∧
      SameIndex state.world moved.world ∧ (Finalized state.world → Finalized moved.world)
  suspended :=
    Clear .updateKeysIndexer fun state =>
      Agrees registry (diskStorage state.world.disk) (diskCount state.world.disk) ∧
        Finalized state.world
  aborted := fun _ =>
    Clear .updateKeysIndexer fun state =>
      Consistent registry state.world ∧ Finalized state.world

/-- An initialisation that returns has the index agree with the registry. -/
theorem initOrReadServiceData_provides
    (honest : Honest registry answers.consensus answers.keysapi)
    (identified : ∀ module ∈ answers.keysapi.modules, module.id ≠ 0)
    {state : DaemonState}
    (isClear : state.running .updateKeysIndexer = false)
    (whole : ¬ HalfRead registry answers.fileReads state.world.disk)
    (files : Agrees registry (diskStorage state.world.disk) (diskCount state.world.disk))
    (finalized : Finalized state.world) :
    wp (alone registry) (fun _ => IndexFree registry)
      (onWorld <| call <|
        KeysIndexer.initOrReadServiceData config answers.consensus answers.keysapi
          answers.fileReads) state := by
  have agrees :=
    wp_call_of_stays
      (@initOrReadServiceData_spec registry config answers.consensus answers.keysapi
        state.world answers.fileReads honest whole files)
      (fun _ _ running => running.files) fun _ _ _ running same => same.running running
  have initializes :=
    wp_call_of_stays
      (@initOrReadServiceData_initializes config answers.consensus answers.keysapi
        state.world answers.fileReads identified finalized)
      (fun _ _ initialized => initialized.2) fun _ final moved initialized relied => by
        refine ⟨?_, relied.2 initialized.2⟩
        unfold KeysIndexer.isInitialized
        rw [relied.1]
        exact initialized.1
  have zoomed :=
    @wp_zoom _ _ _ DaemonState.world (fun world state => { state with world := world })
      _ (alone registry) (fun state => state.running .updateKeysIndexer = false) _ _ state
      (wp_and agrees initializes) isClear (fun _ _ => rfl) (fun _ _ => id)
      (fun flag _ relied => ⟨relied.1.trans flag, relied.2.1, relied.2.1.1, relied.2.2⟩)
      (fun _ flag suspended => ⟨flag, suspended⟩)
      (fun _ _ flag aborted => ⟨flag, aborted⟩)
  refine wp_mono zoomed ?_
  rintro _ final ⟨flag, running, initialized, stillFinalized⟩
  exact ⟨flag, ⟨running, initialized⟩, stillFinalized⟩

/-- An initialisation that no task sees puts the index in service, or leaves it to a retry. -/
theorem initKeysIndexer_serves
    (honest : Honest registry answers.consensus answers.keysapi)
    (whole : answers.fileReads.info = true → answers.fileReads.storage = true)
    (identified : ∀ module ∈ answers.keysapi.modules, module.id ≠ 0)
    {pool : Pool DaemonState}
    (between : BetweenRounds registry pool) :
    wp
      { rely := PhaseMoves registry
        suspended := Phased registry
        aborted := fun _ => BetweenRounds registry }
      (fun _ => Serving registry) (initKeysIndexer config answers) pool := by
  simp only [initKeysIndexer, wp_bind, wp_read]
  split
  · next notInitialized =>
      have unstarted : Unstarted registry pool := by
        refine between.resolve_right fun serving => notInitialized ?_
        exact serving.provides.1.initialized
      obtain ⟨starting, _⟩ := unstarted
      have half : ¬ HalfRead registry answers.fileReads pool.shared.world.disk := by
        rintro ⟨info, storage, _⟩
        simp [whole info] at storage
      have zoomed :=
        @wp_zoom _ _ _ Pool.shared (fun shared pool => { pool with shared := shared })
          (alone registry)
          { rely := PhaseMoves registry
            suspended := Phased registry
            aborted := fun _ => BetweenRounds registry }
          (fun pool => pool.tasks = []) _ _ pool
          (@initOrReadServiceData_provides registry config answers honest identified
            pool.shared starting.running half starting.files starting.finalized)
          starting.tasks (fun _ _ => rfl) (fun _ _ => id) ?_ ?_ ?_
      · refine wp_mono zoomed ?_
        rintro _ final ⟨noTasks, free⟩
        refine .inl ⟨free, ?_⟩
        rw [Pool.Guarantees, noTasks]
        simp
      · rintro pool moved noTasks ⟨flag, files, finalized⟩ moves
        obtain ⟨movedStarting, same⟩ := moves.starting ⟨noTasks, flag, files, finalized⟩
        exact ⟨movedStarting.tasks, movedStarting.running.trans flag.symm, same,
          fun _ => movedStarting.finalized⟩
      · exact fun pool noTasks suspended =>
          .inl ⟨noTasks, suspended.1, suspended.2.1, suspended.2.2⟩
      · exact fun _ pool noTasks aborted =>
          .inl ⟨⟨noTasks, aborted.1, aborted.2.1.files, aborted.2.2⟩, aborted.2.1⟩
  · next initialized =>
      exact between.serving (by simpa using initialized)

/-! ## Updates -/

/-- The task of an update has the index while it is inside. -/
theorem update_leads
    (honest : Honest registry answers.consensus answers.keysapi)
    {finalizedHeader : BlockHeaderResponse}
    (finalized : 0 < finalizedHeader.message.slot) :
    Leads BesideIndex (HasIndex registry) (HasIndex registry) (HasIndex registry)
      (onWorld <| call <|
        KeysIndexer.update config answers.consensus answers.keysapi finalizedHeader) := by
  refine ⟨fun state holds => ?_⟩
  obtain ⟨flag, inServiceNow, finalizedNow⟩ := holds
  have updates :=
    wp_call_of_stays
      (@update_inService registry config answers.consensus answers.keysapi state.world honest
        finalizedHeader finalized inServiceNow)
      (fun _ _ inService => inService) fun _ _ _ inService keeps => keeps.inService inService
  have moves :=
    guarantees_call
      (KeysIndexer.update_indexMoves config answers.consensus answers.keysapi finalizedHeader)
  have steady :
      Steady (fun world moved => Finalized world → Finalized moved) Finalized Finalized :=
    ⟨id, fun finalized relied => relied finalized⟩
  have staysFinalized :=
    (leads_of_guarantees steady
      (moves.mono fun moves finalized => by
        unfold Finalized
        rw [moves.finalizedHeader]
        exact finalized)).ends state.world finalizedNow
  have zoomed :=
    @wp_zoom _ _ _ DaemonState.world (fun world state => { state with world := world })
      _
      { rely := BesideIndex
        suspended := HasIndex registry
        aborted := fun _ => HasIndex registry }
      (fun state => state.running .updateKeysIndexer = true) _ _ state
      (wp_and updates staysFinalized) flag (fun _ _ => rfl) (fun _ _ => id)
      (fun flag _ beside => ⟨beside.running.trans flag, beside.world, beside.finalized⟩)
      (fun _ flag suspended => ⟨flag, suspended⟩)
      (fun _ _ flag aborted => ⟨flag, aborted⟩)
  exact zoomed

/-- The task of an update takes the index when it is free. -/
theorem updateKeysIndexer_serves
    (honest : Honest registry answers.consensus answers.keysapi)
    {finalizedHeader : BlockHeaderResponse}
    (finalized : 0 < finalizedHeader.message.slot) :
    Pool.KeepsExclusive BesideIndex (HasIndex registry) (IndexFree registry)
      (Pool.spawn (onCatch (updateKeysIndexer config answers finalizedHeader))) := by
  have region := @besideIndex_region registry
  have steady : Steady BesideIndex (HasIndex registry) (HasIndex registry) :=
    ⟨id, fun held beside => region.heldStays _ _ held beside⟩
  have leads :
      Leads BesideIndex (HasIndex registry) (IndexFree registry) (IndexFree registry)
        (updateKeysIndexer config answers finalizedHeader) :=
    singletonTask_leads steady (fun _ => id) (fun _ => id)
      (leads_trackTask steady (update_leads honest finalized))
  apply Pool.keepsExclusive_spawn_taking region
  · exact fun state free =>
      releases_onCatch region.freeStays (releases_of_wp (leads.ends state free))
  · exact fun state held =>
      passes_callCatching_bind region.refl region.trans
        (singletonTask_givesUp region.refl held.1) fun _ => trivial

/-! ## The loop -/

/-- The flags of the other tasks are none of its business. -/
theorem setRunning_besideIndex
    {method : TaskMethod}
    (other : method ≠ .updateKeysIndexer)
    (value : Bool)
    (state : DaemonState) :
    BesideIndex state (state.setRunning method value) :=
  besideIndex_of_same (running_setRunning_of_ne other value state) rfl

/-- The processing of a root leaves the index to its task. -/
theorem rootChain_besideIndex
    (finalizedHeader : BlockHeaderResponse)
    (nextRoot : RootHex) :
    (rootChain config balances answers finalizedHeader nextRoot).Guarantees
      BesideIndex :=
  rootChain_guarantees besideIndex_refl (setRunning_besideIndex (by decide))
    (fun _ _ => besideIndex_of_same rfl rfl) (fun _ => besideIndex_of_same rfl rfl)
    (onWorld_besideIndex
      (RootsProcessor.processNext_guarantees leavesIndex_dutyFrame leavesIndex_stackFrame
        config answers.consensus balances nextRoot finalizedHeader))

/-- So does the round of bad performers. -/
theorem processBadPerformers_besideIndex
    (finalizedHeader : BlockHeaderResponse) :
    (onCatch (processBadPerformers config answers finalizedHeader)).Guarantees
      BesideIndex := by
  refine guarantees_onCatch (singletonTask_guarantees besideIndex_refl
    (setRunning_besideIndex (by decide)) (trackTask_guarantees ?_))
  refine guarantees_zoom (fun state strikes _ => ?_) (guarantees_true _)
  exact besideIndex_of_same rfl rfl

/-- In service the index stays so, whatever a round of the loop starts. -/
theorem blocks_serve
    (honest : Honest registry answers.consensus answers.keysapi) :
    BlocksYield config balances answers (Serving registry) fun pool moved =>
      Serving registry pool → Serving registry moved := by
  have region := @besideIndex_region registry
  have onShared
      {α : Type}
      {program : Async DaemonState α}
      (beside : program.Guarantees BesideIndex) :
      (Pool.onShared program).Yields (Serving registry)
        (fun pool moved => Serving registry pool → Serving registry moved) fun _ => True :=
    yields_of_guarantees (Pool.keepsExclusive_onShared region beside)
  have unmoved
      {update : DaemonState → DaemonState}
      (running :
        ∀ state, (update state).running .updateKeysIndexer = state.running .updateKeysIndexer)
      (world : ∀ state, (update state).world = state.world) :
      (modify update).Guarantees BesideIndex :=
    (guarantees_modify _).mpr fun state => besideIndex_of_same (running state) (world state)
  have spawn
      {task : Async DaemonState Unit}
      (beside : task.Guarantees BesideIndex) :
      (Pool.spawn task).Yields (Serving registry)
        (fun pool moved => Serving registry pool → Serving registry moved) fun _ => True :=
    yields_of_guarantees (Pool.keepsExclusive_spawn region beside)
  exact
    { refl := fun _ => id
      record := fun _ => onShared (unmoved (fun _ => rfl) fun _ => rfl)
      lastFinalizedHeader := fun _ => onShared (unmoved (fun _ => rfl) fun _ => rfl)
      rootProcessing := onShared (unmoved (fun _ => rfl) fun _ => rfl)
      getNext := fun finalizedHeader =>
        onShared
          (onWorld_besideIndex
            (RootsProvider.getNext_guarantees leavesIndex_refl config answers.consensus
              finalizedHeader))
      updateKeysIndexer := fun seen serving =>
        yields_of_guarantees (updateKeysIndexer_serves honest serving.provides.2)
      processBadPerformers := fun _ _ => spawn (processBadPerformers_besideIndex _)
      rootChain := fun _ nextRoot _ => spawn (rootChain_besideIndex _ nextRoot) }

/-- Round lemma: a round that begins between rounds ends so. -/
theorem loopBody_between
    (honest : Honest registry answers.consensus answers.keysapi)
    (whole : answers.fileReads.info = true → answers.fileReads.storage = true)
    (identified : ∀ module ∈ answers.keysapi.modules, module.id ≠ 0) :
    Leads (PhaseMoves registry) (Phased registry) (BetweenRounds registry)
      (BetweenRounds registry) (loopBody config balances answers) := by
  have baseRun :
      Leads (PhaseMoves registry) (Phased registry) (Serving registry) (Serving registry)
        (baseRun config balances answers) :=
    leads_of_yields steady_serving (blocks_serve honest).baseRun_yields
  have round :
      Leads (PhaseMoves registry) (Phased registry) (BetweenRounds registry)
        (BetweenRounds registry)
        (initKeysIndexer config answers >>= fun _ =>
          call (DaemonService.baseRun config balances answers)) := by
    refine ⟨fun pool between => ?_⟩
    rw [wp_bind]
    refine wp_mono (initKeysIndexer_serves honest whole identified between) ?_
    intro _ started serving
    exact wp_weaken ((leads_call steady_serving baseRun).ends started serving) id
      (fun _ => id) (fun _ _ => .inr) fun _ _ => .inr
  exact leads_attempt_bind round fun _ => leads_tick steady_betweenRounds

end Loop

/-! ## Runs -/

/-- A turn of any task keeps the phase. -/
theorem phaseMoves_step
    (pool : Pool DaemonState)
    (index : Nat)
    (settles : Settle) :
    PhaseMoves registry pool (pool.step index settles) where
  starting := by
    intro starting
    have noStep : pool.step index settles = pool := by
      simp [Pool.step, starting.tasks]
    rw [noStep]
    exact ⟨starting, rfl, rfl⟩
  serving := fun serving => serving.step besideIndex_region index settles

/-- A new finalized header keeps the phase. -/
theorem phaseMoves_observe
    {finalizedHeader : BlockHeaderResponse}
    (finalized : 0 < finalizedHeader.message.slot)
    (pool : Pool DaemonState) :
    PhaseMoves registry pool
      { pool with shared := observe finalizedHeader pool.shared } where
  starting := fun starting =>
    ⟨⟨starting.tasks, starting.running, starting.files, finalized⟩, rfl, rfl⟩
  serving := fun serving =>
    serving.moved besideIndex_region ⟨rfl, ⟨rfl, rfl, rfl⟩, fun _ => finalized⟩

/--
The clients of a process answer from the registry, its reads of the two files fail
together or only for the first of them, the modules have ids and its finalized headers
lie after the genesis.
-/
structure Process.Knows (registry : Registry) (process : Process) : Prop where
  honest :
    ∀ iteration,
      Honest registry (process.answers iteration).consensus
        (process.answers iteration).keysapi
  whole :
    ∀ iteration,
      (process.answers iteration).fileReads.info = true →
      (process.answers iteration).fileReads.storage = true
  identified :
    ∀ iteration, ∀ module ∈ (process.answers iteration).keysapi.modules, module.id ≠ 0
  finalized :
    ∀ finalizedHeader,
      .outside finalizedHeader ∈ process.turns → 0 < finalizedHeader.message.slot

/-- A new process has read nothing of the index yet. -/
theorem consistent_restart
    {config : Config}
    {world : World}
    (files : Agrees registry (diskStorage world.disk) (diskCount world.disk)) :
    Consistent registry (restart config world) := by
  have consistent := @restart_consistent registry config world files
  exact
    { memory := consistent.memory
      files := consistent.files
      ahead := consistent.ahead }

/-- The index of a process is in a phase at every point of its run. -/
theorem runLoop_phased
    {config : Config}
    {balances : Bool}
    {process : Process}
    (knows : process.Knows registry)
    {world : World}
    (starts : Consistent registry world)
    (finalized : Finalized world)
    (strikes : StrikesWorld) :
    Phased registry
      (runLoop config balances process.answers world strikes process.turns).pool := by
  let protocol : Async.Protocol (Pool DaemonState) :=
    { rely := PhaseMoves registry
      suspended := Phased registry
      aborted := fun _ => BetweenRounds registry }
  have stable : protocol.Stable :=
    { refl := fun _ => ⟨fun starting => ⟨starting, rfl, rfl⟩, id⟩
      trans := by
        refine fun earlier later => ⟨fun starting => ?_, later.serving ∘ earlier.serving⟩
        obtain ⟨middleStarting, same⟩ := earlier.starting starting
        obtain ⟨lastStarting, sameAgain⟩ := later.starting middleStarting
        exact ⟨lastStarting, sameAgain.1.trans same.1, sameAgain.2.trans same.2⟩
      suspended := fun phased moves =>
        phased.imp (fun starting => (moves.starting starting).1) moves.serving
      aborted := fun between moves => steady_betweenRounds.stays between moves }
  have started :
      BetweenRounds registry { shared := .initial world strikes, tasks := [] } :=
    .inl ⟨⟨rfl, rfl, starts.files, finalized⟩, starts⟩
  have meets :
      (runLoop config balances process.answers world strikes process.turns).Meets protocol
        (BetweenRounds registry) := by
    apply Running.run_meets_of_moves stable _ _ phaseMoves_step _ started
    · exact fun _ _ between moves => steady_betweenRounds.stays between moves
    · exact fun iteration pool between =>
        (loopBody_between (knows.honest iteration) (knows.whole iteration)
          (knows.identified iteration)).ends pool between
    · exact fun pool finalizedHeader member =>
        phaseMoves_observe (knows.finalized finalizedHeader member) pool
  exact meets.holds (fun _ => id) (fun _ _ => steady_betweenRounds.suspends)
    fun _ => steady_betweenRounds.suspends

/-- In both phases the files agree with the registry. -/
theorem Phased.files
    {pool : Pool DaemonState}
    (phased : Phased registry pool) :
    Agrees registry (diskStorage pool.shared.world.disk)
      (diskCount pool.shared.world.disk) := by
  rcases phased with starting | serving
  · exact starting.files
  · exact serving.provides.1.running.files

/-- In both phases the finalized header lies after the genesis. -/
theorem Phased.finalized
    {pool : Pool DaemonState}
    (phased : Phased registry pool) :
    Finalized pool.shared.world := by
  rcases phased with starting | serving
  · exact starting.finalized
  · exact serving.provides.2

/-- The files a process leaves agree with the registry if those it found did. -/
theorem life_files
    {config : Config}
    {balances : Bool}
    {processes : List Process}
    (knows : ∀ process ∈ processes, process.Knows registry)
    {world : World}
    (files : Agrees registry (diskStorage world.disk) (diskCount world.disk))
    (finalized : Finalized world)
    (strikes : StrikesWorld) :
    let left := (life config balances world strikes processes).1
    Agrees registry (diskStorage left.disk) (diskCount left.disk) ∧ Finalized left := by
  induction processes generalizing world strikes with
  | nil =>
      exact ⟨files, finalized⟩
  | cons process rest inductionHypothesis =>
      have phased :=
        @runLoop_phased registry config balances process (knows process (by simp))
          (restart config world) (consistent_restart files) finalized strikes.restart
      exact inductionHypothesis (fun later member => knows later (by simp [member]))
        phased.files phased.finalized _

/--
The files of the index agree with the registry at every point of every interleaving of
the daemon, in each of its processes, wherever they are killed.  As soon as a process
has started a task, its index in memory is initialised and agrees with the registry as
well: it has the module's keys of all validators below its count, and no other entries.
-/
theorem daemon_index_agrees
    (registry : Registry)
    (config : Config)
    (balances : Bool)
    (world : World)
    (files : Agrees registry (diskStorage world.disk) (diskCount world.disk))
    (finalized : 0 < world.finalizedHeader.message.slot)
    (strikes : StrikesWorld)
    (earlier : List Process)
    (process : Process)
    (knows : ∀ member ∈ process :: earlier, member.Knows registry) :
    let left := life config balances world strikes earlier
    let pool :=
      (runLoop config balances process.answers (restart config left.1) left.2.restart
        process.turns).pool
    let index := pool.shared.world.keysIndexer
    Agrees registry (diskStorage pool.shared.world.disk)
        (diskCount pool.shared.world.disk) ∧
      (pool.tasks ≠ [] →
        Agrees registry index.storage index.info.lastValidatorsCount ∧
          KeysIndexer.isInitialized pool.shared.world = true) := by
  intro left pool index
  obtain ⟨leftFiles, leftFinalized⟩ :=
    @life_files registry config balances earlier
      (fun member isEarlier => knows member (by simp [isEarlier])) world files finalized
      strikes
  have phased : Phased registry pool :=
    runLoop_phased (knows process (by simp)) (consistent_restart leftFiles) leftFinalized _
  refine ⟨phased.files, fun hasTasks => ?_⟩
  rcases phased with starting | serving
  · exact (hasTasks starting.tasks).elim
  · exact ⟨serving.provides.1.running.memory, serving.provides.1.initialized⟩

/-! ### An update that is cut off between its two writes -/

/-- The clients of the index samples, in a daemon. -/
def sampleIndexAnswers : Answers :=
  { sampleAnswers with
    consensus := KeysIndex.sampleConsensus
    keysapi := KeysIndex.sampleKeysapi
    now := 1000000000000 }

/-- A process that sees a finalized header, and gives one of its tasks so many turns. -/
def sampleIndexProcess (task turns : Nat) : Process where
  answers := fun _ => sampleIndexAnswers
  turns :=
    List.replicate 20 (.loop .resolved) ++
      .outside (KeysIndex.sampleHeader 3) ::
        (List.replicate 8 (.loop .resolved) ++ List.replicate turns (.task task .resolved))

/-- The sample process answers from the sample registry. -/
theorem sampleIndexProcess_knows
    (task turns : Nat) :
    (sampleIndexProcess task turns).Knows KeysIndex.sampleRegistry where
  honest := fun _ => KeysIndex.sample_honest
  whole := fun _ => id
  identified := by
    intro _ module member
    simp only [sampleIndexProcess, sampleIndexAnswers, KeysIndex.sampleKeysapi,
      List.mem_singleton] at member
    rw [member]
    decide
  finalized := by
    intro finalizedHeader member
    simp only [sampleIndexProcess, List.mem_append, List.mem_cons, List.mem_replicate,
      reduceCtorEq, and_false, or_false, false_or, Turn.outside.injEq] at member
    rw [member]
    decide

set_option maxRecDepth 4000 in
theorem daemon_index_agrees_sample :
    let left :=
      life KeysIndex.sampleConfig false (.blank (KeysIndex.sampleHeader 2)) .fresh
        [sampleIndexProcess 2 5]
    let pool :=
      (runLoop KeysIndex.sampleConfig false (sampleIndexProcess 0 8).answers
        (restart KeysIndex.sampleConfig left.1) left.2.restart
        (sampleIndexProcess 0 8).turns).pool
    let index := pool.shared.world.keysIndexer
    diskCount left.1.disk = 2 ∧
      index.info.lastValidatorsCount = 3 ∧
      Agrees KeysIndex.sampleRegistry index.storage index.info.lastValidatorsCount := by
  refine ⟨by decide, by decide, ?_⟩
  exact
    ((daemon_index_agrees KeysIndex.sampleRegistry KeysIndex.sampleConfig false
      (.blank (KeysIndex.sampleHeader 2)) (Agrees.empty _) (by decide) .fresh
      [sampleIndexProcess 2 5] (sampleIndexProcess 0 8)
      (by
        intro member isMember
        simp only [List.mem_cons, List.not_mem_nil, or_false] at isMember
        rcases isMember with rfl | rfl <;> exact sampleIndexProcess_knows _ _)).2
      (by decide)).1

end DaemonService

end CsmProver
