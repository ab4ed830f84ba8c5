import CsmProver.Async.Resumes
import CsmProver.DaemonIndex
import CsmProver.DaemonReports

namespace CsmProver

/-!
# The keys of the module

What the duties look up while they run is in the index as it is then, and the index
agrees with the registry whenever a task is resumed.  So the daemon reports only keys
that the module has registered for a validator of the chain.
-/

open Async
open KeysIndex

/-- The module has registered the key for some validator of the chain. -/
def KeysIndex.Registry.HasKey (registry : Registry) (key : KeyId) : Prop :=
  ∃ valIndex keyInfo, registry.entry valIndex = some keyInfo ∧ keyInfo.id = key

/-- The index in memory has no wrong entry. -/
def IndexSound (registry : Registry) (world : World) : Prop :=
  Sound registry world.keysIndexer.storage

theorem LeavesIndex.sound
    {registry : Registry}
    {world moved : World}
    (sound : IndexSound registry world)
    (leaves : LeavesIndex world moved) :
    IndexSound registry moved := by
  unfold IndexSound
  rw [leaves.keysIndexer]
  exact sound

/-- A frame of reports and a frame of duties, for an invariant that the duties keep. -/
theorem ReportFrame.restrict
    {config : Config}
    {keys : KeyId → Prop}
    {inv : World → Prop}
    {reports relation : World → World → Prop}
    (frame : ReportFrame config keys (fun _ => True) reports)
    (duties : DutyFrame relation)
    (keeps : ∀ world moved, inv world → relation world moved → inv moved) :
    ReportFrame config keys inv fun world moved =>
      reports world moved ∧ relation world moved where
  refl := fun world => ⟨frame.refl world, duties.refl world⟩
  trans := fun earlier later =>
    ⟨frame.trans earlier.1 later.1, duties.trans earlier.2 later.2⟩
  keeps := fun world moved holds moves => keeps world moved holds moves.2
  keyLookups := fun duty keyInfoFn valIndices world =>
    ⟨frame.keyLookups duty keyInfoFn valIndices world,
      duties.keyLookups duty keyInfoFn valIndices world⟩
  allKeysLookup := fun world => ⟨frame.allKeysLookup world, duties.allKeysLookup world⟩
  proofMined := fun live kind key world isKey =>
    ⟨frame.proofMined live kind key world isKey, duties.proofMined kind key world⟩
  balanceMined := fun live key balanceGwei world isKey =>
    ⟨frame.balanceMined live key balanceGwei world isKey,
      duties.balanceMined key balanceGwei world⟩

/-! ## Lookups -/

section Lookups

variable {registry : Registry} (config : Config)

/-- The keys of the operators the daemon is configured for that the module has registered. -/
def Reportable (registry : Registry) (config : Config) (key : KeyId) : Prop :=
  KeysIndexer.isAllowedOperatorId config key.1 = true ∧ registry.HasKey key

theorem getKey_finds_registered :
    Finds (Reportable registry config) (IndexSound registry)
      (RootsProcessor.getKey config) := by
  intro world valIndex keyInfo sound found
  obtain ⟨inStorage, isAllowed⟩ := Option.filter_eq_some_iff.mp found
  exact ⟨isAllowed, valIndex, keyInfo, sound valIndex keyInfo inStorage, rfl⟩

theorem getAllKeys_finds_registered
    {world : World}
    (sound : IndexSound registry world) :
    ForKeys (Reportable registry config) id
      (KeysIndexer.getAllKeys config world.keysIndexer) := by
  intro entry member
  refine ⟨DaemonService.getAllKeys_finds config world.keysIndexer entry member, entry.1, entry.2, ?_, rfl⟩
  have listed := (List.mem_filter.mp member).1
  exact sound _ _ (Std.TreeMap.mem_toList_iff_getElem?_eq_some.mp listed)

end Lookups

namespace DaemonService

section Tasks

variable {registry : Registry} {config : Config} {balances : Bool} {answers : Answers}

/-- The proofs a live daemon may get mined. -/
abbrev Reported (registry : Registry) (config : Config) : World → World → Prop :=
  Reports fun key => Live config ∧ Reportable registry config key

/-- Processing a root reports registered keys, if the index is right when it is resumed. -/
theorem processNext_resumes
    (nextRoot : RootHex)
    (finalizedHeader : BlockHeaderResponse)
    (world : World) :
    (RootsProcessor.processNext config answers.consensus balances nextRoot
      finalizedHeader).Resumes (IndexSound registry) (Reported registry config) world := by
  have frame :
      ReportFrame config (Reportable registry config) (IndexSound registry)
        fun world moved => Reported registry config world moved ∧ LeavesIndex world moved :=
    reportFrame_reports.restrict leavesIndex_dutyFrame fun _ _ => LeavesIndex.sound
  have stack :
      StackFrame fun world moved =>
        Reported registry config world moved ∧ LeavesIndex world moved :=
    { refl := fun world => ⟨stackFrame_reports.refl world, leavesIndex_refl world⟩
      rootsStack := fun rootsStack world =>
        ⟨stackFrame_reports.rootsStack rootsStack world,
          leavesIndex_stackFrame.rootsStack rootsStack world⟩
      files := fun info storage world =>
        ⟨stackFrame_reports.files info storage world,
          leavesIndex_stackFrame.files info storage world⟩
      event := fun event isStackEvent world =>
        ⟨stackFrame_reports.event event isStackEvent world,
          leavesIndex_stackFrame.event event isStackEvent world⟩ }
  refine resumes_request_bind (fun moved holds => ?_) world
  have duties :=
    frame.runDuties_yields answers.consensus balances (getKey_finds_registered config)
      (fun _ sound => getAllKeys_finds_registered config sound) nextRoot
      (answers.consensus.blockInfo nextRoot) finalizedHeader
  exact
    resumes_of_yields frame.keeps (fun _ _ moves => moves.1)
      (yields_bind (yields_of_guarantees (guarantees_call (stack.push_guarantees _)))
        fun _ _ =>
          yields_bind duties fun _ _ =>
            yields_of_guarantees (stack.settleRoot_guarantees _ _))
      holds

/-- The task of a root rests on the index as its processing does. -/
theorem rootChain_resumes
    (finalizedHeader : BlockHeaderResponse)
    (nextRoot : RootHex) :
    ∀ state,
      (rootChain config balances answers finalizedHeader nextRoot).Resumes
        (fun state => IndexSound registry state.world) (OfWorld (Reported registry config))
        state := by
  have refl (state : DaemonState) : OfWorld (Reported registry config) state state :=
    keeping_reports.refl state.world
  have processNext (state : DaemonState) :
      (processNext config balances answers finalizedHeader nextRoot).Resumes
        (fun state => IndexSound registry state.world)
        (OfWorld (Reported registry config)) state := by
    refine resumes_read_bind refl (fun seen => ?_) state
    refine resumes_modify_bind refl fun state => ?_
    refine resumes_bind (resumes_attempt ?_) fun outcome =>
      resumes_modify_bind refl (resumes_ofOutcome outcome)
    have resumes :
        (RootsProcessor.processNext config answers.consensus balances nextRoot
          finalizedHeader).Resumes (IndexSound registry) (Reported registry config)
          state.world :=
      processNext_resumes nextRoot finalizedHeader state.world
    refine resumes_zoom (fun _ _ => rfl) ?_ ?_ resumes
    · exact fun _ sound => sound
    · exact fun _ _ moves => moves
  intro state
  refine resumes_callCatching_bind ?_ fun outcome =>
    resumes_modify_bind refl (resumes_ofOutcome outcome)
  refine resumes_callCatching_bind ?_ fun _ _ => trivial
  refine resumes_read_bind refl (fun seen => ?_) state
  split
  · exact fun _ => trivial
  · refine resumes_modify_bind refl fun state => ?_
    refine resumes_callCatching_bind ?_ fun outcome =>
      resumes_modify_bind refl (resumes_ofOutcome outcome)
    refine resumes_callCatching_bind ?_ fun outcome _ => resumes_ofOutcome outcome _
    refine resumes_callCatching_bind ?_ resumes_ofOutcome
    refine resumes_callCatching_bind ?_ resumes_ofOutcome
    exact resumes_bind (processNext state) fun _ _ _ _ _ => trivial

/-- The tasks of the loop report registered keys, if the index is right when they run. -/
theorem blocks_report :
    BlocksYield config balances answers (fun _ => True)
      (Pool.Within (fun state => IndexSound registry state.world)
        (OfWorld (Reported registry config))) := by
  have keeping := @keeping_reports fun key => Live config ∧ Reportable registry config key
  have refl (state : DaemonState) : OfWorld (Reported registry config) state state :=
    keeping.refl state.world
  have trans
      {first middle last : DaemonState}
      (earlier : OfWorld (Reported registry config) first middle)
      (later : OfWorld (Reported registry config) middle last) :
      OfWorld (Reported registry config) first last :=
    keeping.trans earlier later
  have records
      {update : DaemonState → DaemonState}
      (same : ∀ state, (update state).world = state.world) :
      (modify update).Guarantees (OfWorld (Reported registry config)) :=
    modify_ofWorld keeping.refl same
  have spawn
      {method : TaskMethod}
      {originalMethod : Async DaemonState Unit}
      (reports : originalMethod.Guarantees (OfWorld (Reported registry config))) :
      (Pool.spawn (onCatch (singletonTask method (trackTask originalMethod)))).Yields
        (fun _ => True)
        (Pool.Within (fun state => IndexSound registry state.world)
          (OfWorld (Reported registry config)))
        fun _ => True :=
    Pool.within_spawn refl trans
      (resumes_of_guarantees
        (guarantees_onCatch
          (singletonTask_guarantees refl (fun _ => refl) (trackTask_guarantees reports))))
  exact
    { refl := (Pool.keeping_within refl trans).refl
      record := fun _ => Pool.within_onShared (records fun _ => rfl)
      lastFinalizedHeader := fun _ => Pool.within_onShared (records fun _ => rfl)
      rootProcessing := Pool.within_onShared (records fun _ => rfl)
      getNext := fun finalizedHeader =>
        Pool.within_onShared
          (onWorld_ofWorld
            (RootsProvider.getNext_guarantees keeping.refl config answers.consensus
              finalizedHeader))
      updateKeysIndexer := fun _ _ =>
        spawn
          (onWorld_ofWorld
            ((guarantees_call
              (KeysIndexer.update_indexMoves config answers.consensus answers.keysapi
                _)).mono .of_indexMoves))
      processBadPerformers := fun _ _ =>
        spawn (onStrikes_ofWorld keeping.refl _)
      rootChain := fun _ nextRoot _ =>
        Pool.within_spawn refl trans (rootChain_resumes _ nextRoot) }

/-- One round of the loop reports registered keys, if the index is right when its tasks run. -/
theorem loopBody_reports :
    (loopBody config balances answers).Yields (fun _ => True)
      (Pool.Within (fun state => IndexSound registry state.world)
        (OfWorld (Reported registry config))) fun _ => True := by
  have blocks := @blocks_report registry config balances answers
  apply blocks.loopBody_yields
  refine yields_read_bind blocks.refl fun pool _ => ?_
  split
  · exact Pool.within_onShared
      (onWorld_ofWorld
        ((guarantees_call
          (KeysIndexer.initOrReadServiceData_indexMoves config answers.consensus
            answers.keysapi answers.fileReads)).mono .of_indexMoves))
  · trivial

end Tasks

/--
In every process of the daemon, wherever the earlier ones were killed and in every
interleaving of the loop and its tasks, every withdrawal, slashing or balance proof that
is mined is for a key that the module has registered for a validator of the chain.
-/
theorem daemon_reports_registered
    (registry : Registry)
    (config : Config)
    (balances : Bool)
    (world : World)
    (files : Agrees registry (diskStorage world.disk) (diskCount world.disk))
    (finalized : 0 < world.finalizedHeader.message.slot)
    (strikes : StrikesWorld)
    (earlier : List Process)
    (process : Process)
    (knows : ∀ member ∈ process :: earlier, member.Knows registry) :
    let left := life config balances world strikes earlier
    let final :=
      (runLoop config balances process.answers (restart config left.1) left.2.restart
        process.turns).pool.shared.world
    (∀ kind key,
      final.stakingModule.proved kind key = true →
      left.1.stakingModule.proved kind key = true ∨ registry.HasKey key) ∧
    ∃ events,
      final.log = left.1.log ++ events ∧
      (∀ kind key, .proofResolved kind key ∈ events → registry.HasKey key) ∧
      ∀ key balanceGwei,
        .balanceProofResolved key balanceGwei ∈ events → registry.HasKey key := by
  intro left final
  obtain ⟨leftFiles, leftFinalized⟩ :=
    @life_files registry config balances earlier
      (fun member isEarlier => knows member (by simp [isEarlier])) world files finalized
      strikes
  have keeping := @keeping_reports fun key => Live config ∧ Reportable registry config key
  have known
      (turns : List (Turn BlockHeaderResponse))
      (isPrior : turns <+: process.turns)
      (hasTasks :
        (runLoop config balances process.answers (restart config left.1) left.2.restart
          turns).pool.tasks ≠ []) :
      IndexSound registry
        (runLoop config balances process.answers (restart config left.1) left.2.restart
          turns).pool.shared.world := by
    have knowsProcess := knows process (by simp)
    have knowsPrior : Process.Knows registry { process with turns := turns } :=
      { honest := knowsProcess.honest
        whole := knowsProcess.whole
        identified := knowsProcess.identified
        finalized := fun finalizedHeader member =>
          knowsProcess.finalized finalizedHeader (isPrior.mem member) }
    have phased :=
      @runLoop_phased registry config balances { process with turns := turns } knowsPrior
        (restart config left.1) (consistent_restart leftFiles) leftFinalized
        left.2.restart
    rcases phased with starting | serving
    · exact (hasTasks starting.tasks).elim
    · exact serving.provides.1.running.memory.sound
  have reported : Reported registry config (restart config left.1) final :=
    @Running.run_within _ _
      (fun iteration => loopBody config balances (process.answers iteration)) observe
      (fun state => IndexSound registry state.world) (OfWorld (Reported registry config))
      (fun state => keeping.refl state.world)
      (fun earlier later => keeping.trans earlier later)
      (fun iteration => loopBody_reports)
      (fun _ _ => .of_silent rfl (List.append_nil _).symm (by simp))
      (DaemonState.initial (restart config left.1) left.2.restart) process.turns known
  obtain ⟨events, log, isFor⟩ := reported.log
  refine ⟨fun kind key proved => ?_, events, log, fun kind key member => ?_,
    fun key balanceGwei member => ?_⟩
  · exact (reported.proved kind key proved).imp_right fun reportable => reportable.2.2
  · exact (isFor _ member).2.2
  · exact (isFor _ member).2.2

/-! ### A slashing that is reported -/

/-- Every block accuses the proposer that the module has a key for. -/
def sampleReportAnswers : Answers :=
  { sampleIndexAnswers with
    consensus :=
      { KeysIndex.sampleConsensus with
        blockInfo := fun root =>
          { KeysIndex.sampleConsensus.blockInfo root with
            proposerSlashings := [{ proposerIndex := 0 }] } } }

/-- A process that builds its index and then gives its root all turns. -/
def sampleReportProcess : Process where
  answers := fun _ => sampleReportAnswers
  turns :=
    List.replicate 20 (.loop .resolved) ++ List.replicate 40 (.task 1 .resolved)

theorem sampleReportProcess_knows :
    sampleReportProcess.Knows KeysIndex.sampleRegistry where
  honest := fun _ =>
    { shows := KeysIndex.sample_honest.shows
      answers := KeysIndex.sample_honest.answers }
  whole := fun _ => id
  identified := (sampleIndexProcess_knows 0 0).identified
  finalized := by
    intro finalizedHeader member
    simp [sampleReportProcess] at member

set_option maxRecDepth 8000 in
theorem daemon_reports_registered_sample :
    let started := restart KeysIndex.sampleConfig (.blank (KeysIndex.sampleHeader 2))
    let final :=
      (runLoop KeysIndex.sampleConfig false sampleReportProcess.answers started
        StrikesWorld.fresh.restart sampleReportProcess.turns).pool.shared.world
    .proofResolved .slashing (7, 0) ∈ final.log ∧
      ∀ kind key,
        .proofResolved kind key ∈ final.log → KeysIndex.sampleRegistry.HasKey key := by
  refine ⟨by decide, fun kind key member => ?_⟩
  obtain ⟨_, events, log, resolved, _⟩ :=
    daemon_reports_registered KeysIndex.sampleRegistry KeysIndex.sampleConfig false
      (.blank (KeysIndex.sampleHeader 2)) (Agrees.empty _) (by decide) .fresh []
      sampleReportProcess
      (by
        intro member isMember
        rw [List.mem_singleton.mp isMember]
        exact sampleReportProcess_knows)
  exact resolved kind key (log.subst (motive := fun current => _ ∈ current) member)

end DaemonService

end CsmProver
