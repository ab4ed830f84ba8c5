import CsmProver.DaemonTasks
import CsmProver.ReportedKeys
import CsmProver.ServiceMoves

namespace CsmProver

/-!
# What the daemon reports

Every proof the daemon gets mined is for a key it has looked up, and its lookups
show only the keys of the operators it is configured for.  Nothing else in the
loop or its tasks gets a proof mined, so this holds in every interleaving.
-/

open Async

namespace DaemonService

/-! ## A relation all services keep to -/

/-- Moves of the world that all services make, with the answers of one iteration. -/
structure ServicesKeep (config : Config) (balances : Bool) (answers : Answers)
    (inv : World → Prop) (relation : World → World → Prop) : Prop
    extends Keeping inv relation where
  init :
    (KeysIndexer.initOrReadServiceData config answers.consensus answers.keysapi
      answers.fileReads).Yields inv relation fun _ => True
  update :
    ∀ finalizedHeader,
      (KeysIndexer.update config answers.consensus answers.keysapi
        finalizedHeader).Yields inv relation fun _ => True
  getNext :
    ∀ finalizedHeader,
      (RootsProvider.getNext config answers.consensus finalizedHeader).Yields inv relation
        fun _ => True
  processNext :
    ∀ nextRoot finalizedHeader,
      (RootsProcessor.processNext config answers.consensus balances nextRoot
        finalizedHeader).Yields inv relation fun _ => True
  observe :
    ∀ finalizedHeader world,
      inv world → relation world { world with finalizedHeader := finalizedHeader }

section Loop

variable {inv : World → Prop} {relation : World → World → Prop}

/-- What keeps to the world keeps to the daemon. -/
theorem keeping_ofWorld
    (keeping : Keeping inv relation) :
    Keeping (fun state : DaemonState => inv state.world) (OfWorld relation) where
  refl := fun _ => keeping.refl _
  trans := fun earlier later => keeping.trans earlier later
  keeps := fun _ _ holds moves => keeping.keeps _ _ holds moves

/-- Code of the daemon that keeps to the relation in the world. -/
abbrev KeepsWorld {α : Type} (inv : World → Prop) (relation : World → World → Prop)
    (program : Async DaemonState α) : Prop :=
  program.Yields (fun state => inv state.world) (OfWorld relation) fun _ => True

/-- Code of the services keeps to the world it runs on. -/
theorem onWorld_keeps
    {α : Type}
    {program : Async World α}
    (yields : program.Yields inv relation fun _ => True) :
    KeepsWorld inv relation (onWorld program) := by
  unfold onWorld
  refine yields_zoom ?_ ?_ yields
  · exact fun _ holds => holds
  · exact fun _ _ _ moves => moves

/-- Code of the daemon that does not touch the world. -/
theorem modify_keeps
    (keeping : Keeping inv relation)
    {update : DaemonState → DaemonState}
    (same : ∀ state, (update state).world = state.world) :
    KeepsWorld inv relation (modify update) := by
  refine yields_modify fun state _ => ?_
  unfold OfWorld
  rw [same]
  exact keeping.refl _

/-- A caught call keeps to it, and so does what follows either way. -/
theorem callCatching_bind_keeps
    {α β : Type}
    {body : Async DaemonState α}
    {next : Except Abort α → Async DaemonState β}
    (keeps : KeepsWorld inv relation body)
    (rest : ∀ outcome, KeepsWorld inv relation (next outcome)) :
    KeepsWorld inv relation (callCatching body >>= next) :=
  yields_bind (yields_callCatching keeps) fun outcome _ => rest outcome

theorem ofOutcome_keeps
    {α : Type}
    (outcome : Except Abort α) :
    KeepsWorld inv relation (ofOutcome outcome : Async DaemonState α) := by
  cases outcome <;> trivial

/-- So does a decorated task, whether it runs or is passed over. -/
theorem singletonTask_keeps
    (keeping : Keeping inv relation)
    (method : TaskMethod)
    {originalMethod : Async DaemonState Unit}
    (keeps : KeepsWorld inv relation originalMethod) :
    KeepsWorld inv relation (singletonTask method (trackTask originalMethod)) := by
  refine yields_read_bind (keeping_ofWorld keeping).refl fun state _ => ?_
  split
  · trivial
  · refine yields_bind (modify_keeps keeping fun _ => rfl) fun _ _ => ?_
    refine callCatching_bind_keeps ?_ fun outcome =>
      yields_bind (modify_keeps keeping fun _ => rfl) fun _ _ => ofOutcome_keeps outcome
    refine callCatching_bind_keeps ?_ fun outcome => ofOutcome_keeps outcome
    refine callCatching_bind_keeps ?_ ofOutcome_keeps
    exact callCatching_bind_keeps keeps ofOutcome_keeps

variable {config : Config} {balances : Bool} {answers : Answers}

/-- Blocks of the loop, over the pool of its tasks. -/
abbrev PoolKeeps {α : Type} (inv : World → Prop) (relation : World → World → Prop)
    (program : Async (Pool DaemonState) α) : Prop :=
  program.Yields (Pool.Yields (fun state => inv state.world) (OfWorld relation))
    (Pool.Inside (fun state => inv state.world) (OfWorld relation)) fun _ => True

/-- One round of the loop keeps to what all services keep to. -/
theorem loopBody_keeps
    (keep : ServicesKeep config balances answers inv relation) :
    PoolKeeps inv relation (loopBody config balances answers) := by
  have keeping := keeping_ofWorld keep.toKeeping
  have refl := (Pool.keeping_inside keeping).refl
  have onShared
      {α : Type}
      {program : Async DaemonState α}
      (keeps : KeepsWorld inv relation program) :
      PoolKeeps inv relation (Pool.onShared program) :=
    Pool.yields_onShared keeping keeps
  have modifies
      {update : DaemonState → DaemonState}
      (same : ∀ state, (update state).world = state.world) :
      KeepsWorld inv relation (modify update) :=
    modify_keeps keep.toKeeping same
  have update
      (finalizedHeader : BlockHeaderResponse) :
      KeepsWorld inv relation
        (onCatch (updateKeysIndexer config answers finalizedHeader)) := by
    refine callCatching_bind_keeps ?_ fun _ => trivial
    exact singletonTask_keeps keep.toKeeping _
      (onWorld_keeps (yields_call (keep.update finalizedHeader)))
  have badPerformers
      (finalizedHeader : BlockHeaderResponse) :
      KeepsWorld inv relation
        (onCatch (processBadPerformers config answers finalizedHeader)) := by
    refine callCatching_bind_keeps ?_ fun _ => trivial
    refine singletonTask_keeps keep.toKeeping _ (yields_of_guarantees ?_)
    exact guarantees_zoom (fun state _ _ => keep.refl state.world) (guarantees_true _)
  have processNext
      (finalizedHeader : BlockHeaderResponse)
      (nextRoot : RootHex) :
      KeepsWorld inv relation
        (processNext config balances answers finalizedHeader nextRoot) := by
    refine yields_read_bind keeping.refl fun state _ => ?_
    refine yields_bind (modifies fun _ => rfl) fun _ _ => ?_
    refine yields_bind
      (yields_attempt (onWorld_keeps (keep.processNext nextRoot finalizedHeader)))
      fun outcome _ => ?_
    exact yields_bind (modifies fun _ => rfl) fun _ _ => ofOutcome_keeps outcome
  have rootChain
      (finalizedHeader : BlockHeaderResponse)
      (nextRoot : RootHex) :
      KeepsWorld inv relation
        (rootChain config balances answers finalizedHeader nextRoot) := by
    refine callCatching_bind_keeps ?_ fun outcome =>
      yields_bind (modifies fun _ => rfl) fun _ _ => ofOutcome_keeps outcome
    refine callCatching_bind_keeps ?_ fun _ => trivial
    exact singletonTask_keeps keep.toKeeping _ (yields_call (processNext _ _))
  have init : PoolKeeps inv relation (initKeysIndexer config answers) := by
    refine yields_read_bind refl fun pool _ => ?_
    split
    · exact onShared (onWorld_keeps (yields_call keep.init))
    · trivial
  have blocks :
      BlocksYield config balances answers
        (Pool.Yields (fun state => inv state.world) (OfWorld relation))
        (Pool.Inside (fun state => inv state.world) (OfWorld relation)) :=
    { refl := refl
      record := fun _ => onShared (modifies fun _ => rfl)
      lastFinalizedHeader := fun _ => onShared (modifies fun _ => rfl)
      rootProcessing := onShared (modifies fun _ => rfl)
      getNext := fun finalizedHeader => onShared (onWorld_keeps (keep.getNext finalizedHeader))
      updateKeysIndexer := fun _ _ => Pool.yields_spawn keeping (update _)
      processBadPerformers := fun _ _ => Pool.yields_spawn keeping (badPerformers _)
      rootChain := fun _ nextRoot _ => Pool.yields_spawn keeping (rootChain _ nextRoot) }
  exact blocks.loopBody_yields init

/-- What all services keep to, the daemon keeps to in every run. -/
theorem runLoop_keeps
    {answers : Nat → Answers}
    (keep :
      ∀ iteration, ServicesKeep config balances (answers iteration) inv relation)
    {world : World}
    (starts : inv world)
    (strikes : StrikesWorld)
    (turns : List (Turn BlockHeaderResponse)) :
    relation world
      (runLoop config balances answers world strikes turns).pool.shared.world := by
  have first := keep 0
  have inside :=
    @Running.run_inside _ _ _
      (fun finalizedHeader (state : DaemonState) =>
        { state with world := { state.world with finalizedHeader := finalizedHeader } })
      _ _ (keeping_ofWorld first.toKeeping) (fun iteration => loopBody_keeps (keep iteration))
      (fun finalizedHeader state holds => first.observe finalizedHeader state.world holds)
      (DaemonState.initial world strikes) starts turns
  exact inside

end Loop

/-! ## Reports -/

/-- A proof of the event is for one of the keys. -/
def IsFor (keys : KeyId → Prop) : Event → Prop
  | .proofResolved _ key => keys key
  | .balanceProofResolved key _ => keys key
  | _ => True

/-- The contract and the log show no proofs but those for the given keys. -/
structure Reports (keys : KeyId → Prop) (world moved : World) : Prop where
  proved :
    ∀ kind key,
      moved.stakingModule.proved kind key = true →
      world.stakingModule.proved kind key = true ∨ keys key
  log : ∃ events, moved.log = world.log ++ events ∧ ∀ event ∈ events, IsFor keys event

section Reports

variable {keys : KeyId → Prop} {world moved : World}

/-- A move that leaves the contract alone and logs no proof. -/
theorem Reports.of_silent
    (sameModule : moved.stakingModule = world.stakingModule)
    {events : List Event}
    (log : moved.log = world.log ++ events)
    (silent : ∀ event ∈ events, IsFor keys event) :
    Reports keys world moved where
  proved := by
    rw [sameModule]
    exact fun _ _ => .inl
  log := ⟨events, log, silent⟩

/-- Reports for the given keys add up. -/
theorem keeping_reports :
    Keeping (fun _ => True) (Reports keys) where
  refl := fun world => .of_silent rfl (List.append_nil _).symm (by simp)
  trans := by
    intro first middle last earlier later
    obtain ⟨firstEvents, firstLog, firstFor⟩ := earlier.log
    obtain ⟨lastEvents, lastLog, lastFor⟩ := later.log
    refine ⟨fun kind key isProved => ?_, firstEvents ++ lastEvents, ?_, fun event member => ?_⟩
    · rcases later.proved kind key isProved with before | isKey
      · exact earlier.proved kind key before
      · exact .inr isKey
    · rw [lastLog, firstLog, List.append_assoc]
    · rcases List.mem_append.mp member with inFirst | inLast
      · exact firstFor event inFirst
      · exact lastFor event inLast
  keeps := fun _ _ _ _ => trivial

/-- With a signer and without a dry run the duties report what they have looked up. -/
theorem reportFrame_reports
    {config : Config} :
    ReportFrame config keys (fun _ => True) (Reports fun key => Live config ∧ keys key) where
  toKeeping := keeping_reports
  keyLookups := by
    intro duty keyInfoFn valIndices world
    refine .of_silent rfl rfl fun event member => ?_
    obtain ⟨valIndex, _, rfl⟩ := List.mem_map.mp member
    trivial
  allKeysLookup := fun world => .of_silent rfl rfl (by simp [IsFor])
  proofMined := by
    intro live kind key world isKey
    refine ⟨fun other query isProved => ?_, [.proofResolved kind key], rfl, ?_⟩
    · simp only [proofMined, World.record_stakingModule, StakingModule.proved_prove,
        Bool.or_eq_true, decide_eq_true_eq] at isProved
      rcases isProved with ⟨_, rfl⟩ | before
      · exact .inr ⟨live, isKey⟩
      · exact .inl before
    · simpa [IsFor] using ⟨live, isKey⟩
  balanceMined := by
    intro live key balanceGwei world isKey
    exact .of_silent rfl rfl (by simpa [IsFor] using ⟨live, isKey⟩)

/-- What the indexer does is silent. -/
theorem Reports.of_indexMoves
    (moves : IndexMoves world moved) :
    Reports keys world moved := by
  obtain ⟨events, log, isIndex⟩ := moves.log
  refine .of_silent moves.stakingModule log fun event member => ?_
  have indexed := isIndex event member
  cases event <;> trivial

/-- The stack of roots reports nothing. -/
theorem stackFrame_reports :
    StackFrame (Reports keys) where
  refl := keeping_reports.refl
  rootsStack := fun _ _ => .of_silent rfl (List.append_nil _).symm (by simp)
  files := fun _ _ _ => .of_silent rfl (List.append_nil _).symm (by simp)
  event := by
    intro event isStack world
    refine .of_silent rfl rfl ?_
    cases event <;> first | exact isStack.elim | simp [IsFor]

end Reports

/-- The lookups of the daemon show only allowed operators. -/
theorem getKey_finds
    (config : Config) :
    Finds (fun key => KeysIndexer.isAllowedOperatorId config key.1 = true) (fun _ => True)
      (RootsProcessor.getKey config) := by
  intro world valIndex keyInfo _ found
  exact (Option.filter_eq_some_iff.mp found).2

/-- The index hands out keys of allowed operators only. -/
theorem getAllKeys_finds
    (config : Config)
    (fields : KeysIndexerFields) :
    ForKeys (fun key => KeysIndexer.isAllowedOperatorId config key.1 = true) id
      (KeysIndexer.getAllKeys config fields) := by
  intro entry member
  have kept := (List.mem_filter.mp member).2
  obtain ⟨keyInfo, filtered⟩ := Option.isSome_iff_exists.mp kept
  obtain ⟨isEntry, isAllowed⟩ := Option.filter_eq_some_iff.mp filtered
  rw [Option.some.inj isEntry]
  exact isAllowed

/-- All services report for allowed operators only, and when the daemon is live. -/
theorem services_report
    (config : Config)
    (balances : Bool)
    (answers : Answers) :
    ServicesKeep config balances answers (fun _ => True)
      (Reports fun key =>
        Live config ∧ KeysIndexer.isAllowedOperatorId config key.1 = true) where
  toKeeping := keeping_reports
  init :=
    yields_of_guarantees
      ((KeysIndexer.initOrReadServiceData_indexMoves config answers.consensus answers.keysapi
        answers.fileReads).mono .of_indexMoves)
  update := fun finalizedHeader =>
    yields_of_guarantees
      ((KeysIndexer.update_indexMoves config answers.consensus answers.keysapi
        finalizedHeader).mono .of_indexMoves)
  getNext := fun finalizedHeader =>
    yields_of_guarantees
      (RootsProvider.getNext_guarantees keeping_reports.refl config answers.consensus
        finalizedHeader)
  processNext := by
    intro nextRoot finalizedHeader
    refine yields_request_bind ?_
    refine yields_bind
      (yields_of_guarantees (guarantees_call (stackFrame_reports.push_guarantees _)))
      fun _ _ => ?_
    refine yields_bind
      (reportFrame_reports.runDuties_yields answers.consensus balances
        (getKey_finds config) (fun world _ => getAllKeys_finds config world.keysIndexer)
        _ _ _)
      fun _ _ => ?_
    exact yields_of_guarantees (stackFrame_reports.settleRoot_guarantees _ _)
  observe := fun _ _ _ => .of_silent rfl (List.append_nil _).symm (by simp)

/--
In every interleaving of the daemon's loop and its tasks, every withdrawal, slashing
or balance proof that is mined is for a key of an operator the daemon is configured
for, and none is mined in a dry run or without a signer; the contract changes for no
other key.
-/
theorem daemon_reports_allowed
    (config : Config)
    (balances : Bool)
    (answers : Nat → Answers)
    (world : World)
    (strikes : StrikesWorld)
    (turns : List (Turn BlockHeaderResponse)) :
    let final := (runLoop config balances answers world strikes turns).pool.shared.world
    let allowed : KeyId → Prop := fun key =>
      Live config ∧ KeysIndexer.isAllowedOperatorId config key.1 = true
    (∀ kind key,
      final.stakingModule.proved kind key = true →
      world.stakingModule.proved kind key = true ∨ allowed key) ∧
    ∃ events,
      final.log = world.log ++ events ∧
      (∀ kind key, .proofResolved kind key ∈ events → allowed key) ∧
      ∀ key balanceGwei, .balanceProofResolved key balanceGwei ∈ events → allowed key := by
  intro final allowed
  have reports :=
    @runLoop_keeps _ _ _ _ _
      (fun iteration => services_report config balances (answers iteration)) world trivial
      strikes turns
  obtain ⟨events, log, isFor⟩ := reports.log
  exact ⟨reports.proved, events, log, fun _ _ member => isFor _ member,
    fun _ _ member => isFor _ member⟩

end DaemonService

end CsmProver
