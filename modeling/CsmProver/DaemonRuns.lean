import CsmProver.DaemonGuards
import CsmProver.ServiceMoves

namespace CsmProver

/-!
# The runs of the loop

One round of the loop rests, chooses at most one root and starts it.  The index and
the strikes have tasks of their own, which leave the stack and the guards alone, so
the phases of the walk are kept in every interleaving.
-/

open Async

namespace DaemonService

/-! ## What the other tasks leave alone -/

/-- The stack stays as it is. -/
def SameStack (world moved : World) : Prop :=
  moved.rootsStack = world.rootsStack

/-- What changes nothing leaves the stack alone. -/
theorem sameStack_refl
    (world : World) :
    SameStack world world :=
  rfl

/-- The indexer leaves the stack alone. -/
theorem IndexMoves.sameStack
    {world moved : World}
    (moves : IndexMoves world moved) :
    SameStack world moved :=
  moves.rootsStack

/-! ## One round of the loop -/

section Loop

variable (config : Config) (balances : Bool) (answers : Answers)

/-- A program of the world that leaves the stack alone moves nothing of the walk. -/
theorem onWorld_unmoved
    {α : Type}
    {program : Async World α}
    (sameStack : program.Guarantees SameStack) :
    (onWorld program).Guarantees Unmoved :=
  guarantees_zoom (fun _ _ same => ⟨rfl, rfl, rfl, same⟩) sameStack

/-- The flag of another method is not the flag of the walk. -/
theorem singletonTask_unmoved
    {method : TaskMethod}
    (other : method ≠ .processNextRoot)
    {originalMethod : Async DaemonState Unit}
    (unmoved : originalMethod.Guarantees Unmoved) :
    (singletonTask method originalMethod).Guarantees Unmoved := by
  have flags :
      ∀ value, (modify (DaemonState.setRunning method value)).Guarantees Unmoved := by
    intro value
    refine (guarantees_modify _).mpr fun state => ⟨rfl, ?_, rfl, rfl⟩
    simp [DaemonState.setRunning, Function.update_of_ne (Ne.symm other)]
  apply guarantees_bind (guarantees_read unmoved_refl)
  intro state
  split
  · trivial
  · exact guarantees_bind (flags true) fun _ => guarantees_onFinally unmoved (flags false)

/-- Tracking a task moves nothing of the walk. -/
theorem trackTask_unmoved
    {originalValue : Async DaemonState Unit}
    (unmoved : originalValue.Guarantees Unmoved) :
    (trackTask originalValue).Guarantees Unmoved :=
  guarantees_onFinally (guarantees_passOn (guarantees_passOn unmoved)) trivial

/-- The task of the index moves nothing of the walk. -/
theorem updateKeysIndexer_unmoved
    (finalizedHeader : BlockHeaderResponse) :
    (updateKeysIndexer config answers finalizedHeader).Guarantees Unmoved := by
  rw [updateKeysIndexer]
  apply singletonTask_unmoved (by decide)
  apply trackTask_unmoved
  apply onWorld_unmoved
  apply guarantees_call
  exact
    (KeysIndexer.update_indexMoves config answers.consensus answers.keysapi
      finalizedHeader).mono IndexMoves.sameStack

/-- The task of the strikes moves nothing of the walk. -/
theorem processBadPerformers_unmoved
    (finalizedHeader : BlockHeaderResponse) :
    (processBadPerformers config answers finalizedHeader).Guarantees Unmoved := by
  rw [processBadPerformers]
  apply singletonTask_unmoved (by decide)
  apply trackTask_unmoved
  exact guarantees_zoom (fun _ _ _ => ⟨rfl, rfl, rfl, rfl⟩) (guarantees_true _)

/-- Code of the loop that is about neither the guards nor the walk. -/
theorem rest_onShared
    {α : Type}
    {program : Async DaemonState α}
    (unmoved : program.Guarantees Unmoved) :
    (Pool.onShared program).Guarantees fun pool next => Rest pool → Rest next :=
  guarantees_zoom (fun _ _ moved => (poolMoves_of_unmoved moved).1) unmoved

/-- The initialisation of the index begins and ends at rest. -/
theorem initKeysIndexer_rests :
    Leads PoolMoves PoolWaits Rest Rest (initKeysIndexer config answers) := by
  apply leads_of_guarantees steady_rest
  apply guarantees_bind (guarantees_read fun _ => id)
  intro pool
  split
  · exact rest_onShared
      (onWorld_unmoved
        (guarantees_call
          ((KeysIndexer.initOrReadServiceData_indexMoves config _ _ _).mono
            IndexMoves.sameStack)))
  · trivial

/-- The tasks of the index and of the strikes are started at rest. -/
theorem startTasks_rests
    (finalizedHeader : BlockHeaderResponse)
    (state : DaemonState) :
    Leads PoolMoves PoolWaits Rest Rest (startTasks config answers finalizedHeader state) := by
  have update :=
    rest_spawn (guarantees_onCatch (updateKeysIndexer_unmoved config answers finalizedHeader))
  have badPerformers :
      (if isFinalizedHeaderChanged finalizedHeader state then
        Pool.spawn (onCatch (processBadPerformers config answers finalizedHeader))
      else return ()).Guarantees fun pool next => Rest pool → Rest next := by
    split
    · exact rest_spawn
        (guarantees_onCatch (processBadPerformers_unmoved config answers finalizedHeader))
    · trivial
  apply leads_of_guarantees steady_rest
  simp only [startTasks]
  split
  · exact guarantees_bind update fun _ => badPerformers
  · exact badPerformers

/-- Choosing a root begins at rest and ends there unless a root was chosen. -/
theorem getNext_leads
    (finalizedHeader : BlockHeaderResponse)
    {next : Option RootHex → Async (Pool DaemonState) Unit}
    (waits : Leads PoolMoves PoolWaits Rest Rest (next none))
    (starts :
      ∀ root, Leads PoolMoves PoolWaits (ChosenRoot root) Rest (next (some root))) :
    Leads PoolMoves PoolWaits (Idle .resting) Rest
      (getNext config answers finalizedHeader >>= next) := by
  have chooses :
      Leads PoolMoves PoolWaits Choosing Choosing
        (Pool.onShared <| onWorld <|
          RootsProvider.getNext config answers.consensus finalizedHeader) := by
    apply leads_of_guarantees steady_choosing
    have sameStack :
        (RootsProvider.getNext config answers.consensus finalizedHeader).Guarantees SameStack :=
      RootsProvider.getNext_guarantees sameStack_refl config answers.consensus finalizedHeader
    exact guarantees_zoom (fun _ _ moved => (poolMoves_of_unmoved moved).2)
      (onWorld_unmoved sameStack)
  have settles :
      ∀ outcome,
        Leads PoolMoves PoolWaits Choosing Rest
          (Pool.onShared (modify (DaemonState.record (.getNextSettled outcome))) >>=
            fun _ => ofOutcome outcome >>= next) := by
    intro outcome
    refine ⟨fun pool choosing => ?_⟩
    have settled :
        ∀ {phase : Phase},
          (Phase.choosing pool.shared.world.rootsStack).Next (.getNextSettled outcome) phase →
          Idle phase
            { pool with shared := pool.shared.record (.getNextSettled outcome) } :=
      fun step =>
        ⟨⟨choosing.walk.rootProcessing, choosing.walk.running,
          .concat choosing.walk.follows step⟩, choosing.tasks⟩
    match outcome with
    | .ok none => exact waits.ends _ (.inl (settled (.wait _)))
    | .ok (some root) => exact (starts root).ends _ (settled (.choose _ root))
    | .error reason => exact .inl (settled (.throw _ reason))
  have chosen := leads_callCatching_bind steady_choosing chooses settles
  simp only [getNext, bind_assoc]
  refine leads_read_bind fun seen => ?_
  rw [Pool.onShared_modify]
  refine leads_modify_bind ?_ chosen
  rintro pool ⟨rfl, idle⟩
  exact ⟨⟨idle.walk.rootProcessing, idle.walk.running, .concat idle.walk.follows (.call _)⟩,
    idle.tasks⟩

/-- A run of the loop that finds a root in processing does nothing more. -/
theorem baseRun_rests :
    Leads PoolMoves PoolWaits Rest Rest (baseRun config balances answers) := by
  refine leads_bind (leads_of_guarantees steady_rest (rest_onShared guarantees_settle)) ?_
  intro _
  refine leads_read_bind fun seen => ?_
  refine Leads.of_imp ?_ fun _ reached => reached.2
  refine leads_bind (startTasks_rests config answers _ _) fun _ => ?_
  rw [Pool.onShared_modify]
  have keeps :
      ∀ pool,
        Rest pool →
        Rest
          { pool with
            shared :=
              { pool.shared with
                lastFinalizedHeader := some seen.shared.world.finalizedHeader } } :=
    fun _ => (poolMoves_of_unmoved (by constructor <;> rfl)).1
  refine leads_modify_bind keeps ?_
  refine leads_read_bind fun seen => ?_
  split
  · exact ⟨fun _ reached => reached.2⟩
  · next free =>
      refine Leads.of_imp (getNext_leads config answers _ ?_ ?_) ?_
      · exact leads_tick steady_rest
      · exact fun _ => startNextRoot_leads config balances answers _ _
      rintro pool ⟨rfl, idle | ⟨owner, owned⟩⟩
      · exact idle
      · obtain ⟨next, _, holds⟩ := owned.waits
        obtain ⟨flag, phase, guarded, _⟩ := holds.1
        exact absurd guarded.rootProcessing free

/-- One round of the loop begins and ends at rest. -/
theorem loopBody_rests :
    Leads PoolMoves PoolWaits Rest Rest (loopBody config balances answers) :=
  leads_attempt_bind
    (leads_bind (initKeysIndexer_rests config answers) fun _ =>
      leads_call steady_rest (baseRun_rests config balances answers))
    fun _ => leads_tick steady_rest

end Loop

/-! ## Every interleaving -/

/-- The loop waits at rest or while it chooses a root, and fails at rest. -/
def loopProtocol : Protocol (Pool DaemonState) where
  rely := PoolMoves
  suspended := PoolWaits
  aborted := fun _ => Rest

/-- What the tasks do changes neither. -/
theorem loopProtocol_stable :
    loopProtocol.Stable where
  refl := fun _ => ⟨id, id⟩
  trans := fun earlier later => ⟨later.1 ∘ earlier.1, later.2 ∘ earlier.2⟩
  suspended := fun waits moves => waits.imp moves.1 moves.2
  aborted := fun rest moves => moves.1 rest

/-- The walk is in one of its phases. -/
def Walking (pool : Pool DaemonState) : Prop :=
  ∃ phase, Follows pool.shared.trace phase ∧ phase.Visible

/-- At rest the walk is in one of its phases. -/
theorem Rest.walking
    {pool : Pool DaemonState}
    (rest : Rest pool) :
    Walking pool := by
  rcases rest with idle | ⟨owner, owned⟩
  · exact ⟨_, idle.walk.follows, trivial⟩
  · obtain ⟨next, _, holds⟩ := owned.waits
    obtain ⟨flag, phase, guarded, visible⟩ := holds.1
    exact ⟨phase, guarded.follows, visible⟩

/-- Whenever a block of the program has ended the walk is in one of its phases. -/
theorem run_walking
    (config : Config)
    (balances : Bool)
    (answers : Nat → Answers)
    (world : World)
    (strikes : StrikesWorld)
    (turns : List (Turn BlockHeaderResponse)) :
    Walking (runLoop config balances answers world strikes turns).pool := by
  have starts : Rest { shared := .initial world strikes, tasks := [] } :=
    .inl ⟨⟨rfl, rfl, .nil⟩, by simp [Pool.Guarantees]⟩
  have meets :
      (runLoop config balances answers world strikes turns).Meets loopProtocol Rest := by
    apply Running.run_meets loopProtocol_stable _ _ _ _ starts
    · exact fun _ _ rest moves => moves.1 rest
    · exact fun iteration pool rest =>
        (loopBody_rests config balances (answers iteration)).ends pool rest
    · exact poolMoves_step
    · exact fun _ _ => poolMoves_of_unmoved ⟨rfl, rfl, rfl, rfl⟩
  apply meets.holds
  · rintro pool (rest | choosing)
    · exact rest.walking
    · exact ⟨_, choosing.walk.follows, trivial⟩
  · exact fun _ _ => Rest.walking
  · exact fun _ => Rest.walking

/--
In every interleaving of the loop with its tasks and however their promises settle:
at most one `processNext` is in progress, none is while `getNext` runs, the roots
`getNext` has returned are the roots `processNext` was called with, one call for each
in order, and a call directly follows the return of its root and finds the stack
that `getNext` read.
-/
theorem one_root_at_a_time
    (config : Config)
    (balances : Bool)
    (answers : Nat → Answers)
    (world : World)
    (strikes : StrikesWorld)
    (turns : List (Turn BlockHeaderResponse)) :
    let trace := (runLoop config balances answers world strikes turns).pool.shared.trace
    (∀ past,
      past <+: trace →
      (startedRoots past).length ≤ (settledRoots past).length + 1 ∧
        (getNextEnds past < getNextCalls past →
          (startedRoots past).length = (settledRoots past).length)) ∧
    startedRoots trace = returnedRoots trace ∧
    ∀ past later root rootsStack,
      trace = past ++ .processNextCalled root rootsStack :: later →
      ∃ earlier,
        past =
          earlier ++ [.getNextCalled rootsStack, .getNextSettled (.ok (some root))] := by
  intro trace
  obtain ⟨phase, follows, visible⟩ :=
    run_walking config balances answers world strikes turns
  refine ⟨?_, ?_, ?_⟩
  · intro past starts
    obtain ⟨earlier, pastFollows⟩ := follows.starts starts
    have counts := pastFollows.counts
    cases earlier with
    | resting => simp [counts]
    | choosing => simp [counts]
    | chosen => simp [counts]
    | processing => simp [counts]
  · have counts := follows.counts
    cases phase with
    | resting => exact counts.2.1.symm
    | choosing => exact counts.2.1.symm
    | chosen => exact visible.elim
    | processing => exact counts.2.1.symm
  · intro past later root rootsStack shape
    exact (shape ▸ follows : Follows (past ++ _ :: later) phase).started

end DaemonService

end CsmProver
