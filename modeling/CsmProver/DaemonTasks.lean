import CsmProver.Async.Exclusive
import CsmProver.DaemonRuns

namespace CsmProver

/-!
# The guards of the tasks

Each of the three tasks of the daemon has a flag, which it takes in the block
that starts it and clears when its method has settled, in whichever way.  What
the loop does besides leaves the flags alone, so in every interleaving a flag is
set only while a task that has taken it still waits.
-/

open Async

namespace DaemonService

/-! ## One task -/

/-- The flag of the method is set, and the method is somewhere inside. -/
def Holds (method : TaskMethod) (within : DaemonState → Prop) (state : DaemonState) :
    Prop :=
  state.running method = true ∧ within state

/-- The flag of the method is clear, and the last call of the method has ended. -/
def Clear (method : TaskMethod) (reached : DaemonState → Prop) (state : DaemonState) :
    Prop :=
  state.running method = false ∧ reached state

/-- A method's flag is its own. -/
theorem running_setRunning_of_ne
    {method other : TaskMethod}
    (different : method ≠ other)
    (value : Bool)
    (state : DaemonState) :
    (state.setRunning method value).running other = state.running other :=
  Function.update_of_ne (Ne.symm different) ..

section SingletonTask

variable {apart : DaemonState → DaemonState → Prop} {method : TaskMethod}
variable {within reached entered ended left : DaemonState → Prop}
variable {originalMethod : Async DaemonState Unit}

/-- The continuations that count a task keep to the task. -/
theorem leads_trackTask
    {held first last : DaemonState → Prop}
    (steady : Steady apart held last)
    (runs : Leads apart held first last originalMethod) :
    Leads apart held first last (trackTask originalMethod) :=
  leads_onFinally steady (leads_passOn steady (leads_passOn steady runs)) (leads_pure ())

/-- A method that finds its flag clear has it to itself until it has settled. -/
theorem singletonTask_leads
    (steady : Steady apart (Holds method within) (Holds method ended))
    (enters : ∀ state, reached state → entered (state.setRunning method true))
    (leaves : ∀ state, ended state → left (state.setRunning method false))
    (runs :
      Leads apart (Holds method within) (Holds method entered) (Holds method ended)
        originalMethod) :
    Leads apart (Holds method within) (Clear method reached) (Clear method left)
      (singletonTask method originalMethod) := by
  have clears :
      Leads apart (Holds method within) (Holds method ended) (Clear method left)
        (modify (DaemonState.setRunning method false)) :=
    leads_modify fun state holds =>
      ⟨by simp [DaemonState.setRunning], leaves state holds.2⟩
  exact leads_singletonTask (fun _ isClear => isClear.1)
    (fun state isClear =>
      (⟨by simp [DaemonState.setRunning], enters state isClear.2⟩ : Holds method entered _))
    (leads_onFinally steady runs clears)

/-- A method that finds its flag set returns at once. -/
theorem singletonTask_givesUp
    (refl : ∀ state, apart state state)
    {state : DaemonState}
    (isHeld : state.running method = true) :
    (singletonTask method originalMethod).Passes apart state state := by
  have returns :
      (singletonTask method originalMethod).advance state = (return (), state) := by
    change advance (if state.running method = true then _ else _) state = _
    rw [if_pos isHeld]
    rfl
  unfold Passes
  rw [returns]
  exact ⟨refl state, trivial⟩

/-- A method keeps to what it does and to what its flag does. -/
theorem singletonTask_guarantees
    (refl : ∀ state, apart state state)
    (flags :
      ∀ value state, apart state (state.setRunning method value))
    (guarantees : originalMethod.Guarantees apart) :
    (singletonTask method originalMethod).Guarantees apart := by
  apply guarantees_bind (guarantees_read refl)
  intro state
  split
  · trivial
  · refine guarantees_bind ((guarantees_modify _).mpr (flags true)) fun _ => ?_
    exact guarantees_onFinally guarantees ((guarantees_modify _).mpr (flags false))

/-- Noting the end of a task keeps apart. -/
theorem trackTask_guarantees
    (guarantees : originalMethod.Guarantees apart) :
    (trackTask originalMethod).Guarantees apart :=
  guarantees_onFinally (guarantees_passOn (guarantees_passOn guarantees)) trivial

/-- The task of a root keeps to what its processing and its records keep to. -/
theorem rootChain_guarantees
    {config : Config}
    {balances : Bool}
    {answers : Answers}
    {finalizedHeader : BlockHeaderResponse}
    {nextRoot : RootHex}
    (refl : ∀ state, apart state state)
    (flags : ∀ value state, apart state (state.setRunning .processNextRoot value))
    (records : ∀ event state, apart state (state.record event))
    (clears : ∀ state, apart state (state.setRootProcessing false))
    (processes :
      (onWorld
        (RootsProcessor.processNext config answers.consensus balances nextRoot
          finalizedHeader)).Guarantees apart) :
    (rootChain config balances answers finalizedHeader nextRoot).Guarantees apart := by
  have recorded
      (event : DaemonEvent) :
      (modify (DaemonState.record event)).Guarantees apart :=
    (guarantees_modify _).mpr (records event)
  refine guarantees_onFinally (guarantees_onCatch ?_) ((guarantees_modify _).mpr clears)
  refine singletonTask_guarantees refl flags (trackTask_guarantees (guarantees_call ?_))
  apply guarantees_bind (guarantees_read refl)
  intro state
  apply guarantees_bind (recorded _)
  intro _
  apply guarantees_bind (guarantees_attempt processes)
  intro outcome
  exact guarantees_bind (recorded _) fun _ => guarantees_ofOutcome outcome

end SingletonTask

/-! ## The loop -/

/-- A relation, said of the world the daemon works on. -/
def OfWorld (relation : World → World → Prop) (state moved : DaemonState) : Prop :=
  relation state.world moved.world

section OfWorld

variable {α : Type} {relation : World → World → Prop}

/-- Code on the world does to the daemon what it does to the world. -/
theorem onWorld_ofWorld
    {program : Async World α}
    (guarantees : program.Guarantees relation) :
    (onWorld program).Guarantees (OfWorld relation) := by
  refine guarantees_zoom ?_ guarantees
  exact fun _ _ moves => moves

/-- The service of the strikes is apart from the world. -/
theorem onStrikes_ofWorld
    (refl : ∀ world, relation world world)
    (program : Async StrikesWorld α) :
    (onStrikes program).Guarantees (OfWorld relation) := by
  refine guarantees_zoom ?_ (guarantees_true program)
  exact fun state _ _ => refl state.world

theorem modify_ofWorld
    (refl : ∀ world, relation world world)
    {update : DaemonState → DaemonState}
    (same : ∀ state, (update state).world = state.world) :
    (modify update).Guarantees (OfWorld relation) := by
  refine (guarantees_modify _).mpr fun state => ?_
  unfold OfWorld
  rw [same]
  exact refl state.world

end OfWorld

/--
The pieces of the loop's blocks keep to a relation, and so do the tasks they start
for a finalized header that was read in a state of the invariant.
-/
structure BlocksYield (config : Config) (balances : Bool) (answers : Answers)
    (inv : Pool DaemonState → Prop)
    (relation : Pool DaemonState → Pool DaemonState → Prop) : Prop where
  refl : ∀ pool, relation pool pool
  record :
    ∀ event,
      (Pool.onShared (modify (DaemonState.record event))).Yields inv relation fun _ => True
  lastFinalizedHeader :
    ∀ header,
      (Pool.onShared
        (modify fun state => { state with lastFinalizedHeader := some header })).Yields inv
          relation fun _ => True
  rootProcessing :
    (Pool.onShared (modify (DaemonState.setRootProcessing true))).Yields inv relation
      fun _ => True
  getNext :
    ∀ finalizedHeader,
      (Pool.onShared
        (onWorld
          (RootsProvider.getNext config answers.consensus finalizedHeader))).Yields inv
            relation fun _ => True
  updateKeysIndexer :
    ∀ seen,
      inv seen →
      (Pool.spawn
        (onCatch
          (updateKeysIndexer config answers seen.shared.world.finalizedHeader))).Yields inv
            relation fun _ => True
  processBadPerformers :
    ∀ seen,
      inv seen →
      (Pool.spawn
        (onCatch
          (processBadPerformers config answers
            seen.shared.world.finalizedHeader))).Yields inv relation fun _ => True
  rootChain :
    ∀ seen nextRoot,
      inv seen →
      (Pool.spawn
        (rootChain config balances answers seen.shared.world.finalizedHeader
          nextRoot)).Yields inv relation fun _ => True

namespace BlocksYield

variable {config : Config} {balances : Bool} {answers : Answers}
variable {inv : Pool DaemonState → Prop}
variable {relation : Pool DaemonState → Pool DaemonState → Prop}
variable (blocks : BlocksYield config balances answers inv relation)

include blocks

/-- Starting the tasks of a header keeps to the relation. -/
theorem startTasks_yields
    {seen : Pool DaemonState}
    (holds : inv seen)
    (state : DaemonState) :
    (startTasks config answers seen.shared.world.finalizedHeader state).Yields inv relation
      fun _ => True := by
  have second :
      (if isFinalizedHeaderChanged seen.shared.world.finalizedHeader state then
        Pool.spawn
          (onCatch
            (DaemonService.processBadPerformers config answers
              seen.shared.world.finalizedHeader))
      else return ()).Yields inv relation fun _ => True := by
    split
    · exact blocks.processBadPerformers seen holds
    · trivial
  simp only [startTasks]
  split
  · exact yields_bind (blocks.updateKeysIndexer seen holds) fun _ _ => second
  · exact second

theorem getNext_yields
    (finalizedHeader : BlockHeaderResponse) :
    (DaemonService.getNext config answers finalizedHeader).Yields inv relation
      fun _ => True := by
  refine yields_read_bind blocks.refl fun pool _ => ?_
  refine yields_bind (blocks.record _) fun _ _ => ?_
  refine yields_bind (yields_callCatching (blocks.getNext finalizedHeader))
    fun outcome _ => ?_
  refine yields_bind (blocks.record _) fun _ _ => ?_
  cases outcome <;> trivial

/-- So does a whole `baseRun`. -/
theorem baseRun_yields :
    (baseRun config balances answers).Yields inv relation fun _ => True := by
  have settles :
      (Pool.onShared settle : Async (Pool DaemonState) Unit).Guarantees relation := by
    have nothing : (settle : Async DaemonState Unit).Guarantees fun _ _ => False :=
      guarantees_settle
    exact guarantees_zoom (fun _ _ moves => moves.elim) nothing
  refine yields_bind (yields_of_guarantees settles) fun _ _ => ?_
  refine yields_read_bind blocks.refl fun seen holds => ?_
  refine yields_bind (blocks.startTasks_yields holds _) fun _ _ => ?_
  refine yields_bind (blocks.lastFinalizedHeader _) fun _ _ => ?_
  refine yields_read_bind blocks.refl fun pool _ => ?_
  split
  · trivial
  · refine yields_bind (blocks.getNext_yields _) fun nextRoot _ => ?_
    cases nextRoot with
    | none =>
        exact yields_of_guarantees guarantees_tick
    | some nextRoot =>
        exact yields_bind (blocks.rootChain seen nextRoot holds) fun _ _ =>
          blocks.rootProcessing

/-- One round of the loop, with what it does about an index that is not initialised. -/
theorem loopBody_yields
    (init : (initKeysIndexer config answers).Yields inv relation fun _ => True) :
    (loopBody config balances answers).Yields inv relation fun _ => True := by
  have round :
      (initKeysIndexer config answers >>= fun _ =>
        call (baseRun config balances answers)).Yields inv relation fun _ => True :=
    yields_bind init fun _ _ => yields_call blocks.baseRun_yields
  exact yields_bind (yields_attempt round) fun _ _ => yields_of_guarantees guarantees_tick

end BlocksYield

/-- A preorder that contains what the loop does outside of its tasks. -/
structure LoopFrame (apart : DaemonState → DaemonState → Prop) : Prop where
  refl : ∀ state, apart state state
  trans :
    ∀ {first middle last}, apart first middle → apart middle last → apart first last
  world : ∀ world state, apart state { state with world := world }
  trace : ∀ event state, apart state (state.record event)
  lastFinalizedHeader :
    ∀ header state, apart state { state with lastFinalizedHeader := header }
  rootProcessing : ∀ value state, apart state (state.setRootProcessing value)

namespace LoopFrame

variable {apart : DaemonState → DaemonState → Prop} (frame : LoopFrame apart)
variable {held free : DaemonState → Prop}
variable (config : Config) (balances : Bool) (answers : Answers)

include frame

/-- Code on the world leaves the flags alone. -/
theorem onWorld_guarantees
    {α : Type}
    (program : Async World α) :
    (onWorld program).Guarantees apart :=
  guarantees_zoom (fun state world _ => frame.world world state) (guarantees_true program)

/-- The processing of a root leaves the flags alone. -/
theorem processNext_guarantees
    (finalizedHeader : BlockHeaderResponse)
    (nextRoot : RootHex) :
    (processNext config balances answers finalizedHeader nextRoot).Guarantees apart := by
  apply guarantees_bind (guarantees_read frame.refl)
  intro state
  apply guarantees_bind ((guarantees_modify _).mpr (frame.trace _))
  intro _
  apply guarantees_bind (guarantees_attempt (frame.onWorld_guarantees _))
  intro outcome
  apply guarantees_bind ((guarantees_modify _).mpr (frame.trace _))
  exact fun _ => guarantees_ofOutcome outcome

/-- What the loop does by itself keeps the tasks apart, if the tasks it starts do. -/
theorem loopBody_exclusive
    (region : Pool.Region apart held free)
    (update :
      ∀ finalizedHeader,
        Pool.KeepsExclusive apart held free
          (Pool.spawn (onCatch (updateKeysIndexer config answers finalizedHeader))))
    (badPerformers :
      ∀ finalizedHeader,
        Pool.KeepsExclusive apart held free
          (Pool.spawn (onCatch (processBadPerformers config answers finalizedHeader))))
    (walk :
      ∀ finalizedHeader nextRoot,
        Pool.KeepsExclusive apart held free
          (Pool.spawn (rootChain config balances answers finalizedHeader nextRoot))) :
    Pool.KeepsExclusive apart held free (loopBody config balances answers) := by
  have onShared
      {α : Type}
      {program : Async DaemonState α}
      (guarantees : program.Guarantees apart) :
      (Pool.onShared program).Yields (fun _ => True)
        (fun pool moved => pool.Exclusive apart held free → moved.Exclusive apart held free)
        fun _ => True :=
    yields_of_guarantees (Pool.keepsExclusive_onShared region guarantees)
  have blocks :
      BlocksYield config balances answers (fun _ => True) fun pool moved =>
        pool.Exclusive apart held free → moved.Exclusive apart held free :=
    { refl := fun _ => id
      record := fun event => onShared ((guarantees_modify _).mpr (frame.trace event))
      lastFinalizedHeader := fun header =>
        onShared ((guarantees_modify _).mpr (frame.lastFinalizedHeader (some header)))
      rootProcessing := onShared ((guarantees_modify _).mpr (frame.rootProcessing true))
      getNext := fun _ => onShared (frame.onWorld_guarantees _)
      updateKeysIndexer := fun _ _ => yields_of_guarantees (update _)
      processBadPerformers := fun _ _ => yields_of_guarantees (badPerformers _)
      rootChain := fun _ nextRoot _ => yields_of_guarantees (walk _ nextRoot) }
  refine guarantees_of_yields (blocks.loopBody_yields ?_)
  refine yields_read_bind blocks.refl fun pool _ => ?_
  split
  · exact onShared (frame.onWorld_guarantees _)
  · trivial

end LoopFrame

/-- The finalized header moves while the daemon runs. -/
def observe (finalizedHeader : BlockHeaderResponse) (state : DaemonState) : DaemonState :=
  { state with world := { state.world with finalizedHeader := finalizedHeader } }

/-- Run lemma: the tasks exclude each other at every point of every run of the loop. -/
theorem runLoop_exclusive
    {apart : DaemonState → DaemonState → Prop}
    {held free : DaemonState → Prop}
    (frame : LoopFrame apart)
    (region : Pool.Region apart held free)
    {config : Config}
    {balances : Bool}
    {answers : Nat → Answers}
    (blocks :
      ∀ iteration,
        Pool.KeepsExclusive apart held free
          (loopBody config balances (answers iteration)))
    (world : World)
    (strikes : StrikesWorld)
    (starts : free (.initial world strikes))
    (turns : List (Turn BlockHeaderResponse)) :
    (runLoop config balances answers world strikes turns).pool.Exclusive apart held
      free := by
  let relation : Pool DaemonState → Pool DaemonState → Prop :=
    fun pool moved => pool.Exclusive apart held free → moved.Exclusive apart held free
  have keeping : Keeping (fun _ => True) relation :=
    ⟨fun _ => id, fun earlier later => later ∘ earlier, fun _ _ _ _ => trivial⟩
  have steps (pool : Pool DaemonState) (index : Nat) (settles : Settle) (_ : True) :
      relation pool (pool.step index settles) :=
    fun exclusive => exclusive.step region index settles
  have contained :=
    @Running.run_contained _ _ _ observe _ _ keeping
      (fun iteration => yields_of_guarantees (blocks iteration)) steps
      (fun finalizedHeader pool _ exclusive =>
        exclusive.moved region (frame.world _ pool.shared))
      (.initial world strikes) trivial turns
  exact contained.reached (.inl ⟨starts, by simp [Pool.Guarantees]⟩)

/-! ## No guard is left set -/

section Flags

variable (flagged : TaskMethod)

/-- A move that leaves one flag alone. -/
def SameFlag (state moved : DaemonState) : Prop :=
  moved.running flagged = state.running flagged

/-- The flag is set. -/
def isFlagged : DaemonState → Prop :=
  Holds flagged fun _ => True

/-- The flag is clear. -/
def isClear : DaemonState → Prop :=
  Clear flagged fun _ => True

/-- Everything but its own task leaves a flag as it is. -/
theorem sameFlag_frame :
    LoopFrame (SameFlag flagged) where
  refl := fun _ => rfl
  trans := fun earlier later => later.trans earlier
  world := fun _ _ => rfl
  trace := fun _ _ => rfl
  lastFinalizedHeader := fun _ _ => rfl
  rootProcessing := fun _ _ => rfl

/-- A flag is held by the task that has set it. -/
theorem flag_region :
    Pool.Region (SameFlag flagged) (isFlagged flagged) (isClear flagged) where
  refl := (sameFlag_frame flagged).refl
  trans := (sameFlag_frame flagged).trans
  heldStays := fun _ _ holds same => ⟨same.trans holds.1, trivial⟩
  freeStays := fun _ _ clear same => ⟨same.trans clear.1, trivial⟩

/-- A task that takes the flag when it is clear and gives up when it is set. -/
structure Takes (program : Async DaemonState Unit) : Prop where
  takes :
    ∀ state,
      isClear flagged state →
      program.Releases (SameFlag flagged) (isFlagged flagged) (isClear flagged) state
  givesUp :
    ∀ state, isFlagged flagged state → program.Passes (SameFlag flagged) state state

/-- A task that takes the flag, or one that leaves it alone. -/
def Respects (program : Async DaemonState Unit) : Prop :=
  Takes flagged program ∨ program.Guarantees (SameFlag flagged)

variable {flagged} {method : TaskMethod} {originalMethod : Async DaemonState Unit}

/-- The task of any method takes its own flag and no other. -/
theorem singletonTask_respects
    (guarantees : ∀ other, originalMethod.Guarantees (SameFlag other)) :
    Respects flagged (singletonTask method originalMethod) := by
  have region := flag_region flagged
  by_cases sameMethod : method = flagged
  · subst sameMethod
    have steady :
        Steady (SameFlag method) (isFlagged method) (isFlagged method) :=
      ⟨id, fun holds same => region.heldStays _ _ holds same⟩
    have runs :
        Leads (SameFlag method) (isFlagged method) (isFlagged method) (isFlagged method)
          originalMethod :=
      leads_of_guarantees steady
        ((guarantees method).mono fun same holds => region.heldStays _ _ holds same)
    have leads :
        Leads (SameFlag method) (isFlagged method) (isClear method) (isClear method)
          (singletonTask method originalMethod) :=
      singletonTask_leads steady (fun _ => id) (fun _ => id) runs
    exact .inl
      ⟨fun state clear => releases_of_wp (leads.ends state clear),
        fun state holds => singletonTask_givesUp region.refl holds.1⟩
  · exact .inr (singletonTask_guarantees region.refl (running_setRunning_of_ne sameMethod)
      (guarantees flagged))

/-- What follows a task does not change how it treats the flag. -/
theorem Respects.callCatching_bind
    {body : Async DaemonState Unit}
    {next : Except Abort Unit → Async DaemonState Unit}
    (respects : Respects flagged body)
    (rest : ∀ outcome, (next outcome).Guarantees (SameFlag flagged)) :
    Respects flagged (callCatching body >>= next) := by
  have region := flag_region flagged
  rcases respects with takes | guarantees
  · exact .inl
      ⟨fun state clear =>
        releases_callCatching_bind region.freeStays (takes.takes state clear) rest,
        fun state holds =>
          passes_callCatching_bind region.refl region.trans (takes.givesUp state holds)
            rest⟩
  · exact .inr (guarantees_bind (guarantees_callCatching guarantees) rest)

/-- A task that respects the flag may be started. -/
theorem Respects.spawn
    {task : Async DaemonState Unit}
    (respects : Respects flagged task) :
    Pool.KeepsExclusive (SameFlag flagged) (isFlagged flagged) (isClear flagged)
      (Pool.spawn task) := by
  have region := flag_region flagged
  rcases respects with takes | guarantees
  · exact Pool.keepsExclusive_spawn_taking region takes.takes takes.givesUp
  · exact Pool.keepsExclusive_spawn region guarantees

variable (config : Config) (balances : Bool) (answers : Answers)

/-- One round of the loop leaves every flag to its task. -/
theorem loopBody_flags :
    Pool.KeepsExclusive (SameFlag flagged) (isFlagged flagged) (isClear flagged)
      (loopBody config balances answers) := by
  apply (sameFlag_frame flagged).loopBody_exclusive config balances answers
    (flag_region flagged)
  · intro finalizedHeader
    refine Respects.spawn (Respects.callCatching_bind ?_ fun _ => trivial)
    refine singletonTask_respects fun other => trackTask_guarantees ?_
    exact (sameFlag_frame other).onWorld_guarantees _
  · intro finalizedHeader
    refine Respects.spawn (Respects.callCatching_bind ?_ fun _ => trivial)
    refine singletonTask_respects fun other => trackTask_guarantees ?_
    have sameFlags
        (state : DaemonState)
        (strikes : StrikesWorld) :
        SameFlag other state { state with strikes := strikes } :=
      rfl
    exact guarantees_zoom (fun state strikes _ => sameFlags state strikes)
      (guarantees_true _)
  · intro finalizedHeader nextRoot
    refine Respects.spawn (Respects.callCatching_bind ?_ fun outcome => ?_)
    · refine Respects.callCatching_bind ?_ fun _ => trivial
      refine singletonTask_respects fun other => trackTask_guarantees ?_
      exact guarantees_call
        ((sameFlag_frame other).processNext_guarantees config balances answers _ _)
    · exact guarantees_bind ((guarantees_modify _).mpr fun _ => rfl) fun _ =>
        guarantees_ofOutcome outcome

/-- The walk is at rest or chooses a root, and its guards are as they should be. -/
theorem run_waits
    (config : Config)
    (balances : Bool)
    (answers : Nat → Answers)
    (world : World)
    (strikes : StrikesWorld)
    (turns : List (Turn BlockHeaderResponse)) :
    PoolWaits (runLoop config balances answers world strikes turns).pool := by
  have starts : Rest { shared := .initial world strikes, tasks := [] } :=
    .inl ⟨⟨rfl, rfl, .nil⟩, by simp [Pool.Guarantees]⟩
  have meets :
      (runLoop config balances answers world strikes turns).Meets loopProtocol Rest := by
    apply Running.run_meets loopProtocol_stable _ _ _ _ starts
    · exact fun _ _ rest moves => moves.1 rest
    · exact fun iteration pool rest =>
        (loopBody_rests config balances (answers iteration)).ends pool rest
    · exact poolMoves_step
    · exact fun _ _ => poolMoves_of_unmoved ⟨rfl, rfl, rfl, rfl⟩
  exact meets.holds (fun _ => id) (fun _ _ => .inl) fun _ => .inl

/--
Whatever the interleaving and however the promises settle, a guard is set only while
a task of the loop still waits: when no task waits any more, the flags of all three
methods and the field `rootProcessing` are clear.
-/
theorem guards_held_by_tasks
    (config : Config)
    (balances : Bool)
    (answers : Nat → Answers)
    (world : World)
    (strikes : StrikesWorld)
    (turns : List (Turn BlockHeaderResponse)) :
    let pool := (runLoop config balances answers world strikes turns).pool
    (∃ task ∈ pool.tasks, task.Suspended) ∨
      ((∀ method, pool.shared.running method = false) ∧
        pool.shared.rootProcessing = false) := by
  intro pool
  by_cases waits : ∃ task ∈ pool.tasks, task.Suspended
  · exact .inl waits
  · refine .inr ⟨fun method => ?_, ?_⟩
    · have exclusive :=
        runLoop_exclusive (sameFlag_frame method) (flag_region method)
          (fun iteration => loopBody_flags config balances (answers iteration))
          world strikes ⟨rfl, trivial⟩ turns
      exact (exclusive.free_or_waits.resolve_right waits).1
    · rcases run_waits config balances answers world strikes turns with
        (idle | ⟨owner, owned⟩) | choosing
      · exact idle.walk.rootProcessing
      · obtain ⟨next, found, _⟩ := owned.waits
        exact absurd ⟨_, List.mem_of_getElem? found, trivial⟩ waits
      · exact choosing.walk.rootProcessing

end Flags

end DaemonService

end CsmProver
