import CsmProver.DaemonStrikes
import CsmProver.KeysIndexRuns
import CsmProver.ServiceMoves
import CsmProver.Walk

namespace CsmProver

/-!
# The walk of the daemon

The loop asks for the next root only now and then, and processes the root it was
given in a task of its own, while the index is updated in another.  What the walk
keeps by itself it keeps in this company too: nobody else touches it, one task has
it at a time, and a root that was right when it was chosen is right when it is
started.  Processes follow one another, each of them killed at any point, and the
next one finds the files.
-/

open Async

/-! ## Growing logs -/

/-- The log keeps what it has. -/
def Grows (world moved : World) : Prop :=
  ∃ events, moved.log = world.log ++ events

theorem grows_refl
    (world : World) :
    Grows world world :=
  ⟨[], (List.append_nil _).symm⟩

theorem grows_trans
    {first middle last : World}
    (earlier : Grows first middle)
    (later : Grows middle last) :
    Grows first last := by
  obtain ⟨before, beforeLog⟩ := earlier
  obtain ⟨after, afterLog⟩ := later
  exact ⟨before ++ after, by rw [afterLog, beforeLog, List.append_assoc]⟩

/-- An event is recorded at the end. -/
theorem grows_record
    (event : Event)
    (world : World) :
    Grows world (world.record event) :=
  ⟨[event], rfl⟩

/-- The index writes to the log as well. -/
theorem IndexMoves.grows
    {world moved : World}
    (moves : IndexMoves world moved) :
    Grows world moved := by
  obtain ⟨events, log, _⟩ := moves.log
  exact ⟨events, log⟩

/-- The duties only add to the log. -/
theorem grows_dutyFrame :
    DutyFrame Grows where
  refl := grows_refl
  trans := grows_trans
  allKeysLookup := fun world => grows_record _ world
  keyLookups := fun _ _ _ _ => ⟨_, rfl⟩
  balanceMined := fun _ _ _ => ⟨_, rfl⟩
  proofMined := fun _ _ _ => ⟨_, rfl⟩

/-- So does the stack. -/
theorem grows_stackFrame :
    StackFrame Grows where
  refl := grows_refl
  rootsStack := fun _ world => grows_refl world
  files := fun _ _ world => grows_refl world
  event := fun event _ world => grows_record event world

namespace DaemonService

/-! ## What a walk keeps -/

/-- An invariant of the walk, and when a root is right for it. -/
structure WalkInvariant (rely : World → World → Prop) (inv : World → Prop)
    (right : RootHex → World → Prop) : Prop where
  refl : ∀ world, rely world world
  trans :
    ∀ {first middle last}, rely first middle → rely middle last → rely first last
  stays : ∀ world moved, inv world → rely world moved → inv moved
  staysRight : ∀ root world moved, right root world → Grows world moved → right root moved
  observe :
    ∀ (finalizedHeader : BlockHeaderResponse) (world : World),
      rely world { world with finalizedHeader := finalizedHeader }

/-- With the answers of one iteration the walk keeps it, and the index lets it be. -/
structure WalkKeeps (config : Config) (balances : Bool) (answers : Answers)
    (rely : World → World → Prop) (inv : World → Prop) (right : RootHex → World → Prop) :
    Prop where
  index : ∀ world moved, IndexMoves world moved → rely world moved
  chooses :
    ∀ finalizedHeader world root,
      inv world →
      RootsProvider.nextOf config answers.consensus finalizedHeader world = some root →
      right root world
  processes :
    ∀ finalizedHeader root world,
      inv world →
      right root world →
      wp { rely := rely, suspended := inv, aborted := fun _ => inv } (fun _ => inv)
        (RootsProcessor.processNext config answers.consensus balances root finalizedHeader)
        world

section Loop

variable {rely : World → World → Prop} {inv : World → Prop}
variable {right : RootHex → World → Prop}

/-- Growing is asked of no state in particular. -/
theorem keeping_grows :
    Keeping (fun _ => True) (OfWorld Grows) where
  refl := fun state => grows_refl state.world
  trans := fun earlier later => grows_trans earlier later
  keeps := fun _ _ _ _ => trivial

/-- What everybody but the walk does. -/
structure Apart (rely : World → World → Prop) (state moved : DaemonState) : Prop where
  running : moved.running .processNextRoot = state.running .processNextRoot
  world : rely state.world moved.world
  grows : Grows state.world moved.world

/-- A task has the walk. -/
abbrev HasWalk (inv : World → Prop) : DaemonState → Prop :=
  Holds .processNextRoot fun state => inv state.world

/-- A task has the walk, and a root that is right. -/
abbrev HasRight (inv : World → Prop) (right : RootHex → World → Prop) (root : RootHex) :
    DaemonState → Prop :=
  Holds .processNextRoot fun state => inv state.world ∧ right root state.world

/-- The walk waits for its next root. -/
abbrev WalkFree (inv : World → Prop) : DaemonState → Prop :=
  Clear .processNextRoot fun state => inv state.world

/-- The tasks leave the walk to one of them, and the log to all of them. -/
structure Stands (rely : World → World → Prop) (inv : World → Prop)
    (pool : Pool DaemonState) : Prop where
  exclusive : pool.Exclusive (Apart rely) (HasWalk inv) (WalkFree inv)
  grows : pool.Guarantees (OfWorld Grows)

/-- What the tasks and the outside may do while the loop waits. -/
def Goes (rely : World → World → Prop) (inv : World → Prop)
    (pool moved : Pool DaemonState) : Prop :=
  Stands rely inv pool →
    Stands rely inv moved ∧ Grows pool.shared.world moved.shared.world

/-- The loop has been given a root. -/
def HasRoot (rely : World → World → Prop) (inv : World → Prop)
    (right : RootHex → World → Prop) (root : RootHex) (pool : Pool DaemonState) : Prop :=
  Stands rely inv pool ∧ right root pool.shared.world

/-- The invariant holds whether or not a task has the walk. -/
theorem Stands.invariant
    {pool : Pool DaemonState}
    (stands : Stands rely inv pool) :
    inv pool.shared.world := by
  rcases stands.exclusive.held_or_free with held | free
  · exact held.2
  · exact free.2

/-- The tasks stand while the loop waits. -/
theorem steady_stands :
    Steady (Goes rely inv) (Stands rely inv) (Stands rely inv) where
  suspends := fun stands => stands
  stays := fun stands goes => (goes stands).1

variable (walk : WalkInvariant rely inv right)

include walk

theorem apart_refl
    (state : DaemonState) :
    Apart rely state state :=
  ⟨rfl, walk.refl state.world, grows_refl state.world⟩

theorem apart_trans
    {first middle last : DaemonState}
    (earlier : Apart rely first middle)
    (later : Apart rely middle last) :
    Apart rely first last where
  running := later.running.trans earlier.running
  world := walk.trans earlier.world later.world
  grows := grows_trans earlier.grows later.grows

/-- Whoever has the walk keeps it, whatever is done apart from it. -/
theorem apart_region :
    Pool.Region (Apart rely) (HasWalk inv) (WalkFree inv) where
  refl := apart_refl walk
  trans := apart_trans walk
  heldStays := fun _ _ held apart =>
    ⟨apart.running.trans held.1, walk.stays _ _ held.2 apart.world⟩
  freeStays := fun _ _ free apart =>
    ⟨apart.running.trans free.1, walk.stays _ _ free.2 apart.world⟩

/-! ## The pool -/

/-- What the loop does apart from the walk lets the tasks stand. -/
theorem goes_of_apart
    {pool : Pool DaemonState}
    {shared : DaemonState}
    (apart : Apart rely pool.shared shared) :
    Goes rely inv pool { pool with shared := shared } :=
  fun stands =>
    ⟨⟨stands.exclusive.moved (apart_region walk) apart, stands.grows⟩, apart.grows⟩

/-- A turn of any task lets them stand. -/
theorem goes_step
    (pool : Pool DaemonState)
    (index : Nat)
    (settles : Settle) :
    Goes rely inv pool (pool.step index settles) := by
  intro stands
  obtain ⟨grown, tasks⟩ :=
    Pool.step_guarantees keeping_grows.refl keeping_grows.trans stands.grows index settles
  exact ⟨⟨stands.exclusive.step (apart_region walk) index settles, tasks⟩, grown⟩

/-- Code of the loop that is not about the walk. -/
theorem stands_onShared
    {α : Type}
    {program : Async DaemonState α}
    (apart : program.Guarantees (Apart rely)) :
    (Pool.onShared program).Guarantees fun pool moved =>
      Stands rely inv pool → Stands rely inv moved :=
  guarantees_zoom (fun _ _ moves stands => (goes_of_apart walk moves stands).1) apart

omit walk in
/-- A task joins the tasks of the pool. -/
theorem grows_join
    {pool : Pool DaemonState}
    (grows : pool.Guarantees (OfWorld Grows))
    {task : Async DaemonState Unit}
    (guarantees : task.Guarantees (OfWorld Grows)) :
    { shared := (task.advance pool.shared).2
      tasks := pool.tasks ++ [(task.advance pool.shared).1] :
        Pool DaemonState }.Guarantees (OfWorld Grows) := by
  intro member isMember
  rcases List.mem_append.mp isMember with old | new
  · exact grows member old
  · have kept :=
      (Pool.guarantees_advance keeping_grows.refl keeping_grows.trans guarantees
        pool.shared).2
    exact List.mem_singleton.mp new ▸ kept

/-- So does a task that is started and keeps apart from the walk. -/
theorem stands_spawn
    {task : Async DaemonState Unit}
    (apart : task.Guarantees (Apart rely)) :
    (Pool.spawn task).Guarantees fun pool moved =>
      Stands rely inv pool → Stands rely inv moved := by
  refine (guarantees_modify _).mpr fun pool stands => ⟨?_, ?_⟩
  · obtain ⟨moved, kept⟩ :=
      Pool.guarantees_advance (apart_refl walk) (apart_trans walk) apart pool.shared
    exact stands.exclusive.join (apart_region walk) moved kept
  · exact grows_join stands.grows (apart.mono Apart.grows)

/-! ## The tasks -/

variable {config : Config} {balances : Bool} {answers : Answers}

omit walk in
/-- Processing a root keeps the log, with all that is recorded of it. -/
theorem rootChain_grows
    (finalizedHeader : BlockHeaderResponse)
    (nextRoot : RootHex) :
    (rootChain config balances answers finalizedHeader nextRoot).Guarantees
      (OfWorld Grows) := by
  have same (state : DaemonState) : OfWorld Grows state state := keeping_grows.refl state
  refine rootChain_guarantees same (fun _ => same) (fun _ => same) same ?_
  refine guarantees_zoom ?_
    (RootsProcessor.processNext_guarantees grows_dutyFrame grows_stackFrame config
      answers.consensus balances nextRoot finalizedHeader)
  exact fun _ _ grown => grown

omit walk in
/-- Processing a root that is right, by the task that has the walk. -/
theorem processNext_leads_walk
    (keeps : WalkKeeps config balances answers rely inv right)
    (finalizedHeader : BlockHeaderResponse)
    (nextRoot : RootHex) :
    Leads (Apart rely) (HasWalk inv) (HasRight inv right nextRoot) (HasWalk inv)
      (processNext config balances answers finalizedHeader nextRoot) := by
  have zoomed :
      Leads (Apart rely) (HasWalk inv) (HasRight inv right nextRoot) (HasWalk inv)
        (onWorld
          (RootsProcessor.processNext config answers.consensus balances nextRoot
            finalizedHeader)) := by
    refine ⟨fun state holds => ?_⟩
    refine wp_zoom (fun state : DaemonState => state.running .processNextRoot = true)
      (keeps.processes finalizedHeader nextRoot state.world holds.2.1 holds.2.2)
      holds.1 (fun _ _ => rfl) (fun _ _ flag => flag) ?_ ?_ ?_
    · exact fun flag _ apart => ⟨apart.running.trans flag, apart.world⟩
    · exact fun _ flag within => ⟨flag, within⟩
    · exact fun _ _ flag within => ⟨flag, within⟩
  refine leads_read_bind fun seen => ?_
  refine @leads_modify_bind _ _ _ _ _ (HasRight inv right nextRoot) _ _ _
    (fun _ reached => reached.2) ?_
  refine leads_attempt_bind zoomed fun outcome => ?_
  exact @leads_modify_bind _ _ _ _ _ (HasWalk inv) _ _ _ (fun _ reached => reached)
    (leads_ofOutcome outcome)

/-- The task of a root takes the walk when it is free. -/
theorem rootChain_taking
    (keeps : WalkKeeps config balances answers rely inv right)
    (finalizedHeader : BlockHeaderResponse)
    {nextRoot : RootHex}
    {pool : Pool DaemonState}
    (hasRoot : HasRoot rely inv right nextRoot pool) :
    Stands rely inv
      { shared :=
          ((rootChain config balances answers finalizedHeader nextRoot).advance
            pool.shared).2
        tasks :=
          pool.tasks ++
            [((rootChain config balances answers finalizedHeader nextRoot).advance
              pool.shared).1] } := by
  have region := apart_region walk
  have steady : Steady (Apart rely) (HasWalk inv) (HasWalk inv) :=
    ⟨fun held => held, fun held apart => region.heldStays _ _ held apart⟩
  have leads :
      Leads (Apart rely) (HasWalk inv)
        (Clear .processNextRoot fun state =>
          inv state.world ∧ right nextRoot state.world)
        (WalkFree inv)
        (processNextRoot config balances answers finalizedHeader nextRoot) :=
    have processes :=
      leads_trackTask steady
        (leads_call steady (processNext_leads_walk keeps finalizedHeader nextRoot))
    singletonTask_leads steady (fun _ => id) (fun _ => id) processes
  have clears :
      (modify (DaemonState.setRootProcessing false)).Guarantees (Apart rely) :=
    (guarantees_modify _).mpr fun state =>
      ⟨rfl, walk.refl state.world, grows_refl state.world⟩
  refine ⟨hasRoot.1.exclusive.taking region (fun free => ?_) fun held => ?_,
    grows_join hasRoot.1.grows (rootChain_grows finalizedHeader nextRoot)⟩
  · refine releases_onFinally region.freeStays (releases_onCatch region.freeStays ?_) clears
    exact releases_of_wp (leads.ends _ ⟨free.1, free.2, hasRoot.2⟩)
  · refine passes_callCatching_bind region.refl region.trans ?_ fun outcome =>
      guarantees_bind clears fun _ => guarantees_ofOutcome outcome
    exact passes_callCatching_bind region.refl region.trans
      (singletonTask_givesUp region.refl held.1) fun _ => trivial

/-- A task of another method, which is about the index if it is about the world. -/
theorem singletonTask_apart
    {method : TaskMethod}
    (other : method ≠ .processNextRoot)
    {originalMethod : Async DaemonState Unit}
    (apart : originalMethod.Guarantees (Apart rely)) :
    (onCatch (singletonTask method (trackTask originalMethod))).Guarantees
      (Apart rely) := by
  refine guarantees_onCatch
    (singletonTask_guarantees (apart_refl walk) ?_ (trackTask_guarantees apart))
  exact fun value state =>
    ⟨running_setRunning_of_ne other value state, walk.refl state.world,
      grows_refl state.world⟩

/-! ## The loop -/

omit walk in
/-- What moves as the index moves is apart from the walk. -/
theorem onWorld_apart
    (keeps : WalkKeeps config balances answers rely inv right)
    {α : Type}
    {program : Async World α}
    (indexMoves : program.Guarantees IndexMoves) :
    (onWorld program).Guarantees (Apart rely) :=
  guarantees_zoom (fun _ _ moves => ⟨rfl, keeps.index _ _ moves, moves.grows⟩) indexMoves

/-- What the loop records of itself is apart from the walk. -/
theorem modify_apart
    {update : DaemonState → DaemonState}
    (running :
      ∀ state, (update state).running .processNextRoot = state.running .processNextRoot)
    (same : ∀ state, (update state).world = state.world) :
    (modify update).Guarantees (Apart rely) := by
  refine (guarantees_modify _).mpr fun state => ⟨running state, ?_, ?_⟩
  · rw [same]
    exact walk.refl state.world
  · rw [same]
    exact grows_refl state.world

/-- Starting the tasks of a round lets them stand. -/
theorem startTasks_stands
    (keeps : WalkKeeps config balances answers rely inv right)
    (finalizedHeader : BlockHeaderResponse)
    (state : DaemonState) :
    Leads (Goes rely inv) (Stands rely inv) (Stands rely inv) (Stands rely inv)
      (startTasks config answers finalizedHeader state) := by
  have update :=
    stands_spawn walk
      (singletonTask_apart walk (by decide : TaskMethod.updateKeysIndexer ≠ _)
        (onWorld_apart keeps
          (guarantees_call
            (KeysIndexer.update_indexMoves config answers.consensus answers.keysapi
              finalizedHeader))))
  have badPerformers :
      (if isFinalizedHeaderChanged finalizedHeader state then
        Pool.spawn (onCatch (processBadPerformers config answers finalizedHeader))
      else return ()).Guarantees fun pool moved =>
        Stands rely inv pool → Stands rely inv moved := by
    split
    · refine stands_spawn walk
        (singletonTask_apart walk (by decide : TaskMethod.processBadPerformers ≠ _) ?_)
      exact guarantees_zoom
        (fun state _ _ => ⟨rfl, walk.refl state.world, grows_refl state.world⟩)
        (guarantees_true _)
    · trivial
  apply leads_of_guarantees steady_stands
  simp only [startTasks]
  split
  · exact guarantees_bind update fun _ => badPerformers
  · exact badPerformers

omit walk in
/-- The provider's answer is settled by the state in which it is asked. -/
theorem getNext_answers
    (finalizedHeader : BlockHeaderResponse)
    (state : DaemonState) :
    wp anything
      (fun root _ =>
        root = RootsProvider.nextOf config answers.consensus finalizedHeader state.world)
      (onWorld (RootsProvider.getNext config answers.consensus finalizedHeader)) state := by
  have answered :=
    @RootsProvider.getNext_spec config answers.consensus finalizedHeader anything state.world
      (fun root _ =>
        root = RootsProvider.nextOf config answers.consensus finalizedHeader state.world)
      ⟨fun _ => trivial, fun _ _ => trivial, fun _ _ => trivial, fun _ _ => trivial⟩
      (fun _ _ => trivial) (fun _ _ => trivial) fun _ _ => rfl
  have inside :=
    @wp_zoom _ _ _ DaemonState.world (fun world state => { state with world := world })
      anything anything (fun _ => True) _ _ state answered trivial (fun _ _ => rfl)
      (fun _ _ _ => trivial) (fun _ _ _ => ⟨trivial, trivial⟩) (fun _ _ _ => trivial)
      (fun _ _ _ _ => trivial)
  exact wp_mono inside fun _ _ reached => reached.2

omit walk in
/-- Choosing the next root changes nothing. -/
theorem getNext_unmoved
    (finalizedHeader : BlockHeaderResponse) :
    (onWorld (RootsProvider.getNext config answers.consensus finalizedHeader)).Guarantees
      Eq := by
  refine guarantees_zoom (fun state moved same => ?_)
    (RootsProvider.getNext_guarantees (fun world : World => Eq.refl world) config
      answers.consensus finalizedHeader)
  exact congrArg (fun world => { state with world := world }) same

/-- The root the loop is given is right for the walk as it is by then. -/
theorem getNext_leads_hasRoot
    (keeps : WalkKeeps config balances answers rely inv right)
    (finalizedHeader : BlockHeaderResponse)
    {next : Option RootHex → Async (Pool DaemonState) Unit}
    (waits :
      Leads (Goes rely inv) (Stands rely inv) (Stands rely inv) (Stands rely inv)
        (next none))
    (starts :
      ∀ root,
        Leads (Goes rely inv) (Stands rely inv) (HasRoot rely inv right root)
          (Stands rely inv) (next (some root))) :
    Leads (Goes rely inv) (Stands rely inv) (Stands rely inv) (Stands rely inv)
      (getNext config answers finalizedHeader >>= next) := by
  simp only [getNext, bind_assoc]
  refine leads_read_bind fun seen => ⟨?_⟩
  rintro pool ⟨rfl, stands⟩
  rw [Pool.onShared_modify, wp_bind, wp_modify, wp_bind]
  -- Whatever moves meanwhile, the log only grows from where the root was chosen.
  let since (later : Pool DaemonState) : Prop :=
    Stands rely inv later ∧ Grows pool.shared.world later.shared.world
  have steady : Steady (Goes rely inv) (Stands rely inv) since :=
    ⟨fun reached => reached.1, fun reached goes =>
      ⟨(goes reached.1).1, grows_trans reached.2 (goes reached.1).2⟩⟩
  have recorded
      (event : DaemonEvent)
      {later : Pool DaemonState}
      (reached : since later) :
      since { later with shared := later.shared.record event } :=
    steady.stays reached (goes_of_apart walk ⟨rfl, walk.refl _, grows_refl _⟩)
  let answer := RootsProvider.nextOf config answers.consensus finalizedHeader pool.shared.world
  have asked :=
    recorded (.getNextCalled pool.shared.world.rootsStack) ⟨stands, grows_refl _⟩
  have answered :
      wp { rely := Goes rely inv, suspended := Stands rely inv, aborted := fun _ => since }
        (fun root later => root = answer ∧ since later)
        (Pool.onShared <| onWorld <|
          RootsProvider.getNext config answers.consensus finalizedHeader)
        { pool with
          shared := pool.shared.record (.getNextCalled pool.shared.world.rootsStack) } := by
    refine wp_zoom_answers steady (fun _ _ => rfl) ?_
      (getNext_answers finalizedHeader
        (pool.shared.record (.getNextCalled pool.shared.world.rootsStack)))
      (getNext_unmoved finalizedHeader) asked
    rintro later _ reached rfl
    exact reached
  refine wp_mono
    (@wp_callCatching _ _ _ _
      (fun outcome later => since later ∧ ∀ root, outcome = .ok root → root = answer)
      _ (fun _ _ reached => steady.suspends reached.1)
      (fun _ _ _ reached goes => ⟨steady.stays reached.1 goes, reached.2⟩) ?_) ?_
  · refine wp_weaken answered (fun goes => goes) (fun _ => id) ?_ ?_
    · refine fun reason later reached => ⟨reached, fun _ isOk => ?_⟩
      cases isOk
    · exact fun root later reached =>
        ⟨reached.2, fun _ isOk => Except.ok.inj isOk ▸ reached.1⟩
  · rintro outcome later ⟨reached, isAnswer⟩
    rw [wp_bind, Pool.onShared_modify, wp_modify]
    have settled := recorded (.getNextSettled outcome) reached
    cases outcome with
    | error reason => exact settled.1
    | ok root =>
        cases root with
        | none => exact waits.ends _ settled.1
        | some root =>
            have chosen := keeps.chooses finalizedHeader _ root stands.invariant
              (isAnswer _ rfl).symm
            exact (starts root).ends _
              ⟨settled.1, walk.staysRight root _ _ chosen settled.2⟩

/-- One round of the loop leaves the walk to the tasks. -/
theorem loopBody_stands
    (keeps : WalkKeeps config balances answers rely inv right) :
    Leads (Goes rely inv) (Stands rely inv) (Stands rely inv) (Stands rely inv)
      (loopBody config balances answers) := by
  have shared
      {α : Type}
      {program : Async DaemonState α}
      (apart : program.Guarantees (Apart rely)) :
      Leads (Goes rely inv) (Stands rely inv) (Stands rely inv) (Stands rely inv)
        (Pool.onShared program) :=
    leads_of_guarantees steady_stands (stands_onShared walk apart)
  have init :
      Leads (Goes rely inv) (Stands rely inv) (Stands rely inv) (Stands rely inv)
        (initKeysIndexer config answers) := by
    apply leads_of_guarantees steady_stands
    apply guarantees_bind (guarantees_read fun _ => id)
    intro pool
    split
    · exact stands_onShared walk
        (onWorld_apart keeps
          (guarantees_call
            (KeysIndexer.initOrReadServiceData_indexMoves config answers.consensus
              answers.keysapi answers.fileReads)))
    · trivial
  have startNextRoot
      (finalizedHeader : BlockHeaderResponse)
      (root : RootHex) :
      Leads (Goes rely inv) (Stands rely inv) (HasRoot rely inv right root)
        (Stands rely inv)
        (startNextRoot config balances answers finalizedHeader root) := by
    refine leads_modify_bind
      (fun pool hasRoot => rootChain_taking walk keeps finalizedHeader hasRoot) ?_
    exact shared (modify_apart walk (fun _ => rfl) fun _ => rfl)
  have baseRun :
      Leads (Goes rely inv) (Stands rely inv) (Stands rely inv) (Stands rely inv)
        (baseRun config balances answers) := by
    refine leads_bind (shared guarantees_settle) fun _ => ?_
    refine leads_read_bind fun seen => Leads.of_imp ?_ fun _ reached => reached.2
    refine leads_bind (startTasks_stands walk keeps _ _) fun _ => ?_
    refine leads_bind (shared (modify_apart walk (fun _ => rfl) fun _ => rfl)) fun _ => ?_
    refine leads_read_bind fun seen => Leads.of_imp ?_ fun _ reached => reached.2
    split
    · exact leads_pure ()
    · refine getNext_leads_hasRoot walk keeps _ (leads_tick steady_stands) fun root => ?_
      exact startNextRoot _ root
  exact leads_attempt_bind
    (leads_bind init fun _ => leads_call steady_stands baseRun)
    fun _ => leads_tick steady_stands

/-- What a walk keeps by itself it keeps in the daemon, in every interleaving. -/
theorem runLoop_walk
    {answers : Nat → Answers}
    (keeps : ∀ iteration, WalkKeeps config balances (answers iteration) rely inv right)
    {world : World}
    (starts : inv world)
    (strikes : StrikesWorld)
    (turns : List (Turn BlockHeaderResponse)) :
    inv (runLoop config balances answers world strikes turns).pool.shared.world := by
  let protocol : Protocol (Pool DaemonState) :=
    { rely := Goes rely inv
      suspended := Stands rely inv
      aborted := fun _ => Stands rely inv }
  have stable : protocol.Stable :=
    { refl := fun _ stands => ⟨stands, grows_refl _⟩
      trans := fun earlier later stands =>
        ⟨(later (earlier stands).1).1,
          grows_trans (earlier stands).2 (later (earlier stands).1).2⟩
      suspended := fun stands goes => (goes stands).1
      aborted := fun stands goes => (goes stands).1 }
  have started : Stands rely inv { shared := .initial world strikes, tasks := [] } :=
    ⟨.inl ⟨⟨rfl, starts⟩, by simp [Pool.Guarantees]⟩, by simp [Pool.Guarantees]⟩
  have meets :
      (runLoop config balances answers world strikes turns).Meets protocol
        (Stands rely inv) := by
    apply Running.run_meets stable _ _ _ _ started
    · exact fun _ _ stands goes => (goes stands).1
    · exact fun iteration pool stands =>
        (loopBody_stands walk (keeps iteration)).ends pool stands
    · exact goes_step walk
    · exact fun pool finalizedHeader =>
        goes_of_apart walk ⟨rfl, walk.observe finalizedHeader _, grows_refl _⟩
  exact meets.holds (fun _ => Stands.invariant) (fun _ _ => Stands.invariant)
    fun _ => Stands.invariant

end Loop

/-! ## Processes -/

/-- One process of the daemon, up to where it is killed. -/
structure Process where
  answers : Nat → Answers
  turns : List (Turn BlockHeaderResponse)

/-- A new process: it reads the files of the stack, and nothing of the index yet. -/
def restart (config : Config) (world : World) : World :=
  Walk.restart (KeysIndex.restart config world)

/-- The world and the service of a process, as it leaves them. -/
def Process.perform (config : Config) (balances : Bool) (left : World × StrikesWorld)
    (process : Process) : World × StrikesWorld :=
  let state :=
    (runLoop config balances process.answers (restart config left.1) left.2.restart
      process.turns).pool.shared
  (state.world, state.strikes)

/-- What is left after processes that ran one after the other. -/
def life (config : Config) (balances : Bool) (world : World) (strikes : StrikesWorld)
    (processes : List Process) : World × StrikesWorld :=
  processes.foldl (Process.perform config balances) (world, strikes)

/-- What restarts keep as well, the daemon keeps all its life. -/
theorem life_walk
    {config : Config}
    {balances : Bool}
    {rely : World → World → Prop}
    {inv : World → Prop}
    {right : RootHex → World → Prop}
    (walk : WalkInvariant rely inv right)
    (restarts : ∀ world, inv world → inv (restart config world))
    {processes : List Process}
    (keeps :
      ∀ process ∈ processes, ∀ iteration,
        WalkKeeps config balances (process.answers iteration) rely inv right)
    {world : World}
    (starts : inv world)
    (strikes : StrikesWorld) :
    inv (life config balances world strikes processes).1 := by
  induction processes generalizing world strikes with
  | nil => exact starts
  | cons process rest inductionHypothesis =>
      exact inductionHypothesis (fun later member => keeps later (by simp [member]))
        (runLoop_walk walk (keeps process (by simp)) (restarts world starts)
          strikes.restart process.turns)
        _

/-! ## No block is lost -/

section Walk

open Walk

variable {chain : Chain} {start : Nat}

/-- A root at most one above a block the walk has been at. -/
def IsNext (chain : Chain) (start : Nat) (root : RootHex) (world : World) : Prop :=
  ∃ height top,
    root = (chain.block height).blockRoot ∧ start < height ∧ height ≤ top + 1 ∧
      (top = start ∨ .lastProcessedSet (chain.block top) ∈ world.log)

/-- For the walk the index is somebody beside it. -/
theorem beside_of_indexMoves
    {world moved : World}
    (moves : IndexMoves world moved) :
    Walk.Beside world moved := by
  obtain ⟨events, log, isIndex⟩ := moves.log
  have notNew
      {event : Event}
      (foreign : ¬ IsIndexEvent event) :
      event ∈ moved.log ↔ event ∈ world.log := by
    rw [log, List.mem_append, or_iff_left fun member => foreign (isIndex event member)]
  exact
    { stack := moves.rootsStack
      info := moves.rootsStackInfo
      storage := moves.rootsStackStorage
      visited := fun _ => notNew id
      returned := fun _ => notNew id }

/-- Walking a chain is an invariant of the walk. -/
theorem walkInvariant_walks
    (chain : Chain)
    (start : Nat) :
    WalkInvariant Walk.Beside (Walks chain start) (IsNext chain start) where
  refl := beside_refl
  trans := beside_trans
  stays := fun _ _ walks beside => (protocol_stable chain start).suspended walks beside
  staysRight := by
    rintro root world moved ⟨height, top, isBlock, low, high, reached⟩ ⟨events, log⟩
    refine ⟨height, top, isBlock, low, high, reached.imp_right fun visited => ?_⟩
    rw [log]
    exact List.mem_append_left _ visited
  observe := fun _ _ => ⟨rfl, rfl, rfl, fun _ => Iff.rfl, fun _ => Iff.rfl⟩

/-- A client that serves the chain keeps it. -/
theorem walkKeeps_walks
    {config : Config}
    {balances : Bool}
    {answers : Answers}
    (serves : Serves chain answers.consensus) :
    WalkKeeps config balances answers Walk.Beside (Walks chain start)
      (IsNext chain start) where
  index := fun _ _ => beside_of_indexMoves
  chooses := by
    rintro finalizedHeader world root ⟨frontier, walked⟩ isNext
    obtain ⟨candidate, ⟨height, low, high, rfl⟩, rfl⟩ := nextOf_next serves walked isNext
    exact ⟨height, frontier, rfl, low, high, walked.reached.top⟩
  processes := by
    rintro finalizedHeader root world ⟨frontier, walked⟩ ⟨height, top, rfl, low, high, reached⟩
    have atMost : top ≤ frontier := by
      rcases reached with rfl | visited
      · exact walked.reached.ahead
      · obtain ⟨visitedHeight, below, sameBlock⟩ := walked.reached.visited _ visited
        have sameSlot := congrArg RootSlot.slotNumber sameBlock
        rw [chain.increasing.injective sameSlot]
        exact below
    exact processNext_spec serves walked low (by omega)

/-- A restart keeps it too. -/
theorem walks_restart
    {config : Config}
    {world : World}
    (walks : Walks chain start world) :
    Walks chain start (restart config world) := by
  obtain ⟨frontier, walked⟩ := walks
  exact ⟨frontier,
    { reached := walked.reached
      memory := walked.disk
      disk := walked.disk }⟩

/-- A process that finds a last processed root and no stacked one begins the walk there. -/
theorem walks_of_files
    {config : Config}
    {world : World}
    (lastProcessed : world.disk.rootsStackInfo = some (some (chain.block start)))
    (emptyStack :
      ∀ slot : Nat, (world.disk.rootsStackStorage.getD ∅)[slot]? = none)
    (noEvents : world.log = []) :
    Walks chain start (restart config world) := by
  have holds : Walk.Holds chain start start (RootsStack.readServiceData world.disk) :=
    { lastProcessed :=
        ⟨start, le_rfl, le_rfl, by simp [RootsStack.readServiceData, lastProcessed]⟩
      stacked := by
        intro slot blockRoot found
        rw [RootsStack.readServiceData, emptyStack slot] at found
        cases found }
  have sameLog : (restart config world).log = [] := noEvents
  exact ⟨start,
    { reached :=
        { ahead := le_rfl
          visited := by simp [sameLog]
          top := .inl rfl
          completed := fun height low high => by omega }
      memory := holds
      disk := holds }⟩

/--
From a persisted last processed root with an empty stack the daemon loses no block:
whatever the interleavings of the loop, the index and the strikes with the processing
of the roots, however the promises settle and wherever the processes are killed.
-/
theorem daemon_loses_no_block
    (config : Config)
    (balances : Bool)
    (chain : Chain)
    (start : Nat)
    (world : World)
    (lastProcessed : world.disk.rootsStackInfo = some (some (chain.block start)))
    (emptyStack :
      ∀ slot : Nat, (world.disk.rootsStackStorage.getD ∅)[slot]? = none)
    (noEvents : world.log = [])
    (strikes : StrikesWorld)
    (processes : List Process)
    (serves :
      ∀ process ∈ processes, ∀ iteration,
        Serves chain (process.answers iteration).consensus) :
    NothingLost chain start
      (life config balances (restart config world) strikes processes).1 := by
  have initial : Walks chain start (restart config world) :=
    walks_of_files lastProcessed emptyStack noEvents
  exact
    (life_walk (walkInvariant_walks chain start) (fun _ => walks_restart)
      (fun process member iteration => walkKeeps_walks (serves process member iteration))
      initial strikes).nothingLost

/-! ### A root begun by one process and finished by the next -/

/-- The clients of the walk samples, in a daemon. -/
def sampleWalkAnswers : Answers :=
  { sampleAnswers with
    consensus := Walk.sampleConsensus
    keysapi := KeysIndex.sampleKeysapi }

/-- A process that starts a root, and gives its task as many turns as it lives for. -/
def sampleProcess (turns : Nat) : Process where
  answers := fun _ => sampleWalkAnswers
  turns :=
    List.replicate 20 (.loop .resolved) ++ List.replicate turns (.task 1 .resolved)

set_option maxRecDepth 4000 in
theorem daemon_loses_no_block_sample :
    let left :=
      (life KeysIndex.sampleConfig false
        (restart KeysIndex.sampleConfig Walk.sampleWorld) .fresh
        [sampleProcess 4, sampleProcess 20]).1
    left.rootsStack.lastProcessedRootSlot = some { blockRoot := 6, slotNumber := 6 } ∧
      NothingLost Walk.sampleChain 5 left := by
  refine ⟨by decide, ?_⟩
  exact daemon_loses_no_block KeysIndex.sampleConfig false Walk.sampleChain 5
    Walk.sampleWorld rfl (by simp [Walk.sampleWorld, World.blank]) rfl .fresh
    [sampleProcess 4, sampleProcess 20]
    (by
      intro process member iteration
      simp only [List.mem_cons, List.not_mem_nil, or_false] at member
      rcases member with rfl | rfl <;> exact Walk.sampleConsensus_serves)

end Walk

end DaemonService

end CsmProver
