import CsmProver.DaemonLoop
import Mathlib.Data.List.Induction

namespace CsmProver

/-!
# One root at a time

The walk of the daemon goes through phases: it rests, chooses a root, and processes
the root it has chosen.  The two guards of the loop keep every interleaving of the
loop with its tasks on this path.
-/

open Async

namespace DaemonService

/-! ## The phases of the walk -/

/-- Where the walk is; a choice remembers the stack it was made from. -/
inductive Phase where
  | resting
  | choosing (rootsStack : RootsStackFields)
  | chosen (rootsStack : RootsStackFields) (root : RootHex)
  | processing (root : RootHex)

/-- The one way through the phases. -/
inductive Phase.Next : Phase → DaemonEvent → Phase → Prop where
  | call (rootsStack : RootsStackFields) :
      Next .resting (.getNextCalled rootsStack) (.choosing rootsStack)
  | choose (rootsStack : RootsStackFields) (root : RootHex) :
      Next (.choosing rootsStack) (.getNextSettled (.ok (some root)))
        (.chosen rootsStack root)
  | wait (rootsStack : RootsStackFields) :
      Next (.choosing rootsStack) (.getNextSettled (.ok none)) .resting
  | throw (rootsStack : RootsStackFields) (reason : Abort) :
      Next (.choosing rootsStack) (.getNextSettled (.error reason)) .resting
  | start (rootsStack : RootsStackFields) (root : RootHex) :
      Next (.chosen rootsStack root) (.processNextCalled root rootsStack)
        (.processing root)
  | settle (root : RootHex) (outcome : Except Abort Unit) :
      Next (.processing root) (.processNextSettled root outcome) .resting

/-- A trace that follows the phases from rest. -/
inductive Follows : List DaemonEvent → Phase → Prop where
  | nil : Follows [] .resting
  | concat {trace : List DaemonEvent} {phase next : Phase} {event : DaemonEvent}
      (earlier : Follows trace phase) (step : phase.Next event next) :
      Follows (trace ++ [event]) next

/-- A phase in which a block of the program may end. -/
def Phase.Visible : Phase → Prop
  | .chosen _ _ => False
  | _ => True

/-- The calls of `getNext` and the ends of them. -/
def getNextCalls (trace : List DaemonEvent) : Nat :=
  trace.countP fun
    | .getNextCalled _ => true
    | _ => false

def getNextEnds (trace : List DaemonEvent) : Nat :=
  trace.countP fun
    | .getNextSettled _ => true
    | _ => false

/-- The roots `getNext` has returned. -/
def returnedRoots (trace : List DaemonEvent) : List RootHex :=
  trace.filterMap fun
    | .getNextSettled (.ok root) => root
    | _ => none

/-- The roots `processNext` was called with. -/
def startedRoots (trace : List DaemonEvent) : List RootHex :=
  trace.filterMap fun
    | .processNextCalled root _ => some root
    | _ => none

/-- The roots whose `processNext` has returned or failed. -/
def settledRoots (trace : List DaemonEvent) : List RootHex :=
  trace.filterMap fun
    | .processNextSettled root _ => some root
    | _ => none

section Follows

variable {trace : List DaemonEvent} {phase : Phase}

theorem Follows.starts
    (follows : Follows trace phase)
    {past : List DaemonEvent}
    (starts : past <+: trace) :
    ∃ earlier, Follows past earlier := by
  induction follows with
  | nil =>
      rw [List.prefix_nil.mp starts]
      exact ⟨_, .nil⟩
  | concat earlier step inductionHypothesis =>
      rcases List.prefix_concat_iff.mp starts with whole | before
      · subst whole
        exact ⟨_, .concat earlier step⟩
      · exact inductionHypothesis before

/-- Between the calls and the ends lies what the phase says. -/
theorem Follows.counts
    (follows : Follows trace phase) :
    match phase with
    | .resting =>
        getNextCalls trace = getNextEnds trace ∧
          returnedRoots trace = startedRoots trace ∧
          startedRoots trace = settledRoots trace
    | .choosing _ =>
        getNextCalls trace = getNextEnds trace + 1 ∧
          returnedRoots trace = startedRoots trace ∧
          startedRoots trace = settledRoots trace
    | .chosen _ root =>
        getNextCalls trace = getNextEnds trace ∧
          returnedRoots trace = startedRoots trace ++ [root] ∧
          startedRoots trace = settledRoots trace
    | .processing root =>
        getNextCalls trace = getNextEnds trace ∧
          returnedRoots trace = startedRoots trace ∧
          startedRoots trace = settledRoots trace ++ [root] := by
  induction follows with
  | nil =>
      exact ⟨rfl, rfl, rfl⟩
  | concat earlier step inductionHypothesis =>
      cases step <;>
        simp_all [getNextCalls, getNextEnds, returnedRoots, startedRoots, settledRoots]

theorem Follows.last
    {past : List DaemonEvent}
    {event : DaemonEvent}
    (follows : Follows (past ++ [event]) phase) :
    ∃ earlier, Follows past earlier ∧ earlier.Next event phase := by
  generalize whole : past ++ [event] = trace at follows
  cases follows with
  | nil => simp at whole
  | concat earlier step =>
      obtain ⟨rfl, sameEvent⟩ := List.append_inj' whole rfl
      cases sameEvent
      exact ⟨_, earlier, step⟩

theorem Follows.chosen
    {rootsStack : RootsStackFields}
    {root : RootHex}
    (follows : Follows trace (.chosen rootsStack root)) :
    ∃ earlier,
      trace =
        earlier ++ [.getNextCalled rootsStack, .getNextSettled (.ok (some root))] := by
  cases follows with
  | concat choosing step =>
      cases step with
      | choose =>
          cases choosing with
          | concat resting step =>
              cases step with
              | call => exact ⟨_, List.append_assoc _ _ _⟩

/-- A root is started right after it was returned, with the stack it was chosen from. -/
theorem Follows.started
    {past later : List DaemonEvent}
    {root : RootHex}
    {rootsStack : RootsStackFields}
    (follows : Follows (past ++ .processNextCalled root rootsStack :: later) phase) :
    ∃ earlier,
      past =
        earlier ++ [.getNextCalled rootsStack, .getNextSettled (.ok (some root))] := by
  rw [List.append_cons] at follows
  obtain ⟨next, starts⟩ := follows.starts (List.prefix_append _ _)
  obtain ⟨earlier, before, step⟩ := starts.last
  cases step with
  | start => exact before.chosen

end Follows

/-! ## What the guards have to do with the phases -/

/-- What the guards and the walk are about stays as it is. -/
structure Unmoved (state moved : DaemonState) : Prop where
  rootProcessing : moved.rootProcessing = state.rootProcessing
  running : moved.running .processNextRoot = state.running .processNextRoot
  trace : moved.trace = state.trace
  rootsStack : moved.world.rootsStack = state.world.rootsStack

theorem unmoved_refl
    (state : DaemonState) :
    Unmoved state state :=
  ⟨rfl, rfl, rfl, rfl⟩

theorem unmoved_trans
    {first middle last : DaemonState}
    (earlier : Unmoved first middle)
    (later : Unmoved middle last) :
    Unmoved first last where
  rootProcessing := later.rootProcessing.trans earlier.rootProcessing
  running := later.running.trans earlier.running
  trace := later.trace.trans earlier.trace
  rootsStack := later.rootsStack.trans earlier.rootsStack

/-- The two guards, and the phase of the walk. -/
structure At (rootProcessing flag : Bool) (phase : Phase) (state : DaemonState) :
    Prop where
  rootProcessing : state.rootProcessing = rootProcessing
  running : state.running .processNextRoot = flag
  follows : Follows state.trace phase

/-- What a task that processes a root relies on: the guards and the trace are its own. -/
structure Beside (state moved : DaemonState) : Prop where
  rootProcessing : moved.rootProcessing = state.rootProcessing
  running : moved.running .processNextRoot = state.running .processNextRoot
  trace : moved.trace = state.trace

theorem Unmoved.beside
    {state moved : DaemonState}
    (unmoved : Unmoved state moved) :
    Beside state moved :=
  ⟨unmoved.rootProcessing, unmoved.running, unmoved.trace⟩

theorem At.beside
    {rootProcessing flag : Bool}
    {phase : Phase}
    {state moved : DaemonState}
    (holds : At rootProcessing flag phase state)
    (beside : Beside state moved) :
    At rootProcessing flag phase moved where
  rootProcessing := beside.rootProcessing.trans holds.rootProcessing
  running := beside.running.trans holds.running
  follows := by
    rw [beside.trace]
    exact holds.follows

/-- A task that processes a root may be waiting here. -/
def Guarded (state : DaemonState) : Prop :=
  ∃ flag phase, At true flag phase state ∧ phase.Visible

/-- The chain has cleared both guards. -/
abbrev Cleared : DaemonState → Prop :=
  At false false .resting

def chainProtocol : Protocol DaemonState where
  rely := Beside
  suspended := Guarded
  aborted := fun _ => Cleared

theorem chainProtocol_patient :
    Pool.Patient chainProtocol where
  refl := fun _ => ⟨rfl, rfl, rfl⟩
  trans := fun earlier later =>
    ⟨later.rootProcessing.trans earlier.rootProcessing,
      later.running.trans earlier.running, later.trace.trans earlier.trace⟩
  suspended := by
    rintro state moved ⟨flag, phase, holds, visible⟩ beside
    exact ⟨flag, phase, holds.beside beside, visible⟩

/-! ## The chain of one root -/

section Chain

variable (config : Config) (balances : Bool) (answers : Answers)
variable (finalizedHeader : BlockHeaderResponse) (nextRoot : RootHex)

theorem steady_at
    {flag : Bool}
    {phase : Phase}
    (visible : phase.Visible) :
    Steady Beside Guarded (At true flag phase) where
  suspends := fun holds => ⟨flag, phase, holds, visible⟩
  stays := fun holds beside => holds.beside beside

/-- Between the choice of a root and its start. -/
def Chosen (rootProcessing flag : Bool) (state : DaemonState) : Prop :=
  At rootProcessing flag (.chosen state.world.rootsStack nextRoot) state

theorem processNext_leads :
    Leads Beside Guarded (Chosen nextRoot true true) (At true true .resting)
      (processNext config balances answers finalizedHeader nextRoot) := by
  have processing : Steady Beside Guarded (At true true (.processing nextRoot)) :=
    steady_at (by trivial)
  have processes :
      Leads Beside Guarded (At true true (.processing nextRoot))
        (At true true (.processing nextRoot))
        (onWorld <| RootsProcessor.processNext config answers.consensus balances nextRoot
          finalizedHeader) :=
    leads_of_guarantees processing
      (guarantees_zoom
        (fun _ _ _ holds => ⟨holds.rootProcessing, holds.running, holds.follows⟩)
        (guarantees_true _))
  have settles :
      ∀ outcome,
        Leads Beside Guarded (At true true (.processing nextRoot)) (At true true .resting)
          (modify (DaemonState.record (.processNextSettled nextRoot outcome)) >>= fun _ =>
            ofOutcome outcome) := by
    intro outcome
    refine leads_modify_bind (fun _ holds => ?_) (leads_ofOutcome outcome)
    exact ⟨holds.rootProcessing, holds.running, .concat holds.follows (.settle _ outcome)⟩
  refine leads_read_bind fun seen => ?_
  refine leads_modify_bind ?_ (leads_attempt_bind processes settles)
  rintro state ⟨rfl, chosen⟩
  exact ⟨chosen.rootProcessing, chosen.running, .concat chosen.follows (.start _ _)⟩

/-- A task whose flag is clear takes it and runs. -/
theorem leads_singletonTask
    {rely : DaemonState → DaemonState → Prop}
    {suspended first flagged last : DaemonState → Prop}
    {method : TaskMethod}
    {originalMethod : Async DaemonState Unit}
    (idle : ∀ state, first state → state.running method = false)
    (flags : ∀ state, first state → flagged (state.setRunning method true))
    (runs :
      Leads rely suspended flagged last
        (onFinally originalMethod (modify (DaemonState.setRunning method false)))) :
    Leads rely suspended first last (singletonTask method originalMethod) := by
  refine leads_read_bind fun seen => ⟨?_⟩
  rintro state ⟨rfl, holds⟩
  simp only [idle state holds, Bool.false_eq_true, if_false, wp_bind, wp_modify]
  exact runs.ends _ (flags state holds)

/-- The flag of the task is taken while its root is processed, and no longer. -/
theorem processNextRoot_leads :
    Leads Beside Guarded (Chosen nextRoot true false) (At true false .resting)
      (processNextRoot config balances answers finalizedHeader nextRoot) := by
  have resting : Steady Beside Guarded (At true true .resting) := steady_at (by trivial)
  have called :=
    leads_call resting (processNext_leads config balances answers finalizedHeader nextRoot)
  have tracked :=
    leads_onFinally resting (leads_passOn resting (leads_passOn resting called))
      (leads_pure ())
  have clears :
      Leads Beside Guarded (At true true .resting) (At true false .resting)
        (modify (DaemonState.setRunning .processNextRoot false)) :=
    leads_modify fun _ holds =>
      ⟨holds.rootProcessing, by simp [DaemonState.setRunning], holds.follows⟩
  exact leads_singletonTask (fun _ chosen => chosen.running)
    (fun _ chosen =>
      ⟨chosen.rootProcessing, by simp [DaemonState.setRunning], chosen.follows⟩)
    (leads_onFinally resting tracked clears)

/-- Both guards are cleared at the end of the chain, in whichever way it ends. -/
theorem chain_leads :
    Leads Beside Guarded (Chosen nextRoot true false) Cleared
      (rootChain config balances answers finalizedHeader nextRoot) := by
  have resting : Steady Beside Guarded (At true false .resting) := steady_at (by trivial)
  have caught :=
    leads_onCatch resting
      (processNextRoot_leads config balances answers finalizedHeader nextRoot)
  have clears :
      Leads Beside Guarded (At true false .resting) Cleared
        (modify (DaemonState.setRootProcessing false)) :=
    leads_modify fun _ holds => ⟨rfl, holds.running, holds.follows⟩
  exact leads_onFinally resting caught clears

theorem onWorld_ignores
    {α : Type}
    (program : Async World α) :
    (onWorld program).Ignores (DaemonState.setRootProcessing true) := by
  apply ignores_zoom
  · exact fun _ => rfl
  · exact fun _ _ => rfl

/-- The first block of the chain does not look at the field it is assigned to. -/
theorem chain_ignores :
    (rootChain config balances answers finalizedHeader nextRoot).Ignores
      (DaemonState.setRootProcessing true) := by
  have processes :
      (processNext config balances answers finalizedHeader nextRoot).Ignores
        (DaemonState.setRootProcessing true) := by
    refine ignores_read_bind (fun _ => rfl) fun state => ?_
    apply ignores_bind
    · exact ignores_modify fun _ => rfl
    · intro _
      apply ignores_bind
      · exact ignores_attempt (onWorld_ignores _)
      · intro outcome
        apply ignores_bind
        · exact ignores_modify fun _ => rfl
        · cases outcome <;> exact fun _ => trivial
  have runs :
      (processNextRoot config balances answers finalizedHeader nextRoot).Ignores
        (DaemonState.setRootProcessing true) := by
    refine ignores_read_bind (fun _ => rfl) fun state => ?_
    split
    · trivial
    · apply ignores_bind
      · exact ignores_modify fun _ => rfl
      · intro _
        refine ignores_callCatching_bind ?_ _
        refine ignores_callCatching_bind ?_ _
        refine ignores_callCatching_bind ?_ _
        refine ignores_callCatching_bind ?_ _
        exact ignores_call processes
  exact ignores_callCatching_bind (ignores_callCatching_bind runs _) _

end Chain

/-! ## The pool of the tasks -/

/-- No root is processed: both guards are clear, and no task will touch them. -/
structure Idle (phase : Phase) (pool : Pool DaemonState) : Prop where
  walk : At false false phase pool.shared
  tasks : pool.Guarantees Unmoved

/-- One task processes a root or is about to clear the guards. -/
def Busy (pool : Pool DaemonState) : Prop :=
  ∃ owner, pool.OwnedBy chainProtocol (fun _ => Cleared) Unmoved owner

/-- The loop is not choosing a root. -/
def Rest (pool : Pool DaemonState) : Prop :=
  Idle .resting pool ∨ Busy pool

/-- The loop is choosing a root from the stack as it is now. -/
def Choosing (pool : Pool DaemonState) : Prop :=
  Idle (.choosing pool.shared.world.rootsStack) pool

/-- The loop has been given a root chosen from the stack as it is now. -/
def ChosenRoot (root : RootHex) (pool : Pool DaemonState) : Prop :=
  Idle (.chosen pool.shared.world.rootsStack root) pool

/-- What the tasks and the outside may do while the loop waits. -/
def PoolMoves (pool moved : Pool DaemonState) : Prop :=
  (Rest pool → Rest moved) ∧ (Choosing pool → Choosing moved)

def PoolWaits (pool : Pool DaemonState) : Prop :=
  Rest pool ∨ Choosing pool

section Pools

variable {pool next : Pool DaemonState}

theorem Idle.moved
    {phase : Phase}
    (idle : Idle phase pool)
    (unmoved : Unmoved pool.shared next.shared)
    (tasks : next.Guarantees Unmoved) :
    Idle phase next where
  walk := idle.walk.beside unmoved.beside
  tasks := tasks

theorem steady_rest :
    Steady PoolMoves PoolWaits Rest :=
  ⟨.inl, fun holds moves => moves.1 holds⟩

theorem steady_choosing :
    Steady PoolMoves PoolWaits Choosing :=
  ⟨.inr, fun holds moves => moves.2 holds⟩

/-- A change that is about neither the guards nor the walk. -/
theorem poolMoves_of_unmoved
    {shared : DaemonState}
    (unmoved : Unmoved pool.shared shared) :
    PoolMoves pool { pool with shared := shared } := by
  constructor
  · rintro (idle | ⟨owner, owned⟩)
    · exact .inl (idle.moved unmoved idle.tasks)
    · exact .inr ⟨owner, owned.moved chainProtocol_patient unmoved.beside⟩
  · intro choosing
    unfold Choosing
    rw [unmoved.rootsStack]
    exact choosing.moved unmoved choosing.tasks

/-- A turn of a task: the last one of a chain clears the guards. -/
theorem poolMoves_step
    (pool : Pool DaemonState)
    (index : Nat)
    (settles : Settle) :
    PoolMoves pool (pool.step index settles) := by
  constructor
  · rintro (idle | ⟨owner, owned⟩)
    · obtain ⟨unmoved, tasks⟩ :=
        Pool.step_guarantees unmoved_refl unmoved_trans idle.tasks index settles
      exact .inl (idle.moved unmoved tasks)
    · rcases owned.step chainProtocol_patient unmoved_refl unmoved_trans Unmoved.beside
          index settles with waits | ⟨tasks, returned | ⟨_, aborted⟩⟩
      · exact .inr ⟨owner, waits⟩
      · exact .inl ⟨returned, tasks⟩
      · exact .inl ⟨aborted, tasks⟩
  · intro choosing
    obtain ⟨unmoved, tasks⟩ :=
      Pool.step_guarantees unmoved_refl unmoved_trans choosing.tasks index settles
    unfold Choosing
    rw [unmoved.rootsStack]
    exact choosing.moved unmoved tasks

/-- A task that is about neither the guards nor the walk. -/
theorem rest_spawn
    {task : Async DaemonState Unit}
    (guarantees : task.Guarantees Unmoved) :
    (Pool.spawn task).Guarantees fun pool next => Rest pool → Rest next := by
  refine (guarantees_modify _).mpr fun pool rest => ?_
  obtain ⟨unmoved, kept⟩ :=
    Pool.guarantees_advance unmoved_refl unmoved_trans guarantees pool.shared
  have moved := (poolMoves_of_unmoved unmoved).1 rest
  rcases moved with idle | ⟨owner, owned⟩
  · refine .inl ⟨idle.walk, fun member memberIn => ?_⟩
    rcases List.mem_append.mp memberIn with old | new
    · exact idle.tasks member old
    · exact List.mem_singleton.mp new ▸ kept
  · exact .inr ⟨owner, owned.join kept⟩

/-- The chosen root is started from the stack it was chosen from. -/
theorem startNextRoot_leads
    (config : Config)
    (balances : Bool)
    (answers : Answers)
    (finalizedHeader : BlockHeaderResponse)
    (nextRoot : RootHex) :
    Leads PoolMoves PoolWaits (ChosenRoot nextRoot) Rest
      (startNextRoot config balances answers finalizedHeader nextRoot) := by
  refine ⟨fun pool chosen => ?_⟩
  have leads := chain_leads config balances answers finalizedHeader nextRoot
  have ignores := chain_ignores config balances answers finalizedHeader nextRoot
  have suspends : ∀ state,
      (rootChain config balances answers finalizedHeader nextRoot
        |>.advance state).1.Suspended :=
    suspended_callCatching_bind _ _
  have assigned :
      Chosen nextRoot true false (DaemonState.setRootProcessing true pool.shared) :=
    ⟨rfl, chosen.walk.running, chosen.walk.follows⟩
  have owned :
      Busy
        { shared :=
            ((rootChain config balances answers finalizedHeader nextRoot).advance
              (DaemonState.setRootProcessing true pool.shared)).2
          tasks :=
            pool.tasks ++
              [((rootChain config balances answers finalizedHeader nextRoot).advance
                (DaemonState.setRootProcessing true pool.shared)).1] } :=
    ⟨_, Pool.ownedBy_of_spawn leads (fun _ => rfl) chosen.tasks (suspends _) assigned⟩
  rw [advance_ignored ignores] at owned
  exact .inr owned

end Pools

end DaemonService

end CsmProver
