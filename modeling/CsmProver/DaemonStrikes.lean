import CsmProver.DaemonTasks
import CsmProver.StrikesJustified

namespace CsmProver

/-!
# The rounds of the daemon

The loop starts a round of the bad-performers service for every new finalized
header, and a round may take longer than that.  Nobody but a round touches the
service, and no round starts while one is in progress, so whatever the loop and
its other tasks do, the service has gone through rounds one after the other.
-/

open Async

namespace DaemonService

/-- A round with the answers given in some iteration of the loop. -/
def IsAnswered (config : Config) (answers : Nat → Answers) (round : StrikesRound) : Prop :=
  ∃ iteration,
    round.consensus = (answers iteration).consensus ∧
    round.reads = (answers iteration).strikesReads ∧
    BadPerformers.lookupIn config round.storage = (answers iteration).fullKeyInfoFn

/-- The service after rounds one after the other. -/
def afterRounds (config : Config) (strikes : StrikesWorld) (rounds : List StrikesRound) :
    StrikesWorld :=
  StrikesStep.performAll config strikes (rounds.map .played)

/-- One more round is played after the others. -/
theorem afterRounds_concat
    (config : Config)
    (strikes : StrikesWorld)
    (rounds : List StrikesRound)
    (round : StrikesRound) :
    afterRounds config strikes (rounds ++ [round]) =
      round.play config (afterRounds config strikes rounds) := by
  simp [afterRounds, StrikesStep.performAll, StrikesStep.perform]

/-- Every round has returned or thrown: none of them was cut. -/
def AllEnded (config : Config) : StrikesWorld → List StrikesRound → Prop
  | _, [] => True
  | strikes, round :: rest =>
      (run StrikesRound.nobodyMoves (round.program config) round.script strikes).1.Ended ∧
        AllEnded config (round.play config strikes) rest

/-- One more round has ended after the others. -/
theorem allEnded_concat
    {config : Config}
    {strikes : StrikesWorld}
    {rounds : List StrikesRound}
    {round : StrikesRound}
    (earlier : AllEnded config strikes rounds)
    (ended :
      (run StrikesRound.nobodyMoves (round.program config) round.script
        (afterRounds config strikes rounds)).1.Ended) :
    AllEnded config strikes (rounds ++ [round]) := by
  induction rounds generalizing strikes with
  | nil =>
      exact ⟨ended, trivial⟩
  | cons first rest inductionHypothesis =>
      exact ⟨earlier.1, inductionHypothesis earlier.2 ended⟩

section Rounds

variable (config : Config) (answers : Nat → Answers) (strikes : StrikesWorld)

/-- The service has gone through rounds one after the other. -/
def Between (current : StrikesWorld) : Prop :=
  ∃ rounds,
    (∀ round ∈ rounds, IsAnswered config answers round) ∧
    AllEnded config strikes rounds ∧
    current = afterRounds config strikes rounds

/-- One more round is in progress. -/
def InRound (current : StrikesWorld) : Prop :=
  ∃ rounds round,
    (∀ past ∈ rounds, IsAnswered config answers past) ∧
    AllEnded config strikes rounds ∧
    IsAnswered config answers round ∧
    current =
      (run StrikesRound.nobodyMoves (round.program config) round.script
        (afterRounds config strikes rounds)).2

def Within (current : StrikesWorld) : Prop :=
  Between config answers strikes current ∨ InRound config answers strikes current

variable {config answers strikes} {current : StrikesWorld}

/-- A round that has ended is one more of the rounds. -/
theorem between_of_ended
    {rounds : List StrikesRound}
    {round : StrikesRound}
    {ended : Async StrikesWorld Nat}
    (past : ∀ earlier ∈ rounds, IsAnswered config answers earlier)
    (pastEnded : AllEnded config strikes rounds)
    (answered : IsAnswered config answers round)
    (hasEnded : ended.Ended)
    (plays :
      run StrikesRound.nobodyMoves (round.program config) round.script
          (afterRounds config strikes rounds) =
        (ended, current)) :
    Between config answers strikes current := by
  refine ⟨rounds ++ [round], ?_, ?_, ?_⟩
  · intro member isMember
    rcases List.mem_append.mp isMember with old | new
    · exact past member old
    · exact List.mem_singleton.mp new ▸ answered
  · apply allEnded_concat pastEnded
    rw [plays]
    exact hasEnded
  · have notSuspended : ¬ ended.Suspended := by
      rcases hasEnded with ⟨value, rfl⟩ | ⟨reason, rfl⟩
      · exact id
      · exact id
    have played :
        round.play config (afterRounds config strikes rounds) = current := by
      rw [StrikesRound.play, leave, plays, if_neg notSuspended]
    rw [afterRounds_concat, played]

/-- A round by itself, from between two rounds to between two rounds. -/
theorem wp_round
    (round : StrikesRound)
    (answered : ∀ script, IsAnswered config answers { round with script := script })
    (between : Between config answers strikes current) :
    wp
      { rely := Eq
        suspended := Within config answers strikes
        aborted := fun _ => Between config answers strikes }
      (fun _ => Between config answers strikes) (round.program config) current := by
  obtain ⟨rounds, past, pastEnded, rfl⟩ := between
  have runs :=
    wp_runs StrikesRound.nobodyMoves (round.program config)
      (afterRounds config strikes rounds)
  refine wp_weaken runs id ?_ ?_ ?_
  · rintro state ⟨script, reached⟩
    exact .inr ⟨rounds, { round with script := script }, past, pastEnded, answered script,
      reached.symm⟩
  · rintro reason state ⟨script, reached⟩
    exact between_of_ended past pastEnded (answered script) (.inr ⟨reason, rfl⟩) reached
  · rintro value state ⟨script, reached⟩
    exact between_of_ended past pastEnded (answered script) (.inl ⟨value, rfl⟩) reached

/-! ## The task -/

/-- The service and the flag of its task stay as they are. -/
structure SameStrikes (state moved : DaemonState) : Prop where
  strikes : moved.strikes = state.strikes
  running :
    moved.running .processBadPerformers = state.running .processBadPerformers

theorem SameStrikes.keeps
    {assertion : StrikesWorld → Prop}
    {state moved : DaemonState}
    (same : SameStrikes state moved)
    (holds : assertion state.strikes) :
    assertion moved.strikes := by
  rw [same.strikes]
  exact holds

theorem sameStrikes_frame :
    LoopFrame SameStrikes where
  refl := fun _ => ⟨rfl, rfl⟩
  trans := fun earlier later =>
    ⟨later.strikes.trans earlier.strikes, later.running.trans earlier.running⟩
  world := fun _ _ => ⟨rfl, rfl⟩
  trace := fun _ _ => ⟨rfl, rfl⟩
  lastFinalizedHeader := fun _ _ => ⟨rfl, rfl⟩
  rootProcessing := fun _ _ => ⟨rfl, rfl⟩

variable (config answers strikes)

/-- The task has the service for itself, in a round or at its end. -/
abbrev HasService : DaemonState → Prop :=
  Holds .processBadPerformers fun state => Within config answers strikes state.strikes

/-- The service waits for its next round. -/
abbrev ServiceFree : DaemonState → Prop :=
  Clear .processBadPerformers fun state => Between config answers strikes state.strikes

/-- The task has the service for itself, and its round has not begun or has ended. -/
abbrev HasIdleService : DaemonState → Prop :=
  Holds .processBadPerformers fun state => Between config answers strikes state.strikes

theorem strikes_region :
    Pool.Region SameStrikes (HasService config answers strikes)
      (ServiceFree config answers strikes) where
  refl := sameStrikes_frame.refl
  trans := sameStrikes_frame.trans
  heldStays := fun state moved holds same => by
    exact ⟨same.running.trans holds.1, same.keeps holds.2⟩
  freeStays := fun state moved clear same => by
    exact ⟨same.running.trans clear.1, same.keeps clear.2⟩

theorem steady_idleService :
    Steady SameStrikes (HasService config answers strikes)
      (HasIdleService config answers strikes) where
  suspends := fun holds => ⟨holds.1, .inl holds.2⟩
  stays := fun holds same => by
    exact ⟨same.running.trans holds.1, same.keeps holds.2⟩

variable {config answers strikes}

/-- A round that is started between two rounds ends between two rounds. -/
theorem round_leads
    {iteration : Nat}
    {storage : KeysIndexerServiceStorage}
    (lookup : BadPerformers.lookupIn config storage = (answers iteration).fullKeyInfoFn)
    (finalizedHeader : BlockHeaderResponse) :
    Leads SameStrikes (HasService config answers strikes)
      (HasIdleService config answers strikes) (HasIdleService config answers strikes)
      (onStrikes do
        let _ ← call <|
          handleBadPerformers config (answers iteration).consensus
            (answers iteration).strikesReads finalizedHeader
            (answers iteration).fullKeyInfoFn) := by
  refine ⟨fun state holds => ?_⟩
  let round : StrikesRound :=
    { consensus := (answers iteration).consensus
      finalizedHeader := finalizedHeader
      storage := storage
      reads := (answers iteration).strikesReads
      script := [] }
  have plays :
      wp
        { rely := Eq
          suspended := Within config answers strikes
          aborted := fun _ => Between config answers strikes }
        (fun _ => Between config answers strikes)
        (call (round.program config) >>= fun _ => pure ()) state.strikes := by
    rw [wp_bind, wp_call]
    refine wp_mono (wp_round round (fun _ => ⟨iteration, rfl, rfl, lookup⟩) holds.2) ?_
    rintro _ final between
    exact ⟨.inl between, fun moved same => same ▸ between⟩
  unfold StrikesRound.program at plays
  rw [lookup] at plays
  have zoomed :
      wp
        { rely := SameStrikes
          suspended := HasService config answers strikes
          aborted := fun _ => HasIdleService config answers strikes }
        (fun _ final =>
          final.running .processBadPerformers = true ∧
            Between config answers strikes final.strikes)
        (onStrikes (call (handleBadPerformers config (answers iteration).consensus
          (answers iteration).strikesReads finalizedHeader
          (answers iteration).fullKeyInfoFn) >>= fun _ => pure ())) state :=
    wp_zoom (fun state : DaemonState => state.running .processBadPerformers = true) plays
      holds.1 (fun _ _ => rfl) (fun _ _ flag => flag)
      (fun flag _ same => ⟨same.running.trans flag, same.strikes.symm⟩)
      (fun _ flag within => ⟨flag, within⟩) (fun _ _ flag between => ⟨flag, between⟩)
  exact zoomed

/-- The task of a round takes the service when it is free. -/
theorem processBadPerformers_spawn
    {iteration : Nat}
    {storage : KeysIndexerServiceStorage}
    (lookup : BadPerformers.lookupIn config storage = (answers iteration).fullKeyInfoFn)
    (finalizedHeader : BlockHeaderResponse) :
    Pool.KeepsExclusive SameStrikes (HasService config answers strikes)
      (ServiceFree config answers strikes)
      (Pool.spawn
        (onCatch (processBadPerformers config (answers iteration) finalizedHeader))) := by
  have region := strikes_region config answers strikes
  have steady := steady_idleService config answers strikes
  have leads :
      Leads SameStrikes (HasService config answers strikes)
        (ServiceFree config answers strikes) (ServiceFree config answers strikes)
        (processBadPerformers config (answers iteration) finalizedHeader) :=
    singletonTask_leads steady (fun _ => id) (fun _ => id)
      (leads_trackTask steady (round_leads lookup finalizedHeader))
  apply Pool.keepsExclusive_spawn_taking region
  · intro state clear
    exact releases_onCatch region.freeStays (releases_of_wp (leads.ends state clear))
  · intro state holds
    exact passes_callCatching_bind region.refl region.trans
      (singletonTask_givesUp region.refl holds.1) fun _ => trivial

/-- The other tasks have flags of their own. -/
theorem singletonTask_sameStrikes
    {method : TaskMethod}
    (other : method ≠ .processBadPerformers)
    {originalMethod : Async DaemonState Unit}
    (guarantees : originalMethod.Guarantees SameStrikes) :
    (singletonTask method (trackTask originalMethod)).Guarantees SameStrikes := by
  apply singletonTask_guarantees sameStrikes_frame.refl _ (trackTask_guarantees guarantees)
  exact fun value state => ⟨rfl, running_setRunning_of_ne other value state⟩

end Rounds

/-- In every interleaving the service is in a round, or between two rounds. -/
theorem runLoop_within
    (config : Config)
    (balances : Bool)
    (answers : Nat → Answers)
    (lookups :
      ∀ iteration,
        ∃ storage,
          BadPerformers.lookupIn config storage = (answers iteration).fullKeyInfoFn)
    (world : World)
    (strikes : StrikesWorld)
    (turns : List (Turn BlockHeaderResponse)) :
    let state := (runLoop config balances answers world strikes turns).pool.shared
    HasService config answers strikes state ∨ ServiceFree config answers strikes state := by
  have region := strikes_region config answers strikes
  have blocks (iteration : Nat) :
      Pool.KeepsExclusive SameStrikes (HasService config answers strikes)
        (ServiceFree config answers strikes)
        (loopBody config balances (answers iteration)) := by
    obtain ⟨storage, lookup⟩ := lookups iteration
    apply sameStrikes_frame.loopBody_exclusive config balances (answers iteration) region
    · intro finalizedHeader
      apply Pool.keepsExclusive_spawn region
      apply guarantees_onCatch
      exact singletonTask_sameStrikes (by decide)
        (sameStrikes_frame.onWorld_guarantees _)
    · exact processBadPerformers_spawn lookup
    · intro finalizedHeader nextRoot
      apply Pool.keepsExclusive_spawn region
      refine rootChain_guarantees sameStrikes_frame.refl
        (fun value state => ⟨rfl, running_setRunning_of_ne (by decide) value state⟩)
        sameStrikes_frame.trace (fun _ => ⟨rfl, rfl⟩)
        (sameStrikes_frame.onWorld_guarantees _)
  have starts :
      ServiceFree config answers strikes (DaemonState.initial world strikes) :=
    ⟨rfl, [], by simp, trivial, rfl⟩
  exact
    (runLoop_exclusive sameStrikes_frame region blocks world strikes starts
      turns).held_or_free

/--
Whatever the interleaving, the bad-performers service has gone through whole rounds, one
after the other, each of which has returned or thrown, and at most one more round is in
progress: what the daemon does with it is a run of rounds.
-/
theorem strikes_go_by_rounds
    (config : Config)
    (balances : Bool)
    (answers : Nat → Answers)
    (lookups :
      ∀ iteration,
        ∃ storage,
          BadPerformers.lookupIn config storage = (answers iteration).fullKeyInfoFn)
    (world : World)
    (strikes : StrikesWorld)
    (turns : List (Turn BlockHeaderResponse)) :
    let state := (runLoop config balances answers world strikes turns).pool.shared
    ∃ rounds,
      (∀ round ∈ rounds, IsAnswered config answers round) ∧
      AllEnded config strikes rounds ∧
      (state.strikes = afterRounds config strikes rounds ∨
        state.running .processBadPerformers = true ∧
          ∃ round,
            IsAnswered config answers round ∧
            state.strikes =
              (run StrikesRound.nobodyMoves (round.program config) round.script
                (afterRounds config strikes rounds)).2) := by
  intro state
  rcases runLoop_within config balances answers lookups world strikes turns with
    ⟨flag, within⟩ | ⟨_, rounds, past, pastEnded, after⟩
  · rcases within with
      ⟨rounds, past, pastEnded, after⟩ | ⟨rounds, round, past, pastEnded, answered, after⟩
    · exact ⟨rounds, past, pastEnded, .inl after⟩
    · exact ⟨rounds, past, pastEnded, .inr ⟨flag, round, answered, after⟩⟩
  · exact ⟨rounds, past, pastEnded, .inl after⟩

/-! ## What the rounds report -/

/-- The trees the service may hold after rounds: its first one, and what they load. -/
def treesOf (strikes : StrikesWorld) (rounds : List StrikesRound) : List StrikesTree :=
  strikes.badPerformers.currentStrikesTree.toList ++ rounds.map (·.loadedTree)

/--
What a round has sent, and why: it has the answers of one iteration, the earlier rounds
have returned or thrown and it works with the service that they have left, and the
published tree was loaded by the round itself or is one of the trees from before.
-/
structure IsAccounted (config : Config) (answers : Nat → Answers) (strikes : StrikesWorld)
    (earlier : List StrikesRound) (round : StrikesRound)
    (sent : List BadPerformanceProof) : Prop where
  answered : IsAnswered config answers round
  ended : AllEnded config strikes earlier
  sends :
    let started := afterRounds config strikes earlier
    (round.play config started).payloads = started.payloads ++ sent
  treeIsLoaded :
    let fields := (afterRounds config strikes earlier).badPerformers
    BadPerformers.publishedTree round.reads round.blockTag fields ∈
      treesOf strikes (earlier ++ [round])
  justified :
    round.Justified config (afterRounds config strikes earlier).badPerformers sent

/-- Every round of a list is accounted for, after the earlier ones. -/
def AllAccounted (config : Config) (answers : Nat → Answers) (strikes : StrikesWorld) :
    List StrikesRound → List (StrikesRound × List BadPerformanceProof) → Prop
  | _, [] => True
  | earlier, (round, sent) :: rest =>
      IsAccounted config answers strikes earlier round sent ∧
        AllAccounted config answers strikes (earlier ++ [round]) rest

/-- What the service has reported since, round by round. -/
def Accounted (config : Config) (answers : Nat → Answers) (strikes current : StrikesWorld)
    (rounds : List (StrikesRound × List BadPerformanceProof)) : Prop :=
  AllAccounted config answers strikes [] rounds ∧
  current.payloads = strikes.payloads ++ rounds.flatMap (·.2) ∧
  ∃ penalties,
    current.exitPenalties = strikes.exitPenalties ++ penalties ∧
    ∀ penalty ∈ penalties,
      StrikesRound.IsEarned config (rounds.flatMap (·.2)) penalty

section Accounts

variable {config : Config} {answers : Nat → Answers} {strikes : StrikesWorld}

/-- One more round is accounted for after the others. -/
theorem allAccounted_concat
    {earlier : List StrikesRound}
    {rounds : List (StrikesRound × List BadPerformanceProof)}
    {round : StrikesRound}
    {sent : List BadPerformanceProof}
    (past : AllAccounted config answers strikes earlier rounds)
    (last :
      IsAccounted config answers strikes (earlier ++ rounds.map Prod.fst) round sent) :
    AllAccounted config answers strikes earlier (rounds ++ [(round, sent)]) := by
  induction rounds generalizing earlier with
  | nil =>
      rw [List.map_nil, List.append_nil] at last
      exact ⟨last, trivial⟩
  | cons first rest inductionHypothesis =>
      refine ⟨past.1, inductionHypothesis past.2 ?_⟩
      rw [List.append_assoc]
      exact last

/-- The tree that the service holds is one of those it was given or loaded. -/
theorem held_mem_treesOf
    (rounds : List StrikesRound)
    {strikesTree : StrikesTree}
    (held :
      (afterRounds config strikes rounds).badPerformers.currentStrikesTree =
        some strikesTree) :
    strikesTree ∈ treesOf strikes rounds := by
  induction rounds using List.reverseRecOn with
  | nil =>
      exact List.mem_append_left _ (Option.mem_toList.mpr held)
  | append_singleton rounds round inductionHypothesis =>
      rw [afterRounds_concat] at held
      unfold treesOf at inductionHypothesis ⊢
      rw [List.map_append, ← List.append_assoc]
      rcases round.play_keepsTree config _ strikesTree held with rfl | before
      · exact List.mem_append_right _ (List.mem_singleton_self _)
      · exact List.mem_append_left _ (inductionHypothesis before)

/-- The tree that is published when a round starts is one of those up to its own. -/
theorem publishedTree_mem_treesOf
    (earlier : List StrikesRound)
    (round : StrikesRound) :
    BadPerformers.publishedTree round.reads round.blockTag
        (afterRounds config strikes earlier).badPerformers ∈
      treesOf strikes (earlier ++ [round]) := by
  unfold treesOf
  rw [List.map_append, ← List.append_assoc]
  rcases round.publishedTree_held_or_loaded
    (afterRounds config strikes earlier).badPerformers with loaded | held
  · rw [loaded]
    exact List.mem_append_right _ (List.mem_singleton_self _)
  · exact List.mem_append_left _ (held_mem_treesOf earlier held)

/-- What one more round does, as far as it came, is accounted for. -/
theorem Accounted.progress
    {rounds : List (StrikesRound × List BadPerformanceProof)}
    {current : StrikesWorld}
    {round : StrikesRound}
    (accounted :
      Accounted config answers strikes
        (afterRounds config strikes (rounds.map Prod.fst)) rounds)
    (ended : AllEnded config strikes (rounds.map Prod.fst))
    (answered : IsAnswered config answers round)
    (progress :
      round.Progress config (afterRounds config strikes (rounds.map Prod.fst)) current)
    (sends :
      (round.play config (afterRounds config strikes (rounds.map Prod.fst))).payloads =
        current.payloads) :
    ∃ sent, Accounted config answers strikes current (rounds ++ [(round, sent)]) := by
  obtain ⟨past, payloads, penalties, exitPenalties, earned⟩ := accounted
  obtain ⟨sent, new, sentPayloads, newPenalties, justified, newEarned⟩ := progress
  have last :
      IsAccounted config answers strikes ([] ++ rounds.map Prod.fst) round sent :=
    { answered := answered
      ended := ended
      sends := sends.trans sentPayloads
      treeIsLoaded := publishedTree_mem_treesOf (rounds.map Prod.fst) round
      justified := justified }
  refine ⟨sent, allAccounted_concat past last, ?_, penalties ++ new, ?_,
    fun penalty isPenalty => ?_⟩
  · simp [sentPayloads, payloads]
  · rw [newPenalties, exitPenalties, List.append_assoc]
  · rw [List.flatMap_append]
    rcases List.mem_append.mp isPenalty with old | last
    · exact (earned penalty old).mono
    · obtain ⟨live, payload, isSent, rest⟩ := newEarned penalty last
      exact ⟨live, payload, by simp [isSent], rest⟩

end Accounts

open BadPerformers StrikesRound

def sampleAnswers : Answers where
  consensus := sampleConsensus
  keysapi :=
    { modules := []
      moduleKeys := fun _ => { keys := [], elBlockSnapshot := { timestamp := 0 } }
      findModuleKeys := fun _ _ => { keys := [], elBlockSnapshot := { timestamp := 0 } } }
  fileReads := { info := true, storage := true }
  strikesReads := sampleReads (sampleTree 1) 3 1
  fullKeyInfoFn := lookupIn sampleConfig sampleStorage
  now := 0

/-- A process whose index was built at slot 2, the finalized one. -/
def sampleWorld : World :=
  let blank := World.blank (sampleConsensus.beaconHeader 2)
  { blank with
    keysIndexer :=
      { blank.keysIndexer with
        info := { blank.keysIndexer.info with moduleId := 3, storageStateSlot := 2 } } }

/-- The finalized header moves on while the first round waits for its batch. -/
def sampleTurns : List (Turn BlockHeaderResponse) :=
  .loop .resolved :: List.replicate 12 (.task 0 .resolved) ++
    .outside (sampleConsensus.beaconHeader 3) :: List.replicate 5 (.loop .resolved)

theorem strikes_go_by_rounds_sample :
    let state :=
      (runLoop sampleConfig true (fun _ => sampleAnswers) sampleWorld .fresh
        sampleTurns).pool.shared
    state.lastFinalizedHeader = some (sampleConsensus.beaconHeader 3) ∧
      state.strikes.payloads.length = 1 ∧
      ∃ rounds,
        (∀ round ∈ rounds, IsAnswered sampleConfig (fun _ => sampleAnswers) round) ∧
        AllEnded sampleConfig .fresh rounds ∧
        (state.strikes = afterRounds sampleConfig .fresh rounds ∨
          state.running .processBadPerformers = true ∧
            ∃ round,
              IsAnswered sampleConfig (fun _ => sampleAnswers) round ∧
              state.strikes =
                (run nobodyMoves (round.program sampleConfig) round.script
                  (afterRounds sampleConfig .fresh rounds)).2) := by
  refine ⟨by decide, by decide, ?_⟩
  exact strikes_go_by_rounds sampleConfig true (fun _ => sampleAnswers)
    (fun _ => ⟨sampleStorage, rfl⟩) sampleWorld .fresh sampleTurns

end DaemonService

end CsmProver
