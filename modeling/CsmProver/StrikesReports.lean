import CsmProver.StrikesRounds

namespace CsmProver

/-!
# A bad performer is reported once

A round asks for proved keys at its finalized block, and its own proofs are mined
at the head of the chain.  A tree that was sent only in part is taken up again by
the next round, and so is one whose thresholds or curves changed; a key reported
meanwhile is left out only if its proof is finalized by then.
-/

open Async

namespace StrikesReports

open BadPerformers

/-- The operator and the public key, under which the contract keeps a penalty. -/
def keyOf (leaf : StrikesTreeLeaf) : Nat × PubKey :=
  (leaf.nodeOperatorId, leaf.pubKey)

/-- A key is in a batch that was mined. -/
def IsReported (log : List StrikesEvent) (key : Nat × PubKey) : Prop :=
  ∃ leaves block leaf,
    .batchMined leaves block ∈ log ∧ leaf ∈ leaves ∧ keyOf leaf = key

/-- No key reported before a round began is in a batch sent since. -/
def ReportedOnce (log : List StrikesEvent) : Prop :=
  ∀ earlier later,
    log = earlier ++ .roundStarted :: later →
    ∀ leaves leaf,
      .batchSent leaves ∈ later →
      leaf ∈ leaves →
      ¬ IsReported earlier (keyOf leaf)

/-! ## The invariant -/

/-- Each mined key has its penalty on chain, since the block it was mined in. -/
def Penalized (world : StrikesWorld) : Prop :=
  ∀ leaves block,
    .batchMined leaves block ∈ world.log →
    ∀ leaf ∈ leaves, penaltyOf block leaf ∈ world.exitPenalties

structure Invariant (world : StrikesWorld) : Prop where
  once : ReportedOnce world.log
  penalized : Penalized world

/-- An event of a round in which only keys of the given kind are sent. -/
def IsWithin (allowed : Nat × PubKey → Prop) : StrikesEvent → Prop
  | .roundStarted => False
  | .batchSent leaves => ∀ leaf ∈ leaves, allowed (keyOf leaf)
  | _ => True

/-- A state of a round that has sent only keys not reported before it began. -/
structure InRound (world state : StrikesWorld) : Prop where
  log :
    ∃ events,
      state.log = world.log ++ .roundStarted :: events ∧
        ∀ event ∈ events, IsWithin (fun key => ¬ IsReported world.log key) event
  penalized : Penalized state

section Round

variable {world state : StrikesWorld}

theorem inRound_started
    (penalized : Penalized world) :
    InRound world (world.record .roundStarted) where
  log := ⟨[], by simp, by simp⟩
  penalized := by
    intro leaves block mined leaf member
    exact penalized leaves block (by simpa using mined) leaf member

/-- A round goes on with events that mine nothing. -/
theorem InRound.append
    (inRound : InRound world state)
    {events : List StrikesEvent}
    (within :
      ∀ event ∈ events, IsWithin (fun key => ¬ IsReported world.log key) event)
    (mineNothing : ∀ leaves block, .batchMined leaves block ∉ events) :
    InRound world { state with log := state.log ++ events } where
  log := by
    obtain ⟨before, shape, beforeWithin⟩ := inRound.log
    refine ⟨before ++ events, by simp [shape], ?_⟩
    intro event member
    rcases List.mem_append.mp member with inBefore | inEvents
    · exact beforeWithin event inBefore
    · exact within event inEvents
  penalized := by
    intro leaves block mined leaf member
    rcases List.mem_append.mp mined with before | now
    · exact inRound.penalized leaves block before leaf member
    · exact (mineNothing leaves block now).elim

/-- A mined batch brings the penalties of its keys. -/
theorem InRound.mined
    (inRound : InRound world state)
    (leaves : List StrikesTreeLeaf)
    (block : Nat) :
    InRound world (batchMined leaves block state) where
  log := by
    obtain ⟨before, shape, beforeWithin⟩ := inRound.log
    refine ⟨before ++ [.batchMined leaves block], by simp [batchMined, shape], ?_⟩
    intro event member
    rcases List.mem_append.mp member with inBefore | isMined
    · exact beforeWithin event inBefore
    · rw [List.mem_singleton.mp isMined]
      trivial
  penalized := by
    intro otherLeaves otherBlock mined leaf member
    rcases List.mem_append.mp mined with before | now
    · exact List.mem_append_left _
        (inRound.penalized otherLeaves otherBlock before leaf member)
    · cases List.mem_singleton.mp now
      exact List.mem_append_right _ (List.mem_map_of_mem member)

/-- The fields of the service play no part. -/
theorem InRound.of_eq
    {moved : StrikesWorld}
    (inRound : InRound world state)
    (sameLog : moved.log = state.log)
    (samePenalties : moved.exitPenalties = state.exitPenalties) :
    InRound world moved where
  log := sameLog ▸ inRound.log
  penalized := by
    intro leaves block mined leaf member
    rw [samePenalties]
    exact inRound.penalized leaves block (sameLog ▸ mined) leaf member

/-- Wherever a round is left, each key has been reported once. -/
theorem InRound.invariant
    (inRound : InRound world state)
    (before : Invariant world) :
    Invariant state where
  once := by
    obtain ⟨events, shape, within⟩ := inRound.log
    intro earlier later split leaves leaf sent member reported
    rw [shape] at split
    have notReported
        (inEvents : .batchSent leaves ∈ events) :
        ¬ IsReported world.log (keyOf leaf) :=
      within _ inEvents leaf member
    rcases split_append split with
      ⟨between, logShape, laterShape⟩ | ⟨between, earlierShape, eventsShape⟩
    · -- The round in question began earlier.
      rw [laterShape] at sent
      rcases List.mem_append.mp sent with inBetween | inRoundEvents
      · exact before.once earlier between logShape leaves leaf inBetween member reported
      · apply notReported (by simpa using inRoundEvents)
        obtain ⟨mined, block, other, minedMember, rest⟩ := reported
        exact ⟨mined, block, other, by simp [logShape, minedMember], rest⟩
    · -- It is the last round, which has no second beginning.
      cases between with
      | nil =>
          cases eventsShape
          rw [List.append_nil] at earlierShape
          exact notReported sent (earlierShape ▸ reported)
      | cons head rest =>
          cases eventsShape
          exact (within .roundStarted (by simp)).elim
  penalized := inRound.penalized

end Round

/-! ## What a round sees -/

/-- A leaf the round sends unless the contract knows its penalty already. -/
structure IsCandidate (config : Config) (round : StrikesRound)
    (fields : BadPerformersFields) (leaf : StrikesTreeLeaf) : Prop where
  member : leaf ∈ (publishedTree round.reads round.blockTag fields).leaves
  reached :
    thresholdOf round.reads round.blockTag leaf.nodeOperatorId ≤ strikesSum leaf
  notWithdrawn :
    ∃ fullKeyInfo,
      lookupIn config round.storage leaf.pubKey = some fullKeyInfo ∧
        fullKeyInfo.operatorId = leaf.nodeOperatorId ∧
        round.reads.stakingModule.proved .withdrawal
          (fullKeyInfo.operatorId, fullKeyInfo.keyIndex) = false

/--
A round that works on a tree sees the earlier reports: a key reported before it
began, and not withdrawn, whose leaf reaches its threshold was mined at or before
the round's finalized block.
-/
def SeesReports (config : Config) (round : StrikesRound) (world : StrikesWorld) : Prop :=
  Opens round.reads →
  TreeRead round.reads round.blockTag world.badPerformers →
  IsToBeProcessed round.reads round.blockTag world.badPerformers →
  ∀ leaves block reported,
    .batchMined leaves block ∈ world.log →
    reported ∈ leaves →
    ∀ leaf,
      IsCandidate config round world.badPerformers leaf →
      keyOf leaf = keyOf reported →
      block ≤ round.reads.blockNumber round.blockTag

section Work

variable {config : Config} {round : StrikesRound} {world : StrikesWorld}

/-- The keys left to be sent were not reported before the round. -/
theorem unknownKeys_unreported
    (penalized : Penalized world)
    (sees :
      ∀ leaves block reported,
        .batchMined leaves block ∈ world.log →
        reported ∈ leaves →
        ∀ leaf,
          IsCandidate config round world.badPerformers leaf →
          keyOf leaf = keyOf reported →
          block ≤ round.reads.blockNumber round.blockTag)
    {keys : List BadPerformer}
    (built :
      buildPayloads
        (badPerformerOfLeaf config (lookupIn config round.storage)
          (committed round.reads round.blockTag world.badPerformers))
        (entries (publishedTree round.reads round.blockTag world.badPerformers)) =
          .ok keys)
    {key : BadPerformer}
    (unknown :
      key ∈ unknownKeys round.reads world.exitPenalties round.blockTag keys) :
    ¬ IsReported world.log (keyOf key.leaf) := by
  rintro ⟨leaves, block, reported, mined, reportedMember, sameKey⟩
  obtain ⟨inUnproven, notWithdrawn⟩ := List.mem_filter.mp unknown
  obtain ⟨inKeys, notProved⟩ := List.mem_filter.mp inUnproven
  obtain ⟨placed, found, threshold, inForce, reached⟩ := (collected built).1 key inKeys
  have leafMember := List.mem_of_getElem? placed
  have candidate : IsCandidate config round world.badPerformers key.leaf :=
    { member := leafMember
      reached := by
        rw [thresholdOf_of_committed leafMember inForce]
        exact reached
      notWithdrawn :=
        ⟨key.toFullKeyInfo, found, rfl, by
          simpa [isWithdrawalProved, BadPerformer.id] using notWithdrawn⟩ }
  have visible := sees leaves block reported mined reportedMember key.leaf candidate sameKey.symm
  have penalty := penalized leaves block mined reported reportedMember
  have sameOperator : reported.nodeOperatorId = key.operatorId := congrArg Prod.fst sameKey
  have samePubKey : reported.pubKey = key.pubKey := congrArg Prod.snd sameKey
  have isProved :
      isEjectionProved round.reads world.exitPenalties round.blockTag key = true := by
    apply List.any_eq_true.mpr
    exact ⟨_, penalty, by simp [penaltyOf, sameOperator, samePubKey, visible]⟩
  rw [isProved] at notProved
  cases notProved

theorem InRound.noteFound
    {state : StrikesWorld}
    (inRound : InRound world state)
    (keys : List BadPerformer) :
    InRound world (noteFound keys state) :=
  inRound.append (by simp [IsWithin]) (by simp)

/-- The protocol of a round: it may stop anywhere. -/
def protocol (world : StrikesWorld) : Protocol StrikesWorld :=
  alone (InRound world) fun _ => InRound world

/-- The batches of a round send only what was not reported before it. -/
theorem wp_batches
    {reads : StrikesReads}
    {keys : List BadPerformer}
    {strikesTree : StrikesTree}
    {state : StrikesWorld}
    (isHeld : state.badPerformers.currentStrikesTree = some strikesTree)
    (placed : ∀ key ∈ keys, IsPlaced strikesTree key)
    (unreported : ∀ key ∈ keys, ¬ IsReported world.log (keyOf key.leaf))
    (inRound : InRound world state) :
    wp (protocol world) (fun _ => InRound world)
      (processBadPerformerBatches config reads keys) state := by
  apply wp_processBatches isHeld placed fun _ state => InRound world state
  case enters => exact inRound
  case exits => exact fun _ holds => holds
  case sends =>
    intro batch rest state payload inBatch isPayload inRound
    have sent : InRound world (state.submit payload) := by
      apply InRound.of_eq (inRound.append _ (by simp)) (StrikesWorld.submit_log state payload) rfl
      intro event member
      rw [List.mem_singleton.mp member]
      intro leaf leafMember
      obtain ⟨key, keyMember, rfl⟩ := isPayload.mem_leaves.mp leafMember
      exact unreported key (inBatch key keyMember)
    have mined : InRound world (afterBatch config reads batch.2 payload state) := by
      unfold afterBatch
      split
      · exact sent.mined _ _
      · exact sent
    refine ⟨sent, fun _ _ => sent, mined, ?_⟩
    exact mined.append (by simp [IsWithin]) (by simp)

/-- A round that sees the earlier reports repeats none of them. -/
theorem wp_round
    (invariant : Invariant world)
    (sees : SeesReports config round world) :
    wp (protocol world) (fun _ => InRound world) (round.program config) world := by
  have started := inRound_started invariant.penalized
  apply StrikesRound.wp_program started
  · exact fun _ => started
  · exact fun _ => started
  · intro _ _
    exact started.of_eq (by simp) (by simp)
  · intro _ _ _
    apply InRound.of_eq (started.append ?_ ?_) (markProcessed_log _)
      (markProcessed_exitPenalties _)
    · simp [IsWithin]
    · simp
  · intro opens treeRead toBeProcessed
    have working : InRound world (round.working world) := started.of_eq rfl rfl
    apply wp_selectBadPerformers rfl
    · exact fun _ _ => working
    · intro keys built
      have selected :
          InRound world
            (afterSelection round.reads round.blockTag keys (round.working world)) :=
        (working.noteFound _).noteFound _
      refine ⟨working, fun _ _ _ _ => working, working.noteFound _,
        fun _ _ _ _ => working.noteFound _, ?_⟩
      apply wp_sendBadPerformanceProofs rfl
      · intro _
        exact selected.of_eq (by simp) (by simp)
      · intro _
        refine ⟨selected, fun _ _ => selected, fun _ => selected, ?_⟩
        apply wp_mono (wp_batches rfl ?_ ?_ selected)
        · intro _ final sent
          exact ⟨fun _ => sent.of_eq (by simp) (by simp), fun _ => sent⟩
        · intro key member
          have inUnknown := mem_of_mem_withinLimit member
          have inKeys := List.mem_of_mem_filter (List.mem_of_mem_filter inUnknown)
          exact ((collected built).1 key inKeys).1
        · intro key member
          exact unknownKeys_unreported invariant.penalized
            (sees opens treeRead toBeProcessed) built (mem_of_mem_withinLimit member)

end Work

/-! ## Runs -/

theorem invariant_play
    {config : Config}
    (round : StrikesRound)
    (world : StrikesWorld)
    (invariant : Invariant world)
    (sees : SeesReports config round world) :
    Invariant (round.play config world) := by
  have established : InRound world (round.play config world) :=
    StrikesRound.play_establishes (wp_round invariant sees)
      fun _ inRound => inRound.of_eq rfl rfl
  exact established.invariant invariant

theorem invariant_fresh : Invariant .fresh where
  once := by
    intro earlier later shape
    simp [StrikesWorld.fresh] at shape
  penalized := by
    intro leaves block mined
    cases mined

/--
In every run whose rounds see the earlier reports, whatever exit limits they read
and wherever they fail or are cut, no key of a mined batch is in a batch of a
later round.
-/
theorem reported_once
    (config : Config)
    (steps : List StrikesStep)
    (sees : StrikesStep.Throughout (SeesReports config) config steps .fresh) :
    ReportedOnce (StrikesStep.performAll config .fresh steps).log := by
  have invariant : Invariant (StrikesStep.performAll config .fresh steps) := by
    apply StrikesStep.performAll_keeps invariant_play ?_ ?_ invariant_fresh sees
    · intro _ kept
      exact { once := kept.once, penalized := kept.penalized }
    · intro _ _ kept
      exact
        { once := kept.once
          penalized := fun leaves block mined leaf member =>
            List.mem_append_left _ (kept.penalized leaves block mined leaf member) }
  exact invariant.once

/-! ### A part of a tree, sent twice -/

open StrikesRound

/--
Two rounds with an exit limit of one, the second at a finalized block after the
one in which the first batch was mined: the second batch holds the other leaf.
-/
theorem reported_once_sample :
    ReportedOnce
      (StrikesStep.performAll sampleConfig .fresh
        [.played (sample 100 3 1), .played (sample 120 3 1)]).log := by
  apply reported_once sampleConfig
  refine ⟨?_, ?_, trivial⟩
  · intro _ _ _ leaves block reported mined
    cases mined
  · intro _ _ _ leaves block reported mined _ _ _ _
    have log :
        ((sample 100 3 1).play sampleConfig .fresh).log =
          [ .roundStarted,
            .batchSent [sampleKey.leaf],
            .batchMined [sampleKey.leaf] 110,
            .batchResolved [sampleKey.leaf] ] := by
      decide
    rw [log] at mined
    have isFirst : leaves = [sampleKey.leaf] ∧ block = 110 := by simpa using mined
    rw [isFirst.2]
    decide

/--
The finalized block of the second round is newer than that of the first and older
than the block of the first batch: the same leaf is sent again, and the exit limit
is used up without the other leaf.
-/
theorem unseen_report_repeated :
    ¬ ReportedOnce
      (StrikesStep.performAll sampleConfig .fresh
        [.played (sample 100 3 1), .played (sample 105 3 1)]).log := by
  intro once
  apply once
    [ .roundStarted,
      .batchSent [sampleKey.leaf],
      .batchMined [sampleKey.leaf] 110,
      .batchResolved [sampleKey.leaf] ]
    [ .batchSent [sampleKey.leaf],
      .batchMined [sampleKey.leaf] 115,
      .batchResolved [sampleKey.leaf] ]
    (by decide)
    [sampleKey.leaf] sampleKey.leaf (by simp) (by simp)
  exact ⟨[sampleKey.leaf], 110, sampleKey.leaf, by simp, by simp, rfl⟩

end StrikesReports

end CsmProver
