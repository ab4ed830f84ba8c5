import CsmProver.StrikesRounds

namespace CsmProver

/-!
# No bad performer is forgotten

A round passes a tree over when it has the root of the tree that was processed
last and no threshold and no curve id has changed since.  That is right as long
as every bad performer of the tree was dealt with under those thresholds and
curves, which a change of a threshold breaks: the round that sees the change
commits the new thresholds before it works, and if it ends early the next one
finds a processed tree and no change.
-/

open Async

namespace StrikesCoverage

open BadPerformers

/-! ## What it means to be covered -/

/-- The threshold of an operator under given thresholds and curve ids. -/
def thresholdIn (thresholds curveIds : NumberMap) (nodeOperatorId : Nat) : Option Nat :=
  (curveIds.lookup nodeOperatorId).bind fun curveId => thresholds.lookup curveId

/-- A leaf whose strikes reach its operator's threshold. -/
def IsBad (thresholds curveIds : NumberMap) (leaf : StrikesTreeLeaf) : Prop :=
  ∃ threshold,
    thresholdIn thresholds curveIds leaf.nodeOperatorId = some threshold ∧
      threshold ≤ strikesSum leaf

/-- Everything in force now was the same earlier. -/
def Agrees (earlier latest : NumberMap) : Prop :=
  ¬ isAnyChanged earlier latest

/--
A leaf was found proved or withdrawn by a round that worked under the thresholds
and curve ids in force, or was part of a send that resolved.
-/
def Covered (log : List StrikesEvent) (thresholds curveIds : NumberMap)
    (leaf : StrikesTreeLeaf) : Prop :=
  (∃ earlierThresholds earlierCurveIds,
    .found earlierThresholds earlierCurveIds leaf ∈ log ∧
      Agrees earlierThresholds thresholds ∧ Agrees earlierCurveIds curveIds) ∨
    ∃ leaves, .batchResolved leaves ∈ log ∧ leaf ∈ leaves

/-- Whenever a tree was passed over, its bad performers had been covered. -/
def Remembers (log : List StrikesEvent) : Prop :=
  ∀ earlier later strikesTree thresholds curveIds,
    log = earlier ++ .skipped strikesTree thresholds curveIds :: later →
    ∀ leaf ∈ strikesTree.leaves,
      IsBad thresholds curveIds leaf →
      Covered earlier thresholds curveIds leaf

section Agreement

variable {earlier latest : NumberMap}

theorem agrees_iff :
    Agrees earlier latest ↔
      ∀ key value, (key, value) ∈ latest → earlier.lookup key = some value := by
  simp [Agrees, isAnyChanged]

/-- What is in force now was in force then. -/
theorem Agrees.lookup
    (agrees : Agrees earlier latest)
    {key value : Nat}
    (found : latest.lookup key = some value) :
    earlier.lookup key = some value :=
  agrees_iff.mp agrees key value (mem_of_lookup found)

theorem Agrees.trans
    {middle : NumberMap}
    (first : Agrees earlier middle)
    (second : Agrees middle latest) :
    Agrees earlier latest := by
  apply agrees_iff.mpr
  intro key value member
  exact first.lookup (agrees_iff.mp second key value member)

end Agreement

section Cover

variable {log : List StrikesEvent} {thresholds curveIds : NumberMap}
variable {leaf : StrikesTreeLeaf}

theorem Covered.mono
    {longer : List StrikesEvent}
    (covered : Covered log thresholds curveIds leaf)
    (grows : log ⊆ longer) :
    Covered longer thresholds curveIds leaf := by
  rcases covered with ⟨_, _, found, agree⟩ | ⟨leaves, resolved, member⟩
  · exact Or.inl ⟨_, _, grows found, agree⟩
  · exact Or.inr ⟨leaves, grows resolved, member⟩

/-- A leaf that is bad now was bad under earlier thresholds and curves that agree. -/
theorem IsBad.earlier
    {earlierThresholds earlierCurveIds : NumberMap}
    (bad : IsBad thresholds curveIds leaf)
    (sameThresholds : Agrees earlierThresholds thresholds)
    (sameCurveIds : Agrees earlierCurveIds curveIds) :
    IsBad earlierThresholds earlierCurveIds leaf := by
  obtain ⟨threshold, inForce, reached⟩ := bad
  refine ⟨threshold, ?_, reached⟩
  obtain ⟨curveId, curveFound, thresholdFound⟩ := Option.bind_eq_some_iff.mp inForce
  apply Option.bind_eq_some_iff.mpr
  exact ⟨curveId, sameCurveIds.lookup curveFound, sameThresholds.lookup thresholdFound⟩

/-- A leaf covered under earlier thresholds and curves is covered while they last. -/
theorem Covered.later
    {earlierThresholds earlierCurveIds : NumberMap}
    (covered : Covered log earlierThresholds earlierCurveIds leaf)
    (sameThresholds : Agrees earlierThresholds thresholds)
    (sameCurveIds : Agrees earlierCurveIds curveIds) :
    Covered log thresholds curveIds leaf := by
  rcases covered with ⟨_, _, found, agreeThresholds, agreeCurveIds⟩ | resolved
  · exact Or.inl
      ⟨_, _, found, agreeThresholds.trans sameThresholds,
        agreeCurveIds.trans sameCurveIds⟩
  · exact Or.inr resolved

def IsSkip : StrikesEvent → Prop
  | .skipped _ _ _ => True
  | _ => False

/-- Events that pass nothing over leave nothing to be remembered. -/
theorem Remembers.append
    (remembers : Remembers log)
    {events : List StrikesEvent}
    (quiet : ∀ event ∈ events, ¬ IsSkip event) :
    Remembers (log ++ events) := by
  intro earlier later strikesTree thresholds curveIds shape
  rcases split_append shape with ⟨between, rfl, -⟩ | ⟨between, rfl, eventsShape⟩
  · exact remembers earlier between strikesTree thresholds curveIds rfl
  · exact (quiet (.skipped strikesTree thresholds curveIds)
      (by simp [eventsShape]) trivial).elim

/-- A tree may be passed over when its bad performers are covered. -/
theorem Remembers.skip
    (remembers : Remembers log)
    {strikesTree : StrikesTree}
    (covered :
      ∀ leaf ∈ strikesTree.leaves,
        IsBad thresholds curveIds leaf → Covered log thresholds curveIds leaf) :
    Remembers (log ++ [.skipped strikesTree thresholds curveIds]) := by
  intro earlier later otherTree otherThresholds otherCurveIds shape
  rcases split_append shape with ⟨between, rfl, -⟩ | ⟨between, rfl, eventsShape⟩
  · exact remembers earlier between otherTree otherThresholds otherCurveIds rfl
  · cases between with
    | nil =>
        cases eventsShape
        rw [List.append_nil]
        exact covered
    | cons head rest => simp at eventsShape

end Cover

/-! ## The invariant -/

/--
What every round leaves behind: a tree that is held and marked as processed has
all its bad performers covered, under the thresholds and curve ids remembered
with it.
-/
structure Invariant (world : StrikesWorld) : Prop where
  remembers : Remembers world.log
  held :
    ∀ root,
      world.badPerformers.lastProcessedStrikesTreeRoot = some root →
      ∃ strikesTree, world.badPerformers.currentStrikesTree = some strikesTree
  covered :
    ∀ strikesTree,
      world.badPerformers.currentStrikesTree = some strikesTree →
      world.badPerformers.lastProcessedStrikesTreeRoot = some strikesTree.root →
      ∀ leaf ∈ strikesTree.leaves,
        IsBad world.badPerformers.currentStrikesThresholdsByCurveId
          world.badPerformers.currentNodeOperatorsCurveIds leaf →
        Covered world.log world.badPerformers.currentStrikesThresholdsByCurveId
          world.badPerformers.currentNodeOperatorsCurveIds leaf

section Keeps

variable {world : StrikesWorld}

/-- A restart forgets what was processed, so nothing is passed over unseen. -/
theorem invariant_restart
    (remembers : Remembers world.log) :
    Invariant world.restart where
  remembers := remembers
  held := fun _ marked => by cases marked
  covered := fun _ isHeld => by cases isHeld

theorem Invariant.append
    (invariant : Invariant world)
    {events : List StrikesEvent}
    (remembers : Remembers (world.log ++ events)) :
    Invariant { world with log := world.log ++ events } where
  remembers := remembers
  held := invariant.held
  covered := fun strikesTree isHeld marked leaf member bad =>
    (invariant.covered strikesTree isHeld marked leaf member bad).mono
      (List.subset_append_left _ _)

/-- A state that holds another tree than the processed one has nothing to show. -/
theorem invariant_of_unmarked
    (strikesTree : StrikesTree)
    (remembers : Remembers world.log)
    (isHeld : world.badPerformers.currentStrikesTree = some strikesTree)
    (unmarked :
      world.badPerformers.lastProcessedStrikesTreeRoot ≠ some strikesTree.root) :
    Invariant world where
  remembers := remembers
  held := fun _ _ => ⟨strikesTree, isHeld⟩
  covered := by
    intro other otherHeld marked
    rw [isHeld] at otherHeld
    cases otherHeld
    exact (unmarked marked).elim

/-- Marking a tree whose bad performers are covered. -/
theorem invariant_markProcessed
    {strikesTree : StrikesTree}
    (remembers : Remembers world.log)
    (isHeld : world.badPerformers.currentStrikesTree = some strikesTree)
    (covered :
      ∀ leaf ∈ strikesTree.leaves,
        IsBad world.badPerformers.currentStrikesThresholdsByCurveId
          world.badPerformers.currentNodeOperatorsCurveIds leaf →
        Covered world.log world.badPerformers.currentStrikesThresholdsByCurveId
          world.badPerformers.currentNodeOperatorsCurveIds leaf) :
    Invariant (markProcessed world) := by
  unfold markProcessed
  rw [isHeld]
  exact
    { remembers := remembers
      held := fun _ _ => ⟨strikesTree, isHeld⟩
      covered := by
        intro other otherHeld _
        change world.badPerformers.currentStrikesTree = some other at otherHeld
        rw [isHeld] at otherHeld
        cases otherHeld
        exact covered }

/-- Marking the tree that is marked already changes nothing. -/
theorem markProcessed_of_marked
    (marked :
      ∀ strikesTree,
        world.badPerformers.currentStrikesTree = some strikesTree →
        world.badPerformers.lastProcessedStrikesTreeRoot = some strikesTree.root) :
    markProcessed world = world := by
  unfold markProcessed
  cases isHeld : world.badPerformers.currentStrikesTree with
  | none => rfl
  | some strikesTree => simp only [← marked strikesTree isHeld]

theorem getStrikesThreshold_iff
    {fields : BadPerformersFields}
    {nodeOperatorId threshold : Nat} :
    getStrikesThresholdByNodeOperatorId fields nodeOperatorId = .ok threshold ↔
      thresholdIn fields.currentStrikesThresholdsByCurveId
        fields.currentNodeOperatorsCurveIds nodeOperatorId = some threshold := by
  unfold getStrikesThresholdByNodeOperatorId thresholdIn
  cases fields.currentNodeOperatorsCurveIds.lookup nodeOperatorId with
  | none => simp
  | some curveId =>
      simp only [Option.bind_some]
      cases fields.currentStrikesThresholdsByCurveId.lookup curveId <;> simp

end Keeps

/-! ## Sending -/

section Send

variable {config : Config} {reads : StrikesReads}

/-- While a round waits only its log has to be in order: a restart forgets the rest. -/
def protocol : Protocol StrikesWorld :=
  alone (fun state => Remembers state.log) fun _ => Invariant

/-- What the batches have done: the fields as before, and every key resolved. -/
structure Sent (keys : List BadPerformer) (start final : StrikesWorld) : Prop where
  remembers : Remembers final.log
  fields : final.badPerformers = start.badPerformers
  grows : start.log ⊆ final.log
  resolved :
    ∀ key ∈ keys, ∃ leaves, .batchResolved leaves ∈ final.log ∧ key.leaf ∈ leaves

theorem wp_batches
    {keys : List BadPerformer}
    {strikesTree : StrikesTree}
    {start : StrikesWorld}
    (isHeld : start.badPerformers.currentStrikesTree = some strikesTree)
    (placed : ∀ key ∈ keys, IsPlaced strikesTree key)
    (remembers : Remembers start.log)
    (fails :
      ∀ state number reason,
        state.badPerformers = start.badPerformers →
        Remembers state.log →
        number ∈ (batchesOf config keys).map Prod.snd →
        reads.failure (.sendBadPerformanceProof number) = some reason →
        Invariant state) :
    wp protocol (fun _ => Sent keys start)
      (processBadPerformerBatches config reads keys) start := by
  -- A key still waits in one of the remaining batches or has been resolved.
  apply wp_processBatches isHeld placed fun rest state =>
    rest ⊆ batchesOf config keys ∧
      Remembers state.log ∧
      state.badPerformers = start.badPerformers ∧
      start.log ⊆ state.log ∧
      ∀ key ∈ keys,
        (∃ batch ∈ rest, key ∈ batch.1) ∨
          ∃ leaves, .batchResolved leaves ∈ state.log ∧ key.leaf ∈ leaves
  case enters =>
    exact ⟨fun _ => id, remembers, rfl, fun _ => id,
      fun key member => Or.inl (mem_batchesOf.mpr member)⟩
  case exits =>
    rintro state ⟨-, remembered, fields, grows, resolved⟩
    exact
      { remembers := remembered
        fields := fields
        grows := grows
        resolved := fun key member => by simpa using resolved key member }
  case sends =>
    rintro batch rest state payload - isPayload ⟨ofKeys, remembered, fields, grows, resolved⟩
    have sentRemembers : Remembers (state.submit payload).log :=
      remembered.append (by simp [IsSkip])
    have minedRemembers : Remembers (afterBatch config reads batch.2 payload state).log := by
      rw [afterBatch_log]
      apply remembered.append
      split <;> simp [IsSkip]
    refine ⟨sentRemembers, ?_, minedRemembers, fun _ member => ofKeys (by simp [member]), ?_, ?_,
      ?_, ?_⟩
    · intro reason failed
      exact fails _ batch.2 reason fields sentRemembers
        (List.mem_map_of_mem (ofKeys (by simp))) failed
    · exact minedRemembers.append (by simp [IsSkip])
    · rw [StrikesWorld.record_badPerformers, afterBatch_badPerformers, fields]
    · intro event member
      have stateMember := grows member
      simp [afterBatch_log, stateMember]
    · intro key member
      rcases resolved key member with ⟨other, otherMember, inBatch⟩ | ⟨leaves, found, inLeaves⟩
      · rcases List.mem_cons.mp otherMember with rfl | inRest
        · exact Or.inr ⟨_, by simp, isPayload.mem_leaves.mpr ⟨key, inBatch, rfl⟩⟩
        · exact Or.inl ⟨other, inRest, inBatch⟩
      · exact Or.inr ⟨leaves, by simp [afterBatch_log, found], inLeaves⟩

end Send

/-! ## A round at work -/

/-- The bad performers of the published tree, which a round asks the contracts about. -/
def bad (config : Config) (round : StrikesRound) (world : StrikesWorld) : List BadPerformer :=
  badKeys config round.storage round.reads round.blockTag
    (publishedTree round.reads round.blockTag world.badPerformers)

/-- Those of them that the contracts do not know. -/
def unknown (config : Config) (round : StrikesRound) (world : StrikesWorld) :
    List BadPerformer :=
  unknownKeys round.reads world.exitPenalties round.blockTag (bad config round world)

/--
A round that works on the published tree reaches its end: every bad performer has a
key, the exit limit lets all of those through that the contracts do not know, and
none of the requests fails that the round has yet to make.
-/
structure Completes (config : Config) (round : StrikesRound) (world : StrikesWorld) :
    Prop where
  curves :
    HaveCurves round.reads round.blockTag
      (publishedTree round.reads round.blockTag world.badPerformers)
  keys :
    HaveKeys config round.storage round.reads round.blockTag
      (publishedTree round.reads round.blockTag world.badPerformers)
  isEjectionProved :
    ∀ key ∈ bad config round world, round.reads.failure (.isEjectionProved key) = none
  isWithdrawalProved :
    ∀ key ∈ bad config round world,
      BadPerformers.isEjectionProved round.reads world.exitPenalties round.blockTag key =
        false →
      round.reads.failure (.isWithdrawalProved key) = none
  exitLimitAtSend :
    unknown config round world ≠ [] → round.reads.failure .exitLimitAtSend = none
  limit : (unknown config round world).length ≤ round.reads.exitLimitAtSend
  sendBadPerformanceProof :
    ∀ number ∈ (batchesOf config (unknown config round world)).map Prod.snd,
      round.reads.failure (.sendBadPerformanceProof number) = none

/--
The two kinds of rounds that lose bad performers do not occur.  A round that finds
nothing to do, because no tree is published or nothing changed, holds the tree
that is marked as processed; a round that works on the marked tree once more,
because a threshold or a curve id changed, reaches its end.
-/
structure IsCareful (config : Config) (round : StrikesRound) (world : StrikesWorld) :
    Prop where
  passesOver :
    Opens round.reads →
    (¬ isPublished round.reads round.blockTag ∨
      TreeRead round.reads round.blockTag world.badPerformers ∧
        IsPassedOver round.reads round.blockTag world.badPerformers) →
    ∀ strikesTree,
      world.badPerformers.currentStrikesTree = some strikesTree →
      world.badPerformers.lastProcessedStrikesTreeRoot = some strikesTree.root
  completes :
    Opens round.reads →
    TreeRead round.reads round.blockTag world.badPerformers →
    IsToBeProcessed round.reads round.blockTag world.badPerformers →
    world.badPerformers.lastProcessedStrikesTreeRoot =
      some (publishedTree round.reads round.blockTag world.badPerformers).root →
    Completes config round world

section Work

variable {config : Config} {round : StrikesRound} {world : StrikesWorld}

theorem agrees_refl
    (items : List Nat)
    (value : Nat → Nat) :
    Agrees (items.map fun item => (item, value item))
      (items.map fun item => (item, value item)) := by
  apply agrees_iff.mpr
  intro key found member
  obtain ⟨item, itemMember, shape⟩ := List.mem_map.mp member
  cases shape
  exact List.lookup_graph value itemMember

/-- A key the contracts know has been noted, every other key is left to be sent. -/
theorem noted_or_unknown
    {reads : StrikesReads}
    {blockTag : BlockHash}
    {keys : List BadPerformer}
    {key : BadPerformer}
    (member : key ∈ keys)
    (start : StrikesWorld) :
    .found start.badPerformers.currentStrikesThresholdsByCurveId
        start.badPerformers.currentNodeOperatorsCurveIds key.leaf ∈
          (afterSelection reads blockTag keys start).log ∨
      key ∈ unknownKeys reads start.exitPenalties blockTag keys := by
  unfold afterSelection unknownKeys noteFound
  by_cases proved : isEjectionProved reads start.exitPenalties blockTag key
  · refine Or.inl (List.mem_append_left _ (List.mem_append_right _ ?_))
    exact List.mem_map.mpr ⟨key, by simp [member, proved], rfl⟩
  · by_cases withdrawn : isWithdrawalProved reads key
    · refine Or.inl (List.mem_append_right _ ?_)
      exact List.mem_map.mpr ⟨key, by simp [member, proved, withdrawn], rfl⟩
    · exact Or.inr (by simp [member, proved, withdrawn])

theorem Remembers.noteFound
    {state : StrikesWorld}
    (remembers : Remembers state.log)
    (keys : List BadPerformer) :
    Remembers (noteFound keys state).log :=
  remembers.append (by simp [IsSkip])

/-- Wherever a working round ends before its end, it leaves the invariant behind. -/
def StopsSafely (config : Config) (round : StrikesRound) (world : StrikesWorld) : Prop :=
  ∀ state,
    state.badPerformers = committed round.reads round.blockTag world.badPerformers →
    Remembers state.log →
    ¬ Completes config round world →
    Invariant state

/-- A round that stops early is one on a tree that is not marked. -/
theorem stopsSafely
    (careful :
      world.badPerformers.lastProcessedStrikesTreeRoot =
        some (publishedTree round.reads round.blockTag world.badPerformers).root →
      Completes config round world) :
    StopsSafely config round world := by
  intro state fields remembers incomplete
  apply invariant_of_unmarked
    (publishedTree round.reads round.blockTag world.badPerformers) remembers
  · rw [fields]
    rfl
  · rw [fields]
    exact fun marked => incomplete (careful marked)

section Collected

variable {keys : List BadPerformer}
variable
  (built :
    buildPayloads
      (badPerformerOfLeaf config (lookupIn config round.storage)
        (committed round.reads round.blockTag world.badPerformers))
      (entries (publishedTree round.reads round.blockTag world.badPerformers)) =
        .ok keys)

include built

/-- A tree is covered when each collected key was noted or resolved. -/
theorem covered_of_collected
    (daemon : config.workingMode = .daemon)
    {log : List StrikesEvent}
    (done :
      ∀ key ∈ keys,
        .found (thresholdsAt round.reads round.blockTag)
            (curveIdsAt round.reads round.blockTag
              (publishedTree round.reads round.blockTag world.badPerformers))
            key.leaf ∈ log ∨
          ∃ leaves, .batchResolved leaves ∈ log ∧ key.leaf ∈ leaves) :
    ∀ leaf ∈ (publishedTree round.reads round.blockTag world.badPerformers).leaves,
      IsBad (thresholdsAt round.reads round.blockTag)
          (curveIdsAt round.reads round.blockTag
            (publishedTree round.reads round.blockTag world.badPerformers)) leaf →
        Covered log (thresholdsAt round.reads round.blockTag)
          (curveIdsAt round.reads round.blockTag
            (publishedTree round.reads round.blockTag world.badPerformers)) leaf := by
  rintro leaf member ⟨threshold, inForce, reached⟩
  obtain ⟨key, keyMember, rfl⟩ :=
    (collected built).2 daemon leaf member threshold
      (getStrikesThreshold_iff.mpr inForce) reached
  rcases done key keyMember with found | resolved
  · exact Or.inl ⟨_, _, found, agrees_refl _ _, agrees_refl _ _⟩
  · exact Or.inr resolved

/-- The loop over the tree has collected the bad performers. -/
theorem Completes.bad_eq
    (complete : Completes config round world) :
    bad config round world = keys :=
  Except.ok.inj ((collects_badKeys complete.curves complete.keys).symm.trans built)

/-- The round sends what the contracts do not know, as the exit limit lets it through. -/
theorem Completes.withinLimit_eq
    (complete : Completes config round world) :
    withinLimit round.reads
        (unknownKeys round.reads world.exitPenalties round.blockTag keys) =
      unknown config round world := by
  have limit := complete.limit
  unfold unknown at limit ⊢
  rw [complete.bad_eq built] at limit ⊢
  exact if_pos limit

/-- So all of it is sent. -/
theorem Completes.fitsLimit
    (complete : Completes config round world) :
    (unknownKeys round.reads world.exitPenalties round.blockTag keys).length ≤
      round.reads.exitLimitAtSend := by
  rw [← complete.bad_eq built]
  exact complete.limit

/-- Sending the unknown keys covers the tree, or stops on a tree that is not marked. -/
theorem wp_sendUnknown
    (daemon : config.workingMode = .daemon)
    (remembers : Remembers (round.working world).log)
    (stops : StopsSafely config round world) :
    wp protocol (fun _ => Invariant)
      (sendBadPerformanceProofs config round.reads
        (unknownKeys round.reads world.exitPenalties round.blockTag keys))
      (afterSelection round.reads round.blockTag keys (round.working world)) := by
  have remembersNoted :
      Remembers
        (afterSelection round.reads round.blockTag keys (round.working world)).log :=
    (remembers.noteFound _).noteFound _
  apply wp_sendBadPerformanceProofs rfl
  · intro noneUnknown
    apply invariant_markProcessed remembersNoted rfl
    apply covered_of_collected built daemon
    intro key member
    rcases noted_or_unknown member (round.working world) with found | unknown
    · exact Or.inl found
    · rw [round.working_exitPenalties, noneUnknown] at unknown
      cases unknown
  · intro someUnknown
    refine ⟨remembersNoted, ?_, ?_, ?_⟩
    · intro reason failed
      apply stops _ rfl remembersNoted
      intro complete
      rw [complete.exitLimitAtSend] at failed
      · cases failed
      · unfold unknown
        rw [complete.bad_eq built]
        exact someUnknown
    · intro noneSent
      apply stops _ rfl remembersNoted
      intro complete
      rw [withinLimit, if_pos (complete.fitsLimit built)] at noneSent
      exact someUnknown noneSent
    · apply wp_mono (wp_batches rfl ?_ remembersNoted ?_)
      · intro _ final sent
        constructor
        · intro sendAll
          have held :
              final.badPerformers.currentStrikesTree =
                some (publishedTree round.reads round.blockTag world.badPerformers) := by
            rw [sent.fields]
            rfl
          apply invariant_markProcessed sent.remembers held
          rw [sent.fields]
          apply covered_of_collected built daemon
          intro key member
          rcases noted_or_unknown member (round.working world) with found | unknown
          · exact Or.inl (sent.grows found)
          · apply Or.inr (sent.resolved key _)
            rw [withinLimit, if_pos sendAll]
            exact unknown
        · intro partly
          apply stops _ sent.fields sent.remembers
          exact fun complete => partly (complete.fitsLimit built)
      · intro key member
        have inUnknown := mem_of_mem_withinLimit member
        unfold unknownKeys at inUnknown
        have inKeys : key ∈ keys :=
          List.mem_of_mem_filter (List.mem_of_mem_filter inUnknown)
        exact ((collected built).1 key inKeys).1
      · intro state number reason fields remembered isNumber failed
        apply stops _ fields remembered
        intro complete
        rw [complete.withinLimit_eq built] at isNumber
        rw [complete.sendBadPerformanceProof number isNumber] at failed
        cases failed

end Collected

/-- A round that works leaves the invariant behind, wherever it ends. -/
theorem wp_works
    (daemon : config.workingMode = .daemon)
    (remembers : Remembers (round.working world).log)
    (stops : StopsSafely config round world) :
    wp protocol
      (fun badPerformers selected =>
        wp protocol (fun _ => Invariant)
          (sendBadPerformanceProofs config round.reads badPerformers) selected)
      (selectBadPerformers config round.reads round.blockTag
        (lookupIn config round.storage))
      (round.working world) := by
  apply wp_selectBadPerformers rfl
  · intro reason failed
    apply stops _ rfl remembers
    intro complete
    cases failed.symm.trans (collects_badKeys complete.curves complete.keys)
  · intro keys built
    refine ⟨remembers, ?_, remembers.noteFound _, ?_, ?_⟩
    · intro key member reason failed
      apply stops _ rfl remembers
      intro complete
      rw [← complete.bad_eq built] at member
      rw [complete.isEjectionProved key member] at failed
      cases failed
    · intro key member reason failed
      apply stops _ rfl (remembers.noteFound _)
      intro complete
      rw [← complete.bad_eq built] at member
      obtain ⟨isBad, unproved⟩ := List.mem_filter.mp member
      rw [complete.isWithdrawalProved key isBad (by simpa using unproved)] at failed
      cases failed
    · exact wp_sendUnknown built daemon remembers stops

/-- The tree passed over is the one the service holds, and its bad performers are covered. -/
theorem covered_of_passedOver
    (invariant : Invariant world)
    (passedOver : IsPassedOver round.reads round.blockTag world.badPerformers)
    (marked :
      ∀ strikesTree,
        world.badPerformers.currentStrikesTree = some strikesTree →
        world.badPerformers.lastProcessedStrikesTreeRoot = some strikesTree.root) :
    ∀ leaf ∈ (publishedTree round.reads round.blockTag world.badPerformers).leaves,
      IsBad (thresholdsAt round.reads round.blockTag)
          (curveIdsAt round.reads round.blockTag
            (publishedTree round.reads round.blockTag world.badPerformers)) leaf →
        Covered world.log (thresholdsAt round.reads round.blockTag)
          (curveIdsAt round.reads round.blockTag
            (publishedTree round.reads round.blockTag world.badPerformers)) leaf := by
  obtain ⟨processed, sameThresholds, sameCurveIds⟩ := passedOver.unchanged
  have lastRoot := of_decide_eq_true processed
  obtain ⟨strikesTree, isHeld⟩ := invariant.held _ lastRoot
  have sameRoot :
      strikesTree.root = round.reads.treeRoot round.blockTag := by
    rw [← passedOver.rooted]
    exact Option.some.inj ((marked strikesTree isHeld).symm.trans lastRoot)
  have isPublishedTree :
      publishedTree round.reads round.blockTag world.badPerformers = strikesTree := by
    simp [publishedTree, isHeld, sameRoot]
  rw [isPublishedTree] at sameCurveIds ⊢
  intro leaf member bad
  have badBefore := bad.earlier sameThresholds sameCurveIds
  have covered :=
    invariant.covered strikesTree isHeld (marked strikesTree isHeld) leaf member badBefore
  exact covered.later sameThresholds sameCurveIds

end Work

/-! ## Rounds and runs -/

/-- A careful round keeps the invariant, and keeps the log in order while it waits. -/
theorem wp_round
    {config : Config}
    (daemon : config.workingMode = .daemon)
    {round : StrikesRound}
    {world : StrikesWorld}
    (invariant : Invariant world)
    (careful : IsCareful config round world) :
    wp protocol (fun _ => Invariant) (round.program config) world := by
  have remembers : Remembers (world.record .roundStarted).log :=
    invariant.remembers.append (by simp [IsSkip])
  have started : Invariant (world.record .roundStarted) := invariant.append remembers
  apply StrikesRound.wp_program remembers
  · exact fun _ => started
  · exact fun _ => started
  · intro opens absent
    have marked := careful.passesOver opens (Or.inl absent)
    have unmoved :
        markProcessed (world.record .roundStarted) = world.record .roundStarted :=
      markProcessed_of_marked marked
    rw [unmoved]
    exact started
  · intro opens treeRead passedOver
    have marked := careful.passesOver opens (Or.inr ⟨treeRead, passedOver⟩)
    have covered := covered_of_passedOver invariant passedOver marked
    rw [markProcessed_of_marked]
    · apply started.append
      apply remembers.skip
      intro leaf member bad
      exact (covered leaf member bad).mono (List.subset_append_left _ _)
    · exact marked
  · intro opens treeRead toBeProcessed
    apply wp_works daemon remembers
    exact stopsSafely (careful.completes opens treeRead toBeProcessed)

theorem invariant_play
    {config : Config}
    (daemon : config.workingMode = .daemon)
    (round : StrikesRound)
    (world : StrikesWorld)
    (invariant : Invariant world)
    (careful : IsCareful config round world) :
    Invariant (round.play config world) :=
  StrikesRound.play_establishes (wp_round daemon invariant careful)
    fun _ remembers => invariant_restart remembers

theorem invariant_fresh : Invariant .fresh where
  remembers := by
    intro earlier later strikesTree thresholds curveIds shape
    simp [StrikesWorld.fresh] at shape
  held := fun _ marked => by cases marked
  covered := fun _ isHeld => by cases isHeld

/--
In every run of careful rounds, whatever trees, thresholds, curves and limits they
read and wherever they fail or are cut, a tree is passed over only when each of
its bad performers was found proved or withdrawn under the thresholds and curves
in force, or was part of a send that resolved.
-/
theorem no_bad_performer_forgotten
    (config : Config)
    (daemon : config.workingMode = .daemon)
    (steps : List StrikesStep)
    (careful : StrikesStep.Throughout (IsCareful config) config steps .fresh) :
    Remembers (StrikesStep.performAll config .fresh steps).log := by
  have invariant : Invariant (StrikesStep.performAll config .fresh steps) := by
    apply StrikesStep.performAll_keeps (invariant_play daemon) ?_ ?_ invariant_fresh careful
    · exact fun _ kept => invariant_restart kept.remembers
    · intro _ _ kept
      exact
        { remembers := kept.remembers
          held := kept.held
          covered := kept.covered }
  exact invariant.remembers

/-! ### A threshold that drops on a processed tree -/

open StrikesRound

theorem sample_haveKeys :
    HaveKeys sampleConfig sampleStorage (sampleReads (sampleTree 3) 3 10) 105
      (sampleTree 3) := by
  intro leaf member _
  rcases List.mem_pair.mp member with rfl | rfl
  · exact ⟨_, rfl, rfl⟩
  · exact ⟨_, rfl, rfl⟩

/-- The threshold drops from four to three, and one round reports both leaves. -/
theorem no_bad_performer_forgotten_sample :
    Remembers
      (StrikesStep.performAll sampleConfig .fresh
        [.played (sample 100 4 10), .played (sample 105 3 10),
          .played (sample 106 3 10)]).log := by
  apply no_bad_performer_forgotten sampleConfig rfl
  refine ⟨?_, ?_, ?_, trivial⟩
  · exact
      { passesOver := fun _ _ _ held => by cases held
        completes := fun _ _ _ marked => by cases marked }
  · exact
      { passesOver := fun _ _ strikesTree held => by
          cases held
          rfl
        completes := fun _ _ _ _ =>
          { curves := by decide
            keys := sample_haveKeys
            isEjectionProved := fun _ _ => rfl
            isWithdrawalProved := fun _ _ _ => rfl
            exitLimitAtSend := fun _ => rfl
            limit := by decide
            sendBadPerformanceProof := fun _ _ => rfl } }
  · exact
      { passesOver := fun _ _ strikesTree held => by
          cases held
          rfl
        completes := fun _ _ toBeProcessed _ =>
          (toBeProcessed.changed (by decide)).elim }

/--
With an exit limit of one, the round that sees the lower threshold reports the
first leaf and defers the second, and the next round passes the tree over.
-/
theorem deferred_leaf_forgotten :
    sampleConfig.workingMode = .daemon ∧
      ¬ Remembers
        (StrikesStep.performAll sampleConfig .fresh
          [.played (sample 100 4 1), .played (sample 105 3 1),
            .played (sample 106 3 1)]).log := by
  refine ⟨rfl, fun remembers => ?_⟩
  have covered :=
    remembers
      [ .roundStarted, .roundStarted,
        .batchSent [sampleKey.leaf], .batchMined [sampleKey.leaf] 115,
        .batchResolved [sampleKey.leaf], .roundStarted ]
      [] (sampleTree 3) [(0, 3)] [(1, 0), (2, 0)] (by decide)
      { nodeOperatorId := 2, pubKey := 20, strikesData := [3] } (by decide)
      ⟨3, by decide, by decide⟩
  rcases covered with ⟨_, _, found, -⟩ | ⟨leaves, resolved, member⟩
  · simp at found
  · simp only [List.mem_cons, reduceCtorEq, false_or, StrikesEvent.batchResolved.injEq,
      List.not_mem_nil, or_false] at resolved
    subst resolved
    exact absurd member (by decide)

end StrikesCoverage

end CsmProver
