import CsmProver.StrikesBatches

namespace CsmProver

/-!
# Justified strikes reports

What a round has sent is justified by what the round has read, wherever it waits,
fails or is cut: the leaves are places of the tree published at its finalized
block, each at the threshold of its operator's curve and of an allowed operator
whose key is not withdrawn, and the entries name the keys of the index.

The published tree is the one the service holds if its root is the published one,
and otherwise the one the round loads; so it depends on what the service remembers
when the round starts.
-/

open Async

namespace StrikesRound

open BadPerformers

/-! ## What justifies a report -/

/-- The key that a round finds for a leaf it may report. -/
structure IsKeyOf (config : Config) (round : StrikesRound) (leaf : StrikesTreeLeaf)
    (fullKeyInfo : FullKeyInfo) : Prop where
  found : lookupIn config round.storage leaf.pubKey = some fullKeyInfo
  owned : fullKeyInfo.operatorId = leaf.nodeOperatorId
  allowed : KeysIndexer.isAllowedOperatorId config leaf.nodeOperatorId = true
  reached :
    thresholdOf round.reads round.blockTag leaf.nodeOperatorId ≤ strikesSum leaf
  notWithdrawn :
    round.reads.stakingModule.proved .withdrawal
      (fullKeyInfo.operatorId, fullKeyInfo.keyIndex) = false

/-- An entry of a payload that says of a leaf what the round knows. -/
structure Reports (config : Config) (round : StrikesRound) (leaf : StrikesTreeLeaf)
    (entry : KeyStrikes) : Prop where
  nodeOperatorId : entry.nodeOperatorId = leaf.nodeOperatorId
  data : entry.data = leaf.strikesData
  key :
    ∃ fullKeyInfo,
      IsKeyOf config round leaf fullKeyInfo ∧ entry.keyIndex = fullKeyInfo.keyIndex

/-- The payloads are batches of different places of the tree the round works on. -/
structure IsCutFrom (config : Config) (round : StrikesRound)
    (sent : List BadPerformanceProof) (strikesTree : StrikesTree) (places : List Nat) :
    Prop where
  root : strikesTree.root = round.reads.treeRoot round.blockTag
  distinct : places.Nodup
  limited : places.length ≤ round.reads.exitLimitAtSend
  leaves :
    ((sent.flatMap (·.leaves)).map some).Perm
      (places.map fun place => strikesTree.leaves[place]?)
  bounded :
    ∀ payload ∈ sent,
      payload.leaves ≠ [] ∧
        payload.leaves.length ≤ config.txStrikesPayloadMaxBatchSize

/-- What a round has sent that found the service with these values, and why. -/
structure Justified (config : Config) (round : StrikesRound) (fields : BadPerformersFields)
    (sent : List BadPerformanceProof) : Prop where
  tree :
    sent ≠ [] →
    ∃ places,
      IsCutFrom config round sent (publishedTree round.reads round.blockTag fields) places
  entries :
    ∀ payload ∈ sent,
      List.Forall₂ (Reports config round) payload.leaves payload.keyStrikesList

/-- A penalty for a leaf of one of the payloads, which were sent for good. -/
def IsEarned (config : Config) (sent : List BadPerformanceProof) (penalty : ExitPenalty) :
    Prop :=
  Live config ∧
    ∃ payload ∈ sent, ∃ leaf ∈ payload.leaves, ∃ block, penalty = penaltyOf block leaf

/-- What a round has done so far is justified. -/
def Progress (config : Config) (round : StrikesRound) (world state : StrikesWorld) :
    Prop :=
  ∃ sent penalties,
    state.payloads = world.payloads ++ sent ∧
    state.exitPenalties = world.exitPenalties ++ penalties ∧
    Justified config round world.badPerformers sent ∧
    ∀ penalty ∈ penalties, IsEarned config sent penalty

section Progress

variable {config : Config} {round : StrikesRound} {fields : BadPerformersFields}
  {world state : StrikesWorld}

/-- A round that has sent nothing is justified. -/
theorem justified_nil :
    Justified config round fields [] where
  tree := fun isSome => absurd rfl isSome
  entries := by simp

/-- A round that has sent nothing. -/
theorem progress_of_eq
    (samePayloads : state.payloads = world.payloads)
    (samePenalties : state.exitPenalties = world.exitPenalties) :
    Progress config round world state :=
  ⟨[], [], by simp [samePayloads], by simp [samePenalties], justified_nil, by simp⟩

/-- What is sent later takes nothing from a penalty. -/
theorem IsEarned.mono
    {sent later : List BadPerformanceProof}
    {penalty : ExitPenalty}
    (earned : IsEarned config sent penalty) :
    IsEarned config (sent ++ later) penalty := by
  obtain ⟨live, payload, member, rest⟩ := earned
  exact ⟨live, payload, List.mem_append_left _ member, rest⟩

/-! ## The keys of a round -/

/-- Keys of the published tree that a round may report together. -/
structure MayReport (config : Config) (round : StrikesRound) (fields : BadPerformersFields)
    (keys : List BadPerformer) : Prop where
  root :
    (publishedTree round.reads round.blockTag fields).root =
      round.reads.treeRoot round.blockTag
  taken : TakenFrom (publishedTree round.reads round.blockTag fields) keys
  isKey : ∀ key ∈ keys, IsKeyOf config round key.leaf key.toFullKeyInfo
  limited : keys.length ≤ round.reads.exitLimitAtSend

/-- What the lookup shows belongs to an allowed operator. -/
theorem allowed_of_lookupIn
    {storage : KeysIndexerServiceStorage}
    {pubKey : PubKey}
    {fullKeyInfo : FullKeyInfo}
    (found : lookupIn config storage pubKey = some fullKeyInfo) :
    KeysIndexer.isAllowedOperatorId config fullKeyInfo.operatorId = true := by
  rw [lookupIn, getFullKeyInfoByPubKey_eq, KeysIndexer.filterFullKeyInfo,
    Option.filter_eq_some_iff] at found
  exact found.2

/-- The keys left by the selection and the exit limit may be reported. -/
theorem mayReport_selected
    (toBeProcessed : IsToBeProcessed round.reads round.blockTag world.badPerformers)
    {keys : List BadPerformer}
    (built :
      buildPayloads
        (badPerformerOfLeaf config (lookupIn config round.storage)
          (committed round.reads round.blockTag world.badPerformers))
        (entries (publishedTree round.reads round.blockTag world.badPerformers)) =
          .ok keys)
    (exitPenalties : List ExitPenalty) :
    MayReport config round world.badPerformers
      (withinLimit round.reads
        (unknownKeys round.reads exitPenalties round.blockTag keys)) where
  root := toBeProcessed.rooted
  taken := by
    rw [withinLimit_eq_take]
    exact (takenFrom_unknownKeys built round.reads exitPenalties round.blockTag).sublist
      (List.take_sublist _ _)
  isKey := by
    intro key member
    obtain ⟨inUnproven, notWithdrawn⟩ :=
      List.mem_filter.mp (mem_of_mem_withinLimit member)
    obtain ⟨placed, found, threshold, inForce, reached⟩ :=
      (collected built).1 key (List.mem_of_mem_filter inUnproven)
    exact
      { found := found
        owned := rfl
        allowed := allowed_of_lookupIn found
        reached := by
          rw [thresholdOf_of_committed (List.mem_of_getElem? placed) inForce]
          exact reached
        notWithdrawn := by
          simpa [isWithdrawalProved, BadPerformer.id] using notWithdrawn }
  limited := by
    rw [withinLimit_eq_take, List.length_take]
    omega

/-! ## The batches of a round -/

variable {keys : List BadPerformer}

/-- The leaves of payloads that go with batches one by one. -/
theorem leaves_of_payloads
    {sent : List BadPerformanceProof}
    {batches : List (List BadPerformer)}
    (areTheirs : List.Forall₂ IsPayloadOf sent batches) :
    (sent.flatMap (·.leaves)).Perm (batches.flatten.map (·.leaf)) := by
  induction areTheirs with
  | nil => exact .refl _
  | @cons payload batch _ _ isPayload _ inductionHypothesis =>
      rw [List.flatMap_cons, List.flatten_cons, List.map_append]
      exact isPayload.leaves.append inductionHypothesis

/-- Payloads that go with the first batches of keys that may be reported. -/
theorem justified_of_payloads
    (may : MayReport config round fields keys)
    {sent : List BadPerformanceProof}
    {done rest : List (List BadPerformer × Nat)}
    (areTheirs : List.Forall₂ IsPayloadOf sent (done.map Prod.fst))
    (isAll : done ++ rest = batchesOf config keys) :
    Justified config round fields sent := by
  have sizes (batch : List BadPerformer) (member : batch ∈ done.map Prod.fst) :
      batch ≠ [] ∧ batch.length ≤ config.txStrikesPayloadMaxBatchSize := by
    have inAll : batch ∈ (batchesOf config keys).map Prod.fst := by
      rw [← isAll, List.map_append]
      exact List.mem_append_left _ member
    rw [batchesOf, List.zipIdx_map_fst] at inAll
    exact length_of_mem_slices config.txStrikesPayloadMaxBatchSize inAll
  have inKeys (batch : List BadPerformer) (member : batch ∈ done.map Prod.fst)
      (key : BadPerformer) (inBatch : key ∈ batch) : key ∈ keys := by
    obtain ⟨numbered, numberedMember, rfl⟩ := List.mem_map.mp member
    refine (@mem_batchesOf config keys key).mp ⟨numbered, ?_, inBatch⟩
    rw [← isAll]
    exact List.mem_append_left _ numberedMember
  have whole :
      ((done.map Prod.fst).flatten ++ (rest.map Prod.fst).flatten).Perm keys := by
    have cut := @flatten_batchesOf config keys
    rw [← isAll, List.map_append, List.flatten_append] at cut
    exact cut
  refine
    { tree := fun _ =>
        ⟨(done.map Prod.fst).flatten.map (·.leafIndex),
          { root := may.root
            distinct := ?_
            limited := ?_
            leaves := ?_
            bounded := ?_ }⟩
      entries := ?_ }
  · have distinct := (whole.map (·.leafIndex)).nodup_iff.mpr may.taken.distinct
    rw [List.map_append] at distinct
    exact distinct.of_append_left
  · have sameLength := whole.length_eq
    have limited := may.limited
    rw [List.length_append] at sameLength
    rw [List.length_map]
    omega
  · refine ((leaves_of_payloads areTheirs).map some).trans (.of_eq ?_)
    rw [List.map_map, List.map_map]
    refine List.map_congr_left fun key member => ?_
    exact (may.taken.placed key (whole.subset (List.mem_append_left _ member))).symm
  · intro payload member
    obtain ⟨batch, batchMember, isPayload⟩ := batch_of_payload areTheirs member
    have sameLength := isPayload.leaves.length_eq
    rw [List.length_map] at sameLength
    rw [← List.length_pos_iff, sameLength, List.length_pos_iff]
    exact sizes batch batchMember
  · intro payload member
    obtain ⟨batch, batchMember, isPayload⟩ := batch_of_payload areTheirs member
    refine (isPayload.describes may.taken (inKeys batch batchMember)).imp ?_
    rintro leaf entry describes
    obtain ⟨key, keyMember, rfl⟩ := describes.isTaken
    exact
      { nodeOperatorId := describes.nodeOperatorId
        data := describes.data
        key := ⟨_, may.isKey key keyMember, describes.keyIndex key keyMember rfl⟩ }

/-- While the batches are sent, the round is justified in what it has done. -/
theorem wp_batches_progress
    (held :
      state.badPerformers.currentStrikesTree =
        some (publishedTree round.reads round.blockTag world.badPerformers))
    (may : MayReport config round world.badPerformers keys)
    (samePayloads : state.payloads = world.payloads)
    (samePenalties : state.exitPenalties = world.exitPenalties) :
    wp (alone (Progress config round world) fun _ => Progress config round world)
      (fun _ => Progress config round world)
      (processBadPerformerBatches config round.reads keys) state := by
  -- What is sent goes with the batches that no longer wait.
  let sending (rest : List (List BadPerformer × Nat)) (now : StrikesWorld) : Prop :=
    ∃ sent penalties done,
      now.payloads = world.payloads ++ sent ∧
      now.exitPenalties = world.exitPenalties ++ penalties ∧
      List.Forall₂ IsPayloadOf sent (done.map Prod.fst) ∧
      done ++ rest = batchesOf config keys ∧
      ∀ penalty ∈ penalties, IsEarned config sent penalty
  have progress (rest : List (List BadPerformer × Nat)) (now : StrikesWorld)
      (holds : sending rest now) : Progress config round world now := by
    obtain ⟨sent, penalties, done, payloads, exitPenalties, areTheirs, isAll, earned⟩ := holds
    exact ⟨sent, penalties, payloads, exitPenalties,
      justified_of_payloads may areTheirs isAll, earned⟩
  apply wp_processBatches held may.taken.placed sending
  case enters =>
    exact ⟨[], [], [], by simp [samePayloads], by simp [samePenalties], .nil, rfl, by simp⟩
  case exits =>
    exact progress []
  case sends =>
    rintro batch rest now payload - isPayload
      ⟨sent, penalties, done, payloads, exitPenalties, areTheirs, isAll, earned⟩
    have theirs :
        List.Forall₂ IsPayloadOf (sent ++ [payload]) ((done ++ [batch]).map Prod.fst) := by
      rw [List.map_append]
      exact List.rel_append areTheirs (.cons isPayload .nil)
    have restIsAll : (done ++ [batch]) ++ rest = batchesOf config keys := by
      rw [List.append_assoc, List.singleton_append, isAll]
    have submitted : sending rest (now.submit payload) :=
      ⟨sent ++ [payload], penalties, done ++ [batch], by simp [payloads], exitPenalties,
        theirs, restIsAll, fun penalty member => (earned penalty member).mono⟩
    have mined : sending rest (afterBatch config round.reads batch.2 payload now) := by
      unfold afterBatch
      split
      · next live =>
          refine ⟨sent ++ [payload],
            penalties ++ payload.leaves.map (penaltyOf (round.reads.minedAt batch.2)),
            done ++ [batch], by simp [batchMined, payloads],
            by simp [batchMined, exitPenalties], theirs, restIsAll, ?_⟩
          intro penalty member
          rcases List.mem_append.mp member with before | now
          · exact (earned penalty before).mono
          · obtain ⟨leaf, leafMember, rfl⟩ := List.mem_map.mp now
            exact ⟨live, payload, by simp, leaf, leafMember, _, rfl⟩
      · exact submitted
    exact ⟨progress _ _ submitted, fun _ _ => progress _ _ submitted, progress _ _ mined, mined⟩

/-- Wherever a round waits or ends, what it has done is justified. -/
theorem wp_program_progress
    (config : Config)
    (round : StrikesRound)
    (world : StrikesWorld) :
    wp (alone (Progress config round world) fun _ => Progress config round world)
      (fun _ => Progress config round world) (round.program config) world := by
  have started : Progress config round world (world.record .roundStarted) :=
    progress_of_eq rfl rfl
  apply StrikesRound.wp_program started
  · exact fun _ => started
  · exact fun _ => started
  · exact fun _ _ => progress_of_eq (by simp) (by simp)
  · exact fun _ _ _ => progress_of_eq (by simp) (by simp)
  · intro opens treeRead toBeProcessed
    have working : Progress config round world (round.working world) :=
      progress_of_eq rfl rfl
    apply wp_selectBadPerformers rfl
    · exact fun _ _ => working
    · intro keys built
      have told (found : List BadPerformer) :
          Progress config round world (noteFound found (round.working world)) :=
        progress_of_eq rfl rfl
      have selected :
          Progress config round world
            (afterSelection round.reads round.blockTag keys (round.working world)) :=
        progress_of_eq rfl rfl
      refine ⟨working, fun _ _ _ _ => working, told _, fun _ _ _ _ => told _, ?_⟩
      apply wp_sendBadPerformanceProofs rfl
      · exact fun _ => progress_of_eq (by simp; rfl) (by simp; rfl)
      · intro _
        refine ⟨selected, fun _ _ => selected, fun _ => selected, ?_⟩
        have may :=
          mayReport_selected toBeProcessed built (round.working world).exitPenalties
        refine wp_mono (wp_batches_progress rfl may rfl rfl) ?_
        intro _ final sent
        refine ⟨fun _ => ?_, fun _ => sent⟩
        obtain ⟨payloads, penalties, samePayloads, samePenalties, rest⟩ := sent
        exact ⟨payloads, penalties, by simp [samePayloads], by simp [samePenalties], rest⟩

/-- What the round loads if the service does not hold the published tree. -/
def loadedTree (round : StrikesRound) : StrikesTree :=
  round.reads.ipfs (round.reads.treeCid round.blockTag)

/-- The service holds a tree it held before the round, or the one the round loads. -/
def KeepsTree (round : StrikesRound) (world state : StrikesWorld) : Prop :=
  ∀ strikesTree,
    state.badPerformers.currentStrikesTree = some strikesTree →
      strikesTree = round.loadedTree ∨
        world.badPerformers.currentStrikesTree = some strikesTree

/-- The published tree is held by the service already, or the round loads it. -/
theorem publishedTree_held_or_loaded
    (round : StrikesRound)
    (fields : BadPerformersFields) :
    publishedTree round.reads round.blockTag fields = round.loadedTree ∨
      fields.currentStrikesTree =
        some (publishedTree round.reads round.blockTag fields) := by
  unfold publishedTree loadedTree
  cases held : fields.currentStrikesTree with
  | none =>
      exact .inl rfl
  | some strikesTree =>
      by_cases sameRoot : strikesTree.root = round.reads.treeRoot round.blockTag
      · simp [sameRoot]
      · simp [sameRoot]

/-- Only the tree counts among the values of the service. -/
theorem KeepsTree.of_eq
    {moved : StrikesWorld}
    (keeps : KeepsTree round world state)
    (sameTree :
      moved.badPerformers.currentStrikesTree = state.badPerformers.currentStrikesTree) :
    KeepsTree round world moved := by
  intro strikesTree held
  exact keeps strikesTree (sameTree ▸ held)

/-- Sending the batches leaves the service as it is. -/
theorem wp_batches_keepsTree
    {strikesTree : StrikesTree}
    (held : state.badPerformers.currentStrikesTree = some strikesTree)
    (placed : ∀ key ∈ keys, IsPlaced strikesTree key)
    (keeps : KeepsTree round world state) :
    wp (alone (KeepsTree round world) fun _ => KeepsTree round world)
      (fun _ => KeepsTree round world)
      (processBadPerformerBatches config round.reads keys) state := by
  apply wp_processBatches held placed fun _ now => KeepsTree round world now
  case enters => exact keeps
  case exits => exact fun _ => id
  case sends =>
    intro batch rest now payload _ _ keepsNow
    have mined : KeepsTree round world (afterBatch config round.reads batch.2 payload now) :=
      keepsNow.of_eq (by rw [afterBatch_badPerformers])
    exact ⟨keepsNow, fun _ _ => keepsNow, mined, mined⟩

/-- Wherever a round waits or ends, the service holds an old tree or the loaded one. -/
theorem wp_program_keepsTree
    (config : Config)
    (round : StrikesRound)
    (world : StrikesWorld) :
    wp (alone (KeepsTree round world) fun _ => KeepsTree round world)
      (fun _ => KeepsTree round world) (round.program config) world := by
  have started : KeepsTree round world (world.record .roundStarted) :=
    fun _ held => .inr held
  apply StrikesRound.wp_program started
  · exact fun _ => started
  · exact fun _ => started
  · exact fun _ _ => started.of_eq (by simp)
  · exact fun _ _ _ => started.of_eq (by simp)
  · intro opens treeRead toBeProcessed
    have working : KeepsTree round world (round.working world) := by
      rintro strikesTree held
      cases held
      exact round.publishedTree_held_or_loaded world.badPerformers
    apply wp_selectBadPerformers rfl
    · exact fun _ _ => working
    · intro keys built
      refine ⟨working, fun _ _ _ _ => working, working, fun _ _ _ _ => working, ?_⟩
      apply wp_sendBadPerformanceProofs rfl
      · exact fun _ => working.of_eq (by simp; rfl)
      · intro _
        refine ⟨working, fun _ _ => working, fun _ => working, ?_⟩
        have placed :=
          (mayReport_selected toBeProcessed built
            (round.working world).exitPenalties).taken.placed
        refine wp_mono (wp_batches_keepsTree rfl placed working) ?_
        exact fun _ final keeps => ⟨fun _ => keeps.of_eq (by simp), fun _ => keeps⟩

/-- A restart forgets the tree. -/
theorem play_keepsTree
    (config : Config)
    (round : StrikesRound)
    (world : StrikesWorld) :
    KeepsTree round world (round.play config world) :=
  play_establishes (wp_program_keepsTree config round world) fun _ _ _ held => by cases held

end Progress

end StrikesRound

end CsmProver
