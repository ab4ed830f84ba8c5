import CsmProver.StrikesSelection

namespace CsmProver

/-!
# Rounds of the bad-performers service

What each function of a round does to the state, wherever the round fails, and
the runs of the service: rounds one after the other, each of them cut at any of
its suspensions by a restart of the process.

Rounds never overlap and nobody else moves in the state while one waits, so a
suspended round finds the state as it left it.
-/

open Async

namespace BadPerformers

/-! ## A round by itself -/

/-- The protocol of a computation that has the state for itself. -/
def alone (suspended : StrikesWorld → Prop) (aborted : Abort → StrikesWorld → Prop) :
    Protocol StrikesWorld where
  rely := Eq
  suspended := suspended
  aborted := aborted

section Specs

variable {suspended : StrikesWorld → Prop} {aborted : Abort → StrikesWorld → Prop}
variable {reads : StrikesReads} {world : StrikesWorld}

theorem alone_stable :
    (alone suspended aborted).Stable where
  refl := fun _ => rfl
  trans := Eq.trans
  suspended := fun holds moved => moved ▸ holds
  aborted := fun holds moved => moved ▸ holds

theorem wp_ask
    {α : Type}
    {request : StrikesRequest}
    {answer : α}
    {post : α → StrikesWorld → Prop}
    (waits : suspended world)
    (fails : ∀ reason, reads.failure request = some reason → aborted reason world)
    (answers : reads.failure request = none → post answer world) :
    wp (alone suspended aborted) post (ask reads request answer) world := by
  unfold ask
  rw [wp_bind, wp_tick]
  refine ⟨waits, ?_⟩
  rintro _ rfl
  cases outcome : reads.failure request with
  | none => exact answers outcome
  | some reason => exact fails reason outcome

theorem wp_askEach
    {β : Type}
    {items : List β}
    {request : β → StrikesRequest}
    {post : Unit → StrikesWorld → Prop}
    (waits : suspended world)
    (fails :
      ∀ item ∈ items, ∀ reason,
        reads.failure (request item) = some reason → aborted reason world)
    (answers :
      (∀ item ∈ items, reads.failure (request item) = none) → post () world) :
    wp (alone suspended aborted) post
      (forEach items fun item => ask reads (request item) ()) world := by
  induction items with
  | nil => exact answers (by simp)
  | cons item rest inductionHypothesis =>
      unfold forEach
      rw [wp_bind]
      apply wp_ask waits (fails item (by simp))
      intro itemAnswered
      apply inductionHypothesis
      · intro later member
        exact fails later (by simp [member])
      · intro restAnswered
        exact answers (List.forall_mem_cons.mpr ⟨itemAnswered, restAnswered⟩)

theorem wp_askAll
    {α β : Type}
    {items : List β}
    {request : β → StrikesRequest}
    {answer : β → α}
    {post : List α → StrikesWorld → Prop}
    (waits : suspended world)
    (fails :
      ∀ item ∈ items, ∀ reason,
        reads.failure (request item) = some reason → aborted reason world)
    (answers :
      (∀ item ∈ items, reads.failure (request item) = none) →
      post (items.map answer) world) :
    wp (alone suspended aborted) post (askAll reads items request answer) world := by
  unfold askAll
  rw [wp_bind]
  exact wp_askEach waits fails answers

end Specs

/-! ## Preparing the tree -/

/-- The round has an exit limit, and learns which tree is published. -/
structure Opens (reads : StrikesReads) : Prop where
  limit : reads.exitLimitAtStart ≠ 0
  exitLimitAtStart : reads.failure .exitLimitAtStart = none
  blockInfo : reads.failure .blockInfo = none
  treeRoot : reads.failure .treeRoot = none
  treeCid : reads.failure .treeCid = none

/-- The round obtains the published tree and the thresholds and curves in force. -/
structure TreeRead (reads : StrikesReads) (blockTag : BlockHash)
    (fields : BadPerformersFields) : Prop where
  ipfs :
    (∀ strikesTree,
      fields.currentStrikesTree = some strikesTree →
      strikesTree.root ≠ reads.treeRoot blockTag) →
    reads.failure .ipfs = none
  curvesCount : reads.failure .curvesCount = none
  strikeParams :
    ∀ curveId < reads.curvesCount blockTag,
      reads.failure (.strikeParams curveId) = none
  bondCurveId :
    ∀ leaf ∈ (publishedTree reads blockTag fields).leaves,
      reads.failure (.bondCurveId leaf.nodeOperatorId) = none

section Prepare

variable {suspended : StrikesWorld → Prop} {aborted : Abort → StrikesWorld → Prop}
variable {reads : StrikesReads} {blockTag : BlockHash} {world : StrikesWorld}

theorem wp_loadStrikesTree
    {treeRoot : Nat}
    {treeCid : String}
    {post : Option StrikesTree → StrikesWorld → Prop}
    (waits : suspended world)
    (fails : ∀ reason, aborted reason world)
    (loads :
      reads.failure .ipfs = none →
      (reads.ipfs treeCid).root = treeRoot →
      post (some (reads.ipfs treeCid)) world) :
    wp (alone suspended aborted) post (loadStrikesTree reads treeRoot treeCid) world := by
  unfold loadStrikesTree
  rw [wp_bind]
  apply wp_ask waits fun reason _ => fails reason
  intro answered
  by_cases rooted : (reads.ipfs treeCid).root = treeRoot
  · simp only [ne_eq, rooted, not_true_eq_false, if_false]
    exact loads answered rooted
  · simp only [ne_eq, rooted, not_false_eq_true, if_true]
    exact fails _

theorem wp_getStrikesTree
    {post : Option StrikesTree → StrikesWorld → Prop}
    (waits : suspended world)
    (fails : ∀ reason, aborted reason world)
    (absent :
      reads.failure .treeRoot = none →
      reads.failure .treeCid = none →
      ¬ isPublished reads blockTag →
      post none world)
    (present :
      reads.failure .treeRoot = none →
      reads.failure .treeCid = none →
      isPublished reads blockTag →
      (publishedTree reads blockTag world.badPerformers).root =
        reads.treeRoot blockTag →
      ((∀ strikesTree,
          world.badPerformers.currentStrikesTree = some strikesTree →
          strikesTree.root ≠ reads.treeRoot blockTag) →
        reads.failure .ipfs = none) →
      post (some (publishedTree reads blockTag world.badPerformers)) world) :
    wp (alone suspended aborted) post (getStrikesTree reads blockTag) world := by
  unfold getStrikesTree
  rw [wp_bind]
  apply wp_ask waits fun reason _ => fails reason
  intro rootRead
  rw [wp_bind]
  apply wp_ask waits fun reason _ => fails reason
  intro cidRead
  by_cases published : isPublished reads blockTag
  · have toLoad :
        (∀ strikesTree,
          world.badPerformers.currentStrikesTree = some strikesTree →
          strikesTree.root ≠ reads.treeRoot blockTag) →
        publishedTree reads blockTag world.badPerformers =
          reads.ipfs (reads.treeCid blockTag) := by
      intro otherRoot
      unfold publishedTree
      cases held : world.badPerformers.currentStrikesTree with
      | none => rfl
      | some strikesTree => exact if_neg (otherRoot strikesTree held)
    have loaded :
        (∀ strikesTree,
          world.badPerformers.currentStrikesTree = some strikesTree →
          strikesTree.root ≠ reads.treeRoot blockTag) →
        wp (alone suspended aborted) post
          (loadStrikesTree reads (reads.treeRoot blockTag) (reads.treeCid blockTag))
          world := by
      intro otherRoot
      apply wp_loadStrikesTree waits fails
      intro answered rooted
      rw [← toLoad otherRoot] at rooted ⊢
      exact present rootRead cidRead published rooted fun _ => answered
    rw [if_pos published, wp_bind, wp_read]
    cases held : world.badPerformers.currentStrikesTree with
    | none => exact loaded (by simp [held])
    | some strikesTree =>
        by_cases sameRoot : strikesTree.root = reads.treeRoot blockTag
        · have isHeld :
              publishedTree reads blockTag world.badPerformers = strikesTree := by
            simp [publishedTree, held, sameRoot]
          simp only [sameRoot, if_true]
          rw [← isHeld]
          apply present rootRead cidRead published (isHeld ▸ sameRoot)
          intro otherRoot
          exact (otherRoot strikesTree held sameRoot).elim
        · simp only [sameRoot, if_false]
          apply loaded
          intro other otherHeld
          rw [held] at otherHeld
          cases otherHeld
          exact sameRoot
  · rw [if_neg published]
    exact absent rootRead cidRead published

/-- The outcomes of the preparation; every other end of it is a failure. -/
theorem wp_prepareStrikesTreeForProcessing
    {post : Bool → StrikesWorld → Prop}
    (waits : suspended world)
    (fails : ∀ reason, aborted reason world)
    (absent :
      reads.failure .treeRoot = none →
      reads.failure .treeCid = none →
      ¬ isPublished reads blockTag →
      post false world)
    (passedOver :
      reads.failure .treeRoot = none →
      reads.failure .treeCid = none →
      TreeRead reads blockTag world.badPerformers →
      IsPassedOver reads blockTag world.badPerformers →
      post false
        (world.record
          (.skipped (publishedTree reads blockTag world.badPerformers)
            (thresholdsAt reads blockTag)
            (curveIdsAt reads blockTag
              (publishedTree reads blockTag world.badPerformers)))))
    (toBeProcessed :
      reads.failure .treeRoot = none →
      reads.failure .treeCid = none →
      TreeRead reads blockTag world.badPerformers →
      IsToBeProcessed reads blockTag world.badPerformers →
      post true
        { world with badPerformers := committed reads blockTag world.badPerformers }) :
    wp (alone suspended aborted) post
      (prepareStrikesTreeForProcessing reads blockTag) world := by
  unfold prepareStrikesTreeForProcessing
  rw [wp_bind]
  apply wp_getStrikesTree waits fails absent
  intro rootRead cidRead published rooted ipfsRead
  simp only [getStrikesThresholds, getNodeOperatorsCurveIds, wp_bind]
  apply wp_ask waits fun reason _ => fails reason
  intro countRead
  apply wp_askAll waits fun _ _ reason _ => fails reason
  intro thresholdsRead
  apply wp_askAll waits fun _ _ reason _ => fails reason
  intro curveIdsRead
  have treeRead : TreeRead reads blockTag world.badPerformers :=
    { ipfs := ipfsRead
      curvesCount := countRead
      strikeParams := fun curveId isCurve =>
        thresholdsRead curveId (List.mem_range.mpr isCurve)
      bondCurveId := fun leaf member =>
        curveIdsRead leaf.nodeOperatorId (mem_nodeOperatorIds member) }
  rw [wp_read]
  change
    wp (alone suspended aborted) post
      (if IsUnchanged reads blockTag world.badPerformers then _ else _) world
  by_cases unchanged : IsUnchanged reads blockTag world.badPerformers
  · rw [if_pos unchanged]
    exact passedOver rootRead cidRead treeRead
      { published := published, rooted := rooted, unchanged := unchanged }
  · rw [if_neg unchanged]
    exact toBeProcessed rootRead cidRead treeRead
      { published := published, rooted := rooted, changed := unchanged }

end Prepare

/-! ## Selecting the keys -/

/-- A state of a round that has told apart the keys the contracts know. -/
def afterSelection (reads : StrikesReads) (blockTag : BlockHash)
    (keys : List BadPerformer) (world : StrikesWorld) : StrikesWorld :=
  noteFound
    ((keys.filter fun key =>
        ! isEjectionProved reads world.exitPenalties blockTag key).filter
      (isWithdrawalProved reads))
    (noteFound (keys.filter (isEjectionProved reads world.exitPenalties blockTag)) world)

section Select

variable {suspended : StrikesWorld → Prop} {aborted : Abort → StrikesWorld → Prop}
variable {config : Config} {reads : StrikesReads} {blockTag : BlockHash}
variable {fullKeyInfoFn : FullKeyInfoByPubKeyFn} {world : StrikesWorld}

@[simp] theorem noteFound_nil
    (world : StrikesWorld) :
    noteFound [] world = world := by
  simp [noteFound]

theorem wp_getKeysWithout
    {request : BadPerformer → StrikesRequest}
    {proved : BadPerformer → Bool}
    {keys : List BadPerformer}
    {post : Option (List BadPerformer) → StrikesWorld → Prop}
    (waits : suspended world)
    (fails :
      ∀ key ∈ keys, ∀ reason,
        reads.failure (request key) = some reason → aborted reason world)
    (answers :
      post (unlessEmpty (keys.filter fun key => ! proved key))
        (noteFound (keys.filter proved) world)) :
    wp (alone suspended aborted) post (getKeysWithout reads request proved keys) world := by
  unfold getKeysWithout
  rw [wp_bind]
  exact wp_askAll waits fails fun _ => answers

/--
The selection on a prepared tree: it fails with the loop over the tree or with a
read of a contract, and otherwise returns the keys the contracts do not know.
-/
theorem wp_selectBadPerformers
    {post : List BadPerformer → StrikesWorld → Prop}
    {strikesTree : StrikesTree}
    (held : world.badPerformers.currentStrikesTree = some strikesTree)
    (failsCollecting :
      ∀ reason,
        buildPayloads (badPerformerOfLeaf config fullKeyInfoFn world.badPerformers)
          (entries strikesTree) = .error reason →
        aborted reason world)
    (selects :
      ∀ keys,
        buildPayloads (badPerformerOfLeaf config fullKeyInfoFn world.badPerformers)
          (entries strikesTree) = .ok keys →
        let proved := isEjectionProved reads world.exitPenalties blockTag
        let told := noteFound (keys.filter proved) world
        suspended world ∧
          (∀ key ∈ keys, ∀ reason,
            reads.failure (.isEjectionProved key) = some reason →
            aborted reason world) ∧
          suspended told ∧
          (∀ key ∈ keys.filter (fun key => ! proved key), ∀ reason,
            reads.failure (.isWithdrawalProved key) = some reason →
            aborted reason told) ∧
          post (unknownKeys reads world.exitPenalties blockTag keys)
            (afterSelection reads blockTag keys world)) :
    wp (alone suspended aborted) post
      (selectBadPerformers config reads blockTag fullKeyInfoFn) world := by
  unfold selectBadPerformers getBadPerformersKeys
  simp only [wp_bind, wp_read, held]
  cases collected :
      buildPayloads (badPerformerOfLeaf config fullKeyInfoFn world.badPerformers)
        (entries strikesTree) with
  | error reason => exact failsCollecting reason collected
  | ok keys =>
      obtain ⟨waits, fails, waitsTold, failsTold, returns⟩ := selects keys collected
      unfold afterSelection unknownKeys at returns
      by_cases noKeys : keys = []
      · subst noKeys
        simpa [unlessEmpty] using returns
      · simp only [unlessEmpty, noKeys, if_false, pure_eq_done, wp_done,
          getUnprovenKeys, wp_bind, wp_read]
        apply wp_getKeysWithout waits fails
        by_cases allProved :
            (keys.filter fun key =>
              ! isEjectionProved reads world.exitPenalties blockTag key) = []
        · simpa [unlessEmpty, allProved] using returns
        · simp only [unlessEmpty, allProved, if_false, getNonWithdrawnKeys, wp_bind]
          apply wp_getKeysWithout waitsTold failsTold
          by_cases allWithdrawn :
              ((keys.filter fun key =>
                ! isEjectionProved reads world.exitPenalties blockTag key).filter
                  fun key => ! isWithdrawalProved reads key) = []
          · rw [allWithdrawn] at returns
            simp only [unlessEmpty, allWithdrawn, if_true]
            exact returns
          · simp only [unlessEmpty, allWithdrawn, if_false]
            exact returns

end Select

/-! ## Sending the keys -/

section Send

variable {suspended : StrikesWorld → Prop} {aborted : Abort → StrikesWorld → Prop}
variable {config : Config} {reads : StrikesReads} {world : StrikesWorld}

/-- The slices of a list, put together again, are the list. -/
theorem flatten_slices
    {α : Type}
    (size : { size : Nat // 0 < size })
    {fuel : Nat}
    {items : List α}
    (enough : items.length ≤ fuel) :
    (slices size fuel items).flatten = items := by
  induction fuel generalizing items with
  | zero =>
      have noItems : items = [] := List.eq_nil_of_length_eq_zero (Nat.le_zero.mp enough)
      simp [noItems, slices]
  | succ fuel inductionHypothesis =>
      cases items with
      | nil => rfl
      | cons head rest =>
          have positive := size.2
          have fewer : ((head :: rest).drop size).length ≤ fuel := by
            simp only [List.length_drop, List.length_cons] at enough ⊢
            omega
          simp only [slices, List.flatten_cons, inductionHypothesis fewer,
            List.take_append_drop]

/-- The batches hold each of the keys as often as the list they are made from. -/
theorem flatten_batchesOf
    (keys : List BadPerformer) :
    (((batchesOf config keys).map Prod.fst).flatten).Perm keys := by
  unfold batchesOf
  rw [List.zipIdx_map_fst, flatten_slices _ (Nat.le_refl _)]
  exact List.perm_insertionSort _ keys

/-- Every key is in a batch, and the batches hold nothing else. -/
theorem mem_batchesOf
    {keys : List BadPerformer}
    {key : BadPerformer} :
    (∃ batch ∈ batchesOf config keys, key ∈ batch.1) ↔ key ∈ keys := by
  rw [← (@flatten_batchesOf config keys).mem_iff, List.mem_flatten]
  constructor
  · rintro ⟨batch, member, inBatch⟩
    exact ⟨batch.1, List.mem_map_of_mem member, inBatch⟩
  · rintro ⟨slice, member, inSlice⟩
    obtain ⟨batch, batchMember, rfl⟩ := List.mem_map.mp member
    exact ⟨batch, batchMember, inSlice⟩

/-- The proved values are the leaves of the keys, in the order of the library. -/
theorem multiProofLeaves_of_placed
    {strikesTree : StrikesTree}
    {batch : List BadPerformer}
    (placed : ∀ key ∈ batch, IsPlaced strikesTree key) :
    (multiProofLeaves reads strikesTree (batch.map (·.leafIndex))).Perm
      (batch.map (·.leaf)) := by
  have leavesInOrder :
      ((batch.map (·.leafIndex)).filterMap fun leafIndex => strikesTree.leaves[leafIndex]?) =
        batch.map (·.leaf) := by
    induction batch with
    | nil => rfl
    | cons key rest inductionHypothesis =>
        have keyPlaced : IsPlaced strikesTree key := placed key (by simp)
        have restPlaced :=
          inductionHypothesis fun other member => placed other (by simp [member])
        unfold IsPlaced at keyPlaced
        simp only [List.map_cons, List.filterMap_cons, keyPlaced, restPlaced]
  rw [← leavesInOrder]
  exact (reads.multiProofOrder.requested strikesTree _).filterMap _

/-- The payload of a batch is built: each of its leaves has its key in the batch. -/
theorem buildKeyStrikesPayload_returns
    (batch : List BadPerformer)
    (leaves : List StrikesTreeLeaf)
    (known : ∀ leaf ∈ leaves, ∃ key ∈ batch, key.leaf = leaf) :
    ∃ keyStrikesList, buildKeyStrikesPayload leaves batch = .ok keyStrikesList := by
  unfold buildKeyStrikesPayload
  induction leaves with
  | nil => exact ⟨[], rfl⟩
  | cons leaf rest inductionHypothesis =>
      obtain ⟨restList, restBuilt⟩ :=
        inductionHypothesis fun other member => known other (by simp [member])
      obtain ⟨key, member, isLeaf⟩ := known leaf (by simp)
      cases found : batch.find? fun other => other.pubKey == leaf.pubKey with
      | none =>
          have notThere := List.find?_eq_none.mp found key member
          rw [← isLeaf] at notThere
          simp [BadPerformer.leaf] at notThere
      | some keyInfo =>
          rw [List.mapM_cons, found, restBuilt]
          exact ⟨_, rfl⟩

/-- The state after a batch was mined, or was only emulated. -/
def afterBatch (config : Config) (reads : StrikesReads) (number : Nat)
    (payload : BadPerformanceProof) (world : StrikesWorld) : StrikesWorld :=
  let sent := world.submit payload
  if Live config then batchMined payload.leaves (reads.minedAt number) sent else sent

section AfterBatch

variable (config : Config) (reads : StrikesReads) (number : Nat) (payload : BadPerformanceProof)
  (world : StrikesWorld)

theorem afterBatch_badPerformers :
    (afterBatch config reads number payload world).badPerformers = world.badPerformers := by
  unfold afterBatch
  split <;> rfl

/-- A batch adds its payload. -/
theorem afterBatch_payloads :
    (afterBatch config reads number payload world).payloads = world.payloads ++ [payload] := by
  unfold afterBatch
  split <;> rfl

/-- A batch logs that it was sent and, if transactions are sent, that it was mined. -/
theorem afterBatch_log :
    (afterBatch config reads number payload world).log =
      world.log ++ .batchSent payload.leaves ::
        if Live config then [.batchMined payload.leaves (reads.minedAt number)] else [] := by
  unfold afterBatch
  split <;> simp [batchMined]

end AfterBatch

theorem wp_sendBatch
    {strikesTree : StrikesTree}
    {batch : List BadPerformer × Nat}
    {post : Unit → StrikesWorld → Prop}
    (failsBuilding :
      ∀ reason,
        buildKeyStrikesPayload
          (multiProofLeaves reads strikesTree (batch.1.map (·.leafIndex))) batch.1 =
            .error reason →
        aborted reason world)
    (sends :
      ∀ payload,
        payload.leaves =
          multiProofLeaves reads strikesTree (batch.1.map (·.leafIndex)) →
        buildKeyStrikesPayload payload.leaves batch.1 = .ok payload.keyStrikesList →
        let mined := afterBatch config reads batch.2 payload world
        suspended (world.submit payload) ∧
          (∀ reason,
            reads.failure (.sendBadPerformanceProof batch.2) = some reason →
            aborted reason (world.submit payload)) ∧
          suspended mined ∧
          post () (mined.record (.batchResolved payload.leaves))) :
    wp (alone suspended aborted) post (sendBatch config reads strikesTree batch) world := by
  cases built :
      buildKeyStrikesPayload
        (multiProofLeaves reads strikesTree (batch.1.map (·.leafIndex))) batch.1 with
  | error reason =>
      simp only [sendBatch, built]
      exact failsBuilding reason built
  | ok keyStrikesList =>
      obtain ⟨waits, fails, waitsMined, returns⟩ := sends ⟨_, keyStrikesList⟩ rfl built
      simp only [sendBatch, built, sendBadPerformanceProof, wp_bind, wp_modify]
      apply wp_ask waits fails
      intro answered
      unfold afterBatch at waitsMined returns
      by_cases live : Live config
      · rw [if_pos live] at waitsMined returns
        rw [if_pos live]
        simp only [wp_bind, wp_modify, wp_tick]
        refine ⟨waitsMined, ?_⟩
        rintro _ rfl
        exact returns
      · rw [if_neg live] at returns
        rw [if_neg live]
        exact returns

/-- A payload that proves the leaves of a batch and says of each what it should. -/
structure IsPayloadOf (payload : BadPerformanceProof) (batch : List BadPerformer) :
    Prop where
  leaves : payload.leaves.Perm (batch.map (·.leaf))
  built : buildKeyStrikesPayload payload.leaves batch = .ok payload.keyStrikesList

/-- A proved leaf is the leaf of one of the keys. -/
theorem IsPayloadOf.mem_leaves
    {payload : BadPerformanceProof}
    {batch : List BadPerformer}
    (isPayload : IsPayloadOf payload batch)
    {leaf : StrikesTreeLeaf} :
    leaf ∈ payload.leaves ↔ ∃ key ∈ batch, key.leaf = leaf := by
  rw [isPayload.leaves.mem_iff, List.mem_map]

/--
The batches of placed keys are sent one after the other; a batch proves the leaves of
its keys and is always built.
-/
theorem wp_processBatches
    {keys : List BadPerformer}
    {strikesTree : StrikesTree}
    {post : Unit → StrikesWorld → Prop}
    (held : world.badPerformers.currentStrikesTree = some strikesTree)
    (placed : ∀ key ∈ keys, IsPlaced strikesTree key)
    (between : List (List BadPerformer × Nat) → StrikesWorld → Prop)
    (enters : between (batchesOf config keys) world)
    (exits : ∀ state, between [] state → post () state)
    (sends :
      ∀ batch rest state payload,
        (∀ key ∈ batch.1, key ∈ keys) →
        IsPayloadOf payload batch.1 →
        between (batch :: rest) state →
        let mined := afterBatch config reads batch.2 payload state
        suspended (state.submit payload) ∧
          (∀ reason,
            reads.failure (.sendBadPerformanceProof batch.2) = some reason →
            aborted reason (state.submit payload)) ∧
          suspended mined ∧
          between rest (mined.record (.batchResolved payload.leaves))) :
    wp (alone suspended aborted) post (processBadPerformerBatches config reads keys)
      world := by
  unfold processBadPerformerBatches
  rw [wp_bind, wp_read, held]
  apply wp_forEach fun rest state =>
    (∀ batch ∈ rest, ∀ key ∈ batch.1, key ∈ keys) ∧ between rest state
  case exits =>
    exact fun state holds => exits state holds.2
  case step =>
    rintro batch rest state ⟨inKeys, holds⟩
    have inBatch : ∀ key ∈ batch.1, key ∈ keys := inKeys batch (by simp)
    have leavesProved :
        (multiProofLeaves reads strikesTree (batch.1.map (·.leafIndex))).Perm
          (batch.1.map (·.leaf)) :=
      multiProofLeaves_of_placed fun key member => placed key (inBatch key member)
    apply wp_sendBatch
    · intro reason failed
      obtain ⟨keyStrikesList, built⟩ :=
        buildKeyStrikesPayload_returns batch.1 _ fun leaf member =>
          List.mem_map.mp (leavesProved.mem_iff.mp member)
      rw [built] at failed
      cases failed
    · intro payload isProved built
      have isPayload : IsPayloadOf payload batch.1 :=
        { leaves := isProved ▸ leavesProved
          built := built }
      obtain ⟨waits, fails, waitsMined, continues⟩ :=
        sends batch rest state payload inBatch isPayload holds
      exact ⟨waits, fails, waitsMined,
        fun other member => inKeys other (by simp [member]), continues⟩
  case enters =>
    exact ⟨fun batch member key inBatch => mem_batchesOf.mp ⟨batch, member, inBatch⟩, enters⟩

/-- The keys of a round that the exit limit lets through. -/
def withinLimit (reads : StrikesReads) (badPerformers : List BadPerformer) :
    List BadPerformer :=
  if badPerformers.length ≤ reads.exitLimitAtSend then
    badPerformers
  else
    badPerformers.take reads.exitLimitAtSend

theorem mem_of_mem_withinLimit
    {badPerformers : List BadPerformer}
    {key : BadPerformer}
    (member : key ∈ withinLimit reads badPerformers) :
    key ∈ badPerformers := by
  unfold withinLimit at member
  split at member
  · exact member
  · exact List.mem_of_mem_take member

theorem wp_sendBadPerformanceProofs
    {badPerformers : List BadPerformer}
    {post : Nat → StrikesWorld → Prop}
    {strikesTree : StrikesTree}
    (held : world.badPerformers.currentStrikesTree = some strikesTree)
    (nothing : badPerformers = [] → post 0 (markProcessed world))
    (sends :
      badPerformers ≠ [] →
      let toSend := withinLimit reads badPerformers
      suspended world ∧
        (∀ reason,
          reads.failure .exitLimitAtSend = some reason → aborted reason world) ∧
        (toSend = [] → post 0 world) ∧
        wp (alone suspended aborted)
          (fun _ sent =>
            (badPerformers.length ≤ reads.exitLimitAtSend →
              post toSend.length (markProcessed sent)) ∧
            (¬ badPerformers.length ≤ reads.exitLimitAtSend →
              post toSend.length sent))
          (processBadPerformerBatches config reads toSend) world) :
    wp (alone suspended aborted) post
      (sendBadPerformanceProofs config reads badPerformers) world := by
  unfold sendBadPerformanceProofs
  by_cases noKeys : badPerformers = []
  · rw [if_pos noKeys]
    exact nothing noKeys
  · obtain ⟨waits, fails, returnsNone, processes⟩ := sends noKeys
    rw [if_neg noKeys, wp_bind, wp_read, held, if_neg (by simp), wp_bind]
    apply wp_ask waits fails
    intro answered
    unfold withinLimit at returnsNone processes
    by_cases sendAll : badPerformers.length ≤ reads.exitLimitAtSend
    · simp only [sendAll, if_true] at returnsNone processes ⊢
      rw [if_neg noKeys, wp_bind]
      exact wp_mono processes fun _ _ returns => returns.1 trivial
    · simp only [sendAll, if_false] at returnsNone processes ⊢
      by_cases noneAllowed : badPerformers.take reads.exitLimitAtSend = []
      · rw [if_pos noneAllowed]
        exact returnsNone noneAllowed
      · rw [if_neg noneAllowed, wp_bind]
        exact wp_mono processes fun _ _ returns => returns.2 not_false

end Send

end BadPerformers

/-! ## A round -/

/-- One round: what it reads, and how long it runs if the process is stopped. -/
structure StrikesRound where
  consensus : Consensus
  finalizedHeader : BlockHeaderResponse
  storage : KeysIndexerServiceStorage
  reads : StrikesReads
  script : List (Beat Empty)

namespace StrikesRound

open BadPerformers

/-- The execution block all reads of the round name. -/
def blockTag (round : StrikesRound) : BlockHash :=
  (round.consensus.blockInfo round.finalizedHeader.root).blockHash

/-- The round as the daemon starts it. -/
def program (round : StrikesRound) (config : Config) : Async StrikesWorld Nat :=
  handleBadPerformers config round.consensus round.reads round.finalizedHeader
    (lookupIn config round.storage)

/-- The state in which a round that has work to do begins to do it. -/
def working (round : StrikesRound) (world : StrikesWorld) : StrikesWorld :=
  { world.record .roundStarted with
    badPerformers := committed round.reads round.blockTag world.badPerformers }

@[simp] theorem working_badPerformers
    (round : StrikesRound)
    (world : StrikesWorld) :
    (round.working world).badPerformers =
      committed round.reads round.blockTag world.badPerformers :=
  rfl

@[simp] theorem working_exitPenalties
    (round : StrikesRound)
    (world : StrikesWorld) :
    (round.working world).exitPenalties = world.exitPenalties :=
  rfl

@[simp] theorem working_log
    (round : StrikesRound)
    (world : StrikesWorld) :
    (round.working world).log = world.log ++ [.roundStarted] :=
  rfl

variable {suspended : StrikesWorld → Prop} {aborted : Abort → StrikesWorld → Prop}
variable {config : Config} {round : StrikesRound} {world : StrikesWorld}

/-- The outcomes of a round up to the point where it starts to work. -/
theorem wp_program
    {post : Nat → StrikesWorld → Prop}
    (waits : suspended (world.record .roundStarted))
    (fails : ∀ reason, aborted reason (world.record .roundStarted))
    (noLimit :
      round.reads.exitLimitAtStart = 0 → post 0 (world.record .roundStarted))
    (absent :
      Opens round.reads →
      ¬ isPublished round.reads round.blockTag →
      post 0 (markProcessed (world.record .roundStarted)))
    (passedOver :
      Opens round.reads →
      TreeRead round.reads round.blockTag world.badPerformers →
      IsPassedOver round.reads round.blockTag world.badPerformers →
      post 0
        (markProcessed
          ((world.record .roundStarted).record
            (.skipped (publishedTree round.reads round.blockTag world.badPerformers)
              (thresholdsAt round.reads round.blockTag)
              (curveIdsAt round.reads round.blockTag
                (publishedTree round.reads round.blockTag world.badPerformers))))))
    (works :
      Opens round.reads →
      TreeRead round.reads round.blockTag world.badPerformers →
      IsToBeProcessed round.reads round.blockTag world.badPerformers →
      wp (alone suspended aborted)
        (fun badPerformers selected =>
          wp (alone suspended aborted) post
            (sendBadPerformanceProofs config round.reads badPerformers) selected)
        (selectBadPerformers config round.reads round.blockTag
          (lookupIn config round.storage))
        (round.working world)) :
    wp (alone suspended aborted) post (round.program config) world := by
  unfold program handleBadPerformers
  rw [wp_bind, wp_modify, wp_bind]
  apply wp_ask waits fun reason _ => fails reason
  intro limitRead
  by_cases limitZero : round.reads.exitLimitAtStart = 0
  · rw [if_pos limitZero]
    exact noLimit limitZero
  · rw [if_neg limitZero, wp_bind]
    apply wp_ask waits fun reason _ => fails reason
    intro blockRead
    have opens
        (rootRead : round.reads.failure .treeRoot = none)
        (cidRead : round.reads.failure .treeCid = none) :
        Opens round.reads :=
      { limit := limitZero
        exitLimitAtStart := limitRead
        blockInfo := blockRead
        treeRoot := rootRead
        treeCid := cidRead }
    unfold getUnprovenNonWithdrawnBadPerformers
    simp only [wp_bind]
    apply wp_prepareStrikesTreeForProcessing waits fails
    · intro rootRead cidRead
      exact absent (opens rootRead cidRead)
    · intro rootRead cidRead
      exact passedOver (opens rootRead cidRead)
    · intro rootRead cidRead
      exact works (opens rootRead cidRead)

/-- Nobody else moves while a round waits. -/
def nobodyMoves (move : Empty) (_world : StrikesWorld) : StrikesWorld :=
  move.elim

/-- The round, and the restart of the process if it is stopped before the end. -/
def play (round : StrikesRound) (config : Config) (world : StrikesWorld) :
    StrikesWorld :=
  leave StrikesWorld.restart
    (run nobodyMoves (round.program config) round.script world)

/-- What a round establishes at its end and at every suspension. -/
theorem play_establishes
    {assertion : StrikesWorld → Prop}
    (holds :
      wp (alone suspended fun _ => assertion) (fun _ => assertion)
        (round.program config) world)
    (crashes : ∀ state, suspended state → assertion state.restart) :
    assertion (round.play config world) := by
  have noMoves (move : Empty) (state : StrikesWorld) :
      (alone suspended fun _ => assertion).rely state (nobodyMoves move state) :=
    move.elim
  have established := run_sound alone_stable noMoves holds round.script
  exact Established.leave StrikesWorld.restart assertion crashes
    (fun _ _ aborted => aborted) (fun _ _ returned => returned) established

end StrikesRound

/-! ## Logs -/

/-- An event of a grown log is one of the old log or one of the new events. -/
theorem split_append
    {log events earlier later : List StrikesEvent}
    {event : StrikesEvent}
    (shape : log ++ events = earlier ++ event :: later) :
    (∃ between, log = earlier ++ event :: between ∧ later = between ++ events) ∨
      ∃ between, earlier = log ++ between ∧ events = between ++ event :: later := by
  rcases List.append_eq_append_iff.mp shape with
    ⟨between, earlierShape, eventsShape⟩ | ⟨between, logShape, laterShape⟩
  · exact Or.inr ⟨between, earlierShape, eventsShape⟩
  · cases between with
    | nil =>
        rw [List.append_nil] at logShape
        exact Or.inr ⟨[], by simp [logShape], by simpa using laterShape.symm⟩
    | cons head rest =>
        cases laterShape
        exact Or.inl ⟨rest, logShape, rfl⟩

/-! ## Runs -/

/-- The life of the service: its rounds, and what happens between them. -/
inductive StrikesStep where
  | played (round : StrikesRound)
  | restart
  | proved (penalty : ExitPenalty)

namespace StrikesStep

def perform (config : Config) (world : StrikesWorld) : StrikesStep → StrikesWorld
  | .played round => round.play config world
  | .restart => world.restart
  | .proved penalty =>
      { world with exitPenalties := world.exitPenalties ++ [penalty] }

/-- A run of the service. -/
def performAll (config : Config) (world : StrikesWorld) (steps : List StrikesStep) :
    StrikesWorld :=
  steps.foldl (perform config) world

/-- Every round of a run meets a condition on the state it starts in. -/
def Throughout (meets : StrikesRound → StrikesWorld → Prop) (config : Config) :
    List StrikesStep → StrikesWorld → Prop
  | [], _ => True
  | .played round :: rest, world =>
      meets round world ∧ Throughout meets config rest (round.play config world)
  | step :: rest, world => Throughout meets config rest (step.perform config world)

/-- An invariant that every step keeps holds after every run. -/
theorem performAll_keeps
    {config : Config}
    {meets : StrikesRound → StrikesWorld → Prop}
    {invariant : StrikesWorld → Prop}
    (playing :
      ∀ round world,
        invariant world → meets round world → invariant (round.play config world))
    (restarting : ∀ world, invariant world → invariant world.restart)
    (proving :
      ∀ world penalty,
        invariant world →
        invariant { world with exitPenalties := world.exitPenalties ++ [penalty] })
    {steps : List StrikesStep}
    {world : StrikesWorld}
    (initial : invariant world)
    (throughout : Throughout meets config steps world) :
    invariant (performAll config world steps) := by
  induction steps generalizing world with
  | nil => exact initial
  | cons step rest inductionHypothesis =>
      cases step with
      | played round =>
          exact inductionHypothesis (playing round world initial throughout.1) throughout.2
      | restart =>
          have kept : invariant (perform config world .restart) :=
            restarting world initial
          exact inductionHypothesis kept throughout
      | proved penalty =>
          have kept : invariant (perform config world (.proved penalty)) :=
            proving world penalty initial
          exact inductionHypothesis kept throughout

end StrikesStep

/-! ### Sample rounds -/

namespace StrikesRound

open BadPerformers

def sampleConfig : Config :=
  .defaults "0x01" 1

def sampleConsensus : Consensus where
  genesisTimestamp := 0
  beaconConfig := .mainnet
  blockInfo := sampleBlock
  beaconHeader := fun root =>
    { root := root
      canonical := true
      message :=
        { slot := root
          proposerIndex := 0
          parentRoot := root - 1
          stateRoot := 0
          bodyRoot := 0 } }
  beaconHeadersByParentRoot := fun _ => { finalized := true, data := [] }
  state := fun _ => { validators := [], balances := [] }
  stateAtSlot := fun _ => { validators := [], balances := [] }

/--
An undisturbed round over two leaves with three strikes; its batches are mined
ten blocks after the block it has found finalized.
-/
def sample (finalizedBlock threshold exitLimit : Nat) : StrikesRound where
  consensus := sampleConsensus
  finalizedHeader := sampleConsensus.beaconHeader finalizedBlock
  storage := sampleStorage
  reads :=
    { sampleReads (sampleTree 3) threshold exitLimit with
      minedAt := fun number => finalizedBlock + 10 + number }
  script := List.replicate 30 (.quiet .resolved)

end StrikesRound

end CsmProver
