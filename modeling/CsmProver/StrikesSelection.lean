import CsmProver.PayloadLoop
import CsmProver.Strikes

namespace CsmProver

/-!
# Which bad performers a round selects

A round that processes the published tree collects the leaves that reach the
threshold of their operator's curve and drops those the contracts know already.
The key of a leaf is looked up in the keys index, which hides the operators
outside the daemon's filter; a leaf whose key is hidden ends the round.
-/

open Async

namespace BadPerformers

/-! ## What a round reads before it decides -/

section Published

variable (reads : StrikesReads) (blockTag : BlockHash)

/-- The thresholds of all curves at a block. -/
def thresholdsAt : NumberMap :=
  (List.range (reads.curvesCount blockTag)).map fun curveId =>
    (curveId, reads.strikeThreshold blockTag curveId)

/-- The curves of the operators in a tree at a block. -/
def curveIdsAt (strikesTree : StrikesTree) : NumberMap :=
  (nodeOperatorIds strikesTree).map fun nodeOperatorId =>
    (nodeOperatorId, reads.bondCurveId blockTag nodeOperatorId)

/-- The tree a round works with: the one it holds, if that has the published root. -/
def publishedTree (fields : BadPerformersFields) : StrikesTree :=
  match fields.currentStrikesTree with
  | none => reads.ipfs (reads.treeCid blockTag)
  | some currentStrikesTree =>
      if currentStrikesTree.root = reads.treeRoot blockTag then
        currentStrikesTree
      else
        reads.ipfs (reads.treeCid blockTag)

/-- The published tree is the processed one, under the thresholds and curves it had. -/
def IsUnchanged (fields : BadPerformersFields) : Prop :=
  let strikesTree := publishedTree reads blockTag fields
  isStrikesTreeAlreadyProcessed fields strikesTree.root ∧
    ¬ isAnyStrikesThresholdChanged fields (thresholdsAt reads blockTag) ∧
    ¬ isAnyNodeOperatorCurveIdChanged fields (curveIdsAt reads blockTag strikesTree)

instance (fields : BadPerformersFields) :
    Decidable (IsUnchanged reads blockTag fields) :=
  inferInstanceAs (Decidable (_ ∧ _ ∧ _))

/-- A tree is published under its root, and the round has work to do on it. -/
structure IsToBeProcessed (fields : BadPerformersFields) : Prop where
  published : isPublished reads blockTag
  rooted : (publishedTree reads blockTag fields).root = reads.treeRoot blockTag
  changed : ¬ IsUnchanged reads blockTag fields

/-- A tree is published under its root, and the round has nothing to do on it. -/
structure IsPassedOver (fields : BadPerformersFields) : Prop where
  published : isPublished reads blockTag
  rooted : (publishedTree reads blockTag fields).root = reads.treeRoot blockTag
  unchanged : IsUnchanged reads blockTag fields

/-- The threshold of the curve an operator is on. -/
def thresholdOf (nodeOperatorId : Nat) : Nat :=
  reads.strikeThreshold blockTag (reads.bondCurveId blockTag nodeOperatorId)

/-- Every operator of a tree is on one of the curves. -/
def HaveCurves (strikesTree : StrikesTree) : Prop :=
  ∀ leaf ∈ strikesTree.leaves,
    reads.bondCurveId blockTag leaf.nodeOperatorId < reads.curvesCount blockTag

instance (strikesTree : StrikesTree) :
    Decidable (HaveCurves reads blockTag strikesTree) :=
  inferInstanceAs (Decidable (∀ leaf ∈ _, _))

/-- The fields of a service that works on the published tree. -/
def committed (fields : BadPerformersFields) : BadPerformersFields :=
  let strikesTree := publishedTree reads blockTag fields
  { fields with
    currentStrikesTree := some strikesTree
    currentStrikesThresholdsByCurveId := thresholdsAt reads blockTag
    currentNodeOperatorsCurveIds := curveIdsAt reads blockTag strikesTree }

end Published

section Thresholds

variable {reads : StrikesReads} {blockTag : BlockHash} {fields : BadPerformersFields}

theorem mem_of_lookup
    {numbers : NumberMap}
    {key value : Nat}
    (found : numbers.lookup key = some value) :
    (key, value) ∈ numbers := by
  obtain ⟨_, _, shape, _⟩ := List.lookup_eq_some_iff.mp found
  simp [shape]

theorem mem_nodeOperatorIds
    {strikesTree : StrikesTree}
    {leaf : StrikesTreeLeaf}
    (member : leaf ∈ strikesTree.leaves) :
    leaf.nodeOperatorId ∈ nodeOperatorIds strikesTree := by
  unfold nodeOperatorIds
  apply List.mem_eraseDups.mpr
  exact List.mem_map_of_mem member

/-- Every curve has its threshold. -/
theorem lookup_thresholdsAt
    {curveId : Nat}
    (isCurve : curveId < reads.curvesCount blockTag) :
    (thresholdsAt reads blockTag).lookup curveId =
      some (reads.strikeThreshold blockTag curveId) :=
  List.lookup_graph _ (List.mem_range.mpr isCurve)

/-- Every operator of a leaf has its curve. -/
theorem lookup_curveIdsAt
    {strikesTree : StrikesTree}
    {leaf : StrikesTreeLeaf}
    (member : leaf ∈ strikesTree.leaves) :
    (curveIdsAt reads blockTag strikesTree).lookup leaf.nodeOperatorId =
      some (reads.bondCurveId blockTag leaf.nodeOperatorId) :=
  List.lookup_graph _ (mem_nodeOperatorIds member)

/-- After the commit every leaf has the threshold the contracts give it. -/
theorem getStrikesThreshold_committed
    (curves : HaveCurves reads blockTag (publishedTree reads blockTag fields))
    {leaf : StrikesTreeLeaf}
    (member : leaf ∈ (publishedTree reads blockTag fields).leaves) :
    getStrikesThresholdByNodeOperatorId (committed reads blockTag fields)
      leaf.nodeOperatorId =
        .ok (thresholdOf reads blockTag leaf.nodeOperatorId) := by
  have curveFound :
      (curveIdsAt reads blockTag (publishedTree reads blockTag fields)).lookup
          leaf.nodeOperatorId =
        some (reads.bondCurveId blockTag leaf.nodeOperatorId) :=
    lookup_curveIdsAt member
  have thresholdFound := lookup_thresholdsAt (curves leaf member)
  simp only [getStrikesThresholdByNodeOperatorId, committed, curveFound,
    thresholdFound, thresholdOf]

/-- A threshold found after the commit is the one the contracts give. -/
theorem thresholdOf_of_committed
    {leaf : StrikesTreeLeaf}
    (member : leaf ∈ (publishedTree reads blockTag fields).leaves)
    {threshold : Nat}
    (inForce :
      getStrikesThresholdByNodeOperatorId (committed reads blockTag fields)
        leaf.nodeOperatorId = .ok threshold) :
    thresholdOf reads blockTag leaf.nodeOperatorId = threshold := by
  have curveFound :
      (curveIdsAt reads blockTag (publishedTree reads blockTag fields)).lookup
          leaf.nodeOperatorId =
        some (reads.bondCurveId blockTag leaf.nodeOperatorId) :=
    lookup_curveIdsAt member
  simp only [getStrikesThresholdByNodeOperatorId, committed, curveFound] at inForce
  cases thresholdFound :
      (thresholdsAt reads blockTag).lookup
        (reads.bondCurveId blockTag leaf.nodeOperatorId) with
  | none =>
      rw [thresholdFound] at inForce
      cases inForce
  | some found =>
      rw [thresholdFound] at inForce
      cases inForce
      obtain ⟨_, _, isEntry⟩ := List.mem_map.mp (mem_of_lookup thresholdFound)
      cases isEntry
      rfl

end Thresholds

/-! ## The loop over the tree -/

/-- The entries of a tree are its leaves by position. -/
theorem mem_entries
    {strikesTree : StrikesTree}
    {leafIndex : Nat}
    {leaf : StrikesTreeLeaf} :
    (leafIndex, leaf) ∈ entries strikesTree ↔
      strikesTree.leaves[leafIndex]? = some leaf := by
  simp [entries, List.mem_zipIdx_iff_getElem?]

theorem leaf_mem_of_mem_entries
    {strikesTree : StrikesTree}
    {entry : Nat × StrikesTreeLeaf}
    (member : entry ∈ entries strikesTree) :
    entry.2 ∈ strikesTree.leaves :=
  List.mem_of_getElem? (mem_entries.mp member)

/-! ## The keys of the leaves -/

/-- The first key of the index with a public key, whoever its operator is. -/
def indexedKey (storage : KeysIndexerServiceStorage) (pubKey : PubKey) :
    Option FullKeyInfo :=
  (storage.toList.find? fun entry => entry.2.pubKey == pubKey).map fun entry =>
    { operatorId := entry.2.operatorId
      keyIndex := entry.2.keyIndex
      pubKey := pubKey
      validatorIndex := entry.1 }

/-- The key of a leaf is in the index, under the leaf's operator. -/
def IsIndexed (storage : KeysIndexerServiceStorage) (leaf : StrikesTreeLeaf) : Prop :=
  ∃ fullKeyInfo,
    indexedKey storage leaf.pubKey = some fullKeyInfo ∧
      fullKeyInfo.operatorId = leaf.nodeOperatorId

/-- The accessor of the index hides the keys of other operators and nothing else. -/
theorem getFullKeyInfoByPubKey_eq
    (config : Config)
    (storage : KeysIndexerServiceStorage)
    (pubKey : PubKey) :
    KeysIndexer.getFullKeyInfoByPubKey config storage pubKey =
      KeysIndexer.filterFullKeyInfo config (indexedKey storage pubKey) := by
  unfold KeysIndexer.getFullKeyInfoByPubKey indexedKey
  cases storage.toList.find? fun entry => entry.2.pubKey == pubKey <;> rfl

/-- A key that the index finds has the public key that was asked for. -/
theorem pubKey_of_indexedKey
    {storage : KeysIndexerServiceStorage}
    {pubKey : PubKey}
    {fullKeyInfo : FullKeyInfo}
    (found : indexedKey storage pubKey = some fullKeyInfo) :
    fullKeyInfo.pubKey = pubKey := by
  obtain ⟨_, _, rfl⟩ := Option.map_eq_some_iff.mp found
  rfl

section Leaf

variable {config : Config} {storage : KeysIndexerServiceStorage}
variable {fields : BadPerformersFields} {leafIndex threshold : Nat}
variable {leaf : StrikesTreeLeaf}

/-- The lookup a round makes for a leaf. -/
abbrev lookupIn (config : Config) (storage : KeysIndexerServiceStorage) :
    FullKeyInfoByPubKeyFn :=
  KeysIndexer.getFullKeyInfoByPubKey config storage

/-- The body of the loop once the threshold is known. -/
theorem badPerformerOfLeaf_eq
    {fullKeyInfoFn : FullKeyInfoByPubKeyFn}
    (inForce :
      getStrikesThresholdByNodeOperatorId fields leaf.nodeOperatorId = .ok threshold) :
    badPerformerOfLeaf config fullKeyInfoFn fields leafIndex leaf =
      if strikesSum leaf < threshold then
        .ok none
      else
        match fullKeyInfoFn leaf.pubKey with
        | none =>
            if config.workingMode = .cli then
              .ok none
            else
              .error (.thrown (noFullKeyInfo leaf.pubKey))
        | some fullKeyInfo =>
            if fullKeyInfo.operatorId ≠ leaf.nodeOperatorId then
              .error
                (.thrown (unexpectedNodeOperatorId fullKeyInfo.operatorId leaf.pubKey))
            else
              .ok (some (badPerformer leafIndex leaf fullKeyInfo)) := by
  unfold badPerformerOfLeaf
  rw [inForce]
  rfl

/-- A leaf below its threshold is passed over. -/
theorem badPerformerOfLeaf_below
    {fullKeyInfoFn : FullKeyInfoByPubKeyFn}
    (inForce :
      getStrikesThresholdByNodeOperatorId fields leaf.nodeOperatorId = .ok threshold)
    (below : strikesSum leaf < threshold) :
    badPerformerOfLeaf config fullKeyInfoFn fields leafIndex leaf = .ok none := by
  rw [badPerformerOfLeaf_eq inForce, if_pos below]

/-- A leaf at its threshold is a bad performer when its own operator has the key. -/
theorem badPerformerOfLeaf_found
    {fullKeyInfoFn : FullKeyInfoByPubKeyFn}
    (inForce :
      getStrikesThresholdByNodeOperatorId fields leaf.nodeOperatorId = .ok threshold)
    (reached : threshold ≤ strikesSum leaf)
    {fullKeyInfo : FullKeyInfo}
    (found : fullKeyInfoFn leaf.pubKey = some fullKeyInfo)
    (owned : fullKeyInfo.operatorId = leaf.nodeOperatorId) :
    badPerformerOfLeaf config fullKeyInfoFn fields leafIndex leaf =
      .ok (some (badPerformer leafIndex leaf fullKeyInfo)) := by
  have notBelow : ¬ strikesSum leaf < threshold := Nat.not_lt.mpr reached
  rw [badPerformerOfLeaf_eq inForce, if_neg notBelow, found]
  exact if_neg (not_not.mpr owned)

/-- The daemon does not pass over a leaf whose key the lookup hides. -/
theorem badPerformerOfLeaf_hidden
    {fullKeyInfoFn : FullKeyInfoByPubKeyFn}
    (daemon : config.workingMode = .daemon)
    (inForce :
      getStrikesThresholdByNodeOperatorId fields leaf.nodeOperatorId = .ok threshold)
    (reached : threshold ≤ strikesSum leaf)
    (hidden : fullKeyInfoFn leaf.pubKey = none) :
    badPerformerOfLeaf config fullKeyInfoFn fields leafIndex leaf =
      .error (.thrown (noFullKeyInfo leaf.pubKey)) := by
  have notBelow : ¬ strikesSum leaf < threshold := Nat.not_lt.mpr reached
  rw [badPerformerOfLeaf_eq inForce, if_neg notBelow, hidden]
  exact if_neg (by simp [daemon])

/-- All a body can return: a leaf passed over, or the key of a leaf at its threshold. -/
theorem badPerformerOfLeaf_returns
    {fullKeyInfoFn : FullKeyInfoByPubKeyFn}
    {result : Option BadPerformer}
    (returned :
      badPerformerOfLeaf config fullKeyInfoFn fields leafIndex leaf = .ok result) :
    ∃ threshold,
      getStrikesThresholdByNodeOperatorId fields leaf.nodeOperatorId = .ok threshold ∧
        ((result = none ∧
            (config.workingMode = .daemon → strikesSum leaf < threshold)) ∨
          ∃ fullKeyInfo,
            result = some (badPerformer leafIndex leaf fullKeyInfo) ∧
              threshold ≤ strikesSum leaf ∧
              fullKeyInfoFn leaf.pubKey = some fullKeyInfo ∧
              fullKeyInfo.operatorId = leaf.nodeOperatorId) := by
  cases inForce : getStrikesThresholdByNodeOperatorId fields leaf.nodeOperatorId with
  | error reason =>
      unfold badPerformerOfLeaf at returned
      rw [inForce] at returned
      cases returned
  | ok threshold =>
      refine ⟨threshold, rfl, ?_⟩
      rw [badPerformerOfLeaf_eq inForce] at returned
      by_cases below : strikesSum leaf < threshold
      · rw [if_pos below] at returned
        cases returned
        exact Or.inl ⟨rfl, fun _ => below⟩
      · rw [if_neg below] at returned
        cases found : fullKeyInfoFn leaf.pubKey with
        | none =>
            simp only [found] at returned
            by_cases passes : config.workingMode = .cli
            · rw [if_pos passes] at returned
              cases returned
              exact Or.inl ⟨rfl, fun daemon => by simp [daemon] at passes⟩
            · rw [if_neg passes] at returned
              cases returned
        | some fullKeyInfo =>
            simp only [found] at returned
            by_cases owned : fullKeyInfo.operatorId = leaf.nodeOperatorId
            · rw [if_neg (not_not.mpr owned)] at returned
              cases returned
              exact Or.inr ⟨fullKeyInfo, rfl, Nat.not_lt.mp below, rfl, owned⟩
            · rw [if_pos owned] at returned
              cases returned

end Leaf

/-! ## The keys a round collects -/

section Collect

variable {config : Config} {storage : KeysIndexerServiceStorage}
variable {reads : StrikesReads} {blockTag : BlockHash} {fields : BadPerformersFields}

/-- So has a key that passes the operator filter. -/
theorem pubKey_of_lookupIn
    {pubKey : PubKey}
    {fullKeyInfo : FullKeyInfo}
    (found : lookupIn config storage pubKey = some fullKeyInfo) :
    fullKeyInfo.pubKey = pubKey := by
  rw [lookupIn, getFullKeyInfoByPubKey_eq, KeysIndexer.filterFullKeyInfo,
    Option.filter_eq_some_iff] at found
  exact pubKey_of_indexedKey found.1

/-- The keys of the leaves at their thresholds, as the lookup gives them. -/
def badKeys (config : Config) (storage : KeysIndexerServiceStorage)
    (reads : StrikesReads) (blockTag : BlockHash) (strikesTree : StrikesTree) :
    List BadPerformer :=
  ((entries strikesTree).filter fun entry =>
      thresholdOf reads blockTag entry.2.nodeOperatorId ≤ strikesSum entry.2).filterMap
    fun entry =>
      (lookupIn config storage entry.2.pubKey).map (badPerformer entry.1 entry.2)

/-- Every leaf at its threshold has a key under its operator. -/
def HaveKeys (config : Config) (storage : KeysIndexerServiceStorage)
    (reads : StrikesReads) (blockTag : BlockHash) (strikesTree : StrikesTree) : Prop :=
  ∀ leaf ∈ strikesTree.leaves,
    thresholdOf reads blockTag leaf.nodeOperatorId ≤ strikesSum leaf →
    ∃ fullKeyInfo,
      lookupIn config storage leaf.pubKey = some fullKeyInfo ∧
        fullKeyInfo.operatorId = leaf.nodeOperatorId

/-- The loop collects the keys of all bad performers, if it finds all of them. -/
theorem collects_badKeys
    (curves : HaveCurves reads blockTag (publishedTree reads blockTag fields))
    (keys :
      HaveKeys config storage reads blockTag (publishedTree reads blockTag fields)) :
    buildPayloads
      (badPerformerOfLeaf config (lookupIn config storage)
        (committed reads blockTag fields))
      (entries (publishedTree reads blockTag fields)) =
        .ok
          (badKeys config storage reads blockTag
            (publishedTree reads blockTag fields)) := by
  unfold badKeys
  rw [List.filterMap_filter]
  apply buildPayloads_eq_ok
  intro entry member
  have leafMember := leaf_mem_of_mem_entries member
  have inForce := getStrikesThreshold_committed curves leafMember
  by_cases reached :
      thresholdOf reads blockTag entry.2.nodeOperatorId ≤ strikesSum entry.2
  · obtain ⟨fullKeyInfo, found, owned⟩ := keys entry.2 leafMember reached
    rw [badPerformerOfLeaf_found inForce reached found owned]
    simp [reached, found]
  · rw [badPerformerOfLeaf_below inForce (Nat.not_le.mp reached)]
    simp [reached]

/-- A key whose strikes are those of its leaf. -/
def IsPlaced (strikesTree : StrikesTree) (key : BadPerformer) : Prop :=
  strikesTree.leaves[key.leafIndex]? = some key.leaf

/--
The keys a loop has collected: each is the key of a leaf at the threshold in
force, and the daemon's loop has missed no such leaf.
-/
theorem collected
    {strikesTree : StrikesTree}
    {keys : List BadPerformer}
    (built :
      buildPayloads (badPerformerOfLeaf config (lookupIn config storage) fields)
        (entries strikesTree) = .ok keys) :
    (∀ key ∈ keys,
      IsPlaced strikesTree key ∧
        lookupIn config storage key.pubKey = some key.toFullKeyInfo ∧
        ∃ threshold,
          getStrikesThresholdByNodeOperatorId fields key.operatorId = .ok threshold ∧
            threshold ≤ strikesSum key.leaf) ∧
      (config.workingMode = .daemon →
        ∀ leaf ∈ strikesTree.leaves, ∀ threshold,
          getStrikesThresholdByNodeOperatorId fields leaf.nodeOperatorId =
            .ok threshold →
          threshold ≤ strikesSum leaf →
          ∃ key ∈ keys, key.leaf = leaf) := by
  have leafOf
      (leafIndex : Nat)
      {leaf : StrikesTreeLeaf}
      {fullKeyInfo : FullKeyInfo}
      (found : lookupIn config storage leaf.pubKey = some fullKeyInfo)
      (owned : fullKeyInfo.operatorId = leaf.nodeOperatorId) :
      (badPerformer leafIndex leaf fullKeyInfo).leaf = leaf := by
    simp [BadPerformer.leaf, badPerformer, owned, pubKey_of_lookupIn found]
  have returns := (buildPayloads_eq_ok_iff.mp built).1
  constructor
  · intro key member
    obtain ⟨⟨leafIndex, leaf⟩, entryMember, returned⟩ := (mem_buildPayloads_iff built).mp member
    obtain ⟨threshold, inForce, passedOver | ⟨fullKeyInfo, isKey, reached, found, owned⟩⟩ :=
      badPerformerOfLeaf_returns returned
    · cases passedOver.1
    · cases isKey
      have sameLeaf := leafOf leafIndex found owned
      have samePubKey := pubKey_of_lookupIn found
      refine ⟨?_, ?_, threshold, ?_, ?_⟩
      · rw [IsPlaced, sameLeaf]
        exact mem_entries.mp entryMember
      · simp only [badPerformer, samePubKey, found]
      · simp only [badPerformer, owned, inForce]
      · rw [sameLeaf]
        exact reached
  · intro daemon leaf member threshold inForce reached
    obtain ⟨leafIndex, isLeaf⟩ := List.mem_iff_getElem?.mp member
    have entryMember : (leafIndex, leaf) ∈ entries strikesTree := mem_entries.mpr isLeaf
    obtain ⟨result, returned⟩ := returns (leafIndex, leaf) entryMember
    obtain ⟨_, inForceHere, passedOver | ⟨fullKeyInfo, isKey, _, found, owned⟩⟩ :=
      badPerformerOfLeaf_returns returned
    · rw [inForce] at inForceHere
      cases inForceHere
      exact ((passedOver.2 daemon).not_ge reached).elim
    · subst isKey
      exact ⟨_, (mem_buildPayloads_iff built).mpr ⟨_, entryMember, returned⟩, leafOf _ found owned⟩

end Collect

/-! ## A round without failures -/

section Finish

variable {reads : StrikesReads}

/-- A request that does not fail is answered. -/
theorem finish_ask
    {α : Type}
    {request : StrikesRequest}
    (answered : reads.failure request = none)
    (answer : α)
    (world : StrikesWorld) :
    finish (ask reads request answer) world = (.ok answer, world) := by
  simp [ask, finish_bind, answered]

/-- So are many, one after the other. -/
theorem finish_askAll
    {α β : Type}
    {items : List β}
    {request : β → StrikesRequest}
    (answered : ∀ item ∈ items, reads.failure (request item) = none)
    (answer : β → α)
    (world : StrikesWorld) :
    finish (askAll reads items request answer) world = (.ok (items.map answer), world) := by
  have asked :
      finish (forEach items fun item => ask reads (request item) ()) world =
        (.ok (), world) := by
    induction items with
    | nil => rfl
    | cons item rest inductionHypothesis =>
        have restAsked :=
          inductionHypothesis fun later member => answered later (by simp [member])
        rw [forEach, finish_bind, finish_ask (answered item (by simp))]
        exact restAsked
  unfold askAll
  rw [finish_bind, asked]
  rfl

variable (succeeds : ∀ request, reads.failure request = none)
variable {blockTag : BlockHash}

include succeeds

/-- A tree that hashes to the published root is loaded. -/
theorem finish_loadStrikesTree
    {treeRoot : Nat}
    {treeCid : String}
    (rooted : (reads.ipfs treeCid).root = treeRoot)
    (world : StrikesWorld) :
    finish (loadStrikesTree reads treeRoot treeCid) world =
      (.ok (some (reads.ipfs treeCid)), world) := by
  simp [loadStrikesTree, finish_bind, finish_ask (succeeds _), rooted]

/-- The published tree is found, held or loaded. -/
theorem finish_getStrikesTree
    (published : isPublished reads blockTag)
    {world : StrikesWorld}
    (rooted :
      (publishedTree reads blockTag world.badPerformers).root =
        reads.treeRoot blockTag) :
    finish (getStrikesTree reads blockTag) world =
      (.ok (some (publishedTree reads blockTag world.badPerformers)), world) := by
  unfold publishedTree at rooted ⊢
  unfold getStrikesTree
  simp only [finish_bind, finish_ask (succeeds _), published, if_true, finish_read]
  cases held : world.badPerformers.currentStrikesTree with
  | none =>
      simp only [held] at rooted
      exact finish_loadStrikesTree succeeds rooted world
  | some currentStrikesTree =>
      simp only [held] at rooted
      by_cases sameRoot : currentStrikesTree.root = reads.treeRoot blockTag
      · simp [sameRoot]
      · simp only [sameRoot, if_false] at rooted ⊢
        exact finish_loadStrikesTree succeeds rooted world

/-- A tree to be processed has its thresholds and curves committed. -/
theorem finish_prepareStrikesTreeForProcessing
    {world : StrikesWorld}
    (toBeProcessed : IsToBeProcessed reads blockTag world.badPerformers) :
    finish (prepareStrikesTreeForProcessing reads blockTag) world =
      (.ok true,
        { world with badPerformers := committed reads blockTag world.badPerformers }) := by
  have changed := toBeProcessed.changed
  unfold IsUnchanged at changed
  unfold prepareStrikesTreeForProcessing
  rw [finish_bind, finish_getStrikesTree succeeds toBeProcessed.published
    toBeProcessed.rooted]
  simp only [getStrikesThresholds, getNodeOperatorsCurveIds, finish_bind,
    finish_ask (succeeds _), finish_askAll fun _ _ => succeeds _, finish_read]
  rw [if_neg]
  · rfl
  · exact changed

/-- The keys for which the contract says no remain. -/
theorem finish_getKeysWithout
    (request : BadPerformer → StrikesRequest)
    (proved : BadPerformer → Bool)
    (keys : List BadPerformer)
    (world : StrikesWorld) :
    finish (getKeysWithout reads request proved keys) world =
      (.ok (unlessEmpty (keys.filter fun key => ! proved key)),
        noteFound (keys.filter proved) world) := by
  simp [getKeysWithout, finish_bind, finish_askAll fun _ _ => succeeds _]

/-- The keys left when those the contracts know are dropped. -/
def unknownKeys (reads : StrikesReads) (exitPenalties : List ExitPenalty)
    (blockTag : BlockHash) (keys : List BadPerformer) : List BadPerformer :=
  (keys.filter fun key => ! isEjectionProved reads exitPenalties blockTag key).filter
    fun key => ! isWithdrawalProved reads key

/-- A round whose loop over the tree returns drops the known keys and no other. -/
theorem finish_selection
    {config : Config}
    {fullKeyInfoFn : FullKeyInfoByPubKeyFn}
    {headBlockInfo : SupportedBlock}
    {world : StrikesWorld}
    (toBeProcessed : IsToBeProcessed reads headBlockInfo.blockHash world.badPerformers)
    {keys : List BadPerformer}
    (collected :
      buildPayloads
        (badPerformerOfLeaf config fullKeyInfoFn
          (committed reads headBlockInfo.blockHash world.badPerformers))
        (entries (publishedTree reads headBlockInfo.blockHash world.badPerformers)) =
          .ok keys) :
    (finish
      (getUnprovenNonWithdrawnBadPerformers config reads headBlockInfo fullKeyInfoFn)
      world).1 =
        .ok (unknownKeys reads world.exitPenalties headBlockInfo.blockHash keys) := by
  unfold getUnprovenNonWithdrawnBadPerformers
  rw [finish_bind, finish_prepareStrikesTreeForProcessing succeeds toBeProcessed]
  simp only [if_true, selectBadPerformers, finish_bind, getBadPerformersKeys,
    finish_read, committed]
  simp only [committed] at collected
  simp only [collected]
  by_cases noKeys : keys = []
  · simp [unlessEmpty, noKeys, unknownKeys]
  · simp only [unlessEmpty, noKeys, if_false, pure_eq_done, finish_done,
      getUnprovenKeys, finish_bind, finish_read, finish_getKeysWithout succeeds]
    by_cases allProved :
        (keys.filter fun key =>
          ! isEjectionProved reads world.exitPenalties headBlockInfo.blockHash key) = []
    · simp [allProved, unknownKeys]
    · simp only [allProved, if_false, getNonWithdrawnKeys, finish_bind,
        finish_getKeysWithout succeeds, unknownKeys, unlessEmpty]
      split <;> simp_all

/-- A round whose loop over the tree fails returns nothing. -/
theorem finish_selection_error
    {config : Config}
    {fullKeyInfoFn : FullKeyInfoByPubKeyFn}
    {headBlockInfo : SupportedBlock}
    {world : StrikesWorld}
    (toBeProcessed : IsToBeProcessed reads headBlockInfo.blockHash world.badPerformers)
    {reason : Abort}
    (failed :
      buildPayloads
        (badPerformerOfLeaf config fullKeyInfoFn
          (committed reads headBlockInfo.blockHash world.badPerformers))
        (entries (publishedTree reads headBlockInfo.blockHash world.badPerformers)) =
          .error reason) :
    (finish
      (getUnprovenNonWithdrawnBadPerformers config reads headBlockInfo fullKeyInfoFn)
      world).1 = .error reason := by
  unfold getUnprovenNonWithdrawnBadPerformers
  rw [finish_bind, finish_prepareStrikesTreeForProcessing succeeds toBeProcessed]
  simp only [if_true, selectBadPerformers, finish_bind, getBadPerformersKeys,
    finish_read, committed]
  simp only [committed] at failed
  simp [failed]

end Finish

/-! ## Under the operator filter -/

section Filter

variable {config : Config} {storage : KeysIndexerServiceStorage}
variable {reads : StrikesReads} {blockTag : BlockHash} {fields : BadPerformersFields}

/-- Whether a leaf of an allowed operator reaches the threshold of its curve. -/
def IsReportable (config : Config) (reads : StrikesReads) (blockTag : BlockHash)
    (leaf : StrikesTreeLeaf) : Prop :=
  KeysIndexer.isAllowedOperatorId config leaf.nodeOperatorId ∧
    thresholdOf reads blockTag leaf.nodeOperatorId ≤ strikesSum leaf

instance (leaf : StrikesTreeLeaf) :
    Decidable (IsReportable config reads blockTag leaf) :=
  inferInstanceAs (Decidable (_ ∧ _))

/--
What a round should report: the keys of the leaves whose operator is allowed and
whose strikes reach its threshold, neither proved nor withdrawn.
-/
def reportable (config : Config) (storage : KeysIndexerServiceStorage)
    (reads : StrikesReads) (exitPenalties : List ExitPenalty) (blockTag : BlockHash)
    (strikesTree : StrikesTree) : List BadPerformer :=
  unknownKeys reads exitPenalties blockTag
    (((entries strikesTree).filter fun entry =>
        IsReportable config reads blockTag entry.2).filterMap fun entry =>
      (indexedKey storage entry.2.pubKey).map (badPerformer entry.1 entry.2))

/-- Every leaf of an operator outside the filter stays below its threshold. -/
def NoForeignBadPerformer (config : Config) (reads : StrikesReads)
    (blockTag : BlockHash) (strikesTree : StrikesTree) : Prop :=
  ∀ leaf ∈ strikesTree.leaves,
    ¬ KeysIndexer.isAllowedOperatorId config leaf.nodeOperatorId →
    strikesSum leaf < thresholdOf reads blockTag leaf.nodeOperatorId

instance (strikesTree : StrikesTree) :
    Decidable (NoForeignBadPerformer config reads blockTag strikesTree) :=
  inferInstanceAs (Decidable (∀ leaf ∈ _, _ → _))

/-- The filter hides the keys of other operators. -/
theorem lookupIn_foreign
    {leaf : StrikesTreeLeaf}
    (indexed : IsIndexed storage leaf)
    (foreign : ¬ KeysIndexer.isAllowedOperatorId config leaf.nodeOperatorId) :
    lookupIn config storage leaf.pubKey = none := by
  obtain ⟨fullKeyInfo, found, owned⟩ := indexed
  rw [lookupIn, getFullKeyInfoByPubKey_eq, found]
  simp [KeysIndexer.filterFullKeyInfo, owned, foreign]

/-- It lets those of the configured operators pass. -/
theorem lookupIn_allowed
    {leaf : StrikesTreeLeaf}
    {fullKeyInfo : FullKeyInfo}
    (found : indexedKey storage leaf.pubKey = some fullKeyInfo)
    (owned : fullKeyInfo.operatorId = leaf.nodeOperatorId)
    (allowed : KeysIndexer.isAllowedOperatorId config leaf.nodeOperatorId) :
    lookupIn config storage leaf.pubKey = some fullKeyInfo := by
  rw [lookupIn, getFullKeyInfoByPubKey_eq, found]
  simp [KeysIndexer.filterFullKeyInfo, owned, allowed]

/-- Without foreign bad performers the lookup finds the key of every bad performer. -/
theorem haveKeys_of_noForeign
    {strikesTree : StrikesTree}
    (indexed : ∀ leaf ∈ strikesTree.leaves, IsIndexed storage leaf)
    (noForeign : NoForeignBadPerformer config reads blockTag strikesTree) :
    HaveKeys config storage reads blockTag strikesTree := by
  intro leaf member reached
  obtain ⟨fullKeyInfo, found, owned⟩ := indexed leaf member
  have allowed : KeysIndexer.isAllowedOperatorId config leaf.nodeOperatorId := by
    by_contra foreign
    exact (noForeign leaf member foreign).not_ge reached
  exact ⟨fullKeyInfo, lookupIn_allowed found owned allowed, owned⟩

/-- Without foreign bad performers the bad performers are the reportable leaves. -/
theorem unknownKeys_badKeys
    {strikesTree : StrikesTree}
    (indexed : ∀ leaf ∈ strikesTree.leaves, IsIndexed storage leaf)
    (noForeign : NoForeignBadPerformer config reads blockTag strikesTree)
    (exitPenalties : List ExitPenalty) :
    unknownKeys reads exitPenalties blockTag
        (badKeys config storage reads blockTag strikesTree) =
      reportable config storage reads exitPenalties blockTag strikesTree := by
  unfold badKeys reportable
  congr 1
  rw [List.filterMap_filter, List.filterMap_filter]
  apply List.filterMap_congr
  intro entry member
  have leafMember := leaf_mem_of_mem_entries member
  by_cases reached :
      thresholdOf reads blockTag entry.2.nodeOperatorId ≤ strikesSum entry.2
  · have allowed : KeysIndexer.isAllowedOperatorId config entry.2.nodeOperatorId := by
      by_contra foreign
      exact (noForeign entry.2 leafMember foreign).not_ge reached
    obtain ⟨fullKeyInfo, found, owned⟩ := indexed entry.2 leafMember
    simp [IsReportable, reached, allowed, found, lookupIn_allowed found owned allowed]
  · simp [IsReportable, reached]

/-- One foreign leaf at its threshold ends the loop. -/
theorem fails_of_foreign
    (daemon : config.workingMode = .daemon)
    (curves : HaveCurves reads blockTag (publishedTree reads blockTag fields))
    {leaf : StrikesTreeLeaf}
    (member : leaf ∈ (publishedTree reads blockTag fields).leaves)
    (indexed : IsIndexed storage leaf)
    (foreign : ¬ KeysIndexer.isAllowedOperatorId config leaf.nodeOperatorId)
    (reached : thresholdOf reads blockTag leaf.nodeOperatorId ≤ strikesSum leaf) :
    ∃ reason,
      buildPayloads
        (badPerformerOfLeaf config (lookupIn config storage)
          (committed reads blockTag fields))
        (entries (publishedTree reads blockTag fields)) = .error reason := by
  obtain ⟨leafIndex, isLeaf⟩ := List.mem_iff_getElem?.mp member
  have hidden := lookupIn_foreign indexed foreign
  have inForce := getStrikesThreshold_committed curves member
  cases built :
      buildPayloads
        (badPerformerOfLeaf config (lookupIn config storage)
          (committed reads blockTag fields))
        (entries (publishedTree reads blockTag fields)) with
  | error reason => exact ⟨reason, rfl⟩
  | ok keys =>
      obtain ⟨result, returned⟩ :=
        (buildPayloads_eq_ok_iff.mp built).1 (leafIndex, leaf) (mem_entries.mpr isLeaf)
      rw [badPerformerOfLeaf_hidden daemon inForce reached hidden] at returned
      cases returned

/--
A daemon's round over an indexed tree returns exactly the reportable keys if and
only if no operator outside the filter has a leaf at its threshold.
-/
theorem returns_reportable_iff
    (config : Config)
    (daemon : config.workingMode = .daemon)
    (storage : KeysIndexerServiceStorage)
    (reads : StrikesReads)
    (succeeds : ∀ request, reads.failure request = none)
    (headBlockInfo : SupportedBlock)
    (world : StrikesWorld)
    (toBeProcessed : IsToBeProcessed reads headBlockInfo.blockHash world.badPerformers)
    (curves :
      HaveCurves reads headBlockInfo.blockHash
        (publishedTree reads headBlockInfo.blockHash world.badPerformers))
    (indexed :
      ∀ leaf ∈ (publishedTree reads headBlockInfo.blockHash world.badPerformers).leaves,
        IsIndexed storage leaf) :
    (finish
      (getUnprovenNonWithdrawnBadPerformers config reads headBlockInfo
        (KeysIndexer.getFullKeyInfoByPubKey config storage)) world).1 =
        .ok (reportable config storage reads world.exitPenalties headBlockInfo.blockHash
          (publishedTree reads headBlockInfo.blockHash world.badPerformers)) ↔
      NoForeignBadPerformer config reads headBlockInfo.blockHash
        (publishedTree reads headBlockInfo.blockHash world.badPerformers) := by
  constructor
  · intro returned leaf member foreign
    by_contra notBelow
    obtain ⟨reason, failed⟩ :=
      fails_of_foreign daemon curves member (indexed leaf member) foreign
        (Nat.not_lt.mp notBelow)
    rw [finish_selection_error succeeds toBeProcessed failed] at returned
    cases returned
  · intro noForeign
    have collects :=
      collects_badKeys curves (haveKeys_of_noForeign indexed noForeign)
    rw [← unknownKeys_badKeys indexed noForeign]
    exact finish_selection succeeds toBeProcessed collects

end Filter

/-! ### Two operators, one of them filtered out -/

def filteredConfig : Config :=
  { Config.defaults "0x01" 1 with daemonNodeOperatorIds := some [1] }

def sampleStorage : KeysIndexerServiceStorage :=
  (Std.TreeMap.empty.insert 100 { operatorId := 1, keyIndex := 0, pubKey := 10 }).insert
    200 { operatorId := 2, keyIndex := 0, pubKey := 20 }

/-- One leaf for each operator; the first one has three strikes. -/
def sampleTree (strikes : Nat) : StrikesTree where
  root := 1
  leaves :=
    [ { nodeOperatorId := 1, pubKey := 10, strikesData := [1, 2] },
      { nodeOperatorId := 2, pubKey := 20, strikesData := [strikes] } ]

/-- One curve; nothing is withdrawn, and no request fails. -/
def sampleReads (strikesTree : StrikesTree) (threshold exitLimit : Nat) : StrikesReads where
  exitLimitAtStart := exitLimit
  treeRoot := fun _ => strikesTree.root
  treeCid := fun _ => "Qm"
  ipfs := fun _ => strikesTree
  curvesCount := fun _ => 1
  strikeThreshold := fun _ _ => threshold
  bondCurveId := fun _ _ => 0
  blockNumber := fun blockTag => blockTag
  stakingModule :=
    { withdrawn := fun _ => false
      slashed := fun _ => false
      keyAddedBalance := fun _ => 0 }
  multiProofOrder := .asRequested
  exitLimitAtSend := exitLimit
  minedAt := fun number => number
  failure := fun _ => none

/-- The execution block of a block is named by the block's root. -/
def sampleBlock (root : RootHex) : SupportedBlock where
  slot := root
  parentRoot := root - 1
  blockHash := root
  withdrawals := []
  proposerSlashings := []
  attesterSlashings := []

/-- The key of the first operator's leaf. -/
def sampleKey : BadPerformer where
  operatorId := 1
  keyIndex := 0
  pubKey := 10
  validatorIndex := 100
  leafIndex := 0
  strikesData := [1, 2]

theorem sampleTree_indexed
    (strikes : Nat) :
    ∀ leaf ∈ (sampleTree strikes).leaves, IsIndexed sampleStorage leaf := by
  intro leaf member
  rcases List.mem_pair.mp member with rfl | rfl
  · exact ⟨_, rfl, rfl⟩
  · exact ⟨_, rfl, rfl⟩

/-- A foreign leaf below its threshold does not disturb the allowed operator. -/
theorem returns_reportable_sample :
    (finish
      (getUnprovenNonWithdrawnBadPerformers filteredConfig
        (sampleReads (sampleTree 1) 3 10) (sampleBlock 5)
        (KeysIndexer.getFullKeyInfoByPubKey filteredConfig sampleStorage))
      .fresh).1 = .ok [sampleKey] :=
  (returns_reportable_iff filteredConfig rfl sampleStorage
    (sampleReads (sampleTree 1) 3 10) (fun _ => rfl) (sampleBlock 5) .fresh
    { published := rfl, rooted := rfl, changed := by decide }
    (by decide) (sampleTree_indexed 1)).mpr (by decide)

/--
A foreign leaf at its threshold: the allowed operator has a reportable key, and
the round ends with an error instead of returning it.
-/
theorem foreign_leaf_ends_round :
    (∀ request, (sampleReads (sampleTree 3) 3 10).failure request = none) ∧
      IsToBeProcessed (sampleReads (sampleTree 3) 3 10) (sampleBlock 5).blockHash
        StrikesWorld.fresh.badPerformers ∧
      (∀ leaf ∈ (sampleTree 3).leaves, IsIndexed sampleStorage leaf) ∧
      reportable filteredConfig sampleStorage (sampleReads (sampleTree 3) 3 10) []
        (sampleBlock 5).blockHash (sampleTree 3) = [sampleKey] ∧
      (finish
        (getUnprovenNonWithdrawnBadPerformers filteredConfig
          (sampleReads (sampleTree 3) 3 10) (sampleBlock 5)
          (KeysIndexer.getFullKeyInfoByPubKey filteredConfig sampleStorage))
        .fresh).1 = .error (.thrown (noFullKeyInfo 20)) :=
  ⟨fun _ => rfl, { published := rfl, rooted := rfl, changed := by decide },
    sampleTree_indexed 3, by decide, rfl⟩

end BadPerformers

end CsmProver
