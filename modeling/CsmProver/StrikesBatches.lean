import CsmProver.PayloadBuilders
import CsmProver.StrikesRounds

namespace CsmProver

/-!
# Batches of bad performers

What the payloads of one call of `sendBadPerformanceProofs` say.  The list is cut
at the exit limit first, then sorted by leaf, then sliced, and the library puts
the leaves of a slice into an order of its own before each of them is given its
key again.

`ReportsOnce` does not mention the batches: it says what the calls of the
contract amount to together, whichever way the keys were divided.
-/

open Async

namespace BadPerformers

/-! ## What a list and its payloads are -/

/-- Bad performers of a tree, as the selection collects them. -/
structure TakenFrom (strikesTree : StrikesTree) (badPerformers : List BadPerformer) :
    Prop where
  placed : ∀ key ∈ badPerformers, IsPlaced strikesTree key
  distinct : (badPerformers.map (·.leafIndex)).Nodup
  oneKey :
    ∀ key ∈ badPerformers, ∀ other ∈ badPerformers,
      key.pubKey = other.pubKey → key.keyIndex = other.keyIndex

/-- Fewer keys are taken from the same leaves. -/
theorem TakenFrom.sublist
    {strikesTree : StrikesTree}
    {badPerformers kept : List BadPerformer}
    (taken : TakenFrom strikesTree badPerformers)
    (sublist : kept.Sublist badPerformers) :
    TakenFrom strikesTree kept where
  placed := fun key member => taken.placed key (sublist.subset member)
  distinct := taken.distinct.sublist (sublist.map _)
  oneKey := fun key member other otherMember =>
    taken.oneKey key (sublist.subset member) other (sublist.subset otherMember)

/-- The keys left by the selection are bad performers of the tree it went through. -/
theorem takenFrom_unknownKeys
    {config : Config}
    {storage : KeysIndexerServiceStorage}
    {fields : BadPerformersFields}
    {strikesTree : StrikesTree}
    {keys : List BadPerformer}
    (built :
      buildPayloads (badPerformerOfLeaf config (lookupIn config storage) fields)
        (entries strikesTree) = .ok keys)
    (reads : StrikesReads)
    (exitPenalties : List ExitPenalty)
    (blockTag : BlockHash) :
    TakenFrom strikesTree (unknownKeys reads exitPenalties blockTag keys) := by
  have found := (collected built).1
  have inOrder :
      (keys.map (·.leafIndex)).Sublist ((entries strikesTree).map Prod.fst) := by
    apply buildPayloads_sublist ?_ built
    intro entry key returned
    obtain ⟨_, _, passedOver | ⟨_, isKey, _⟩⟩ := badPerformerOfLeaf_returns returned
    · cases passedOver.1
    · cases isKey
      rfl
  have indices :
      (entries strikesTree).map Prod.fst = List.range strikesTree.leaves.length := by
    have swapped : Prod.fst ∘ Prod.swap = (Prod.snd : StrikesTreeLeaf × Nat → Nat) := rfl
    rw [entries, List.map_map, swapped, List.zipIdx_map_snd, List.range_eq_range']
  rw [indices] at inOrder
  have taken : TakenFrom strikesTree keys :=
    { placed := fun key member => (found key member).1
      distinct := List.nodup_range.sublist inOrder
      oneKey := by
        intro key member other otherMember samePubKey
        have keyFound := (found key member).2.1
        have otherFound := (found other otherMember).2.1
        rw [samePubKey, otherFound] at keyFound
        exact congrArg FullKeyInfo.keyIndex (Option.some.inj keyFound).symm }
  exact taken.sublist (List.filter_sublist.trans List.filter_sublist)

/-- What a payload should say of a key. -/
def keyStrikesOf (key : BadPerformer) : KeyStrikes where
  nodeOperatorId := key.operatorId
  keyIndex := key.keyIndex
  data := key.strikesData

/-- An entry of a payload, beside the leaf that is proved at its place. -/
structure Describes (keys : List BadPerformer) (leaf : StrikesTreeLeaf)
    (entry : KeyStrikes) : Prop where
  isTaken : ∃ key ∈ keys, key.leaf = leaf
  nodeOperatorId : entry.nodeOperatorId = leaf.nodeOperatorId
  keyIndex : ∀ key ∈ keys, key.pubKey = leaf.pubKey → entry.keyIndex = key.keyIndex
  data : entry.data = leaf.strikesData

/-- The payloads report each of the keys once, at most so many of them at a time. -/
structure ReportsOnce (maxBatchSize : Nat) (keys : List BadPerformer)
    (payloads : List BadPerformanceProof) : Prop where
  entries : (payloads.flatMap (·.keyStrikesList)).Perm (keys.map keyStrikesOf)
  nonempty : ∀ payload ∈ payloads, payload.keyStrikesList ≠ []
  bounded : ∀ payload ∈ payloads, payload.keyStrikesList.length ≤ maxBatchSize
  describes :
    ∀ payload ∈ payloads,
      List.Forall₂ (Describes keys) payload.leaves payload.keyStrikesList

/-! ## One batch -/

/-- The entry that a leaf is given in a batch. -/
def entryIn (batch : List BadPerformer) (leaf : StrikesTreeLeaf) : KeyStrikes where
  nodeOperatorId := leaf.nodeOperatorId
  keyIndex :=
    match batch.find? fun key => key.pubKey == leaf.pubKey with
    | none => 0
    | some keyInfo => keyInfo.keyIndex
  data := leaf.strikesData

/-- A payload that is built gives every leaf its entry, in the order of the leaves. -/
theorem buildKeyStrikesPayload_ok
    {batch : List BadPerformer}
    {leaves : List StrikesTreeLeaf}
    {keyStrikesList : List KeyStrikes}
    (built : buildKeyStrikesPayload leaves batch = .ok keyStrikesList) :
    keyStrikesList = leaves.map (entryIn batch) := by
  unfold buildKeyStrikesPayload at built
  induction leaves generalizing keyStrikesList with
  | nil =>
      cases built
      rfl
  | cons leaf rest inductionHypothesis =>
      rw [List.mapM_cons, except_bind_eq_ok] at built
      obtain ⟨entry, entryBuilt, restBuilt⟩ := built
      rw [except_bind_eq_ok] at restBuilt
      obtain ⟨restList, isRest, isList⟩ := restBuilt
      cases isList
      rw [List.map_cons, ← inductionHypothesis isRest]
      congr 1
      unfold entryIn
      cases found : batch.find? fun key => key.pubKey == leaf.pubKey with
      | none =>
          rw [found] at entryBuilt
          cases entryBuilt
      | some keyInfo =>
          rw [found] at entryBuilt
          cases entryBuilt
          rfl

section Batch

variable {strikesTree : StrikesTree} {keys batch : List BadPerformer}

/-- A leaf of a batch gets the index of the key with its public key. -/
theorem entryIn_leaf
    (taken : TakenFrom strikesTree keys)
    (inKeys : ∀ key ∈ batch, key ∈ keys)
    {key : BadPerformer}
    (member : key ∈ batch) :
    entryIn batch key.leaf = keyStrikesOf key := by
  cases found : batch.find? fun other => other.pubKey == key.leaf.pubKey with
  | none =>
      have notThere := List.find?_eq_none.mp found key member
      simp [BadPerformer.leaf] at notThere
  | some keyInfo =>
      have samePubKey : keyInfo.pubKey = key.pubKey := by
        simpa [BadPerformer.leaf] using List.find?_some found
      have sameIndex : keyInfo.keyIndex = key.keyIndex :=
        taken.oneKey keyInfo (inKeys keyInfo (List.mem_of_find?_eq_some found)) key
          (inKeys key member) samePubKey
      simp only [entryIn, found, sameIndex]
      rfl

variable {payload : BadPerformanceProof}

/-- The payload of a batch has one entry for each of its keys. -/
theorem IsPayloadOf.entries
    (isPayload : IsPayloadOf payload batch)
    (taken : TakenFrom strikesTree keys)
    (inKeys : ∀ key ∈ batch, key ∈ keys) :
    payload.keyStrikesList.Perm (batch.map keyStrikesOf) := by
  have entries : (batch.map (·.leaf)).map (entryIn batch) = batch.map keyStrikesOf := by
    rw [List.map_map]
    exact List.map_congr_left fun key member => entryIn_leaf taken inKeys member
  rw [buildKeyStrikesPayload_ok isPayload.built, ← entries]
  exact isPayload.leaves.map _

/-- The leaves of a payload and its entries tell of the same keys. -/
theorem IsPayloadOf.describes
    (isPayload : IsPayloadOf payload batch)
    (taken : TakenFrom strikesTree keys)
    (inKeys : ∀ key ∈ batch, key ∈ keys) :
    List.Forall₂ (Describes keys) payload.leaves payload.keyStrikesList := by
  rw [buildKeyStrikesPayload_ok isPayload.built, List.forall₂_map_right_iff,
    List.forall₂_same]
  intro leaf member
  obtain ⟨key, keyMember, isLeaf⟩ := isPayload.mem_leaves.mp member
  subst isLeaf
  rw [entryIn_leaf taken inKeys keyMember]
  exact
    { isTaken := ⟨key, inKeys key keyMember, rfl⟩
      nodeOperatorId := rfl
      keyIndex := fun other otherMember samePubKey =>
        taken.oneKey key (inKeys key keyMember) other otherMember samePubKey.symm
      data := rfl }

end Batch

/-! ## The batches of a list -/

/-- A slice has an item and is not longer than the given size. -/
theorem length_of_mem_slices
    {α : Type}
    (size : { size : Nat // 0 < size })
    {fuel : Nat}
    {items slice : List α}
    (member : slice ∈ slices size fuel items) :
    slice ≠ [] ∧ slice.length ≤ size := by
  induction fuel generalizing items with
  | zero =>
      cases items <;> cases member
  | succ fuel inductionHypothesis =>
      cases items with
      | nil => cases member
      | cons head rest =>
          rcases List.mem_cons.mp member with isFirst | inLater
          · have positive := size.2
            rw [isFirst, ← List.length_pos_iff, List.length_take, List.length_cons]
            omega
          · exact inductionHypothesis inLater

section List

variable {config : Config} {strikesTree : StrikesTree} {keys : List BadPerformer}

/-- The entries of payloads that go with batches one by one. -/
theorem entries_of_payloads
    (taken : TakenFrom strikesTree keys)
    {payloads : List BadPerformanceProof}
    {batches : List (List BadPerformer)}
    (inKeys : ∀ batch ∈ batches, ∀ key ∈ batch, key ∈ keys)
    (areTheirs : List.Forall₂ IsPayloadOf payloads batches) :
    (payloads.flatMap (·.keyStrikesList)).Perm (batches.flatten.map keyStrikesOf) := by
  induction areTheirs with
  | nil => exact .refl _
  | @cons payload batch _ _ isPayload _ inductionHypothesis =>
      have first := isPayload.entries taken (inKeys batch (by simp))
      have later :=
        inductionHypothesis fun other member => inKeys other (by simp [member])
      rw [List.flatMap_cons, List.flatten_cons, List.map_append]
      exact first.append later

theorem batch_of_payload
    {payloads : List BadPerformanceProof}
    {batches : List (List BadPerformer)}
    (areTheirs : List.Forall₂ IsPayloadOf payloads batches)
    {payload : BadPerformanceProof}
    (member : payload ∈ payloads) :
    ∃ batch ∈ batches, IsPayloadOf payload batch := by
  induction areTheirs with
  | nil => cases member
  | @cons first batch _ _ isPayload _ inductionHypothesis =>
      rcases List.mem_cons.mp member with rfl | inLater
      · exact ⟨batch, by simp, isPayload⟩
      · obtain ⟨other, otherMember, isTheirs⟩ := inductionHypothesis inLater
        exact ⟨other, by simp [otherMember], isTheirs⟩

/-- What payloads say that go with the batches of a list. -/
theorem reportsOnce_of_payloads
    (taken : TakenFrom strikesTree keys)
    {payloads : List BadPerformanceProof}
    (areTheirs :
      List.Forall₂ IsPayloadOf payloads ((batchesOf config keys).map Prod.fst)) :
    ReportsOnce config.txStrikesPayloadMaxBatchSize keys payloads := by
  have inKeys : ∀ batch ∈ (batchesOf config keys).map Prod.fst, ∀ key ∈ batch, key ∈ keys := by
    intro batch member key inBatch
    exact (flatten_batchesOf keys).mem_iff.mp (List.mem_flatten.mpr ⟨batch, member, inBatch⟩)
  have sizes :
      ∀ payload ∈ payloads,
        payload.keyStrikesList ≠ [] ∧
          payload.keyStrikesList.length ≤ config.txStrikesPayloadMaxBatchSize := by
    intro payload member
    obtain ⟨batch, batchMember, isPayload⟩ := batch_of_payload areTheirs member
    have sameLength := (isPayload.entries taken (inKeys batch batchMember)).length_eq
    rw [List.length_map] at sameLength
    rw [batchesOf, List.zipIdx_map_fst] at batchMember
    have size := length_of_mem_slices config.txStrikesPayloadMaxBatchSize batchMember
    rw [← List.length_pos_iff, sameLength, List.length_pos_iff]
    exact size
  exact
    { entries :=
        (entries_of_payloads taken inKeys areTheirs).trans
          ((flatten_batchesOf keys).map keyStrikesOf)
      nonempty := fun payload member => (sizes payload member).1
      bounded := fun payload member => (sizes payload member).2
      describes := by
        intro payload member
        obtain ⟨batch, batchMember, isPayload⟩ := batch_of_payload areTheirs member
        exact isPayload.describes taken (inKeys batch batchMember) }

end List

/-! ## A call of the service -/

section Call

variable {config : Config} {reads : StrikesReads} {strikesTree : StrikesTree}
variable {badPerformers : List BadPerformer} {world : StrikesWorld}

/-- A call changes no field before it returns. -/
def callProtocol (world : StrikesWorld) : Protocol StrikesWorld :=
  alone (fun state => state.badPerformers = world.badPerformers)
    fun _ state => state.badPerformers = world.badPerformers

/-- Every batch of the list is sent with a payload of its own, in order. -/
theorem wp_processBatches_payloads
    {keys : List BadPerformer}
    (held : world.badPerformers.currentStrikesTree = some strikesTree)
    (placed : ∀ key ∈ keys, IsPlaced strikesTree key) :
    wp (callProtocol world)
      (fun _ state =>
        state.badPerformers = world.badPerformers ∧
          ∃ sent,
            state.payloads = world.payloads ++ sent ∧
              List.Forall₂ IsPayloadOf sent ((batchesOf config keys).map Prod.fst))
      (processBadPerformerBatches config reads keys) world := by
  -- What is sent goes with the batches that no longer wait.
  apply wp_processBatches held placed fun rest state =>
    state.badPerformers = world.badPerformers ∧
      ∃ sent done,
        state.payloads = world.payloads ++ sent ∧
          List.Forall₂ IsPayloadOf sent (done.map Prod.fst) ∧
          done ++ rest = batchesOf config keys
  case enters =>
    exact ⟨rfl, [], [], by simp, .nil, rfl⟩
  case exits =>
    rintro state ⟨fields, sent, done, payloads, areTheirs, isAll⟩
    rw [List.append_nil] at isAll
    exact ⟨fields, sent, payloads, isAll ▸ areTheirs⟩
  case sends =>
    rintro batch rest state payload - isPayload ⟨fields, sent, done, payloads, areTheirs, isAll⟩
    have minedFields := afterBatch_badPerformers config reads batch.2 payload state
    refine ⟨fields, fun _ _ => fields, minedFields.trans fields, minedFields.trans fields,
      sent ++ [payload], done ++ [batch], ?_, ?_, ?_⟩
    · rw [StrikesWorld.record_payloads, afterBatch_payloads, payloads, List.append_assoc]
    · rw [List.map_append]
      exact List.rel_append areTheirs (.cons isPayload .nil)
    · rw [List.append_assoc, List.singleton_append, isAll]

/-- Within the limit are the first keys. -/
theorem withinLimit_eq_take
    (badPerformers : List BadPerformer) :
    withinLimit reads badPerformers =
      badPerformers.take (min reads.exitLimitAtSend badPerformers.length) := by
  unfold withinLimit
  split
  case isTrue allowed =>
    rw [Nat.min_eq_right allowed, List.take_length]
  case isFalse limited =>
    rw [Nat.min_eq_left (by omega)]

/-- A call that returned, from the state it started in. -/
structure Reported (config : Config) (reads : StrikesReads) (strikesTree : StrikesTree)
    (badPerformers : List BadPerformer) (number : Nat) (world final : StrikesWorld) :
    Prop where
  limited : number = min reads.exitLimitAtSend badPerformers.length
  payloads :
    ∃ sent,
      final.payloads = world.payloads ++ sent ∧
        ReportsOnce config.txStrikesPayloadMaxBatchSize (badPerformers.take number) sent
  fields :
    final.badPerformers =
      if number = badPerformers.length then
        { world.badPerformers with lastProcessedStrikesTreeRoot := some strikesTree.root }
      else
        world.badPerformers

/-- Nothing to report needs no payload. -/
theorem reportsOnce_nil
    (maxBatchSize : Nat) :
    ReportsOnce maxBatchSize [] [] where
  entries := .refl _
  nonempty := by simp
  bounded := by simp
  describes := by simp

/-- The mark is the root of the tree that is held. -/
theorem markProcessed_badPerformers
    {state : StrikesWorld}
    (held : state.badPerformers.currentStrikesTree = some strikesTree) :
    (markProcessed state).badPerformers =
      { state.badPerformers with
        lastProcessedStrikesTreeRoot := some strikesTree.root } := by
  simp [markProcessed, held]

theorem wp_sendBadPerformanceProofs_reported
    (taken : TakenFrom strikesTree badPerformers)
    (held : world.badPerformers.currentStrikesTree = some strikesTree) :
    wp (callProtocol world)
      (fun number final =>
        Reported config reads strikesTree badPerformers number world final)
      (sendBadPerformanceProofs config reads badPerformers) world := by
  apply wp_sendBadPerformanceProofs held
  case nothing =>
    rintro rfl
    exact
      { limited := by simp
        payloads := ⟨[], by simp, reportsOnce_nil _⟩
        fields := by simp [markProcessed_badPerformers held] }
  case sends =>
    intro someKeys
    have isTake := @withinLimit_eq_take reads badPerformers
    have lengthEq :
        (withinLimit reads badPerformers).length =
          min reads.exitLimitAtSend badPerformers.length := by
      rw [isTake, List.length_take]
      omega
    refine ⟨rfl, fun _ _ => rfl, ?none, ?batches⟩
    case none =>
      intro noneAllowed
      have isZero : min reads.exitLimitAtSend badPerformers.length = 0 := by
        rw [← lengthEq, noneAllowed, List.length_nil]
      have someLength := List.length_pos_iff.mpr someKeys
      exact
        { limited := isZero.symm
          payloads := ⟨[], by simp, by simpa using reportsOnce_nil _⟩
          fields := by rw [if_neg (by omega)] }
    case batches =>
      have takenWithin : TakenFrom strikesTree (withinLimit reads badPerformers) := by
        rw [isTake]
        exact taken.sublist (List.take_sublist _ _)
      apply wp_mono (wp_processBatches_payloads held takenWithin.placed)
      rintro _ state ⟨fields, sent, payloads, areTheirs⟩
      have reports := reportsOnce_of_payloads takenWithin areTheirs
      rw [isTake, ← lengthEq] at reports
      constructor
      · intro allowed
        have stateHeld : state.badPerformers.currentStrikesTree = some strikesTree := by
          rw [fields, held]
        exact
          { limited := lengthEq
            payloads := ⟨sent, by simpa using payloads, reports⟩
            fields := by
              rw [if_pos (by omega), markProcessed_badPerformers stateHeld, fields] }
      · intro limited
        exact
          { limited := lengthEq
            payloads := ⟨sent, payloads, reports⟩
            fields := by rw [if_neg (by omega), fields] }

open StrikesRound

/--
A call over bad performers of the current tree: if it resolves, it has reported
the first of them that the exit limit allows, each once, and has finished with
the tree if these were all; otherwise it has finished with nothing.
-/
theorem batching_exact
    (taken : TakenFrom strikesTree badPerformers)
    (held : world.badPerformers.currentStrikesTree = some strikesTree)
    {script : List (Beat Empty)}
    {program : Async StrikesWorld Nat}
    {final : StrikesWorld}
    (ran :
      run nobodyMoves (sendBadPerformanceProofs config reads badPerformers) script world =
        (program, final)) :
    (∀ number,
      program = .done number →
      Reported config reads strikesTree badPerformers number world final) ∧
    ((∀ number, program ≠ .done number) →
      final.badPerformers = world.badPerformers) := by
  have noMoves (move : Empty) (state : StrikesWorld) :
      (callProtocol world).rely state (nobodyMoves move state) :=
    move.elim
  have established :=
    run_sound alone_stable noMoves
      (@wp_sendBadPerformanceProofs_reported config reads strikesTree badPerformers world
        taken held)
      script
  rw [ran] at established
  cases program with
  | done value =>
      refine ⟨?_, fun unresolved => (unresolved value rfl).elim⟩
      rintro number isDone
      cases isDone
      exact established
  | fail reason =>
      exact ⟨(by intro number isDone; cases isDone), fun _ => established⟩
  | sync update next =>
      exact established.elim
  | await next =>
      exact ⟨(by intro number isDone; cases isDone), fun _ => established⟩

end Call

/-! ## Three of four keys, two at a time -/

/-- Four leaves, of which the last one has no strikes yet. -/
def fourLeaves : StrikesTree where
  root := 6
  leaves :=
    (List.range 4).map fun place =>
      { nodeOperatorId := 1, pubKey := 10 + place, strikesData := [3 - place] }

/-- The key of the leaf at a position of the sample tree. -/
def keyOfFour (place : Nat) : BadPerformer where
  operatorId := 1
  keyIndex := 20 + place
  pubKey := 10 + place
  validatorIndex := 30 + place
  leafIndex := place
  strikesData := [3 - place]

/-- The library proves the leaves in the reverse of the order they are requested in. -/
def reversedReads : StrikesReads :=
  { sampleReads fourLeaves 3 3 with
    multiProofOrder :=
      { order := fun _ leavesIndices => leavesIndices.reverse
        requested := fun _ leavesIndices => leavesIndices.reverse_perm } }

def twoAtATime : Config :=
  { Config.defaults "0x01" 1 with txStrikesPayloadMaxBatchSize := ⟨2, by decide⟩ }

def fourLeavesWorld : StrikesWorld :=
  { StrikesWorld.fresh with
    badPerformers :=
      { BadPerformersFields.initial with currentStrikesTree := some fourLeaves } }

theorem batching_exact_sample :
    ∃ final,
      run StrikesRound.nobodyMoves
          (sendBadPerformanceProofs twoAtATime reversedReads
            ([3, 0, 2, 1].map keyOfFour))
          (List.replicate 8 (.quiet .resolved)) fourLeavesWorld =
        (.done 3, final) ∧
      final.payloads.map (·.keyStrikesList) =
        [[keyStrikesOf (keyOfFour 2), keyStrikesOf (keyOfFour 3)],
          [keyStrikesOf (keyOfFour 0)]] ∧
      Reported twoAtATime reversedReads fourLeaves ([3, 0, 2, 1].map keyOfFour) 3
        fourLeavesWorld final := by
  have taken : TakenFrom fourLeaves ([3, 0, 2, 1].map keyOfFour) :=
    { placed := by simp [IsPlaced, fourLeaves, keyOfFour, BadPerformer.leaf, List.range_succ]
      distinct := by decide
      oneKey := by decide }
  have exactly :=
    @batching_exact twoAtATime reversedReads fourLeaves ([3, 0, 2, 1].map keyOfFour)
      fourLeavesWorld taken rfl (List.replicate 8 (.quiet .resolved)) _ _ rfl
  exact ⟨_, rfl, rfl, exactly.1 3 rfl⟩

end BadPerformers

end CsmProver
