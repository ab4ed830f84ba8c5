import CsmProver.PayloadBuilders

namespace CsmProver

/-!
# Whose validator a payload proves

A payload names a validator by its index in the state and a key by its place in the
contract.  Four of the five workers compare the public keys of the two before they
build anything.  The slashing worker does not: its payloads are right exactly when
the indices it was given are.
-/

/-- The validator at the index has the public key of the contract key. -/
def MatchesKey (state : State) (entry : Nat × KeyInfo) : Prop :=
  ∃ validator,
    state.validators[entry.1]? = some validator ∧ validator.pubkey = entry.2.pubKey

/--
Each payload proves the validator of the key it carries, and a worker that is given
a wrong entry returns nothing.
-/
structure RightKeys (state : State) (keys : InvolvedKeys)
    (answer : Except Abort (List ValidatorPayload)) : Prop where
  carried :
    ∀ payloads,
      answer = .ok payloads →
      ∀ payload ∈ payloads, ∃ keyInfo,
        (payload.index, keyInfo) ∈ keys ∧
        payload.key = keyInfo.id ∧
        MatchesKey state (payload.index, keyInfo)
  refused :
    (∃ entry ∈ keys, ¬ MatchesKey state entry) →
    ∃ reason, answer = .error reason

/-! ## Bodies that compare the keys -/

section Compare

variable {ν π ω : Type} {state : State} {keyOf : ν → KeyInfo}
variable {validatorOf : π → ValidatorPayload}
variable {build : Nat → ν → Except Abort (Option π)}

/-- A body that builds a payload for the right key only, and throws for a wrong one. -/
structure ComparesKey (state : State) (keyOf : ν → KeyInfo)
    (validatorOf : π → ValidatorPayload)
    (build : Nat → ν → Except Abort (Option π)) : Prop where
  carries :
    ∀ valIndex involved payload,
      build valIndex involved = .ok (some payload) →
      (validatorOf payload).index = valIndex ∧
        (validatorOf payload).key = (keyOf involved).id
  throws :
    ∀ valIndex involved,
      ¬ MatchesKey state (valIndex, keyOf involved) →
      ∃ reason, build valIndex involved = .error reason

theorem ComparesKey.withWitnesses
    (compares : ComparesKey state keyOf validatorOf build)
    (witnesses : Nat → ν → Except Abort ω) :
    ComparesKey state keyOf (fun pair : π × ω => validatorOf pair.1)
      fun valIndex involved =>
        CsmProver.withWitnesses (build valIndex involved) (witnesses valIndex involved) where
  carries := by
    intro valIndex involved pair built
    exact compares.carries valIndex involved pair.1 (payload_of_withWitnesses built)
  throws := by
    intro valIndex involved wrong
    obtain ⟨reason, thrown⟩ := compares.throws valIndex involved wrong
    exact ⟨reason, by rw [thrown]; rfl⟩

/-- A worker whose body compares the keys is right about all of them. -/
theorem ComparesKey.rightKeys
    (compares : ComparesKey state keyOf validatorOf build)
    (entries : List (Nat × ν)) :
    RightKeys state (entries.map fun entry => (entry.1, keyOf entry.2))
      ((buildPayloads build entries).map (List.map validatorOf)) where
  carried := by
    intro payloads answered payload member
    cases built : buildPayloads build entries with
    | error reason =>
        rw [built] at answered
        cases answered
    | ok all =>
        rw [built] at answered
        cases answered
        obtain ⟨source, isSource, rfl⟩ := List.mem_map.mp member
        obtain ⟨entry, isEntry, entryBuilt⟩ := (mem_buildPayloads_iff built).mp isSource
        obtain ⟨sameIndex, sameKey⟩ :=
          compares.carries entry.1 entry.2 source entryBuilt
        refine ⟨keyOf entry.2, ?_, sameKey, ?_⟩
        · rw [sameIndex]
          exact List.mem_map.mpr ⟨entry, isEntry, rfl⟩
        · rw [sameIndex]
          by_contra wrong
          obtain ⟨reason, thrown⟩ := compares.throws entry.1 entry.2 wrong
          rw [entryBuilt] at thrown
          cases thrown
  refused := by
    rintro ⟨entry, member, wrong⟩
    obtain ⟨source, isSource, rfl⟩ := List.mem_map.mp member
    obtain ⟨reason, thrown⟩ := compares.throws source.1 source.2 wrong
    obtain ⟨other, failed⟩ := buildPayloads_error isSource thrown
    exact ⟨other, by rw [failed]; rfl⟩

/-- The same for a worker that is given the keys themselves. -/
theorem ComparesKey.rightKeys_keys
    {build : Nat → KeyInfo → Except Abort (Option π)}
    (compares : ComparesKey state id validatorOf build)
    (keys : InvolvedKeys) :
    RightKeys state keys ((buildPayloads build keys).map (List.map validatorOf)) := by
  have right := compares.rightKeys keys
  rwa [show keys.map (fun entry => (entry.1, id entry.2)) = keys from List.map_id keys]
    at right

end Compare

/-- Both withdrawal workers compare before they skip. -/
theorem Withdrawals.buildWithdrawalProofPayload_compares
    (state : State)
    (epoch : Nat)
    (withdrawalBlock : BlockHeaderResponse)
    (recentBlock : RecentBlock) :
    ComparesKey state (·.keyInfo) (·.validator)
      (buildWithdrawalProofPayload state epoch withdrawalBlock recentBlock) where
  carries := by
    intro valIndex involved payload built
    refine ⟨?_, buildWithdrawalProofPayload_key built⟩
    rw [buildWithdrawalProofPayload_eq] at built
    split at built
    · cases built
    · split at built
      · cases built
      · split at built
        · cases built
        · cases built
          rfl
  throws := by
    intro valIndex involved wrong
    rw [buildWithdrawalProofPayload_eq]
    split
    · exact ⟨_, rfl⟩
    · next validator found =>
      have mismatch : validator.pubkey ≠ involved.keyInfo.pubKey :=
        fun same => wrong ⟨validator, found, same⟩
      exact ⟨_, if_pos mismatch⟩

/-- The checks of the balance workers, in their order. -/
theorem Balances.buildBalanceProofPayload_eq
    {state : State}
    {balanceBlock : BlockHeaderResponse}
    {recentBlock : RecentBlock}
    {valIndex : Nat}
    {keyInfo : KeyInfo} :
    buildBalanceProofPayload state balanceBlock recentBlock valIndex keyInfo =
      match state.validators[valIndex]? with
      | none => .error .rejected
      | some validator =>
          if validator.pubkey ≠ keyInfo.pubKey then
            .error (.thrown "Validator pubkey mismatch")
          else
            .ok
              (some
                { validator := validatorPayload valIndex keyInfo validator
                  balance := state.balances[valIndex]?.getD 0
                  balanceBlock := balanceBlock
                  recentBlock := recentBlock }) := by
  unfold buildBalanceProofPayload getValidator checkPubkey
  cases state.validators[valIndex]? with
  | none =>
      rfl
  | some validator =>
      by_cases samePubkey : validator.pubkey = keyInfo.pubKey
      · simp [bind, Except.bind, samePubkey, pure, Except.pure]
      · simp [bind, Except.bind, samePubkey]

theorem Balances.buildBalanceProofPayload_compares
    (state : State)
    (balanceBlock : BlockHeaderResponse)
    (recentBlock : RecentBlock) :
    ComparesKey state id (·.validator)
      (buildBalanceProofPayload state balanceBlock recentBlock) where
  carries := by
    intro valIndex keyInfo payload built
    rw [buildBalanceProofPayload_eq] at built
    split at built
    · cases built
    · split at built
      · cases built
      · cases built
        exact ⟨rfl, rfl⟩
  throws := by
    intro valIndex keyInfo wrong
    rw [buildBalanceProofPayload_eq]
    split
    · exact ⟨_, rfl⟩
    · next validator found =>
      have mismatch : validator.pubkey ≠ keyInfo.pubKey :=
        fun same => wrong ⟨validator, found, same⟩
      exact ⟨_, if_pos mismatch⟩

/-! ## The workers -/

/-- What a worker is started with. -/
inductive WorkerData (α : Type) where
  | slashingProofs (state : State) (recentBlock : RecentBlock) (stateView : StateView α)
      (slashings : InvolvedKeys)
  | generalWithdrawalProofs (state : State) (epoch : Nat)
      (withdrawalBlock : BlockHeaderResponse) (recentBlock : RecentBlock)
      (stateView : StateView α) (currentBlockView : BlockView α)
      (withdrawals : List (Nat × Withdrawals.KeyWithWithdrawal))
  | historicalWithdrawalProofs (state : State) (epoch : Nat)
      (withdrawalBlock : BlockHeaderResponse) (recentBlock : RecentBlock)
      (stateWithWdsView : StateView α) (blockWithWdsView : BlockView α)
      (views : HistoricalViews α)
      (withdrawals : List (Nat × Withdrawals.KeyWithWithdrawal))
  | balanceProofs (state : State) (currentHeader : BlockHeaderResponse)
      (recentBlock : RecentBlock) (stateView : StateView α) (keys : InvolvedKeys)
  | historicalBalanceProofs (state : State) (balanceBlock : BlockHeaderResponse)
      (recentBlock : RecentBlock) (stateWithBalancesView : StateView α)
      (views : HistoricalViews α) (keys : InvolvedKeys)

namespace WorkerData

variable {α : Type}

/-- The state in which the validators are proved. -/
def state : WorkerData α → State
  | slashingProofs state _ _ _ => state
  | generalWithdrawalProofs state _ _ _ _ _ _ => state
  | historicalWithdrawalProofs state _ _ _ _ _ _ _ => state
  | balanceProofs state _ _ _ _ => state
  | historicalBalanceProofs state _ _ _ _ _ => state

def stateView : WorkerData α → StateView α
  | slashingProofs _ _ stateView _ => stateView
  | generalWithdrawalProofs _ _ _ _ stateView _ _ => stateView
  | historicalWithdrawalProofs _ _ _ _ stateView _ _ _ => stateView
  | balanceProofs _ _ _ stateView _ => stateView
  | historicalBalanceProofs _ _ _ stateView _ _ => stateView

/-- The keys under their validator indices. -/
def keys : WorkerData α → InvolvedKeys
  | slashingProofs _ _ _ slashings => slashings
  | generalWithdrawalProofs _ _ _ _ _ _ withdrawals =>
      withdrawals.map fun entry => (entry.1, entry.2.keyInfo)
  | historicalWithdrawalProofs _ _ _ _ _ _ _ withdrawals =>
      withdrawals.map fun entry => (entry.1, entry.2.keyInfo)
  | balanceProofs _ _ _ _ keys => keys
  | historicalBalanceProofs _ _ _ _ _ keys => keys

def IsSlashing : WorkerData α → Prop
  | slashingProofs _ _ _ _ => True
  | _ => False

section Answer

variable [DecidableEq α] (hash : α → α → α) (library : PersistentMerkleTree α)

/-- The validator parts of the payloads the worker returns. -/
def answer : WorkerData α → Except Abort (List ValidatorPayload)
  | slashingProofs state recentBlock stateView slashings =>
      (buildSlashingProofPayloads hash library state recentBlock stateView slashings).map
        (List.map fun payload => payload.1.validator)
  | generalWithdrawalProofs state epoch withdrawalBlock recentBlock stateView
      currentBlockView withdrawals =>
      (buildGeneralWithdrawalsProofPayloads hash library state epoch withdrawalBlock
        recentBlock stateView currentBlockView withdrawals).map
        (List.map fun payload => payload.1.validator)
  | historicalWithdrawalProofs state epoch withdrawalBlock recentBlock stateWithWdsView
      blockWithWdsView views withdrawals =>
      (buildHistoricalWithdrawalsProofPayloads hash library state epoch withdrawalBlock
        recentBlock stateWithWdsView blockWithWdsView views withdrawals).map
        (List.map fun payload => payload.1.validator)
  | balanceProofs state currentHeader recentBlock stateView keys =>
      (buildBalanceProofPayloads hash library state currentHeader recentBlock stateView
        keys).map
        (List.map fun payload => payload.1.validator)
  | historicalBalanceProofs state balanceBlock recentBlock stateWithBalancesView views
      keys =>
      (buildHistoricalBalanceProofPayloads hash library state balanceBlock recentBlock
        stateWithBalancesView views keys).map
        (List.map fun payload => payload.1.validator)

end Answer

end WorkerData

section Workers

variable {α : Type} [DecidableEq α] {hash : α → α → α} {library : PersistentMerkleTree α}

/-- A worker that compares the keys is right for all data. -/
theorem rightKeys_of_comparing
    {data : WorkerData α}
    (comparing : ¬ data.IsSlashing) :
    RightKeys data.state data.keys (data.answer hash library) := by
  cases data with
  | slashingProofs state recentBlock stateView slashings =>
      exact absurd trivial comparing
  | generalWithdrawalProofs state epoch withdrawalBlock recentBlock stateView blockView
      withdrawals =>
      exact
        ((Withdrawals.buildWithdrawalProofPayload_compares state epoch withdrawalBlock
          recentBlock).withWitnesses _).rightKeys withdrawals
  | historicalWithdrawalProofs state epoch withdrawalBlock recentBlock stateView blockView
      views withdrawals =>
      exact
        ((Withdrawals.buildWithdrawalProofPayload_compares state epoch withdrawalBlock
          recentBlock).withWitnesses _).rightKeys withdrawals
  | balanceProofs state currentHeader recentBlock stateView keys =>
      exact
        ((Balances.buildBalanceProofPayload_compares state currentHeader
          recentBlock).withWitnesses _).rightKeys_keys keys
  | historicalBalanceProofs state balanceBlock recentBlock stateView views keys =>
      -- Without a valid historical proof the worker fails before its loop.
      have failed {reason : Abort} :
          RightKeys state keys (.error reason) :=
        { carried := fun _ answered => by cases answered
          refused := fun _ => ⟨reason, rfl⟩ }
      simp only [WorkerData.answer, buildHistoricalBalanceProofPayloads]
      cases generated : views.generateProof library with
      | error reason =>
          exact failed
      | ok historicalStateProof =>
          cases verified : views.verify hash historicalStateProof with
          | error reason =>
              simp only [Bind.bind, Except.bind, verified]
              exact failed
          | ok _ =>
              simp only [Bind.bind, Except.bind, verified]
              exact
                ((Balances.buildBalanceProofPayload_compares state balanceBlock
                  recentBlock).withWitnesses _).rightKeys_keys keys

section Slashing

variable {stateView : StateView α} {state : State} {recentBlock : RecentBlock}
variable {slashings : InvolvedKeys}

/-- The slashing worker returns a payload for every entry inside the state. -/
theorem slashing_answer
    (documented : library.Documented hash)
    (injective : Function.Injective2 hash)
    (shows : stateView.ShowsValidators hash state)
    (inside : ∀ entry ∈ slashings, entry.1 < state.validators.length) :
    ∃ validators,
      (WorkerData.slashingProofs state recentBlock stateView slashings).answer hash
        library = .ok validators := by
  obtain ⟨payloads, built, _⟩ :=
    buildSlashingProofPayloads_ok documented injective shows inside
  exact ⟨_, by rw [WorkerData.answer, built]; rfl⟩

/-- What the slashing worker returns carries the entries as they were given. -/
theorem slashing_carried
    {validators : List ValidatorPayload}
    (answered :
      (WorkerData.slashingProofs state recentBlock stateView slashings).answer hash
        library = .ok validators)
    {payload : ValidatorPayload}
    (member : payload ∈ validators) :
    ∃ keyInfo, (payload.index, keyInfo) ∈ slashings ∧ payload.key = keyInfo.id := by
  rw [WorkerData.answer] at answered
  cases built :
      buildSlashingProofPayloads hash library state recentBlock stateView slashings with
  | error reason =>
      rw [built] at answered
      cases answered
  | ok payloads =>
      rw [built] at answered
      cases answered
      obtain ⟨source, isSource, rfl⟩ := List.mem_map.mp member
      obtain ⟨entry, isEntry, entryBuilt⟩ := (mem_buildPayloads_iff built).mp isSource
      obtain ⟨record, found, isRecord⟩ :=
        Slashings.buildSlashingProofPayload_eq_ok_iff.mp
          (payload_of_withWitnesses entryBuilt)
      rw [isRecord]
      exact ⟨entry.2, isEntry, rfl⟩

/-- An index outside the state makes the slashing worker fail. -/
theorem slashing_fails
    {entry : Nat × KeyInfo}
    (member : entry ∈ slashings)
    (outside : state.validators.length ≤ entry.1) :
    ∃ reason,
      (WorkerData.slashingProofs state recentBlock stateView slashings).answer hash
        library = .error reason := by
  have unread : state.validators[entry.1]? = none := List.getElem?_eq_none outside
  have failed :
      ∃ reason,
        buildSlashingProofPayloads hash library state recentBlock stateView slashings =
          .error reason := by
    apply buildPayloads_error member
    rw [Slashings.buildSlashingProofPayload, getValidator, unread]
    rfl
  obtain ⟨reason, failed⟩ := failed
  exact ⟨reason, by rw [WorkerData.answer, failed]; rfl⟩

theorem rightKeys_slashing_iff
    (documented : library.Documented hash)
    (injective : Function.Injective2 hash)
    (shows : stateView.ShowsValidators hash state) :
    RightKeys state slashings
        ((WorkerData.slashingProofs state recentBlock stateView slashings).answer hash
          library) ↔
      (∃ entry ∈ slashings, state.validators.length ≤ entry.1) ∨
        ∀ entry ∈ slashings, MatchesKey state entry := by
  constructor
  · intro right
    rw [or_iff_not_imp_left]
    intro noneOutside entry member
    by_contra wrong
    have inside : ∀ other ∈ slashings, other.1 < state.validators.length := by
      intro other isOther
      by_contra outside
      exact noneOutside ⟨other, isOther, Nat.le_of_not_lt outside⟩
    obtain ⟨reason, failed⟩ := right.refused ⟨entry, member, wrong⟩
    obtain ⟨validators, answered⟩ := slashing_answer documented injective shows inside
    rw [answered] at failed
    cases failed
  · rintro (⟨entry, member, outside⟩ | allMatch)
    · obtain ⟨reason, failed⟩ :
          ∃ reason,
            (WorkerData.slashingProofs state recentBlock stateView slashings).answer hash
              library = .error reason :=
        slashing_fails member outside
      rw [failed]
      exact
        { carried := fun _ answered => by cases answered
          refused := fun _ => ⟨reason, rfl⟩ }
    · constructor
      · intro validators answered payload isPayload
        obtain ⟨keyInfo, isEntry, sameKey⟩ := slashing_carried answered isPayload
        exact ⟨keyInfo, isEntry, sameKey, allMatch _ isEntry⟩
      · rintro ⟨entry, member, wrong⟩
        exact absurd (allMatch entry member) wrong

end Slashing

/--
A worker is right about the keys exactly when it is not the slashing worker, or
fails on an index outside the state, or was given no wrong entry.
-/
theorem rightKeys_iff
    (documented : library.Documented hash)
    (injective : Function.Injective2 hash)
    (data : WorkerData α)
    (shows : data.IsSlashing → data.stateView.ShowsValidators hash data.state) :
    RightKeys data.state data.keys (data.answer hash library) ↔
      ¬ data.IsSlashing ∨
        (∃ entry ∈ data.keys, data.state.validators.length ≤ entry.1) ∨
        ∀ entry ∈ data.keys, MatchesKey data.state entry := by
  by_cases slashing : data.IsSlashing
  · cases data with
    | slashingProofs state recentBlock stateView slashings =>
        have exactly : RightKeys state slashings _ ↔ _ :=
          @rightKeys_slashing_iff α _ hash library stateView state recentBlock slashings
            documented injective (shows trivial)
        simp only [slashing, not_true_eq_false, false_or]
        exact exactly
    | generalWithdrawalProofs => exact slashing.elim
    | historicalWithdrawalProofs => exact slashing.elim
    | balanceProofs => exact slashing.elim
    | historicalBalanceProofs => exact slashing.elim
  · exact ⟨fun _ => .inl slashing, fun _ => rightKeys_of_comparing slashing⟩

end Workers

/-! ## A mistyped validator index -/

namespace ProveCommand

/-- The lookup of the command line: one validator index with the selected key. -/
def keyInfoFn (validatorIndex : Nat) (selected : KeyInfo) (valIndex : Nat) :
    Option KeyInfo :=
  if valIndex = validatorIndex then some selected else none

end ProveCommand

/-- The key that was selected by its operator and its place. -/
def selectedKey : KeyInfo where
  operatorId := 4
  keyIndex := 0
  pubKey := 70

/-- A block that slashes the validator next to the one of the selected key. -/
def neighbourSlashed : SupportedBlock where
  slot := 320
  parentRoot := 9
  blockHash := 0
  withdrawals := []
  proposerSlashings := [{ proposerIndex := 1 }]
  attesterSlashings := []

def twoRecords : State where
  validators := [sampleRecord 70 ⊤, sampleRecord 71 ⊤]
  balances := []

/-- The slashing worker with the selected key under a given index. -/
def selectedUnder (validatorIndex : Nat) : WorkerData Nat :=
  .slashingProofs twoRecords sampleRecentBlock twoRecordsView
    [(validatorIndex, selectedKey)]

/-- Under its own index the worker is right about the selected key. -/
theorem rightKeys_iff_sample :
    RightKeys twoRecords [(0, selectedKey)]
      ((selectedUnder 0).answer Nat.pair (PersistentMerkleTree.reference Nat.pair)) := by
  apply
    (rightKeys_iff (PersistentMerkleTree.reference_documented Nat.pair) pair_injective
      (selectedUnder 0) fun _ => twoRecordsView_shows rfl).mpr
  refine .inr (.inr fun entry member => ?_)
  rw [List.mem_singleton.mp member]
  exact ⟨_, rfl, rfl⟩

/-- Under the neighbour's index its slashing is reported against the selected key. -/
theorem slashing_reported_for_other_key :
    Slashings.getSlashed neighbourSlashed (ProveCommand.keyInfoFn 1 selectedKey) =
        [(1, selectedKey)] ∧
    (∃ payload,
      (selectedUnder 1).answer Nat.pair (PersistentMerkleTree.reference Nat.pair) =
        .ok [payload] ∧
      payload.index = 1 ∧
      payload.key = selectedKey.id ∧
      payload.object.pubkey ≠ selectedKey.pubKey) ∧
    ¬ RightKeys twoRecords [(1, selectedKey)]
      ((selectedUnder 1).answer Nat.pair (PersistentMerkleTree.reference Nat.pair)) := by
  refine ⟨rfl, ⟨_, rfl, rfl, rfl, by decide⟩, ?_⟩
  intro right
  have wrong : ¬ MatchesKey twoRecords (1, selectedKey) := by
    rintro ⟨validator, found, same⟩
    cases found
    cases same
  obtain ⟨reason, failed⟩ := right.refused ⟨_, List.mem_singleton_self _, wrong⟩
  cases failed

end CsmProver
