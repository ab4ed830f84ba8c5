import CsmProver.RootsProcessor

namespace CsmProver

/-!
# What the duties of a block select

The known validators a block involves, under their indices, and the payloads the
workers build for them.  A lookup that gives distinct validators distinct keys
selects each key once, and a worker that returns has a payload for every
validator it does not skip.
-/

open Std (TreeMap)
open MapFolds

/-- Distinct validators have distinct keys. -/
def DistinctKeys (known : Nat → Option KeyInfo) : Prop :=
  ∀ first second firstKey secondKey,
    known first = some firstKey →
    known second = some secondKey →
    firstKey.id = secondKey.id →
    first = second

/-- A lookup in an index with distinct keys gives distinct keys. -/
theorem getKey_distinct
    (config : Config)
    {fields : KeysIndexerFields}
    (distinct : DistinctKeys fun valIndex => fields.storage[valIndex]?) :
    DistinctKeys (KeysIndexer.getKey config fields) := by
  intro first second firstKey secondKey firstKnown secondKnown sameKey
  have inStorage {valIndex : Nat} {keyInfo : KeyInfo}
      (known : KeysIndexer.getKey config fields valIndex = some keyInfo) :
      fields.storage[valIndex]? = some keyInfo :=
    (Option.filter_eq_some_iff.mp known).1
  exact distinct first second firstKey secondKey (inStorage firstKnown)
    (inStorage secondKnown) sameKey

/-- Entries that carry the keys of their indices name each key once. -/
theorem involved_nodup
    {ν : Type}
    {known : Nat → Option KeyInfo}
    (distinct : DistinctKeys known)
    {keyOf : ν → KeyInfo}
    {involved : TreeMap Nat ν}
    (carries :
      ∀ (valIndex : Nat) (value : ν),
        involved[valIndex]? = some value → known valIndex = some (keyOf value)) :
    (involved.toList.map fun entry => (keyOf entry.2).id).Nodup := by
  apply toList_map_nodup fun value => (keyOf value).id
  intro first second firstValue secondValue firstEntry secondEntry sameKey
  exact distinct first second _ _ (carries first firstValue firstEntry)
    (carries second secondValue secondEntry) sameKey

/-! ## Slashings -/

namespace Slashings

section Known

variable {known : Nat → Option KeyInfo} {blockInfo : SupportedBlock}

theorem knownKeys_carries
    (valIndices : List Nat) :
    ∀ valIndex keyInfo,
      (knownKeys known valIndices)[valIndex]? = some keyInfo →
      known valIndex = some keyInfo := by
  unfold knownKeys
  apply foldl_entries
  · intro slashed accused _ carries
    cases found : known accused with
    | none => exact carries
    | some keyInfo => exact insert_entries carries found
  · simp

theorem knownKeys_present
    {valIndices : List Nat}
    {valIndex : Nat}
    (accused : valIndex ∈ valIndices)
    (isKnown : (known valIndex).isSome) :
    (knownKeys known valIndices)[valIndex]?.isSome := by
  obtain ⟨keyInfo, found⟩ := Option.isSome_iff_exists.mp isKnown
  unfold knownKeys
  apply foldl_puts
  · intro slashed other present
    split
    · exact present
    · exact insert_grows slashed other _ present
  · exact accused
  · intro slashed
    simp [found]

theorem getSlashed_carries :
    ∀ valIndex keyInfo,
      (KeysIndexer.assign (getSlashedProposers blockInfo known)
        (getSlashedAttesters blockInfo known))[valIndex]? = some keyInfo →
      known valIndex = some keyInfo :=
  KeysIndexer.assign_entries (knownKeys_carries _) (knownKeys_carries _)

/-- Every known accused validator is selected with its key. -/
theorem mem_getSlashed
    {valIndex : Nat}
    {keyInfo : KeyInfo}
    (accused : valIndex ∈ accusedProposers blockInfo ++ accusedAttesters blockInfo)
    (isKnown : known valIndex = some keyInfo) :
    (valIndex, keyInfo) ∈ getSlashed blockInfo known := by
  have found : (known valIndex).isSome := by simp [isKnown]
  have present :
      (KeysIndexer.assign (getSlashedProposers blockInfo known)
        (getSlashedAttesters blockInfo known))[valIndex]?.isSome := by
    rcases List.mem_append.mp accused with proposer | attester
    · exact KeysIndexer.assign_grows _ (knownKeys_present proposer found)
    · exact KeysIndexer.assign_present _ (knownKeys_present attester found)
  obtain ⟨selected, isSelected⟩ := Option.isSome_iff_exists.mp present
  have carried := getSlashed_carries valIndex selected isSelected
  rw [isKnown, Option.some.injEq] at carried
  rw [getSlashed, TreeMap.mem_toList_iff_getElem?_eq_some, carried]
  exact isSelected

end Known

section Build

variable {state : State} {recentBlock : RecentBlock} {valIndex : Nat}
variable {keyInfo : KeyInfo}

/-- A slashing payload is for the key it was built from. -/
theorem buildSlashingProofPayload_key
    {payload : ProcessSlashedInput}
    (built :
      buildSlashingProofPayload state recentBlock valIndex keyInfo = .ok (some payload)) :
    payload.validator.key = keyInfo.id := by
  unfold buildSlashingProofPayload at built
  cases read : getValidator state valIndex with
  | error reason =>
      rw [read] at built
      cases built
  | ok validator =>
      rw [read] at built
      cases built
      rfl

/-- The slashing worker skips nobody. -/
theorem buildSlashingProofPayload_ne_none :
    buildSlashingProofPayload state recentBlock valIndex keyInfo ≠ .ok none := by
  unfold buildSlashingProofPayload
  cases getValidator state valIndex with
  | error reason =>
      intro built
      cases built
  | ok validator =>
      intro built
      cases built

end Build

end Slashings

/-! ## Withdrawals -/

namespace Withdrawals

section Full

variable {known : Nat → Option KeyInfo} {withdrawals : List Withdrawal}
variable {collected : TreeMap Nat KeyWithWithdrawal} {offset : Nat}

theorem collectFullWithdrawals_carries
    (carries :
      ∀ valIndex entry,
        collected[valIndex]? = some entry → known valIndex = some entry.keyInfo) :
    ∀ valIndex entry,
      (collectFullWithdrawals known offset collected withdrawals)[valIndex]? =
        some entry →
      known valIndex = some entry.keyInfo := by
  induction withdrawals generalizing collected offset with
  | nil =>
      exact carries
  | cons withdrawal rest inductionHypothesis =>
      apply inductionHypothesis
      cases found : known withdrawal.validatorIndex with
      | none => exact carries
      | some keyInfo =>
          by_cases isPartial : withdrawal.amount < FULL_WITHDRAWAL_MIN_AMOUNT
          · simp only [isPartial, if_true]
            exact carries
          · simp only [isPartial, if_false]
            exact insert_entries carries found

theorem collectFullWithdrawals_grows
    {valIndex : Nat}
    (present : collected[valIndex]?.isSome) :
    (collectFullWithdrawals known offset collected withdrawals)[valIndex]?.isSome := by
  induction withdrawals generalizing collected offset with
  | nil =>
      exact present
  | cons withdrawal rest inductionHypothesis =>
      apply inductionHypothesis
      cases known withdrawal.validatorIndex with
      | none => exact present
      | some keyInfo =>
          by_cases isPartial : withdrawal.amount < FULL_WITHDRAWAL_MIN_AMOUNT
          · simp only [isPartial, if_true]
            exact present
          · simp only [isPartial, if_false]
            exact insert_grows collected _ _ present

theorem collectFullWithdrawals_present
    {withdrawal : Withdrawal}
    (member : withdrawal ∈ withdrawals)
    (isKnown : (known withdrawal.validatorIndex).isSome)
    (isFull : FULL_WITHDRAWAL_MIN_AMOUNT ≤ withdrawal.amount) :
    (collectFullWithdrawals known offset collected
      withdrawals)[withdrawal.validatorIndex]?.isSome := by
  induction withdrawals generalizing collected offset with
  | nil =>
      cases member
  | cons first rest inductionHypothesis =>
      rcases List.mem_cons.mp member with rfl | inRest
      · obtain ⟨keyInfo, found⟩ := Option.isSome_iff_exists.mp isKnown
        have notPartial : ¬ withdrawal.amount < FULL_WITHDRAWAL_MIN_AMOUNT := by
          omega
        simp only [collectFullWithdrawals, found, notPartial, if_false]
        apply collectFullWithdrawals_grows
        simp
      · exact inductionHypothesis inRest

/-- Every known validator with a full withdrawal is selected with its key. -/
theorem mem_getFullWithdrawals
    {blockInfo : SupportedBlock}
    {withdrawal : Withdrawal}
    {keyInfo : KeyInfo}
    (member : withdrawal ∈ blockInfo.withdrawals)
    (isKnown : known withdrawal.validatorIndex = some keyInfo)
    (isFull : FULL_WITHDRAWAL_MIN_AMOUNT ≤ withdrawal.amount) :
    ∃ entry ∈ getFullWithdrawals known blockInfo,
      entry.1 = withdrawal.validatorIndex ∧ entry.2.keyInfo = keyInfo := by
  have present :
      (collectFullWithdrawals known 0 ∅
        blockInfo.withdrawals)[withdrawal.validatorIndex]?.isSome :=
    collectFullWithdrawals_present member (by simp [isKnown]) isFull
  obtain ⟨selected, isSelected⟩ := Option.isSome_iff_exists.mp present
  have carried := collectFullWithdrawals_carries (by simp) _ _ isSelected
  refine ⟨(withdrawal.validatorIndex, selected), ?_, rfl, ?_⟩
  · exact TreeMap.mem_toList_iff_getElem?_eq_some.mpr isSelected
  · exact Option.some.inj (carried.symm.trans isKnown)

end Full

section Build

variable {state : State} {epoch valIndex : Nat} {withdrawalBlock : BlockHeaderResponse}
variable {recentBlock : RecentBlock} {involved : KeyWithWithdrawal}

/-- The checks of the withdrawal workers, in their order. -/
theorem buildWithdrawalProofPayload_eq :
    buildWithdrawalProofPayload state epoch withdrawalBlock recentBlock valIndex involved =
      match state.validators[valIndex]? with
      | none => .error .rejected
      | some validator =>
          if validator.pubkey ≠ involved.keyInfo.pubKey then
            .error (.thrown "Validator pubkey mismatch")
          else if validator.slashed ∨ (epoch : EpochInf) < validator.withdrawableEpoch then
            .ok none
          else
            .ok
              (some
                { offset := involved.offset
                  withdrawal := involved.withdrawal
                  validator := validatorPayload valIndex involved.keyInfo validator
                  withdrawalBlock := withdrawalBlock
                  recentBlock := recentBlock }) := by
  unfold buildWithdrawalProofPayload getValidator checkPubkey
  cases state.validators[valIndex]? with
  | none =>
      rfl
  | some validator =>
      by_cases samePubkey : validator.pubkey = involved.keyInfo.pubKey
      · by_cases slashed : validator.slashed = true
        · simp [bind, Except.bind, samePubkey, slashed, pure, Except.pure]
        · by_cases early : (epoch : EpochInf) < validator.withdrawableEpoch
          · simp [bind, Except.bind, samePubkey, slashed, early, pure, Except.pure]
          · simp [bind, Except.bind, samePubkey, slashed, early, pure, Except.pure]
      · simp [bind, Except.bind, samePubkey]

/-- A withdrawal payload is for the key it was built from. -/
theorem buildWithdrawalProofPayload_key
    {payload : ProcessWithdrawalInput}
    (built :
      buildWithdrawalProofPayload state epoch withdrawalBlock recentBlock valIndex involved =
        .ok (some payload)) :
    payload.validator.key = involved.keyInfo.id := by
  rw [buildWithdrawalProofPayload_eq] at built
  cases found : state.validators[valIndex]? with
  | none =>
      simp [found] at built
  | some validator =>
      simp only [found] at built
      split at built
      · cases built
      · split at built
        · cases built
        · cases built
          rfl

/-- The validator was not slashed in the state and is withdrawable at the epoch. -/
def IsDue (state : State) (epoch valIndex : Nat) : Prop :=
  ∃ validator,
    state.validators[valIndex]? = some validator ∧
      ¬ validator.slashed ∧
      validator.withdrawableEpoch ≤ (epoch : EpochInf)

/-- The withdrawal workers do not skip a validator that is due. -/
theorem buildWithdrawalProofPayload_ne_none
    (due : IsDue state epoch valIndex) :
    buildWithdrawalProofPayload state epoch withdrawalBlock recentBlock valIndex involved ≠
      .ok none := by
  obtain ⟨validator, found, unslashed, withdrawable⟩ := due
  rw [buildWithdrawalProofPayload_eq, found]
  have notSkipped :
      ¬ (validator.slashed = true ∨ (epoch : EpochInf) < validator.withdrawableEpoch) := by
    rw [not_or, not_lt]
    exact ⟨unslashed, withdrawable⟩
  simp only [notSkipped, if_false]
  split
  · intro built
    cases built
  · intro built
    cases built

end Build

end Withdrawals

end CsmProver
