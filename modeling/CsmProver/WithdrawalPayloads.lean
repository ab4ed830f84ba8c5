import CsmProver.PayloadKeys
import CsmProver.UnprovenKeys

namespace CsmProver

/-!
# Which withdrawals are reported

The duty collects the full withdrawals of a block, a later one of a validator
overwriting an earlier one, and drops the keys the contract knows as withdrawn.  The
workers drop slashed validators and partial withdrawals.  What is left is exactly
the last full withdrawal of each validator that has to be reported, and the general
and the historical worker agree on it.
-/

open Std (TreeMap)
open Async

namespace Withdrawals

/-! ## Full withdrawals of a block -/

/-- A withdrawal of a validator that is large enough to be a full one. -/
def IsFullOf (valIndex : Nat) (withdrawal : Withdrawal) : Prop :=
  withdrawal.validatorIndex = valIndex ∧ FULL_WITHDRAWAL_MIN_AMOUNT ≤ withdrawal.amount

instance (valIndex : Nat) (withdrawal : Withdrawal) :
    Decidable (IsFullOf valIndex withdrawal) :=
  inferInstanceAs (Decidable (_ ∧ _))

/-- The withdrawal at a position is the last full one of its validator. -/
structure IsLastFull (withdrawals : List Withdrawal) (valIndex offset : Nat)
    (withdrawal : Withdrawal) : Prop where
  found : withdrawals[offset]? = some withdrawal
  full : IsFullOf valIndex withdrawal
  last :
    ∀ later other,
      offset < later → withdrawals[later]? = some other → ¬ IsFullOf valIndex other

/-- The entry of a validator: the last of its full withdrawals, if the lookup knows it. -/
def lastFull (known : Nat → Option KeyInfo) (valIndex offset : Nat) :
    List Withdrawal → Option KeyWithWithdrawal
  | [] => none
  | withdrawal :: rest =>
      (lastFull known valIndex (offset + 1) rest).or
        (if IsFullOf valIndex withdrawal then
          (known valIndex).map fun keyInfo =>
            { keyInfo := keyInfo, withdrawal := withdrawal, offset := offset }
        else
          none)

section Collect

variable {known : Nat → Option KeyInfo} {valIndex : Nat} {entry : KeyWithWithdrawal}

/-- The loop overwrites: what it collects for a validator is the last entry it meets. -/
theorem collectFullWithdrawals_getElem?
    (offset : Nat)
    (collected : TreeMap Nat KeyWithWithdrawal)
    (withdrawals : List Withdrawal) :
    (collectFullWithdrawals known offset collected withdrawals)[valIndex]? =
      (lastFull known valIndex offset withdrawals).or collected[valIndex]? := by
  induction withdrawals generalizing offset collected with
  | nil =>
      rfl
  | cons withdrawal rest inductionHypothesis =>
      simp only [collectFullWithdrawals, inductionHypothesis, lastFull, Option.or_assoc]
      congr 1
      by_cases ofValidator : withdrawal.validatorIndex = valIndex
      · subst ofValidator
        cases known withdrawal.validatorIndex with
        | none => simp
        | some keyInfo =>
            by_cases isPartial : withdrawal.amount < FULL_WITHDRAWAL_MIN_AMOUNT
            · have notFull : ¬ IsFullOf withdrawal.validatorIndex withdrawal :=
                fun full => Nat.not_le_of_lt isPartial full.2
              simp [isPartial, notFull]
            · have full : IsFullOf withdrawal.validatorIndex withdrawal :=
                ⟨rfl, Nat.le_of_not_lt isPartial⟩
              simp [isPartial, full]
      · have notFull : ¬ IsFullOf valIndex withdrawal := fun full => ofValidator full.1
        simp only [notFull, if_false, Option.none_or]
        cases known withdrawal.validatorIndex with
        | none => rfl
        | some keyInfo =>
            by_cases isPartial : withdrawal.amount < FULL_WITHDRAWAL_MIN_AMOUNT
            · simp [isPartial]
            · simp [isPartial, TreeMap.getElem?_insert, ofValidator]

theorem isLastFull_cons_succ
    {first withdrawal : Withdrawal}
    {rest : List Withdrawal}
    {position : Nat} :
    IsLastFull (first :: rest) valIndex (position + 1) withdrawal ↔
      IsLastFull rest valIndex position withdrawal := by
  constructor
  · intro isLast
    exact
      { found := isLast.found
        full := isLast.full
        last := fun later other below => isLast.last (later + 1) other (by omega) }
  · intro isLast
    refine ⟨isLast.found, isLast.full, fun later other below found => ?_⟩
    obtain ⟨before, rfl⟩ : ∃ before, later = before + 1 := ⟨later - 1, by omega⟩
    exact isLast.last before other (by omega) found

theorem isLastFull_cons_zero
    {first withdrawal : Withdrawal}
    {rest : List Withdrawal} :
    IsLastFull (first :: rest) valIndex 0 withdrawal ↔
      first = withdrawal ∧ IsFullOf valIndex first ∧
        ∀ other ∈ rest, ¬ IsFullOf valIndex other := by
  constructor
  · intro isLast
    have same : first = withdrawal := Option.some.inj isLast.found
    refine ⟨same, same ▸ isLast.full, fun other member => ?_⟩
    obtain ⟨position, found⟩ := List.getElem?_of_mem member
    exact isLast.last (position + 1) other (by omega) found
  · rintro ⟨rfl, full, noneLater⟩
    refine ⟨rfl, full, fun later other below found => ?_⟩
    obtain ⟨before, rfl⟩ : ∃ before, later = before + 1 := ⟨later - 1, by omega⟩
    exact noneLater other (List.mem_of_getElem? found)

/-- A known validator has no entry when none of the withdrawals is a full one of it. -/
theorem lastFull_eq_none_iff
    {offset : Nat}
    {withdrawals : List Withdrawal} :
    lastFull known valIndex offset withdrawals = none ↔
      known valIndex = none ∨ ∀ other ∈ withdrawals, ¬ IsFullOf valIndex other := by
  induction withdrawals generalizing offset with
  | nil =>
      simp [lastFull]
  | cons withdrawal rest inductionHypothesis =>
      rw [lastFull, Option.or_eq_none_iff, inductionHypothesis]
      by_cases full : IsFullOf valIndex withdrawal
      · simp only [full, if_true, Option.map_eq_none_iff, List.forall_mem_cons,
          not_true_eq_false, false_and, or_false]
        exact ⟨And.right, fun unknown => ⟨.inl unknown, unknown⟩⟩
      · simp [full]

theorem lastFull_eq_some_iff
    {offset : Nat}
    {withdrawals : List Withdrawal} :
    lastFull known valIndex offset withdrawals = some entry ↔
      known valIndex = some entry.keyInfo ∧
        ∃ position,
          entry.offset = offset + position ∧
          IsLastFull withdrawals valIndex position entry.withdrawal := by
  induction withdrawals generalizing offset with
  | nil =>
      constructor
      · intro impossible
        cases impossible
      · rintro ⟨_, position, _, isLast⟩
        have found := isLast.found
        cases found
  | cons withdrawal rest inductionHypothesis =>
      rw [lastFull, Option.or_eq_some_iff, inductionHypothesis, lastFull_eq_none_iff]
      constructor
      · rintro (⟨isKnown, position, isOffset, isLast⟩ | ⟨noneLater, isFirst⟩)
        · exact ⟨isKnown, position + 1, by omega, isLastFull_cons_succ.mpr isLast⟩
        · split at isFirst
          · next full =>
            obtain ⟨keyInfo, isKnown, rfl⟩ := Option.map_eq_some_iff.mp isFirst
            rcases noneLater with unknown | noneLater
            · rw [unknown] at isKnown
              cases isKnown
            · exact ⟨isKnown, 0, rfl, isLastFull_cons_zero.mpr ⟨rfl, full, noneLater⟩⟩
          · cases isFirst
      · rintro ⟨isKnown, position, isOffset, isLast⟩
        cases position with
        | zero =>
            obtain ⟨same, full, noneLater⟩ := isLastFull_cons_zero.mp isLast
            refine .inr ⟨.inr noneLater, ?_⟩
            rw [if_pos full, isKnown, Option.map_some, same]
            cases entry
            simp_all
        | succ before =>
            exact .inl ⟨isKnown, before, by omega, isLastFull_cons_succ.mp isLast⟩

/-- The entries of a block: each known validator with the last of its full withdrawals. -/
theorem mem_getFullWithdrawals_iff
    {block : SupportedBlock} :
    (valIndex, entry) ∈ getFullWithdrawals known block ↔
      known valIndex = some entry.keyInfo ∧
        IsLastFull block.withdrawals valIndex entry.offset entry.withdrawal := by
  rw [getFullWithdrawals, TreeMap.mem_toList_iff_getElem?_eq_some,
    collectFullWithdrawals_getElem?]
  simp [lastFull_eq_some_iff]

/-- A validator with a full withdrawal in the block has a last one. -/
theorem exists_isLastFull
    {withdrawals : List Withdrawal}
    {withdrawal : Withdrawal}
    (member : withdrawal ∈ withdrawals)
    (full : IsFullOf valIndex withdrawal) :
    ∃ offset last, IsLastFull withdrawals valIndex offset last := by
  let lookup : Nat → Option KeyInfo := fun _ => some ⟨0, 0, 0⟩
  cases found : lastFull lookup valIndex 0 withdrawals with
  | none =>
      rcases lastFull_eq_none_iff.mp found with unknown | noFull
      · cases unknown
      · exact absurd full (noFull withdrawal member)
  | some entry =>
      obtain ⟨_, position, _, isLast⟩ := lastFull_eq_some_iff.mp found
      exact ⟨position, entry.withdrawal, isLast⟩

end Collect

/-- The candidates are in the order of their indices. -/
theorem getFullWithdrawals_increasing
    (known : Nat → Option KeyInfo)
    (block : SupportedBlock) :
    ((getFullWithdrawals known block).map (·.1)).Pairwise (· < ·) := by
  have ordered :
      (getFullWithdrawals known block).Pairwise fun lower higher =>
        compare lower.1 higher.1 = .lt :=
    TreeMap.ordered_keys_toList
  rw [List.pairwise_map]
  exact ordered.imp Nat.compare_eq_lt.mp

/-! ## Selected validators -/

/-- The validators a withdrawal has to be reported for. -/
structure Reportable (block : SupportedBlock) (state : State) (epoch : Nat)
    (known : Nat → Option KeyInfo) (proved : KeyId → Bool) (valIndex : Nat) : Prop where
  unproved : ∃ keyInfo, known valIndex = some keyInfo ∧ proved keyInfo.id = false
  withdrawn : ∃ withdrawal ∈ block.withdrawals, IsFullOf valIndex withdrawal
  due : IsDue state epoch valIndex

/--
The payloads of a block.  Proofs may be mined between two reads of the contract: who
is reported was unproved at the start, and who is unproved at the end is reported.
-/
structure ReportsExactly (block : SupportedBlock) (state : State) (epoch : Nat)
    (known : Nat → Option KeyInfo) (provedBefore provedAfter : KeyId → Bool)
    (payloads : List ProcessWithdrawalInput) : Prop where
  selected :
    ∀ payload ∈ payloads,
      Reportable block state epoch known provedBefore payload.validator.index
  covered :
    ∀ valIndex,
      Reportable block state epoch known provedAfter valIndex →
      ∃ payload ∈ payloads, payload.validator.index = valIndex
  last :
    ∀ payload ∈ payloads,
      IsLastFull block.withdrawals payload.validator.index payload.offset
        payload.withdrawal
  ascending : (payloads.map (·.validator.index)).Pairwise (· < ·)

/-- With one set of proved keys the reported validators are exactly the reportable ones. -/
theorem ReportsExactly.iff
    {block : SupportedBlock}
    {state : State}
    {epoch : Nat}
    {known : Nat → Option KeyInfo}
    {proved : KeyId → Bool}
    {payloads : List ProcessWithdrawalInput}
    (exactly : ReportsExactly block state epoch known proved proved payloads)
    (valIndex : Nat) :
    (∃ payload ∈ payloads, payload.validator.index = valIndex) ↔
      Reportable block state epoch known proved valIndex := by
  constructor
  · rintro ⟨payload, member, rfl⟩
    exact exactly.selected payload member
  · exact exactly.covered valIndex

section Payloads

variable {state : State} {epoch : Nat} {withdrawalBlock : BlockHeaderResponse}
variable {recentBlock : RecentBlock}

/-- The body of the withdrawal workers builds for a matching validator that is due. -/
theorem buildWithdrawalProofPayload_eq_some_iff
    {valIndex : Nat}
    {involved : KeyWithWithdrawal}
    {payload : ProcessWithdrawalInput} :
    buildWithdrawalProofPayload state epoch withdrawalBlock recentBlock valIndex involved =
        .ok (some payload) ↔
      ∃ validator,
        state.validators[valIndex]? = some validator ∧
        validator.pubkey = involved.keyInfo.pubKey ∧
        ¬ validator.slashed ∧
        validator.withdrawableEpoch ≤ (epoch : EpochInf) ∧
        payload =
          { offset := involved.offset
            withdrawal := involved.withdrawal
            validator := validatorPayload valIndex involved.keyInfo validator
            withdrawalBlock := withdrawalBlock
            recentBlock := recentBlock } := by
  rw [buildWithdrawalProofPayload_eq]
  cases state.validators[valIndex]? with
  | none =>
      simp
  | some validator =>
      by_cases samePubkey : validator.pubkey = involved.keyInfo.pubKey
      · by_cases skipped :
            validator.slashed ∨ (epoch : EpochInf) < validator.withdrawableEpoch
        · simp only [samePubkey, skipped, ne_eq, not_true_eq_false, if_false, if_true,
            Except.ok.injEq, reduceCtorEq, false_iff]
          rintro ⟨other, found, _, unslashed, withdrawable, _⟩
          cases found
          exact skipped.elim unslashed (not_lt_of_ge withdrawable)
        · obtain ⟨unslashed, notEarly⟩ := not_or.mp skipped
          simp only [samePubkey, ne_eq, not_true_eq_false, if_false]
          rw [if_neg skipped, Except.ok.injEq, Option.some.injEq]
          constructor
          · rintro rfl
            exact ⟨validator, rfl, samePubkey, unslashed, le_of_not_gt notEarly, rfl⟩
          · rintro ⟨other, found, _, _, _, isPayload⟩
            cases found
            exact isPayload.symm
      · simp only [ne_eq, samePubkey, not_false_eq_true, if_true, reduceCtorEq, false_iff]
        rintro ⟨other, found, same, _⟩
        cases found
        exact samePubkey same

variable {block : SupportedBlock} {known : Nat → Option KeyInfo} {world final : World}
variable {withdrawals : List (Nat × KeyWithWithdrawal)}
variable {payloads : List ProcessWithdrawalInput}

open UnprovenKeys

/-- A worker that returns has a payload for each entry that is due. -/
theorem exists_payload_of_due
    (built :
      buildPayloads
        (buildWithdrawalProofPayload state epoch withdrawalBlock recentBlock)
        withdrawals = .ok payloads)
    {entry : Nat × KeyWithWithdrawal}
    (member : entry ∈ withdrawals)
    (due : IsDue state epoch entry.1) :
    ∃ payload ∈ payloads, payload.validator.index = entry.1 := by
  obtain ⟨result, entryBuilt⟩ := (buildPayloads_eq_ok_iff.mp built).1 entry member
  cases result with
  | none =>
      exact absurd entryBuilt (buildWithdrawalProofPayload_ne_none due)
  | some payload =>
      refine ⟨payload, (mem_buildPayloads_iff built).mpr ⟨entry, member, entryBuilt⟩, ?_⟩
      obtain ⟨_, _, _, _, _, rfl⟩ := buildWithdrawalProofPayload_eq_some_iff.mp entryBuilt
      rfl

/-- What a worker returns for the entries the duty has kept. -/
theorem reportsExactly_of_built
    (kept :
      Unproven .withdrawal (·.keyInfo) (getFullWithdrawals known block) world withdrawals
        final)
    (built :
      buildPayloads
        (buildWithdrawalProofPayload state epoch withdrawalBlock recentBlock)
        withdrawals = .ok payloads) :
    ReportsExactly block state epoch known (world.stakingModule.proved .withdrawal)
      (final.stakingModule.proved .withdrawal) payloads := by
  have entryOf :
      ∀ payload ∈ payloads, ∃ entry ∈ withdrawals, ∃ validator,
        state.validators[entry.1]? = some validator ∧
        ¬ validator.slashed ∧
        validator.withdrawableEpoch ≤ (epoch : EpochInf) ∧
        payload.validator.index = entry.1 ∧
        payload.offset = entry.2.offset ∧
        payload.withdrawal = entry.2.withdrawal := by
    intro payload member
    obtain ⟨entry, isEntry, entryBuilt⟩ := (mem_buildPayloads_iff built).mp member
    obtain ⟨validator, found, _, unslashed, withdrawable, rfl⟩ :=
      buildWithdrawalProofPayload_eq_some_iff.mp entryBuilt
    exact ⟨entry, isEntry, validator, found, unslashed, withdrawable, rfl, rfl, rfl⟩
  constructor
  case selected =>
    intro payload member
    obtain ⟨entry, isEntry, validator, found, unslashed, withdrawable, index, _⟩ :=
      entryOf payload member
    obtain ⟨isKnown, isLast⟩ :=
      mem_getFullWithdrawals_iff.mp (kept.sublist.subset isEntry)
    rw [index]
    exact
      { unproved := ⟨_, isKnown, kept.fresh entry isEntry⟩
        withdrawn := ⟨_, List.mem_of_getElem? isLast.found, isLast.full⟩
        due := ⟨validator, found, unslashed, withdrawable⟩ }
  case covered =>
    rintro valIndex ⟨⟨keyInfo, isKnown, unproved⟩, ⟨withdrawal, member, full⟩, due⟩
    obtain ⟨offset, last, isLast⟩ := exists_isLastFull member full
    have isEntry :
        (valIndex,
          ({ keyInfo := keyInfo, withdrawal := last, offset := offset } :
            KeyWithWithdrawal)) ∈ getFullWithdrawals known block :=
      mem_getFullWithdrawals_iff.mpr ⟨isKnown, isLast⟩
    rcases kept.covered _ isEntry with unproven | proved
    · exact exists_payload_of_due built unproven due
    · rw [unproved] at proved
      cases proved
  case last =>
    intro payload member
    obtain ⟨entry, isEntry, _, _, _, _, index, offset, withdrawal⟩ :=
      entryOf payload member
    rw [index, offset, withdrawal]
    exact (mem_getFullWithdrawals_iff.mp (kept.sublist.subset isEntry)).2
  case ascending =>
    have increasing := getFullWithdrawals_increasing known block
    have sublist : (payloads.map (·.validator.index)).Sublist (withdrawals.map (·.1)) := by
      apply buildPayloads_sublist _ built
      intro entry payload entryBuilt
      obtain ⟨_, _, _, _, _, rfl⟩ := buildWithdrawalProofPayload_eq_some_iff.mp entryBuilt
      rfl
    exact increasing.sublist (sublist.trans (kept.sublist.map _))

end Payloads

/-! ## The two workers -/

section Workers

variable {α : Type} [DecidableEq α] {hash : α → α → α} {library : PersistentMerkleTree α}
variable {state : State} {epoch : Nat}
variable {withdrawalBlock historicalWithdrawalBlock : BlockHeaderResponse}
variable {recentBlock historicalRecentBlock : RecentBlock}
variable {stateView : StateView α} {blockView : BlockView α} {views : HistoricalViews α}
variable {withdrawals : List (Nat × KeyWithWithdrawal)}

/-- A withdrawal and a validator with their witnesses. -/
structure WithdrawalPart (α : Type) where
  offset : Nat
  withdrawal : Withdrawal
  withdrawalProof : List α
  validator : ValidatorPayload
  validatorProof : List α
  deriving DecidableEq

/-- What a payload has in common on the two paths. -/
def withdrawalPart (pair : ProcessWithdrawalInput × WithdrawalWitnesses α) :
    WithdrawalPart α where
  offset := pair.1.offset
  withdrawal := pair.1.withdrawal
  withdrawalProof := pair.2.withdrawal
  validator := pair.1.validator
  validatorProof := pair.2.validator

/-- A worker that returns with witnesses returns its payloads without them. -/
theorem buildPayloads_of_withWitnesses
    {ν π ω : Type}
    {build : Nat → ν → Except Abort (Option π)}
    {witnesses : Nat → ν → Except Abort ω}
    {entries : List (Nat × ν)}
    {pairs : List (π × ω)}
    (built :
      buildPayloads
        (fun valIndex involved =>
          withWitnesses (build valIndex involved) (witnesses valIndex involved))
        entries = .ok pairs) :
    buildPayloads build entries = .ok (pairs.map (·.1)) := by
  have agree :
      (buildPayloads
          (fun valIndex involved =>
            withWitnesses (build valIndex involved) (witnesses valIndex involved))
          entries).map (List.map (·.1)) =
        (buildPayloads build entries).map (List.map id) := by
    apply buildPayloads_map_congr
    intro entry member
    obtain ⟨result, entryBuilt⟩ := (buildPayloads_eq_ok_iff.mp built).1 entry member
    cases payload : build entry.1 entry.2 with
    | error reason =>
        rw [payload] at entryBuilt
        cases entryBuilt
    | ok value =>
        cases value with
        | none => rfl
        | some value =>
            cases generated : witnesses entry.1 entry.2 with
            | error reason =>
                rw [payload, generated] at entryBuilt
                cases entryBuilt
            | ok found => rfl
  rw [built] at agree
  cases plain : buildPayloads build entries with
  | error reason =>
      rw [plain] at agree
      cases agree
  | ok payloads =>
      rw [plain] at agree
      simp only [Except.map, List.map_id, Except.ok.injEq] at agree
      rw [agree]

/-- The proofs of the validators that are reported are generated and verified. -/
def ProofsVerify (hash : α → α → α) (library : PersistentMerkleTree α) (state : State)
    (epoch : Nat) (stateView : StateView α) (blockView : BlockView α)
    (views : HistoricalViews α) (withdrawals : List (Nat × KeyWithWithdrawal)) : Prop :=
  ∀ entry ∈ withdrawals,
    IsDue state epoch entry.1 →
    ∃ witnesses,
      historicalWithdrawalWitnesses hash library stateView blockView views entry.1
        entry.2.offset = .ok witnesses

/-- The bodies of the two workers differ in the headers they attach only. -/
theorem buildWithdrawalProofPayload_headers
    (block otherBlock : BlockHeaderResponse)
    (recent otherRecent : RecentBlock)
    (valIndex : Nat)
    (involved : KeyWithWithdrawal) :
    buildWithdrawalProofPayload state epoch otherBlock otherRecent valIndex involved =
      (buildWithdrawalProofPayload state epoch block recent valIndex involved).map
        (Option.map fun payload =>
          { payload with withdrawalBlock := otherBlock, recentBlock := otherRecent }) := by
  simp only [buildWithdrawalProofPayload_eq]
  split
  · rfl
  · split
    · rfl
    · split <;> rfl

/-- The bodies of the two workers agree on one entry. -/
theorem withdrawal_bodies_agree
    (verify :
      ProofsVerify hash library state epoch stateView blockView views withdrawals)
    {entry : Nat × KeyWithWithdrawal}
    (member : entry ∈ withdrawals) :
    (withWitnesses
        (buildWithdrawalProofPayload state epoch withdrawalBlock recentBlock entry.1
          entry.2)
        (generalWithdrawalWitnesses hash library stateView blockView entry.1
          entry.2.offset)).map (Option.map withdrawalPart) =
      (withWitnesses
        (buildWithdrawalProofPayload state epoch historicalWithdrawalBlock
          historicalRecentBlock entry.1 entry.2)
        (historicalWithdrawalWitnesses hash library stateView blockView views entry.1
          entry.2.offset)).map (Option.map withdrawalPart) := by
  have headers :=
    @buildWithdrawalProofPayload_headers state epoch withdrawalBlock
      historicalWithdrawalBlock recentBlock historicalRecentBlock entry.1 entry.2
  by_cases due : IsDue state epoch entry.1
  · obtain ⟨witnesses, historical⟩ := verify entry member due
    have general := (checks_of_historical historical).1
    rw [historical, general, withWitnesses_ok, withWitnesses_ok, headers]
    cases buildWithdrawalProofPayload state epoch withdrawalBlock recentBlock entry.1
        entry.2 with
    | error reason =>
        rfl
    | ok result =>
        cases result with
        | none => rfl
        | some payload => rfl
  · -- A validator that is not due is skipped or refused without any proof.
    have nothing
        (block : BlockHeaderResponse)
        (recent : RecentBlock) :
        ∀ payload,
          buildWithdrawalProofPayload state epoch block recent entry.1 entry.2 ≠
            .ok (some payload) := by
      intro payload built
      obtain ⟨validator, found, _, unslashed, withdrawable, _⟩ :=
        buildWithdrawalProofPayload_eq_some_iff.mp built
      exact due ⟨validator, found, unslashed, withdrawable⟩
    rw [withWitnesses_of_no_payload (nothing _ _),
      withWitnesses_of_no_payload (nothing _ _), headers]
    cases buildWithdrawalProofPayload state epoch withdrawalBlock recentBlock entry.1
        entry.2 <;> rfl

/-- With valid proofs a worker returns unless a candidate does not match its key. -/
theorem general_returns_iff
    (verify :
      ProofsVerify hash library state epoch stateView blockView views withdrawals) :
    (∃ pairs,
      buildGeneralWithdrawalsProofPayloads hash library state epoch withdrawalBlock
        recentBlock stateView blockView withdrawals = .ok pairs) ↔
      ∀ entry ∈ withdrawals, MatchesKey state (entry.1, entry.2.keyInfo) := by
  have compares :=
    buildWithdrawalProofPayload_compares state epoch withdrawalBlock recentBlock
  constructor
  · rintro ⟨pairs, built⟩ entry member
    by_contra wrong
    obtain ⟨reason, thrown⟩ := compares.throws entry.1 entry.2 wrong
    obtain ⟨result, succeeded⟩ :=
      (buildPayloads_eq_ok_iff.mp (buildPayloads_of_withWitnesses built)).1 entry member
    rw [thrown] at succeeded
    cases succeeded
  · intro allMatch
    refine ⟨_, buildPayloads_eq_ok_iff.mpr ⟨fun entry member => ?_, rfl⟩⟩
    obtain ⟨validator, found, samePubkey⟩ := allMatch entry member
    cases built :
        buildWithdrawalProofPayload state epoch withdrawalBlock recentBlock entry.1
          entry.2 with
    | error reason =>
        rw [buildWithdrawalProofPayload_eq, found] at built
        simp only [samePubkey, ne_eq, not_true_eq_false, if_false] at built
        split at built <;> cases built
    | ok result =>
        cases result with
        | none => exact ⟨none, rfl⟩
        | some payload =>
            obtain ⟨other, otherFound, _, unslashed, withdrawable, _⟩ :=
              buildWithdrawalProofPayload_eq_some_iff.mp built
            obtain ⟨witnesses, historical⟩ :=
              verify entry member ⟨other, otherFound, unslashed, withdrawable⟩
            rw [(checks_of_historical historical).1, withWitnesses_ok]
            exact ⟨_, rfl⟩

variable {ι : Type} {act : ι → World → World} {script : List (Beat ι)}
variable {world final : World} {block : SupportedBlock} {keyInfoFn : KeyInfoFn}

open UnprovenKeys

/--
Either worker reports exactly the last full withdrawals of the reportable validators,
in the order of their indices.  With valid proofs both return the same withdrawal and
validator parts, or fail with the same error, and they fail exactly on a candidate
that does not match its key.
-/
theorem withdrawal_payloads_exact
    (flags : ∀ move current, FlagsKept current (act move current))
    (ran :
      run act (getUnprovenWithdrawals block keyInfoFn) script world =
        (.done withdrawals, final)) :
    (∀ pairs,
      buildGeneralWithdrawalsProofPayloads hash library state epoch withdrawalBlock
        recentBlock stateView blockView withdrawals = .ok pairs →
      ReportsExactly block state epoch (keyInfoFn world)
        (world.stakingModule.proved .withdrawal) (final.stakingModule.proved .withdrawal)
        (pairs.map (·.1))) ∧
    (∀ pairs,
      buildHistoricalWithdrawalsProofPayloads hash library state epoch
        historicalWithdrawalBlock historicalRecentBlock stateView blockView views
        withdrawals = .ok pairs →
      ReportsExactly block state epoch (keyInfoFn world)
        (world.stakingModule.proved .withdrawal) (final.stakingModule.proved .withdrawal)
        (pairs.map (·.1))) ∧
    (ProofsVerify hash library state epoch stateView blockView views withdrawals →
      (buildGeneralWithdrawalsProofPayloads hash library state epoch withdrawalBlock
          recentBlock stateView blockView withdrawals).map (List.map withdrawalPart) =
        (buildHistoricalWithdrawalsProofPayloads hash library state epoch
          historicalWithdrawalBlock historicalRecentBlock stateView blockView views
          withdrawals).map (List.map withdrawalPart) ∧
      ((∃ pairs,
        buildGeneralWithdrawalsProofPayloads hash library state epoch withdrawalBlock
          recentBlock stateView blockView withdrawals = .ok pairs) ↔
        ∀ entry ∈ withdrawals, MatchesKey state (entry.1, entry.2.keyInfo))) := by
  have kept :
      Unproven .withdrawal (·.keyInfo) (getFullWithdrawals (keyInfoFn world) block) world
        withdrawals final :=
    getUnprovenWithdrawals_run flags ran
  refine ⟨?general, ?historical, ?agree⟩
  case general =>
    intro pairs built
    exact reportsExactly_of_built kept (buildPayloads_of_withWitnesses built)
  case historical =>
    intro pairs built
    exact reportsExactly_of_built kept (buildPayloads_of_withWitnesses built)
  case agree =>
    intro verify
    exact ⟨buildPayloads_map_congr fun entry member => withdrawal_bodies_agree verify member,
      general_returns_iff verify⟩

end Workers

/-! ## A block with two full withdrawals of one validator -/

def sampleWithdrawal (valIndex amount : Nat) : Withdrawal where
  index := 0
  validatorIndex := valIndex
  address := 0
  amount := amount

/-- The first validator leaves with two withdrawals, the second one is swept. -/
def twiceWithdrawn : SupportedBlock where
  slot := 320
  parentRoot := 9
  blockHash := 0
  withdrawals :=
    [sampleWithdrawal 0 (32 * 10 ^ 9), sampleWithdrawal 1 (10 ^ 7),
      sampleWithdrawal 0 (9 * 10 ^ 9)]
  proposerSlashings := []
  attesterSlashings := []

def twiceWithdrawnLookup : KeyInfoFn :=
  fun _ valIndex => some { operatorId := 4, keyIndex := valIndex, pubKey := 70 + valIndex }

def twiceWithdrawnState : State where
  validators := [sampleRecord 70 (5 : Nat), sampleRecord 71 ⊤]
  balances := [0, 32000000000]

/-- The withdrawals of the block as a tree of four leaves. -/
def sampleBlockView : BlockView Nat where
  withdrawals :=
    { node := .fork (.fork (.leaf 1) (.leaf 2)) (.fork (.leaf 3) (.leaf 0))
      getPropertyGindex := fun offset => 4 + offset
      gindex_pos := fun offset => Nat.le_add_right_of_le (by decide) }

/-- A state that commits to the two records and to the withdrawals of the block. -/
def sampleStateView : StateView Nat :=
  { twoRecordsView with
    node :=
      .fork (.fork (.leaf 10) (.leaf 11))
        (.leaf (Nat.pair (Nat.pair 1 2) (Nat.pair 3 0)))
    validatorGindex := fun valIndex => 4 + valIndex
    withdrawalsRootGindex := 3
    withdrawalsRootGindex_pos := by decide }

theorem withdrawal_payloads_exact_sample :
    ∃ withdrawals final pairs,
      run (fun (_ : Unit) => id)
          (getUnprovenWithdrawals twiceWithdrawn twiceWithdrawnLookup) [.quiet .resolved]
          (World.blank sampleBlockHeader) =
        (.done withdrawals, final) ∧
      buildGeneralWithdrawalsProofPayloads Nat.pair (PersistentMerkleTree.reference Nat.pair)
          twiceWithdrawnState 10 sampleBlockHeader sampleRecentBlock sampleStateView
          sampleBlockView withdrawals =
        .ok pairs ∧
      pairs.map (·.1.offset) = [2] ∧
      ReportsExactly twiceWithdrawn twiceWithdrawnState 10
        (twiceWithdrawnLookup (World.blank sampleBlockHeader)) (fun _ => false)
        (fun _ => false) (pairs.map (·.1)) := by
  have exactly :=
    @withdrawal_payloads_exact Nat _ Nat.pair (PersistentMerkleTree.reference Nat.pair)
      twiceWithdrawnState 10 sampleBlockHeader sampleBlockHeader sampleRecentBlock
      sampleRecentBlock sampleStateView sampleBlockView
      { finalizedStateView := sampleStateView
        summaryStateView := sampleStateView
        summaryIndex := 0
        rootIndexInSummary := 0 }
      _ Unit (fun _ => id) [.quiet .resolved] (World.blank sampleBlockHeader) _
      twiceWithdrawn twiceWithdrawnLookup (fun _ current => UnprovenKeys.FlagsKept.refl current)
      rfl
  exact ⟨_, _, _, rfl, rfl, rfl, exactly.1 _ rfl⟩

end Withdrawals

end CsmProver
