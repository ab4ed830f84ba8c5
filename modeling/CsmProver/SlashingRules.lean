import CsmProver.Types
import Mathlib.Data.List.Basic

namespace CsmProver

/-!
# Who is slashed on the beacon chain

The consensus rules that connect the operations of a block to the validator
registry.  A proposer slashing is valid only against a slashable validator.  An
attester slashing slashes those validators of the intersection of its two
attestations that are slashable at that epoch, and is valid when it slashes one.
The others keep their record.

How the exit queue moves a slashed validator is a parameter.
-/

/-- `is_slashable_validator`. -/
def isSlashableValidator (epoch : Nat) (validator : Validator) : Bool :=
  !validator.slashed &&
    (validator.activationEpoch ≤ (epoch : EpochInf) &&
      (epoch : EpochInf) < validator.withdrawableEpoch)

/-- The validators that signed both attestations. -/
def AttesterSlashing.bothAttested (slashing : AttesterSlashing) : List Nat :=
  slashing.attestation1.attestingIndices.filter fun valIndex =>
    slashing.attestation2.attestingIndices.contains valIndex

/-- The validators that the operations of a block name as offenders. -/
def SupportedBlock.offenders (block : SupportedBlock) : List Nat :=
  block.proposerSlashings.map (·.proposerIndex) ++
    block.attesterSlashings.flatMap (·.bothAttested)

/-- `is_valid_indexed_attestation` without the signature. -/
def IsValidIndexedAttestation (validators : List Validator)
    (attestation : IndexedAttestation) : Prop :=
  attestation.attestingIndices ≠ [] ∧
    attestation.attestingIndices.Pairwise (· < ·) ∧
    ∀ valIndex ∈ attestation.attestingIndices, valIndex < validators.length

instance (validators : List Validator) (attestation : IndexedAttestation) :
    Decidable (IsValidIndexedAttestation validators attestation) :=
  inferInstanceAs (Decidable (_ ∧ _ ∧ _))

section Process

-- The exit and withdrawable epochs that the queue gives to a slashed validator.
variable (exitQueue : List Validator → Nat → EpochInf × EpochInf)

/-- `slash_validator`, as far as it changes the registry. -/
def slashValidator (validators : List Validator) (valIndex : Nat) : List Validator :=
  validators.modify valIndex fun validator =>
    { validator with
      slashed := true
      exitEpoch := (exitQueue validators valIndex).1
      withdrawableEpoch := (exitQueue validators valIndex).2 }

def processProposerSlashing (epoch : Nat) (validators : List Validator)
    (slashing : ProposerSlashing) : Option (List Validator) :=
  match validators[slashing.proposerIndex]? with
  | none => none
  | some proposer =>
      if isSlashableValidator epoch proposer then
        some (slashValidator exitQueue validators slashing.proposerIndex)
      else
        none

/-- One turn of the loop over the intersection; the flag says that someone was slashed. -/
def slashIfSlashable (epoch : Nat) (current : List Validator × Bool) (valIndex : Nat) :
    List Validator × Bool :=
  match current.1[valIndex]? with
  | none => current
  | some validator =>
      if isSlashableValidator epoch validator then
        (slashValidator exitQueue current.1 valIndex, true)
      else
        current

def processAttesterSlashing (epoch : Nat) (validators : List Validator)
    (slashing : AttesterSlashing) : Option (List Validator) :=
  if IsValidIndexedAttestation validators slashing.attestation1 ∧
      IsValidIndexedAttestation validators slashing.attestation2 then
    let (slashed, slashedAny) :=
      slashing.bothAttested.foldl (slashIfSlashable exitQueue epoch) (validators, false)
    if slashedAny then some slashed else none
  else
    none

/-- The slashings of a block: the proposers first, then the attesters. -/
def processSlashings (epoch : Nat) (validators : List Validator)
    (block : SupportedBlock) : Option (List Validator) := do
  let afterProposers ←
    block.proposerSlashings.foldlM (processProposerSlashing exitQueue epoch) validators
  block.attesterSlashings.foldlM (processAttesterSlashing exitQueue epoch) afterProposers

end Process

/-! ## What one operation does to the records -/

/--
The registry after some validators were accused.  A validator is slashed afterwards
when it was before or when it was accused and slashable; who is not slashed keeps
the whole record.
-/
structure Accused (epoch : Nat) (accused : List Nat) (before after : List Validator) :
    Prop where
  length : after.length = before.length
  record :
    ∀ valIndex validator,
      before[valIndex]? = some validator →
      ∃ later,
        after[valIndex]? = some later ∧
        later.pubkey = validator.pubkey ∧
        (later.slashed = true ↔
          validator.slashed = true ∨
            (valIndex ∈ accused ∧ isSlashableValidator epoch validator = true)) ∧
        (later.slashed = false → later = validator)

namespace Accused

variable {epoch : Nat} {first second : List Nat} {before middle after : List Validator}

theorem nobody
    (epoch : Nat)
    (validators : List Validator) :
    Accused epoch [] validators validators where
  length := rfl
  record := by
    intro valIndex validator found
    exact ⟨validator, found, rfl, by simp, fun _ => rfl⟩

/-- A validator slashed by the first part is not slashable for the second. -/
theorem append
    (earlier : Accused epoch first before middle)
    (later : Accused epoch second middle after) :
    Accused epoch (first ++ second) before after where
  length := later.length.trans earlier.length
  record := by
    intro valIndex validator found
    obtain ⟨between, betweenFound, samePubkey, slashedBetween, kept⟩ :=
      earlier.record valIndex validator found
    obtain ⟨final, finalFound, finalPubkey, slashedFinal, finalKept⟩ :=
      later.record valIndex between betweenFound
    refine ⟨final, finalFound, finalPubkey.trans samePubkey, ?slashed, ?unslashed⟩
    case slashed =>
      rw [slashedFinal, List.mem_append]
      cases flag : between.slashed with
      | true =>
          have slashed := slashedBetween.mp flag
          constructor
          · intro _
            rcases slashed with before | ⟨accused, slashable⟩
            · exact .inl before
            · exact .inr ⟨.inl accused, slashable⟩
          · intro _
            exact .inl rfl
      | false =>
          have notSlashed :
              ¬ (validator.slashed = true ∨
                (valIndex ∈ first ∧ isSlashableValidator epoch validator = true)) := by
            rw [← slashedBetween, flag]
            simp
          rw [kept flag]
          constructor
          · rintro (impossible | ⟨accused, slashable⟩)
            · cases impossible
            · exact .inr ⟨.inr accused, slashable⟩
          · rintro (before | ⟨inFirst | inSecond, slashable⟩)
            · exact absurd (.inl before) notSlashed
            · exact absurd (.inr ⟨inFirst, slashable⟩) notSlashed
            · exact .inr ⟨inSecond, slashable⟩
    case unslashed =>
      intro flag
      have sameRecord := finalKept flag
      rw [sameRecord] at flag ⊢
      exact kept flag

/-- Slashing a slashable validator is accusing it alone. -/
theorem slashed
    (exitQueue : List Validator → Nat → EpochInf × EpochInf)
    {validators : List Validator}
    {target : Nat}
    {validator : Validator}
    (found : validators[target]? = some validator)
    (slashable : isSlashableValidator epoch validator = true) :
    Accused epoch [target] validators (slashValidator exitQueue validators target) where
  length := by simp [slashValidator]
  record := by
    intro valIndex other otherFound
    by_cases same : target = valIndex
    · subst same
      rw [found] at otherFound
      cases otherFound
      refine ⟨{ validator with
          slashed := true
          exitEpoch := (exitQueue validators target).1
          withdrawableEpoch := (exitQueue validators target).2 }, ?_, rfl, ?_, ?_⟩
      · simp [slashValidator, found]
      · simp [slashable]
      · simp
    · refine ⟨other, ?_, rfl, ?_, fun _ => rfl⟩
      · simp [slashValidator, same, otherFound]
      · have notTarget : valIndex ≠ target := fun equal => same equal.symm
        simp [notTarget]

/-- Accusing a validator that is not slashable changes nothing. -/
theorem spared
    {validators : List Validator}
    {target : Nat}
    (notSlashable :
      ∀ validator,
        validators[target]? = some validator →
        isSlashableValidator epoch validator = false) :
    Accused epoch [target] validators validators where
  length := rfl
  record := by
    intro valIndex validator found
    refine ⟨validator, found, rfl, ?_, fun _ => rfl⟩
    constructor
    · exact .inl
    · rintro (already | ⟨accused, slashable⟩)
      · exact already
      · rw [List.mem_singleton] at accused
        subst accused
        rw [notSlashable validator found] at slashable
        cases slashable

end Accused

/-! ## What a block does to the records -/

section Block

variable {exitQueue : List Validator → Nat → EpochInf × EpochInf}
variable {epoch : Nat} {validators after : List Validator}

theorem processProposerSlashing_accused
    {slashing : ProposerSlashing}
    (processed :
      processProposerSlashing exitQueue epoch validators slashing = some after) :
    Accused epoch [slashing.proposerIndex] validators after ∧
      ∀ valIndex ∈ [slashing.proposerIndex], valIndex < validators.length := by
  unfold processProposerSlashing at processed
  split at processed
  · cases processed
  · next proposer found =>
    split at processed
    · next slashable =>
      cases processed
      refine ⟨Accused.slashed exitQueue found slashable, fun valIndex member => ?_⟩
      rw [List.mem_singleton.mp member]
      exact (List.getElem?_eq_some_iff.mp found).1
    · cases processed

theorem slashIfSlashable_accused
    (current : List Validator × Bool)
    (valIndex : Nat) :
    Accused epoch [valIndex] current.1
      (slashIfSlashable exitQueue epoch current valIndex).1 := by
  unfold slashIfSlashable
  split
  · next missing =>
    apply Accused.spared
    simp [missing]
  · next validator found =>
    split
    · next slashable =>
      exact Accused.slashed exitQueue found slashable
    · next notSlashable =>
      apply Accused.spared
      intro other otherFound
      rw [found, Option.some.injEq] at otherFound
      subst otherFound
      simpa using notSlashable

/-- The loop over the intersection, by induction on what is left of it. -/
theorem foldl_slashIfSlashable_accused
    (accused : List Nat)
    (current : List Validator × Bool) :
    Accused epoch accused current.1
      (accused.foldl (slashIfSlashable exitQueue epoch) current).1 := by
  induction accused generalizing current with
  | nil =>
      exact Accused.nobody epoch current.1
  | cons valIndex rest inductionHypothesis =>
      exact (slashIfSlashable_accused current valIndex).append
        (inductionHypothesis _)

theorem processAttesterSlashing_accused
    {slashing : AttesterSlashing}
    (processed :
      processAttesterSlashing exitQueue epoch validators slashing = some after) :
    Accused epoch slashing.bothAttested validators after ∧
      ∀ valIndex ∈ slashing.bothAttested, valIndex < validators.length := by
  unfold processAttesterSlashing at processed
  split at processed
  · next valid =>
    simp only at processed
    split at processed
    · cases processed
      constructor
      · exact foldl_slashIfSlashable_accused slashing.bothAttested (validators, false)
      · intro valIndex member
        exact valid.1.2.2 valIndex (List.mem_filter.mp member).1
    · cases processed
  · cases processed

/-- Operations one after the other accuse whom each of them accuses. -/
theorem foldlM_accused
    {ω : Type}
    {process : List Validator → ω → Option (List Validator)}
    {accusedBy : ω → List Nat}
    (step :
      ∀ current operation next,
        process current operation = some next →
        Accused epoch (accusedBy operation) current next ∧
          ∀ valIndex ∈ accusedBy operation, valIndex < current.length)
    (operations : List ω)
    (processed : operations.foldlM process validators = some after) :
    Accused epoch (operations.flatMap accusedBy) validators after ∧
      ∀ valIndex ∈ operations.flatMap accusedBy, valIndex < validators.length := by
  induction operations generalizing validators with
  | nil =>
      cases processed
      exact ⟨Accused.nobody epoch _, by simp⟩
  | cons operation rest inductionHypothesis =>
      rw [List.foldlM_cons] at processed
      obtain ⟨next, first, others⟩ := Option.bind_eq_some_iff.mp processed
      obtain ⟨accused, inside⟩ := step validators operation next first
      obtain ⟨restAccused, restInside⟩ := inductionHypothesis others
      rw [List.flatMap_cons]
      refine ⟨accused.append restAccused, fun valIndex member => ?_⟩
      rcases List.mem_append.mp member with inFirst | inRest
      · exact inside valIndex inFirst
      · rw [← accused.length]
        exact restInside valIndex inRest

/-- The slashings of a valid block slash exactly its slashable offenders. -/
theorem processSlashings_accused
    {block : SupportedBlock}
    (processed : processSlashings exitQueue epoch validators block = some after) :
    Accused epoch block.offenders validators after ∧
      ∀ valIndex ∈ block.offenders, valIndex < validators.length := by
  obtain ⟨afterProposers, proposers, attesters⟩ := Option.bind_eq_some_iff.mp processed
  obtain ⟨accusedFirst, insideFirst⟩ :=
    @foldlM_accused epoch validators afterProposers ProposerSlashing _
      (fun slashing => [slashing.proposerIndex])
      (fun _ _ _ => processProposerSlashing_accused) _ proposers
  obtain ⟨accusedThen, insideThen⟩ :=
    @foldlM_accused epoch afterProposers after AttesterSlashing _ (·.bothAttested)
      (fun _ _ _ => processAttesterSlashing_accused) _ attesters
  have named :
      block.offenders =
        block.proposerSlashings.flatMap (fun slashing => [slashing.proposerIndex]) ++
          block.attesterSlashings.flatMap (·.bothAttested) := by
    rw [SupportedBlock.offenders, List.map_eq_flatMap]
  rw [named]
  refine ⟨accusedFirst.append accusedThen, fun valIndex member => ?_⟩
  rcases List.mem_append.mp member with proposer | attester
  · exact insideFirst valIndex proposer
  · rw [← accusedFirst.length]
    exact insideThen valIndex attester

/-- Who is slashable has not been slashed. -/
theorem unslashed_of_slashable
    {validator : Validator}
    (slashable : isSlashableValidator epoch validator = true) :
    validator.slashed = false := by
  unfold isSlashableValidator at slashable
  rw [Bool.and_eq_true, Bool.not_eq_true'] at slashable
  exact slashable.1

/--
In a valid list of proposer slashings each proposer is slashable from the start: one
that is slashable at its turn has kept its record until then.
-/
theorem slashable_of_proposerSlashings
    {slashings : List ProposerSlashing}
    (processed :
      slashings.foldlM (processProposerSlashing exitQueue epoch) validators = some after)
    {slashing : ProposerSlashing}
    (member : slashing ∈ slashings)
    {validator : Validator}
    (found : validators[slashing.proposerIndex]? = some validator) :
    isSlashableValidator epoch validator = true := by
  induction slashings generalizing validators validator with
  | nil =>
      cases member
  | cons first rest inductionHypothesis =>
      rw [List.foldlM_cons] at processed
      obtain ⟨next, firstProcessed, others⟩ := Option.bind_eq_some_iff.mp processed
      rcases List.mem_cons.mp member with rfl | inRest
      · unfold processProposerSlashing at firstProcessed
        rw [found] at firstProcessed
        simp only at firstProcessed
        split at firstProcessed
        · assumption
        · cases firstProcessed
      · obtain ⟨later, laterFound, _, _, kept⟩ :=
          (processProposerSlashing_accused firstProcessed).1.record _ validator found
        have slashable := inductionHypothesis others inRest laterFound
        rw [kept (unslashed_of_slashable slashable)] at slashable
        exact slashable

end Block

/-! ## Later blocks -/

/-- A change of the registry in which nobody is slashed and nobody is removed. -/
def KeepsRecords (before after : List Validator) : Prop :=
  ∀ (valIndex : Nat) (validator : Validator),
    before[valIndex]? = some validator →
    ∃ later,
      after[valIndex]? = some later ∧
      later.pubkey = validator.pubkey ∧
      later.slashed = validator.slashed

/-- A block with the epoch it lies in and the registry its slashings found. -/
structure ProcessedBlock where
  epoch : Nat
  validators : List Validator
  block : SupportedBlock

/-- The block names the validator as an offender while it is slashable. -/
def ProcessedBlock.Slashes (processed : ProcessedBlock) (valIndex : Nat) : Prop :=
  valIndex ∈ processed.block.offenders ∧
    ∃ validator,
      processed.validators[valIndex]? = some validator ∧
      isSlashableValidator processed.epoch validator = true

/-- The registries a chain goes through after a state, with the blocks on the way. -/
inductive Evolves (exitQueue : List Validator → Nat → EpochInf × EpochInf)
    (first : List Validator) : List ProcessedBlock → List Validator → Prop where
  | start : Evolves exitQueue first [] first
  | change
      {blocks : List ProcessedBlock}
      {middle last : List Validator}
      (earlier : Evolves exitQueue first blocks middle)
      (keeps : KeepsRecords middle last) :
      Evolves exitQueue first blocks last
  | block
      {blocks : List ProcessedBlock}
      {next : ProcessedBlock}
      {last : List Validator}
      (earlier : Evolves exitQueue first blocks next.validators)
      (valid :
        processSlashings exitQueue next.epoch next.validators next.block = some last) :
      Evolves exitQueue first (blocks ++ [next]) last

/-- A validator of a state is slashed later when it was or when a block slashes it. -/
theorem Evolves.slashed
    {exitQueue : List Validator → Nat → EpochInf × EpochInf}
    {first last : List Validator}
    {blocks : List ProcessedBlock}
    (evolves : Evolves exitQueue first blocks last)
    {valIndex : Nat}
    {validator : Validator}
    (found : first[valIndex]? = some validator) :
    ∃ later,
      last[valIndex]? = some later ∧
      later.pubkey = validator.pubkey ∧
      (later.slashed = true ↔
        validator.slashed = true ∨ ∃ block ∈ blocks, block.Slashes valIndex) := by
  induction evolves with
  | start =>
      exact ⟨validator, found, rfl, by simp⟩
  | change earlier keeps inductionHypothesis =>
      obtain ⟨between, betweenFound, samePubkey, slashed⟩ := inductionHypothesis
      obtain ⟨later, laterFound, laterPubkey, laterSlashed⟩ :=
        keeps valIndex between betweenFound
      refine ⟨later, laterFound, laterPubkey.trans samePubkey, ?_⟩
      rw [laterSlashed]
      exact slashed
  | @block blocks next last earlier valid inductionHypothesis =>
      obtain ⟨between, betweenFound, samePubkey, slashed⟩ := inductionHypothesis
      obtain ⟨later, laterFound, laterPubkey, laterSlashed, _⟩ :=
        (processSlashings_accused valid).1.record valIndex between betweenFound
      refine ⟨later, laterFound, laterPubkey.trans samePubkey, ?_⟩
      have slashedHere :
          next.Slashes valIndex ↔
            valIndex ∈ next.block.offenders ∧
              isSlashableValidator next.epoch between = true := by
        simp [ProcessedBlock.Slashes, betweenFound]
      rw [laterSlashed, slashed, ← slashedHere]
      simp only [List.mem_append, List.mem_singleton]
      constructor
      · rintro ((before | ⟨block, member, slashes⟩) | slashes)
        · exact .inl before
        · exact .inr ⟨block, .inl member, slashes⟩
        · exact .inr ⟨next, .inr rfl, slashes⟩
      · rintro (before | ⟨block, member | rfl, slashes⟩)
        · exact .inl (.inl before)
        · exact .inl (.inr ⟨block, member, slashes⟩)
        · exact .inr slashes

end CsmProver
