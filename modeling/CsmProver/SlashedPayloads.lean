import CsmProver.PayloadBuilders
import CsmProver.SlashingRules
import CsmProver.UnprovenKeys

namespace CsmProver

/-!
# Who is submitted as slashed

The slashing duty takes its validators from the operations of a block and proves
their records in the finalized state.  A proposer that a valid block accuses is
slashed by it.  An attester may be spared, and the worker reports it nevertheless:
its payload is right exactly when the validator was slashed by another block, or
by this one.
-/

open Async
open MerkleTree

namespace Slashings

open UnprovenKeys

/-! ## Offenders and records -/

/-- The keys of the duty are known keys of offenders. -/
theorem offender_of_mem_getSlashed
    {block : SupportedBlock}
    {known : Nat → Option KeyInfo}
    {entry : Nat × KeyInfo}
    (member : entry ∈ getSlashed block known) :
    entry.1 ∈ block.offenders ∧ known entry.1 = some entry.2 := by
  have isEntry := Std.TreeMap.mem_toList_iff_getElem?_eq_some.mp member
  constructor
  · have named {valIndices : List Nat} :
        ∀ valIndex keyInfo,
          (knownKeys known valIndices)[valIndex]? = some keyInfo →
          valIndex ∈ valIndices := by
      unfold knownKeys
      apply MapFolds.foldl_entries
      · intro slashed accused isAccused entries
        cases known accused with
        | none => exact entries
        | some keyInfo => exact MapFolds.insert_entries entries isAccused
      · simp
    have offenders :
        ∀ valIndex keyInfo,
          (KeysIndexer.assign (getSlashedProposers block known)
            (getSlashedAttesters block known))[valIndex]? = some keyInfo →
          valIndex ∈ accusedProposers block ++ accusedAttesters block := by
      apply KeysIndexer.assign_entries
      · intro valIndex keyInfo found
        exact List.mem_append_left _ (named valIndex keyInfo found)
      · intro valIndex keyInfo found
        exact List.mem_append_right _ (named valIndex keyInfo found)
    exact offenders entry.1 entry.2 isEntry
  · exact getSlashed_carries entry.1 entry.2 isEntry

section Chain

variable {exitQueue : List Validator → Nat → EpochInf × EpochInf}
variable {processed : ProcessedBlock} {after : List Validator}
variable {history : List ProcessedBlock} {state : State}

/-- The record of an offender in the finalized state. -/
theorem record_of_offender
    (valid :
      processSlashings exitQueue processed.epoch processed.validators processed.block =
        some after)
    (finalized : Evolves exitQueue after history state.validators)
    {valIndex : Nat}
    (offender : valIndex ∈ processed.block.offenders) :
    ∃ validator record,
      processed.validators[valIndex]? = some validator ∧
      state.validators[valIndex]? = some record ∧
      (record.slashed = true ↔
        validator.slashed = true ∨
          isSlashableValidator processed.epoch validator = true ∨
          ∃ later ∈ history, later.Slashes valIndex) := by
  obtain ⟨accused, inside⟩ := processSlashings_accused valid
  have found := List.getElem?_eq_getElem (inside valIndex offender)
  obtain ⟨next, nextFound, _, slashedHere, _⟩ := accused.record valIndex _ found
  obtain ⟨record, recordFound, _, slashedLater⟩ := finalized.slashed nextFound
  refine ⟨_, record, found, recordFound, ?_⟩
  rw [slashedLater, slashedHere]
  simp only [offender, true_and, or_assoc]

/-- An accused proposer of a valid block is slashable when the block is processed. -/
theorem proposer_slashable
    (valid :
      processSlashings exitQueue processed.epoch processed.validators processed.block =
        some after)
    {valIndex : Nat}
    (proposer : valIndex ∈ accusedProposers processed.block)
    {validator : Validator}
    (found : processed.validators[valIndex]? = some validator) :
    isSlashableValidator processed.epoch validator = true := by
  obtain ⟨slashing, member, rfl⟩ := List.mem_map.mp proposer
  obtain ⟨_, proposers, _⟩ := Option.bind_eq_some_iff.mp valid
  exact slashable_of_proposerSlashings proposers member found

end Chain

/-! ## Payloads -/

section Submit

variable {α : Type} [DecidableEq α] {hash : α → α → α} {library : PersistentMerkleTree α}
variable {stateView : StateView α} {state : State} {recentBlock : RecentBlock}

variable {exitQueue : List Validator → Nat → EpochInf × EpochInf}
variable {processed : ProcessedBlock} {after : List Validator}
variable {history : List ProcessedBlock}
variable {ι : Type} {act : ι → World → World} {world : World} {keyInfoFn : KeyInfoFn}

/-- Undisturbed, the duty submits each known offender without a proof, and its record. -/
theorem exists_submitted
    (documented : library.Documented hash)
    (injective : Function.Injective2 hash)
    (shows : stateView.ShowsValidators hash state)
    (valid :
      processSlashings exitQueue processed.epoch processed.validators processed.block =
        some after)
    (finalized : Evolves exitQueue after history state.validators)
    {valIndex : Nat}
    (offender : valIndex ∈ processed.block.offenders)
    {keyInfo : KeyInfo}
    (isKnown : keyInfoFn world valIndex = some keyInfo)
    (unproved : world.stakingModule.proved .slashing keyInfo.id = false)
    {record : Validator}
    (recordFound : state.validators[valIndex]? = some record) :
    ∃ script unproven final payloads,
      run act (getUnprovenSlashings processed.block keyInfoFn) script world =
        (.done unproven, final) ∧
      buildSlashingProofPayloads hash library state recentBlock stateView unproven =
        .ok payloads ∧
      ∃ payload ∈ payloads, payload.1.validator.object = record := by
  obtain ⟨script, ran⟩ :=
    exists_run_finish act (getUnprovenSlashings processed.block keyInfoFn) world
  obtain ⟨final, finished⟩ :
      ∃ final,
        finish (getUnprovenSlashings processed.block keyInfoFn) world =
          (.ok
            ((getSlashed processed.block (keyInfoFn world)).filter fun entry =>
              !world.stakingModule.proved .slashing entry.2.id),
            final) :=
    ⟨_, Prod.ext finish_getUnprovenSlashings rfl⟩
  rw [finished] at ran
  have inside :
      ∀ entry ∈ (getSlashed processed.block (keyInfoFn world)).filter fun entry =>
          !world.stakingModule.proved .slashing entry.2.id,
        entry.1 < state.validators.length := by
    intro entry member
    have other := offender_of_mem_getSlashed (List.mem_filter.mp member).1
    obtain ⟨_, otherRecord, _, otherFound, _⟩ :=
      record_of_offender valid finalized other.1
    exact (List.getElem?_eq_some_iff.mp otherFound).1
  obtain ⟨payloads, built, covers⟩ :=
    buildSlashingProofPayloads_ok documented injective shows inside
  have selected :
      (valIndex, keyInfo) ∈
        (getSlashed processed.block (keyInfoFn world)).filter fun entry =>
          !world.stakingModule.proved .slashing entry.2.id := by
    rw [List.mem_filter]
    exact ⟨mem_getSlashed offender isKnown, by simp [unproved]⟩
  obtain ⟨payload, isPayload, isValidator⟩ :=
    covers (valIndex, keyInfo) selected record recordFound
  exact
    ⟨script, _, final, payloads, ran, built, payload, isPayload, by rw [isValidator]; rfl⟩

/-- Whatever else is mined, a payload carries the record of a known, unproved offender. -/
theorem offender_of_submitted
    (flags : ∀ move current, FlagsKept current (act move current))
    {script : List (Beat ι)}
    {unproven : List (Nat × KeyInfo)}
    {final : World}
    (ran :
      run act (getUnprovenSlashings processed.block keyInfoFn) script world =
        (.done unproven, final))
    {payloads : List (ProcessSlashedInput × List α)}
    (built :
      buildSlashingProofPayloads hash library state recentBlock stateView unproven =
        .ok payloads)
    {payload : ProcessSlashedInput × List α}
    (isPayload : payload ∈ payloads) :
    ∃ valIndex keyInfo,
      valIndex ∈ processed.block.offenders ∧
      keyInfoFn world valIndex = some keyInfo ∧
      world.stakingModule.proved .slashing keyInfo.id = false ∧
      state.validators[valIndex]? = some payload.1.validator.object := by
  have kept := getUnprovenSlashings_run flags ran
  obtain ⟨entry, member, entryBuilt⟩ := (mem_buildPayloads_iff built).mp isPayload
  obtain ⟨record, recordFound, isRecord⟩ :=
    buildSlashingProofPayload_eq_ok_iff.mp (payload_of_withWitnesses entryBuilt)
  obtain ⟨offender, isKnown⟩ :=
    offender_of_mem_getSlashed (kept.sublist.subset member)
  rw [isRecord]
  exact ⟨entry.1, entry.2, offender, isKnown, kept.fresh entry member, recordFound⟩

/--
Every submitted validator is slashed in the finalized state exactly when each
attester the block accuses, if the lookup knows it and the contract has no proof of
it, was slashed before the block, slashable in it, or slashed by a later block.
-/
theorem submitted_slashed_iff
    (documented : library.Documented hash)
    (injective : Function.Injective2 hash)
    (shows : stateView.ShowsValidators hash state)
    (valid :
      processSlashings exitQueue processed.epoch processed.validators processed.block =
        some after)
    (finalized : Evolves exitQueue after history state.validators)
    (flags : ∀ move current, FlagsKept current (act move current)) :
    (∀ script unproven final payloads,
      run act (getUnprovenSlashings processed.block keyInfoFn) script world =
        (.done unproven, final) →
      buildSlashingProofPayloads hash library state recentBlock stateView unproven =
        .ok payloads →
      ∀ payload ∈ payloads, payload.1.validator.object.slashed = true) ↔
    ∀ valIndex ∈ accusedAttesters processed.block, ∀ keyInfo validator,
      keyInfoFn world valIndex = some keyInfo →
      world.stakingModule.proved .slashing keyInfo.id = false →
      processed.validators[valIndex]? = some validator →
      validator.slashed = true ∨
        isSlashableValidator processed.epoch validator = true ∨
        ∃ later ∈ history, later.Slashes valIndex := by
  constructor
  · intro submitted valIndex attester keyInfo validator isKnown unproved found
    have offender : valIndex ∈ processed.block.offenders :=
      List.mem_append_right _ attester
    obtain ⟨start, record, startFound, recordFound, slashed⟩ :=
      record_of_offender valid finalized offender
    rw [found, Option.some.injEq] at startFound
    subst startFound
    obtain ⟨script, unproven, final, payloads, ran, built, payload, isPayload, object⟩ :=
      exists_submitted documented injective shows valid finalized offender isKnown
        unproved recordFound
    have isSlashed := submitted script unproven final payloads ran built payload isPayload
    rw [object] at isSlashed
    exact slashed.mp isSlashed
  · intro condition script unproven final payloads ran built payload isPayload
    obtain ⟨valIndex, keyInfo, offender, isKnown, unproved, recordFound⟩ :=
      offender_of_submitted flags ran built isPayload
    obtain ⟨validator, record, startFound, foundRecord, slashed⟩ :=
      record_of_offender valid finalized offender
    rw [recordFound, Option.some.injEq] at foundRecord
    subst foundRecord
    apply slashed.mpr
    rcases List.mem_append.mp offender with proposer | attester
    · exact .inr (.inl (proposer_slashable valid proposer startFound))
    · exact condition valIndex attester keyInfo validator isKnown unproved startFound

end Submit

/-! ## An attester that is spared -/

def sampleQueue (_ : List Validator) (_ : Nat) : EpochInf × EpochInf :=
  (12, 8202)

/-- Both validators signed twice; the second one has been withdrawable since epoch 5. -/
def doubleVotes : ProcessedBlock where
  epoch := 10
  validators := [sampleRecord 70 ⊤, sampleRecord 71 5]
  block :=
    { slot := 320
      parentRoot := 9
      blockHash := 0
      withdrawals := []
      proposerSlashings := []
      attesterSlashings :=
        [{ attestation1 := { attestingIndices := [0, 1] }
           attestation2 := { attestingIndices := [0, 1] } }] }

/-- The registry after the block: only the first one is slashed. -/
def doubleVotesState : State where
  validators :=
    [{ sampleRecord 70 ⊤ with
         slashed := true
         exitEpoch := 12
         withdrawableEpoch := 8202 },
      sampleRecord 71 5]
  balances := [32 * 10 ^ 9, 0]

theorem doubleVotes_valid :
    processSlashings sampleQueue doubleVotes.epoch doubleVotes.validators
      doubleVotes.block = some doubleVotesState.validators := by
  decide +kernel

/-- A lookup that knows the keys of the given validators. -/
def sampleLookup (valIndices : List Nat) : KeyInfoFn :=
  fun _ valIndex =>
    if valIndex ∈ valIndices then
      some { operatorId := 4, keyIndex := valIndex, pubKey := 70 + valIndex }
    else
      none

/-- Where the first validator alone is known, something is submitted and all of it is slashed. -/
theorem submitted_slashed_iff_sample :
    (∃ script unproven final payloads,
      run (fun (_ : Unit) => id)
          (getUnprovenSlashings doubleVotes.block (sampleLookup [0])) script
          (World.blank sampleBlockHeader) =
        (.done unproven, final) ∧
      buildSlashingProofPayloads Nat.pair (PersistentMerkleTree.reference Nat.pair)
          doubleVotesState sampleRecentBlock twoRecordsView unproven =
        .ok payloads ∧
      payloads.length = 1) ∧
    ∀ script unproven final payloads,
      run (fun (_ : Unit) => id)
          (getUnprovenSlashings doubleVotes.block (sampleLookup [0])) script
          (World.blank sampleBlockHeader) =
        (.done unproven, final) →
      buildSlashingProofPayloads Nat.pair (PersistentMerkleTree.reference Nat.pair)
          doubleVotesState sampleRecentBlock twoRecordsView unproven =
        .ok payloads →
      ∀ payload ∈ payloads, payload.1.validator.object.slashed = true := by
  refine ⟨⟨[.quiet .resolved], _, _, _, rfl, rfl, by decide +kernel⟩, ?_⟩
  apply
    (submitted_slashed_iff (PersistentMerkleTree.reference_documented Nat.pair)
      pair_injective (twoRecordsView_shows rfl) doubleVotes_valid Evolves.start
      fun _ current => FlagsKept.refl current).mpr
  intro valIndex _ keyInfo validator isKnown _ found
  have first : valIndex = 0 := by
    by_contra other
    simp [sampleLookup, other] at isKnown
  subst first
  cases found
  exact .inr (.inl (by decide +kernel))

/-- The second validator is submitted too, with the record of a validator not slashed. -/
theorem withdrawable_attester_submitted :
    processSlashings sampleQueue doubleVotes.epoch doubleVotes.validators
        doubleVotes.block = some doubleVotesState.validators ∧
    Evolves sampleQueue doubleVotesState.validators [] doubleVotesState.validators ∧
    ∃ script unproven final payloads,
      run (fun (_ : Unit) => id)
          (getUnprovenSlashings doubleVotes.block (sampleLookup [0, 1])) script
          (World.blank sampleBlockHeader) =
        (.done unproven, final) ∧
      buildSlashingProofPayloads Nat.pair (PersistentMerkleTree.reference Nat.pair)
          doubleVotesState sampleRecentBlock twoRecordsView unproven =
        .ok payloads ∧
      ∃ payload ∈ payloads,
        payload.1.validator.index = 1 ∧
          payload.1.validator.object.slashed = false := by
  refine ⟨doubleVotes_valid, Evolves.start, [.quiet .resolved, .quiet .resolved], _, _, _,
    rfl, rfl, ?_⟩
  decide +kernel

end Slashings

end CsmProver
