import CsmProver.DutySelection
import CsmProver.Proofs

namespace CsmProver

/-!
# Bodies of the workers

The body of a worker builds a payload and, unless it skips the entry, the witnesses
of the payload.  What it returns is stated here in both directions.
-/

open MerkleTree

/-! ## Witnesses -/

/-- With witnesses at hand a body answers as it does without them. -/
theorem withWitnesses_ok
    {π ω : Type}
    (payload : Except Abort (Option π))
    (witnesses : ω) :
    withWitnesses payload (.ok witnesses) =
      payload.map (Option.map fun built => (built, witnesses)) := by
  cases payload with
  | error reason =>
      rfl
  | ok result =>
      cases result with
      | none => rfl
      | some built => rfl

/-- A body that fails, or skips its entry, never asks for the witnesses. -/
theorem withWitnesses_of_no_payload
    {π ω : Type}
    {payload : Except Abort (Option π)}
    (nothing : ∀ built, payload ≠ .ok (some built))
    (witnesses : Except Abort ω) :
    withWitnesses payload witnesses = payload.map fun _ => none := by
  cases payload with
  | error reason =>
      rfl
  | ok result =>
      cases result with
      | none => rfl
      | some built => exact absurd rfl (nothing built)

/-- The payload of a body is the one it builds without witnesses. -/
theorem payload_of_withWitnesses
    {π ω : Type}
    {payload : Except Abort (Option π)}
    {witnesses : Except Abort ω}
    {pair : π × ω}
    (built : withWitnesses payload witnesses = .ok (some pair)) :
    payload = .ok (some pair.1) := by
  obtain ⟨result, succeeded, rest⟩ := except_bind_eq_ok.mp built
  cases result with
  | none =>
      cases rest
  | some value =>
      obtain ⟨checked, _, joined⟩ := except_bind_eq_ok.mp rest
      cases joined
      exact succeeded

/-! ## Slashing payloads -/

/-- The body of the slashing worker takes the record as it is in the state. -/
theorem Slashings.buildSlashingProofPayload_eq_ok_iff
    {state : State}
    {recentBlock : RecentBlock}
    {valIndex : Nat}
    {keyInfo : KeyInfo}
    {payload : Slashings.ProcessSlashedInput} :
    Slashings.buildSlashingProofPayload state recentBlock valIndex keyInfo =
        .ok (some payload) ↔
      ∃ record,
        state.validators[valIndex]? = some record ∧
        payload =
          { validator := validatorPayload valIndex keyInfo record
            recentBlock := recentBlock } := by
  unfold Slashings.buildSlashingProofPayload getValidator
  cases state.validators[valIndex]? with
  | none => simp [bind, Except.bind]
  | some record => simp [bind, Except.bind, pure, Except.pure, eq_comm]

/-! ## Views -/

section Views

variable {α : Type} {hash : α → α → α} {library : PersistentMerkleTree α}
variable {stateView : StateView α} {state : State}

/-- The view has the record of every validator of the state at its index. -/
def StateView.ShowsValidators (hash : α → α → α) (stateView : StateView α)
    (state : State) : Prop :=
  ∀ valIndex < state.validators.length,
    1 ≤ stateView.validatorGindex valIndex ∧
      ∃ record,
        stateView.node.nodeAt (Gindex.path (stateView.validatorGindex valIndex)) =
          some record ∧
        stateView.validatorRoot valIndex = .ok (record.root hash)

/-- The proof of a validator of the state is generated and passes its local check. -/
theorem slashingWitnesses_ok
    [DecidableEq α]
    (documented : library.Documented hash)
    (injective : Function.Injective2 hash)
    (shows : stateView.ShowsValidators hash state)
    {valIndex : Nat}
    (inside : valIndex < state.validators.length) :
    ∃ witnesses, slashingWitnesses hash library stateView valIndex = .ok witnesses := by
  obtain ⟨positive, record, found, recordRoot⟩ := shows valIndex inside
  have created := documented.createProof stateView.node record _ positive found
  have verified :
      verifyLocally hash stateView
        { gindex := stateView.validatorGindex valIndex
          leaf := record.root hash
          witnesses :=
            stateView.node.siblings hash (Gindex.path (stateView.validatorGindex valIndex)) }
        (record.root hash) = .ok () :=
    verifyProof_eq_ok_iff_climb.mpr
      ((climbProof_eq_ok_iff injective positive found _ _).mpr ⟨rfl, rfl⟩)
  refine
    ⟨stateView.node.siblings hash (Gindex.path (stateView.validatorGindex valIndex)), ?_⟩
  simp only [slashingWitnesses, except_bind_eq_ok]
  exact ⟨_, created, _, recordRoot, _, verified, rfl⟩

/-- The worker returns one payload for each of its keys when all lie inside the state. -/
theorem buildSlashingProofPayloads_ok
    [DecidableEq α]
    (documented : library.Documented hash)
    (injective : Function.Injective2 hash)
    (shows : stateView.ShowsValidators hash state)
    {recentBlock : RecentBlock}
    {slashings : InvolvedKeys}
    (inside : ∀ entry ∈ slashings, entry.1 < state.validators.length) :
    ∃ payloads,
      buildSlashingProofPayloads hash library state recentBlock stateView slashings =
        .ok payloads ∧
      ∀ entry ∈ slashings, ∀ record,
        state.validators[entry.1]? = some record →
        ∃ payload ∈ payloads,
          payload.1.validator = validatorPayload entry.1 entry.2 record := by
  have builds :
      ∀ entry ∈ slashings, ∀ record,
        state.validators[entry.1]? = some record →
        ∃ witnesses,
          withWitnesses
              (Slashings.buildSlashingProofPayload state recentBlock entry.1 entry.2)
              (slashingWitnesses hash library stateView entry.1) =
            .ok
              (some
                ({ validator := validatorPayload entry.1 entry.2 record
                   recentBlock := recentBlock }, witnesses)) := by
    intro entry member record found
    obtain ⟨witnesses, generated⟩ :=
      slashingWitnesses_ok documented injective shows (inside entry member)
    have payload :
        Slashings.buildSlashingProofPayload state recentBlock entry.1 entry.2 =
          .ok
            (some
              { validator := validatorPayload entry.1 entry.2 record
                recentBlock := recentBlock }) :=
      Slashings.buildSlashingProofPayload_eq_ok_iff.mpr ⟨record, found, rfl⟩
    refine ⟨witnesses, ?_⟩
    rw [payload, generated, withWitnesses_ok]
    rfl
  refine ⟨_, buildPayloads_eq_ok_iff.mpr ⟨?succeeds, rfl⟩, ?covers⟩
  case succeeds =>
    intro entry member
    obtain ⟨witnesses, built⟩ :=
      builds entry member _ (List.getElem?_eq_getElem (inside entry member))
    exact ⟨_, built⟩
  case covers =>
    intro entry member record found
    obtain ⟨witnesses, built⟩ := builds entry member record found
    refine
      ⟨({ validator := validatorPayload entry.1 entry.2 record
          recentBlock := recentBlock }, witnesses), ?_, rfl⟩
    rw [List.mem_filterMap]
    exact ⟨entry, member, by rw [builtPayload, built]⟩

end Views

/-- A validator that may be slashed before the given epoch. -/
def sampleRecord (pubkey : PubKey) (withdrawableEpoch : EpochInf) : Validator where
  pubkey := pubkey
  withdrawalCredentials := 0
  effectiveBalance := 32 * 10 ^ 9
  slashed := false
  activationEligibilityEpoch := 0
  activationEpoch := 0
  exitEpoch := withdrawableEpoch
  withdrawableEpoch := withdrawableEpoch

def sampleBlockHeader : BlockHeaderResponse where
  root := 10
  canonical := true
  message :=
    { slot := 321
      proposerIndex := 0
      parentRoot := 9
      stateRoot := 0
      bodyRoot := 0 }

def sampleRecentBlock : RecentBlock where
  header := sampleBlockHeader
  rootsTimestamp := 12

/-- The view of a state with two validators, whose tree has nothing but their records. -/
def twoRecordsView : StateView Nat where
  node := .fork (.leaf 10) (.leaf 11)
  validatorGindex := fun valIndex => 2 + valIndex
  validatorRoot := fun valIndex =>
    if valIndex < 2 then .ok (10 + valIndex) else .error .rejected
  balanceGindex := fun valIndex => 2 + valIndex
  withdrawalsRootGindex := 1
  blockSummaryRootGindex := fun _ => 1
  blockRoots :=
    { node := .leaf 0
      getPropertyGindex := fun _ => 1
      gindex_pos := fun _ => Nat.le_refl 1 }
  withdrawalsRootGindex_pos := Nat.le_refl 1
  blockSummaryRootGindex_pos := fun _ => Nat.le_refl 1

theorem twoRecordsView_shows
    {state : State}
    (two : state.validators.length = 2) :
    twoRecordsView.ShowsValidators Nat.pair state := by
  intro valIndex inside
  rw [two] at inside
  refine ⟨Nat.le_trans (by decide) (Nat.le_add_right 2 valIndex), .leaf (10 + valIndex), ?_⟩
  obtain rfl | rfl : valIndex = 0 ∨ valIndex = 1 := by omega
  · exact ⟨by decide, rfl⟩
  · exact ⟨by decide, rfl⟩

end CsmProver
