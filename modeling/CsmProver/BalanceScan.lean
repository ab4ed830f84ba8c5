import CsmProver.PayloadBuilders

namespace CsmProver

/-!
# The balance scan

The scan drops validators with at most the activation balance before it asks the
contract, and asks for the keys of one operator in one contiguous range.  Both are
shortcuts: the scan selects what a plain pass over all keys would select, with the
balance of each key read on its own.
-/

open Async

/-! ## Ranges -/

namespace StakingModuleContract

section Ranges

variable {keyInfos : List KeyInfo} {keyInfo : KeyInfo} {stakingModule : StakingModule}

/-- A listed key is among the indexes of its own operator. -/
theorem mem_keyIndexesOf
    (member : keyInfo ∈ keyInfos) :
    keyInfo.keyIndex ∈ keyIndexesOf keyInfos keyInfo.operatorId := by
  unfold keyIndexesOf
  rw [List.mem_map]
  exact ⟨keyInfo, List.mem_filter.mpr ⟨member, by simp⟩, rfl⟩

/-- The range of an operator reaches from its least key to its greatest. -/
theorem mem_range_bounds
    {keyIndexes : List Nat}
    {keyIndex : Nat}
    (member : keyIndex ∈ keyIndexes) :
    keyIndexes.min?.getD 0 ≤ keyIndex ∧ keyIndex ≤ keyIndexes.max?.getD 0 := by
  have nonempty : keyIndexes ≠ [] := List.ne_nil_of_mem member
  obtain ⟨least, isLeast⟩ :=
    Option.isSome_iff_exists.mp (List.isSome_min?_of_ne_nil nonempty)
  obtain ⟨greatest, isGreatest⟩ :=
    Option.isSome_iff_exists.mp (List.isSome_max?_of_ne_nil nonempty)
  rw [isLeast, isGreatest]
  exact ⟨(List.min?_eq_some_iff.mp isLeast).2 keyIndex member,
    (List.max?_eq_some_iff.mp isGreatest).2 keyIndex member⟩

/-- The position of a key in the range of its operator holds its own balance. -/
theorem readRange_balance
    (member : keyInfo ∈ keyInfos) :
    let range := readRange keyInfos stakingModule keyInfo.operatorId
    range.balances[keyInfo.keyIndex - range.start]? =
      some (stakingModule.keyAddedBalance keyInfo.id) := by
  obtain ⟨fromStart, toEnd⟩ := mem_range_bounds (mem_keyIndexesOf member)
  simp only [readRange, StakingModule.getKeyConfirmedBalances, List.getElem?_map]
  rw [List.getElem?_range (by omega), Option.map_some, Nat.add_sub_cancel' fromStart]
  rfl

/-- Ranges of all operators, as they are read from one state of the contract. -/
def rangesOf (keyInfos : List KeyInfo) (stakingModule : StakingModule)
    (operatorIds : List Nat) : List (Nat × OperatorRange) :=
  operatorIds.map fun operatorId =>
    (operatorId, readRange keyInfos stakingModule operatorId)

/-- Every operator that was asked for has its range. -/
theorem lookup_rangesOf
    {operatorIds : List Nat}
    {operatorId : Nat}
    (member : operatorId ∈ operatorIds) :
    (rangesOf keyInfos stakingModule operatorIds).lookup operatorId =
      some (readRange keyInfos stakingModule operatorId) := by
  induction operatorIds with
  | nil =>
      cases member
  | cons first rest inductionHypothesis =>
      by_cases same : operatorId = first
      · subst same
        simp [rangesOf]
      · have inRest : operatorId ∈ rest := by simpa [same] using member
        have later := inductionHypothesis inRest
        unfold rangesOf at later ⊢
        rw [List.map_cons, List.lookup_cons, beq_false_of_ne same]
        exact later

/-- Steps that all find a value find the list of the values. -/
theorem mapM_eq_some_map
    {α β : Type}
    {step : α → Option β}
    {value : α → β}
    {items : List α}
    (each : ∀ item ∈ items, step item = some (value item)) :
    items.mapM step = some (items.map value) := by
  induction items with
  | nil =>
      rfl
  | cons item rest inductionHypothesis =>
      rw [List.mapM_cons, each item (by simp)]
      rw [inductionHypothesis fun later member => each later (by simp [member])]
      rfl

/-- No balance is attributed to another key, and none is missing. -/
theorem mapM_balanceIn :
    keyInfos.mapM
        (balanceIn
          (rangesOf keyInfos stakingModule (keyInfos.map (·.operatorId)).eraseDups)) =
      some (keyInfos.map fun keyInfo => stakingModule.keyAddedBalance keyInfo.id) := by
  apply mapM_eq_some_map
  intro keyInfo member
  have asked : keyInfo.operatorId ∈ (keyInfos.map (·.operatorId)).eraseDups := by
    rw [List.mem_eraseDups]
    exact List.mem_map.mpr ⟨keyInfo, member, rfl⟩
  rw [balanceIn, lookup_rangesOf asked]
  exact readRange_balance member

end Ranges

/-! ## Reading under interference -/

/-- The others leave the table of added balances as it is. -/
def TableKept (world moved : World) : Prop :=
  moved.stakingModule.keyAddedBalance = world.stakingModule.keyAddedBalance

/-- Under a fixed table a scan fails only when a request of it is rejected. -/
def protocol : Protocol World where
  rely := TableKept
  suspended := fun _ => True
  aborted := fun reason _ => reason = .rejected

theorem protocol_stable :
    protocol.Stable where
  refl := fun _ => rfl
  trans := fun earlier later => Eq.trans later earlier
  suspended := fun _ _ => trivial
  aborted := fun rejected _ => rejected

section Read

variable {keyInfos : List KeyInfo} {world : World}

/-- The range of an operator depends on the table alone. -/
theorem readRange_of_tableKept
    {moved : World}
    (kept : TableKept world moved)
    (operatorId : Nat) :
    readRange keyInfos moved.stakingModule operatorId =
      readRange keyInfos world.stakingModule operatorId := by
  unfold readRange StakingModule.getKeyConfirmedBalances
  rw [kept]

/-- The ranges are read one after the other, and all from the same table. -/
theorem readRanges_spec
    (operatorIds : List Nat) :
    wp protocol
      (fun ranges final =>
        ranges = rangesOf keyInfos world.stakingModule operatorIds ∧
          TableKept world final)
      (readRanges keyInfos operatorIds) world := by
  induction operatorIds generalizing world with
  | nil =>
      exact ⟨rfl, rfl⟩
  | cons operatorId rest inductionHypothesis =>
      simp only [readRanges, wp_bind, wp_settle, wp_read]
      refine ⟨trivial, fun asked kept => ⟨?_, rfl⟩⟩
      apply wp_mono inductionHypothesis
      rintro ranges final ⟨rfl, finalKept⟩
      refine ⟨?_, finalKept.trans kept⟩
      simp only [rangesOf, List.map_cons, readRange_of_tableKept kept]

/-- The balances come back by position, each that of its own key. -/
theorem getKeyAddedBalances_spec :
    wp protocol
      (fun balances final =>
        balances =
            keyInfos.map (fun keyInfo => world.stakingModule.keyAddedBalance keyInfo.id) ∧
          TableKept world final)
      (getKeyAddedBalances keyInfos) world := by
  unfold getKeyAddedBalances
  rw [wp_bind]
  apply wp_mono (readRanges_spec _)
  rintro ranges final ⟨rfl, kept⟩
  rw [mapM_balanceIn]
  exact ⟨rfl, kept⟩

/-- Undisturbed, the reads return the ranges and change nothing. -/
theorem finish_readRanges
    (operatorIds : List Nat) :
    finish (readRanges keyInfos operatorIds) world =
      (.ok (rangesOf keyInfos world.stakingModule operatorIds), world) := by
  induction operatorIds with
  | nil =>
      rfl
  | cons operatorId rest inductionHypothesis =>
      simp only [readRanges, finish_bind, finish_settle, finish_read,
        inductionHypothesis]
      rfl

/-- Undisturbed, the balances of all keys are returned in their order. -/
theorem finish_getKeyAddedBalances :
    finish (getKeyAddedBalances keyInfos) world =
      (.ok
        (keyInfos.map fun keyInfo => world.stakingModule.keyAddedBalance keyInfo.id),
        world) := by
  unfold getKeyAddedBalances
  simp only [finish_bind, finish_readRanges, mapM_balanceIn]
  rfl

end Read

end StakingModuleContract

/-! ## The plain scan -/

namespace Balances

open StakingModuleContract

/--
The entries inside the state whose balance is provable, in one pass and with the
balance of each key looked up in the table.
-/
def plainScan (config : Config) (consensus : Consensus) (keyAddedBalance : KeyId → Nat)
    (currentState : State) (keys : InvolvedKeys) : InvolvedKeys :=
  keys.filter fun entry =>
    match currentState.balances[entry.1]?, currentState.validators[entry.1]? with
    | some balance, some validator =>
        isProvableBalance config consensus (keyAddedBalance entry.2.id) balance
          (some validator.exitEpoch)
    | _, _ => false

section Scan

variable {config : Config} {consensus : Consensus}

/-- A balance of at most the activation balance is never provable. -/
theorem not_provable_of_le_activation
    {keyAddedBalanceWei balanceGwei : Nat}
    {exitEpoch : Option EpochInf}
    (small : balanceGwei ≤ consensus.beaconConfig.minActivationBalance) :
    isProvableBalance config consensus keyAddedBalanceWei balanceGwei exitEpoch =
      false := by
  unfold isProvableBalance
  simp only
  split
  · rfl
  · rw [if_pos (by omega)]

/-- Keeping pairs of entry and value keeps the entries of those pairs. -/
theorem filter_zip_map
    {α β : Type}
    (entries : List α)
    (value : α → β)
    (keep : α × β → Bool) :
    ((entries.zip (entries.map value)).filter keep).map (·.1) =
      entries.filter fun entry => keep (entry, value entry) := by
  induction entries with
  | nil =>
      rfl
  | cons entry rest inductionHypothesis =>
      rw [List.map_cons, List.zip_cons_cons, List.filter_cons, List.filter_cons]
      split
      · rw [List.map_cons, inductionHypothesis]
      · exact inductionHypothesis

/-- Dropping candidates before the read and reading by position changes no result. -/
theorem scan_eq_plainScan
    {currentState : State}
    (sameLength : currentState.balances.length = currentState.validators.length)
    (keyAddedBalance : KeyId → Nat)
    (keys : InvolvedKeys) :
    let entries := keys.filter fun entry =>
      match currentState.balances[entry.1]? with
      | none => false
      | some balance => decide (balance > consensus.beaconConfig.minActivationBalance)
    let addedBalances := (entries.map (·.2)).map fun keyInfo => keyAddedBalance keyInfo.id
    (((entries.zip addedBalances).filter fun candidate =>
        isProvableBalance config consensus candidate.2
          (currentState.balances[candidate.1.1]?.getD 0)
          (currentState.validators.map (·.exitEpoch))[candidate.1.1]?).map (·.1)) =
      plainScan config consensus keyAddedBalance currentState keys := by
  intro entries addedBalances
  have byEntry :
      addedBalances = entries.map fun entry => keyAddedBalance entry.2.id := by
    simp [addedBalances]
  rw [byEntry, filter_zip_map, List.filter_filter, plainScan]
  apply List.filter_congr
  intro entry _
  by_cases inside : entry.1 < currentState.balances.length
  · have isValidator : entry.1 < currentState.validators.length := sameLength ▸ inside
    simp only [List.getElem?_map, List.getElem?_eq_getElem inside,
      List.getElem?_eq_getElem isValidator, Option.getD_some, Option.map_some]
    by_cases large :
        currentState.balances[entry.1] > consensus.beaconConfig.minActivationBalance
    · simp [large]
    · rw [not_provable_of_le_activation (Nat.le_of_not_lt large)]
      rfl
  · simp [inside]

variable {currentState : State} {keys : InvolvedKeys} {world : World}

/-- The scan returns the plain one, whatever else happens to the table-keeping world. -/
theorem getUnprovenBalanceChangeProofs_spec
    (sameLength : currentState.balances.length = currentState.validators.length) :
    wp protocol
      (fun result _ =>
        result =
          plainScan config consensus world.stakingModule.keyAddedBalance currentState keys)
      (getUnprovenBalanceChangeProofs config consensus currentState keys) world := by
  unfold getUnprovenBalanceChangeProofs
  by_cases nothing : keys = []
  · subst nothing
    exact rfl
  · simp only [nothing, if_false, wp_bind, wp_request, wp_call]
    refine ⟨trivial, fun first firstKept => ⟨?_, rfl⟩⟩
    refine ⟨trivial, fun second secondKept => ⟨?_, rfl⟩⟩
    apply wp_mono getKeyAddedBalances_spec
    rintro balances third ⟨rfl, _⟩
    refine ⟨trivial, fun final _ => ?_⟩
    have sameTable :
        second.stakingModule.keyAddedBalance = world.stakingModule.keyAddedBalance :=
      Eq.trans secondKept firstKept
    rw [sameTable]
    exact scan_eq_plainScan sameLength _ keys

/-- Undisturbed, the scan returns the plain one and changes nothing. -/
theorem finish_getUnprovenBalanceChangeProofs
    (sameLength : currentState.balances.length = currentState.validators.length) :
    finish (getUnprovenBalanceChangeProofs config consensus currentState keys) world =
      (.ok
        (plainScan config consensus world.stakingModule.keyAddedBalance currentState keys),
        world) := by
  unfold getUnprovenBalanceChangeProofs
  by_cases nothing : keys = []
  · subst nothing
    rfl
  · simp only [nothing, if_false, finish_bind, finish_request, finish_call,
      finish_getKeyAddedBalances]
    rw [← scan_eq_plainScan sameLength]
    rfl

/--
Whatever else happens while the scan waits, it selects what the plain pass selects;
it fails only with a rejected request, and returns when its requests are answered.
-/
theorem scan_is_plain
    {ι : Type}
    {act : ι → World → World}
    (table : ∀ move current, TableKept current (act move current))
    (sameLength : currentState.balances.length = currentState.validators.length) :
    (∀ script result final,
      run act (getUnprovenBalanceChangeProofs config consensus currentState keys) script
          world =
        (.done result, final) →
      result =
        plainScan config consensus world.stakingModule.keyAddedBalance currentState
          keys) ∧
    (∀ script reason final,
      run act (getUnprovenBalanceChangeProofs config consensus currentState keys) script
          world =
        (.fail reason, final) →
      reason = .rejected) ∧
    ∃ script final,
      run act (getUnprovenBalanceChangeProofs config consensus currentState keys) script
          world =
        (.done
          (plainScan config consensus world.stakingModule.keyAddedBalance currentState
            keys),
          final) := by
  have holds :
      wp protocol
        (fun result _ =>
          result =
            plainScan config consensus world.stakingModule.keyAddedBalance currentState
              keys)
        (getUnprovenBalanceChangeProofs config consensus currentState keys) world :=
    getUnprovenBalanceChangeProofs_spec sameLength
  have sound (script : List (Beat ι)) := run_sound protocol_stable table holds script
  refine ⟨?returns, ?fails, ?resolves⟩
  case returns =>
    intro script result final ran
    have established := sound script
    rw [ran] at established
    exact established
  case fails =>
    intro script reason final ran
    have established := sound script
    rw [ran] at established
    exact established
  case resolves =>
    obtain ⟨script, ran⟩ :=
      exists_run_finish act
        (getUnprovenBalanceChangeProofs config consensus currentState keys) world
    rw [finish_getUnprovenBalanceChangeProofs sameLength] at ran
    exact ⟨script, world, ran⟩

end Scan

/-- A client that serves the mainnet configuration and empty objects. -/
def mainnetConsensus : Consensus where
  genesisTimestamp := 0
  beaconConfig := .mainnet
  blockInfo := fun _ =>
    { slot := 0
      parentRoot := 0
      blockHash := 0
      withdrawals := []
      proposerSlashings := []
      attesterSlashings := [] }
  beaconHeader := fun _ => sampleBlockHeader
  beaconHeadersByParentRoot := fun _ => { finalized := true, data := [] }
  state := fun _ => { validators := [], balances := [] }
  stateAtSlot := fun _ => { validators := [], balances := [] }

/-- Keys of two operators with a gap between them, and one that is not in the state yet. -/
def sampleKeys : InvolvedKeys :=
  [(0, { operatorId := 4, keyIndex := 7, pubKey := 70 }),
    (1, { operatorId := 9, keyIndex := 5, pubKey := 71 }),
    (2, { operatorId := 4, keyIndex := 2, pubKey := 72 }),
    (8, { operatorId := 4, keyIndex := 3, pubKey := 78 })]

/-- Three validators with 1000 ETH each, two of which have keys. -/
def sampleBalancesState : State where
  validators := [sampleRecord 70 ⊤, sampleRecord 71 ⊤, sampleRecord 72 ⊤]
  balances := [1000 * 10 ^ 9, 1000 * 10 ^ 9, 1000 * 10 ^ 9]

/-- The key `(4, 2)` has been topped up by 968 ETH before, the others by nothing. -/
def sampleTableWorld : World :=
  { World.blank sampleBlockHeader with
    stakingModule :=
      { (World.blank sampleBlockHeader).stakingModule with
        keyAddedBalance := fun key => if key = (4, 2) then 968 * 10 ^ 18 else 0 } }

theorem scan_is_plain_sample :
    ∃ script final,
      run (fun (_ : Unit) => id)
          (getUnprovenBalanceChangeProofs (.defaults "0x01" 1) mainnetConsensus
            sampleBalancesState sampleKeys) script sampleTableWorld =
        (.done
          [(0, { operatorId := 4, keyIndex := 7, pubKey := 70 }),
            (1, { operatorId := 9, keyIndex := 5, pubKey := 71 })],
          final) := by
  obtain ⟨script, final, ran⟩ :=
    (@scan_is_plain (.defaults "0x01" 1) mainnetConsensus sampleBalancesState sampleKeys
      sampleTableWorld Unit (fun _ => id) (fun _ _ => rfl) rfl).2.2
  refine ⟨script, final, ran.trans ?_⟩
  have selected :
      plainScan (.defaults "0x01" 1) mainnetConsensus
          sampleTableWorld.stakingModule.keyAddedBalance sampleBalancesState sampleKeys =
        [(0, { operatorId := 4, keyIndex := 7, pubKey := 70 }),
          (1, { operatorId := 9, keyIndex := 5, pubKey := 71 })] := by
    decide +kernel
  rw [selected]

end Balances

end CsmProver
