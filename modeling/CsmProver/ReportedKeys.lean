import CsmProver.Async.Yields
import CsmProver.DutyGuarantees
import CsmProver.DutySelection
import CsmProver.PayloadKeys

namespace CsmProver

/-!
# The keys the duties report

A duty proves only what it has looked up: the validators of a block are looked
up in one synchronous block, and every selection and every worker after that
only drops some of them.  So whatever all lookups have in common, the mined
proofs have in common, in every interleaving.
-/

open Async

/--
Keys that lookups find in states of an invariant, and a relation that contains what
the duties do with such keys.  Without a signer and in a dry run nothing is mined.
-/
structure ReportFrame (config : Config) (keys : KeyId → Prop) (inv : World → Prop)
    (relation : World → World → Prop) : Prop extends Keeping inv relation where
  keyLookups :
    ∀ duty keyInfoFn valIndices world,
      relation world
        { world with
          log := world.log ++ lookupEvents duty keyInfoFn valIndices world }
  allKeysLookup :
    ∀ world,
      relation world
        (world.record (.allKeysLookup world.keysIndexer.info.storageStateSlot))
  proofMined :
    Live config → ∀ kind key world, keys key → relation world (proofMined kind key world)
  balanceMined :
    Live config →
    ∀ key balanceGwei world, keys key → relation world (balanceMined key balanceGwei world)

/-- Every key a lookup finds in a state of the invariant is one of the given ones. -/
def Finds (keys : KeyId → Prop) (inv : World → Prop) (keyInfoFn : KeyInfoFn) : Prop :=
  ∀ world valIndex keyInfo,
    inv world → keyInfoFn world valIndex = some keyInfo → keys keyInfo.id

/-- Entries of a duty for given keys. -/
def ForKeys {ν : Type} (keys : KeyId → Prop) (keyOf : ν → KeyInfo)
    (entries : List (Nat × ν)) : Prop :=
  ∀ entry ∈ entries, keys (keyOf entry.2).id

/-! ## Reading -/

section Reading

variable {inv : World → Prop} {relation : World → World → Prop}
variable (refl : ∀ world, relation world world)

include refl

/-- What the contract is asked about is what is left over from the entries. -/
theorem filterUnproven_yields
    {ν : Type}
    {property : Nat × ν → Prop}
    (kind : ProofKind)
    (keyOf : ν → KeyInfo)
    {entries : List (Nat × ν)}
    (holds : ∀ entry ∈ entries, property entry) :
    (filterUnproven kind keyOf entries).Yields inv relation fun unproven =>
      ∀ entry ∈ unproven, property entry := by
  induction entries with
  | nil =>
      simp [filterUnproven, Yields]
  | cons entry rest inductionHypothesis =>
      have restYields :=
        inductionHypothesis fun other member => holds other (by simp [member])
      refine yields_bind (yields_of_guarantees guarantees_settle) fun _ _ => ?_
      refine yields_read_bind refl fun world _ => ?_
      refine yields_bind restYields fun unproven kept => ?_
      split
      · exact kept
      · exact List.forall_mem_cons.mpr ⟨holds entry (by simp), kept⟩

end Reading

/-! ## Sending -/

section Sending

variable {inv : World → Prop} {relation : World → World → Prop} {config : Config}

/-- A worker hands on what it was given. -/
theorem work_yields
    {α : Type}
    {property : α → Prop}
    {result : Except Abort α}
    (holds : ∀ value, result = .ok value → property value) :
    (work result).Yields inv relation property := by
  refine yields_bind (yields_of_guarantees guarantees_settle) fun _ _ => ?_
  cases result with
  | ok value =>
      exact holds value rfl
  | error reason =>
      trivial

/-- Without a signer and in a dry run a transaction has no effect. -/
theorem execute_yields
    {mined : World → World}
    (contained : Live config → ∀ world, inv world → relation world (mined world)) :
    (execute config mined).Yields inv relation fun _ => True := by
  refine yields_bind (yields_of_guarantees guarantees_settle) fun _ _ => ?_
  split
  · next live =>
    refine yields_bind (yields_of_guarantees guarantees_settle) fun _ _ => ?_
    refine yields_bind (yields_modify (contained live)) fun _ _ => ?_
    exact yields_of_guarantees guarantees_tick
  · trivial

/-- The payloads a worker builds are sent one after the other. -/
theorem buildAndSend_yields
    {ν π : Type}
    {build : Nat → ν → Except Abort (Option π)}
    {mined : π → World → World}
    {entries : List (Nat × ν)}
    (contained :
      Live config →
      ∀ entry ∈ entries, ∀ payload,
        build entry.1 entry.2 = .ok (some payload) →
        ∀ world, inv world → relation world (mined payload world)) :
    (do
      let payloads ← work (buildPayloads build entries)
      sendPayloads config mined payloads
      return payloads.length : Async World Nat).Yields inv relation fun _ => True := by
  have worked :
      (work (buildPayloads build entries)).Yields inv relation fun payloads =>
        buildPayloads build entries = .ok payloads :=
    work_yields fun _ isBuilt => isBuilt
  refine yields_bind worked fun payloads built => ?_
  refine yields_bind (yields_forEach fun payload member => ?_) fun _ _ => trivial
  obtain ⟨entry, isEntry, entryBuilt⟩ := (mem_buildPayloads_iff built).mp member
  exact yields_call
    (execute_yields fun live => contained live entry isEntry payload entryBuilt)

end Sending

namespace ReportFrame

variable {config : Config} {keys : KeyId → Prop} {inv : World → Prop}
variable {relation : World → World → Prop} (frame : ReportFrame config keys inv relation)
variable (consensus : Consensus) (balances : Bool)

include frame

/-- The lookups are logged. -/
theorem noteLookups_yields
    (duty : ProofKind)
    (keyInfoFn : KeyInfoFn)
    (valIndices : List Nat) :
    (noteLookups duty keyInfoFn valIndices).Yields inv relation fun _ => True :=
  yields_modify fun world _ => frame.keyLookups duty keyInfoFn valIndices world

/-! ### Balances -/

/-- Only involved keys are reported. -/
theorem getUnprovenBalanceChangeProofs_yields
    {involved : InvolvedKeys}
    (forKeys : ForKeys keys id involved)
    (currentState : State) :
    (Balances.getUnprovenBalanceChangeProofs config consensus currentState
      involved).Yields inv relation (ForKeys keys id) := by
  unfold Balances.getUnprovenBalanceChangeProofs
  split
  · simp [Yields, ForKeys]
  · refine yields_request_bind (yields_request_bind ?_)
    refine yields_bind
      (yields_of_guarantees (guarantees_call (getKeyAddedBalances_reads frame.refl _)))
      fun addedBalances _ => ?_
    intro entry member
    obtain ⟨⟨candidate, addedBalance⟩, isProvable, rfl⟩ := List.mem_map.mp member
    have inEntries := (List.of_mem_zip (List.mem_filter.mp isProvable).1).1
    exact forKeys _ (List.mem_filter.mp inEntries).1

/-- The balance proofs are for the given keys. -/
theorem sendBalanceChangeProofs_yields
    {balanceChanges : InvolvedKeys}
    (forKeys : ForKeys keys id balanceChanges)
    (blockHeader : BlockHeaderResponse)
    (state : State)
    (recentHeader : BlockHeaderResponse) :
    (Balances.sendBalanceChangeProofs config consensus blockHeader state balanceChanges
      recentHeader).Yields inv relation fun _ => True := by
  have buildAndSend
      (recentBlock : RecentBlock) :
      (Balances.buildAndSend config blockHeader state balanceChanges
        recentBlock).Yields inv relation fun _ => True := by
    refine buildAndSend_yields fun live entry member payload built world _ => ?_
    have sameKey :=
      ((Balances.buildBalanceProofPayload_compares state blockHeader recentBlock).carries
        _ _ _ built).2
    refine frame.balanceMined live _ _ world ?_
    rw [sameKey]
    exact forKeys entry member
  unfold Balances.sendBalanceChangeProofs
  split
  · trivial
  · split
    · apply yields_call
      refine yields_bind
        (yields_of_guarantees (resolveRecentBlock_reads frame.refl consensus _))
        fun anchor _ => ?_
      exact buildAndSend anchor.1
    · apply yields_call
      refine yields_bind
        (yields_of_guarantees (nextHeaderTimestamp_guarantees consensus _))
        fun rootsTimestamp _ => ?_
      exact buildAndSend _

/-- The balance duty proves the keys it was given and no others. -/
theorem handleBalanceChanges_yields
    {getKeys : Async World InvolvedKeys}
    (finds : getKeys.Yields inv relation (ForKeys keys id))
    (blockHeader finalizedHeader : BlockHeaderResponse) :
    (Prover.handleBalanceChanges config consensus balances blockHeader finalizedHeader
      getKeys).Yields inv relation fun _ => True := by
  unfold Prover.handleBalanceChanges
  split
  · trivial
  · refine yields_bind finds fun keyMap forKeys => ?_
    split
    · trivial
    · refine yields_request_bind ?_
      refine yields_bind
        (yields_call
          (frame.getUnprovenBalanceChangeProofs_yields consensus forKeys _))
        fun balanceChanges changed => ?_
      exact yields_call (frame.sendBalanceChangeProofs_yields consensus changed _ _ _)

/-- So does the balance duty of a parent block. -/
theorem handleParentBalances_yields
    {involved : InvolvedKeys}
    (forKeys : ForKeys keys id involved)
    (blockInfo : SupportedBlock)
    (finalizedHeader : BlockHeaderResponse) :
    (Prover.handleParentBalances config consensus balances blockInfo finalizedHeader
      involved).Yields inv relation fun _ => True := by
  unfold Prover.handleParentBalances
  split
  · trivial
  · refine yields_request_bind ?_
    have given :
        (pure involved : Async World InvolvedKeys).Yields inv relation (ForKeys keys id) :=
      forKeys
    exact yields_call
      (frame.handleBalanceChanges_yields consensus balances given _ _)

/-- The balance duty of a block proves the keys of the index. -/
theorem handleBalanceChangesInBlock_yields
    {getKeys : Async World InvolvedKeys}
    (finds : getKeys.Yields inv relation (ForKeys keys id))
    (blockRoot : RootHex)
    (finalizedHeader : BlockHeaderResponse) :
    (Prover.handleBalanceChangesInBlock config consensus balances blockRoot
      finalizedHeader getKeys).Yields inv relation fun _ => True := by
  unfold Prover.handleBalanceChangesInBlock
  split
  · trivial
  · refine yields_request_bind ?_
    exact yields_call
      (frame.handleBalanceChanges_yields consensus balances finds _ _)

/-! ### Slashings -/

variable {keyInfoFn : KeyInfoFn}

/-- What a duty selects was looked up in the state it was selected in. -/
theorem getUnprovenSlashings_yields
    (finds : Finds keys inv keyInfoFn)
    (blockInfo : SupportedBlock) :
    (Slashings.getUnprovenSlashings blockInfo keyInfoFn).Yields inv relation
      (ForKeys keys id) := by
  refine yields_read_bind frame.refl fun world holds => ?_
  refine yields_bind (frame.noteLookups_yields _ _ _) fun _ _ => ?_
  have forKeys : ForKeys keys id (Slashings.getSlashed blockInfo (keyInfoFn world)) := by
    intro entry member
    exact finds world entry.1 entry.2 holds
      (Slashings.getSlashed_carries entry.1 entry.2
        (Std.TreeMap.mem_toList_iff_getElem?_eq_some.mp member))
  simp only
  split
  · simp [Yields, ForKeys]
  · exact filterUnproven_yields frame.refl _ _ forKeys

/-- The slashing proofs are for the given keys. -/
theorem sendSlashingProofs_yields
    {slashings : InvolvedKeys}
    (forKeys : ForKeys keys id slashings)
    (finalizedHeader : BlockHeaderResponse) :
    (Slashings.sendSlashingProofs config consensus finalizedHeader
      slashings).Yields inv relation fun _ => True := by
  unfold Slashings.sendSlashingProofs
  split
  · trivial
  · refine yields_request_bind ?_
    refine yields_bind
      (yields_of_guarantees (nextHeaderTimestamp_guarantees consensus _))
      fun rootsTimestamp _ => ?_
    refine buildAndSend_yields fun live entry member payload built world _ => ?_
    refine frame.proofMined live _ _ world ?_
    rw [Slashings.buildSlashingProofPayload_key built]
    exact forKeys entry member

/-- The slashing duty proves keys that its lookup found. -/
theorem handleSlashingsInBlock_yields
    (finds : Finds keys inv keyInfoFn)
    (blockInfo : SupportedBlock)
    (finalizedHeader : BlockHeaderResponse) :
    (Prover.handleSlashingsInBlock config consensus balances blockInfo finalizedHeader
      keyInfoFn).Yields inv relation fun _ => True := by
  refine yields_bind (yields_call (frame.getUnprovenSlashings_yields finds blockInfo))
    fun slashings forKeys => ?_
  refine yields_bind
    (frame.handleParentBalances_yields consensus balances forKeys blockInfo
      finalizedHeader)
    fun balanceSentCount _ => ?_
  exact yields_bind
    (yields_call (frame.sendSlashingProofs_yields consensus forKeys finalizedHeader))
    fun sentCount _ => trivial

/-! ### Withdrawals -/

/-- The selected withdrawals are of keys that the lookup found. -/
theorem getUnprovenWithdrawals_yields
    (finds : Finds keys inv keyInfoFn)
    (blockInfo : SupportedBlock) :
    (Withdrawals.getUnprovenWithdrawals blockInfo keyInfoFn).Yields inv relation
      (ForKeys keys (·.keyInfo)) := by
  refine yields_read_bind frame.refl fun world holds => ?_
  refine yields_bind (frame.noteLookups_yields _ _ _) fun _ _ => ?_
  have forKeys :
      ForKeys keys (·.keyInfo)
        (Withdrawals.getFullWithdrawals (keyInfoFn world) blockInfo) := by
    intro entry member
    exact finds world entry.1 entry.2.keyInfo holds
      (Withdrawals.collectFullWithdrawals_carries (by simp) entry.1 entry.2
        (Std.TreeMap.mem_toList_iff_getElem?_eq_some.mp member))
  simp only
  split
  · simp [Yields, ForKeys]
  · exact filterUnproven_yields frame.refl _ _ forKeys

/-- The withdrawal proofs are for the given keys. -/
theorem sendWithdrawalProofs_yields
    {withdrawals : List (Nat × Withdrawals.KeyWithWithdrawal)}
    (forKeys : ForKeys keys (·.keyInfo) withdrawals)
    (blockRoot : RootHex)
    (blockInfo : SupportedBlock)
    (finalizedHeader : BlockHeaderResponse) :
    (Withdrawals.sendWithdrawalProofs config consensus blockRoot blockInfo
      finalizedHeader withdrawals).Yields inv relation fun _ => True := by
  have buildAndSend
      (blockHeader : BlockHeaderResponse)
      (state : State)
      (recentBlock : RecentBlock) :
      (Withdrawals.buildAndSend config consensus blockHeader state withdrawals
        recentBlock).Yields inv relation fun _ => True := by
    refine buildAndSend_yields fun live entry member payload built world _ => ?_
    refine frame.proofMined live _ _ world ?_
    rw [Withdrawals.buildWithdrawalProofPayload_key built]
    exact forKeys entry member
  unfold Withdrawals.sendWithdrawalProofs
  split
  · trivial
  · refine yields_request_bind (yields_request_bind ?_)
    split
    · apply yields_call
      refine yields_bind
        (yields_of_guarantees (resolveRecentBlock_reads frame.refl consensus _))
        fun anchor _ => ?_
      exact buildAndSend _ _ anchor.1
    · apply yields_call
      refine yields_bind
        (yields_of_guarantees (nextHeaderTimestamp_guarantees consensus _))
        fun rootsTimestamp _ => ?_
      exact buildAndSend _ _ _

/-- The withdrawal duty proves keys that its lookup found. -/
theorem handleWithdrawalsInBlock_yields
    (finds : Finds keys inv keyInfoFn)
    (blockRoot : RootHex)
    (blockInfo : SupportedBlock)
    (finalizedHeader : BlockHeaderResponse) :
    (Prover.handleWithdrawalsInBlock config consensus balances blockRoot blockInfo
      finalizedHeader keyInfoFn).Yields inv relation fun _ => True := by
  refine yields_bind (yields_call (frame.getUnprovenWithdrawals_yields finds blockInfo))
    fun withdrawals forKeys => ?_
  have involved :
      ForKeys keys id (withdrawals.map fun entry => (entry.1, entry.2.keyInfo)) := by
    intro entry member
    obtain ⟨source, isSource, rfl⟩ := List.mem_map.mp member
    exact forKeys source isSource
  refine yields_bind
    (frame.handleParentBalances_yields consensus balances involved blockInfo
      finalizedHeader)
    fun balanceSentCount _ => ?_
  exact yields_bind
    (yields_call
      (frame.sendWithdrawalProofs_yields consensus forKeys blockRoot blockInfo
        finalizedHeader))
    fun sentCount _ => trivial

/-! ### One block -/

/-- Every proof of a block is for keys the two lookups of the processor find. -/
theorem runDuties_yields
    (finds : Finds keys inv (RootsProcessor.getKey config))
    (findsAll :
      ∀ world,
        inv world → ForKeys keys id (KeysIndexer.getAllKeys config world.keysIndexer))
    (blockRootToProcess : RootHex)
    (blockInfo : SupportedBlock)
    (finalizedHeader : BlockHeaderResponse) :
    (RootsProcessor.runDuties config consensus balances blockRootToProcess blockInfo
      finalizedHeader).Yields inv relation fun _ => True := by
  have getAllKeys :
      (RootsProcessor.getAllKeys config).Yields inv relation (ForKeys keys id) := by
    refine yields_bind (yields_modify fun world _ => frame.allKeysLookup world)
      fun _ _ => ?_
    exact yields_read_bind frame.refl fun world holds => findsAll world holds
  refine yields_bind
    (yields_call
      (frame.handleSlashingsInBlock_yields consensus balances finds blockInfo _))
    fun _ _ => ?_
  refine yields_bind
    (yields_call
      (frame.handleWithdrawalsInBlock_yields consensus balances finds _ blockInfo _))
    fun _ _ => ?_
  refine yields_bind
    (yields_of_guarantees
      (guarantees_call (isFirstBlockInEpoch_reads frame.refl consensus blockInfo)))
    fun isFirst _ => ?_
  split
  · exact yields_bind
      (yields_call
        (frame.handleBalanceChangesInBlock_yields consensus balances getAllKeys _ _))
      fun _ _ => trivial
  · trivial

end ReportFrame

end CsmProver
