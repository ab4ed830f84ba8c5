import CsmProver.Duties
import CsmProver.RingHistory

namespace CsmProver

/-!
# Historical summaries

A block that has left the recent block roots of the finalized state is proved
through the summary of its period.  The index arithmetic that finds the summary is
compared with the beacon chain, which accumulates block roots and summaries slot
after slot, and with the test that sends a block down the historical path.
-/

open Async

/-! ## Resolution -/

structure HistoricalSummaryContext where
  summaryState : State
  summaryIndex : Nat
  rootIndexInSummary : Nat
  summarySlot : Nat
  deriving DecidableEq

/-- The context made of the summary that was found and of the state at its slot. -/
def contextOf (consensus : Consensus) (summaryInfo : HistoricalSummaryInfo) :
    HistoricalSummaryContext where
  summaryState := consensus.stateAtSlot summaryInfo.summarySlot
  summaryIndex := summaryInfo.summaryIndex
  rootIndexInSummary := summaryInfo.rootIndex
  summarySlot := summaryInfo.summarySlot

inductive HistoricalSummaryResolution where
  | available (context : HistoricalSummaryContext)
  | beforeCapella
  | notHistoricalYet (summarySlot : Nat)
  deriving DecidableEq

/-- The status of the resolution is `Available`. -/
def HistoricalSummaryResolution.IsAvailable : HistoricalSummaryResolution → Prop
  | .available _ => True
  | _ => False

def resolveHistoricalSummaryContext (consensus : Consensus)
    (finalizedHeader : BlockHeaderResponse) (targetSlot : Nat) :
    Async World HistoricalSummaryResolution :=
  match getHistoricalSummaryInfo consensus targetSlot with
  | none => return .beforeCapella
  | some summaryInfo => do
      let finalizedSlot := finalizedHeader.message.slot
      if summaryInfo.summarySlot > finalizedSlot then
        return .notHistoricalYet summaryInfo.summarySlot
      let summaryState ← request (consensus.stateAtSlot summaryInfo.summarySlot)
      return .available
        { summaryState := summaryState
          summaryIndex := summaryInfo.summaryIndex
          rootIndexInSummary := summaryInfo.rootIndex
          summarySlot := summaryInfo.summarySlot }

/-- What the two historical senders make of a resolution. -/
def useResolution :
    HistoricalSummaryResolution → Async World HistoricalSummaryInfo
  | .beforeCapella =>
      raise "Historical summary is not available before Capella fork slot"
  | .notHistoricalYet summarySlot =>
      raise
        ("Historical summary is not available yet (summary slot " ++
          toString summarySlot ++ ")")
  | .available context =>
      pure
        { summaryIndex := context.summaryIndex
          summarySlot := context.summarySlot
          rootIndex := context.rootIndexInSummary }

/-- The senders call the resolution and turn its other answers into errors. -/
theorem resolveHistoricalSummary_eq
    (consensus : Consensus)
    (finalizedHeader : BlockHeaderResponse)
    (targetSlot : Nat) :
    resolveHistoricalSummary consensus finalizedHeader.message.slot targetSlot = (do
      let resolution ←
        call (resolveHistoricalSummaryContext consensus finalizedHeader targetSlot)
      useResolution resolution) := by
  unfold resolveHistoricalSummary resolveHistoricalSummaryContext
  cases getHistoricalSummaryInfo consensus targetSlot with
  | none =>
      rfl
  | some summaryInfo =>
      simp only []
      by_cases notYet : summaryInfo.summarySlot > finalizedHeader.message.slot
      · simp only [notYet, if_true]
        rfl
      · simp [notYet, request, call, useResolution]

/-! ## Returned resolutions -/

section Resolved

variable {consensus : Consensus} {finalizedHeader : BlockHeaderResponse} {slot : Nat}
variable {world : World} {resolution : HistoricalSummaryResolution}

theorem returns_beforeCapella
    (beforeFork : getHistoricalSummaryInfo consensus slot = none) :
    Returns (resolveHistoricalSummaryContext consensus finalizedHeader slot) world
        resolution ↔
      resolution = .beforeCapella := by
  unfold resolveHistoricalSummaryContext
  rw [beforeFork]
  exact returns_pure

theorem returns_notHistoricalYet
    {summaryInfo : HistoricalSummaryInfo}
    (found : getHistoricalSummaryInfo consensus slot = some summaryInfo)
    (notYet : finalizedHeader.message.slot < summaryInfo.summarySlot) :
    Returns (resolveHistoricalSummaryContext consensus finalizedHeader slot) world
        resolution ↔
      resolution = .notHistoricalYet summaryInfo.summarySlot := by
  unfold resolveHistoricalSummaryContext
  rw [found]
  simp only [gt_iff_lt, notYet, if_true]
  exact returns_pure

theorem returns_available
    {summaryInfo : HistoricalSummaryInfo}
    (found : getHistoricalSummaryInfo consensus slot = some summaryInfo)
    (reached : summaryInfo.summarySlot ≤ finalizedHeader.message.slot) :
    Returns (resolveHistoricalSummaryContext consensus finalizedHeader slot) world
        resolution ↔
      resolution = .available (contextOf consensus summaryInfo) := by
  unfold resolveHistoricalSummaryContext
  rw [found]
  simp only [gt_iff_lt, Nat.not_lt.mpr reached, if_false]
  rw [returns_request_bind]
  simp only [returns_pure]
  constructor
  · rintro ⟨_, returned⟩
    exact returned
  · exact fun returned => ⟨world, returned⟩

/-- Every answer is available exactly when the finalized slot has reached the summary. -/
theorem isAvailable_iff
    {summaryInfo : HistoricalSummaryInfo}
    (found : getHistoricalSummaryInfo consensus slot = some summaryInfo)
    (returned :
      Returns (resolveHistoricalSummaryContext consensus finalizedHeader slot) world
        resolution) :
    resolution.IsAvailable ↔ summaryInfo.summarySlot ≤ finalizedHeader.message.slot := by
  by_cases reached : summaryInfo.summarySlot ≤ finalizedHeader.message.slot
  · rw [(returns_available found reached).mp returned]
    simp [HistoricalSummaryResolution.IsAvailable, reached]
  · rw [(returns_notHistoricalYet found (by omega)).mp returned]
    simp [HistoricalSummaryResolution.IsAvailable, reached]

/-- An available context belongs to the summary that the index arithmetic finds. -/
theorem context_of_available
    {context : HistoricalSummaryContext}
    (returned :
      Returns (resolveHistoricalSummaryContext consensus finalizedHeader slot) world
        (.available context)) :
    ∃ summaryInfo,
      getHistoricalSummaryInfo consensus slot = some summaryInfo ∧
        context = contextOf consensus summaryInfo := by
  cases found : getHistoricalSummaryInfo consensus slot with
  | none =>
      cases (returns_beforeCapella found).mp returned
  | some summaryInfo =>
      by_cases reached : summaryInfo.summarySlot ≤ finalizedHeader.message.slot
      · cases (returns_available found reached).mp returned
        exact ⟨summaryInfo, rfl, rfl⟩
      · cases (returns_notHistoricalYet found (by omega)).mp returned

/-- The call has a returning run in every world. -/
theorem exists_resolution
    (consensus : Consensus)
    (finalizedHeader : BlockHeaderResponse)
    (slot : Nat)
    (world : World) :
    ∃ resolution,
      Returns (resolveHistoricalSummaryContext consensus finalizedHeader slot) world
        resolution := by
  cases found : getHistoricalSummaryInfo consensus slot with
  | none =>
      exact ⟨_, (returns_beforeCapella found).mpr rfl⟩
  | some summaryInfo =>
      by_cases reached : summaryInfo.summarySlot ≤ finalizedHeader.message.slot
      · exact ⟨_, (returns_available found reached).mpr rfl⟩
      · exact ⟨_, (returns_notHistoricalYet found (by omega)).mpr rfl⟩

end Resolved

/-! ## Index arithmetic -/

section Arithmetic

variable (consensus : Consensus)

abbrev capellaForkSlot : Nat :=
  consensus.epochToSlot consensus.beaconConfig.capellaForkEpoch

abbrev slotsPerHistoricalRoot : Nat :=
  consensus.beaconConfig.slotsPerHistoricalRoot

/-- How far a slot lies inside its summary period. -/
def summaryOffset (slot : Nat) : Nat :=
  (slot - capellaForkSlot consensus) % slotsPerHistoricalRoot consensus

/-- The end of the period of a slot, counted from the slot and from the fork. -/
theorem periodEnd_eq
    {slot : Nat}
    (afterFork : capellaForkSlot consensus ≤ slot) :
    capellaForkSlot consensus +
        ((slot - capellaForkSlot consensus) / slotsPerHistoricalRoot consensus + 1) *
          slotsPerHistoricalRoot consensus =
      slot - summaryOffset consensus slot + slotsPerHistoricalRoot consensus := by
  have whole :
      (slot - capellaForkSlot consensus) % slotsPerHistoricalRoot consensus +
          (slot - capellaForkSlot consensus) / slotsPerHistoricalRoot consensus *
            slotsPerHistoricalRoot consensus =
        slot - capellaForkSlot consensus :=
    Nat.mod_add_div' _ _
  unfold summaryOffset
  rw [Nat.add_mul, Nat.one_mul]
  omega

/-- The summary slot is the end of the period of the target slot. -/
theorem getHistoricalSummaryInfo_eq
    {slot : Nat}
    (afterFork : capellaForkSlot consensus ≤ slot) :
    getHistoricalSummaryInfo consensus slot =
      some
        { summaryIndex :=
            (slot - capellaForkSlot consensus) / slotsPerHistoricalRoot consensus
          summarySlot :=
            slot - summaryOffset consensus slot + slotsPerHistoricalRoot consensus
          rootIndex := slot % slotsPerHistoricalRoot consensus } := by
  have notBefore : ¬ slot < capellaForkSlot consensus := by omega
  rw [← periodEnd_eq consensus afterFork]
  simp [getHistoricalSummaryInfo, notBefore]

theorem getHistoricalSummaryInfo_none
    {slot : Nat}
    (beforeFork : slot < capellaForkSlot consensus) :
    getHistoricalSummaryInfo consensus slot = none := by
  simp [getHistoricalSummaryInfo, beforeFork]

theorem isHistoricalBlock_iff
    {slot finalizedSlot : Nat} :
    isHistoricalBlock consensus slot finalizedSlot = true ↔
      slot + slotsPerHistoricalRoot consensus ≤
        finalizedSlot + 2 * consensus.beaconConfig.slotsPerEpoch := by
  simp only [isHistoricalBlock, Consensus.epochToSlot, ge_iff_le, decide_eq_true_eq,
    slotsPerHistoricalRoot]
  push_cast
  omega

end Arithmetic

/-! ## Blocks sent down the historical path -/

/--
A block classified as historical is never before the fork.  Its summary is there
exactly when the finalized slot has reached the end of its period; the two-epoch
buffer of the classification leaves out only blocks in the first two epochs of a
period, and those for at most the rest of the two epochs.
-/
theorem historical_block_resolution
    {consensus : Consensus}
    {slot finalizedSlot : Nat}
    {finalizedHeader : BlockHeaderResponse}
    (afterFork : capellaForkSlot consensus ≤ slot)
    (historical : isHistoricalBlock consensus slot finalizedSlot = true)
    (notOlder : finalizedSlot ≤ finalizedHeader.message.slot)
    (world : World) :
    (∃ resolution,
      Returns (resolveHistoricalSummaryContext consensus finalizedHeader slot) world
        resolution) ∧
    ∀ resolution,
      Returns (resolveHistoricalSummaryContext consensus finalizedHeader slot) world
        resolution →
      resolution ≠ .beforeCapella ∧
      (resolution.IsAvailable ↔
        slot - summaryOffset consensus slot + slotsPerHistoricalRoot consensus ≤
          finalizedHeader.message.slot) ∧
      (¬ resolution.IsAvailable →
        resolution =
          .notHistoricalYet
            (slot - summaryOffset consensus slot + slotsPerHistoricalRoot consensus) ∧
        summaryOffset consensus slot < 2 * consensus.beaconConfig.slotsPerEpoch ∧
        slot - summaryOffset consensus slot + slotsPerHistoricalRoot consensus +
            summaryOffset consensus slot ≤
          finalizedHeader.message.slot + 2 * consensus.beaconConfig.slotsPerEpoch) := by
  refine ⟨exists_resolution consensus finalizedHeader slot world, ?_⟩
  intro resolution returned
  have found := getHistoricalSummaryInfo_eq consensus afterFork
  have available := isAvailable_iff found returned
  have classified := (isHistoricalBlock_iff consensus).mp historical
  have offsetLe : summaryOffset consensus slot ≤ slot := by
    have inside : summaryOffset consensus slot ≤ slot - capellaForkSlot consensus :=
      Nat.mod_le _ _
    omega
  refine ⟨?notBefore, available, ?window⟩
  case notBefore =>
    by_cases reached :
        slot - summaryOffset consensus slot + slotsPerHistoricalRoot consensus ≤
          finalizedHeader.message.slot
    · rw [(returns_available found reached).mp returned]
      simp
    · rw [(returns_notHistoricalYet found (by simpa using reached)).mp returned]
      simp
  case window =>
    intro unavailable
    have notReached :
        finalizedHeader.message.slot <
          slot - summaryOffset consensus slot + slotsPerHistoricalRoot consensus := by
      rw [available] at unavailable
      simpa using unavailable
    refine ⟨(returns_notHistoricalYet found notReached).mp returned, ?_, ?_⟩
    · omega
    · omega

/-- A client of the main network, with empty answers to every other request. -/
def mainnetConsensus : Consensus where
  genesisTimestamp := 1606824023
  beaconConfig := .mainnet
  blockInfo := fun _ => ⟨0, 0, 0, [], [], []⟩
  beaconHeader := fun root => ⟨root, true, ⟨0, 0, 0, 0, 0⟩⟩
  beaconHeadersByParentRoot := fun _ => ⟨true, []⟩
  state := fun _ => ⟨[], []⟩
  stateAtSlot := fun _ => ⟨[], []⟩

/-- The header of a finalized block at a slot. -/
def headerAt (slot : Nat) : BlockHeaderResponse :=
  ⟨slot, true, ⟨slot, 0, 0, 0, 0⟩⟩

theorem historical_block_resolution_sample :
    ∃ resolution,
      Returns
        (resolveHistoricalSummaryContext mainnetConsensus (headerAt 6217728) 6209536)
        (World.blank (headerAt 6217728)) resolution ∧
      resolution.IsAvailable := by
  obtain ⟨⟨resolution, returned⟩, resolutions⟩ :=
    @historical_block_resolution mainnetConsensus 6209536 6217664
      (headerAt 6217728) (by decide) (by decide) (by decide)
      (World.blank (headerAt 6217728))
  exact ⟨resolution, returned, (resolutions resolution returned).2.1.mpr (by decide)⟩

/--
The first block of a period, classified as historical two epochs before the period
ends: the finalized state has no summary for it yet.
-/
theorem historical_block_without_summary :
    slotsPerHistoricalRoot mainnetConsensus ∣ capellaForkSlot mainnetConsensus ∧
    capellaForkSlot mainnetConsensus ≤ 6209536 ∧
    isHistoricalBlock mainnetConsensus 6209536 6217664 = true ∧
    ∀ resolution,
      Returns
        (resolveHistoricalSummaryContext mainnetConsensus (headerAt 6217664) 6209536)
        (World.blank (headerAt 6217664)) resolution →
      resolution = .notHistoricalYet 6217728 := by
  refine ⟨by decide, by decide, by decide, ?_⟩
  intro resolution returned
  have found :
      getHistoricalSummaryInfo mainnetConsensus 6209536 =
        some { summaryIndex := 0, summarySlot := 6217728, rootIndex := 0 } := by
    decide
  exact (returns_notHistoricalYet found (by decide)).mp returned

/-! ## The beacon chain -/

/-- The summary of one period, as far as proofs use it. -/
structure HistoricalSummary where
  blockSummaryRoot : RootHex
  deriving Repr, DecidableEq

/-- A chain: the block at each slot that has one, and the hash of a vector of roots. -/
structure BeaconChain where
  genesisRoot : RootHex
  blockAt : Nat → Option RootHex
  hashTreeRoot : List RootHex → RootHex

namespace BeaconChain

variable (chain : BeaconChain) (consensus : Consensus)

/-- The root of the latest block at or before a slot. -/
def latestRoot : Nat → RootHex
  | 0 => (chain.blockAt 0).getD chain.genesisRoot
  | slot + 1 => (chain.blockAt (slot + 1)).getD (latestRoot slot)

/--
The accumulators of the state at a slot: each slot writes its latest root into the
cell of the slot, and from the fork on each transition into a multiple of the period
appends the summary of the cells.
-/
def stateAt (slot : Nat) : RingHistory.State RootHex HistoricalSummary :=
  RingHistory.stateAt (slotsPerHistoricalRoot consensus) (capellaForkSlot consensus)
    (fun blockRoots => { blockSummaryRoot := chain.hashTreeRoot blockRoots })
    0 chain.latestRoot slot

def blockRoots (slot : Nat) : List RootHex :=
  (chain.stateAt consensus slot).ring

def historicalSummaries (slot : Nat) : List HistoricalSummary :=
  (chain.stateAt consensus slot).summaries

/-- The slots whose roots are in the block roots that a summary hashes. -/
def Covers (index slot : Nat) : Prop :=
  capellaForkSlot consensus + index * slotsPerHistoricalRoot consensus ≤ slot ∧
    slot < capellaForkSlot consensus + (index + 1) * slotsPerHistoricalRoot consensus

variable {chain : BeaconChain} {consensus : Consensus} {slot : Nat}

/-- The last `N` slots before a state, each under its own cell. -/
theorem getElem?_blockRoots
    (periodPositive : 0 < slotsPerHistoricalRoot consensus)
    {stateSlot : Nat}
    (before : slot < stateSlot)
    (close : stateSlot ≤ slot + slotsPerHistoricalRoot consensus) :
    (chain.blockRoots consensus stateSlot)[slot % slotsPerHistoricalRoot consensus]? =
      some (chain.latestRoot slot) :=
  RingHistory.getElem?_ring periodPositive before close

theorem length_historicalSummaries
    (aligned : slotsPerHistoricalRoot consensus ∣ capellaForkSlot consensus) :
    (chain.historicalSummaries consensus slot).length =
      (slot - capellaForkSlot consensus) / slotsPerHistoricalRoot consensus :=
  RingHistory.length_summaries aligned slot

/-- The slots a summary covers are those of its round. -/
theorem covers_iff
    (periodPositive : 0 < slotsPerHistoricalRoot consensus)
    {index : Nat} :
    Covers consensus index slot ↔
      capellaForkSlot consensus ≤ slot ∧
        (slot - capellaForkSlot consensus) / slotsPerHistoricalRoot consensus = index := by
  unfold Covers
  rw [Nat.div_eq_iff periodPositive]
  have next :
      (index + 1) * slotsPerHistoricalRoot consensus =
        index * slotsPerHistoricalRoot consensus + slotsPerHistoricalRoot consensus :=
    Nat.succ_mul _ _
  rw [next]
  omega

/-- A state has the summary of a slot exactly when it has reached the summary slot. -/
theorem summary_present_iff
    (chain : BeaconChain)
    (periodPositive : 0 < slotsPerHistoricalRoot consensus)
    (aligned : slotsPerHistoricalRoot consensus ∣ capellaForkSlot consensus)
    (afterFork : capellaForkSlot consensus ≤ slot)
    (stateSlot : Nat) :
    (slot - capellaForkSlot consensus) / slotsPerHistoricalRoot consensus <
        (chain.historicalSummaries consensus stateSlot).length ↔
      slot - summaryOffset consensus slot + slotsPerHistoricalRoot consensus ≤
        stateSlot := by
  rw [← periodEnd_eq consensus afterFork, length_historicalSummaries aligned]
  rw [Nat.lt_iff_add_one_le, Nat.le_div_iff_mul_le periodPositive]
  have roundPositive :
      0 < ((slot - capellaForkSlot consensus) / slotsPerHistoricalRoot consensus + 1) *
        slotsPerHistoricalRoot consensus :=
    Nat.mul_pos (Nat.succ_pos _) periodPositive
  omega

/-- A summary that is there hashes the block roots at the end of its period. -/
theorem getElem?_historicalSummaries
    (chain : BeaconChain)
    (aligned : slotsPerHistoricalRoot consensus ∣ capellaForkSlot consensus)
    {index stateSlot : Nat}
    (present : index < (chain.historicalSummaries consensus stateSlot).length) :
    (chain.historicalSummaries consensus stateSlot)[index]? =
      some
        { blockSummaryRoot :=
            chain.hashTreeRoot
              (chain.blockRoots consensus
                (capellaForkSlot consensus +
                  (index + 1) * slotsPerHistoricalRoot consensus)) } := by
  rw [length_historicalSummaries aligned] at present
  exact RingHistory.getElem?_summaries aligned present

end BeaconChain

/--
The summary found by index arithmetic is the one the chain appended for the period
of the target slot, and the root index is the cell of the slot in the block roots it
hashes.  The resolution returns in every world; it is available exactly when the
finalized state has the summary, and its context is then that of this summary.
-/
theorem historical_summaries_agree
    (chain : BeaconChain)
    {consensus : Consensus}
    (periodPositive : 0 < slotsPerHistoricalRoot consensus)
    (aligned : slotsPerHistoricalRoot consensus ∣ capellaForkSlot consensus) :
    (∀ slot,
      capellaForkSlot consensus ≤ slot →
      ∃ summaryInfo,
        getHistoricalSummaryInfo consensus slot = some summaryInfo ∧
        summaryInfo.summarySlot ≤ slot + slotsPerHistoricalRoot consensus ∧
        slot < summaryInfo.summarySlot ∧
        (chain.blockRoots consensus summaryInfo.summarySlot)[summaryInfo.rootIndex]? =
          some (chain.latestRoot slot) ∧
        ∀ finalizedSlot,
          summaryInfo.summarySlot ≤ finalizedSlot →
          summaryInfo.summaryIndex <
            (chain.historicalSummaries consensus finalizedSlot).length ∧
          (chain.historicalSummaries consensus finalizedSlot)[summaryInfo.summaryIndex]? =
            some
              { blockSummaryRoot :=
                  chain.hashTreeRoot
                    (chain.blockRoots consensus summaryInfo.summarySlot) }) ∧
    ∀ slot finalizedHeader world,
      (∃ resolution,
        Returns (resolveHistoricalSummaryContext consensus finalizedHeader slot) world
          resolution) ∧
      ∀ resolution,
        Returns (resolveHistoricalSummaryContext consensus finalizedHeader slot) world
          resolution →
        (resolution.IsAvailable ↔
          ∃ index,
            index <
              (chain.historicalSummaries consensus finalizedHeader.message.slot).length ∧
            BeaconChain.Covers consensus index slot) ∧
        ∀ context,
          resolution = .available context →
          ∃ summaryInfo,
            getHistoricalSummaryInfo consensus slot = some summaryInfo ∧
              context = contextOf consensus summaryInfo := by
  constructor
  · intro slot afterFork
    have offsetLt :
        summaryOffset consensus slot < slotsPerHistoricalRoot consensus :=
      Nat.mod_lt _ periodPositive
    have offsetLe : summaryOffset consensus slot ≤ slot := by
      have inside : summaryOffset consensus slot ≤ slot - capellaForkSlot consensus :=
        Nat.mod_le _ _
      omega
    have within :
        slot - summaryOffset consensus slot + slotsPerHistoricalRoot consensus ≤
          slot + slotsPerHistoricalRoot consensus := by
      omega
    have after :
        slot < slot - summaryOffset consensus slot + slotsPerHistoricalRoot consensus := by
      omega
    refine ⟨_, getHistoricalSummaryInfo_eq consensus afterFork, within, after, ?_, ?_⟩
    · exact BeaconChain.getElem?_blockRoots periodPositive after within
    · intro finalizedSlot reached
      have present :=
        (BeaconChain.summary_present_iff chain periodPositive aligned afterFork
          finalizedSlot).mpr reached
      refine ⟨present, ?_⟩
      rw [BeaconChain.getElem?_historicalSummaries chain aligned present]
      rw [periodEnd_eq consensus afterFork]
  · intro slot finalizedHeader world
    refine ⟨exists_resolution consensus finalizedHeader slot world, ?_⟩
    intro resolution returned
    refine ⟨?_, fun context isAvailable => context_of_available (isAvailable ▸ returned)⟩
    simp only [BeaconChain.covers_iff periodPositive]
    by_cases afterFork : capellaForkSlot consensus ≤ slot
    · rw [isAvailable_iff (getHistoricalSummaryInfo_eq consensus afterFork) returned]
      rw [← BeaconChain.summary_present_iff chain periodPositive aligned afterFork]
      simp [afterFork]
    · have beforeFork := getHistoricalSummaryInfo_none consensus (Nat.lt_of_not_le afterFork)
      rw [(returns_beforeCapella beforeFork).mp returned]
      simp [HistoricalSummaryResolution.IsAvailable, afterFork]

/-- A chain with a block at every slot. -/
def fullChain : BeaconChain where
  genesisRoot := 0
  blockAt := some
  hashTreeRoot := List.length

theorem historical_summaries_agree_sample :
    0 < (fullChain.historicalSummaries mainnetConsensus 6217728).length ∧
    (fullChain.blockRoots mainnetConsensus 6217728)[0]? =
      some (fullChain.latestRoot 6209536) := by
  have agree :=
    @historical_summaries_agree fullChain mainnetConsensus (by decide) (by decide)
  obtain ⟨summaryInfo, found, _, _, rootFound, present⟩ := agree.1 6209536 (by decide)
  have infoShape :
      getHistoricalSummaryInfo mainnetConsensus 6209536 =
        some { summaryIndex := 0, summarySlot := 6217728, rootIndex := 0 } := by
    decide
  rw [infoShape, Option.some.injEq] at found
  subst found
  exact ⟨(present 6217728 (Nat.le_refl _)).1, rootFound⟩

end CsmProver
