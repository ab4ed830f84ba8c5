import CsmProver.Execution

namespace CsmProver

/-!
# Fetching the fee history

The loop of `updateGasFeeHistoryCache` walks backwards in chunks.  A chunk begins
one block too late: its newest block is the oldest block of the chunk before it.  So
the fee at distance `i` from the latest block is read one block nearer for every
chunk border in between.
-/

namespace Execution

open Async

/-- The answer to `getFeeHistory`: the fees of the blocks, and of the block after them. -/
def feeHistory (baseFee : Nat → Nat) (blockCount newestBlock : Nat) : List Nat :=
  (List.range' (newestBlock + 1 - blockCount) (blockCount + 1)).map baseFee

/-- The fees of consecutive blocks up to the latest, in block order. -/
def blockFees (baseFee : Nat → Nat) (latest count : Nat) : List Nat :=
  (List.range' (latest + 1 - count) count).map baseFee

/-- A list by the distance of its entries from the last one. -/
def byDistance (entry : Nat → Nat) (count : Nat) : List Nat :=
  (List.range count).reverse.map entry

theorem dropLast_feeHistory
    (baseFee : Nat → Nat)
    (blockCount newestBlock : Nat) :
    (feeHistory baseFee blockCount newestBlock).dropLast =
      blockFees baseFee newestBlock blockCount := by
  unfold feeHistory blockFees
  rw [List.range'_concat, List.map_append]
  simp

theorem blockFees_eq_byDistance
    (baseFee : Nat → Nat)
    {latest count : Nat}
    (within : count ≤ latest + 1) :
    blockFees baseFee latest count =
      byDistance (fun distance => baseFee (latest - distance)) count := by
  unfold blockFees byDistance
  rw [← List.reverse_reverse (List.range' _ _), List.reverse_range', ← List.map_reverse,
    List.map_map]
  have newest : latest + 1 - count + count - 1 = latest := by omega
  rw [newest]
  rfl

/-- The entries beyond a distance come first. -/
theorem byDistance_add
    (entry : Nat → Nat)
    (near far : Nat) :
    byDistance entry (near + far) =
      byDistance (fun distance => entry (near + distance)) far ++ byDistance entry near := by
  unfold byDistance
  rw [List.range_add, List.reverse_append, List.map_append, ← List.map_reverse,
    List.map_map]
  rfl

theorem byDistance_congr_iff
    {first second : Nat → Nat}
    {count : Nat} :
    byDistance first count = byDistance second count ↔
      ∀ distance < count, first distance = second distance := by
  unfold byDistance
  rw [List.map_inj_left]
  simp

/-- Answers without any fee history. -/
def blankAnswers : ExecutionAnswers where
  pendingBaseFee := 10
  reward := []
  request := { toAddress := 5, data := "report" }
  estimatedGas := 100
  currentBaseFee := none
  latestBlockNumber := 0
  baseFeeHistory := fun _ _ => []
  sendingConfirmed := false
  hash := "hash"
  receiptStatus := 1

/-! ## The loop -/

section Loop

variable (config : ExecutionConfig) {answers : ExecutionAnswers} {baseFee : Nat → Nat}

/-- The block whose fee the loop puts in the place of the block at a distance. -/
def fetchedBlock (latest distance : Nat) : Nat :=
  latest - distance + distance / config.maxBlockcount

/-- The list the loop builds, by the distance from the newest block. -/
def fetchedFees (baseFee : Nat → Nat) (latest count : Nat) : List Nat :=
  byDistance (fun distance => baseFee (fetchedBlock config latest distance)) count

/-- A last chunk reads every block in its own place. -/
theorem fetchedFees_of_le
    {latest count : Nat}
    (within : count ≤ latest)
    (oneChunk : count ≤ config.maxBlockcount) :
    fetchedFees config baseFee latest count = blockFees baseFee latest count := by
  rw [blockFees_eq_byDistance baseFee (by omega)]
  unfold fetchedFees
  rw [byDistance_congr_iff]
  intro distance near
  have sameChunk : distance / config.maxBlockcount = 0 :=
    Nat.div_eq_of_lt (by omega)
  simp only [fetchedBlock, sameChunk, Nat.add_zero]

/-- Behind a full chunk the list goes on one block too near. -/
theorem fetchedFees_of_lt
    {latest count : Nat}
    (within : count ≤ latest)
    (severalChunks : config.maxBlockcount.1 < count) :
    fetchedFees config baseFee latest count =
      fetchedFees config baseFee (latest - (config.maxBlockcount - 1))
          (count - config.maxBlockcount) ++
        blockFees baseFee latest config.maxBlockcount := by
  have positive := config.maxBlockcount.2
  rw [← fetchedFees_of_le config (by omega) (Nat.le_refl _)]
  unfold fetchedFees
  have split :
      count = config.maxBlockcount.1 + (count - config.maxBlockcount) := by
    omega
  conv_lhs => rw [split, byDistance_add]
  congr 1
  rw [byDistance_congr_iff]
  intro distance far
  have nextChunk :
      (config.maxBlockcount.1 + distance) / config.maxBlockcount =
        distance / config.maxBlockcount + 1 := by
    rw [Nat.add_comm]
    exact Nat.add_div_right distance positive
  unfold fetchedBlock
  rw [nextChunk]
  congr 1
  omega

/-- Every returned list is the one the loop builds; the induction is on the fuel. -/
theorem fetchGasFees_returns
    (honest : answers.baseFeeHistory = feeHistory baseFee)
    {fuel count newest : Nat}
    (enough : count ≤ fuel)
    (within : count ≤ newest)
    {newGasFees result : List Nat}
    {world : ExecutionWorld}
    (returned :
      Returns (fetchGasFees config answers fuel count newest newGasFees) world result) :
    result = fetchedFees config baseFee newest count ++ newGasFees := by
  induction fuel generalizing count newest newGasFees world with
  | zero =>
      have nothing : count = 0 := by omega
      subst nothing
      exact returns_pure.mp returned
  | succ fuel inductionHypothesis =>
      unfold fetchGasFees at returned
      by_cases nothing : count = 0
      · subst nothing
        rw [if_pos rfl] at returned
        exact returns_pure.mp returned
      · have positive := config.maxBlockcount.2
        rw [if_neg nothing] at returned
        obtain ⟨moved, continued⟩ := returns_request_bind.mp returned
        rw [honest, dropLast_feeHistory] at continued
        have rest := inductionHypothesis (by omega) (by omega) continued
        rw [rest, ← List.append_assoc]
        congr 1
        by_cases oneChunk : count ≤ config.maxBlockcount
        · have whole : min count config.maxBlockcount.1 = count := by omega
          rw [whole, Nat.sub_self, fetchedFees_of_le config within oneChunk]
          rfl
        · have chunk : min count config.maxBlockcount.1 = config.maxBlockcount := by omega
          rw [chunk, fetchedFees_of_lt config within (by omega)]

/-- With every request answered the loop returns. -/
theorem fetchGasFees_finishes
    (answers : ExecutionAnswers)
    (fuel count newest : Nat)
    (newGasFees : List Nat)
    (world : ExecutionWorld) :
    ∃ result,
      finish (fetchGasFees config answers fuel count newest newGasFees) world =
        (.ok result, world) := by
  induction fuel generalizing count newest newGasFees with
  | zero =>
      exact ⟨newGasFees, rfl⟩
  | succ fuel inductionHypothesis =>
      unfold fetchGasFees
      by_cases nothing : count = 0
      · rw [if_pos nothing]
        exact ⟨newGasFees, rfl⟩
      · rw [if_neg nothing, finish_bind, finish_request]
        exact inductionHypothesis _ _ _

/-- The list is right exactly when the blocks read have the fees of those asked for. -/
theorem fetchedFees_eq_blockFees_iff
    {latest count : Nat}
    (within : count ≤ latest) :
    fetchedFees config baseFee latest count = blockFees baseFee latest count ↔
      ∀ distance < count,
        baseFee (fetchedBlock config latest distance) = baseFee (latest - distance) := by
  rw [blockFees_eq_byDistance baseFee (by omega)]
  unfold fetchedFees
  exact byDistance_congr_iff

end Loop

/--
The loop returns one list, and for `n` blocks up to the latest it is the list of
their fees exactly when each of them has the fee of the block that is read in its
place: the block one nearer for each full chunk behind it.  Whatever the fees are,
this is so exactly when one chunk is enough.
-/
theorem fetched_once_iff
    (config : ExecutionConfig)
    {latest count : Nat}
    (within : count ≤ latest) :
    (∀ (answers : ExecutionAnswers) (baseFee : Nat → Nat) (world : ExecutionWorld),
      answers.baseFeeHistory = feeHistory baseFee →
      ∃ newGasFees,
        (∀ result,
          Returns (fetchGasFees config answers count count latest []) world result ↔
            result = newGasFees) ∧
        (newGasFees = blockFees baseFee latest count ↔
          ∀ distance < count,
            baseFee (latest - distance + distance / config.maxBlockcount) =
              baseFee (latest - distance))) ∧
    ((∀ (answers : ExecutionAnswers) (baseFee : Nat → Nat) (world : ExecutionWorld)
        (result : List Nat),
      answers.baseFeeHistory = feeHistory baseFee →
      Returns (fetchGasFees config answers count count latest []) world result →
      result = blockFees baseFee latest count) ↔
      count ≤ config.maxBlockcount) := by
  have returns_iff :
      ∀ (answers : ExecutionAnswers) (baseFee : Nat → Nat) (world : ExecutionWorld),
        answers.baseFeeHistory = feeHistory baseFee →
        ∀ result,
          Returns (fetchGasFees config answers count count latest []) world result ↔
            result = fetchedFees config baseFee latest count := by
    intro answers baseFee world honest result
    constructor
    · intro returned
      have shape :=
        fetchGasFees_returns config honest (Nat.le_refl count) within returned
      rw [List.append_nil] at shape
      exact shape
    · rintro rfl
      obtain ⟨result, finished⟩ :=
        fetchGasFees_finishes config answers count count latest [] world
      have returned := returns_of_finish finished
      have shape :=
        fetchGasFees_returns config honest (Nat.le_refl count) within returned
      rw [List.append_nil] at shape
      rw [shape] at returned
      exact returned
  constructor
  · intro answers baseFee world honest
    exact ⟨_, returns_iff answers baseFee world honest,
      fetchedFees_eq_blockFees_iff config within⟩
  · constructor
    · intro always
      by_contra severalChunks
      -- With fees that grow the block behind the first full chunk is seen to be missed.
      have right :=
        always { blankAnswers with baseFeeHistory := feeHistory id } id (.starting 0) _ rfl
          ((returns_iff _ id _ rfl _).mpr rfl)
      have missed :=
        (fetchedFees_eq_blockFees_iff config within).mp right config.maxBlockcount
          (by omega)
      have oneChunk : config.maxBlockcount.1 / config.maxBlockcount = 1 :=
        Nat.div_self config.maxBlockcount.2
      simp only [fetchedBlock, oneChunk, id_eq] at missed
      omega
    · intro oneChunk answers baseFee world result honest returned
      rw [(returns_iff answers baseFee world honest result).mp returned]
      exact fetchedFees_of_le config within oneChunk

/-- The loop of a process that starts at block 300, with a fee for each block. -/
theorem fetched_once_sample :
    ∃ newGasFees,
      newGasFees = blockFees id 300 300 ∧
      Returns
        (fetchGasFees (.defaults (.defaults "module" 1))
          { blankAnswers with baseFeeHistory := feeHistory id } 300 300 300 [])
        (.starting 0) newGasFees := by
  have once :=
    @fetched_once_iff (.defaults (.defaults "module" 1)) 300 300 (Nat.le_refl 300)
  obtain ⟨newGasFees, returned, _⟩ :=
    once.1 { blankAnswers with baseFeeHistory := feeHistory id } id (.starting 0) rfl
  have right :=
    once.2.mpr (by decide) _ id _ newGasFees rfl ((returned newGasFees).mpr rfl)
  exact ⟨newGasFees, right, (returned newGasFees).mpr rfl⟩

/-- Block 1 of 1025 blocks is not read: block 2 is read twice. -/
theorem first_block_missed :
    ∃ newGasFees,
      Returns
        (fetchGasFees (.defaults (.defaults "module" 1))
          { blankAnswers with baseFeeHistory := feeHistory id } 1025 1025 1025 [])
        (.starting 0) newGasFees ∧
      newGasFees ≠ blockFees id 1025 1025 := by
  obtain ⟨newGasFees, finished⟩ :=
    fetchGasFees_finishes (.defaults (.defaults "module" 1))
      { blankAnswers with baseFeeHistory := feeHistory id } 1025 1025 1025 []
      (.starting 0)
  have returned := returns_of_finish finished
  refine ⟨newGasFees, returned, fun right => ?_⟩
  have shape :=
    fetchGasFees_returns (.defaults (.defaults "module" 1)) rfl (Nat.le_refl 1025)
      (Nat.le_refl 1025) returned
  rw [List.append_nil, right] at shape
  have read :=
    (fetchedFees_eq_blockFees_iff _ (Nat.le_refl 1025)).mp shape.symm 1024 (by decide)
  exact absurd read (by decide)

end Execution

end CsmProver
