import CsmProver.PayloadLoop
import CsmProver.MerkleTree
import Mathlib.Data.Nat.Pairing

namespace CsmProver

/-!
# Merkle proofs of the payloads

The witnesses a worker puts into its payloads, and the local check each of them
passes first.  Two of the generators prove a path through a tree in which a root
was replaced by the subtree it should be the root of; the check runs against the
tree as it was.

The hash of two nodes and the functions of the tree library are parameters.
-/

open MerkleTree

/-! ## Verification -/

section Verify

variable {α : Type} (hash : α → α → α)

/-- The loop over the witnesses: the index and the node they lead up to. -/
def climbProof : Nat → List α → α → Except Abort (Nat × α)
  | gI, [], buf => .ok (gI, buf)
  | gI, p :: proof, buf =>
      let buf := if gI % 2 = 0 then hash buf p else hash p buf
      let gI := gI / 2
      if gI = 0 then
        .error (.thrown "Branch has extra item")
      else
        climbProof gI proof buf

/-- `verifyProof`: climb to the root with the branch, and compare. -/
def verifyProof [DecidableEq α] (root : α) (gI : Nat) (proof : List α) (value : α) :
    Except Abort Unit := do
  let (gI, buf) ← climbProof hash gI proof value
  if gI ≠ 1 then
    throw (.thrown "Branch is missing items")
  if root ≠ buf then
    throw (.thrown "Proof is not valid")

end Verify

section Climb

variable {α : Type} {hash : α → α → α} {tree node : MerkleTree α}

/-- One step up from a child hashes it with its sibling, on the side it is. -/
theorem climbProof_child
    {gI : Nat}
    (positive : 1 ≤ gI)
    (side : Side)
    (p : α)
    (proof : List α)
    (buf : α) :
    climbProof hash (Gindex.child gI side) (p :: proof) buf =
      climbProof hash gI proof (side.pick (hash buf p) (hash p buf)) := by
  have notZero : gI ≠ 0 := by omega
  cases side with
  | left => simp [climbProof, notZero, Side.bit, Side.pick]
  | right => simp [climbProof, notZero, Side.bit, Side.pick]

/-- At the root every further witness is one too many. -/
theorem climbProof_one
    (p : α)
    (proof : List α)
    (buf : α) :
    climbProof hash 1 (p :: proof) buf =
      .error (.thrown "Branch has extra item") := by
  simp [climbProof]

/-- A climb that reaches the root has used one witness for each turn. -/
theorem length_of_climbProof
    {gI : Nat}
    {proof : List α}
    {value top : α}
    (reached : climbProof hash gI proof value = .ok (1, top)) :
    proof.length + 1 = gI.size := by
  induction proof generalizing gI value with
  | nil =>
      simp only [climbProof, Except.ok.injEq, Prod.mk.injEq] at reached
      rw [reached.1]
      simp
  | cons p rest inductionHypothesis =>
      by_cases belowRoot : gI / 2 = 0
      · simp [climbProof, belowRoot] at reached
      · simp only [climbProof, belowRoot, if_false] at reached
        have parent := inductionHypothesis reached
        have positive : 1 ≤ gI / 2 := by omega
        have bits : (Gindex.path gI).length = (Gindex.path (gI / 2)).length + 1 := by
          rw [← Gindex.child_of_div_two gI, Gindex.path_child positive]
          simp
        rw [← Gindex.length_path (by omega), bits, Gindex.length_path positive]
        rw [List.length_cons, parent]

/--
The climb from a node of the tree reaches the root of the tree exactly when it is
given the node and the siblings of its path.  The index is read from its last bit,
which is the last turn of the path, so the induction peels that turn off.
-/
theorem climbProof_eq_ok_iff
    (injective : Function.Injective2 hash)
    {gI : Nat}
    (positive : 1 ≤ gI)
    (found : tree.nodeAt (Gindex.path gI) = some node)
    (proof : List α)
    (value : α) :
    climbProof hash gI proof value = .ok (1, tree.root hash) ↔
      proof = tree.siblings hash (Gindex.path gI) ∧ value = node.root hash := by
  revert node proof value
  revert positive
  refine @Gindex.from_root
    (fun gI =>
      ∀ {node : MerkleTree α}, tree.nodeAt (Gindex.path gI) = some node →
        ∀ proof value,
          climbProof hash gI proof value = .ok (1, tree.root hash) ↔
            proof = tree.siblings hash (Gindex.path gI) ∧ value = node.root hash)
    ?root ?step gI
  case root =>
    intro node found proof value
    simp only [Gindex.path_one, nodeAt_nil, Option.some.injEq] at found
    subst found
    cases proof with
    | nil => simp [climbProof]
    | cons p rest => simp [climbProof_one]
  case step =>
    intro gI side positive inductionHypothesis node found proof value
    rw [Gindex.path_child positive] at found ⊢
    obtain ⟨left, right, parentFound, rfl⟩ := nodeAt_snoc found
    rw [siblings_snoc parentFound]
    cases proof with
    | nil =>
        have isRoot : Gindex.child gI side ≠ 1 := by
          have := Gindex.two_le_child positive side
          omega
        simp [climbProof, isRoot]
    | cons p rest =>
        rw [climbProof_child positive]
        rw [inductionHypothesis parentFound]
        cases side with
        | left =>
            have joined :
                hash value p = hash (left.root hash) (right.root hash) ↔
                  value = left.root hash ∧ p = right.root hash :=
              injective.eq_iff
            simp only [Side.pick, root, joined, List.cons.injEq]
            tauto
        | right =>
            have joined :
                hash p value = hash (left.root hash) (right.root hash) ↔
                  p = left.root hash ∧ value = right.root hash :=
              injective.eq_iff
            simp only [Side.pick, root, joined, List.cons.injEq]
            tauto

variable [DecidableEq α]

/-- A proof is accepted when the climb ends at the root with the root. -/
theorem verifyProof_eq_ok_iff_climb
    {root : α}
    {gI : Nat}
    {proof : List α}
    {value : α} :
    verifyProof hash root gI proof value = .ok () ↔
      climbProof hash gI proof value = .ok (1, root) := by
  unfold verifyProof
  cases climbed : climbProof hash gI proof value with
  | error reason =>
      simp [bind, Except.bind]
  | ok reached =>
      obtain ⟨top, buf⟩ := reached
      by_cases atRoot : top = 1
      · by_cases same : root = buf
        · simp [bind, Except.bind, atRoot, same, pure, Except.pure]
        · have differs : ¬ buf = root := fun equal => same equal.symm
          simp [bind, Except.bind, atRoot, same, differs, throw, throwThe,
            MonadExceptOf.throw]
      · simp [bind, Except.bind, atRoot, throw, throwThe, MonadExceptOf.throw]

/-- A witness list of another length than the path is refused at every index. -/
theorem verifyProof_rejects_length
    {gI : Nat}
    {proof : List α}
    (wrongLength : proof.length + 1 ≠ gI.size)
    (root value : α) :
    ∃ reason, verifyProof hash root gI proof value = .error reason := by
  cases verified : verifyProof hash root gI proof value with
  | error reason =>
      exact ⟨reason, rfl⟩
  | ok _ =>
      have reached := verifyProof_eq_ok_iff_climb.mp verified
      exact absurd (length_of_climbProof reached) wrongLength

end Climb

/--
The local check is sound and complete: at an index of the tree it accepts exactly
the value of the node together with the siblings of its path, and at any index it
throws for a witness list of another length.
-/
theorem verifyProof_sound_and_complete
    {α : Type}
    [DecidableEq α]
    {hash : α → α → α}
    (injective : Function.Injective2 hash) :
    (∀ (tree node : MerkleTree α) (gI : Nat),
      1 ≤ gI →
      tree.nodeAt (Gindex.path gI) = some node →
      ∀ (witnesses : List α) (value : α),
        verifyProof hash (tree.root hash) gI witnesses value = .ok () ↔
          witnesses = tree.siblings hash (Gindex.path gI) ∧ value = node.root hash) ∧
    ∀ (root : α) (gI : Nat) (witnesses : List α) (value : α),
      witnesses.length + 1 ≠ gI.size →
      ∃ reason, verifyProof hash root gI witnesses value = .error reason := by
  constructor
  · intro tree node gI positive found witnesses value
    rw [verifyProof_eq_ok_iff_climb]
    exact climbProof_eq_ok_iff injective positive found witnesses value
  · intro root gI witnesses value wrongLength
    exact verifyProof_rejects_length wrongLength root value

/-- A tree with nodes at two depths. -/
def sampleMerkleTree : MerkleTree Nat :=
  .fork (.fork (.leaf 1) (.leaf 2)) (.leaf 3)

/-- The pairing function stands for an injective hash. -/
theorem pair_injective : Function.Injective2 Nat.pair :=
  fun _ _ _ _ same => Nat.pair_eq_pair.mp same

theorem verifyProof_sound_and_complete_sample :
    verifyProof Nat.pair (sampleMerkleTree.root Nat.pair) 5 [1, 3] 2 = .ok () ∧
    ∃ reason, verifyProof Nat.pair (sampleMerkleTree.root Nat.pair) 0 [] 2 = .error reason := by
  have sound := verifyProof_sound_and_complete pair_injective
  exact
    ⟨(sound.1 sampleMerkleTree (.leaf 2) 5 (by decide) (by decide) [1, 3] 2).mpr (by decide),
      sound.2 _ 0 [] 2 (by decide)⟩

/-! ## Generation -/

/-- A proof of one node, as the tree library returns it. -/
structure SingleProof (α : Type) where
  gindex : Nat
  leaf : α
  witnesses : List α
  deriving Repr, DecidableEq

/-- The functions of `@chainsafe/persistent-merkle-tree` the generators call. -/
structure PersistentMerkleTree (α : Type) where
  setNode : MerkleTree α → Nat → MerkleTree α → Except Abort (MerkleTree α)
  concatGindices : List Nat → Nat
  createProof : MerkleTree α → Nat → Except Abort (SingleProof α)

/-- What the library documents: replacement of nodes, joined paths, sibling witnesses. -/
structure PersistentMerkleTree.Documented {α : Type} (hash : α → α → α)
    (library : PersistentMerkleTree α) : Prop where
  setNode :
    ∀ (tree subtree patched : MerkleTree α) (gI : Nat),
      1 ≤ gI →
      replace subtree tree (Gindex.path gI) = some patched →
      library.setNode tree gI subtree = .ok patched
  concatGindices :
    ∀ gIs : List Nat,
      (∀ gI ∈ gIs, 1 ≤ gI) →
      1 ≤ library.concatGindices gIs ∧
        Gindex.path (library.concatGindices gIs) = gIs.flatMap Gindex.path
  createProof :
    ∀ (tree node : MerkleTree α) (gI : Nat),
      1 ≤ gI →
      tree.nodeAt (Gindex.path gI) = some node →
      library.createProof tree gI =
        .ok
          { gindex := gI
            leaf := node.root hash
            witnesses := tree.siblings hash (Gindex.path gI) }

/-- A list or vector inside a view: its subtree and the index of each element in it. -/
structure ListView (α : Type) where
  node : MerkleTree α
  getPropertyGindex : Nat → Nat
  gindex_pos : ∀ index, 1 ≤ getPropertyGindex index

/-- The hash tree root of an element. -/
def ListView.getReadonly {α : Type} (hash : α → α → α) (view : ListView α)
    (index : Nat) : Except Abort α :=
  match view.node.nodeAt (Gindex.path (view.getPropertyGindex index)) with
  | some element => .ok (element.root hash)
  | none => .error .rejected

/-- A beacon state as a tree, with the indices its type gives to the proved fields. -/
structure StateView (α : Type) where
  node : MerkleTree α
  validatorGindex : Nat → Nat
  validatorRoot : Nat → Except Abort α
  balanceGindex : Nat → Nat
  withdrawalsRootGindex : Nat
  blockSummaryRootGindex : Nat → Nat
  blockRoots : ListView α
  withdrawalsRootGindex_pos : 1 ≤ withdrawalsRootGindex
  blockSummaryRootGindex_pos : ∀ index, 1 ≤ blockSummaryRootGindex index

/-- A beacon block, as far as the generators read it. -/
structure BlockView (α : Type) where
  withdrawals : ListView α

section Generate

variable {α : Type} (library : PersistentMerkleTree α)

/-- The proof of a validator in a state. -/
def generateValidatorProof (stateView : StateView α) (valIndex : Nat) :
    Except Abort (SingleProof α) :=
  library.createProof stateView.node (stateView.validatorGindex valIndex)

/-- The proof of the chunk that holds the balance of a validator. -/
def generateBalanceProof (stateView : StateView α) (validatorIndex : Nat) :
    Except Abort (SingleProof α) :=
  library.createProof stateView.node (stateView.balanceGindex validatorIndex)

/-- The proof of a node of `subtree` in the tree whose node at `gI` is replaced by it. -/
def createPatchedProof (tree : MerkleTree α) (gI : Nat) (subtree : MerkleTree α)
    (innerGI : Nat) : Except Abort (SingleProof α) := do
  let patchedTree ← library.setNode tree gI subtree
  library.createProof patchedTree (library.concatGindices [gI, innerGI])

/-- The proof of a withdrawal in a block, under the withdrawals root of its state. -/
def generateWithdrawalProof (stateView : StateView α) (blockView : BlockView α)
    (withdrawalOffset : Nat) : Except Abort (SingleProof α) :=
  createPatchedProof library stateView.node stateView.withdrawalsRootGindex
    blockView.withdrawals.node
    (blockView.withdrawals.getPropertyGindex withdrawalOffset)

/-- The proof of a block root in a summary, under the finalized state. -/
def generateHistoricalStateProof (finalizedStateView summaryStateView : StateView α)
    (summaryIndex rootIndex : Nat) : Except Abort (SingleProof α) :=
  createPatchedProof library finalizedStateView.node
    (finalizedStateView.blockSummaryRootGindex summaryIndex)
    summaryStateView.blockRoots.node
    (summaryStateView.blockRoots.getPropertyGindex rootIndex)

end Generate

/-! ## Payloads with their witnesses -/

/-- The witness lists of one withdrawal payload. -/
structure WithdrawalWitnesses (α : Type) where
  withdrawal : List α
  validator : List α
  withdrawalBlock : List α
  deriving Repr, DecidableEq

/-- The witness lists of one balance payload. -/
structure BalanceWitnesses (α : Type) where
  balance : List α
  validator : List α
  historicalBlock : List α
  deriving Repr, DecidableEq

/-- A payload of a worker's body together with the witnesses it generates for it. -/
def withWitnesses {π ω : Type} (payload : Except Abort (Option π))
    (witnesses : Except Abort ω) : Except Abort (Option (π × ω)) := do
  match ← payload with
  | none => return none
  | some payload => return some (payload, ← witnesses)

section Build

variable {α : Type} [DecidableEq α] (hash : α → α → α)
variable (library : PersistentMerkleTree α)

/-- `verifyProof` of a generated proof against the root of a state. -/
def verifyLocally (stateView : StateView α) (proof : SingleProof α) (value : α) :
    Except Abort Unit :=
  verifyProof hash (stateView.node.root hash) proof.gindex proof.witnesses value

/-- Both proofs of a recent withdrawal are checked before they are used. -/
def generalWithdrawalWitnesses (stateView : StateView α) (currentBlockView : BlockView α)
    (valIndex withdrawalOffset : Nat) : Except Abort (WithdrawalWitnesses α) := do
  let validatorProof ← generateValidatorProof library stateView valIndex
  let withdrawalProof ←
    generateWithdrawalProof library stateView currentBlockView withdrawalOffset
  verifyLocally hash stateView validatorProof (← stateView.validatorRoot valIndex)
  verifyLocally hash stateView withdrawalProof
    (← currentBlockView.withdrawals.getReadonly hash withdrawalOffset)
  .ok
    { withdrawal := withdrawalProof.witnesses
      validator := validatorProof.witnesses
      withdrawalBlock := [] }

/-- Which views a historical proof is built from, and where it looks in them. -/
structure HistoricalViews (α : Type) where
  finalizedStateView : StateView α
  summaryStateView : StateView α
  summaryIndex : Nat
  rootIndexInSummary : Nat

/-- The proof of an old block root that the views are for. -/
def HistoricalViews.generateProof (views : HistoricalViews α) :
    Except Abort (SingleProof α) :=
  generateHistoricalStateProof library views.finalizedStateView views.summaryStateView
    views.summaryIndex views.rootIndexInSummary

/-- It is checked against the block root that the summary holds. -/
def HistoricalViews.verify (views : HistoricalViews α) (proof : SingleProof α) :
    Except Abort Unit := do
  verifyLocally hash views.finalizedStateView proof
    (← views.summaryStateView.blockRoots.getReadonly hash views.rootIndexInSummary)

/-- All three proofs of an old withdrawal are checked. -/
def historicalWithdrawalWitnesses (stateWithWdsView : StateView α)
    (blockWithWdsView : BlockView α) (views : HistoricalViews α)
    (valIndex withdrawalOffset : Nat) : Except Abort (WithdrawalWitnesses α) := do
  let validatorProof ← generateValidatorProof library stateWithWdsView valIndex
  let withdrawalProof ←
    generateWithdrawalProof library stateWithWdsView blockWithWdsView withdrawalOffset
  let historicalStateProof ← views.generateProof library
  verifyLocally hash stateWithWdsView validatorProof
    (← stateWithWdsView.validatorRoot valIndex)
  verifyLocally hash stateWithWdsView withdrawalProof
    (← blockWithWdsView.withdrawals.getReadonly hash withdrawalOffset)
  views.verify hash historicalStateProof
  .ok
    { withdrawal := withdrawalProof.witnesses
      validator := validatorProof.witnesses
      withdrawalBlock := historicalStateProof.witnesses }

/-- The balance proof is checked with the leaf it was generated with. -/
def balanceWitnesses (stateView : StateView α) (historicalBlock : List α)
    (valIndex : Nat) : Except Abort (BalanceWitnesses α) := do
  let validatorProof ← generateValidatorProof library stateView valIndex
  let balanceProof ← generateBalanceProof library stateView valIndex
  verifyLocally hash stateView validatorProof (← stateView.validatorRoot valIndex)
  verifyLocally hash stateView balanceProof balanceProof.leaf
  .ok
    { balance := balanceProof.witnesses
      validator := validatorProof.witnesses
      historicalBlock := historicalBlock }

/-- A slashing is proved by the validator. -/
def slashingWitnesses (stateView : StateView α) (valIndex : Nat) :
    Except Abort (List α) := do
  let validatorProof ← generateValidatorProof library stateView valIndex
  verifyLocally hash stateView validatorProof (← stateView.validatorRoot valIndex)
  .ok validatorProof.witnesses

/-- `buildSlashingProofPayloads`, with the witnesses. -/
def buildSlashingProofPayloads (state : State) (recentBlock : RecentBlock)
    (stateView : StateView α) (slashings : InvolvedKeys) :
    Except Abort (List (Slashings.ProcessSlashedInput × List α)) :=
  buildPayloads
    (fun valIndex keyInfo =>
      withWitnesses (Slashings.buildSlashingProofPayload state recentBlock valIndex keyInfo)
        (slashingWitnesses hash library stateView valIndex))
    slashings

section Withdrawals

variable (state : State) (epoch : Nat) (withdrawalBlock : BlockHeaderResponse)
variable (recentBlock : RecentBlock)

/-- `buildGeneralWithdrawalsProofPayloads`, with the witnesses. -/
def buildGeneralWithdrawalsProofPayloads (stateView : StateView α)
    (currentBlockView : BlockView α)
    (withdrawals : List (Nat × Withdrawals.KeyWithWithdrawal)) :
    Except Abort (List (Withdrawals.ProcessWithdrawalInput × WithdrawalWitnesses α)) :=
  buildPayloads
    (fun valIndex involved =>
      withWitnesses
        (Withdrawals.buildWithdrawalProofPayload state epoch withdrawalBlock recentBlock
          valIndex involved)
        (generalWithdrawalWitnesses hash library stateView currentBlockView valIndex
          involved.offset))
    withdrawals

/-- `buildHistoricalWithdrawalsProofPayloads`, with the witnesses. -/
def buildHistoricalWithdrawalsProofPayloads (stateWithWdsView : StateView α)
    (blockWithWdsView : BlockView α) (views : HistoricalViews α)
    (withdrawals : List (Nat × Withdrawals.KeyWithWithdrawal)) :
    Except Abort (List (Withdrawals.ProcessWithdrawalInput × WithdrawalWitnesses α)) :=
  buildPayloads
    (fun valIndex involved =>
      withWitnesses
        (Withdrawals.buildWithdrawalProofPayload state epoch withdrawalBlock recentBlock
          valIndex involved)
        (historicalWithdrawalWitnesses hash library stateWithWdsView blockWithWdsView
          views valIndex involved.offset))
    withdrawals

end Withdrawals

/-- `buildBalanceProofPayloads`, with the witnesses. -/
def buildBalanceProofPayloads (state : State) (currentHeader : BlockHeaderResponse)
    (recentBlock : RecentBlock) (stateView : StateView α) (keys : InvolvedKeys) :
    Except Abort (List (Balances.ProcessBalanceProofInput × BalanceWitnesses α)) :=
  buildPayloads
    (fun valIndex keyInfo =>
      withWitnesses
        (Balances.buildBalanceProofPayload state currentHeader recentBlock valIndex keyInfo)
        (balanceWitnesses hash library stateView [] valIndex))
    keys

/-- The historical proof is the same for all keys: it is checked before the loop. -/
def buildHistoricalBalanceProofPayloads (state : State)
    (balanceBlock : BlockHeaderResponse) (recentBlock : RecentBlock)
    (stateWithBalancesView : StateView α) (views : HistoricalViews α)
    (keys : InvolvedKeys) :
    Except Abort (List (Balances.ProcessBalanceProofInput × BalanceWitnesses α)) := do
  let historicalStateProof ← views.generateProof library
  views.verify hash historicalStateProof
  buildPayloads
    (fun valIndex keyInfo =>
      withWitnesses
        (Balances.buildBalanceProofPayload state balanceBlock recentBlock valIndex keyInfo)
        (balanceWitnesses hash library stateWithBalancesView
          historicalStateProof.witnesses valIndex))
    keys

end Build

/-! ## Patched proofs -/

section Patched

variable {α : Type} {hash : α → α → α} {library : PersistentMerkleTree α}
variable {tree node subtree inner : MerkleTree α} {gI innerGI : Nat}

/--
The generated witnesses lead from the inner node to the root of the patched tree.
They are the siblings of the whole path: those above the replaced node are the
siblings of the unpatched tree.
-/
theorem createPatchedProof_climbs
    (documented : library.Documented hash)
    (injective : Function.Injective2 hash)
    (positive : 1 ≤ gI)
    (innerPositive : 1 ≤ innerGI)
    (found : tree.nodeAt (Gindex.path gI) = some node)
    (innerFound : subtree.nodeAt (Gindex.path innerGI) = some inner) :
    ∃ proof patched,
      createPatchedProof library tree gI subtree innerGI = .ok proof ∧
      proof.gindex = library.concatGindices [gI, innerGI] ∧
      replace subtree tree (Gindex.path gI) = some patched ∧
      climbProof hash proof.gindex proof.witnesses (inner.root hash) =
        .ok (1, patched.root hash) := by
  obtain ⟨patched, replaced⟩ := exists_replace subtree found
  obtain ⟨concatPositive, concatPath⟩ :=
    documented.concatGindices [gI, innerGI] (by simp [positive, innerPositive])
  have innerAt :
      patched.nodeAt (Gindex.path (library.concatGindices [gI, innerGI])) = some inner := by
    rw [concatPath]
    simp only [List.flatMap_cons, List.flatMap_nil, List.append_nil]
    rw [nodeAt_append _ _ (nodeAt_replace replaced)]
    exact innerFound
  have created :
      createPatchedProof library tree gI subtree innerGI =
        library.createProof patched (library.concatGindices [gI, innerGI]) := by
    unfold createPatchedProof
    rw [documented.setNode tree subtree patched gI positive replaced]
    rfl
  rw [documented.createProof patched inner _ concatPositive innerAt] at created
  have climbs :=
    (climbProof_eq_ok_iff injective concatPositive innerAt _ _).mpr ⟨rfl, rfl⟩
  exact ⟨_, patched, created, rfl, replaced, climbs⟩

variable [DecidableEq α]

/-- The check against the unpatched tree accepts exactly a subtree of the right root. -/
theorem verifyProof_createPatchedProof
    (documented : library.Documented hash)
    (injective : Function.Injective2 hash)
    (positive : 1 ≤ gI)
    (innerPositive : 1 ≤ innerGI)
    (found : tree.nodeAt (Gindex.path gI) = some node)
    (innerFound : subtree.nodeAt (Gindex.path innerGI) = some inner) :
    ∃ proof,
      createPatchedProof library tree gI subtree innerGI = .ok proof ∧
      proof.gindex = library.concatGindices [gI, innerGI] ∧
      (verifyProof hash (tree.root hash) proof.gindex proof.witnesses (inner.root hash) =
          .ok () ↔
        subtree.root hash = node.root hash) := by
  obtain ⟨proof, patched, created, index, replaced, climbs⟩ :=
    createPatchedProof_climbs documented injective positive innerPositive found innerFound
  refine ⟨proof, created, index, ?_⟩
  rw [verifyProof_eq_ok_iff_climb, climbs]
  simp only [Except.ok.injEq, Prod.mk.injEq, true_and]
  exact root_replace_eq_iff injective found replaced

end Patched

/-! ## Local checks of the builders -/

/-- A payload leaves the body only with the witnesses that passed their checks. -/
theorem withWitnesses_eq_some
    {π ω : Type}
    {payload : Except Abort (Option π)}
    {witnesses : Except Abort ω}
    {pair : π × ω}
    (built : withWitnesses payload witnesses = .ok (some pair)) :
    witnesses = .ok pair.2 := by
  obtain ⟨result, _, rest⟩ := except_bind_eq_ok.mp built
  cases result with
  | none =>
      cases rest
  | some payload =>
      obtain ⟨checked, succeeded, joined⟩ := except_bind_eq_ok.mp rest
      cases joined
      exact succeeded

section Checks

variable {α : Type} [DecidableEq α] {hash : α → α → α} {library : PersistentMerkleTree α}
variable {node : MerkleTree α}

/-- The generated proof of an element of a view, checked with the value read there. -/
theorem checked_iff
    (documented : library.Documented hash)
    (injective : Function.Injective2 hash)
    {tree : MerkleTree α}
    {gI : Nat}
    (positive : 1 ≤ gI)
    (found : tree.nodeAt (Gindex.path gI) = some node)
    {view : ListView α}
    {index : Nat}
    {value : α}
    (elementRead : view.getReadonly hash index = .ok value) :
    ∃ proof,
      createPatchedProof library tree gI view.node (view.getPropertyGindex index) =
        .ok proof ∧
      (verifyProof hash (tree.root hash) proof.gindex proof.witnesses value = .ok () ↔
        view.node.root hash = node.root hash) := by
  unfold ListView.getReadonly at elementRead
  cases elementFound :
      view.node.nodeAt (Gindex.path (view.getPropertyGindex index)) with
  | none =>
      rw [elementFound] at elementRead
      cases elementRead
  | some element =>
      rw [elementFound] at elementRead
      cases elementRead
      obtain ⟨proof, created, _, accepts⟩ :=
        verifyProof_createPatchedProof documented injective positive
          (view.gindex_pos index) found elementFound
      exact ⟨proof, created, accepts⟩

/-- When the check passes, the tree commits to the view the element was read from. -/
theorem root_eq_of_checked
    (documented : library.Documented hash)
    (injective : Function.Injective2 hash)
    {tree : MerkleTree α}
    {gI : Nat}
    (positive : 1 ≤ gI)
    (found : tree.nodeAt (Gindex.path gI) = some node)
    {view : ListView α}
    {index : Nat}
    {proof : SingleProof α}
    (created :
      createPatchedProof library tree gI view.node (view.getPropertyGindex index) =
        .ok proof)
    {value : α}
    (elementRead : view.getReadonly hash index = .ok value)
    (verified :
      verifyProof hash (tree.root hash) proof.gindex proof.witnesses value = .ok ()) :
    view.node.root hash = node.root hash := by
  obtain ⟨expected, expectedCreated, accepts⟩ :=
    checked_iff documented injective positive found elementRead
  rw [created] at expectedCreated
  cases expectedCreated
  exact accepts.mp verified

variable {stateView : StateView α} {blockView : BlockView α} {views : HistoricalViews α}

/-- A checked withdrawal proof shows that the two withdrawal roots are one. -/
theorem withdrawals_root_of_general
    (documented : library.Documented hash)
    (injective : Function.Injective2 hash)
    (found : stateView.node.nodeAt (Gindex.path stateView.withdrawalsRootGindex) = some node)
    {valIndex withdrawalOffset : Nat}
    {witnesses : WithdrawalWitnesses α}
    (checked :
      generalWithdrawalWitnesses hash library stateView blockView valIndex
        withdrawalOffset = .ok witnesses) :
    blockView.withdrawals.node.root hash = node.root hash := by
  obtain ⟨_, _, rest⟩ := except_bind_eq_ok.mp checked
  obtain ⟨withdrawalProof, created, rest⟩ := except_bind_eq_ok.mp rest
  obtain ⟨_, _, rest⟩ := except_bind_eq_ok.mp rest
  obtain ⟨_, _, rest⟩ := except_bind_eq_ok.mp rest
  obtain ⟨value, elementRead, rest⟩ := except_bind_eq_ok.mp rest
  obtain ⟨_, verified, _⟩ := except_bind_eq_ok.mp rest
  exact root_eq_of_checked documented injective stateView.withdrawalsRootGindex_pos
    found created elementRead verified

/-- A checked historical proof shows that the summary has the root of its block roots. -/
theorem blockRoots_root_of_verify
    (documented : library.Documented hash)
    (injective : Function.Injective2 hash)
    (found :
      views.finalizedStateView.node.nodeAt
        (Gindex.path
          (views.finalizedStateView.blockSummaryRootGindex views.summaryIndex)) =
        some node)
    {proof : SingleProof α}
    (created : views.generateProof library = .ok proof)
    (verified : views.verify hash proof = .ok ()) :
    views.summaryStateView.blockRoots.node.root hash = node.root hash := by
  obtain ⟨value, elementRead, accepted⟩ := except_bind_eq_ok.mp verified
  exact root_eq_of_checked documented injective
    (views.finalizedStateView.blockSummaryRootGindex_pos views.summaryIndex)
    found created elementRead accepted

/-- The witnesses of a historical withdrawal pass all three checks. -/
theorem checks_of_historical
    {valIndex withdrawalOffset : Nat}
    {witnesses : WithdrawalWitnesses α}
    (checked :
      historicalWithdrawalWitnesses hash library stateView blockView views valIndex
        withdrawalOffset = .ok witnesses) :
    generalWithdrawalWitnesses hash library stateView blockView valIndex
        withdrawalOffset = .ok { witnesses with withdrawalBlock := [] } ∧
      ∃ proof,
        views.generateProof library = .ok proof ∧ views.verify hash proof = .ok () := by
  obtain ⟨validatorProof, validatorCreated, rest⟩ := except_bind_eq_ok.mp checked
  obtain ⟨withdrawalProof, withdrawalCreated, rest⟩ := except_bind_eq_ok.mp rest
  obtain ⟨historicalProof, historicalCreated, rest⟩ := except_bind_eq_ok.mp rest
  obtain ⟨validatorRoot, rootRead, rest⟩ := except_bind_eq_ok.mp rest
  obtain ⟨_, validatorVerified, rest⟩ := except_bind_eq_ok.mp rest
  obtain ⟨value, elementRead, rest⟩ := except_bind_eq_ok.mp rest
  obtain ⟨_, withdrawalVerified, rest⟩ := except_bind_eq_ok.mp rest
  obtain ⟨_, historicalVerified, returned⟩ := except_bind_eq_ok.mp rest
  cases returned
  refine ⟨?general, historicalProof, historicalCreated, historicalVerified⟩
  case general =>
    simp only [generalWithdrawalWitnesses, except_bind_eq_ok]
    exact ⟨_, validatorCreated, _, withdrawalCreated, _, rootRead, _, validatorVerified,
      _, elementRead, _, withdrawalVerified, rfl⟩

end Checks

/--
A proof generated from a patched tree passes the check against the unpatched state
exactly when the subtree has the root the state commits to.  The builders therefore
never return a payload for a block or a summary state of another state.
-/
theorem patched_proofs_valid_iff
    {α : Type}
    [DecidableEq α]
    {hash : α → α → α}
    {library : PersistentMerkleTree α}
    (documented : library.Documented hash)
    (injective : Function.Injective2 hash) :
    (∀ (tree node subtree inner : MerkleTree α) (gI innerGI : Nat),
      1 ≤ gI →
      1 ≤ innerGI →
      tree.nodeAt (Gindex.path gI) = some node →
      subtree.nodeAt (Gindex.path innerGI) = some inner →
      ∃ proof,
        createPatchedProof library tree gI subtree innerGI = .ok proof ∧
        proof.gindex = library.concatGindices [gI, innerGI] ∧
        (verifyProof hash (tree.root hash) proof.gindex proof.witnesses
            (inner.root hash) = .ok () ↔
          subtree.root hash = node.root hash)) ∧
    (∀ (stateView : StateView α) (blockView : BlockView α) (node : MerkleTree α)
        (withdrawalOffset : Nat) (value : α),
      stateView.node.nodeAt (Gindex.path stateView.withdrawalsRootGindex) = some node →
      blockView.withdrawals.getReadonly hash withdrawalOffset = .ok value →
      ∃ proof,
        generateWithdrawalProof library stateView blockView withdrawalOffset =
          .ok proof ∧
        (verifyLocally hash stateView proof value = .ok () ↔
          blockView.withdrawals.node.root hash = node.root hash)) ∧
    (∀ (views : HistoricalViews α) (node : MerkleTree α) (value : α),
      views.finalizedStateView.node.nodeAt
          (Gindex.path
            (views.finalizedStateView.blockSummaryRootGindex views.summaryIndex)) =
        some node →
      views.summaryStateView.blockRoots.getReadonly hash views.rootIndexInSummary =
        .ok value →
      ∃ proof,
        views.generateProof library = .ok proof ∧
        (views.verify hash proof = .ok () ↔
          views.summaryStateView.blockRoots.node.root hash = node.root hash)) ∧
    (∀ (stateView : StateView α) (blockView : BlockView α) (node : MerkleTree α),
      stateView.node.nodeAt (Gindex.path stateView.withdrawalsRootGindex) = some node →
      blockView.withdrawals.node.root hash ≠ node.root hash →
      ∀ state epoch withdrawalBlock recentBlock views withdrawals payloads,
        (buildGeneralWithdrawalsProofPayloads hash library state epoch withdrawalBlock
            recentBlock stateView blockView withdrawals = .ok payloads →
          payloads = []) ∧
        (buildHistoricalWithdrawalsProofPayloads hash library state epoch withdrawalBlock
            recentBlock stateView blockView views withdrawals = .ok payloads →
          payloads = [])) ∧
    (∀ (views : HistoricalViews α) (node : MerkleTree α),
      views.finalizedStateView.node.nodeAt
          (Gindex.path
            (views.finalizedStateView.blockSummaryRootGindex views.summaryIndex)) =
        some node →
      views.summaryStateView.blockRoots.node.root hash ≠ node.root hash →
      (∀ state epoch withdrawalBlock recentBlock stateView blockView withdrawals payloads,
        buildHistoricalWithdrawalsProofPayloads hash library state epoch withdrawalBlock
            recentBlock stateView blockView views withdrawals = .ok payloads →
          payloads = []) ∧
      ∀ state balanceBlock recentBlock stateView keys, ∃ reason,
        buildHistoricalBalanceProofPayloads hash library state balanceBlock recentBlock
            stateView views keys = .error reason) := by
  refine ⟨?patched, ?withdrawal, ?historical, ?block, ?summary⟩
  case patched =>
    intro tree node subtree inner gI innerGI positive innerPositive found innerFound
    exact verifyProof_createPatchedProof documented injective positive innerPositive
      found innerFound
  case withdrawal =>
    intro stateView blockView node withdrawalOffset value found elementRead
    exact checked_iff documented injective stateView.withdrawalsRootGindex_pos found
      elementRead
  case historical =>
    intro views node value found elementRead
    obtain ⟨proof, created, accepts⟩ :=
      checked_iff documented injective
        (views.finalizedStateView.blockSummaryRootGindex_pos views.summaryIndex) found
        elementRead
    refine ⟨proof, created, ?_⟩
    unfold HistoricalViews.verify
    rw [elementRead]
    exact accepts
  case block =>
    intro stateView blockView node found differs state epoch withdrawalBlock recentBlock
      views withdrawals payloads
    constructor
    · intro built
      refine List.eq_nil_iff_forall_not_mem.mpr fun payload member => ?_
      obtain ⟨entry, _, entryBuilt⟩ := (mem_buildPayloads_iff built).mp member
      exact differs
        (withdrawals_root_of_general documented injective found
          (withWitnesses_eq_some entryBuilt))
    · intro built
      refine List.eq_nil_iff_forall_not_mem.mpr fun payload member => ?_
      obtain ⟨entry, _, entryBuilt⟩ := (mem_buildPayloads_iff built).mp member
      have checks := checks_of_historical (withWitnesses_eq_some entryBuilt)
      exact differs (withdrawals_root_of_general documented injective found checks.1)
  case summary =>
    intro views node found differs
    constructor
    · intro state epoch withdrawalBlock recentBlock stateView blockView withdrawals
        payloads built
      refine List.eq_nil_iff_forall_not_mem.mpr fun payload member => ?_
      obtain ⟨entry, _, entryBuilt⟩ := (mem_buildPayloads_iff built).mp member
      obtain ⟨_, proof, created, verified⟩ :=
        checks_of_historical (withWitnesses_eq_some entryBuilt)
      exact differs
        (blockRoots_root_of_verify documented injective found created verified)
    · intro state balanceBlock recentBlock stateView keys
      cases built :
          buildHistoricalBalanceProofPayloads hash library state balanceBlock
            recentBlock stateView views keys with
      | error reason =>
          exact ⟨reason, rfl⟩
      | ok payloads =>
          obtain ⟨proof, created, rest⟩ := except_bind_eq_ok.mp built
          obtain ⟨_, verified, _⟩ := except_bind_eq_ok.mp rest
          exact absurd
            (blockRoots_root_of_verify documented injective found created verified)
            differs

/-- The library as its documentation describes it. -/
def PersistentMerkleTree.reference {α : Type} (hash : α → α → α) :
    PersistentMerkleTree α where
  setNode := fun tree gI subtree =>
    match replace subtree tree (Gindex.path gI) with
    | some patched => .ok patched
    | none => .error (.thrown "Invalid tree navigation")
  concatGindices := fun gIs => gIs.foldl Gindex.concat 1
  createProof := fun tree gI =>
    match tree.nodeAt (Gindex.path gI) with
    | some node =>
        .ok
          { gindex := gI
            leaf := node.root hash
            witnesses := tree.siblings hash (Gindex.path gI) }
    | none => .error (.thrown "Invalid tree navigation")

/-- The tree library can be as it is documented. -/
theorem PersistentMerkleTree.reference_documented
    {α : Type}
    (hash : α → α → α) :
    (PersistentMerkleTree.reference hash).Documented hash where
  setNode := by
    intro tree subtree patched gI _ replaced
    simp only [reference, replaced]
  concatGindices := by
    intro gIs _
    exact Gindex.foldl_concat (Nat.le_refl 1) gIs
  createProof := by
    intro tree node gI _ found
    simp only [reference, found]

/-- A state that commits to a list of two withdrawals at index `4`. -/
def sampleState : MerkleTree Nat :=
  .fork (.fork (.leaf (Nat.pair 1 2)) (.leaf 5)) (.leaf 3)

def sampleWithdrawals : MerkleTree Nat :=
  .fork (.leaf 1) (.leaf 2)

theorem patched_proofs_valid_iff_sample :
    ∃ proof,
      createPatchedProof (PersistentMerkleTree.reference Nat.pair) sampleState 4
        sampleWithdrawals 3 = .ok proof ∧
      verifyProof Nat.pair (sampleState.root Nat.pair) proof.gindex proof.witnesses 2 =
        .ok () := by
  have valid :=
    patched_proofs_valid_iff (PersistentMerkleTree.reference_documented Nat.pair)
      pair_injective
  obtain ⟨proof, created, _, accepts⟩ :=
    valid.1 sampleState (.leaf (Nat.pair 1 2)) sampleWithdrawals (.leaf 2) 4 3
      (by decide) (by decide) (by decide) (by decide)
  exact ⟨proof, created, accepts.mpr rfl⟩

end CsmProver
