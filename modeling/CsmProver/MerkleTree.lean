import Mathlib.Data.Nat.Size
import Mathlib.Logic.Function.Basic

namespace CsmProver

/-!
# Binary Merkle trees and generalized indices

A node of a binary tree is addressed by the turns taken from the root down to it,
or by a generalized index: the root is `1` and the children of `g` are `2 * g` and
`2 * g + 1`.  This module relates the two addresses, replaces nodes, and lists the
siblings that authenticate a node.

The hash is a parameter; what needs it to be injective says so.
-/

/-- A turn on the way from a node to one of its children. -/
inductive Side where
  | left
  | right
  deriving Repr, DecidableEq

namespace Side

variable {β : Type}

/-- The one of two values that lies on this side. -/
def pick : Side → β → β → β
  | .left, first, _ => first
  | .right, _, second => second

def bit : Side → Nat
  | .left => 0
  | .right => 1

end Side

/-! ## Generalized indices -/

namespace Gindex

/-- The index of a child. -/
def child (gindex : Nat) (side : Side) : Nat :=
  2 * gindex + side.bit

/-- The side on which a node lies below its parent. -/
def side (gindex : Nat) : Side :=
  if gindex % 2 = 0 then .left else .right

/-- The turns that lead to a node, with enough fuel to reach the root from it. -/
def pathWithin : Nat → Nat → List Side
  | 0, _ => []
  | fuel + 1, gindex =>
      if gindex ≤ 1 then
        []
      else
        pathWithin fuel (gindex / 2) ++ [side gindex]

/-- The turns that lead from the root to a node. -/
def path (gindex : Nat) : List Side :=
  pathWithin gindex gindex

/-- The index of the node that lies below `outer` as `inner` lies below the root. -/
def concat (outer inner : Nat) : Nat :=
  (path inner).foldl child outer

@[simp] theorem child_div_two
    (gindex : Nat)
    (side : Side) :
    child gindex side / 2 = gindex := by
  cases side <;> simp only [child, Side.bit] <;> omega

@[simp] theorem child_mod_two
    (gindex : Nat)
    (side : Side) :
    child gindex side % 2 = side.bit := by
  cases side <;> simp only [child, Side.bit] <;> omega

@[simp] theorem side_child
    (gindex : Nat)
    (turn : Side) :
    side (child gindex turn) = turn := by
  cases turn <;> simp [side, Side.bit]

theorem child_pos
    {gindex : Nat}
    (positive : 1 ≤ gindex)
    (side : Side) :
    1 ≤ child gindex side := by
  simp only [child]
  omega

theorem two_le_child
    {gindex : Nat}
    (positive : 1 ≤ gindex)
    (side : Side) :
    2 ≤ child gindex side := by
  simp only [child]
  omega

/-- Every index below the root is the child of its half. -/
theorem child_of_div_two
    (gindex : Nat) :
    child (gindex / 2) (side gindex) = gindex := by
  by_cases even : gindex % 2 = 0
  · simp only [child, side, even, if_true, Side.bit]
    omega
  · simp only [child, side, even, if_false, Side.bit]
    omega

/-- What holds of the root and passes to children holds of every index. -/
theorem from_root
    {property : Nat → Prop}
    (root : property 1)
    (step :
      ∀ gindex side, 1 ≤ gindex → property gindex → property (child gindex side))
    {gindex : Nat}
    (positive : 1 ≤ gindex) :
    property gindex := by
  induction gindex using Nat.strongRecOn with
  | ind gindex inductionHypothesis =>
      by_cases isRoot : gindex = 1
      · rw [isRoot]
        exact root
      · have parentPositive : 1 ≤ gindex / 2 := by omega
        have parent := inductionHypothesis (gindex / 2) (by omega) parentPositive
        rw [← child_of_div_two gindex]
        exact step _ _ parentPositive parent

/-- More fuel than the index needs does not change the path. -/
theorem pathWithin_eq
    {fuel gindex : Nat}
    (enough : gindex ≤ fuel) :
    pathWithin fuel gindex = path gindex := by
  induction fuel using Nat.strongRecOn generalizing gindex with
  | ind fuel inductionHypothesis =>
      match fuel, gindex with
      | 0, gindex =>
          have isZero : gindex = 0 := by omega
          subst isZero
          rfl
      | fuel + 1, 0 =>
          simp [path, pathWithin]
      | fuel + 1, gindex + 1 =>
          simp only [path, pathWithin]
          split
          · rfl
          · rw [inductionHypothesis fuel (by omega) (by omega)]
            rw [inductionHypothesis gindex (by omega) (by omega)]

@[simp] theorem path_one :
    path 1 = [] :=
  rfl

/-- The path to a child is the path to its parent and one more turn. -/
@[simp] theorem path_child
    {gindex : Nat}
    (positive : 1 ≤ gindex)
    (side : Side) :
    path (child gindex side) = path gindex ++ [side] := by
  obtain ⟨fuel, fuelShape⟩ :=
    Nat.exists_eq_add_of_le' (child_pos positive side)
  have parent : child gindex side / 2 = gindex := child_div_two gindex side
  have below := two_le_child positive side
  rw [path, fuelShape, pathWithin]
  rw [← fuelShape, parent, side_child, if_neg (by omega)]
  rw [pathWithin_eq (by omega)]

/-- Following turns from a positive index appends them to its path. -/
theorem foldl_child
    {gindex : Nat}
    (positive : 1 ≤ gindex)
    (turns : List Side) :
    1 ≤ turns.foldl child gindex ∧
      path (turns.foldl child gindex) = path gindex ++ turns := by
  induction turns generalizing gindex with
  | nil =>
      simpa using positive
  | cons turn rest inductionHypothesis =>
      obtain ⟨restPositive, restPath⟩ :=
        inductionHypothesis (child_pos positive turn)
      refine ⟨restPositive, ?_⟩
      rw [List.foldl_cons, restPath, path_child positive]
      simp

theorem concat_pos
    {outer : Nat}
    (positive : 1 ≤ outer)
    (inner : Nat) :
    1 ≤ concat outer inner :=
  (foldl_child positive (path inner)).1

/-- The path of a concatenation is the concatenation of the paths. -/
theorem path_concat
    {outer : Nat}
    (positive : 1 ≤ outer)
    (inner : Nat) :
    path (concat outer inner) = path outer ++ path inner :=
  (foldl_child positive (path inner)).2

/-- Joining several indices joins their paths. -/
theorem foldl_concat
    {outer : Nat}
    (positive : 1 ≤ outer)
    (gindices : List Nat) :
    1 ≤ gindices.foldl concat outer ∧
      path (gindices.foldl concat outer) = path outer ++ gindices.flatMap path := by
  induction gindices generalizing outer with
  | nil =>
      simpa using positive
  | cons gindex rest inductionHypothesis =>
      obtain ⟨restPositive, restPath⟩ :=
        inductionHypothesis (concat_pos positive gindex)
      refine ⟨restPositive, ?_⟩
      rw [List.foldl_cons, restPath, path_concat positive]
      simp

/-- The path has one turn less than the index has bits. -/
theorem length_path
    {gindex : Nat}
    (positive : 1 ≤ gindex) :
    (path gindex).length + 1 = gindex.size := by
  revert positive
  refine @from_root (fun gindex => (path gindex).length + 1 = gindex.size)
    ?root ?step gindex
  case root =>
    simp
  case step =>
    intro gindex side parentPositive inductionHypothesis
    have doubled : child gindex side = Nat.bit (side.bit == 1) gindex := by
      cases side <;> simp [child, Side.bit, Nat.bit]
    have nonzero : Nat.bit (side.bit == 1) gindex ≠ 0 := by
      rw [← doubled]
      have childPositive := child_pos parentPositive side
      omega
    rw [path_child parentPositive, List.length_append, doubled, Nat.size_bit nonzero]
    simp [inductionHypothesis]

end Gindex

/-! ## Trees -/

/-- A binary tree with values at its leaves. -/
inductive MerkleTree (α : Type) where
  | leaf (value : α)
  | fork (left right : MerkleTree α)
  deriving Repr, DecidableEq

namespace MerkleTree

variable {α : Type}

/-- The hash of a tree. -/
def root (hash : α → α → α) : MerkleTree α → α
  | .leaf value => value
  | .fork left right => hash (left.root hash) (right.root hash)

/-- The subtree a path leads to; no path leads below a leaf. -/
def nodeAt : MerkleTree α → List Side → Option (MerkleTree α)
  | tree, [] => some tree
  | .leaf _, _ :: _ => none
  | .fork left right, side :: rest => (side.pick left right).nodeAt rest

/-- The tree with another subtree at the end of a path. -/
def replace (subtree : MerkleTree α) : MerkleTree α → List Side → Option (MerkleTree α)
  | _, [] => some subtree
  | .leaf _, _ :: _ => none
  | .fork left right, .left :: rest =>
      (replace subtree left rest).map fun patched => .fork patched right
  | .fork left right, .right :: rest =>
      (replace subtree right rest).map fun patched => .fork left patched

/-- The hashes of the nodes beside a path, from its end up to the root. -/
def siblings (hash : α → α → α) : MerkleTree α → List Side → List α
  | _, [] => []
  | .leaf _, _ :: _ => []
  | .fork left right, side :: rest =>
      (side.pick left right).siblings hash rest ++ [(side.pick right left).root hash]

variable {hash : α → α → α} {tree node subtree patched : MerkleTree α}

@[simp] theorem nodeAt_nil :
    tree.nodeAt [] = some tree := by
  cases tree <;> rfl

@[simp] theorem siblings_nil :
    tree.siblings hash [] = [] := by
  cases tree <;> rfl

@[simp] theorem replace_nil :
    replace subtree tree [] = some subtree := by
  cases tree <;> rfl

/-! ### Paths that are followed in two parts -/

theorem nodeAt_append
    (upper lower : List Side)
    (found : tree.nodeAt upper = some node) :
    tree.nodeAt (upper ++ lower) = node.nodeAt lower := by
  induction upper generalizing tree with
  | nil =>
      simp only [nodeAt_nil, Option.some.injEq] at found
      rw [found, List.nil_append]
  | cons side rest inductionHypothesis =>
      cases tree with
      | leaf value =>
          simp [nodeAt] at found
      | fork left right =>
          exact inductionHypothesis found

/-- A path that leads to a node leads to a node at each of its stages. -/
theorem nodeAt_of_append
    {upper lower : List Side}
    (found : tree.nodeAt (upper ++ lower) = some node) :
    ∃ middle, tree.nodeAt upper = some middle ∧ middle.nodeAt lower = some node := by
  induction upper generalizing tree with
  | nil =>
      exact ⟨tree, nodeAt_nil, found⟩
  | cons side rest inductionHypothesis =>
      cases tree with
      | leaf value =>
          simp [nodeAt] at found
      | fork left right =>
          exact inductionHypothesis found

theorem siblings_append
    (upper lower : List Side)
    (found : tree.nodeAt upper = some node) :
    tree.siblings hash (upper ++ lower) =
      node.siblings hash lower ++ tree.siblings hash upper := by
  induction upper generalizing tree with
  | nil =>
      simp only [nodeAt_nil, Option.some.injEq] at found
      simp [found]
  | cons side rest inductionHypothesis =>
      cases tree with
      | leaf value =>
          simp [nodeAt] at found
      | fork left right =>
          have below := inductionHypothesis (found : (side.pick left right).nodeAt rest = _)
          simp only [List.cons_append, siblings, below, List.append_assoc]

/-- The last turn of a path is taken at a fork. -/
theorem nodeAt_snoc
    {upper : List Side}
    {side : Side}
    (found : tree.nodeAt (upper ++ [side]) = some node) :
    ∃ left right,
      tree.nodeAt upper = some (.fork left right) ∧ side.pick left right = node := by
  obtain ⟨middle, middleFound, lastTurn⟩ := nodeAt_of_append found
  cases middle with
  | leaf value =>
      simp [nodeAt] at lastTurn
  | fork left right =>
      exact ⟨left, right, middleFound, by simpa [nodeAt] using lastTurn⟩

theorem siblings_snoc
    {upper : List Side}
    {left right : MerkleTree α}
    (found : tree.nodeAt upper = some (.fork left right))
    (side : Side) :
    tree.siblings hash (upper ++ [side]) =
      (side.pick right left).root hash :: tree.siblings hash upper := by
  rw [siblings_append upper [side] found]
  simp [siblings]

/-! ### Replaced nodes -/

/-- Exactly the nodes of a tree can be replaced. -/
theorem exists_replace
    {address : List Side}
    (subtree : MerkleTree α)
    (found : tree.nodeAt address = some node) :
    ∃ patched, replace subtree tree address = some patched := by
  induction address generalizing tree with
  | nil =>
      exact ⟨subtree, replace_nil⟩
  | cons side rest inductionHypothesis =>
      cases tree with
      | leaf value =>
          simp [nodeAt] at found
      | fork left right =>
          obtain ⟨below, belowShape⟩ :=
            inductionHypothesis (found : (side.pick left right).nodeAt rest = _)
          cases side with
          | left =>
              exact ⟨.fork below right, by
                simp only [Side.pick] at belowShape
                simp [replace, belowShape]⟩
          | right =>
              exact ⟨.fork left below, by
                simp only [Side.pick] at belowShape
                simp [replace, belowShape]⟩

/-- A replacement below a fork leaves the other child as it was. -/
theorem replace_cons
    {side : Side}
    {rest : List Side}
    (replaced : replace subtree tree (side :: rest) = some patched) :
    ∃ left right below,
      tree = .fork left right ∧
      replace subtree (side.pick left right) rest = some below ∧
      patched = .fork (side.pick below left) (side.pick right below) := by
  cases tree with
  | leaf value =>
      simp [replace] at replaced
  | fork left right =>
      cases side with
      | left =>
          simp only [replace, Option.map_eq_some_iff] at replaced
          obtain ⟨below, belowShape, rfl⟩ := replaced
          exact ⟨left, right, below, rfl, belowShape, rfl⟩
      | right =>
          simp only [replace, Option.map_eq_some_iff] at replaced
          obtain ⟨below, belowShape, rfl⟩ := replaced
          exact ⟨left, right, below, rfl, belowShape, rfl⟩

/-- The replaced node is the new subtree. -/
theorem nodeAt_replace
    {address : List Side}
    (replaced : replace subtree tree address = some patched) :
    patched.nodeAt address = some subtree := by
  induction address generalizing tree patched with
  | nil =>
      simp only [replace_nil, Option.some.injEq] at replaced
      rw [nodeAt_nil, replaced]
  | cons side rest inductionHypothesis =>
      obtain ⟨left, right, below, rfl, belowShape, rfl⟩ := replace_cons replaced
      have found := inductionHypothesis belowShape
      cases side with
      | left => exact found
      | right => exact found

/-- A replacement keeps the root exactly when it keeps the root of the replaced node. -/
theorem root_replace_eq_iff
    (injective : Function.Injective2 hash)
    {address : List Side}
    (found : tree.nodeAt address = some node)
    (replaced : replace subtree tree address = some patched) :
    patched.root hash = tree.root hash ↔ subtree.root hash = node.root hash := by
  induction address generalizing tree patched with
  | nil =>
      simp only [nodeAt_nil, replace_nil, Option.some.injEq] at found replaced
      rw [found, replaced]
  | cons side rest inductionHypothesis =>
      obtain ⟨left, right, below, rfl, belowShape, rfl⟩ := replace_cons replaced
      have same := inductionHypothesis found belowShape
      cases side with
      | left =>
          have childSame :
              (MerkleTree.fork below right).root hash =
                  (MerkleTree.fork left right).root hash ↔
                below.root hash = left.root hash :=
            (injective.left (right.root hash)).eq_iff
          exact childSame.trans same
      | right =>
          have childSame :
              (MerkleTree.fork left below).root hash =
                  (MerkleTree.fork left right).root hash ↔
                below.root hash = right.root hash :=
            (injective.right (left.root hash)).eq_iff
          exact childSame.trans same

end MerkleTree

end CsmProver
