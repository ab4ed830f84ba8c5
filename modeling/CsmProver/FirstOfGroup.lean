import Mathlib.Data.Nat.Find
import Mathlib.Order.Monotone.Basic

namespace CsmProver

/-!
# First members of groups

A sequence falls into groups of the indices with one key.  Every group has one
first member.  When the keys only grow the first members are those whose key is
above the key right before them.
-/

namespace Groups

variable {β : Type} {key : Nat → β}

/-- No earlier index has the same key. -/
def StartsGroup (key : Nat → β) (index : Nat) : Prop :=
  ∀ earlier < index, key earlier ≠ key index

/-- Every group has exactly one first member. -/
theorem existsUnique_start
    (key : Nat → β)
    (index : Nat) :
    ∃! start, key start = key index ∧ StartsGroup key start := by
  classical
  have someMember : ∃ member, key member = key index := ⟨index, rfl⟩
  have inGroup := Nat.find_spec someMember
  refine ⟨Nat.find someMember, ⟨inGroup, ?starts⟩, ?unique⟩
  case starts =>
    intro earlier below sameKey
    exact Nat.find_min someMember below (sameKey.trans inGroup)
  case unique =>
    rintro start ⟨startInGroup, starts⟩
    have atMost : Nat.find someMember ≤ start := Nat.find_min' someMember startInGroup
    rcases atMost.lt_or_eq with below | same
    · exact (starts _ below (inGroup.trans startInGroup.symm)).elim
    · exact same.symm

/-- Among growing keys only the one right before has to be compared. -/
theorem startsGroup_succ_iff
    [PartialOrder β]
    (growing : Monotone key)
    (index : Nat) :
    StartsGroup key (index + 1) ↔ key index < key (index + 1) := by
  constructor
  · intro starts
    exact lt_of_le_of_ne (growing (Nat.le_succ index)) (starts index (Nat.lt_succ_self index))
  · intro above earlier below
    exact ne_of_lt (lt_of_le_of_lt (growing (Nat.le_of_lt_succ below)) above)

end Groups

end CsmProver
