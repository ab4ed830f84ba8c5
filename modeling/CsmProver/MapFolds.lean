import Mathlib.Data.List.Nodup
import Std.Data.TreeMap.Lemmas

namespace CsmProver

/-!
# Folds of insertions

Facts about loops that insert into an ordered map: which entries a map has after
the loop, and that entries which are never removed stay.
-/

open Std (TreeMap)

namespace MapFolds

variable {α ν : Type} {body : TreeMap Nat ν → α → TreeMap Nat ν}

/-- Folding insertions keeps a property of entries that each insertion keeps. -/
theorem foldl_entries
    {property : Nat → ν → Prop}
    {items : List α}
    (step :
      ∀ (storage : TreeMap Nat ν), ∀ item ∈ items,
        (∀ index value, storage[index]? = some value → property index value) →
        ∀ index value,
          (body storage item)[index]? = some value → property index value)
    {storage : TreeMap Nat ν}
    (holds :
      ∀ index value, storage[index]? = some value → property index value) :
    ∀ index value,
      (items.foldl body storage)[index]? = some value → property index value := by
  induction items generalizing storage with
  | nil =>
      exact holds
  | cons item rest inductionHypothesis =>
      exact inductionHypothesis
        (fun current later member => step current later (by simp [member]))
        (step storage item (by simp) holds)

/-- A fold of steps that never remove an entry never removes one. -/
theorem foldl_grows
    {index : Nat}
    (grows :
      ∀ (storage : TreeMap Nat ν) (item : α),
        storage[index]?.isSome → (body storage item)[index]?.isSome)
    (items : List α)
    {storage : TreeMap Nat ν}
    (present : storage[index]?.isSome) :
    (items.foldl body storage)[index]?.isSome := by
  induction items generalizing storage with
  | nil =>
      exact present
  | cons item rest inductionHypothesis =>
      exact inductionHypothesis (grows storage item present)

/-- A fold of steps that never remove an entry keeps what one of them puts in. -/
theorem foldl_puts
    {index : Nat}
    (grows :
      ∀ (storage : TreeMap Nat ν) (item : α),
        storage[index]?.isSome → (body storage item)[index]?.isSome)
    {items : List α}
    {item : α}
    (member : item ∈ items)
    (puts : ∀ storage : TreeMap Nat ν, (body storage item)[index]?.isSome)
    (storage : TreeMap Nat ν) :
    (items.foldl body storage)[index]?.isSome := by
  induction items generalizing storage with
  | nil =>
      simp at member
  | cons head rest inductionHypothesis =>
      rcases List.mem_cons.mp member with isHead | inRest
      · exact foldl_grows grows rest (isHead ▸ puts storage)
      · exact inductionHypothesis inRest _

theorem insert_grows
    (storage : TreeMap Nat ν)
    (index : Nat)
    (value : ν)
    {other : Nat}
    (present : storage[other]?.isSome) :
    (storage.insert index value)[other]?.isSome := by
  rw [TreeMap.getElem?_insert]
  split
  · rfl
  · exact present

/-- An insertion keeps a property of entries that the inserted one has. -/
theorem insert_entries
    {property : Nat → ν → Prop}
    {storage : TreeMap Nat ν}
    (holds :
      ∀ index value, storage[index]? = some value → property index value)
    {index : Nat}
    {value : ν}
    (inserted : property index value) :
    ∀ other found,
      (storage.insert index value)[other]? = some found → property other found := by
  intro other found isEntry
  rw [TreeMap.getElem?_insert] at isEntry
  split at isEntry
  · next same =>
      rw [Nat.compare_eq_eq] at same
      exact same ▸ Option.some.inj isEntry ▸ inserted
  · exact holds other found isEntry

/-- Values that name their index are listed once. -/
theorem toList_map_nodup
    {β : Type}
    {storage : TreeMap Nat ν}
    (name : ν → β)
    (names :
      ∀ (first second : Nat) (firstValue secondValue : ν),
        storage[first]? = some firstValue →
        storage[second]? = some secondValue →
        name firstValue = name secondValue →
        first = second) :
    (storage.toList.map fun entry => name entry.2).Nodup := by
  have ordered :
      storage.toList.Pairwise fun lower higher => compare lower.1 higher.1 = .lt :=
    TreeMap.ordered_keys_toList
  rw [List.Nodup, List.pairwise_map]
  apply ordered.imp_of_mem
  intro lower higher lowerMember higherMember below sameName
  have sameIndex :=
    names lower.1 higher.1 lower.2 higher.2
      (TreeMap.mem_toList_iff_getElem?_eq_some.mp lowerMember)
      (TreeMap.mem_toList_iff_getElem?_eq_some.mp higherMember) sameName
  rw [Nat.compare_eq_lt, sameIndex] at below
  exact Nat.lt_irrefl _ below

end MapFolds

end CsmProver
