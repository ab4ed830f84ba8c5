import CsmProver.InsertionMap
import Mathlib.Data.List.DropRight

namespace CsmProver

/-!
# Least recently used

The reference list of a cache that evicts what was used least recently: a use moves
its entry to the end, and a list that has become too long loses its first entries.
The list is the end of the list of all entries by their last use, as long as the
capacity allows.
-/

namespace Recency

/-- What happens to a cache. -/
inductive Use (κ ν : Type) where
  | used (key : κ) (value : ν)
  | cleared
  deriving Repr, DecidableEq

variable {κ ν : Type} [DecidableEq κ]

/-- Move an entry to the end. -/
def moveToEnd (items : List (κ × ν)) (key : κ) (value : ν) : List (κ × ν) :=
  InsertionMap.others items key ++ [(key, value)]

/-- The entries after one more use, none of them evicted. -/
def remember (items : List (κ × ν)) : Use κ ν → List (κ × ν)
  | .used key value => moveToEnd items key value
  | .cleared => []

/-- The reference list after one more use. -/
def use (capacity : Nat) (items : List (κ × ν)) (next : Use κ ν) : List (κ × ν) :=
  (remember items next).rtake capacity

/-- The reference list of a cache fed with the uses. -/
def feed (capacity : Nat) (uses : List (Use κ ν)) : List (κ × ν) :=
  uses.foldl (use capacity) []

/-- All entries since the last clearing, by their last use. -/
def latest (uses : List (Use κ ν)) : List (κ × ν) :=
  uses.foldl remember []

@[simp] theorem feed_nil
    (capacity : Nat) :
    feed capacity ([] : List (Use κ ν)) = [] :=
  rfl

@[simp] theorem feed_concat
    (capacity : Nat)
    (uses : List (Use κ ν))
    (next : Use κ ν) :
    feed capacity (uses ++ [next]) = use capacity (feed capacity uses) next :=
  List.foldl_concat ..

@[simp] theorem latest_concat
    (uses : List (Use κ ν))
    (next : Use κ ν) :
    latest (uses ++ [next]) = remember (latest uses) next :=
  List.foldl_concat ..

/-- A list that is short enough loses nothing. -/
theorem rtake_of_length_le
    {α : Type}
    {items : List α}
    {capacity : Nat}
    (fits : items.length ≤ capacity) :
    items.rtake capacity = items := by
  simp [List.rtake, Nat.sub_eq_zero_of_le fits]

/-- No key is in the list of the last uses twice. -/
theorem nodup_latest
    (uses : List (Use κ ν)) :
    ((latest uses).map Prod.fst).Nodup := by
  induction uses using List.reverseRecOn with
  | nil => exact List.nodup_nil
  | append_singleton earlier next inductionHypothesis =>
      rw [latest_concat]
      cases next with
      | used key value =>
          rw [remember, moveToEnd, List.map_append]
          apply List.Nodup.append
          · exact inductionHypothesis.sublist
              ((InsertionMap.others_sublist (latest earlier) key).map _)
          · exact List.nodup_singleton key
          · simpa using InsertionMap.notMem_keys_others (latest earlier) key
      | cleared => exact List.nodup_nil

/-- One entry leaves a list without repeated keys at most. -/
theorem take_others_take
    {items : List (κ × ν)}
    (nodup : (items.map Prod.fst).Nodup)
    (count : Nat)
    (key : κ) :
    (InsertionMap.others (items.take (count + 1)) key).take count =
      (InsertionMap.others items key).take count := by
  induction items generalizing count with
  | nil => rfl
  | cons entry rest inductionHypothesis =>
      obtain ⟨absent, restNodup⟩ := List.nodup_cons.mp nodup
      by_cases isKey : entry.1 = key
      · have notLater : key ∉ rest.map Prod.fst := isKey ▸ absent
        have notSooner : key ∉ (rest.take count).map Prod.fst := by
          intro member
          exact notLater (((List.take_sublist count rest).map _).subset member)
        have dropsHead (tail : List (κ × ν)) :
            InsertionMap.others (entry :: tail) key = InsertionMap.others tail key :=
          List.filter_cons_of_neg (by simp [isKey])
        rw [List.take_succ_cons, dropsHead, dropsHead,
          InsertionMap.others_of_notMem notLater, InsertionMap.others_of_notMem notSooner,
          List.take_take, Nat.min_self]
      · have keepsHead (tail : List (κ × ν)) :
            InsertionMap.others (entry :: tail) key =
              entry :: InsertionMap.others tail key :=
          List.filter_cons_of_pos (by simp [isKey])
        rw [List.take_succ_cons, keepsHead, keepsHead]
        cases count with
        | zero => rfl
        | succ fewer =>
            rw [List.take_succ_cons, List.take_succ_cons,
              inductionHypothesis restNodup fewer]

/-- Entries that are too old before a use are too old after it. -/
theorem rtake_moveToEnd_rtake
    {items : List (κ × ν)}
    (nodup : (items.map Prod.fst).Nodup)
    (capacity : Nat)
    (key : κ)
    (value : ν) :
    (moveToEnd (items.rtake capacity) key value).rtake capacity =
      (moveToEnd items key value).rtake capacity := by
  cases capacity with
  | zero => rw [List.rtake_zero, List.rtake_zero]
  | succ fewer =>
      have reversed : (items.reverse.map Prod.fst).Nodup := by
        rw [List.map_reverse, List.nodup_reverse]
        exact nodup
      have othersReverse (entries : List (κ × ν)) :
          (InsertionMap.others entries key).reverse =
            InsertionMap.others entries.reverse key :=
        List.filter_reverse.symm
      rw [moveToEnd, moveToEnd, List.rtake_concat_succ, List.rtake_concat_succ,
        List.rtake_eq_reverse_take_reverse, List.rtake_eq_reverse_take_reverse,
        List.rtake_eq_reverse_take_reverse, othersReverse, othersReverse,
        List.reverse_reverse, take_others_take reversed]

/-- The reference list holds the entries that were used last. -/
theorem feed_eq_rtake_latest
    (capacity : Nat)
    (uses : List (Use κ ν)) :
    feed capacity uses = (latest uses).rtake capacity := by
  induction uses using List.reverseRecOn with
  | nil => simp [latest]
  | append_singleton earlier next inductionHypothesis =>
      rw [feed_concat, latest_concat, use, inductionHypothesis]
      cases next with
      | used key value =>
          exact rtake_moveToEnd_rtake (nodup_latest earlier) capacity key value
      | cleared => rfl

end Recency

end CsmProver
