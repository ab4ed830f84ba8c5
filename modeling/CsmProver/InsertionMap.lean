import Mathlib.Data.List.Nodup

namespace CsmProver

/-!
# Maps that remember their order of insertion

A `Map` enumerates its entries in the order in which their keys were first set: a
value set for a key that is there takes the old one's place, and a key that was
deleted comes last when it is set again.  No key has two entries.
-/

/-- Entries in the order of insertion. -/
structure InsertionMap (κ ν : Type) where
  entries : List (κ × ν)
  nodup : (entries.map Prod.fst).Nodup
  deriving Repr, DecidableEq

namespace InsertionMap

variable {κ ν : Type}

/-- A map is its entries. -/
@[ext] theorem ext
    {first second : InsertionMap κ ν}
    (same : first.entries = second.entries) :
    first = second := by
  cases first
  cases second
  congr

/-- The map without entries. -/
def empty : InsertionMap κ ν where
  entries := []
  nodup := List.nodup_nil

/-- The number of the entries. -/
def size (map : InsertionMap κ ν) : Nat :=
  map.entries.length

/-- `keys().next().value`. -/
def oldestKey (map : InsertionMap κ ν) : Option κ :=
  map.entries.head?.map Prod.fst

variable [DecidableEq κ]

/-- The value of a key, if it is there. -/
def get (map : InsertionMap κ ν) (key : κ) : Option ν :=
  map.entries.lookup key

/-- A lookup stops at the first entry of the key. -/
private theorem lookup_cons
    (entry : κ × ν)
    (rest : List (κ × ν))
    (query : κ) :
    (entry :: rest).lookup query =
      if query = entry.1 then some entry.2 else rest.lookup query := by
  rw [List.lookup_cons]
  by_cases isKey : query = entry.1
  · simp [isKey]
  · simp [isKey, beq_eq_false_iff_ne.mpr isKey]

/-- The entries of all other keys. -/
def others (entries : List (κ × ν)) (key : κ) : List (κ × ν) :=
  entries.filter fun entry => entry.1 ≠ key

/-- The entries of the other keys keep their order. -/
theorem others_sublist
    (entries : List (κ × ν))
    (key : κ) :
    (others entries key).Sublist entries :=
  List.filter_sublist

/-- Among the others the key has no entry. -/
theorem notMem_keys_others
    (entries : List (κ × ν))
    (key : κ) :
    key ∉ (others entries key).map Prod.fst := by
  simp [others]

/-- A key that is not there has nothing but others. -/
theorem others_of_notMem
    {entries : List (κ × ν)}
    {key : κ}
    (absent : key ∉ entries.map Prod.fst) :
    others entries key = entries := by
  rw [others, List.filter_eq_self]
  intro entry member
  have isOther : entry.1 ≠ key := by
    rintro rfl
    exact absent (List.mem_map_of_mem member)
  simp [isOther]

/-- Looking among the others finds what it found before, except for the key. -/
theorem lookup_others
    (entries : List (κ × ν))
    (key query : κ) :
    (others entries key).lookup query =
      if query = key then none else entries.lookup query := by
  induction entries with
  | nil => simp [others]
  | cons entry rest inductionHypothesis =>
      unfold others at inductionHypothesis ⊢
      by_cases isKey : entry.1 = key
      · rw [List.filter_cons_of_neg (by simp [isKey]), inductionHypothesis, lookup_cons, isKey]
        split <;> rfl
      · rw [List.filter_cons_of_pos (by simp [isKey]), lookup_cons, lookup_cons,
          inductionHypothesis]
        by_cases isQuery : query = entry.1
        · rw [if_pos isQuery, if_pos isQuery, if_neg (isQuery ▸ isKey)]
        · rw [if_neg isQuery, if_neg isQuery]

/-- Drop the entry of a key, if it is there. -/
def delete (map : InsertionMap κ ν) (key : κ) : InsertionMap κ ν where
  entries := others map.entries key
  nodup := map.nodup.sublist ((others_sublist map.entries key).map _)

/-- Put the value in the place of the key's old one. -/
def replace (entries : List (κ × ν)) (key : κ) (value : ν) : List (κ × ν) :=
  entries.map fun entry => if entry.1 = key then (key, value) else entry

/-- A replaced value leaves the keys and their order. -/
theorem keys_replace
    (entries : List (κ × ν))
    (key : κ)
    (value : ν) :
    (replace entries key value).map Prod.fst = entries.map Prod.fst := by
  rw [replace, List.map_map]
  apply List.map_congr_left
  intro entry _
  by_cases isKey : entry.1 = key <;> simp [isKey]

/-- A replaced value is what is found for its key. -/
theorem lookup_replace
    (entries : List (κ × ν))
    (key query : κ)
    (value : ν) :
    (replace entries key value).lookup query =
      (entries.lookup query).map fun old => if query = key then value else old := by
  induction entries with
  | nil => rfl
  | cons entry rest inductionHypothesis =>
      unfold replace at inductionHypothesis ⊢
      have sameKey : (if entry.1 = key then (key, value) else entry).1 = entry.1 := by
        split
        case isTrue isKey => exact isKey.symm
        case isFalse => rfl
      rw [List.map_cons, lookup_cons, lookup_cons, inductionHypothesis, sameKey]
      by_cases isQuery : query = entry.1
      · subst isQuery
        by_cases isKey : entry.1 = key <;> simp [isKey]
      · rw [if_neg isQuery, if_neg isQuery]

/-- Replace the value of a key in its place, or put a new key at the end. -/
def set (map : InsertionMap κ ν) (key : κ) (value : ν) : InsertionMap κ ν :=
  if present : key ∈ map.entries.map Prod.fst then
    { entries := replace map.entries key value
      nodup := by
        rw [keys_replace]
        exact map.nodup }
  else
    { entries := map.entries ++ [(key, value)]
      nodup := by
        rw [List.map_append]
        exact map.nodup.append (List.nodup_singleton key) (by simpa using present) }

/-! ## What the operations do -/

variable {map : InsertionMap κ ν} {key query : κ} {value : ν}

/-- Nothing is found for a key exactly when it has no entry. -/
theorem get_eq_none_iff :
    map.get key = none ↔ key ∉ map.entries.map Prod.fst := by
  rw [get, List.lookup_eq_none_iff, List.mem_map]
  simp only [bne_iff_ne, ne_eq, not_exists, not_and]
  exact forall₂_congr fun entry _ => not_congr eq_comm

/-- What is found stands among the entries. -/
theorem mem_of_get
    (found : map.get key = some value) :
    (key, value) ∈ map.entries := by
  obtain ⟨before, after, shape, _⟩ := List.lookup_eq_some_iff.mp found
  rw [shape]
  simp

/-- A key that is there has an entry that the others lack. -/
theorem length_others_lt
    (found : map.get key = some value) :
    (others map.entries key).length < map.entries.length := by
  rw [others, List.length_filter_lt_length_iff_exists]
  exact ⟨(key, value), mem_of_get found, by simp⟩

/-- A deleted key is not found, and the others are found as before. -/
theorem get_delete
    (map : InsertionMap κ ν)
    (key query : κ) :
    (map.delete key).get query = if query = key then none else map.get query :=
  lookup_others map.entries key query

/-- A value that was set is found, and the others are found as before. -/
theorem get_set
    (map : InsertionMap κ ν)
    (key query : κ)
    (value : ν) :
    (map.set key value).get query = if query = key then some value else map.get query := by
  rw [set]
  split
  case isTrue present =>
    change (replace map.entries key value).lookup query = _
    rw [lookup_replace]
    by_cases isKey : query = key
    · subst isKey
      obtain ⟨old, isOld⟩ : ∃ old, map.get query = some old := by
        apply Option.ne_none_iff_exists'.mp
        rw [ne_eq, get_eq_none_iff, not_not]
        exact present
      rw [get] at isOld
      simp [isOld]
    · simp [isKey, get]
  case isFalse absent =>
    change (map.entries ++ [(key, value)]).lookup query = _
    rw [List.lookup_append, lookup_cons, List.lookup_nil]
    by_cases isKey : query = key
    · subst isKey
      have notThere : map.entries.lookup query = none := get_eq_none_iff.mpr absent
      simp [notThere]
    · simp [isKey, get]

/-- A key that is not there is set at the end. -/
theorem entries_set_of_absent
    (absent : map.get key = none)
    (value : ν) :
    (map.set key value).entries = map.entries ++ [(key, value)] := by
  rw [set, dif_neg (get_eq_none_iff.mp absent)]

/-- A key that is deleted and set again comes last. -/
theorem entries_delete_set
    (map : InsertionMap κ ν)
    (key : κ)
    (value : ν) :
    ((map.delete key).set key value).entries = others map.entries key ++ [(key, value)] := by
  have deleted : (map.delete key).get key = none := by
    rw [get_delete, if_pos rfl]
  rw [entries_set_of_absent deleted]
  rfl

/-- Without its oldest key a map has the rest of its entries. -/
theorem entries_delete_oldestKey
    (isOldest : map.oldestKey = some key) :
    (map.delete key).entries = map.entries.tail := by
  obtain ⟨entries, nodup⟩ := map
  cases entries with
  | nil => cases isOldest
  | cons entry rest =>
      cases isOldest
      have absent : entry.1 ∉ rest.map Prod.fst := (List.nodup_cons.mp nodup).1
      change others (entry :: rest) entry.1 = rest
      rw [others, List.filter_cons_of_neg (by simp)]
      exact others_of_notMem absent

end InsertionMap

end CsmProver
