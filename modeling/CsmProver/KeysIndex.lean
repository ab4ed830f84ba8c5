import CsmProver.KeysIndexer

namespace CsmProver

/-!
# What the keys index holds

A validator registry fixes, for every validator index, the one entry an index
may hold there.  The loops of `initStorage` and `updateStorage` insert only such
entries and miss none of the validators they go over; the two persisted files
therefore agree with the registry after every attempt, whatever fails in it.
-/

open Std (TreeMap)
open Async
open MapFolds
open KeysIndexer (assign_grows assign_present)

namespace KeysIndex

/-! ## The registry -/

/-- An append-only validator registry and the keys of the staking module. -/
structure Registry where
  validators : Nat → PubKey
  distinct : Function.Injective validators
  moduleKey : PubKey → Option KeyId

namespace Registry

variable (registry : Registry)

/-- The entry of the index for one validator, when its key is a module key. -/
def entry (valIndex : Nat) : Option KeyInfo :=
  (registry.moduleKey (registry.validators valIndex)).map fun key =>
    { operatorId := key.1
      keyIndex := key.2
      pubKey := registry.validators valIndex }

/-- The state lists a prefix of the registry. -/
def Shows (state : State) : Prop :=
  state.validators.map (·.pubkey) =
    (List.range state.validators.length).map registry.validators

theorem entry_eq_some
    (valIndex : Nat)
    (keyInfo : KeyInfo) :
    registry.entry valIndex = some keyInfo ↔
      registry.moduleKey (registry.validators valIndex) = some keyInfo.id ∧
        keyInfo.pubKey = registry.validators valIndex := by
  obtain ⟨operatorId, keyIndex, pubKey⟩ := keyInfo
  unfold entry KeyInfo.id
  cases registry.moduleKey (registry.validators valIndex) with
  | none =>
      simp
  | some key =>
      obtain ⟨keyOperatorId, keyKeyIndex⟩ := key
      simp only [Option.map_some, Option.some.injEq, KeyInfo.mk.injEq, Prod.mk.injEq]
      tauto

end Registry

/-- Every entry is the registry's entry for its validator. -/
def Sound (registry : Registry) (storage : KeysIndexerServiceStorage) : Prop :=
  ∀ valIndex keyInfo,
    storage[valIndex]? = some keyInfo → registry.entry valIndex = some keyInfo

/-- No module key below the count is missing. -/
def Complete (registry : Registry) (storage : KeysIndexerServiceStorage)
    (count : Nat) : Prop :=
  ∀ valIndex, valIndex < count →
    (registry.entry valIndex).isSome → storage[valIndex]?.isSome

/-- A storage that agrees with the registry below the count. -/
structure Agrees (registry : Registry) (storage : KeysIndexerServiceStorage)
    (count : Nat) : Prop where
  sound : Sound registry storage
  complete : Complete registry storage count

namespace Agrees

variable {registry : Registry} {storage : KeysIndexerServiceStorage} {count : Nat}

theorem empty
    (registry : Registry) :
    Agrees registry ∅ 0 where
  sound := by
    intro valIndex keyInfo found
    simp at found
  complete := by
    intro valIndex below
    omega

theorem mono
    (agrees : Agrees registry storage count)
    {lower : Nat}
    (below : lower ≤ count) :
    Agrees registry storage lower where
  sound := agrees.sound
  complete := fun valIndex smaller =>
    agrees.complete valIndex (by omega)

/-- Below its count, a storage that agrees with the registry is the registry. -/
theorem lookup
    (agrees : Agrees registry storage count)
    {valIndex : Nat}
    (below : valIndex < count) :
    storage[valIndex]? = registry.entry valIndex := by
  cases found : storage[valIndex]? with
  | some keyInfo =>
      exact (agrees.sound valIndex keyInfo found).symm
  | none =>
      cases expected : registry.entry valIndex with
      | none =>
          rfl
      | some keyInfo =>
          have present :=
            agrees.complete valIndex below (by simp [expected])
          simp [found] at present

end Agrees

/-! ## Answers -/

/-- The keys of one KeysAPI answer are the used module keys among the requested ones. -/
def AnswersKeys (registry : Registry) (used requested : PubKey → Prop)
    (keys : List Key) : Prop :=
  ∀ key,
    key ∈ keys ↔
      key.used = true ∧
        registry.moduleKey key.key = some (key.operatorIndex, key.index) ∧
        used key.key ∧ requested key.key

/--
Answers drawn from the registry.  A validator's module key is used when a
finalized state first lists the validator.
-/
structure Honest (registry : Registry) (consensus : Consensus)
    (keysapi : KeysIndexer.Keysapi) : Prop where
  shows : ∀ stateRoot, registry.Shows (consensus.state stateRoot)
  answers :
    ∃ used : PubKey → Prop,
      (∀ stateRoot valIndex,
        valIndex < (consensus.state stateRoot).validators.length →
        (registry.entry valIndex).isSome →
        used (registry.validators valIndex)) ∧
      (∀ moduleId,
        AnswersKeys registry used (fun _ => True)
          (keysapi.moduleKeys moduleId).keys) ∧
      (∀ moduleId requested,
        AnswersKeys registry used (· ∈ requested)
          (keysapi.findModuleKeys moduleId requested).keys)

/-! ## The new validators of a state -/

theorem getNewValidatorKeys_length
    (state : State)
    (lastValidatorsCount : Nat) :
    (KeysIndexer.getNewValidatorKeys state lastValidatorsCount).totalValLength =
      state.validators.length := by
  simp only [KeysIndexer.getNewValidatorKeys]
  split <;> rfl

/-- The worker returns the registry from the last count up to the state's length. -/
theorem getNewValidatorKeys_getElem?
    {registry : Registry}
    {state : State}
    (shows : registry.Shows state)
    (lastValidatorsCount index : Nat) :
    (KeysIndexer.getNewValidatorKeys state lastValidatorsCount).valKeys[index]? =
      if lastValidatorsCount + index < state.validators.length then
        some (registry.validators (lastValidatorsCount + index))
      else
        none := by
  simp only [KeysIndexer.getNewValidatorKeys]
  split
  · next same =>
      rw [if_neg (by omega)]
      simp
  · rw [List.map_drop, shows, List.getElem?_drop]
    split
    · next below =>
        simp [below]
    · next beyond =>
        simp
        omega

/-- A state with no new validators is no longer than the last one. -/
theorem length_le_of_noNewKeys
    {registry : Registry}
    {state : State}
    (shows : registry.Shows state)
    {lastValidatorsCount : Nat}
    (noNewKeys :
      (KeysIndexer.getNewValidatorKeys state lastValidatorsCount).valKeys.length = 0) :
    state.validators.length ≤ lastValidatorsCount := by
  by_contra longer
  have first := getNewValidatorKeys_getElem? shows lastValidatorsCount 0
  rw [if_pos (by omega), List.eq_nil_of_length_eq_zero noNewKeys] at first
  simp at first

theorem assign_sound
    {registry : Registry}
    {storage entries : KeysIndexerServiceStorage}
    (storageSound : Sound registry storage)
    (entriesSound : Sound registry entries) :
    Sound registry (KeysIndexer.assign storage entries) :=
  KeysIndexer.assign_entries storageSound entriesSound

/-! ## The loop of `initStorage` -/

/-- An entry of the map is an answered key under its own public key. -/
theorem keysMap_sound
    (keys : List Key) :
    ∀ pubKey key,
      (KeysIndexer.keysMap keys)[pubKey]? = some key →
      key ∈ keys ∧ key.key = pubKey := by
  unfold KeysIndexer.keysMap
  refine foldl_entries (fun storage item member holds => ?_) (by simp)
  intro pubKey key inserted
  rw [TreeMap.getElem?_insert] at inserted
  split at inserted
  · next same =>
      rw [Nat.compare_eq_eq] at same
      exact Option.some.inj inserted ▸ ⟨member, same⟩
  · exact holds pubKey key inserted

theorem keysMap_present
    {keys : List Key}
    {key : Key}
    (member : key ∈ keys) :
    (KeysIndexer.keysMap keys)[key.key]?.isSome := by
  unfold KeysIndexer.keysMap
  refine foldl_puts (fun storage item => insert_grows storage item.key item)
    member (fun storage => ?_) ∅
  simp

/-- A key of an honest answer is the registry's entry wherever its public key stands. -/
private theorem AnswersKeys.entry
    {registry : Registry}
    {used requested : PubKey → Prop}
    {keys : List Key}
    (answers : AnswersKeys registry used requested keys)
    {key : Key}
    (member : key ∈ keys)
    {valIndex : Nat}
    (stands : registry.validators valIndex = key.key) :
    registry.entry valIndex = some (KeysIndexer.toKeyInfo key) := by
  obtain ⟨_, moduleKey, _⟩ := (answers key).mp member
  rw [registry.entry_eq_some, stands]
  exact ⟨moduleKey, rfl⟩

/-- An honest answer holds the used module key of every validator it was asked for. -/
private theorem AnswersKeys.exists_key
    {registry : Registry}
    {used requested : PubKey → Prop}
    {keys : List Key}
    (answers : AnswersKeys registry used requested keys)
    {valIndex : Nat}
    (isModuleKey : (registry.entry valIndex).isSome)
    (isUsed : used (registry.validators valIndex))
    (isRequested : requested (registry.validators valIndex)) :
    ∃ key ∈ keys, key.used = true ∧ key.key = registry.validators valIndex := by
  obtain ⟨keyInfo, expected⟩ := Option.isSome_iff_exists.mp isModuleKey
  obtain ⟨moduleKey, _⟩ := (registry.entry_eq_some valIndex keyInfo).mp expected
  exact
    ⟨{ index := keyInfo.keyIndex
       key := registry.validators valIndex
       used := true
       operatorIndex := keyInfo.operatorId },
      (answers _).mpr ⟨rfl, moduleKey, isUsed, isRequested⟩, rfl, rfl⟩

private theorem initEntry_grows
    (keysByPubKey : TreeMap PubKey Key)
    (valKeys : List PubKey)
    {index : Nat}
    (storage : KeysIndexerServiceStorage)
    (item : Nat)
    (present : storage[index]?.isSome) :
    (KeysIndexer.initEntry keysByPubKey valKeys storage item)[index]?.isSome := by
  unfold KeysIndexer.initEntry
  split
  · exact present
  · exact insert_grows storage item _ present

/-- `initStorage` leaves a storage that agrees with the registry up to its state. -/
theorem initEntries_agrees
    {registry : Registry}
    {state : State}
    {used : PubKey → Prop}
    {keys : List Key}
    (shows : registry.Shows state)
    (answers : AnswersKeys registry used (fun _ => True) keys)
    (appeared :
      ∀ valIndex, valIndex < state.validators.length →
        (registry.entry valIndex).isSome → used (registry.validators valIndex))
    {storage : KeysIndexerServiceStorage}
    (sound : Sound registry storage) :
    Agrees registry
      (KeysIndexer.initEntries (KeysIndexer.keysMap keys)
        (KeysIndexer.getNewValidatorKeys state 0).valKeys
        (KeysIndexer.getNewValidatorKeys state 0).totalValLength storage)
      state.validators.length := by
  have listed (index : Nat) := getNewValidatorKeys_getElem? shows 0 index
  simp only [Nat.zero_add] at listed
  rw [KeysIndexer.initEntries, getNewValidatorKeys_length]
  constructor
  · refine foldl_entries (fun current index member currentSound => ?_) sound
    have below : index < state.validators.length := List.mem_range.mp member
    unfold KeysIndexer.initEntry
    rw [listed index, if_pos below]
    simp only [Option.bind_some]
    cases found : (KeysIndexer.keysMap keys)[registry.validators index]? with
    | none =>
        exact currentSound
    | some key =>
        obtain ⟨answered, sameKey⟩ := keysMap_sound keys _ key found
        exact insert_entries currentSound (answers.entry answered sameKey.symm)
  · intro index below isModuleKey
    obtain ⟨key, answered, _, sameKey⟩ :=
      answers.exists_key isModuleKey (appeared index below isModuleKey) trivial
    refine foldl_puts (initEntry_grows _ _) (List.mem_range.mpr below)
      (fun current => ?_) storage
    obtain ⟨found, isFound⟩ :=
      Option.isSome_iff_exists.mp (keysMap_present answered)
    unfold KeysIndexer.initEntry
    rw [listed index, if_pos below]
    simp only [Option.bind_some]
    rw [← sameKey, isFound]
    simp

/-- The loop of `initStorage` removes nothing. -/
theorem initEntries_grows
    (keysByPubKey : TreeMap PubKey Key)
    (valKeys : List PubKey)
    (totalValLength : Nat)
    {storage : KeysIndexerServiceStorage}
    {index : Nat}
    (present : storage[index]?.isSome) :
    (KeysIndexer.initEntries keysByPubKey valKeys totalValLength storage)[index]?.isSome := by
  rw [KeysIndexer.initEntries]
  exact foldl_grows (initEntry_grows keysByPubKey valKeys) _ present

/-! ## The loops of `updateStorage` -/

private theorem newEntry_grows
    (newValKeys : List PubKey)
    (lastValidatorsCount : Nat)
    (stakingModuleKey : Key)
    {index : Nat}
    (entries : KeysIndexerServiceStorage)
    (item : Nat)
    (present : entries[index]?.isSome) :
    (KeysIndexer.newEntry newValKeys lastValidatorsCount stakingModuleKey
      entries item)[index]?.isSome := by
  unfold KeysIndexer.newEntry
  split
  · exact present
  · exact insert_grows entries _ _ present

section Update

variable {registry : Registry} {state : State} {used : PubKey → Prop}
variable {keys : List Key} {lastValidatorsCount : Nat}

theorem newEntries_sound
    (shows : registry.Shows state)
    (answers :
      AnswersKeys registry used
        (· ∈ (KeysIndexer.getNewValidatorKeys state lastValidatorsCount).valKeys)
        keys) :
    Sound registry
      (KeysIndexer.newEntries keys
        (KeysIndexer.getNewValidatorKeys state lastValidatorsCount).valKeys
        lastValidatorsCount) := by
  refine foldl_entries (fun outer key answered outerSound => ?_) (by simp)
  refine foldl_entries (fun entries index _ entriesSound => ?_) outerSound
  unfold KeysIndexer.newEntry
  split
  · exact entriesSound
  · next stands =>
      have atIndex :
          (KeysIndexer.getNewValidatorKeys state lastValidatorsCount).valKeys[index]? =
            some key.key := by
        by_contra differs
        exact stands (.inl differs)
      rw [getNewValidatorKeys_getElem? shows] at atIndex
      split at atIndex
      · have standsAt : registry.validators (index + lastValidatorsCount) = key.key := by
          rw [Nat.add_comm]
          exact Option.some.inj atIndex
        exact insert_entries entriesSound (answers.entry answered standsAt)
      · cases atIndex

theorem newEntries_present
    (shows : registry.Shows state)
    (answers :
      AnswersKeys registry used
        (· ∈ (KeysIndexer.getNewValidatorKeys state lastValidatorsCount).valKeys)
        keys)
    {valIndex : Nat}
    (isNew : lastValidatorsCount ≤ valIndex)
    (below : valIndex < state.validators.length)
    (isModuleKey : (registry.entry valIndex).isSome)
    (isUsed : used (registry.validators valIndex)) :
    (KeysIndexer.newEntries keys
      (KeysIndexer.getNewValidatorKeys state lastValidatorsCount).valKeys
      lastValidatorsCount)[valIndex]?.isSome := by
  have atIndex := getNewValidatorKeys_getElem? shows lastValidatorsCount
    (valIndex - lastValidatorsCount)
  rw [Nat.add_sub_cancel' isNew, if_pos below] at atIndex
  obtain ⟨key, answered, keyUsed, sameKey⟩ :=
    answers.exists_key isModuleKey isUsed (List.mem_of_getElem? atIndex)
  unfold KeysIndexer.newEntries
  refine foldl_puts
    (fun entries other =>
      foldl_grows
        (newEntry_grows
          (KeysIndexer.getNewValidatorKeys state lastValidatorsCount).valKeys
          lastValidatorsCount other)
        _)
    answered (fun entries => ?_) ∅
  have inRange :
      valIndex - lastValidatorsCount ∈
        List.range
          (KeysIndexer.getNewValidatorKeys state lastValidatorsCount).valKeys.length :=
    List.mem_range.mpr (List.getElem?_eq_some_iff.mp atIndex).1
  refine foldl_puts (newEntry_grows _ _ _) inRange (fun current => ?_) entries
  unfold KeysIndexer.newEntry
  rw [if_neg (by simp [atIndex, sameKey, keyUsed]), Nat.sub_add_cancel isNew]
  simp

/-- `updateStorage` extends an index by the validators of a newer state. -/
theorem assign_newEntries_agrees
    (shows : registry.Shows state)
    (answers :
      AnswersKeys registry used
        (· ∈ (KeysIndexer.getNewValidatorKeys state lastValidatorsCount).valKeys)
        keys)
    (appeared :
      ∀ valIndex, valIndex < state.validators.length →
        (registry.entry valIndex).isSome → used (registry.validators valIndex))
    {storage : KeysIndexerServiceStorage}
    (agrees : Agrees registry storage lastValidatorsCount) :
    Agrees registry
      (KeysIndexer.assign storage
        (KeysIndexer.newEntries keys
          (KeysIndexer.getNewValidatorKeys state lastValidatorsCount).valKeys
          lastValidatorsCount))
      state.validators.length where
  sound := assign_sound agrees.sound (newEntries_sound shows answers)
  complete := by
    intro valIndex below isModuleKey
    rcases Nat.lt_or_ge valIndex lastValidatorsCount with old | isNew
    · exact assign_grows _ (agrees.complete valIndex old isModuleKey)
    · exact assign_present storage
        (newEntries_present shows answers isNew below isModuleKey
          (appeared valIndex below isModuleKey))

end Update

end KeysIndex

end CsmProver
