import CsmProver.MapFolds
import CsmProver.World

namespace CsmProver

/-!
# The keys index

`KeysIndexer` maps validator indices to the staking module's keys.  It is built
once from all used keys of the module and then extended, from time to time, by
the validators that appeared since the last run.  The walk reads it while an
update may be in progress, and trusts it for a block while the state it was
built from is not too old for that block.
-/

open Std (TreeMap)
open Async

namespace KeysIndexer

/-! ## Lookups -/

/-- An empty filter allows every operator, and only the daemon has one. -/
def isAllowedOperatorId (config : Config) (operatorId : Nat) : Bool :=
  if config.workingMode ≠ .daemon then
    true
  else
    match config.daemonNodeOperatorIds with
    | none => true
    | some [] => true
    | some allowedOperatorIds => allowedOperatorIds.contains operatorId

/-- Hide a key of an operator that is not allowed. -/
def filterKeyInfo (config : Config) (keyInfo : Option KeyInfo) : Option KeyInfo :=
  keyInfo.filter fun found => isAllowedOperatorId config found.operatorId

/-- Hide a full key of an operator that is not allowed. -/
def filterFullKeyInfo (config : Config) (fullKeyInfo : Option FullKeyInfo) :
    Option FullKeyInfo :=
  fullKeyInfo.filter fun found => isAllowedOperatorId config found.operatorId

/-- The key of a validator. -/
def getKey (config : Config) (fields : KeysIndexerFields) (valIndex : Nat) :
    Option KeyInfo :=
  filterKeyInfo config fields.storage[valIndex]?

/-- All keys of allowed operators, in validator-index order. -/
def getAllKeys (config : Config) (fields : KeysIndexerFields) :
    List (Nat × KeyInfo) :=
  fields.storage.toList.filter fun entry =>
    (filterKeyInfo config (some entry.2)).isSome

/-- The first entry with the given public key, in validator-index order. -/
def getFullKeyInfoByPubKey (config : Config) (storage : KeysIndexerServiceStorage)
    (pubKey : PubKey) : Option FullKeyInfo :=
  match storage.toList.find? fun entry => entry.2.pubKey == pubKey with
  | some (validatorIndex, keyInfo) =>
      filterFullKeyInfo config (some
        { operatorId := keyInfo.operatorId
          keyIndex := keyInfo.keyIndex
          pubKey := pubKey
          validatorIndex := validatorIndex })
  | none => none

/-! ## Trust -/

section Trust

variable (consensus : Consensus) (storageStateSlot slotNumber : Nat)

/-- Whether an index built at `storageStateSlot` is at most `safeDelay` behind. -/
def isWithinDelay (safeDelay : Nat) (storageStateSlot slotNumber : Nat) : Bool :=
  if slotNumber ≤ storageStateSlot then
    true
  else
    slotNumber - storageStateSlot ≤ safeDelay

/-- A key may appear on chain that long after its deposit. -/
def isTrustedForSlashings : Bool :=
  isWithinDelay
    (consensus.beaconConfig.eth1FollowDistance +
      consensus.epochToSlot consensus.beaconConfig.epochsPerEth1VotingPeriod)
    storageStateSlot slotNumber

/-- A validator cannot withdraw sooner after it appeared. -/
def isTrustedForFullWithdrawals : Bool :=
  isWithinDelay
    (consensus.epochToSlot consensus.beaconConfig.minValidatorWithdrawabilityDelay)
    storageStateSlot slotNumber

/-- Balances are trusted as withdrawals are. -/
def isTrustedForBalanceChanges : Bool :=
  isTrustedForFullWithdrawals consensus storageStateSlot slotNumber

/-- The condition under which a stacked root is taken. -/
def isTrustedForAnyDuty : Bool :=
  isTrustedForBalanceChanges consensus storageStateSlot slotNumber ||
    isTrustedForSlashings consensus storageStateSlot slotNumber ||
    isTrustedForFullWithdrawals consensus storageStateSlot slotNumber

/-- The condition under which a stacked root is purged. -/
def isTrustedForEveryDuty : Bool :=
  let trustedForBalanceChanges :=
    isTrustedForBalanceChanges consensus storageStateSlot slotNumber
  let trustedForSlashings :=
    isTrustedForSlashings consensus storageStateSlot slotNumber
  let trustedForFullWithdrawals :=
    isTrustedForFullWithdrawals consensus storageStateSlot slotNumber
  trustedForBalanceChanges && trustedForSlashings && trustedForFullWithdrawals

/-- The trust check subtracts only behind the block, so it is a bound on the block's slot. -/
theorem isWithinDelay_iff
    (safeDelay : Nat) :
    isWithinDelay safeDelay storageStateSlot slotNumber = true ↔
      slotNumber ≤ storageStateSlot + safeDelay := by
  unfold isWithinDelay
  split <;> simp <;> omega

/-- Trust for every duty is trust for slashings and for full withdrawals. -/
theorem isTrustedForEveryDuty_iff :
    isTrustedForEveryDuty consensus storageStateSlot slotNumber = true ↔
      isTrustedForSlashings consensus storageStateSlot slotNumber = true ∧
        isTrustedForFullWithdrawals consensus storageStateSlot slotNumber = true := by
  simp [isTrustedForEveryDuty, isTrustedForBalanceChanges]
  tauto

/-- Trust for any duty is trust for slashings or for full withdrawals. -/
theorem isTrustedForAnyDuty_iff :
    isTrustedForAnyDuty consensus storageStateSlot slotNumber = true ↔
      isTrustedForSlashings consensus storageStateSlot slotNumber = true ∨
        isTrustedForFullWithdrawals consensus storageStateSlot slotNumber = true := by
  simp [isTrustedForAnyDuty, isTrustedForBalanceChanges]
  tauto

end Trust

/-! ## Persistence -/

/-- `info.write()`. -/
def writeInfo : Async World Unit :=
  writeFile fun world disk =>
    { disk with keysIndexerInfo := some world.keysIndexer.info }

/-- `storage.write()`. -/
def writeStorage : Async World Unit :=
  writeFile fun world disk =>
    { disk with keysIndexerStorage := some world.keysIndexer.storage }

/-- Change the in-memory fields of the index. -/
def modifyFields (update : KeysIndexerFields → KeysIndexerFields) :
    Async World Unit :=
  .modify fun world => { world with keysIndexer := update world.keysIndexer }

/-- Changing the fields is followed by the rest. -/
@[simp] theorem wp_modifyFields
    (protocol : Protocol World)
    (update : KeysIndexerFields → KeysIndexerFields)
    (post : Unit → World → Prop)
    (world : World) :
    wp protocol post (modifyFields update) world ↔
      post () { world with keysIndexer := update world.keysIndexer } :=
  Iff.rfl

/-- An undisturbed change of the fields. -/
@[simp] theorem finish_modifyFields
    (update : KeysIndexerFields → KeysIndexerFields)
    (world : World) :
    finish (modifyFields update) world =
      (.ok (), { world with keysIndexer := update world.keysIndexer }) :=
  rfl

/-! ## KeysAPI -/

/-- The answers of KeysAPI to the requests of one run of the indexer. -/
structure Keysapi where
  modules : List Module
  moduleKeys : Nat → ModuleKeys
  findModuleKeys : Nat → List PubKey → ModuleKeys

/-- `Keysapi.healthCheck`. -/
def healthCheck (config : Config) (finalizedTimestamp : Int)
    (elBlockSnapshot : ELBlockSnapshot) : Async World Unit :=
  if finalizedTimestamp - elBlockSnapshot.timestamp >
      config.keysIndexerKeyapiFreshnessPeriodMs then
    raise "KeysApi is outdated"
  else
    return ()

/-! ## Building the index -/

/-- The answer of the `get-new-validator-keys` worker. -/
structure GetNewValidatorKeysResult where
  totalValLength : Nat
  valKeys : List PubKey
  deriving Repr, DecidableEq

/--
The `get-new-validator-keys` worker.  A state with fewer validators than the
last one gives no keys: the loop runs from the last count up.
-/
def getNewValidatorKeys (state : State) (lastValidatorsCount : Nat) :
    GetNewValidatorKeysResult :=
  let totalValLength := state.validators.length
  if totalValLength = lastValidatorsCount then
    { totalValLength := totalValLength, valKeys := [] }
  else
    { totalValLength := totalValLength
      valKeys := (state.validators.drop lastValidatorsCount).map (·.pubkey) }

/-- What the index keeps of a KeysAPI key. -/
def toKeyInfo (key : Key) : KeyInfo where
  operatorId := key.operatorIndex
  keyIndex := key.index
  pubKey := key.key

/-- `keysMap` of `initStorage`; a repeated public key keeps its last entry. -/
def keysMap (keys : List Key) : TreeMap PubKey Key :=
  keys.foldl (fun current key => current.insert key.key key) ∅

/-- The loop body of `initStorage`, for one validator. -/
def initEntry (keysByPubKey : TreeMap PubKey Key) (valKeys : List PubKey)
    (storage : KeysIndexerServiceStorage) (index : Nat) :
    KeysIndexerServiceStorage :=
  match valKeys[index]?.bind fun pubKey => keysByPubKey[pubKey]? with
  | none => storage
  | some key => storage.insert index (toKeyInfo key)

/-- The loop of `initStorage` over all validators. -/
def initEntries (keysByPubKey : TreeMap PubKey Key) (valKeys : List PubKey)
    (totalValLength : Nat) (storage : KeysIndexerServiceStorage) :
    KeysIndexerServiceStorage :=
  (List.range totalValLength).foldl (initEntry keysByPubKey valKeys) storage

/-- The inner loop body of `updateStorage`, for one answered key and one validator. -/
def newEntry (newValKeys : List PubKey) (lastValidatorsCount : Nat)
    (stakingModuleKey : Key) (entries : KeysIndexerServiceStorage) (index : Nat) :
    KeysIndexerServiceStorage :=
  if newValKeys[index]? ≠ some stakingModuleKey.key ∨ ¬ stakingModuleKey.used then
    entries
  else
    entries.insert (index + lastValidatorsCount) (toKeyInfo stakingModuleKey)

/-- The two nested loops of `updateStorage` that build `newEntries`. -/
def newEntries (keys : List Key) (newValKeys : List PubKey)
    (lastValidatorsCount : Nat) : KeysIndexerServiceStorage :=
  keys.foldl
    (fun entries stakingModuleKey =>
      (List.range newValKeys.length).foldl
        (newEntry newValKeys lastValidatorsCount stakingModuleKey) entries)
    ∅

/-- `Object.assign(storage, entries)`. -/
def assign (storage entries : KeysIndexerServiceStorage) :
    KeysIndexerServiceStorage :=
  entries.toList.foldl (fun current entry => current.insert entry.1 entry.2) storage

/-- An assigned storage has entries of the two storages. -/
theorem assign_entries
    {property : Nat → KeyInfo → Prop}
    {storage entries : KeysIndexerServiceStorage}
    (storageHolds :
      ∀ index keyInfo, storage[index]? = some keyInfo → property index keyInfo)
    (entriesHold :
      ∀ index keyInfo, entries[index]? = some keyInfo → property index keyInfo) :
    ∀ index keyInfo,
      (assign storage entries)[index]? = some keyInfo → property index keyInfo :=
  MapFolds.foldl_entries
    (fun _ item member holds =>
      MapFolds.insert_entries holds
        (entriesHold item.1 item.2 (TreeMap.mem_toList_iff_getElem?_eq_some.mp member)))
    storageHolds

/-- An assignment takes no entry away. -/
theorem assign_grows
    {storage : KeysIndexerServiceStorage}
    (entries : KeysIndexerServiceStorage)
    {index : Nat}
    (present : storage[index]?.isSome) :
    (assign storage entries)[index]?.isSome := by
  unfold assign
  exact MapFolds.foldl_grows
    (fun current item => MapFolds.insert_grows current item.1 item.2)
    entries.toList present

/-- What is assigned is there. -/
theorem assign_present
    (storage : KeysIndexerServiceStorage)
    {entries : KeysIndexerServiceStorage}
    {index : Nat}
    (present : entries[index]?.isSome) :
    (assign storage entries)[index]?.isSome := by
  obtain ⟨keyInfo, found⟩ := Option.isSome_iff_exists.mp present
  unfold assign
  apply MapFolds.foldl_puts
    (fun current item => MapFolds.insert_grows current item.1 item.2)
    (TreeMap.mem_toList_iff_getElem?_eq_some.mpr found)
  intro current
  simp

section Runs

variable (config : Config) (consensus : Consensus) (keysapi : Keysapi)

/-- Build the storage from all used keys of the module. -/
def initStorage (state : State) (finalizedSlot : Nat) : Async World Nat := do
  let world ← read
  let stakingModuleKeys ← request (keysapi.moduleKeys world.keysIndexer.info.moduleId)
  note (.keysApiConsulted stakingModuleKeys.elBlockSnapshot)
  healthCheck config (consensus.slotToTimestamp finalizedSlot)
    stakingModuleKeys.elBlockSnapshot
  let keysByPubKey := keysMap stakingModuleKeys.keys
  let result ← request (getNewValidatorKeys state 0)
  modifyFields fun fields =>
    { fields with
      storage :=
        initEntries keysByPubKey result.valKeys result.totalValLength fields.storage }
  return result.totalValLength

/-- Extend the storage by the validators that appeared since the last state. -/
def updateStorage (state : State) (finalizedSlot : Nat) : Async World Nat := do
  let world ← read
  let result ← request
    (getNewValidatorKeys state world.keysIndexer.info.lastValidatorsCount)
  let newValKeys := result.valKeys
  if newValKeys.length = 0 then
    return result.totalValLength
  let world ← read
  let stakingModuleKeys ← request
    (keysapi.findModuleKeys world.keysIndexer.info.moduleId newValKeys)
  note (.keysApiConsulted stakingModuleKeys.elBlockSnapshot)
  healthCheck config (consensus.slotToTimestamp finalizedSlot)
    stakingModuleKeys.elBlockSnapshot
  -- `lastValidatorsCount` is read a second time here, after the two requests.
  modifyFields fun fields =>
    { fields with
      storage :=
        assign fields.storage
          (newEntries stakingModuleKeys.keys newValKeys fields.info.lastValidatorsCount) }
  return result.totalValLength

/-- The assignments between the callback and the writes. -/
def commit (finalizedSlot totalValLength : Nat) : Async World Unit :=
  modify fun world =>
    { world with
      keysIndexer :=
        { world.keysIndexer with
          info :=
            { world.keysIndexer.info with
              storageStateSlot := finalizedSlot
              lastValidatorsCount := totalValLength } } }.record
      (.indexCommitted finalizedSlot)

/-- Fetch the state, let the callback work on it, commit and write. -/
def baseRun (stateRoot : RootHex) (finalizedSlot : Nat)
    (stateDataProcessingCallback : State → Nat → Async World Nat) :
    Async World Unit := do
  let state ← request (consensus.state stateRoot)
  let totalValLength ← call (stateDataProcessingCallback state finalizedSlot)
  commit finalizedSlot totalValLength
  writeStorage
  writeInfo

/-- Extend the index to the finalized state. -/
def update (finalizedHeader : BlockHeaderResponse) : Async World Unit :=
  call (baseRun consensus finalizedHeader.message.stateRoot finalizedHeader.message.slot
    (updateStorage config consensus keysapi))

/-- Whether the index may be updated; `now` is `Date.now()`. -/
def isTimeToUpdate (now : Int) (finalizedHeader : BlockHeaderResponse) (world : World) :
    Bool :=
  let slot := finalizedHeader.message.slot
  let storageStateSlot := world.keysIndexer.info.storageStateSlot
  if storageStateSlot = slot then
    false
  else
    let storageTimestamp := consensus.slotToTimestamp storageStateSlot * 1000
    config.keysIndexerRunningPeriodMs < now - storageTimestamp

/-- A module was found and a state was indexed. -/
def isInitialized (world : World) : Bool :=
  world.keysIndexer.info.moduleId ≠ 0 && world.keysIndexer.info.storageStateSlot > 0

/-- The info before anything was indexed. -/
def defaultInfo : KeysIndexerServiceInfo where
  moduleAddress := config.stakingModuleAddress
  moduleId := 0
  storageStateSlot := 0
  lastValidatorsCount := 0

/-- The characters of an address, compared without regard to case. -/
def toLowerCase (address : String) : List Char :=
  address.toList.map Char.toLower

/-- The error of an address that no module has. -/
def moduleNotFound (address : String) : String :=
  "Module with address " ++ address ++
    " not found! Update configs if this is the wrong address. " ++
    "Next automatic attempt to find it will be in 1m"

/-- Whether the reads of the two files of the index resolve. -/
structure FileReads where
  info : Bool
  storage : Bool
  deriving Repr, DecidableEq

/-- `read()` of one file, whose content `load` takes over when the read resolves. -/
def readFile (resolves : Bool) (load : World → KeysIndexerFields) :
    Async World Unit := do
  tick
  if resolves then
    modify fun world => { world with keysIndexer := load world }
  else
    .fail .rejected

/-- A read waits, and takes the file over if it resolves. -/
@[simp] theorem wp_readFile
    (protocol : Protocol World)
    (resolves : Bool)
    (load : World → KeysIndexerFields)
    (post : Unit → World → Prop)
    (world : World) :
    wp protocol post (readFile resolves load) world ↔
      protocol.suspended world ∧
        ∀ moved, protocol.rely world moved →
          if resolves then
            post () { moved with keysIndexer := load moved }
          else
            protocol.aborted .rejected moved := by
  cases resolves <;> simp [readFile]

variable (fileReads : FileReads)

/--
`new Low(file, default)` for both files, then `read()` of each.  A file that
does not exist leaves the default.
-/
def readServiceData : Async World Unit := do
  modifyFields fun _ => { info := defaultInfo config, storage := ∅ }
  readFile fileReads.info fun world =>
    { world.keysIndexer with
      info := world.disk.keysIndexerInfo.getD world.keysIndexer.info }
  readFile fileReads.storage fun world =>
    { world.keysIndexer with
      storage := world.disk.keysIndexerStorage.getD world.keysIndexer.storage }

/-- The module id is looked up by address once and persisted. -/
def findModule : Async World Unit := do
  let world ← read
  let info := world.keysIndexer.info
  if info.moduleId = 0 then
    let modules ← request keysapi.modules
    match modules.find? fun module =>
        toLowerCase module.stakingModuleAddress == toLowerCase info.moduleAddress with
    | none =>
        tick
        raise (moduleNotFound info.moduleAddress)
    | some module =>
        modifyFields fun fields =>
          { fields with info := { fields.info with moduleId := module.id } }
        writeInfo
  else
    return ()

/-- Read the files, find the module, and build the index unless it was built before. -/
def initOrReadServiceData : Async World Unit := do
  readServiceData config fileReads
  findModule keysapi
  let world ← read
  if world.keysIndexer.info.storageStateSlot = 0 then
    settle
    let world ← read
    let finalized := world.finalizedHeader
    baseRun consensus finalized.message.stateRoot finalized.message.slot
      (initStorage config consensus keysapi)
  else
    return ()

end Runs

end KeysIndexer

end CsmProver
