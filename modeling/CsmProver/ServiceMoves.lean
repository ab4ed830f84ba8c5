import CsmProver.DutyGuarantees

namespace CsmProver

/-!
# What the index and the stack change

The indexer changes its own fields and files and nothing else; the stack does the
same with its own.  Neither of them touches the contract, and of the log each writes
its own events.
-/

open Async

/-! ## The index -/

/-- What the indexer writes to the log. -/
def IsIndexEvent : Event → Prop
  | .indexCommitted _ => True
  | .keysApiConsulted _ => True
  | _ => False

/-- A move of the indexer. -/
structure IndexMoves (world moved : World) : Prop where
  rootsStack : moved.rootsStack = world.rootsStack
  stakingModule : moved.stakingModule = world.stakingModule
  finalizedHeader : moved.finalizedHeader = world.finalizedHeader
  rootsStackInfo : moved.disk.rootsStackInfo = world.disk.rootsStackInfo
  rootsStackStorage : moved.disk.rootsStackStorage = world.disk.rootsStackStorage
  log : ∃ events, moved.log = world.log ++ events ∧ ∀ event ∈ events, IsIndexEvent event

/-- Doing nothing is a move of the indexer. -/
theorem IndexMoves.refl
    (world : World) :
    IndexMoves world world where
  rootsStack := rfl
  stakingModule := rfl
  finalizedHeader := rfl
  rootsStackInfo := rfl
  rootsStackStorage := rfl
  log := ⟨[], by simp, by simp⟩

namespace KeysIndexer

section Index

variable (config : Config) (consensus : Consensus) (keysapi : Keysapi)

/-- Changing the fields of the index. -/
theorem modifyFields_indexMoves
    (update : KeysIndexerFields → KeysIndexerFields) :
    (modifyFields update).Guarantees IndexMoves :=
  (guarantees_modify _).mpr fun _ => ⟨rfl, rfl, rfl, rfl, rfl, [], by simp, by simp⟩

/-- Logging an event of the indexer. -/
theorem note_indexMoves
    {event : Event}
    (isIndex : IsIndexEvent event) :
    (note event).Guarantees IndexMoves :=
  (guarantees_modify _).mpr fun _ =>
    ⟨rfl, rfl, rfl, rfl, rfl, [event], rfl, by simpa using isIndex⟩

/-- Writing a file that is not one of the stack's. -/
theorem writeFile_indexMoves
    {save : World → Disk → Disk}
    (keepsInfo : ∀ world disk, (save world disk).rootsStackInfo = disk.rootsStackInfo)
    (keepsStorage :
      ∀ world disk, (save world disk).rootsStackStorage = disk.rootsStackStorage) :
    (writeFile save).Guarantees IndexMoves := by
  refine guarantees_bind (guarantees_read IndexMoves.refl) fun world => ?_
  refine guarantees_bind guarantees_settle fun _ => ?_
  refine guarantees_bind ((guarantees_modify _).mpr fun current => ?_) fun _ => guarantees_tick
  exact ⟨rfl, rfl, rfl, keepsInfo _ _, keepsStorage _ _, [], by simp, by simp⟩

/-- The two writes at the end of an attempt. -/
theorem writes_indexMoves :
    (writeStorage >>= fun _ => writeInfo).Guarantees IndexMoves :=
  guarantees_bind (writeFile_indexMoves (fun _ _ => rfl) fun _ _ => rfl) fun _ =>
    writeFile_indexMoves (fun _ _ => rfl) fun _ _ => rfl

/-- The health check changes nothing. -/
theorem healthCheck_indexMoves
    (finalizedTimestamp : Int)
    (elBlockSnapshot : ELBlockSnapshot) :
    (healthCheck config finalizedTimestamp elBlockSnapshot).Guarantees IndexMoves := by
  unfold healthCheck
  split <;> trivial

/-- Building the storage. -/
theorem initStorage_indexMoves
    (state : State)
    (finalizedSlot : Nat) :
    (initStorage config consensus keysapi state finalizedSlot).Guarantees IndexMoves := by
  refine guarantees_bind (guarantees_read IndexMoves.refl) fun world => ?_
  refine guarantees_bind (guarantees_request _) fun stakingModuleKeys => ?_
  refine guarantees_bind (note_indexMoves trivial) fun _ => ?_
  refine guarantees_bind (healthCheck_indexMoves config _ _) fun _ => ?_
  refine guarantees_bind (guarantees_request _) fun result => ?_
  exact guarantees_bind (modifyFields_indexMoves _) fun _ => trivial

/-- Extending the storage. -/
theorem updateStorage_indexMoves
    (state : State)
    (finalizedSlot : Nat) :
    (updateStorage config consensus keysapi state finalizedSlot).Guarantees IndexMoves := by
  refine guarantees_bind (guarantees_read IndexMoves.refl) fun world => ?_
  refine guarantees_bind (guarantees_request _) fun result => ?_
  simp only
  split
  · trivial
  · refine guarantees_bind (guarantees_read IndexMoves.refl) fun world => ?_
    refine guarantees_bind (guarantees_request _) fun stakingModuleKeys => ?_
    refine guarantees_bind (note_indexMoves trivial) fun _ => ?_
    refine guarantees_bind (healthCheck_indexMoves config _ _) fun _ => ?_
    exact guarantees_bind (modifyFields_indexMoves _) fun _ => trivial

/-- An attempt does what its callback does, and commits. -/
theorem baseRun_indexMoves
    {callback : State → Nat → Async World Nat}
    (moves : ∀ state finalizedSlot, (callback state finalizedSlot).Guarantees IndexMoves)
    (stateRoot : RootHex)
    (finalizedSlot : Nat) :
    (baseRun consensus stateRoot finalizedSlot callback).Guarantees IndexMoves := by
  refine guarantees_bind (guarantees_request _) fun state => ?_
  refine guarantees_bind (guarantees_call (moves state finalizedSlot)) fun totalValLength => ?_
  refine guarantees_bind ((guarantees_modify _).mpr fun world => ?_) fun _ => writes_indexMoves
  exact
    ⟨rfl, rfl, rfl, rfl, rfl, [.indexCommitted finalizedSlot], rfl, by simp [IsIndexEvent]⟩

/-- An update. -/
theorem update_indexMoves
    (finalizedHeader : BlockHeaderResponse) :
    (update config consensus keysapi finalizedHeader).Guarantees IndexMoves :=
  guarantees_call
    (baseRun_indexMoves consensus (updateStorage_indexMoves config consensus keysapi) _ _)

/-- Reading the two files of the index. -/
theorem readServiceData_indexMoves
    (fileReads : FileReads) :
    (readServiceData config fileReads).Guarantees IndexMoves := by
  have readFile_moves
      (resolves : Bool)
      (load : World → KeysIndexerFields) :
      (readFile resolves load).Guarantees IndexMoves := by
    refine guarantees_bind guarantees_tick fun _ => ?_
    split
    · exact (guarantees_modify _).mpr fun _ => ⟨rfl, rfl, rfl, rfl, rfl, [], by simp, by simp⟩
    · trivial
  exact guarantees_bind (modifyFields_indexMoves _) fun _ =>
    guarantees_bind (readFile_moves _ _) fun _ => readFile_moves _ _

/-- Looking for the module. -/
theorem findModule_indexMoves :
    (findModule keysapi).Guarantees IndexMoves := by
  refine guarantees_bind (guarantees_read IndexMoves.refl) fun world => ?_
  simp only
  split
  · refine guarantees_bind (guarantees_request _) fun modules => ?_
    split
    · exact guarantees_bind guarantees_tick fun _ => trivial
    · exact guarantees_bind (modifyFields_indexMoves _) fun _ =>
        writeFile_indexMoves (fun _ _ => rfl) fun _ _ => rfl
  · trivial

/-- An initialisation. -/
theorem initOrReadServiceData_indexMoves
    (fileReads : FileReads) :
    (initOrReadServiceData config consensus keysapi fileReads).Guarantees IndexMoves := by
  refine guarantees_bind (readServiceData_indexMoves config fileReads) fun _ => ?_
  refine guarantees_bind (findModule_indexMoves keysapi) fun _ => ?_
  refine guarantees_bind (guarantees_read IndexMoves.refl) fun world => ?_
  split
  · refine guarantees_bind guarantees_settle fun _ => ?_
    refine guarantees_bind (guarantees_read IndexMoves.refl) fun world => ?_
    exact baseRun_indexMoves consensus (initStorage_indexMoves config consensus keysapi) _ _
  · trivial

end Index

end KeysIndexer

/-! ## The stack -/

/-- What the stack and the processing of a root write to the log. -/
def IsStackEvent : Event → Prop
  | .purged _ => True
  | .dutiesReturned _ => True
  | .lastProcessedSet _ => True
  | .trustChecked _ => True
  | _ => False

/-- Choosing the next root changes nothing. -/
theorem RootsProvider.getNext_guarantees
    {relation : World → World → Prop}
    (refl : ∀ world, relation world world)
    (config : Config)
    (consensus : Consensus)
    (finalizedHeader : BlockHeaderResponse) :
    (RootsProvider.getNext config consensus finalizedHeader).Guarantees relation := by
  apply guarantees_bind (guarantees_read refl)
  intro world
  split
  · trivial
  · apply guarantees_bind
    · unfold RootsProvider.getCandidate
      split
      · trivial
      · apply guarantees_call
        unfold RootsProvider.getChild
        split
        · trivial
        · apply guarantees_bind (guarantees_request _)
          intro childHeaders
          split
          · trivial
          · split <;> trivial
    · intro candidate
      split
      · trivial
      · simp only
        split <;> trivial

/-- A preorder that contains what is done with the stack. -/
structure StackFrame (relation : World → World → Prop) : Prop where
  refl : ∀ world, relation world world
  rootsStack : ∀ rootsStack world, relation world { world with rootsStack := rootsStack }
  files :
    ∀ info storage world,
      relation world
        { world with
          disk :=
            { world.disk with rootsStackInfo := info, rootsStackStorage := storage } }
  event : ∀ event, IsStackEvent event → ∀ world, relation world (world.record event)

namespace StackFrame

variable {relation : World → World → Prop} (frame : StackFrame relation)

include frame

/-- Reading the state. -/
theorem read_guarantees :
    (read : Async World World).Guarantees relation :=
  guarantees_read frame.refl

/-- Logging an event of the stack. -/
theorem note_guarantees
    {event : Event}
    (isStackEvent : IsStackEvent event) :
    (note event).Guarantees relation :=
  (guarantees_modify _).mpr (frame.event event isStackEvent)

/-- Writing the file of the stacked roots. -/
theorem writeStorage_guarantees :
    RootsStack.writeStorage.Guarantees relation := by
  apply guarantees_bind frame.read_guarantees
  intro world
  apply guarantees_bind guarantees_settle
  intro _
  refine guarantees_bind ((guarantees_modify _).mpr fun current => ?_)
    fun _ => guarantees_tick
  exact frame.files current.disk.rootsStackInfo _ current

/-- Writing the file of the last processed root. -/
theorem writeInfo_guarantees :
    RootsStack.writeInfo.Guarantees relation := by
  apply guarantees_bind frame.read_guarantees
  intro world
  apply guarantees_bind guarantees_settle
  intro _
  refine guarantees_bind ((guarantees_modify _).mpr fun current => ?_)
    fun _ => guarantees_tick
  exact frame.files _ current.disk.rootsStackStorage current

/-- Changing the stacked roots. -/
theorem modifyStorage_guarantees
    (update : RootsStackServiceStorage → RootsStackServiceStorage) :
    (RootsStack.modifyStorage update).Guarantees relation :=
  (guarantees_modify _).mpr fun world => frame.rootsStack _ world

/-- Stacking a root. -/
theorem push_guarantees
    (rs : RootSlot) :
    (RootsStack.push rs).Guarantees relation := by
  apply guarantees_bind frame.read_guarantees
  intro world
  split
  · trivial
  · exact guarantees_bind (frame.modifyStorage_guarantees _)
      fun _ => frame.writeStorage_guarantees

/-- Taking a root off the stack. -/
theorem purge_guarantees
    (rs : RootSlot) :
    (RootsStack.purge rs).Guarantees relation := by
  apply guarantees_bind frame.read_guarantees
  intro world
  split
  · trivial
  · apply guarantees_bind (frame.modifyStorage_guarantees _)
    intro _
    exact guarantees_bind (frame.note_guarantees trivial)
      fun _ => frame.writeStorage_guarantees

/-- What is done with a root after its duties. -/
theorem settleRoot_guarantees
    (consensus : Consensus)
    (rootSlot : RootSlot) :
    (RootsProcessor.settleRoot consensus rootSlot).Guarantees relation := by
  have setsLast : (RootsStack.setLastProcessed rootSlot).Guarantees relation := by
    apply guarantees_bind ((guarantees_modify _).mpr fun world => frame.rootsStack _ world)
    intro _
    exact guarantees_bind (frame.note_guarantees trivial)
      fun _ => frame.writeInfo_guarantees
  apply guarantees_bind frame.read_guarantees
  intro world
  have returned : IsStackEvent (.dutiesReturned rootSlot) := trivial
  apply guarantees_bind (frame.note_guarantees returned)
  intro _
  have checked : IsStackEvent (.trustChecked world.keysIndexer.info.storageStateSlot) :=
    trivial
  apply guarantees_bind (frame.note_guarantees checked)
  intro _
  split
  · exact guarantees_bind (guarantees_call (frame.purge_guarantees _))
      fun _ => guarantees_call setsLast
  · exact guarantees_call setsLast

end StackFrame

/-- Processing a root is done by the duties and the stack. -/
theorem RootsProcessor.processNext_guarantees
    {relation : World → World → Prop}
    (duties : DutyFrame relation)
    (stack : StackFrame relation)
    (config : Config)
    (consensus : Consensus)
    (balances : Bool)
    (nextRoot : RootHex)
    (finalizedHeader : BlockHeaderResponse) :
    (RootsProcessor.processNext config consensus balances nextRoot
      finalizedHeader).Guarantees relation := by
  apply guarantees_bind (guarantees_request _)
  intro blockInfo
  apply guarantees_bind (guarantees_call (stack.push_guarantees _))
  intro _
  apply guarantees_bind
    (duties.runDuties_guarantees config consensus balances _ _ _)
  exact fun _ => stack.settleRoot_guarantees consensus _

end CsmProver
