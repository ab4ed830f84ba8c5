import Mathlib.Data.List.Induction
import CsmProver.Async.Pool
import CsmProver.DutyGuarantees
import CsmProver.KeysIndexRuns

namespace CsmProver

/-!
# The window between the lookups and the trust check

`processNext` checks that the index is trusted after its duties have run, on the
index as it is then.  An update of the index may commit between a lookup and the
check, so a block whose keys were looked up in an outdated index can leave the
stack.  This is the only way it can.
-/

open Async

namespace TrustWindow

/-! ## The slot in force -/

/-- The state slot of the index after one event. -/
def slotAfter (storageStateSlot : Nat) : Event → Nat
  | .indexCommitted committed => committed
  | _ => storageStateSlot

/-- The state slot of the index after a log, from the slot before it. -/
def slotInForce (storageStateSlot : Nat) (log : List Event) : Nat :=
  log.foldl slotAfter storageStateSlot

/-- The state slot in force when a lookup was made. -/
def lookupSlot : Event → Option Nat
  | .keyLookup _ storageStateSlot _ _ => some storageStateSlot
  | .allKeysLookup storageStateSlot => some storageStateSlot
  | _ => none

/-- The state slot an event has recorded. -/
def recordedSlot : Event → Option Nat
  | .trustChecked storageStateSlot => some storageStateSlot
  | event => lookupSlot event

/-- Every event records the state slot in force when it happened. -/
def Recorded : Nat → List Event → Prop
  | _, [] => True
  | storageStateSlot, event :: rest =>
      (∀ recorded, recordedSlot event = some recorded → recorded = storageStateSlot) ∧
        Recorded (slotAfter storageStateSlot event) rest

/-- The slot in force is carried along the log. -/
theorem slotInForce_append
    (storageStateSlot : Nat)
    (first second : List Event) :
    slotInForce storageStateSlot (first ++ second) =
      slotInForce (slotInForce storageStateSlot first) second :=
  List.foldl_append

/-- The events of a longer log record what is in force where it goes on. -/
theorem recorded_append
    (storageStateSlot : Nat)
    (first second : List Event) :
    Recorded storageStateSlot (first ++ second) ↔
      Recorded storageStateSlot first ∧
        Recorded (slotInForce storageStateSlot first) second := by
  induction first generalizing storageStateSlot with
  | nil =>
      simp [Recorded, slotInForce]
  | cons event rest inductionHypothesis =>
      simp only [List.cons_append, Recorded, inductionHypothesis, and_assoc]
      rfl

/-- The slot an event recorded is the slot in force after what came before it. -/
theorem Recorded.slot
    {storageStateSlot : Nat}
    {before after : List Event}
    {event : Event}
    (recorded : Recorded storageStateSlot (before ++ event :: after))
    {slot : Nat}
    (records : recordedSlot event = some slot) :
    slot = slotInForce storageStateSlot before :=
  ((recorded_append storageStateSlot before _).mp recorded).2.1 slot records

/-- A slot in force is the one before the log or the last one committed in it. -/
theorem slotInForce_cases
    (storageStateSlot : Nat)
    (log : List Event) :
    slotInForce storageStateSlot log = storageStateSlot ∨
      ∃ before committed after,
        log = before ++ .indexCommitted committed :: after ∧
          (∀ later, .indexCommitted later ∉ after) ∧
          slotInForce storageStateSlot log = committed := by
  induction log using List.reverseRecOn with
  | nil =>
      exact .inl rfl
  | append_singleton earlier event inductionHypothesis =>
      rw [slotInForce_append]
      by_cases isCommit : ∃ committed, event = .indexCommitted committed
      · obtain ⟨committed, rfl⟩ := isCommit
        exact .inr ⟨earlier, committed, [], rfl, by simp, rfl⟩
      · have unchanged (slot : Nat) : slotInForce slot [event] = slot := by
          cases event <;> first | rfl | exact (isCommit ⟨_, rfl⟩).elim
        rw [unchanged]
        rcases inductionHypothesis with same | ⟨before, committed, after, shape, last, force⟩
        · exact .inl same
        · refine .inr ⟨before, committed, after ++ [event], ?_, ?_, force⟩
          · simp [shape]
          · intro later member
            rcases List.mem_append.mp member with inAfter | isEvent
            · exact last later inAfter
            · exact isCommit ⟨later, (List.mem_singleton.mp isEvent).symm⟩

/-- A last commit is the slot in force. -/
theorem slotInForce_commit
    (storageStateSlot committed : Nat)
    (before : List Event)
    {after : List Event}
    (last : ∀ later, .indexCommitted later ∉ after) :
    slotInForce storageStateSlot (before ++ .indexCommitted committed :: after) =
      committed := by
  rw [slotInForce_append]
  rcases slotInForce_cases committed after with same | ⟨_, later, _, shape, _⟩
  · exact same
  · exact (last later (by simp [shape])).elim

/-- Events that commit nothing leave the slot in force and may record it. -/
theorem slotInForce_of_uncommitted
    {storageStateSlot : Nat}
    {events : List Event}
    (uncommitted :
      ∀ event ∈ events,
        slotAfter storageStateSlot event = storageStateSlot ∧
          ∀ recorded, recordedSlot event = some recorded → recorded = storageStateSlot) :
    slotInForce storageStateSlot events = storageStateSlot ∧
      Recorded storageStateSlot events := by
  induction events with
  | nil =>
      exact ⟨rfl, trivial⟩
  | cons event rest inductionHypothesis =>
      obtain ⟨unchanged, records⟩ := uncommitted event (by simp)
      obtain ⟨force, recorded⟩ :=
        inductionHypothesis fun later member => uncommitted later (by simp [member])
      refine ⟨?_, records, ?_⟩
      · rw [slotInForce, List.foldl_cons, unchanged]
        exact force
      · rw [unchanged]
        exact recorded

/-! ## The race -/

section Race

variable (consensus : Consensus) (slot : Nat)

/-- An index at this state slot is trusted for the block. -/
def Trusted (storageStateSlot : Nat) : Prop :=
  KeysIndexer.isTrustedForSlashings consensus storageStateSlot slot = true ∧
    KeysIndexer.isTrustedForFullWithdrawals consensus storageStateSlot slot = true

/-- A block leaves the stack only when all its lookups were made in a trusted index. -/
def PurgedOnTrust (log : List Event) : Prop :=
  ∀ rootSlot event storageStateSlot,
    .purged rootSlot ∈ log →
    event ∈ log →
    lookupSlot event = some storageStateSlot →
    Trusted consensus slot storageStateSlot

/--
After a lookup in an index that is not trusted for the block, an update commits
a trusted state slot, which is still the last one committed at the trust check.
-/
def CommitsInWindow (log : List Event) : Prop :=
  ∃ before lookup untrusted middle committed after checked rest,
    log =
      before ++ lookup :: (middle ++ .indexCommitted committed :: after) ++
        .trustChecked checked :: rest ∧
    lookupSlot lookup = some untrusted ∧
    ¬ Trusted consensus slot untrusted ∧
    Trusted consensus slot committed ∧
    ∀ later, .indexCommitted later ∉ after

end Race

/-- A log in which the trust check has not been made. -/
def Undecided (log : List Event) : Prop :=
  ∀ event ∈ log, (∀ checked, event ≠ .trustChecked checked) ∧ ∀ rs, event ≠ .purged rs

/-- A log with one trust check after all lookups, which decided about the purge. -/
def Decided (consensus : Consensus) (slot : Nat) (log : List Event) : Prop :=
  ∃ before checked after,
    log = before ++ .trustChecked checked :: after ∧
      Undecided before ∧
      (∀ event ∈ after,
        lookupSlot event = none ∧ ∀ other, event ≠ .trustChecked other) ∧
      ((∃ rs, .purged rs ∈ after) ↔ Trusted consensus slot checked)

section Logs

variable {consensus : Consensus} {slot storageStateSlot : Nat} {log : List Event}

/-- Where nothing is decided, nothing has left the stack and nothing is in a window. -/
theorem Undecided.iff
    (undecided : Undecided log) :
    PurgedOnTrust consensus slot log ↔ ¬ CommitsInWindow consensus slot log := by
  constructor
  · rintro _ ⟨before, lookup, _, middle, committed, after, checked, rest, shape, _⟩
    have member : .trustChecked checked ∈ log := by simp [shape]
    exact (undecided _ member).1 checked rfl
  · intro _ rs event _ purged
    exact ((undecided _ purged).2 rs rfl).elim

/-- In a decided log a lookup stands before the trust check. -/
theorem lookup_before_check
    {before after : List Event}
    {checked : Nat}
    (shape : log = before ++ .trustChecked checked :: after)
    (noLookups : ∀ event ∈ after, lookupSlot event = none)
    {event : Event}
    (member : event ∈ log)
    {looked : Nat}
    (isLookup : lookupSlot event = some looked) :
    ∃ earlier later, before = earlier ++ event :: later := by
  rw [shape] at member
  rcases List.mem_append.mp member with inBefore | inRest
  · exact List.append_of_mem inBefore
  · rcases List.mem_cons.mp inRest with isCheck | inAfter
    · subst isCheck
      cases isLookup
    · rw [noLookups event inAfter] at isLookup
      cases isLookup

/-- A log is split at its only trust check in one way. -/
theorem check_unique
    {first second before after : List Event}
    {checked other : Nat}
    (same : first ++ .trustChecked other :: second = before ++ .trustChecked checked :: after)
    (undecided : Undecided before)
    (once : ∀ event ∈ after, ∀ again, event ≠ .trustChecked again) :
    first = before := by
  rcases List.append_eq_append_iff.mp same with
    ⟨extra, beforeShape, rest⟩ | ⟨extra, firstShape, rest⟩
  · cases extra with
    | nil =>
        simp [beforeShape]
    | cons head tail =>
        have isCheck : Event.trustChecked other = head := (List.cons.inj rest).1
        have member : Event.trustChecked other ∈ before := by
          simp [beforeShape, isCheck]
        exact ((undecided _ member).1 other rfl).elim
  · cases extra with
    | nil =>
        simp [firstShape]
    | cons head tail =>
        have afterShape := (List.cons.inj rest).2
        have member : Event.trustChecked other ∈ after := by simp [afterShape]
        exact (once _ member other rfl).elim

/--
A decided log purges an untrusted lookup exactly when an update committed in the
window: the check records the last commit, and the lookup an earlier slot.
-/
theorem Decided.iff
    (decided : Decided consensus slot log)
    (recorded : Recorded storageStateSlot log) :
    PurgedOnTrust consensus slot log ↔ ¬ CommitsInWindow consensus slot log := by
  obtain ⟨before, checked, after, shape, undecided, noLookups, purges⟩ := decided
  have atCheck : checked = slotInForce storageStateSlot before := by
    rw [shape] at recorded
    exact recorded.slot rfl
  constructor
  · rintro onTrust
      ⟨earlier, lookup, untrusted, middle, committed, later, otherChecked, rest,
        window, isLookup, isUntrusted, isTrusted, last⟩
    -- The check of the window is the check of the log.
    have sameCheck :
        earlier ++ lookup :: (middle ++ .indexCommitted committed :: later) = before :=
      check_unique (window.symm.trans shape) undecided
        fun event inAfter => (noLookups event inAfter).2
    have force : checked = committed := by
      rw [atCheck, ← sameCheck]
      have regroup :
          earlier ++ lookup :: (middle ++ Event.indexCommitted committed :: later) =
            (earlier ++ lookup :: middle) ++ Event.indexCommitted committed :: later := by
        simp
      rw [regroup]
      exact slotInForce_commit storageStateSlot committed _ last
    obtain ⟨rs, purged⟩ := purges.mpr (force ▸ isTrusted)
    have purgedIn : Event.purged rs ∈ log := by simp [shape, purged]
    have lookupIn : lookup ∈ log := by simp [window]
    exact isUntrusted (onTrust rs lookup untrusted purgedIn lookupIn isLookup)
  · intro noWindow rs lookup looked purged member isLookup
    have purgedAfter : Event.purged rs ∈ after := by
      rw [shape] at purged
      rcases List.mem_append.mp purged with inBefore | inRest
      · exact ((undecided _ inBefore).2 rs rfl).elim
      · simpa using inRest
    have trusted : Trusted consensus slot checked := purges.mp ⟨rs, purgedAfter⟩
    by_contra untrusted
    obtain ⟨earlier, later, split⟩ :=
      lookup_before_check shape (fun event inAfter => (noLookups event inAfter).1)
        member isLookup
    have atLookup : looked = slotInForce storageStateSlot earlier := by
      rw [shape, split, List.append_assoc] at recorded
      refine Recorded.slot recorded ?_
      cases lookup <;> first | exact isLookup | cases isLookup
    have unchanged : slotInForce looked [lookup] = looked := by
      cases lookup <;> first | rfl | cases isLookup
    have fromLookup : checked = slotInForce looked later := by
      rw [atCheck, split, slotInForce_append, ← atLookup]
      have regroup : lookup :: later = [lookup] ++ later := rfl
      rw [regroup, slotInForce_append, unchanged]
    rcases slotInForce_cases looked later with
      same | ⟨middle, committed, rest, laterShape, last, force⟩
    · exact untrusted (same ▸ fromLookup ▸ trusted)
    · apply noWindow
      refine ⟨earlier, lookup, looked, middle, committed, rest, checked, after,
        ?_, isLookup, untrusted, ?_, last⟩
      · rw [shape, split, laterShape]
      · exact force ▸ fromLookup ▸ trusted

end Logs

/-! ## What each task does to the log -/

/-- The events between two worlds, each with the state slot it happened at. -/
structure Moves (world moved : World) (events : List Event) : Prop where
  log : moved.log = world.log ++ events
  slot :
    moved.keysIndexer.info.storageStateSlot =
      slotInForce world.keysIndexer.info.storageStateSlot events
  recorded : Recorded world.keysIndexer.info.storageStateSlot events

/-- An event that neither looks a key up nor decides about the purge. -/
def Neutral (event : Event) : Prop :=
  lookupSlot event = none ∧ (∀ checked, event ≠ .trustChecked checked) ∧
    ∀ rs, event ≠ .purged rs

/-- The duties and the updates leave the stack alone and decide nothing. -/
def Working (world moved : World) : Prop :=
  moved.rootsStack = world.rootsStack ∧
    ∃ events, Moves world moved events ∧ Undecided events

/-- What follows the trust check looks nothing up and decides nothing more. -/
def Concluding (world moved : World) : Prop :=
  ∃ events, Moves world moved events ∧ ∀ event ∈ events, Neutral event

/-- The updates of the index. -/
def Reindexing (world moved : World) : Prop :=
  moved.rootsStack = world.rootsStack ∧ Concluding world moved

section Relations

variable {first middle last world moved : World}

/-- Moves follow each other. -/
theorem Moves.trans
    {events more : List Event}
    (earlier : Moves first middle events)
    (later : Moves middle last more) :
    Moves first last (events ++ more) where
  log := by rw [later.log, earlier.log, List.append_assoc]
  slot := by rw [later.slot, earlier.slot, slotInForce_append]
  recorded := by
    rw [recorded_append, ← earlier.slot]
    exact ⟨earlier.recorded, later.recorded⟩

/-- A change of neither the log nor the state slot. -/
theorem Moves.silent
    (sameLog : moved.log = world.log)
    (sameSlot :
      moved.keysIndexer.info.storageStateSlot =
        world.keysIndexer.info.storageStateSlot) :
    Moves world moved [] where
  log := by simp [sameLog]
  slot := sameSlot
  recorded := trivial

theorem working_refl
    (world : World) :
    Working world world :=
  ⟨rfl, [], .silent rfl rfl, by simp [Undecided]⟩

theorem working_trans
    (earlier : Working first middle)
    (later : Working middle last) :
    Working first last := by
  obtain ⟨sameStack, events, moves, undecided⟩ := earlier
  obtain ⟨laterStack, more, laterMoves, laterUndecided⟩ := later
  refine ⟨laterStack.trans sameStack, events ++ more, moves.trans laterMoves, ?_⟩
  intro event member
  rcases List.mem_append.mp member with inFirst | inSecond
  · exact undecided event inFirst
  · exact laterUndecided event inSecond

theorem concluding_refl
    (world : World) :
    Concluding world world :=
  ⟨[], .silent rfl rfl, by simp⟩

theorem concluding_trans
    (earlier : Concluding first middle)
    (later : Concluding middle last) :
    Concluding first last := by
  obtain ⟨events, moves, neutral⟩ := earlier
  obtain ⟨more, laterMoves, laterNeutral⟩ := later
  refine ⟨events ++ more, moves.trans laterMoves, ?_⟩
  intro event member
  rcases List.mem_append.mp member with inFirst | inSecond
  · exact neutral event inFirst
  · exact laterNeutral event inSecond

/-- An update does no more than the duties may do. -/
theorem Reindexing.working
    (reindexing : Reindexing world moved) :
    Working world moved := by
  obtain ⟨sameStack, events, moves, neutral⟩ := reindexing
  exact ⟨sameStack, events, moves, fun event member => (neutral event member).2⟩

/-- An update may also follow the trust check. -/
theorem Reindexing.concluding
    (reindexing : Reindexing world moved) :
    Concluding world moved :=
  reindexing.2

/-- A step of an update that changes neither the log nor the state slot. -/
theorem Reindexing.silent
    (sameStack : moved.rootsStack = world.rootsStack)
    (sameLog : moved.log = world.log)
    (sameSlot :
      moved.keysIndexer.info.storageStateSlot =
        world.keysIndexer.info.storageStateSlot) :
    Reindexing world moved :=
  ⟨sameStack, [], .silent sameLog sameSlot, by simp⟩

theorem reindexing_refl
    (world : World) :
    Reindexing world world :=
  ⟨rfl, concluding_refl world⟩

theorem reindexing_trans
    (earlier : Reindexing first middle)
    (later : Reindexing middle last) :
    Reindexing first last :=
  ⟨later.1.trans earlier.1, concluding_trans earlier.2 later.2⟩

end Relations

/-! ## The updates of the index -/

section Update

variable (config : Config) (consensus : Consensus) (keysapi : KeysIndexer.Keysapi)

/-- Writing a file is nothing but an update of the index. -/
theorem writeFile_reindexing
    (save : World → Disk → Disk) :
    (writeFile save).Guarantees Reindexing := by
  apply guarantees_bind (guarantees_read reindexing_refl)
  intro world
  apply guarantees_bind guarantees_settle
  intro _
  apply guarantees_bind
  · rw [guarantees_modify]
    exact fun _ => .silent rfl rfl rfl
  · intro _
    exact guarantees_tick

/-- Filling the index commits no slot. -/
theorem updateStorage_reindexing
    (state : State)
    (finalizedSlot : Nat) :
    (KeysIndexer.updateStorage config consensus keysapi state
      finalizedSlot).Guarantees Reindexing := by
  apply guarantees_bind (guarantees_read reindexing_refl)
  intro world
  apply guarantees_bind (guarantees_request _)
  intro result
  simp only
  split
  · trivial
  · apply guarantees_bind (guarantees_read reindexing_refl)
    intro world
    apply guarantees_bind (guarantees_request _)
    intro stakingModuleKeys
    apply guarantees_bind
    · rw [note, guarantees_modify]
      intro current
      refine ⟨rfl, [_], ⟨rfl, rfl, ?_⟩, ?_⟩
      · exact ⟨by simp [recordedSlot, lookupSlot], trivial⟩
      · simp [Neutral, lookupSlot]
    · intro _
      apply guarantees_bind
      · unfold KeysIndexer.healthCheck
        split <;> trivial
      · intro _
        apply guarantees_bind
        · rw [KeysIndexer.modifyFields, guarantees_modify]
          exact fun _ => .silent rfl rfl rfl
        · intro _
          trivial

/-- An update commits its slot and logs it. -/
theorem update_reindexing
    (finalizedHeader : BlockHeaderResponse) :
    (KeysIndexer.update config consensus keysapi finalizedHeader).Guarantees
      Reindexing := by
  apply guarantees_call
  apply guarantees_bind (guarantees_request _)
  intro state
  apply guarantees_bind
  · exact guarantees_call (updateStorage_reindexing config consensus keysapi _ _)
  · intro totalValLength
    apply guarantees_bind
    · rw [KeysIndexer.commit, guarantees_modify]
      intro current
      refine ⟨rfl, [.indexCommitted finalizedHeader.message.slot], ⟨rfl, rfl, ?_⟩, ?_⟩
      · exact ⟨by simp [recordedSlot, lookupSlot], trivial⟩
      · simp [Neutral, lookupSlot]
    · intro _
      apply guarantees_bind (writeFile_reindexing _)
      intro _
      exact writeFile_reindexing _

end Update

/-! ## The processed root -/

/-- The log was recorded from the initial slot, and the index is where the log says. -/
structure Tracked (initial : Nat) (world : World) : Prop where
  slot : world.keysIndexer.info.storageStateSlot = slotInForce initial world.log
  recorded : Recorded initial world.log

/-- Moves keep the log in step with the index. -/
theorem Tracked.moves
    {initial : Nat}
    {world moved : World}
    {events : List Event}
    (tracked : Tracked initial world)
    (moves : Moves world moved events) :
    Tracked initial moved where
  slot := by rw [moves.slot, moves.log, slotInForce_append, tracked.slot]
  recorded := by
    rw [moves.log, recorded_append, ← tracked.slot]
    exact ⟨tracked.recorded, moves.recorded⟩

section Process

variable (consensus : Consensus) (initial slot : Nat)

/-- Before the check: nothing is decided. -/
def Open (world : World) : Prop :=
  Tracked initial world ∧ Undecided world.log

/-- After the push: the stack has a root under the slot. -/
def Stacked (world : World) : Prop :=
  Open initial world ∧ world.rootsStack.storage[slot]?.isSome

/-- After the check: the log says whether the root left the stack. -/
def Closed (world : World) : Prop :=
  Tracked initial world ∧ Decided consensus slot world.log

/-- Between its suspensions the call is before its check or past it. -/
def protocol : Protocol World where
  rely := Reindexing
  suspended := fun world => Open initial world ∨ Closed consensus initial slot world
  aborted := fun _ world => Open initial world ∨ Closed consensus initial slot world

end Process

section Specs

variable {config : Config} {consensus : Consensus} {balances : Bool}
variable {initial slot : Nat} {world moved : World}

/-- Moves that decide nothing leave it open. -/
theorem Open.moves
    {events : List Event}
    (isOpen : Open initial world)
    (moves : Moves world moved events)
    (undecided : Undecided events) :
    Open initial moved := by
  refine ⟨isOpen.1.moves moves, ?_⟩
  rw [moves.log]
  intro event member
  rcases List.mem_append.mp member with inLog | inEvents
  · exact isOpen.2 event inLog
  · exact undecided event inEvents

/-- The duties and the updates leave it open. -/
theorem Open.working
    (isOpen : Open initial world)
    (working : Working world moved) :
    Open initial moved := by
  obtain ⟨_, events, moves, undecided⟩ := working
  exact isOpen.moves moves undecided

/-- They leave the root on the stack, too. -/
theorem Stacked.working
    (stacked : Stacked initial slot world)
    (working : Working world moved) :
    Stacked initial slot moved :=
  ⟨stacked.1.working working, by rw [working.1]; exact stacked.2⟩

/-- Once decided it stays decided. -/
theorem Closed.concluding
    (closed : Closed consensus initial slot world)
    (concluding : Concluding world moved) :
    Closed consensus initial slot moved := by
  obtain ⟨tracked, before, checked, after, shape, undecided, noLookups, purges⟩ := closed
  obtain ⟨events, moves, neutral⟩ := concluding
  refine ⟨tracked.moves moves, before, checked, after ++ events, ?_, undecided, ?_, ?_⟩
  · simp [moves.log, shape]
  · intro event member
    rcases List.mem_append.mp member with inAfter | inEvents
    · exact noLookups event inAfter
    · exact ⟨(neutral event inEvents).1, (neutral event inEvents).2.1⟩
  · rw [← purges]
    constructor
    · rintro ⟨rs, member⟩
      rcases List.mem_append.mp member with inAfter | inEvents
      · exact ⟨rs, inAfter⟩
      · exact ((neutral _ inEvents).2.2 rs rfl).elim
    · rintro ⟨rs, member⟩
      exact ⟨rs, List.mem_append_left _ member⟩

/-- The updates are what a suspended call has to expect. -/
theorem protocol_stable :
    (protocol consensus initial slot).Stable := by
  have kept {world moved : World}
      (holds : Open initial world ∨ Closed consensus initial slot world)
      (reindexing : Reindexing world moved) :
      Open initial moved ∨ Closed consensus initial slot moved := by
    rcases holds with isOpen | closed
    · exact .inl (isOpen.working reindexing.working)
    · exact .inr (closed.concluding reindexing.2)
  exact
    { refl := reindexing_refl
      trans := reindexing_trans
      suspended := kept
      aborted := kept }

/-- Steps that leave the stack alone and decide nothing keep the root stacked. -/
theorem stacked_spec
    {α : Type}
    {program : Async World α}
    (works : program.Guarantees Working)
    (stacked : Stacked initial slot world) :
    wp (protocol consensus initial slot)
      (fun _ final => Stacked initial slot final) program world :=
  wp_mono
    (wp_of_guarantees working_refl working_trans Reindexing.working
      (fun _ working => Or.inl (stacked.1.working working))
      (fun _ _ working => Or.inl (stacked.1.working working))
      works)
    fun _ _ working => stacked.working working

/-- Steps that look nothing up and decide nothing keep the log decided. -/
theorem closed_spec
    {α : Type}
    {program : Async World α}
    (concludes : program.Guarantees Concluding)
    (closed : Closed consensus initial slot world) :
    wp (protocol consensus initial slot)
      (fun _ final => Closed consensus initial slot final) program world :=
  wp_mono
    (wp_of_guarantees concluding_refl concluding_trans Reindexing.concluding
      (fun _ concluding => Or.inr (closed.concluding concluding))
      (fun _ _ concluding => Or.inr (closed.concluding concluding))
      concludes)
    fun _ _ concluding => closed.concluding concluding

/-- The duties look keys up in the index as it is and decide nothing. -/
theorem working_frame :
    DutyFrame Working where
  refl := working_refl
  trans := working_trans
  keyLookups := by
    intro duty keyInfoFn valIndices world
    have uncommitted :
        ∀ event ∈ lookupEvents duty keyInfoFn valIndices world,
          slotAfter world.keysIndexer.info.storageStateSlot event =
              world.keysIndexer.info.storageStateSlot ∧
            ∀ recorded, recordedSlot event = some recorded →
              recorded = world.keysIndexer.info.storageStateSlot := by
      simp [lookupEvents, recordedSlot, lookupSlot, slotAfter]
    obtain ⟨force, recorded⟩ := slotInForce_of_uncommitted uncommitted
    refine ⟨rfl, lookupEvents duty keyInfoFn valIndices world,
      ⟨rfl, force.symm, recorded⟩, ?_⟩
    simp [Undecided, lookupEvents]
  allKeysLookup := by
    intro world
    refine ⟨rfl, [.allKeysLookup world.keysIndexer.info.storageStateSlot],
      ⟨rfl, rfl, ?_⟩, ?_⟩
    · exact ⟨by simp [recordedSlot, lookupSlot], trivial⟩
    · simp [Undecided]
  proofMined := by
    intro kind key world
    refine ⟨rfl, [.proofResolved kind key], ⟨rfl, rfl, ?_⟩, ?_⟩
    · exact ⟨by simp [recordedSlot, lookupSlot], trivial⟩
    · simp [Undecided]
  balanceMined := by
    intro key balanceGwei world
    refine ⟨rfl, [.balanceProofResolved key balanceGwei], ⟨rfl, rfl, ?_⟩, ?_⟩
    · exact ⟨by simp [recordedSlot, lookupSlot], trivial⟩
    · simp [Undecided]

/-- After the push the root is stacked. -/
theorem push_spec
    {blockRoot : RootHex}
    (isOpen : Open initial world) :
    wp (protocol consensus initial slot)
      (fun _ final => Stacked initial slot final)
      (RootsStack.push { blockRoot := blockRoot, slotNumber := slot }) world := by
  rw [RootsStack.push, wp_bind, wp_read]
  cases found : world.rootsStack.storage[slot]? with
  | some stackedRoot =>
      exact ⟨isOpen, by simp [found]⟩
  | none =>
      rw [wp_bind, RootsStack.modifyStorage, wp_modify]
      apply stacked_spec
      · exact (writeFile_reindexing _).mono Reindexing.working
      · exact ⟨isOpen.moves (.silent rfl rfl) (by simp [Undecided]), by simp⟩

/-- The last processed root is set after the check. -/
theorem setLastProcessed_concluding
    (rs : RootSlot) :
    (RootsStack.setLastProcessed rs).Guarantees Concluding := by
  apply guarantees_bind
  · rw [guarantees_modify]
    exact fun _ => ⟨[], .silent rfl rfl, by simp⟩
  · intro _
    apply guarantees_bind
    · rw [note, guarantees_modify]
      intro current
      refine ⟨[.lastProcessedSet rs], ⟨rfl, rfl, ?_⟩, ?_⟩
      · exact ⟨by simp [recordedSlot, lookupSlot], trivial⟩
      · simp [Neutral, lookupSlot]
    · intro _
      exact (writeFile_reindexing _).mono Reindexing.concluding

/-- The check closes an open log on the slot in force. -/
theorem Open.decides
    {rs : RootSlot}
    {after : List Event}
    (isOpen : Open initial world)
    (sameSlot :
      moved.keysIndexer.info.storageStateSlot =
        world.keysIndexer.info.storageStateSlot)
    (log :
      moved.log =
        world.log ++ .dutiesReturned rs ::
          .trustChecked world.keysIndexer.info.storageStateSlot :: after)
    (onlyPurges : ∀ event ∈ after, ∃ other, event = .purged other)
    (purges :
      (∃ other, .purged other ∈ after) ↔
        Trusted consensus slot world.keysIndexer.info.storageStateSlot) :
    Closed consensus initial slot moved := by
  obtain ⟨tracked, undecided⟩ := isOpen
  have neutralSlot :
      slotInForce world.keysIndexer.info.storageStateSlot after =
          world.keysIndexer.info.storageStateSlot ∧
        Recorded world.keysIndexer.info.storageStateSlot after := by
    apply slotInForce_of_uncommitted
    intro event member
    obtain ⟨other, rfl⟩ := onlyPurges event member
    exact ⟨rfl, by simp [recordedSlot, lookupSlot]⟩
  have moves :
      Moves world moved
        (.dutiesReturned rs ::
          .trustChecked world.keysIndexer.info.storageStateSlot :: after) :=
    { log := log
      slot := sameSlot.trans neutralSlot.1.symm
      recorded := by
        refine ⟨by simp [recordedSlot, lookupSlot], ?_, neutralSlot.2⟩
        intro recorded records
        exact (Option.some.inj records).symm }
  refine ⟨tracked.moves moves, world.log ++ [.dutiesReturned rs],
    world.keysIndexer.info.storageStateSlot, after, by simp [log], ?_, ?_, purges⟩
  · intro event member
    rcases List.mem_append.mp member with inLog | isReturn
    · exact undecided event inLog
    · rw [List.mem_singleton.mp isReturn]
      simp
  · intro event member
    obtain ⟨other, rfl⟩ := onlyPurges event member
    simp [lookupSlot]

/-- The check decides about the purge on the slot it records. -/
theorem settleRoot_spec
    {blockRoot : RootHex}
    (stacked : Stacked initial slot world) :
    wp (protocol consensus initial slot)
      (fun _ final => Closed consensus initial slot final)
      (RootsProcessor.settleRoot consensus
        { blockRoot := blockRoot, slotNumber := slot }) world := by
  obtain ⟨isOpen, onStack⟩ := stacked
  let rs : RootSlot := { blockRoot := blockRoot, slotNumber := slot }
  simp only [RootsProcessor.settleRoot, wp_bind, wp_read, wp_note]
  have trustedIff :=
    KeysIndexer.isTrustedForEveryDuty_iff consensus
      world.keysIndexer.info.storageStateSlot slot
  have concludes :=
    guarantees_call (setLastProcessed_concluding rs)
  split
  · next trusted =>
      obtain ⟨stackedRoot, found⟩ := Option.isSome_iff_exists.mp onStack
      rw [wp_bind, wp_call, RootsStack.purge, wp_bind, wp_read]
      simp only [World.record_rootsStack, found]
      rw [wp_bind, RootsStack.modifyStorage, wp_modify, wp_bind, wp_note]
      have closed :
          ∀ moved,
            moved.keysIndexer = world.keysIndexer →
            moved.log =
              world.log ++ [.dutiesReturned rs,
                .trustChecked world.keysIndexer.info.storageStateSlot, .purged rs] →
            Closed consensus initial slot moved := by
        intro moved sameIndex log
        apply isOpen.decides (by rw [sameIndex]) log
        · simp
        · simp only [List.mem_singleton, Event.purged.injEq, exists_eq, true_iff]
          exact trustedIff.mp trusted
      refine wp_mono
        (closed_spec ((writeFile_reindexing _).mono Reindexing.concluding)
          (closed _ rfl (by simp [rs])))
        fun _ written writtenClosed => ?_
      refine ⟨.inr writtenClosed, fun later reindexing => ?_⟩
      exact closed_spec concludes (writtenClosed.concluding reindexing.concluding)
  · next untrusted =>
      apply closed_spec concludes
      have log :
          ((world.record (.dutiesReturned rs)).record
              (.trustChecked world.keysIndexer.info.storageStateSlot)).log =
            world.log ++ [.dutiesReturned rs,
              .trustChecked world.keysIndexer.info.storageStateSlot] := by
        simp
      refine isOpen.decides rfl log (by simp) ?_
      constructor
      · rintro ⟨_, member⟩
        cases member
      · exact fun trusted => (untrusted (trustedIff.mpr trusted)).elim

/-- A call that returns has decided. -/
theorem processNext_spec
    {blockRoot : RootHex}
    {finalizedHeader : BlockHeaderResponse}
    (isOpen : Open initial world) :
    wp (protocol consensus initial (consensus.blockInfo blockRoot).slot)
      (fun _ final =>
        Closed consensus initial (consensus.blockInfo blockRoot).slot final)
      (RootsProcessor.processNext config consensus balances blockRoot finalizedHeader)
      world := by
  rw [RootsProcessor.processNext, wp_bind, wp_request]
  refine ⟨.inl isOpen, fun answered reindexing => ?_⟩
  have answeredOpen := isOpen.working reindexing.working
  refine ⟨?_, .inl answeredOpen⟩
  rw [wp_bind, wp_call]
  refine wp_mono (push_spec answeredOpen) fun _ pushed stacked => ?_
  refine ⟨.inl stacked.1, fun moved reindexing => ?_⟩
  have movedStacked := stacked.working reindexing.working
  rw [wp_bind]
  refine wp_mono
    (stacked_spec
      (working_frame.runDuties_guarantees config consensus balances _ _ _)
      movedStacked)
    fun _ done doneStacked => ?_
  exact settleRoot_spec doneStacked

end Specs

/-! ## Every interleaving -/

/-- One update of the index, with the answers it is given. -/
structure Update where
  consensus : Consensus
  keysapi : KeysIndexer.Keysapi
  finalizedHeader : BlockHeaderResponse

/-- An update as a task, which a schedule starts with its first turn. -/
def Update.task (config : Config) (update : Update) : Async World Unit := do
  tick
  KeysIndexer.update config update.consensus update.keysapi update.finalizedHeader

/--
The call for one root among updates of the index.  Each task begins with a tick,
so a schedule chooses when it starts.
-/
def tasks (config : Config) (consensus : Consensus) (balances : Bool)
    (blockRoot : RootHex) (finalizedHeader : BlockHeaderResponse)
    (updates : List Update) : List (Async World Unit) :=
  (do
    tick
    RootsProcessor.processNext config consensus balances blockRoot finalizedHeader) ::
  updates.map (Update.task config)

/-- The log of one interleaving, from an empty one on. -/
def interleavedLog (config : Config) (consensus : Consensus) (balances : Bool)
    (blockRoot : RootHex) (finalizedHeader : BlockHeaderResponse)
    (updates : List Update) (world : World) (schedule : List (Nat × Settle)) :
    List Event :=
  ((Pool.start
    (tasks config consensus balances blockRoot finalizedHeader updates)
    { world with log := [] }).run schedule).shared.log

/--
In every interleaving with updates of the index, a block leaves the stack only
on trusted lookups exactly when no update commits in the window between an
untrusted lookup and the trust check.
-/
theorem purgedOnTrust_iff
    (config : Config)
    (consensus : Consensus)
    (balances : Bool)
    (blockRoot : RootHex)
    (finalizedHeader : BlockHeaderResponse)
    (updates : List Update)
    (world : World)
    (schedule : List (Nat × Settle)) :
    PurgedOnTrust consensus (consensus.blockInfo blockRoot).slot
        (interleavedLog config consensus balances blockRoot finalizedHeader updates
          world schedule) ↔
      ¬ CommitsInWindow consensus (consensus.blockInfo blockRoot).slot
          (interleavedLog config consensus balances blockRoot finalizedHeader updates
            world schedule) := by
  have opened : Open world.keysIndexer.info.storageStateSlot { world with log := [] } :=
    ⟨⟨rfl, trivial⟩, by simp [Undecided]⟩
  have mainSpec :
      wp
        (protocol consensus world.keysIndexer.info.storageStateSlot
          (consensus.blockInfo blockRoot).slot)
        (fun _ final =>
          Closed consensus world.keysIndexer.info.storageStateSlot
            (consensus.blockInfo blockRoot).slot final)
        (do
          tick
          RootsProcessor.processNext config consensus balances blockRoot finalizedHeader)
        { world with log := [] } := by
    rw [wp_bind, wp_tick]
    exact ⟨.inl opened, fun _ reindexing =>
      processNext_spec (opened.working reindexing.working)⟩
  have updateGuarantees :
      ∀ other ∈ updates.map (Update.task config), other.Guarantees Reindexing := by
    intro other member
    obtain ⟨update, _, rfl⟩ := List.mem_map.mp member
    exact guarantees_bind guarantees_tick fun _ => update_reindexing config _ _ _
  have postStable :
      ∀ state moved,
        Closed consensus world.keysIndexer.info.storageStateSlot
            (consensus.blockInfo blockRoot).slot state →
          Reindexing state moved →
          Closed consensus world.keysIndexer.info.storageStateSlot
            (consensus.blockInfo blockRoot).slot moved :=
    fun _ _ closed reindexing => closed.concluding reindexing.concluding
  have guarded :=
    Pool.run_guarded protocol_stable postStable
      (Pool.start_guarded protocol_stable postStable updateGuarantees mainSpec)
      schedule
  obtain ⟨program, rest, _, established⟩ := guarded.established
  have final :=
    established.holds
      (fun state =>
        Open world.keysIndexer.info.storageStateSlot state ∨
          Closed consensus world.keysIndexer.info.storageStateSlot
            (consensus.blockInfo blockRoot).slot state)
      (fun _ holds => holds) (fun _ _ holds => holds) (fun _ _ closed => .inr closed)
  rcases final with isOpen | closed
  · exact isOpen.2.iff
  · exact closed.2.iff closed.1.recorded

/-! ### A block that leaves the stack unreported -/

/-- A block with the full withdrawal of a validator the outdated index lacks. -/
def lateBlock : SupportedBlock where
  slot := 10000
  parentRoot := 9999
  blockHash := 10000
  withdrawals :=
    [{ index := 0, validatorIndex := 0, address := 0, amount := 32000000000 }]
  proposerSlashings := []
  attesterSlashings := []

/-- A client that serves the late block and its validator. -/
def lateConsensus : Consensus :=
  { KeysIndex.sampleConsensus with
    blockInfo := fun _ => lateBlock
    state := fun _ => { validators := [KeysIndex.sampleValidator 0], balances := [] } }

/-- The index is at slot 1, and the block far ahead. -/
def lateWorld : World :=
  { World.blank (KeysIndex.sampleHeader 10000) with
    keysIndexer :=
      { info :=
          { moduleAddress := "0xAB"
            moduleId := 3
            storageStateSlot := 1
            lastValidatorsCount := 0 }
        storage := ∅ } }

/-- An update to the slot of the block. -/
def lateUpdate : Update where
  consensus := lateConsensus
  keysapi :=
    { KeysIndex.sampleKeysapi with
      findModuleKeys := fun _ _ =>
        { keys := [KeysIndex.sampleKey], elBlockSnapshot := { timestamp := 120000 } } }
  finalizedHeader := KeysIndex.sampleHeader 10000

/-- The update runs from its start to its end between the lookup and the check. -/
def lateSchedule : List (Nat × Settle) :=
  List.replicate 8 (0, .resolved) ++ List.replicate 12 (1, .resolved) ++
    List.replicate 30 (0, .resolved)

set_option maxRecDepth 8000 in
/-- The withdrawal was not found at state slot 1, and the block left the stack. -/
theorem purged_on_untrusted_lookup :
    ¬ PurgedOnTrust lateConsensus (lateConsensus.blockInfo 10000).slot
        (interleavedLog KeysIndex.sampleConfig lateConsensus true 10000
          (KeysIndex.sampleHeader 10000) [lateUpdate] lateWorld lateSchedule) := by
  intro onTrust
  have trusted :=
    onTrust { blockRoot := 10000, slotNumber := 10000 }
      (.keyLookup .withdrawal 1 0 none) 1 (by decide) (by decide) rfl
  revert trusted
  unfold Trusted
  decide

end TrustWindow

end CsmProver
