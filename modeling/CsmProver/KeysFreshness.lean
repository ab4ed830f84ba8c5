import CsmProver.KeysIndexRuns

namespace CsmProver

/-!
# Freshness of the KeysAPI data

Both indexing paths check the execution-layer snapshot of the answer before they
touch the index.  The check compares a difference of unix seconds with a period
configured in milliseconds, so it lets through snapshots up to a thousand times
older than configured.
-/

open Async
open KeysIndexer

namespace KeysFreshness

/-! ## Attempts -/

/-- The two ways to build the index. -/
inductive Indexing where
  | init
  | update
  deriving Repr, DecidableEq

section Attempts

variable (config : Config) (consensus : Consensus) (keysapi : Keysapi)
variable (finalizedHeader : BlockHeaderResponse)

/-- The attempt that builds or extends the index. -/
def Indexing.program : Indexing → Async World Unit
  | .init =>
      baseRun consensus finalizedHeader.message.stateRoot finalizedHeader.message.slot
        (initStorage config consensus keysapi)
  | .update =>
      KeysIndexer.update config consensus keysapi finalizedHeader

/-- The snapshot of the answer an attempt asks KeysAPI for, if it asks. -/
def Indexing.consulted (fields : KeysIndexerFields) : Indexing → Option ELBlockSnapshot
  | .init =>
      some (keysapi.moduleKeys fields.info.moduleId).elBlockSnapshot
  | .update =>
      let newValKeys :=
        (getNewValidatorKeys (consensus.state finalizedHeader.message.stateRoot)
          fields.info.lastValidatorsCount).valKeys
      if newValKeys.length = 0 then
        none
      else
        some (keysapi.findModuleKeys fields.info.moduleId newValKeys).elBlockSnapshot

/-- How many seconds a snapshot is behind the finalized slot. -/
def age (snapshot : ELBlockSnapshot) : Int :=
  consensus.slotToTimestamp finalizedHeader.message.slot - snapshot.timestamp

/-- The configured freshness, in the unit it is configured in. -/
def Fresh (snapshot : ELBlockSnapshot) : Prop :=
  age consensus finalizedHeader snapshot * 1000 ≤
    config.keysIndexerKeyapiFreshnessPeriodMs

/-- What a health check lets through. -/
def Accepted (snapshot : ELBlockSnapshot) : Prop :=
  age consensus finalizedHeader snapshot ≤
    config.keysIndexerKeyapiFreshnessPeriodMs

/--
Only fresh snapshots are committed.  An attempt that meets a stale one has failed, and
has changed nothing.
-/
structure Guarded (world : World) (attempt : Async World Unit × World) : Prop where
  committed :
    ∀ events snapshot finalizedSlot,
      attempt.2.log = world.log ++ events →
      .keysApiConsulted snapshot ∈ events →
      .indexCommitted finalizedSlot ∈ events →
      Fresh config consensus finalizedHeader snapshot
  stale :
    ∀ events snapshot,
      attempt.2.log = world.log ++ events →
      .keysApiConsulted snapshot ∈ events →
      ¬ Fresh config consensus finalizedHeader snapshot →
      (∃ reason, attempt.1 = .fail reason) ∧
        attempt.2.keysIndexer = world.keysIndexer ∧
        attempt.2.disk = world.disk

end Attempts

/-! ## The protocol of one attempt -/

/-- The other tasks leave the index, its files and the log alone. -/
structure Apart (world moved : World) : Prop where
  fields : moved.keysIndexer = world.keysIndexer
  disk : moved.disk = world.disk
  log : moved.log = world.log

/-- Nothing was committed or written yet. -/
structure Untouched (start world : World) : Prop where
  fields : world.keysIndexer = start.keysIndexer
  disk : world.disk = start.disk
  uncommitted :
    ∀ events finalizedSlot,
      world.log = start.log ++ events → .indexCommitted finalizedSlot ∉ events

/-- An update that consults KeysAPI no more. -/
def Settled (world moved : World) : Prop :=
  ∃ events,
    moved.log = world.log ++ events ∧
      ∀ snapshot, .keysApiConsulted snapshot ∉ events

section Protocol

variable (config : Config) (consensus : Consensus)
variable (finalizedHeader : BlockHeaderResponse)

/-- Every snapshot consulted since the start is fresh. -/
def Passed (start world : World) : Prop :=
  ∃ events,
    world.log = start.log ++ events ∧
      ∀ snapshot,
        .keysApiConsulted snapshot ∈ events →
        Fresh config consensus finalizedHeader snapshot

/-- How an attempt may fail. -/
def Safe (start world : World) : Prop :=
  Untouched start world ∨ Passed config consensus finalizedHeader start world

/-- The check follows the answer at once, so no stale snapshot waits for anything. -/
def protocol (start : World) : Protocol World where
  rely := Apart
  suspended := Passed config consensus finalizedHeader start
  aborted := fun _ => Safe config consensus finalizedHeader start

end Protocol

section Specs

variable {config : Config} {consensus : Consensus} {keysapi : Keysapi}
variable {finalizedHeader : BlockHeaderResponse} {start world moved : World}

/-- Moves apart from the index compose. -/
theorem Apart.trans
    {last : World}
    (first : Apart world moved)
    (second : Apart moved last) :
    Apart world last where
  fields := second.fields.trans first.fields
  disk := second.disk.trans first.disk
  log := second.log.trans first.log

/-- While others move nothing is committed or written. -/
theorem Apart.untouched
    (apart : Apart start world) :
    Untouched start world where
  fields := apart.fields
  disk := apart.disk
  uncommitted := by
    intro events finalizedSlot logged
    rw [apart.log, List.self_eq_append_right] at logged
    simp [logged]

/-- While others move no snapshot is consulted. -/
theorem Apart.passed
    (apart : Apart start world) :
    Passed config consensus finalizedHeader start world :=
  ⟨[], by simp [apart.log], by simp⟩

/-- What is untouched stays so while others move. -/
theorem Untouched.apart
    (untouched : Untouched start world)
    (apart : Apart world moved) :
    Untouched start moved where
  fields := apart.fields.trans untouched.fields
  disk := apart.disk.trans untouched.disk
  uncommitted := by
    rw [apart.log]
    exact untouched.uncommitted

/-- Fresh snapshots stay fresh when no other is consulted. -/
theorem Passed.settled
    (passed : Passed config consensus finalizedHeader start world)
    (settled : Settled world moved) :
    Passed config consensus finalizedHeader start moved := by
  obtain ⟨events, logged, fresh⟩ := passed
  obtain ⟨more, moreLogged, unconsulted⟩ := settled
  refine ⟨events ++ more, by rw [moreLogged, logged, List.append_assoc], ?_⟩
  intro snapshot member
  rcases List.mem_append.mp member with earlier | later
  · exact fresh snapshot earlier
  · exact (unconsulted snapshot later).elim

/-- Doing nothing consults no snapshot. -/
theorem Settled.refl
    (world : World) :
    Settled world world :=
  ⟨[], by simp, by simp⟩

/-- Steps that consult no snapshot compose. -/
theorem Settled.trans
    {last : World}
    (first : Settled world moved)
    (second : Settled moved last) :
    Settled world last := by
  obtain ⟨events, logged, unconsulted⟩ := first
  obtain ⟨more, moreLogged, moreUnconsulted⟩ := second
  refine ⟨events ++ more, by rw [moreLogged, logged, List.append_assoc], ?_⟩
  intro snapshot member
  rcases List.mem_append.mp member with earlier | later
  · exact unconsulted snapshot earlier
  · exact moreUnconsulted snapshot later

/-- The others consult no snapshot. -/
theorem Apart.settled
    (apart : Apart world moved) :
    Settled world moved :=
  ⟨[], by simp [apart.log], by simp⟩

/-- What was consulted stays fresh while others move. -/
theorem protocol_stable
    (start : World) :
    (protocol config consensus finalizedHeader start).Stable := by
  exact
    { refl := fun _ => ⟨rfl, rfl, rfl⟩
      trans := Apart.trans
      suspended := fun passed apart => passed.settled apart.settled
      aborted := fun safe apart =>
        safe.imp (fun untouched => untouched.apart apart) fun passed =>
          passed.settled apart.settled }

/-- After the check, steps that consult KeysAPI no more keep the snapshots fresh. -/
theorem passed_spec
    {α : Type}
    {program : Async World α}
    (settles : program.Guarantees Settled)
    (passed : Passed config consensus finalizedHeader start world) :
    wp (protocol config consensus finalizedHeader start)
      (fun _ final => Passed config consensus finalizedHeader start final)
      program world :=
  wp_mono
    (wp_of_guarantees Settled.refl Settled.trans Apart.settled
      (fun _ settled => passed.settled settled)
      (fun _ _ settled => Or.inr (passed.settled settled))
      settles)
    fun _ _ settled => passed.settled settled

/-- The check lets an answer through only when its snapshot is accepted. -/
theorem healthCheck_spec
    {snapshot : ELBlockSnapshot}
    (apart : Apart start world)
    (guard :
      Accepted config consensus finalizedHeader snapshot →
        Fresh config consensus finalizedHeader snapshot) :
    wp (protocol config consensus finalizedHeader start)
      (fun _ final => Passed config consensus finalizedHeader start final)
      (healthCheck config
        (consensus.slotToTimestamp finalizedHeader.message.slot) snapshot)
      (world.record (.keysApiConsulted snapshot)) := by
  unfold healthCheck
  split
  · rw [wp_raise]
    exact .inl
      { fields := apart.fields
        disk := apart.disk
        uncommitted := by
          intro events finalizedSlot logged
          rw [World.record_log, apart.log, List.append_cancel_left_eq] at logged
          simp [← logged] }
  · next accepted =>
      refine ⟨[.keysApiConsulted snapshot], by simp [apart.log], ?_⟩
      intro consulted member
      cases List.mem_singleton.mp member
      exact guard (not_lt.mp accepted)

/-! ## The two paths -/

/-- A write consults no snapshot. -/
theorem guarantees_writeFile
    (save : World → Disk → Disk) :
    (writeFile save).Guarantees Settled :=
  guarantees_bind (guarantees_read Settled.refl) fun _ =>
    guarantees_bind guarantees_settle fun _ =>
      guarantees_bind ((guarantees_modify _).mpr fun _ => ⟨[], by simp, by simp⟩)
        fun _ => guarantees_tick

/-- The commit of `baseRun` and the two writes after it. -/
theorem guarantees_commit
    (finalizedSlot totalValLength : Nat) :
    (do
      commit finalizedSlot totalValLength
      writeStorage
      writeInfo : Async World Unit).Guarantees Settled :=
  guarantees_bind
    ((guarantees_modify _).mpr fun _ =>
      ⟨[.indexCommitted finalizedSlot], by simp, by simp⟩)
    fun _ => guarantees_bind (guarantees_writeFile _) fun _ => guarantees_writeFile _

/-- Building the storage consults one snapshot and checks it before it goes on. -/
theorem initStorage_spec
    (guard :
      ∀ snapshot,
        Indexing.consulted consensus keysapi finalizedHeader start.keysIndexer
            .init = some snapshot →
        Accepted config consensus finalizedHeader snapshot →
        Fresh config consensus finalizedHeader snapshot)
    (apart : Apart start world) :
    wp (protocol config consensus finalizedHeader start)
      (fun _ final => Passed config consensus finalizedHeader start final)
      (initStorage config consensus keysapi
        (consensus.state finalizedHeader.message.stateRoot)
        finalizedHeader.message.slot) world := by
  simp only [initStorage, wp_bind, wp_read, wp_note, wp_request]
  refine ⟨apart.passed, fun answered answeredApart => ⟨?_, ?_⟩⟩
  · have answeredApart := apart.trans answeredApart
    refine wp_mono (healthCheck_spec answeredApart (guard _ (by rw [apart.fields]; rfl))) ?_
    intro _ checked passed
    refine ⟨passed, fun moved movedApart => ⟨?_, ?_⟩⟩
    · exact (passed.settled movedApart.settled).settled ⟨[], by simp, by simp⟩
    · exact .inr (passed.settled movedApart.settled)
  · exact .inl (apart.trans answeredApart).untouched

/-- Extending the storage consults a snapshot if there are new validators, and checks it. -/
theorem updateStorage_spec
    (guard :
      ∀ snapshot,
        Indexing.consulted consensus keysapi finalizedHeader start.keysIndexer
            .update = some snapshot →
        Accepted config consensus finalizedHeader snapshot →
        Fresh config consensus finalizedHeader snapshot)
    (apart : Apart start world) :
    wp (protocol config consensus finalizedHeader start)
      (fun _ final => Passed config consensus finalizedHeader start final)
      (updateStorage config consensus keysapi
        (consensus.state finalizedHeader.message.stateRoot)
        finalizedHeader.message.slot) world := by
  simp only [updateStorage, wp_bind, wp_read, wp_request]
  refine ⟨apart.passed, fun answered answeredApart => ⟨?_, ?_⟩⟩
  · have answeredApart := apart.trans answeredApart
    split
    · exact answeredApart.passed
    · next newKeys =>
        simp only [wp_bind, wp_read, wp_note, wp_request]
        refine ⟨answeredApart.passed, fun found foundApart => ⟨?_, ?_⟩⟩
        · have consulted :
              Indexing.consulted consensus keysapi finalizedHeader start.keysIndexer
                  .update =
                some (keysapi.findModuleKeys answered.keysIndexer.info.moduleId
                  (getNewValidatorKeys
                    (consensus.state finalizedHeader.message.stateRoot)
                    world.keysIndexer.info.lastValidatorsCount).valKeys).elBlockSnapshot := by
            rw [answeredApart.fields, apart.fields]
            rw [apart.fields] at newKeys
            exact if_neg newKeys
          refine wp_mono
            (healthCheck_spec (answeredApart.trans foundApart) (guard _ consulted)) ?_
          intro _ checked passed
          exact passed.settled ⟨[], by simp, by simp⟩
        · exact .inl (answeredApart.trans foundApart).untouched
  · exact .inl (apart.trans answeredApart).untouched

/-- After its callback an attempt consults no other snapshot. -/
theorem baseRun_spec
    {callback : State → Nat → Async World Nat}
    (callbackSpec :
      ∀ world,
        Apart start world →
        wp (protocol config consensus finalizedHeader start)
          (fun _ final => Passed config consensus finalizedHeader start final)
          (callback (consensus.state finalizedHeader.message.stateRoot)
            finalizedHeader.message.slot) world) :
    wp (protocol config consensus finalizedHeader start)
      (fun _ final => Passed config consensus finalizedHeader start final)
      (baseRun consensus finalizedHeader.message.stateRoot
        finalizedHeader.message.slot callback) start := by
  have apart : Apart start start := ⟨rfl, rfl, rfl⟩
  rw [baseRun, wp_bind, wp_request]
  refine ⟨apart.passed, fun answered answeredApart =>
    ⟨?_, .inl (apart.trans answeredApart).untouched⟩⟩
  rw [wp_bind, wp_call]
  refine wp_mono (callbackSpec answered answeredApart) ?_
  intro totalValLength called passed
  refine ⟨passed, fun moved movedApart => ?_⟩
  exact passed_spec (guarantees_commit _ _) (passed.settled movedApart.settled)

/-- An attempt keeps stale snapshots out when no accepted snapshot is stale. -/
theorem program_spec
    {indexing : Indexing}
    (guard :
      ∀ snapshot,
        indexing.consulted consensus keysapi finalizedHeader start.keysIndexer =
            some snapshot →
        Accepted config consensus finalizedHeader snapshot →
        Fresh config consensus finalizedHeader snapshot) :
    wp (protocol config consensus finalizedHeader start)
      (fun _ final => Passed config consensus finalizedHeader start final)
      (indexing.program config consensus keysapi finalizedHeader) start := by
  cases indexing with
  | init =>
      exact baseRun_spec fun _ apart => initStorage_spec guard apart
  | update =>
      unfold Indexing.program KeysIndexer.update
      rw [wp_call]
      refine wp_mono
        (baseRun_spec fun _ apart => updateStorage_spec guard apart) ?_
      intro _ final passed
      exact ⟨passed, fun _ apart => passed.settled apart.settled⟩

end Specs

/-! ## Exactly when the guard holds -/

section Guard

variable {config : Config} {consensus : Consensus} {keysapi : Keysapi}
variable {finalizedHeader : BlockHeaderResponse} {start : World}

/-- What the protocol establishes keeps stale data out. -/
theorem guarded_of_established
    {attempt : Async World Unit × World}
    (established :
      Established (protocol config consensus finalizedHeader start)
        (fun _ final => Passed config consensus finalizedHeader start final)
        attempt) :
    Guarded config consensus finalizedHeader start attempt := by
  obtain ⟨program, world⟩ := attempt
  have safe : Safe config consensus finalizedHeader start world :=
    established.holds (Safe config consensus finalizedHeader start)
      (fun _ passed => .inr passed) (fun _ _ safe => safe) (fun _ _ passed => .inr passed)
  have freshOf
      (passed : Passed config consensus finalizedHeader start world)
      {events : List Event}
      {snapshot : ELBlockSnapshot}
      (logged : world.log = start.log ++ events)
      (consulted : .keysApiConsulted snapshot ∈ events) :
      Fresh config consensus finalizedHeader snapshot := by
    obtain ⟨passedEvents, passedLogged, fresh⟩ := passed
    rw [passedLogged, List.append_cancel_left_eq] at logged
    exact fresh snapshot (logged ▸ consulted)
  constructor
  · intro events snapshot finalizedSlot logged consulted committed
    rcases safe with untouched | passed
    · exact (untouched.uncommitted events finalizedSlot logged committed).elim
    · exact freshOf passed logged consulted
  · intro events snapshot logged consulted stale
    rcases safe with untouched | passed
    · refine ⟨?_, untouched.fields, untouched.disk⟩
      cases program with
      | fail reason => exact ⟨reason, rfl⟩
      | done value => exact (stale (freshOf established logged consulted)).elim
      | await next => exact (stale (freshOf established logged consulted)).elim
      | sync update next => exact established.elim
    · exact (stale (freshOf passed logged consulted)).elim

/-- An accepted snapshot passes the check. -/
theorem finish_healthCheck
    {snapshot : ELBlockSnapshot}
    (accepted : Accepted config consensus finalizedHeader snapshot)
    (world : World) :
    finish
        (healthCheck config
          (consensus.slotToTimestamp finalizedHeader.message.slot) snapshot)
        world =
      (.ok (), world) := by
  have passes :
      ¬ consensus.slotToTimestamp finalizedHeader.message.slot - snapshot.timestamp >
        config.keysIndexerKeyapiFreshnessPeriodMs :=
    not_lt.mpr accepted
  rw [healthCheck, if_neg passes]
  rfl

/-- An undisturbed attempt whose answer is accepted commits it. -/
theorem finish_commits
    {indexing : Indexing}
    {snapshot : ELBlockSnapshot}
    (consulted :
      indexing.consulted consensus keysapi finalizedHeader start.keysIndexer =
        some snapshot)
    (accepted : Accepted config consensus finalizedHeader snapshot) :
    (finish (indexing.program config consensus keysapi finalizedHeader) start).2.log =
      start.log ++
        [.keysApiConsulted snapshot, .indexCommitted finalizedHeader.message.slot] := by
  cases indexing with
  | init =>
      cases Option.some.inj consulted
      simp [Indexing.program, baseRun, initStorage, finish_bind,
        finish_healthCheck accepted, commit, writeStorage, writeInfo]
  | update =>
      simp only [Indexing.consulted] at consulted
      split at consulted
      · cases consulted
      · next newKeys =>
          cases Option.some.inj consulted
          rw [List.length_eq_zero_iff] at newKeys
          simp [Indexing.program, KeysIndexer.update, baseRun, updateStorage,
            finish_bind, newKeys, finish_healthCheck accepted, commit, writeStorage,
            writeInfo]

/--
An attempt keeps stale KeysAPI data out of the index, whatever happens at its
suspensions, exactly when the snapshot it consults is not both accepted and stale.
-/
theorem guarded_iff
    (config : Config)
    (consensus : Consensus)
    (keysapi : Keysapi)
    (finalizedHeader : BlockHeaderResponse)
    (start : World)
    (indexing : Indexing) :
    (∀ script : List (Beat BlockHeaderResponse),
      Guarded config consensus finalizedHeader start
        (run KeysIndex.observe
          (indexing.program config consensus keysapi finalizedHeader) script start)) ↔
    ∀ snapshot,
      indexing.consulted consensus keysapi finalizedHeader start.keysIndexer =
          some snapshot →
      Accepted config consensus finalizedHeader snapshot →
      Fresh config consensus finalizedHeader snapshot := by
  constructor
  · intro guarded snapshot consulted accepted
    obtain ⟨script, finished⟩ :=
      exists_run_finish KeysIndex.observe
        (indexing.program config consensus keysapi finalizedHeader) start
    have commits := finish_commits consulted accepted
    have holds := guarded script
    rw [finished] at holds
    refine holds.committed
      [.keysApiConsulted snapshot, .indexCommitted finalizedHeader.message.slot]
      snapshot finalizedHeader.message.slot ?_ (by simp) (by simp)
    rw [← commits]
    rcases finish (indexing.program config consensus keysapi finalizedHeader) start with
      ⟨_ | _, _⟩ <;> rfl
  · intro guard script
    have allowed :
        ∀ header state,
          (protocol config consensus finalizedHeader start).rely state
            (KeysIndex.observe header state) :=
      fun _ _ => ⟨rfl, rfl, rfl⟩
    exact guarded_of_established
      (run_sound (protocol_stable start) allowed (program_spec guard) script)

/-! ### A snapshot one day old -/

/-- A finalized header one day after the genesis. -/
def staleHeader : BlockHeaderResponse where
  root := 7200
  canonical := true
  message :=
    { slot := 7200
      proposerIndex := 0
      parentRoot := 7199
      stateRoot := 7200
      bodyRoot := 7200 }

/-- A chain without validators. -/
def staleConsensus : Consensus :=
  { KeysIndex.sampleConsensus with state := fun _ => { validators := [], balances := [] } }

/-- An answer from the time of the genesis. -/
def staleKeysapi : Keysapi :=
  { KeysIndex.sampleKeysapi with
    moduleKeys := fun _ => { keys := [], elBlockSnapshot := { timestamp := 0 } } }

/-- With the default freshness of eight hours, a snapshot one day old is committed. -/
theorem stale_snapshot_committed :
    ¬ ∀ script : List (Beat BlockHeaderResponse),
        Guarded KeysIndex.sampleConfig staleConsensus staleHeader KeysIndex.sampleWorld
          (run KeysIndex.observe
            (Indexing.init.program KeysIndex.sampleConfig staleConsensus staleKeysapi
              staleHeader)
            script KeysIndex.sampleWorld) := by
  intro guarded
  have holds := guarded (List.replicate 8 (.quiet .resolved))
  have fresh := holds.committed
    [.keysApiConsulted { timestamp := 0 }, .indexCommitted 7200]
    { timestamp := 0 } 7200 (by decide) (by simp) (by simp)
  revert fresh
  unfold Fresh
  decide

end Guard

end KeysFreshness

end CsmProver
