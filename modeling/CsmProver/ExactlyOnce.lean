import CsmProver.DutyGuarantees
import CsmProver.DutySelection
import CsmProver.PayloadLoop
import CsmProver.Walk

namespace CsmProver

/-!
# Withdrawal and slashing proofs are sent exactly once

A key whose proof was mined carries the flag of the contract, and a key without
the flag is the only one a duty selects.  So no key gets a second proof, however
often a block is processed and wherever a run stops; and a call that returns has
proved, or found proved, every validator it had to report.
-/

open Std (TreeMap)
open Async

namespace ExactlyOnce

/-! ## The invariant -/

/-- A key has at most one mined proof of a kind, and then it carries the flag. -/
structure Sound (world : World) : Prop where
  distinct : DistinctKeys fun valIndex => world.keysIndexer.storage[valIndex]?
  once : ∀ kind key, world.log.count (.proofResolved kind key) ≤ 1
  proved :
    ∀ kind key,
      .proofResolved kind key ∈ world.log →
      world.stakingModule.proved kind key = true

/-- A key was looked up. -/
def IsLookup : Event → Prop
  | .keyLookup _ _ _ _ => True
  | _ => False

/-- A slashing or withdrawal proof was mined. -/
def IsProof : Event → Prop
  | .proofResolved _ _ => True
  | _ => False

/-- The log grows by allowed events, flags stay set and keys stay distinct. -/
structure Adds (allowed : Event → Prop) (world moved : World) : Prop where
  log :
    ∃ events, moved.log = world.log ++ events ∧ ∀ event ∈ events, allowed event
  proved :
    ∀ kind key,
      world.stakingModule.proved kind key = true →
      moved.stakingModule.proved kind key = true
  distinct :
    DistinctKeys (fun valIndex => world.keysIndexer.storage[valIndex]?) →
    DistinctKeys fun valIndex => moved.keysIndexer.storage[valIndex]?

/-- What happens elsewhere: anything that proves nothing here and unsets no flag. -/
def Elsewhere : World → World → Prop :=
  Adds fun _ => False

/-- Steps of a duty that neither look a key up nor prove one. -/
def Quiet : World → World → Prop :=
  Adds fun event => ¬ IsLookup event ∧ ¬ IsProof event

/-- Steps of a duty that look no key up. -/
def Sending : World → World → Prop :=
  Adds fun event => ¬ IsLookup event

section Relations

variable {allowed wider : Event → Prop} {world moved final : World}

/-- Doing nothing adds nothing. -/
theorem Adds.refl
    (world : World) :
    Adds allowed world world where
  log := ⟨[], by simp, by simp⟩
  proved := fun _ _ => id
  distinct := id

/-- What is added adds up. -/
theorem Adds.trans
    (earlier : Adds allowed world moved)
    (later : Adds allowed moved final) :
    Adds allowed world final where
  log := by
    obtain ⟨first, firstLog, firstAllowed⟩ := earlier.log
    obtain ⟨second, secondLog, secondAllowed⟩ := later.log
    refine ⟨first ++ second, by rw [secondLog, firstLog, List.append_assoc], ?_⟩
    intro event member
    rcases List.mem_append.mp member with inFirst | inSecond
    · exact firstAllowed event inFirst
    · exact secondAllowed event inSecond
  proved := fun kind key flag => later.proved kind key (earlier.proved kind key flag)
  distinct := later.distinct ∘ earlier.distinct

/-- What is added is also of any wider kind. -/
theorem Adds.mono
    (widens : ∀ event, allowed event → wider event)
    (adds : Adds allowed world moved) :
    Adds wider world moved where
  log := by
    obtain ⟨events, log, all⟩ := adds.log
    exact ⟨events, log, fun event member => widens event (all event member)⟩
  proved := adds.proved
  distinct := adds.distinct

/-- What happens elsewhere is quiet. -/
theorem Elsewhere.quiet
    (elsewhere : Elsewhere world moved) :
    Quiet world moved :=
  elsewhere.mono fun _ => False.elim

/-- Quiet steps send nothing. -/
theorem Quiet.sending
    (quiet : Quiet world moved) :
    Sending world moved :=
  quiet.mono fun _ silent => silent.1

/-- What happens elsewhere is not logged here. -/
theorem Elsewhere.log_eq
    (elsewhere : Elsewhere world moved) :
    moved.log = world.log := by
  obtain ⟨events, log, none⟩ := elsewhere.log
  cases events with
  | nil => rw [log, List.append_nil]
  | cons event rest => exact (none event (by simp)).elim

/-- No proof is mined in a quiet step. -/
theorem Quiet.mem_proof
    (quiet : Quiet world moved)
    (kind : ProofKind)
    (key : KeyId) :
    .proofResolved kind key ∈ moved.log ↔ .proofResolved kind key ∈ world.log := by
  obtain ⟨events, log, silent⟩ := quiet.log
  rw [log, List.mem_append]
  constructor
  · rintro (before | added)
    · exact before
    · exact ((silent _ added).2 trivial).elim
  · exact .inl

/-- Quiet steps keep the invariant. -/
theorem Sound.quiet
    (sound : Sound world)
    (quiet : Quiet world moved) :
    Sound moved where
  distinct := quiet.distinct sound.distinct
  once := by
    intro kind key
    obtain ⟨events, log, silent⟩ := quiet.log
    have absent : .proofResolved kind key ∉ events := fun added =>
      (silent _ added).2 trivial
    rw [log, List.count_append, List.count_eq_zero_of_not_mem absent]
    exact sound.once kind key
  proved := by
    intro kind key mined
    exact quiet.proved kind key
      (sound.proved kind key ((quiet.mem_proof kind key).mp mined))

/-- An event that is neither a lookup nor a proof is quiet. -/
theorem quiet_of_events
    (events : List Event)
    (silent : ∀ event ∈ events, ¬ IsLookup event ∧ ¬ IsProof event)
    (log : moved.log = world.log ++ events)
    (sameModule : moved.stakingModule = world.stakingModule)
    (sameIndex : moved.keysIndexer = world.keysIndexer) :
    Quiet world moved where
  log := ⟨events, log, silent⟩
  proved := by
    rw [sameModule]
    exact fun _ _ => id
  distinct := by
    rw [sameIndex]
    exact id

/-- Lookups are no proofs. -/
theorem Sound.lookups
    (sound : Sound world)
    (duty : ProofKind)
    (keyInfoFn : KeyInfoFn)
    (valIndices : List Nat) :
    Sound
      { world with
        log := world.log ++ lookupEvents duty keyInfoFn valIndices world } where
  distinct := sound.distinct
  once := by
    intro kind key
    have absent :
        .proofResolved kind key ∉ lookupEvents duty keyInfoFn valIndices world := by
      simp [lookupEvents]
    rw [List.count_append, List.count_eq_zero_of_not_mem absent]
    exact sound.once kind key
  proved := by
    intro kind key mined
    apply sound.proved kind key
    simpa [lookupEvents] using mined

/-- Mining the first proof of a key keeps the invariant. -/
theorem Sound.mined
    (sound : Sound world)
    {kind : ProofKind}
    {key : KeyId}
    (fresh : .proofResolved kind key ∉ world.log) :
    Sound (proofMined kind key world) where
  distinct := sound.distinct
  once := by
    intro otherKind otherKey
    simp only [proofMined, World.record_log, List.count_append]
    by_cases same : otherKind = kind ∧ otherKey = key
    · obtain ⟨rfl, rfl⟩ := same
      rw [List.count_eq_zero_of_not_mem fresh]
      simp
    · have different :
          (.proofResolved otherKind otherKey : Event) ∉
            [.proofResolved kind key] := by
        simpa using same
      rw [List.count_eq_zero_of_not_mem different]
      exact sound.once otherKind otherKey
  proved := by
    intro otherKind otherKey mined
    simp only [proofMined, World.record_log, List.mem_append, List.mem_singleton,
      Event.proofResolved.injEq] at mined
    simp only [proofMined, World.record_stakingModule, StakingModule.proved_prove,
      Bool.or_eq_true, decide_eq_true_eq]
    rcases mined with before | same
    · exact .inr (sound.proved otherKind otherKey before)
    · exact .inl same

/-- A mined proof is a sending step. -/
theorem mined_sending
    (kind : ProofKind)
    (key : KeyId)
    (world : World) :
    Sending world (proofMined kind key world) where
  log := ⟨[.proofResolved kind key], rfl, by simp [IsLookup]⟩
  proved := by
    intro otherKind otherKey flag
    simp [proofMined, StakingModule.proved_prove, flag]
  distinct := id

/-- A mined proof sets its flag. -/
theorem proofMined_proved
    (kind : ProofKind)
    (key : KeyId)
    (world : World) :
    (proofMined kind key world).stakingModule.proved kind key = true := by
  simp [proofMined, StakingModule.proved_prove]

end Relations

/-- The others move elsewhere; wherever a block waits or fails, its log is sound. -/
def protocol : Protocol World where
  rely := Elsewhere
  suspended := Sound
  aborted := fun _ => Sound

/-- So the protocol is stable. -/
theorem protocol_stable :
    protocol.Stable where
  refl := Adds.refl
  trans := Adds.trans
  suspended := fun sound elsewhere => sound.quiet elsewhere.quiet
  aborted := fun sound elsewhere => sound.quiet elsewhere.quiet

/-! ## Selecting -/

/--
What a duty takes into its sends: keys that occur once and have no mined proof,
and among them every required key that is not proved yet.
-/
structure Selected {ν : Type} (kind : ProofKind) (known : Nat → Option KeyInfo)
    (keyOf : ν → KeyInfo) (required : Nat → Prop) (entries : List (Nat × ν))
    (world : World) : Prop where
  nodup : (entries.map fun entry => (keyOf entry.2).id).Nodup
  fresh : ∀ entry ∈ entries, .proofResolved kind (keyOf entry.2).id ∉ world.log
  covered :
    ∀ valIndex keyInfo,
      required valIndex →
      known valIndex = some keyInfo →
      world.stakingModule.proved kind keyInfo.id = true ∨
        ∃ entry ∈ entries, entry.1 = valIndex ∧ keyOf entry.2 = keyInfo

section Specs

variable {world moved : World} {kind : ProofKind}

/-- A selection stays one through quiet steps. -/
theorem Selected.quiet
    {ν : Type}
    {known : Nat → Option KeyInfo}
    {keyOf : ν → KeyInfo}
    {required : Nat → Prop}
    {entries : List (Nat × ν)}
    (selected : Selected kind known keyOf required entries world)
    (quiet : Quiet world moved) :
    Selected kind known keyOf required entries moved where
  nodup := selected.nodup
  fresh := by
    intro entry member
    rw [quiet.mem_proof]
    exact selected.fresh entry member
  covered := by
    intro valIndex keyInfo isRequired isKnown
    rcases selected.covered valIndex keyInfo isRequired isKnown with flag | taken
    · exact .inl (quiet.proved kind keyInfo.id flag)
    · exact .inr taken

/-- Quiet steps keep the invariant at every suspension. -/
theorem quiet_spec
    {α : Type}
    {program : Async World α}
    (guarantees : program.Guarantees Quiet)
    (sound : Sound world) :
    wp protocol (fun _ final => Sound final ∧ Quiet world final) program world :=
  wp_mono
    (wp_of_guarantees Adds.refl Adds.trans Elsewhere.quiet
      (fun _ quiet => sound.quiet quiet) (fun _ _ quiet => sound.quiet quiet) guarantees)
    fun _ _ quiet => ⟨sound.quiet quiet, quiet⟩

/-- The contract is asked for each entry: what is left has no flag and no mined proof. -/
theorem filterUnproven_spec
    {ν : Type}
    (keyOf : ν → KeyInfo)
    (entries : List (Nat × ν))
    (sound : Sound world) :
    wp protocol
      (fun unproven final =>
        Sound final ∧ Elsewhere world final ∧ unproven.Sublist entries ∧
          (∀ entry ∈ unproven, .proofResolved kind (keyOf entry.2).id ∉ world.log) ∧
          ∀ entry ∈ entries,
            entry ∈ unproven ∨
              final.stakingModule.proved kind (keyOf entry.2).id = true)
      (filterUnproven kind keyOf entries) world := by
  induction entries generalizing world with
  | nil =>
      exact ⟨sound, Adds.refl world, List.Sublist.refl [], by simp, by simp⟩
  | cons entry rest inductionHypothesis =>
      simp only [filterUnproven, wp_bind, wp_settle, wp_read]
      refine ⟨sound, fun asked askedElsewhere => ?_⟩
      have askedSound := sound.quiet askedElsewhere.quiet
      refine ⟨wp_mono (inductionHypothesis askedSound) fun unproven final holds => ?_,
        askedSound⟩
      obtain ⟨finalSound, finalElsewhere, sublist, fresh, covered⟩ := holds
      have elsewhere := askedElsewhere.trans finalElsewhere
      rw [askedElsewhere.log_eq] at fresh
      by_cases flag : asked.stakingModule.proved kind (keyOf entry.2).id = true
      · simp only [flag, if_true]
        refine ⟨finalSound, elsewhere, sublist.cons _, fresh, fun other member => ?_⟩
        rcases List.mem_cons.mp member with rfl | inRest
        · exact .inr (finalElsewhere.proved _ _ flag)
        · exact covered other inRest
      · have unresolved : .proofResolved kind (keyOf entry.2).id ∉ world.log := by
          rw [← askedElsewhere.log_eq]
          exact fun mined => flag (askedSound.proved _ _ mined)
        simp only [flag]
        refine ⟨finalSound, elsewhere, sublist.cons_cons _, fun other member => ?_,
          fun other member => ?_⟩
        · rcases List.mem_cons.mp member with rfl | inRest
          · exact unresolved
          · exact fresh other inRest
        · rcases List.mem_cons.mp member with rfl | inRest
          · exact .inl (by simp)
          · exact (covered other inRest).imp_left (List.mem_cons_of_mem entry)

/-- The log grew by the lookups of one synchronous block only. -/
structure LookedUp (duty : ProofKind) (keyInfoFn : KeyInfoFn) (valIndices : List Nat)
    (world final : World) : Prop where
  log : final.log = world.log ++ lookupEvents duty keyInfoFn valIndices world
  proved :
    ∀ kind key,
      world.stakingModule.proved kind key = true →
      final.stakingModule.proved kind key = true

/-- What both `getUnproven` functions do after they have collected the involved keys. -/
theorem filterLookedUp_spec
    {ν : Type}
    {keyInfoFn : KeyInfoFn}
    {valIndices : List Nat}
    {keyOf : ν → KeyInfo}
    {required : Nat → Prop}
    {entries : List (Nat × ν)}
    (sound : Sound world)
    (nodup : (entries.map fun entry => (keyOf entry.2).id).Nodup)
    (selects :
      ∀ valIndex keyInfo,
        required valIndex →
        keyInfoFn world valIndex = some keyInfo →
        ∃ entry ∈ entries, entry.1 = valIndex ∧ keyOf entry.2 = keyInfo) :
    wp protocol
      (fun unproven final =>
        Sound final ∧ LookedUp kind keyInfoFn valIndices world final ∧
          Selected kind (keyInfoFn world) keyOf required unproven final)
      (do
        noteLookups kind keyInfoFn valIndices
        if entries = [] then
          return []
        filterUnproven kind keyOf entries) world := by
  have lookedUp := sound.lookups kind keyInfoFn valIndices
  simp only [noteLookups, wp_bind, wp_modify]
  by_cases empty : entries = []
  · subst empty
    refine ⟨lookedUp, ⟨rfl, fun _ _ => id⟩, by simp, by simp, ?_⟩
    intro valIndex keyInfo isRequired isKnown
    obtain ⟨entry, member, _⟩ := selects valIndex keyInfo isRequired isKnown
    cases member
  · simp only [empty, if_false]
    refine wp_mono (filterUnproven_spec keyOf entries lookedUp) fun unproven final holds => ?_
    obtain ⟨finalSound, elsewhere, sublist, fresh, covered⟩ := holds
    refine ⟨finalSound, ⟨elsewhere.log_eq, elsewhere.proved⟩, ?_, ?_, ?_⟩
    · exact nodup.sublist (sublist.map _)
    · intro entry member
      rw [elsewhere.log_eq]
      exact fresh entry member
    · intro valIndex keyInfo isRequired isKnown
      obtain ⟨entry, member, sameIndex, sameKey⟩ :=
        selects valIndex keyInfo isRequired isKnown
      rcases covered entry member with unproven | flag
      · exact .inr ⟨entry, unproven, sameIndex, sameKey⟩
      · exact .inl (sameKey ▸ flag)

/-- Validators that a block accuses. -/
def accused (blockInfo : SupportedBlock) : List Nat :=
  Slashings.accusedProposers blockInfo ++ Slashings.accusedAttesters blockInfo

/-- The accused are looked up, and those without a flag are selected. -/
theorem getUnprovenSlashings_spec
    {keyInfoFn : KeyInfoFn}
    (sound : Sound world)
    (distinct : DistinctKeys (keyInfoFn world))
    (blockInfo : SupportedBlock) :
    wp protocol
      (fun slashings final =>
        Sound final ∧ LookedUp .slashing keyInfoFn (accused blockInfo) world final ∧
          Selected .slashing (keyInfoFn world) id (· ∈ accused blockInfo) slashings final)
      (Slashings.getUnprovenSlashings blockInfo keyInfoFn) world := by
  rw [Slashings.getUnprovenSlashings, wp_bind, wp_read]
  apply filterLookedUp_spec sound
  · exact involved_nodup distinct Slashings.getSlashed_carries
  · intro valIndex keyInfo isAccused isKnown
    exact ⟨_, Slashings.mem_getSlashed isAccused isKnown, rfl, rfl⟩

/-- The validator has a full withdrawal in the block. -/
def WithdrawsFully (blockInfo : SupportedBlock) (valIndex : Nat) : Prop :=
  ∃ withdrawal ∈ blockInfo.withdrawals,
    withdrawal.validatorIndex = valIndex ∧
      Withdrawals.FULL_WITHDRAWAL_MIN_AMOUNT ≤ withdrawal.amount

/-- The withdrawn are looked up, and the full withdrawals without a flag are selected. -/
theorem getUnprovenWithdrawals_spec
    {keyInfoFn : KeyInfoFn}
    (sound : Sound world)
    (distinct : DistinctKeys (keyInfoFn world))
    (blockInfo : SupportedBlock) :
    wp protocol
      (fun withdrawals final =>
        Sound final ∧
          LookedUp .withdrawal keyInfoFn (blockInfo.withdrawals.map (·.validatorIndex))
            world final ∧
          Selected .withdrawal (keyInfoFn world) (·.keyInfo) (WithdrawsFully blockInfo)
            withdrawals final)
      (Withdrawals.getUnprovenWithdrawals blockInfo keyInfoFn) world := by
  rw [Withdrawals.getUnprovenWithdrawals, wp_bind, wp_read]
  apply filterLookedUp_spec sound
  · exact involved_nodup distinct (Withdrawals.collectFullWithdrawals_carries (by simp))
  · rintro valIndex keyInfo ⟨withdrawal, member, rfl, isFull⟩ isKnown
    exact Withdrawals.mem_getFullWithdrawals member isKnown isFull

/-! ## Sending -/

section Send

variable {π : Type} {key : π → KeyId} {payloads rest : List π} {payload : π}
variable {state sent returned : World}

/-- The payloads still to be sent are fresh, the others are proved. -/
structure StillToSend (kind : ProofKind) (key : π → KeyId) (payloads : List π)
    (world : World) (rest : List π) (state : World) : Prop where
  sound : Sound state
  sending : Sending world state
  nodup : (rest.map key).Nodup
  fresh : ∀ payload ∈ rest, .proofResolved kind (key payload) ∉ state.log
  covered :
    ∀ payload ∈ payloads,
      payload ∈ rest ∨ state.stakingModule.proved kind (key payload) = true

/-- Step lemma: one mined transaction moves its payload to the proved ones. -/
theorem StillToSend.mined
    (still : StillToSend kind key payloads world (payload :: rest) state)
    (before : Elsewhere state sent)
    (minedSound : Sound (proofMined kind (key payload) sent))
    (after : Elsewhere (proofMined kind (key payload) sent) returned) :
    StillToSend kind key payloads world rest returned := by
  have nodup := still.nodup
  rw [List.map_cons, List.nodup_cons] at nodup
  have mined := mined_sending kind (key payload) sent
  constructor
  case sound =>
    exact minedSound.quiet after.quiet
  case sending =>
    exact
      ((still.sending.trans before.quiet.sending).trans mined).trans after.quiet.sending
  case nodup =>
    exact nodup.2
  case fresh =>
    intro other member
    rw [after.log_eq]
    simp only [proofMined, World.record_log, List.mem_append, List.mem_singleton,
      Event.proofResolved.injEq, true_and, not_or]
    constructor
    · rw [before.log_eq]
      exact still.fresh other (by simp [member])
    · intro sameKey
      exact nodup.1 (List.mem_map.mpr ⟨other, member, sameKey⟩)
  case covered =>
    intro other member
    rcases still.covered other member with waiting | flag
    · rcases List.mem_cons.mp waiting with rfl | inRest
      · exact .inr (after.proved kind _ (proofMined_proved kind _ sent))
      · exact .inl inRest
    · exact .inr (after.proved kind _ (mined.proved kind _ (before.proved kind _ flag)))

/-- Each send proves one key that has no mined proof yet. -/
theorem sendPayloads_spec
    {config : Config}
    (live : Live config)
    (sound : Sound world)
    (nodup : (payloads.map key).Nodup)
    (fresh : ∀ payload ∈ payloads, .proofResolved kind (key payload) ∉ world.log) :
    wp protocol
      (fun _ final =>
        Sound final ∧ Sending world final ∧
          ∀ payload ∈ payloads, final.stakingModule.proved kind (key payload) = true)
      (sendPayloads config (fun payload => proofMined kind (key payload)) payloads)
      world := by
  apply wp_forEach (StillToSend kind key payloads world)
  · intro state still
    exact ⟨still.sound, still.sending, fun payload member =>
      (still.covered payload member).resolve_left (by simp)⟩
  · intro payload rest state still
    simp only [wp_call, execute, wp_bind, wp_settle]
    refine ⟨still.sound, fun emulated emulatedElsewhere => ?_⟩
    have emulatedSound := still.sound.quiet emulatedElsewhere.quiet
    refine ⟨?_, emulatedSound⟩
    rw [if_pos live]
    simp only [wp_bind, wp_settle, wp_modify, wp_tick]
    refine ⟨emulatedSound, fun sent sentElsewhere => ?_⟩
    have sentSound := emulatedSound.quiet sentElsewhere.quiet
    have before : Elsewhere state sent := emulatedElsewhere.trans sentElsewhere
    have sentFresh : .proofResolved kind (key payload) ∉ sent.log := by
      rw [before.log_eq]
      exact still.fresh payload (by simp)
    have minedSound := sentSound.mined sentFresh
    refine ⟨⟨minedSound, fun waited waitedElsewhere => ?_⟩, sentSound⟩
    have waitedSound := minedSound.quiet waitedElsewhere.quiet
    refine ⟨waitedSound, fun returned returnedElsewhere => ?_⟩
    exact still.mined before minedSound (waitedElsewhere.trans returnedElsewhere)
  · exact
      { sound := sound
        sending := Adds.refl world
        nodup := nodup
        fresh := fresh
        covered := fun _ member => .inl member }

end Send

/-- After its sends a duty has proved every required key that is due. -/
theorem buildAndSend_spec
    {ν π : Type}
    {config : Config}
    (live : Live config)
    {known : Nat → Option KeyInfo}
    {keyOf : ν → KeyInfo}
    {required due : Nat → Prop}
    {entries : List (Nat × ν)}
    {build : Nat → ν → Except Abort (Option π)}
    {key : π → KeyId}
    (keyed :
      ∀ valIndex involved payload,
        build valIndex involved = .ok (some payload) →
        key payload = (keyOf involved).id)
    (builds :
      ∀ valIndex involved,
        due valIndex → build valIndex involved ≠ .ok none)
    (sound : Sound world)
    (selected : Selected kind known keyOf required entries world) :
    wp protocol
      (fun _ final =>
        Sound final ∧ Sending world final ∧
          ∀ valIndex keyInfo,
            required valIndex →
            due valIndex →
            known valIndex = some keyInfo →
            final.stakingModule.proved kind keyInfo.id = true)
      (do
        let payloads ← work (buildPayloads build entries)
        sendPayloads config (fun payload => proofMined kind (key payload)) payloads
        return payloads.length) world := by
  simp only [work, wp_bind, wp_settle]
  refine ⟨sound, fun worked elsewhere => ?_⟩
  have workedSound := sound.quiet elsewhere.quiet
  refine ⟨?_, workedSound⟩
  have workedSelected := selected.quiet elsewhere.quiet
  cases built : buildPayloads build entries with
  | error reason =>
      exact workedSound
  | ok payloads =>
      have sublist :
          (payloads.map key).Sublist (entries.map fun entry => (keyOf entry.2).id) :=
        buildPayloads_sublist (fun entry payload => keyed entry.1 entry.2 payload) built
      have fresh :
          ∀ payload ∈ payloads, .proofResolved kind (key payload) ∉ worked.log := by
        intro payload member
        have inEntries := sublist.subset (List.mem_map_of_mem member)
        obtain ⟨entry, entryMember, sameKey⟩ := List.mem_map.mp inEntries
        rw [← sameKey]
        exact workedSelected.fresh entry entryMember
      simp only [pure_eq_done, wp_done]
      refine wp_mono
        (sendPayloads_spec live workedSound (workedSelected.nodup.sublist sublist) fresh)
        fun _ final holds => ?_
      obtain ⟨finalSound, sending, sent⟩ := holds
      have all := elsewhere.quiet.sending.trans sending
      refine ⟨finalSound, all, fun valIndex keyInfo isRequired isDue isKnown => ?_⟩
      rcases selected.covered valIndex keyInfo isRequired isKnown with
        flag | ⟨entry, member, rfl, rfl⟩
      · exact all.proved kind keyInfo.id flag
      · obtain ⟨result, entryBuilt⟩ := (buildPayloads_eq_ok_iff.mp built).1 entry member
        cases result with
        | none => exact (builds entry.1 entry.2 isDue entryBuilt).elim
        | some payload =>
            rw [← keyed entry.1 entry.2 payload entryBuilt]
            exact sent payload ((mem_buildPayloads_iff built).mpr ⟨entry, member, entryBuilt⟩)

/-- The selected slashings are sent, and each then has its flag. -/
theorem sendSlashingProofs_spec
    {config : Config}
    (live : Live config)
    (consensus : Consensus)
    (finalizedHeader : BlockHeaderResponse)
    {known : Nat → Option KeyInfo}
    {required : Nat → Prop}
    {slashings : InvolvedKeys}
    (sound : Sound world)
    (selected : Selected .slashing known id required slashings world) :
    wp protocol
      (fun _ final =>
        Sound final ∧ Sending world final ∧
          ∀ valIndex keyInfo,
            required valIndex →
            known valIndex = some keyInfo →
            final.stakingModule.proved .slashing keyInfo.id = true)
      (Slashings.sendSlashingProofs config consensus finalizedHeader slashings) world := by
  unfold Slashings.sendSlashingProofs
  by_cases empty : slashings = []
  · subst empty
    refine ⟨sound, Adds.refl world, fun valIndex keyInfo isRequired isKnown => ?_⟩
    rcases selected.covered valIndex keyInfo isRequired isKnown with flag | ⟨_, member, _⟩
    · exact flag
    · cases member
  · rw [if_neg empty, wp_bind, wp_request]
    refine ⟨sound, fun fetched elsewhere => ⟨?_, sound.quiet elsewhere.quiet⟩⟩
    have fetchedSound := sound.quiet elsewhere.quiet
    rw [wp_bind]
    refine wp_mono
      (quiet_spec (nextHeaderTimestamp_guarantees consensus _) fetchedSound)
      fun rootsTimestamp found holds => ?_
    obtain ⟨foundSound, foundQuiet⟩ := holds
    have quiet : Quiet world found := elsewhere.quiet.trans foundQuiet
    refine wp_mono
      (buildAndSend_spec live
        (fun _ _ _ built => Slashings.buildSlashingProofPayload_key built)
        (fun _ _ (_ : True) => Slashings.buildSlashingProofPayload_ne_none)
        foundSound (selected.quiet quiet))
      fun _ final holds => ?_
    obtain ⟨finalSound, sending, proved⟩ := holds
    exact ⟨finalSound, quiet.sending.trans sending, fun valIndex keyInfo isRequired =>
      proved valIndex keyInfo isRequired trivial⟩

/-- The balance duty is quiet. -/
theorem quiet_frame :
    BalanceFrame Quiet where
  refl := Adds.refl
  trans := Adds.trans
  allKeysLookup := by
    intro world
    exact quiet_of_events _ (by simp [IsLookup, IsProof]) rfl rfl rfl
  balanceMined := by
    intro key balanceGwei world
    exact quiet_of_events _ (by simp [IsLookup, IsProof]) rfl rfl rfl

/-- The required keys whose validators are due in a state carry the withdrawal flag. -/
def WithdrawalsProved (state : State) (epoch : Nat) (known : Nat → Option KeyInfo)
    (required : Nat → Prop) (world : World) : Prop :=
  ∀ valIndex keyInfo,
    required valIndex →
    Withdrawals.IsDue state epoch valIndex →
    known valIndex = some keyInfo →
    world.stakingModule.proved .withdrawal keyInfo.id = true

/-- Both ways of sending withdrawals end in this; more may be mined before the return. -/
theorem buildAndSend_withdrawals_spec
    {config : Config}
    (live : Live config)
    (consensus : Consensus)
    (withdrawalBlockHeader : BlockHeaderResponse)
    (state : State)
    (recentBlock : RecentBlock)
    {known : Nat → Option KeyInfo}
    {required : Nat → Prop}
    {withdrawals : List (Nat × Withdrawals.KeyWithWithdrawal)}
    {anchored : World}
    (quiet : Quiet world anchored)
    (anchoredSound : Sound anchored)
    (selected : Selected .withdrawal known (·.keyInfo) required withdrawals world) :
    wp protocol
      (fun _ middle =>
        protocol.suspended middle ∧
          ∀ final, protocol.rely middle final →
            Sound final ∧ Sending world final ∧
              WithdrawalsProved state
                (consensus.slotToEpoch withdrawalBlockHeader.message.slot) known required
                final)
      (Withdrawals.buildAndSend config consensus withdrawalBlockHeader state withdrawals
        recentBlock) anchored := by
  refine wp_mono
    (buildAndSend_spec live
      (fun _ _ _ built => Withdrawals.buildWithdrawalProofPayload_key built)
      (fun _ _ due => Withdrawals.buildWithdrawalProofPayload_ne_none due)
      anchoredSound (selected.quiet quiet))
    fun _ middle holds => ?_
  obtain ⟨middleSound, sending, proved⟩ := holds
  refine ⟨middleSound, fun final elsewhere => ?_⟩
  refine ⟨middleSound.quiet elsewhere.quiet,
    (quiet.sending.trans sending).trans elsewhere.quiet.sending, ?_⟩
  intro valIndex keyInfo isRequired due isKnown
  exact elsewhere.proved _ _ (proved valIndex keyInfo isRequired due isKnown)

/-- The selected withdrawals are sent, and each then has its flag. -/
theorem sendWithdrawalProofs_spec
    {config : Config}
    (live : Live config)
    (consensus : Consensus)
    (blockRoot : RootHex)
    (blockInfo : SupportedBlock)
    (finalizedHeader : BlockHeaderResponse)
    {known : Nat → Option KeyInfo}
    {required : Nat → Prop}
    {withdrawals : List (Nat × Withdrawals.KeyWithWithdrawal)}
    (sound : Sound world)
    (selected : Selected .withdrawal known (·.keyInfo) required withdrawals world) :
    wp protocol
      (fun _ final =>
        Sound final ∧ Sending world final ∧
          WithdrawalsProved
            (consensus.state (consensus.beaconHeader blockRoot).message.stateRoot)
            (consensus.slotToEpoch (consensus.beaconHeader blockRoot).message.slot)
            known required final)
      (Withdrawals.sendWithdrawalProofs config consensus blockRoot blockInfo
        finalizedHeader withdrawals) world := by
  unfold Withdrawals.sendWithdrawalProofs
  by_cases empty : withdrawals = []
  · subst empty
    refine ⟨sound, Adds.refl world, fun valIndex keyInfo isRequired _ isKnown => ?_⟩
    rcases selected.covered valIndex keyInfo isRequired isKnown with flag | ⟨_, member, _⟩
    · exact flag
    · cases member
  · rw [if_neg empty, wp_bind, wp_request]
    refine ⟨sound, fun headed headedElsewhere => ⟨?_, sound.quiet headedElsewhere.quiet⟩⟩
    have headedSound := sound.quiet headedElsewhere.quiet
    rw [wp_bind, wp_request]
    refine ⟨headedSound, fun fetched fetchedElsewhere =>
      ⟨?_, headedSound.quiet fetchedElsewhere.quiet⟩⟩
    have fetchedSound := headedSound.quiet fetchedElsewhere.quiet
    have fetchedQuiet : Quiet world fetched :=
      headedElsewhere.quiet.trans fetchedElsewhere.quiet
    split
    · rw [wp_call, Withdrawals.sendHistoricalWithdrawalProofs, wp_bind]
      refine wp_mono
        (quiet_spec (resolveRecentBlock_reads quiet_frame.refl consensus _) fetchedSound)
        fun anchor anchored holds => ?_
      exact
        buildAndSend_withdrawals_spec live consensus _ _ anchor.1
          (fetchedQuiet.trans holds.2) holds.1 selected
    · rw [wp_call, Withdrawals.sendGeneralWithdrawalProofs, wp_bind]
      refine wp_mono
        (quiet_spec (nextHeaderTimestamp_guarantees consensus _) fetchedSound)
        fun rootsTimestamp anchored holds => ?_
      exact
        buildAndSend_withdrawals_spec live consensus _ _ _
          (fetchedQuiet.trans holds.2) holds.1 selected

/-! ## Reporting -/

/-- What a call added to the log, and that what it found and was due is proved. -/
structure Reports (due : ProofKind → Nat → Prop) (world : World) (events : List Event)
    (final : World) : Prop where
  log : final.log = world.log ++ events
  proved :
    ∀ kind key,
      world.stakingModule.proved kind key = true →
      final.stakingModule.proved kind key = true
  reported :
    ∀ duty storageStateSlot valIndex keyInfo,
      .keyLookup duty storageStateSlot valIndex (some keyInfo) ∈ events →
      due duty valIndex →
      final.stakingModule.proved duty keyInfo.id = true

/-- The duty looked the validator up. -/
def Asked (events : List Event) (duty : ProofKind) (valIndex : Nat) : Prop :=
  ∃ storageStateSlot found, .keyLookup duty storageStateSlot valIndex found ∈ events

section Reporting

variable {due : ProofKind → Nat → Prop} {final : World} {first second : List Event}

/-- Reports of two parts are a report of both. -/
theorem Reports.trans
    (earlier : Reports due world first moved)
    (later : Reports due moved second final) :
    Reports due world (first ++ second) final where
  log := by rw [later.log, earlier.log, List.append_assoc]
  proved := fun kind key flag => later.proved kind key (earlier.proved kind key flag)
  reported := by
    intro duty storageStateSlot valIndex keyInfo member isDue
    rcases List.mem_append.mp member with inFirst | inSecond
    · exact later.proved duty _
        (earlier.reported duty storageStateSlot valIndex keyInfo inFirst isDue)
    · exact later.reported duty storageStateSlot valIndex keyInfo inSecond isDue

/-- Where nothing is looked up nothing has to be reported. -/
theorem Sending.reports
    (due : ProofKind → Nat → Prop)
    (sending : Sending world final) :
    ∃ events, Reports due world events final := by
  obtain ⟨events, log, unasked⟩ := sending.log
  refine ⟨events, log, sending.proved, ?_⟩
  intro duty storageStateSlot valIndex keyInfo member
  exact (unasked _ member trivial).elim

/-- A duty that proves what it looked up reports it. -/
theorem LookedUp.reports
    {keyInfoFn : KeyInfoFn}
    {valIndices : List Nat}
    (lookedUp : LookedUp kind keyInfoFn valIndices world moved)
    (sending : Sending moved final)
    (proved :
      ∀ valIndex keyInfo,
        valIndex ∈ valIndices →
        due kind valIndex →
        keyInfoFn world valIndex = some keyInfo →
        final.stakingModule.proved kind keyInfo.id = true) :
    ∃ events,
      Reports due world events final ∧
        ∀ valIndex ∈ valIndices, Asked events kind valIndex := by
  obtain ⟨sent, sentLog, unasked⟩ := sending.log
  refine ⟨lookupEvents kind keyInfoFn valIndices world ++ sent, ⟨?_, ?_, ?_⟩, ?_⟩
  · rw [sentLog, lookedUp.log, List.append_assoc]
  · exact fun otherKind key flag =>
      sending.proved otherKind key (lookedUp.proved otherKind key flag)
  · intro duty storageStateSlot valIndex keyInfo member isDue
    rcases List.mem_append.mp member with inLookups | inSent
    · simp only [lookupEvents, List.mem_map, Event.keyLookup.injEq] at inLookups
      obtain ⟨_, asked, rfl, _, rfl, isKnown⟩ := inLookups
      exact proved _ keyInfo asked isDue isKnown
    · exact (unasked _ inSent trivial).elim
  · intro valIndex asked
    refine ⟨world.keysIndexer.info.storageStateSlot, keyInfoFn world valIndex, ?_⟩
    exact List.mem_append_left _ (List.mem_map.mpr ⟨valIndex, asked, rfl⟩)

/-- Quiet steps report nothing that is due. -/
theorem Quiet.reports
    (due : ProofKind → Nat → Prop)
    (quiet : Quiet world final) :
    ∃ events, Reports due world events final :=
  quiet.sending.reports due

end Reporting

end Specs

/-! ## One call -/

/-- A validator whose proof a call for the block of a slot has to see proved. -/
def Due (consensus : Consensus) (blockRoot : RootHex) (slot : Nat) :
    ProofKind → Nat → Prop
  | .slashing, _ => True
  | .withdrawal, valIndex =>
      WithdrawsFully (consensus.blockInfo blockRoot) valIndex ∧
        Withdrawals.IsDue
          (consensus.state (consensus.beaconHeader blockRoot).message.stateRoot)
          (consensus.slotToEpoch slot)
          valIndex

/--
The call looked up every accused validator and every withdrawal of the block,
and every key it found that was due is proved.
-/
structure Reported (consensus : Consensus) (blockRoot : RootHex) (slot : Nat)
    (world final : World) : Prop where
  reports :
    ∃ events,
      Reports (Due consensus blockRoot slot) world events final ∧
        (∀ valIndex ∈ accused (consensus.blockInfo blockRoot),
          Asked events .slashing valIndex) ∧
        ∀ withdrawal ∈ (consensus.blockInfo blockRoot).withdrawals,
          Asked events .withdrawal withdrawal.validatorIndex

section Call

variable {config : Config} {consensus : Consensus} {balances : Bool} {world : World}
variable {blockRoot : RootHex} {slot : Nat} {finalizedHeader : BlockHeaderResponse}

/-- In a sound state no key has two validators. -/
theorem getKey_known_distinct
    (sound : Sound world) :
    DistinctKeys (RootsProcessor.getKey config world) :=
  getKey_distinct config sound.distinct

/-- Both handlers: select the unproven keys, report balances, send the proofs. -/
theorem handler_spec
    {ν : Type}
    {kind : ProofKind}
    {due : ProofKind → Nat → Prop}
    {keyInfoFn : KeyInfoFn}
    {valIndices : List Nat}
    {keyOf : ν → KeyInfo}
    {required : Nat → Prop}
    {getUnproven : Async World (List (Nat × ν))}
    {handleParent send : List (Nat × ν) → Async World Nat}
    (selects :
      wp protocol
        (fun entries final =>
          Sound final ∧ LookedUp kind keyInfoFn valIndices world final ∧
            Selected kind (keyInfoFn world) keyOf required entries final)
        getUnproven world)
    (handles : ∀ entries, (handleParent entries).Guarantees Quiet)
    (sends :
      ∀ entries state,
        Sound state →
        Selected kind (keyInfoFn world) keyOf required entries state →
        wp protocol
          (fun _ final =>
            Sound final ∧ Sending state final ∧
              ∀ valIndex keyInfo,
                valIndex ∈ valIndices →
                due kind valIndex →
                keyInfoFn world valIndex = some keyInfo →
                final.stakingModule.proved kind keyInfo.id = true)
          (send entries) state) :
    wp protocol
      (fun _ final =>
        Sound final ∧ ∃ events,
          Reports due world events final ∧
            ∀ valIndex ∈ valIndices, Asked events kind valIndex)
      (call (do
        let entries ← call getUnproven
        let balanceSentCount ← handleParent entries
        let sentCount ← call (send entries)
        return sentCount + balanceSentCount)) world := by
  rw [wp_call, wp_bind, wp_call]
  refine wp_mono selects fun entries asked holds => ?_
  obtain ⟨askedSound, lookedUp, selected⟩ := holds
  refine ⟨askedSound, fun moved movedElsewhere => ?_⟩
  rw [wp_bind]
  refine wp_mono (quiet_spec (handles entries) (askedSound.quiet movedElsewhere.quiet))
    fun _ balanced holds => ?_
  obtain ⟨balancedSound, balancedQuiet⟩ := holds
  have quiet : Quiet asked balanced := movedElsewhere.quiet.trans balancedQuiet
  rw [wp_bind, wp_call]
  refine wp_mono (sends entries balanced balancedSound (selected.quiet quiet))
    fun _ sent holds => ?_
  obtain ⟨sentSound, sending, proved⟩ := holds
  refine ⟨sentSound, fun returned returnedElsewhere => ?_⟩
  have returnedSound := sentSound.quiet returnedElsewhere.quiet
  refine ⟨returnedSound, fun final finalElsewhere => ?_⟩
  have after : Elsewhere sent final := returnedElsewhere.trans finalElsewhere
  have all : Sending asked final :=
    (quiet.sending.trans sending).trans after.quiet.sending
  refine ⟨returnedSound.quiet finalElsewhere.quiet, lookedUp.reports all ?_⟩
  intro valIndex keyInfo member isDue isKnown
  exact after.proved _ _ (proved valIndex keyInfo member isDue isKnown)

/-- The slashing duty asks about every accused and reports what is due. -/
theorem handleSlashingsInBlock_spec
    (live : Live config)
    (slot : Nat)
    (sound : Sound world) :
    wp protocol
      (fun _ final =>
        Sound final ∧ ∃ events,
          Reports (Due consensus blockRoot slot) world events final ∧
            ∀ valIndex ∈ accused (consensus.blockInfo blockRoot),
              Asked events .slashing valIndex)
      (call (Prover.handleSlashingsInBlock config consensus balances
        (consensus.blockInfo blockRoot) finalizedHeader (RootsProcessor.getKey config)))
      world := by
  apply handler_spec
    (getUnprovenSlashings_spec sound (getKey_known_distinct sound) _)
  · intro slashings
    exact quiet_frame.handleParentBalances_guarantees config consensus balances _ _ _
  · intro slashings state stateSound selected
    refine wp_mono
      (sendSlashingProofs_spec live consensus finalizedHeader stateSound selected)
      fun _ final holds => ⟨holds.1, holds.2.1, ?_⟩
    intro valIndex keyInfo isAccused _ isKnown
    exact holds.2.2 valIndex keyInfo isAccused isKnown

/-- The withdrawal duty asks about every withdrawal and reports what is due. -/
theorem handleWithdrawalsInBlock_spec
    (live : Live config)
    (sameSlot : (consensus.beaconHeader blockRoot).message.slot = slot)
    (sound : Sound world) :
    wp protocol
      (fun _ final =>
        Sound final ∧ ∃ events,
          Reports (Due consensus blockRoot slot) world events final ∧
            ∀ valIndex ∈
                (consensus.blockInfo blockRoot).withdrawals.map (·.validatorIndex),
              Asked events .withdrawal valIndex)
      (call (Prover.handleWithdrawalsInBlock config consensus balances blockRoot
        (consensus.blockInfo blockRoot) finalizedHeader (RootsProcessor.getKey config)))
      world := by
  apply handler_spec
    (getUnprovenWithdrawals_spec sound (getKey_known_distinct sound) _)
  · intro withdrawals
    exact quiet_frame.handleParentBalances_guarantees config consensus balances _ _ _
  · intro withdrawals state stateSound selected
    refine wp_mono
      (sendWithdrawalProofs_spec live consensus blockRoot _ finalizedHeader stateSound
        selected)
      fun _ final holds => ⟨holds.1, holds.2.1, ?_⟩
    intro valIndex keyInfo _ isDue isKnown
    refine holds.2.2 valIndex keyInfo isDue.1 ?_ isKnown
    rw [sameSlot]
    exact isDue.2

/-- The parts of `processNext` around the duties are quiet. -/
theorem writeFile_quiet
    (save : World → Disk → Disk) :
    (writeFile save).Guarantees Quiet := by
  apply guarantees_bind (guarantees_read Adds.refl)
  intro world
  apply guarantees_bind guarantees_settle
  intro _
  apply guarantees_bind
  · rw [guarantees_modify]
    exact fun _ => quiet_of_events [] (by simp) (by simp) rfl rfl
  · exact fun _ => guarantees_tick

/-- Logging is quiet unless it tells of a lookup or a proof. -/
theorem note_quiet
    {event : Event}
    (silent : ¬ IsLookup event ∧ ¬ IsProof event) :
    (note event).Guarantees Quiet := by
  rw [note, guarantees_modify]
  exact fun _ => quiet_of_events [event] (by simpa using silent) rfl rfl rfl

/-- Changing the stack is quiet. -/
theorem modifyStorage_quiet
    (update : RootsStackServiceStorage → RootsStackServiceStorage) :
    (RootsStack.modifyStorage update).Guarantees Quiet := by
  rw [RootsStack.modifyStorage, guarantees_modify]
  exact fun _ => quiet_of_events [] (by simp) (by simp) rfl rfl

/-- Stacking a root is quiet. -/
theorem push_quiet
    (rs : RootSlot) :
    (RootsStack.push rs).Guarantees Quiet := by
  apply guarantees_bind (guarantees_read Adds.refl)
  intro world
  cases world.rootsStack.storage[rs.slotNumber]? with
  | some stacked => trivial
  | none => exact guarantees_bind (modifyStorage_quiet _) fun _ => writeFile_quiet _

/-- Taking a root off the stack is quiet. -/
theorem purge_quiet
    (rs : RootSlot) :
    (RootsStack.purge rs).Guarantees Quiet := by
  apply guarantees_bind (guarantees_read Adds.refl)
  intro world
  cases world.rootsStack.storage[rs.slotNumber]? with
  | none => trivial
  | some stacked =>
      apply guarantees_bind (modifyStorage_quiet _)
      intro _
      apply guarantees_bind (note_quiet (by simp [IsLookup, IsProof]))
      exact fun _ => writeFile_quiet _

/-- Setting the last processed root is quiet. -/
theorem setLastProcessed_quiet
    (rs : RootSlot) :
    (RootsStack.setLastProcessed rs).Guarantees Quiet := by
  apply guarantees_bind
  · rw [guarantees_modify]
    exact fun _ => quiet_of_events [] (by simp) (by simp) rfl rfl
  · intro _
    apply guarantees_bind (note_quiet (by simp [IsLookup, IsProof]))
    exact fun _ => writeFile_quiet _

/-- What is done with a root after its duties is quiet. -/
theorem settleRoot_quiet
    (rs : RootSlot) :
    (RootsProcessor.settleRoot consensus rs).Guarantees Quiet := by
  apply guarantees_bind (guarantees_read Adds.refl)
  intro world
  apply guarantees_bind (note_quiet (by simp [IsLookup, IsProof]))
  intro _
  apply guarantees_bind (note_quiet (by simp [IsLookup, IsProof]))
  intro _
  split
  · apply guarantees_bind (guarantees_call (purge_quiet rs))
    exact fun _ => guarantees_call (setLastProcessed_quiet rs)
  · exact guarantees_call (setLastProcessed_quiet rs)

/-- The duties of a block report what is due in it. -/
theorem runDuties_spec
    (live : Live config)
    (sameSlot : (consensus.beaconHeader blockRoot).message.slot = slot)
    (sound : Sound world) :
    wp protocol
      (fun _ final => Sound final ∧ Reported consensus blockRoot slot world final)
      (RootsProcessor.runDuties config consensus balances blockRoot
        (consensus.blockInfo blockRoot) finalizedHeader) world := by
  rw [RootsProcessor.runDuties, wp_bind]
  refine wp_mono (handleSlashingsInBlock_spec live slot sound) fun _ slashed holds => ?_
  obtain ⟨slashedSound, slashings, slashingsReport, slashingsAsked⟩ := holds
  rw [wp_bind]
  refine wp_mono (handleWithdrawalsInBlock_spec live sameSlot slashedSound)
    fun _ withdrawn holds => ?_
  obtain ⟨withdrawnSound, withdrawals, withdrawalsReport, withdrawalsAsked⟩ := holds
  refine wp_mono (quiet_spec ?_ withdrawnSound) fun _ final holds => ?_
  · apply guarantees_bind
      (guarantees_call (isFirstBlockInEpoch_reads quiet_frame.refl consensus _))
    intro isFirst
    split
    · apply guarantees_bind
        (guarantees_call
          (quiet_frame.handleBalanceChangesInBlock_guarantees config consensus balances _ _))
      exact fun _ => trivial
    · trivial
  · obtain ⟨rest, restReport⟩ := holds.2.reports (Due consensus blockRoot slot)
    refine ⟨holds.1, _, (slashingsReport.trans withdrawalsReport).trans restReport, ?_, ?_⟩
    · intro valIndex isAccused
      obtain ⟨storageStateSlot, found, member⟩ := slashingsAsked valIndex isAccused
      exact ⟨storageStateSlot, found, by simp [member]⟩
    · intro withdrawal isListed
      obtain ⟨storageStateSlot, found, member⟩ :=
        withdrawalsAsked _ (List.mem_map_of_mem isListed)
      exact ⟨storageStateSlot, found, by simp [member]⟩

/-- Quiet steps before and after a report leave it one. -/
theorem Reported.around
    {started final after : World}
    (before : Quiet world started)
    (reported : Reported consensus blockRoot slot started final)
    (later : Quiet final after) :
    Reported consensus blockRoot slot world after := by
  obtain ⟨events, reports, slashings, withdrawals⟩ := reported.reports
  obtain ⟨first, firstReports⟩ := before.reports (Due consensus blockRoot slot)
  obtain ⟨last, lastReports⟩ := later.reports (Due consensus blockRoot slot)
  refine ⟨_, (firstReports.trans reports).trans lastReports, ?_, ?_⟩
  · intro valIndex isAccused
    obtain ⟨storageStateSlot, found, member⟩ := slashings valIndex isAccused
    exact ⟨storageStateSlot, found, by simp [member]⟩
  · intro withdrawal isListed
    obtain ⟨storageStateSlot, found, member⟩ := withdrawals withdrawal isListed
    exact ⟨storageStateSlot, found, by simp [member]⟩

/-- Step lemma: a call keeps the invariant wherever it stops, and reports when it returns. -/
theorem processNext_spec
    (live : Live config)
    (sameSlot : (consensus.beaconHeader blockRoot).message.slot = slot)
    (sound : Sound world) :
    wp protocol
      (fun _ final => Sound final ∧ Reported consensus blockRoot slot world final)
      (RootsProcessor.processNext config consensus balances blockRoot finalizedHeader)
      world := by
  rw [RootsProcessor.processNext, wp_bind, wp_request]
  refine ⟨sound, fun fetched fetchedElsewhere => ⟨?_, sound.quiet fetchedElsewhere.quiet⟩⟩
  rw [wp_bind]
  refine wp_mono
    (quiet_spec (guarantees_call (push_quiet _)) (sound.quiet fetchedElsewhere.quiet))
    fun _ pushed holds => ?_
  obtain ⟨pushedSound, pushedQuiet⟩ := holds
  have before : Quiet world pushed := fetchedElsewhere.quiet.trans pushedQuiet
  rw [wp_bind]
  refine wp_mono (runDuties_spec live sameSlot pushedSound) fun _ done holds => ?_
  obtain ⟨doneSound, doneReported⟩ := holds
  refine wp_mono (quiet_spec (settleRoot_quiet _) doneSound) fun _ final holds => ?_
  exact ⟨holds.1, doneReported.around before holds.2⟩

end Call

/-! ## Runs -/

/-- What the other tasks, a restart or another sender do to the shared state. -/
abbrev Meanwhile :=
  { move : World → World // ∀ world, Elsewhere world (move world) }

/-- What happens next: a call for some root, cut wherever its script ends, or a move. -/
inductive Step where
  | process (consensus : Consensus) (balances : Bool) (blockRoot : RootHex)
      (finalizedHeader : BlockHeaderResponse) (script : List (Beat Meanwhile))
  | meanwhile (move : Meanwhile)

section Runs

variable (config : Config)

/-- One call of `processNext` up to the end of its script. -/
def processing (consensus : Consensus) (balances : Bool) (blockRoot : RootHex)
    (finalizedHeader : BlockHeaderResponse) (script : List (Beat Meanwhile))
    (world : World) : Async World Unit × World :=
  run (fun move => move.1)
    (RootsProcessor.processNext config consensus balances blockRoot finalizedHeader)
    script world

/-- One step of a run. -/
def Step.perform (world : World) : Step → World
  | .process consensus balances blockRoot finalizedHeader script =>
      (processing config consensus balances blockRoot finalizedHeader script world).2
  | .meanwhile move => move.1 world

/-- A run. -/
def perform (world : World) (steps : List Step) : World :=
  steps.foldl (Step.perform config) world

end Runs

section Runs

variable {config : Config} {world : World}

/-- Processing a block establishes its report, whatever happens meanwhile. -/
theorem processing_established
    (live : Live config)
    (consensus : Consensus)
    (balances : Bool)
    (blockRoot : RootHex)
    (finalizedHeader : BlockHeaderResponse)
    (script : List (Beat Meanwhile))
    (sound : Sound world) :
    Established protocol
      (fun _ final =>
        Sound final ∧
          Reported consensus blockRoot (consensus.beaconHeader blockRoot).message.slot
            world final)
      (processing config consensus balances blockRoot finalizedHeader script world) :=
  run_sound protocol_stable (fun move state => move.2 state)
    (processNext_spec live rfl sound) script

/-- Step lemma: every step keeps the invariant. -/
theorem perform_sound
    (live : Live config)
    (step : Step)
    (sound : Sound world) :
    Sound (step.perform config world) := by
  cases step with
  | process consensus balances blockRoot finalizedHeader script =>
      exact (processing_established live consensus balances blockRoot finalizedHeader script
        sound).holds Sound (fun _ suspended => suspended) (fun _ _ aborted => aborted)
        (fun _ _ returned => returned.1)
  | meanwhile move =>
      exact sound.quiet (Elsewhere.quiet (move.2 world))

/-- Run lemma: every run keeps the invariant. -/
theorem run_keeps_sound
    (live : Live config)
    (steps : List Step)
    (sound : Sound world) :
    Sound (perform config world steps) := by
  induction steps generalizing world with
  | nil =>
      exact sound
  | cons step rest inductionHypothesis =>
      exact inductionHypothesis (perform_sound live step sound)

end Runs

/--
In every run no key has two mined proofs of a kind, and a call that returns has
every key proved that it looked up, found and had to report.
-/
theorem exactly_once
    (config : Config)
    (live : Live config)
    (world : World)
    (distinct : DistinctKeys fun valIndex => world.keysIndexer.storage[valIndex]?)
    (noEvents : world.log = [])
    (steps : List Step) :
    (∀ kind key,
        (perform config world steps).log.count (.proofResolved kind key) ≤ 1) ∧
      ∀ consensus balances blockRoot finalizedHeader script final,
        (consensus.beaconHeader blockRoot).message.slot =
          (consensus.blockInfo blockRoot).slot →
        processing config consensus balances blockRoot finalizedHeader script
            (perform config world steps) =
          (.done (), final) →
        Reported consensus blockRoot (consensus.blockInfo blockRoot).slot
          (perform config world steps) final := by
  have initial : Sound world :=
    { distinct := distinct
      once := by simp [noEvents]
      proved := by simp [noEvents] }
  have sound := run_keeps_sound live steps initial
  refine ⟨sound.once, ?_⟩
  intro consensus balances blockRoot finalizedHeader script final sameSlot returned
  have established :=
    processing_established live consensus balances blockRoot finalizedHeader script sound
  rw [returned, sameSlot] at established
  exact established.2

/-- Validator 0 withdraws fully, validator 1 proposed and attested twice. -/
def sampleBlock (root : RootHex) : SupportedBlock where
  slot := root
  parentRoot := root - 1
  blockHash := root
  withdrawals :=
    [{ index := 0, validatorIndex := 0, address := 0, amount := 32000000000 }]
  proposerSlashings := [{ proposerIndex := 1 }]
  attesterSlashings :=
    [{ attestation1 := { attestingIndices := [1, 2] }
       attestation2 := { attestingIndices := [1] } }]

/-- Validators of whom the one with index 1 is slashed. -/
def sampleValidator (valIndex : Nat) : Validator where
  pubkey := valIndex
  withdrawalCredentials := 0
  effectiveBalance := 32000000000
  slashed := valIndex = 1
  activationEligibilityEpoch := 0
  activationEpoch := 0
  exitEpoch := 0
  withdrawableEpoch := 0

/-- A chain whose blocks accuse and withdraw. -/
def sampleConsensus : Consensus :=
  { Walk.sampleConsensus with
    blockInfo := sampleBlock
    state := fun _ => { validators := (List.range 3).map sampleValidator, balances := [] } }

/-- A state whose index knows the validators. -/
def sampleWorld : World :=
  { World.blank (Walk.sampleHeader 7) with
    keysIndexer :=
      { info :=
          { moduleAddress := "0xab"
            moduleId := 3
            storageStateSlot := 7
            lastValidatorsCount := 3 }
        storage :=
          (TreeMap.insert ∅ 0 { operatorId := 4, keyIndex := 0, pubKey := 0 }).insert 1
            { operatorId := 4, keyIndex := 1, pubKey := 1 } } }

/-- Its keys have one validator each. -/
private theorem sampleWorld_distinct :
    DistinctKeys fun valIndex => sampleWorld.keysIndexer.storage[valIndex]? := by
  intro first second firstKey secondKey firstFound secondFound sameKey
  simp only [sampleWorld, TreeMap.getElem?_insert, Nat.compare_eq_eq] at firstFound secondFound
  split at firstFound <;> split at secondFound <;>
    simp_all [KeyInfo.id] <;> grind

/-- A call for the block that stops after its slashing was proved. -/
def sampleStep : Step :=
  .process sampleConsensus false 6 (Walk.sampleHeader 7)
    (List.replicate 18 (.quiet .resolved))

/-- The call after it, which comes to its end. -/
def sampleRetry : Async World Unit × World :=
  processing (.defaults "0xab" 1) sampleConsensus false 6 (Walk.sampleHeader 7)
    (List.replicate 60 (.quiet .resolved))
    (perform (.defaults "0xab" 1) sampleWorld [sampleStep])

set_option maxRecDepth 4000 in
/-- A block whose first attempt fails is reported once by the retry. -/
theorem exactly_once_sample :
    sampleRetry.2.log.count (.proofResolved .slashing (4, 1)) = 1 ∧
      (perform (.defaults "0xab" 1) sampleWorld [sampleStep]).log.count
          (.proofResolved .slashing (4, 1)) ≤ 1 ∧
      Reported sampleConsensus 6 6
        (perform (.defaults "0xab" 1) sampleWorld [sampleStep]) sampleRetry.2 := by
  have proved :=
    exactly_once (.defaults "0xab" 1) ⟨rfl, Bool.false_ne_true⟩ sampleWorld
      sampleWorld_distinct rfl [sampleStep]
  refine ⟨by decide, proved.1 .slashing (4, 1), ?_⟩
  exact proved.2 sampleConsensus false 6 (Walk.sampleHeader 7)
    (List.replicate 60 (.quiet .resolved)) sampleRetry.2 rfl rfl

end ExactlyOnce

end CsmProver
