import CsmProver.DaemonReports
import CsmProver.KeysIndexRuns
import CsmProver.ProveCommand
import CsmProver.SentCounts
import CsmProver.StrikesJustified

namespace CsmProver

/-!
# Runs of the prove command

Whatever is to be proved, the command reports the selected key and no other.  For bad
performers it does what the daemon would do with an index of this one key, so what is
known of the rounds of the daemon holds for it.

While the command waits others may send transactions and the finalized header may move;
they do not write the log of the command.  Penalties for bad performers that others get
mined meanwhile are left out: only the round of the command adds to them.
-/

open Async

namespace ProveCommand

/-! ## The index of one key -/

/-- The index in which the command's lookups would find what they find. -/
def selectedIndex (options : ProofOptions) (pubKey : PubKey) : KeysIndexerServiceStorage :=
  (∅ : KeysIndexerServiceStorage).insert options.validatorIndex
    (getSelectedKeyInfo options pubKey)

/-- It has one entry. -/
theorem toList_selectedIndex
    (options : ProofOptions)
    (pubKey : PubKey) :
    (selectedIndex options pubKey).toList =
      [(options.validatorIndex, getSelectedKeyInfo options pubKey)] := by
  have inserted :=
    @Std.TreeMap.toList_insert_perm Nat KeyInfo compare ∅ _ _ _ options.validatorIndex
      (getSelectedKeyInfo options pubKey)
  exact List.perm_singleton.mp inserted

/-- Outside of the daemon no operator is filtered. -/
theorem fullKeyInfoFn_eq
    {config : Config}
    (cli : config.workingMode = .cli)
    (options : ProofOptions)
    (pubKey : PubKey) :
    BadPerformers.lookupIn config (selectedIndex options pubKey) =
      fullKeyInfoFn options pubKey := by
  funext asked
  have allowed (operatorId : Nat) :
      KeysIndexer.isAllowedOperatorId config operatorId = true := by
    simp [KeysIndexer.isAllowedOperatorId, cli]
  rw [BadPerformers.lookupIn, BadPerformers.getFullKeyInfoByPubKey_eq,
    BadPerformers.indexedKey, toList_selectedIndex, KeysIndexer.filterFullKeyInfo,
    fullKeyInfoFn]
  by_cases same : asked = pubKey
  · subst same
    simp [getSelectedKeyInfo, allowed]
  · simp [getSelectedKeyInfo, same, Ne.symm same]

/-! ## What a run tells -/

/-- The key that is selected by the flags and the answers of the user. -/
def selectedKeyId (given : GivenOptions) (prompted : Prompted) : KeyId :=
  (given.nodeOperatorId.getD prompted.nodeOperatorId, given.keyIndex.getD prompted.keyIndex)

/-- The public key that the staking module has for the selected key. -/
def selectedPubKey (answers : Answers) (given : GivenOptions) : PubKey :=
  answers.nodeOperatorKey (selectedKeyId given answers.prompted).1
    (selectedKeyId given answers.prompted).2

/-- Others write neither the log of the command nor the payloads of its service. -/
structure Beside (state moved : ProveState) : Prop where
  log : moved.world.log = state.world.log
  strikes : moved.strikes = state.strikes

theorem beside_refl
    (state : ProveState) :
    Beside state state :=
  ⟨rfl, rfl⟩

theorem beside_trans
    {first middle last : ProveState}
    (earlier : Beside first middle)
    (later : Beside middle last) :
    Beside first last :=
  ⟨later.log.trans earlier.log, later.strikes.trans earlier.strikes⟩

/-- The log tells of no mined proofs but those for the given keys. -/
def Told (keys : KeyId → Prop) (world moved : World) : Prop :=
  ∃ events,
    moved.log = world.log ++ events ∧ ∀ event ∈ events, DaemonService.IsFor keys event

/-- More reports for the given keys can follow. -/
theorem Told.next
    {keys : KeyId → Prop}
    {world moved final : World}
    (told : Told keys world moved)
    (reports : DaemonService.Reports keys moved final) :
    Told keys world final := by
  obtain ⟨events, log, isFor⟩ := told
  obtain ⟨more, moreLog, moreFor⟩ := reports.log
  refine ⟨events ++ more, by rw [moreLog, log, List.append_assoc], fun event member => ?_⟩
  exact (List.mem_append.mp member).elim (isFor event) (moreFor event)

/-- The round the command goes through for bad performers. -/
def roundOf (answers : Answers) (options : ProofOptions) (pubKey : PubKey)
    (headHeader : BlockHeaderResponse) : StrikesRound where
  consensus := answers.consensus
  finalizedHeader := headHeader
  storage := selectedIndex options pubKey
  reads := answers.strikesReads
  script := []

section Runs

variable (config : Config) (balances : Bool) (answers : Answers) (given : GivenOptions)
variable (initial : ProveState)

/-- The proofs the command may get mined. -/
abbrev Selected (key : KeyId) : Prop :=
  Live config ∧ key = selectedKeyId given answers.prompted

/-- Nothing but the selected key was reported, and no bad performer at all. -/
def Unreported (state : ProveState) : Prop :=
  Told (Selected config answers given) initial.world state.world ∧
    state.strikes = initial.strikes

/-- Nothing but the selected key was reported, by at most one round of the service. -/
def Reported (state : ProveState) : Prop :=
  Told (Selected config answers given) initial.world state.world ∧
    ∃ options headHeader,
      (options.nodeOperatorId, options.keyIndex) = selectedKeyId given answers.prompted ∧
      (roundOf answers options (selectedPubKey answers given) headHeader).Progress config
        initial.strikes state.strikes

variable {config balances answers given initial}

/-- Before the round of the service nothing is reported by it. -/
theorem Unreported.reported
    (state : ProveState)
    (unreported : Unreported config answers given initial state) :
    Reported config answers given initial state := by
  obtain ⟨told, same⟩ := unreported
  refine ⟨told, askProofInput .balance given answers.prompted,
    answers.beaconHeader answers.prompted.clBlock, rfl, ?_⟩
  exact StrikesRound.progress_of_eq (by rw [same]) (by rw [same])

/-- Others leave it at that. -/
theorem steady_unreported :
    Steady Beside (Reported config answers given initial)
      (Unreported config answers given initial) where
  suspends := fun unreported => unreported.reported
  stays := by
    rintro state moved ⟨⟨events, log, isFor⟩, same⟩ beside
    exact ⟨⟨events, beside.log.trans log, isFor⟩, beside.strikes.trans same⟩

/-- What a handler reports of the selected key is told in the log. -/
theorem onWorld_leads
    {α : Type}
    {program : Async World α}
    (reports :
      program.Guarantees (DaemonService.Reports (Selected config answers given))) :
    Leads Beside (Reported config answers given initial)
      (Unreported config answers given initial) (Unreported config answers given initial)
      (onWorld program) := by
  apply leads_of_guarantees steady_unreported
  refine guarantees_zoom ?_ reports
  rintro state moved moves ⟨told, same⟩
  exact ⟨told.next moves, same⟩

/-- Reading the header reports nothing. -/
theorem getFinalizedHeader_leads :
    Leads Beside (Reported config answers given initial)
      (Unreported config answers given initial) (Unreported config answers given initial)
      (onWorld getFinalizedHeader) := by
  apply onWorld_leads
  apply guarantees_bind guarantees_settle
  intro _
  exact guarantees_bind (guarantees_read DaemonService.keeping_reports.refl) fun _ => trivial

/-- A handler that looks up nothing but the selected key. -/
theorem handler_leads
    {handler : Async World Nat}
    (reports :
      handler.Yields (fun _ => True)
        (DaemonService.Reports (Selected config answers given)) fun _ => True) :
    Leads Beside (Reported config answers given initial)
      (Unreported config answers given initial) (Reported config answers given initial)
      (onWorld (call handler)) :=
  (onWorld_leads (guarantees_of_yields (yields_call reports))).reaches Unreported.reported

/-- For bad performers the command goes through one round. -/
theorem badPerformers_leads
    (cli : config.workingMode = .cli)
    {options : ProofOptions}
    (isSelected :
      (options.nodeOperatorId, options.keyIndex) = selectedKeyId given answers.prompted)
    (headHeader : BlockHeaderResponse) :
    Leads Beside (Reported config answers given initial)
      (Unreported config answers given initial) (Reported config answers given initial)
      (onStrikes <| call <|
        handleBadPerformers config answers.consensus answers.strikesReads headHeader
          (fullKeyInfoFn options (selectedPubKey answers given))) := by
  refine ⟨fun state unreported => ?_⟩
  obtain ⟨told, same⟩ := unreported
  let round := roundOf answers options (selectedPubKey answers given) headHeader
  let progresses := round.Progress config initial.strikes
  have plays :
      wp { rely := Eq, suspended := progresses, aborted := fun _ => progresses }
        (fun _ => progresses) (call (round.program config)) state.strikes := by
    have progress := StrikesRound.wp_program_progress config round state.strikes
    rw [same] at progress ⊢
    exact wp_call_of_stays progress (fun _ _ reached => reached)
      fun _ _ _ reached unmoved => unmoved ▸ reached
  have isProgram :
      round.program config =
        handleBadPerformers config answers.consensus answers.strikesReads headHeader
          (fullKeyInfoFn options (selectedPubKey answers given)) := by
    rw [← fullKeyInfoFn_eq cli]
    rfl
  rw [isProgram] at plays
  have reached
      (current : ProveState)
      (stillTold : Told (Selected config answers given) initial.world current.world)
      (progress : progresses current.strikes) :
      Reported config answers given initial current :=
    ⟨stillTold, options, headHeader, isSelected, progress⟩
  have zoomed :
      wp
        { rely := Beside
          suspended := Reported config answers given initial
          aborted := fun _ => Reported config answers given initial }
        (fun _ final =>
          Told (Selected config answers given) initial.world final.world ∧
            progresses final.strikes)
        (onStrikes <| call <|
          handleBadPerformers config answers.consensus answers.strikesReads headHeader
            (fullKeyInfoFn options (selectedPubKey answers given))) state := by
    apply wp_zoom
      (fun current : ProveState =>
        Told (Selected config answers given) initial.world current.world) plays told
    · exact fun _ _ => rfl
    · exact fun _ _ stillTold => stillTold
    · rintro current moved ⟨events, log, isFor⟩ - beside
      exact ⟨⟨events, beside.log.trans log, isFor⟩, beside.strikes.symm⟩
    · exact reached
    · exact fun _ => reached
  exact wp_mono zoomed fun _ final ended => reached final ended.1 ended.2

/-- The lookup of the handlers finds the selected key only. -/
theorem finds_selected
    {options : ProofOptions}
    (isSelected :
      (options.nodeOperatorId, options.keyIndex) = selectedKeyId given answers.prompted) :
    Finds (fun key => key = selectedKeyId given answers.prompted) (fun _ => True)
      (selectedKeyInfoFn options (selectedPubKey answers given)) := by
  intro world valIndex keyInfo _ found
  unfold selectedKeyInfoFn keyInfoFn at found
  split at found
  · rw [← Option.some.inj found]
    exact isSelected
  · cases found

/-- Nor does asking for the block. -/
theorem ensureClBlock_bind_leads
    {clBlock : Option ClBlock}
    {next : ClBlock → Async ProveState Nat}
    (continues :
      ∀ clBlock,
        Leads Beside (Reported config answers given initial)
          (Unreported config answers given initial) (Reported config answers given initial)
          (next clBlock)) :
    Leads Beside (Reported config answers given initial)
      (Unreported config answers given initial) (Reported config answers given initial)
      (ensureClBlock clBlock >>= next) := by
  cases clBlock with
  | none =>
      exact ⟨Unreported.reported⟩
  | some clBlock =>
      exact continues clBlock

/-- Whatever is to be proved, nothing but the selected key is reported. -/
theorem prove_leads
    (cli : config.workingMode = .cli)
    {options : ProofOptions}
    (isSelected :
      (options.nodeOperatorId, options.keyIndex) = selectedKeyId given answers.prompted)
    (proofType : ProofType)
    (finalizedHeader : BlockHeaderResponse) :
    Leads Beside (Reported config answers given initial)
      (Unreported config answers given initial) (Reported config answers given initial)
      (prove config balances answers proofType options (selectedPubKey answers given)
        finalizedHeader) := by
  have frame :
      ReportFrame config (fun key => key = selectedKeyId given answers.prompted)
        (fun _ => True) (DaemonService.Reports (Selected config answers given)) :=
    DaemonService.reportFrame_reports
  have finds := @finds_selected answers given options isSelected
  cases proofType with
  | withdrawal =>
      refine ensureClBlock_bind_leads fun clBlock => ?_
      refine leads_request_bind steady_unreported Unreported.reported ?_
      refine leads_request_bind steady_unreported Unreported.reported ?_
      exact handler_leads
        (frame.handleWithdrawalsInBlock_yields answers.consensus balances finds _ _ _)
  | badPerformer =>
      refine leads_bind_of_imp getFinalizedHeader_leads Unreported.reported fun headHeader => ?_
      exact badPerformers_leads cli isSelected headHeader
  | slashing =>
      refine ensureClBlock_bind_leads fun clBlock => ?_
      refine leads_request_bind steady_unreported Unreported.reported ?_
      exact handler_leads
        (frame.handleSlashingsInBlock_yields answers.consensus balances finds _ _)
  | balance =>
      refine ensureClBlock_bind_leads fun clBlock => ?_
      refine leads_bind_of_imp
        (leads_of_guarantees steady_unreported
          (guarantees_call
            (StakingModuleContract.canProveBalanceChanges_guarantees answers.topUpQueue)))
        Unreported.reported fun canProve => ?_
      simp only
      split
      · exact ⟨Unreported.reported⟩
      · refine leads_request_bind steady_unreported Unreported.reported ?_
        refine handler_leads
          (frame.handleBalanceChangesInBlock_yields answers.consensus balances ?_ _ _)
        intro entry member
        rw [List.mem_singleton.mp member]
        exact isSelected

/-- From start to end of the command, at every suspension and every error. -/
theorem run_leads
    (cli : config.workingMode = .cli)
    (input : Option String) :
    Leads Beside (Reported config answers given initial)
      (Unreported config answers given initial) (Reported config answers given initial)
      (run config balances answers input given) := by
  have proves :
      Leads Beside (Reported config answers given initial)
        (Unreported config answers given initial) (Reported config answers given initial)
        (runProof config balances answers input given) := by
    unfold runProof
    cases getProofTypeOrThrow input with
    | error reason =>
        exact ⟨Unreported.reported⟩
    | ok proofType =>
        refine leads_request_bind steady_unreported Unreported.reported ?_
        refine leads_request_bind steady_unreported Unreported.reported ?_
        refine leads_bind_of_imp getFinalizedHeader_leads Unreported.reported
          fun finalizedHeader => ?_
        exact prove_leads cli rfl proofType finalizedHeader
  refine leads_attempt_bind proves fun outcome => ⟨fun state reported => ?_⟩
  cases outcome with
  | ok sentCount => exact reported
  | error reason => cases reason <;> exact reported

end Runs

/-! ## What a run counts -/

section Counts

variable (config : Config) (balances : Bool) (answers : Answers)

/-- The proofs mined for the command, and the penalties its reports of strikes left. -/
def reportCounting : Counting ProveState where
  rely := Beside
  measure := fun state => minedProofs state.world + state.strikes.exitPenalties.length
  keeps := fun beside => by rw [minedProofs, minedProofs, beside.log, beside.strikes]

/-- The proofs of a handler are counted in the log of the command. -/
theorem onWorld_adds
    {α : Type}
    {counted : α → Nat → Prop}
    {program : Async World α}
    (adds : program.Adds proofCounting counted) :
    (onWorld program).Adds reportCounting counted := by
  refine adds_zoom adds (fun _ _ => rfl) (fun world state => ?_) fun beside => ?_
  · simp only [reportCounting, proofCounting]
    omega
  · exact congrArg (List.countP isProof) beside.log

/-- The penalties of the service are counted on its own chain. -/
theorem onStrikes_adds
    {α : Type}
    {counted : α → Nat → Prop}
    {program : Async StrikesWorld α}
    (adds : program.Adds penaltyCounting counted) :
    (onStrikes program).Adds reportCounting counted := by
  refine adds_zoom adds (fun _ _ => rfl) (fun strikes state => ?_) fun beside => ?_
  · simp only [reportCounting, penaltyCounting]
    omega
  · exact beside.strikes.symm

/-- Reading the header counts nothing. -/
theorem getFinalizedHeader_bind_adds
    {counted : Nat → Nat → Prop}
    {next : BlockHeaderResponse → Async ProveState Nat}
    (adds : ∀ finalizedHeader, (next finalizedHeader).Adds reportCounting counted) :
    (onWorld getFinalizedHeader >>= next).Adds reportCounting counted := by
  have silent : (getFinalizedHeader).Guarantees SameCount :=
    guarantees_bind guarantees_settle fun _ =>
      guarantees_bind (guarantees_read sameCount_refl) fun _ => trivial
  refine adds_bind (onWorld_adds (adds_of_guarantees silent)) ?_
  rintro finalizedHeader _ rfl
  simpa only [Nat.zero_add] using adds finalizedHeader

/-- Nor does asking for the block. -/
theorem ensureClBlock_bind_adds
    {counted : Nat → Nat → Prop}
    {clBlock : Option ClBlock}
    {next : ClBlock → Async ProveState Nat}
    (adds : ∀ clBlock, (next clBlock).Adds reportCounting counted) :
    (ensureClBlock clBlock >>= next).Adds reportCounting counted := by
  cases clBlock with
  | none =>
      exact adds_fail _
  | some clBlock =>
      exact adds clBlock

/-- Whatever is to be proved, what is mined is counted. -/
theorem prove_adds
    (cli : config.workingMode = .cli)
    (proofType : ProofType)
    (options : ProofOptions)
    (pubKey : PubKey)
    (finalizedHeader : BlockHeaderResponse) :
    (prove config balances answers proofType options pubKey finalizedHeader).Adds
      reportCounting (WereMined config) := by
  cases proofType with
  | withdrawal =>
      refine ensureClBlock_bind_adds fun clBlock => ?_
      refine adds_silent_bind (guarantees_request _) fun withdrawalBlockInfo => ?_
      refine adds_silent_bind (guarantees_request _) fun withdrawalBlock => ?_
      exact onWorld_adds (adds_call
        (handleWithdrawalsInBlock_adds config answers.consensus balances _ _ _ _))
  | badPerformer =>
      refine getFinalizedHeader_bind_adds fun headHeader => ?_
      have adds := program_adds config (roundOf answers options pubKey headHeader)
      have isProgram :
          (roundOf answers options pubKey headHeader).program config =
            handleBadPerformers config answers.consensus answers.strikesReads headHeader
              (fullKeyInfoFn options pubKey) := by
        rw [← fullKeyInfoFn_eq cli]
        rfl
      rw [isProgram] at adds
      exact onStrikes_adds (adds_call adds)
  | slashing =>
      refine ensureClBlock_bind_adds fun clBlock => ?_
      refine adds_silent_bind (guarantees_request _) fun slashingBlockInfo => ?_
      exact onWorld_adds (adds_call
        (handleSlashingsInBlock_adds config answers.consensus balances _ _ _))
  | balance =>
      refine ensureClBlock_bind_adds fun clBlock => ?_
      refine adds_silent_bind
        (guarantees_call
          (StakingModuleContract.canProveBalanceChanges_guarantees answers.topUpQueue))
        fun canProve => ?_
      simp only
      split
      · exact adds_fail _
      · refine adds_silent_bind (guarantees_request _) fun balanceBlock => ?_
        have given :
            (pure [(options.validatorIndex, getSelectedKeyInfo options pubKey)] :
              Async World InvolvedKeys).Guarantees SameCount :=
          trivial
        exact onWorld_adds (adds_call
          (handleBalanceChangesInBlock_adds config answers.consensus balances given _ _))

/-- The command returns what was mined for it, whichever proof it makes. -/
theorem run_adds
    (cli : config.workingMode = .cli)
    (input : Option String)
    (given : GivenOptions) :
    (run config balances answers input given).Adds reportCounting (WereMined config) := by
  have proves :
      (runProof config balances answers input given).Adds reportCounting
        (WereMined config) := by
    unfold runProof
    refine adds_silent_bind (guarantees_ofOutcome _) fun proofType => ?_
    refine adds_silent_bind (guarantees_request _) fun prompted => ?_
    refine adds_silent_bind (guarantees_request _) fun pubKey => ?_
    refine getFinalizedHeader_bind_adds fun finalizedHeader => ?_
    exact prove_adds config balances answers cli _ _ _ _
  refine adds_attempt_bind proves (fun sentCount added mined => adds_pure mined) ?_
  intro reason
  cases reason <;> exact adds_fail _

end Counts

/-! ## Every run -/

theorem reported_stable
    {config : Config}
    {answers : Answers}
    {given : GivenOptions}
    {initial : ProveState} :
    Protocol.Stable
      { rely := Beside
        suspended := Reported config answers given initial
        aborted := fun _ => Reported config answers given initial } := by
  have stays
      {state moved : ProveState}
      (reported : Reported config answers given initial state)
      (beside : Beside state moved) :
      Reported config answers given initial moved := by
    obtain ⟨⟨events, log, isFor⟩, options, headHeader, isSelected, progress⟩ := reported
    refine ⟨⟨events, beside.log.trans log, isFor⟩, options, headHeader, isSelected, ?_⟩
    rw [beside.strikes]
    exact progress
  exact
    { refl := beside_refl
      trans := beside_trans
      suspended := stays
      aborted := stays }

/-- A leaf of the strikes tree and the entry that reports it, of one key. -/
structure IsReportOf (key : KeyId) (pubKey : PubKey) (leaf : StrikesTreeLeaf)
    (entry : KeyStrikes) : Prop where
  leafOperator : leaf.nodeOperatorId = key.1
  leafPubKey : leaf.pubKey = pubKey
  isEntry : entry = { nodeOperatorId := key.1, keyIndex := key.2, data := leaf.strikesData }

section Every

variable {ι : Type} (act : ι → World → World)

/-- Others act on the world; they leave the service and the penalties on chain alone. -/
def others (move : ι) (state : ProveState) : ProveState :=
  { state with world := act move state.world }

/--
In every run of the command, whatever the user, the clients and the contracts answer and
whatever others do to the world meanwhile: every slashing, withdrawal or balance proof
that is mined, every bad-performance payload and every penalty is for the one key that
was selected, under the public key the staking module has for it.
-/
theorem proves_selected_key
    (config : Config)
    (cli : config.workingMode = .cli)
    (balances : Bool)
    (answers : Answers)
    (input : Option String)
    (given : GivenOptions)
    (unlogged : ∀ move world, (act move world).log = world.log)
    (world : World)
    (strikes : StrikesWorld)
    (script : List (Beat ι)) :
    let key := selectedKeyId given answers.prompted
    let pubKey := selectedPubKey answers given
    let final :=
      (Async.run (others act) (run config balances answers input given) script
        { world := world, strikes := strikes }).2
    ∃ events sent penalties,
      final.world.log = world.log ++ events ∧
      final.strikes.payloads = strikes.payloads ++ sent ∧
      final.strikes.exitPenalties = strikes.exitPenalties ++ penalties ∧
      (∀ kind proved, .proofResolved kind proved ∈ events → Live config ∧ proved = key) ∧
      (∀ proved balanceGwei,
        .balanceProofResolved proved balanceGwei ∈ events → Live config ∧ proved = key) ∧
      (∀ payload ∈ sent,
        List.Forall₂ (IsReportOf key pubKey) payload.leaves payload.keyStrikesList) ∧
      ∀ penalty ∈ penalties,
        Live config ∧ penalty.operatorId = key.1 ∧ penalty.pubKey = pubKey := by
  intro key pubKey final
  let initial : ProveState := { world := world, strikes := strikes }
  have starts : Unreported config answers given initial initial :=
    ⟨⟨[], (List.append_nil _).symm, by simp⟩, rfl⟩
  have established :=
    @run_sound _ _ _ _ reported_stable (others act)
      (fun move state => ⟨unlogged move state.world, rfl⟩) _ _ _
      ((@run_leads config balances answers given initial cli input).ends initial starts) script
  have reported : Reported config answers given initial final :=
    established.holds _ (fun _ => id) (fun _ _ => id) fun _ _ => id
  obtain ⟨⟨events, log, isFor⟩, options, headHeader, isSelected, sent, penalties, payloads,
    exitPenalties, justified, earned⟩ := reported
  have isKey
      {leaf : StrikesTreeLeaf}
      {fullKeyInfo : FullKeyInfo}
      (found :
        BadPerformers.lookupIn config (selectedIndex options pubKey) leaf.pubKey =
          some fullKeyInfo) :
      leaf.pubKey = pubKey ∧ (fullKeyInfo.operatorId, fullKeyInfo.keyIndex) = key := by
    rw [fullKeyInfoFn_eq cli, fullKeyInfoFn] at found
    split at found
    · next same =>
      cases found
      exact ⟨same, isSelected⟩
    · cases found
  have isReport :
      ∀ payload ∈ sent,
        List.Forall₂ (IsReportOf key pubKey) payload.leaves payload.keyStrikesList := by
    intro payload member
    refine (justified.entries payload member).imp fun leaf entry reports => ?_
    obtain ⟨fullKeyInfo, isKeyOf, sameIndex⟩ := reports.key
    obtain ⟨samePubKey, sameKey⟩ := isKey isKeyOf.found
    have sameOperator : leaf.nodeOperatorId = key.1 := by
      rw [← isKeyOf.owned, ← sameKey]
    refine ⟨sameOperator, samePubKey, ?_⟩
    obtain ⟨entryOperator, entryIndex, data⟩ := entry
    simp only [KeyStrikes.mk.injEq]
    exact ⟨reports.nodeOperatorId.trans sameOperator,
      sameIndex.trans (congrArg Prod.snd sameKey), reports.data⟩
  refine ⟨events, sent, penalties, log, payloads, exitPenalties, fun _ _ member => isFor _ member,
    fun _ _ member => isFor _ member, isReport, fun penalty member => ?_⟩
  obtain ⟨live, payload, inSent, leaf, isLeaf, block, rfl⟩ := earned penalty member
  obtain ⟨⟨place, inside⟩, rfl⟩ := List.mem_iff_get.mp isLeaf
  obtain ⟨sameLength, atPlace⟩ := List.forall₂_iff_get.mp (isReport payload inSent)
  have report := atPlace place inside (sameLength ▸ inside)
  exact ⟨live, report.leafOperator, report.leafPubKey⟩

/--
In every run of the command that ends without an error: with a signer and without a dry
run it says as many proofs as were mined for it, penalties for bad performers included;
otherwise it mined none.
-/
theorem counts_mined_proofs
    (config : Config)
    (cli : config.workingMode = .cli)
    (balances : Bool)
    (answers : Answers)
    (input : Option String)
    (given : GivenOptions)
    (unlogged : ∀ move world, (act move world).log = world.log)
    (world : World)
    (strikes : StrikesWorld)
    (script : List (Beat ι))
    (sentCount : Nat)
    (final : ProveState)
    (returned :
      Async.run (others act) (run config balances answers input given) script
        { world := world, strikes := strikes } = (.done sentCount, final)) :
    minedProofs final.world + final.strikes.exitPenalties.length =
      minedProofs world + strikes.exitPenalties.length +
        if Live config then sentCount else 0 := by
  have allowed (move : ι) (state : ProveState) : Beside state (others act move state) :=
    ⟨unlogged move state.world, rfl⟩
  obtain ⟨added, grown, mined⟩ :=
    (run_adds config balances answers cli input given).run beside_refl beside_trans allowed
      returned
  rw [← show added = if Live config then sentCount else 0 from mined]
  exact grown

end Every

/-! ### A selected key among two bad performers -/

/-- The command line mode. -/
def sampleConfig : Config :=
  { KeysIndex.sampleConfig with workingMode := .cli }

/-- Both leaves have too many strikes, and the block at slot 5 accuses a proposer. -/
def sampleAnswers : Answers where
  prompted := { nodeOperatorId := 2, keyIndex := 0, validatorIndex := 0, clBlock := .slot 5 }
  consensus := KeysIndex.sampleConsensus
  blockInfo := fun _ =>
    { KeysIndex.sampleConsensus.blockInfo 5 with
      proposerSlashings := [{ proposerIndex := 0 }] }
  beaconHeader := fun _ => KeysIndex.sampleHeader 5
  nodeOperatorKey := fun nodeOperatorId _ => 10 * nodeOperatorId
  topUpQueue := .callException "0x"
  strikesReads := BadPerformers.sampleReads (BadPerformers.sampleTree 3) 3 1

/-- The operator is given, all else is asked. -/
def sampleGiven : GivenOptions where
  nodeOperatorId := some 1
  keyIndex := none
  validatorIndex := none
  clBlock := none

/-- Nothing was reported before. -/
def sampleStart : ProveState where
  world := .blank (KeysIndex.sampleHeader 6)
  strikes := .fresh

/-- Every request is answered and nobody else acts. -/
def sampleScript : List (Beat Empty) :=
  List.replicate 30 (.quiet .resolved)

set_option maxRecDepth 4000 in
theorem proves_selected_key_sample :
    let final :=
      (Async.run (others fun (move : Empty) _ => move.elim)
        (run sampleConfig false sampleAnswers (some "bad_performer") sampleGiven)
        sampleScript sampleStart).2
    final.strikes.exitPenalties.length = 1 ∧
      ∀ penalty ∈ final.strikes.exitPenalties,
        penalty.operatorId = 1 ∧ penalty.pubKey = 10 := by
  refine ⟨by decide, fun penalty member => ?_⟩
  obtain ⟨_, _, penalties, _, _, exitPenalties, _, _, _, earned⟩ :=
    proves_selected_key (fun (move : Empty) _ => move.elim) sampleConfig rfl false
      sampleAnswers (some "bad_performer") sampleGiven (fun move => move.elim)
      sampleStart.world sampleStart.strikes sampleScript
  have inPenalties : penalty ∈ [] ++ penalties :=
    exitPenalties.subst (motive := fun current => penalty ∈ current) member
  exact (earned penalty inPenalties).2

set_option maxRecDepth 4000 in
theorem counts_mined_proofs_sample :
    minedProofs
        (Async.run (others fun (move : Empty) _ => move.elim)
          (run sampleConfig false sampleAnswers (some "slashing") sampleGiven)
          sampleScript sampleStart).2.world = 1 :=
  counts_mined_proofs (fun (move : Empty) _ => move.elim) sampleConfig rfl false
    sampleAnswers (some "slashing") sampleGiven (fun move => move.elim)
    sampleStart.world sampleStart.strikes sampleScript 1 _ rfl

end ProveCommand

end CsmProver
