import CsmProver.BalanceScan
import Mathlib.Algebra.Order.Floor.Semiring
import Mathlib.Data.Rat.Floor
import Mathlib.Tactic.Positivity

namespace CsmProver

/-!
# Balance reports come to an end

A report moves the confirmed balance of its key up to the reported one, or to the
effective maximum.  While the validator does not exit, each report either gains more
than the minimal delta or reaches the reportable maximum, where nothing is reported
any more.  The distance of the confirmed balance to that maximum bounds how many
such reports there can be.
-/

namespace Balances

section Limits

variable (config : Config) (consensus : Consensus)

/-- The confirmed balance at and above which nothing is reported. -/
def reportableMaxGwei : Int :=
  (consensus.beaconConfig.maxEffectiveBalanceElectra : Int) -
    config.balanceProofTopupStepGwei

/-- The balance of a key as the contract knows it. -/
def confirmedBalanceGwei (keyAddedBalanceWei : Nat) : Int :=
  (consensus.beaconConfig.minActivationBalance : Int) +
    (keyAddedBalanceWei / 1000000000 : Nat)

variable {config consensus} {keyAddedBalanceWei balanceGwei : Nat}
variable {exitEpoch : Option EpochInf}

/-- Three reasons to report, under two conditions. -/
theorem isProvableBalance_eq_true_iff :
    isProvableBalance config consensus keyAddedBalanceWei balanceGwei exitEpoch = true ↔
      confirmedBalanceGwei consensus keyAddedBalanceWei <
          reportableMaxGwei config consensus ∧
        confirmedBalanceGwei consensus keyAddedBalanceWei < balanceGwei ∧
        (confirmedBalanceGwei consensus keyAddedBalanceWei +
              config.balanceProofMinDeltaGwei < balanceGwei ∨
          exitEpoch ≠ some ⊤ ∨
          reportableMaxGwei config consensus ≤ balanceGwei) := by
  simp only [isProvableBalance, reportableMaxGwei, confirmedBalanceGwei]
  split
  · constructor
    · intro impossible
      cases impossible
    · rintro ⟨below, _⟩
      omega
  · split
    · constructor
      · intro impossible
        cases impossible
      · rintro ⟨_, above, _⟩
        omega
    · next limit balance =>
      simp only [Bool.or_eq_true, decide_eq_true_eq, or_assoc]
      constructor
      · rintro (gained | exiting | full)
        · exact ⟨by omega, by omega, .inl (by omega)⟩
        · exact ⟨by omega, by omega, .inr (.inl exiting)⟩
        · exact ⟨by omega, by omega, .inr (.inr (by omega))⟩
      · rintro ⟨_, _, gained | exiting | full⟩
        · exact .inl (by omega)
        · exact .inr (.inl exiting)
        · exact .inr (.inr (by omega))

/-- Nothing is provable once the confirmed balance is at the maximum or at the balance. -/
theorem not_provable
    (reached :
      reportableMaxGwei config consensus ≤
          confirmedBalanceGwei consensus keyAddedBalanceWei ∨
        balanceGwei ≤ confirmedBalanceGwei consensus keyAddedBalanceWei) :
    isProvableBalance config consensus keyAddedBalanceWei balanceGwei exitEpoch =
      false := by
  rw [Bool.eq_false_iff]
  intro provable
  obtain ⟨below, above, _⟩ := isProvableBalance_eq_true_iff.mp provable
  omega

end Limits

/-! ## Observed balances -/

/-- One look at a key: its validator's balance and exit epoch, and how a report would end. -/
structure Observation where
  balance : Nat
  exitEpoch : EpochInf
  succeeds : Bool
  deriving DecidableEq

section Run

variable (config : Config) (consensus : Consensus)

/-- The added balance the contract stores after a report of a balance. -/
def addedByReport (balanceGwei : Nat) : Nat :=
  (min balanceGwei consensus.beaconConfig.maxEffectiveBalanceElectra -
    consensus.beaconConfig.minActivationBalance) * 1000000000

/-- The observed balance is provable, and its report succeeds. -/
def isReported (keyAddedBalanceWei : Nat) (observation : Observation) : Bool :=
  isProvableBalance config consensus keyAddedBalanceWei observation.balance
      (some observation.exitEpoch) &&
    observation.succeeds

def observe (keyAddedBalanceWei : Nat) (observation : Observation) : Nat :=
  if isReported config consensus keyAddedBalanceWei observation then
    addedByReport consensus observation.balance
  else
    keyAddedBalanceWei

/-- The added balance after a sequence of observations. -/
def addedAfter (keyAddedBalanceWei : Nat) (observations : List Observation) : Nat :=
  observations.foldl (observe config consensus) keyAddedBalanceWei

theorem addedAfter_append
    (keyAddedBalanceWei : Nat)
    (earlier later : List Observation) :
    addedAfter config consensus keyAddedBalanceWei (earlier ++ later) =
      addedAfter config consensus
        (addedAfter config consensus keyAddedBalanceWei earlier) later :=
  List.foldl_append

theorem addedAfter_cons
    (keyAddedBalanceWei : Nat)
    (observation : Observation)
    (later : List Observation) :
    addedAfter config consensus keyAddedBalanceWei (observation :: later) =
      addedAfter config consensus
        (observe config consensus keyAddedBalanceWei observation) later :=
  rfl

/-- The observations of a sequence that are reported. -/
def reports (keyAddedBalanceWei : Nat) : List Observation → List Observation
  | [] => []
  | observation :: rest =>
      let later := reports (observe config consensus keyAddedBalanceWei observation) rest
      if isReported config consensus keyAddedBalanceWei observation then
        observation :: later
      else
        later

end Run

/-! ## One report -/

section Step

variable {config : Config} {consensus : Consensus} {keyAddedBalanceWei : Nat}
variable {observation : Observation}

/-- A reported balance is above the activation balance, and so is the maximum. -/
theorem confirmed_of_report
    (reported : isReported config consensus keyAddedBalanceWei observation = true) :
    confirmedBalanceGwei consensus
        (observe config consensus keyAddedBalanceWei observation) =
      min (observation.balance : Int)
        consensus.beaconConfig.maxEffectiveBalanceElectra := by
  have provable := (Bool.and_eq_true_iff.mp reported).1
  obtain ⟨below, above, _⟩ := isProvableBalance_eq_true_iff.mp provable
  unfold observe
  rw [if_pos reported]
  unfold reportableMaxGwei at below
  unfold confirmedBalanceGwei addedByReport at *
  rw [Nat.mul_div_cancel _ (by decide)]
  omega

/-- A report of a validator that does not exit gains the delta or reaches the maximum. -/
theorem report_gains
    (reported : isReported config consensus keyAddedBalanceWei observation = true)
    (staying : observation.exitEpoch = ⊤) :
    confirmedBalanceGwei consensus keyAddedBalanceWei + config.balanceProofMinDeltaGwei <
        confirmedBalanceGwei consensus
          (observe config consensus keyAddedBalanceWei observation) ∨
      reportableMaxGwei config consensus ≤
        confirmedBalanceGwei consensus
          (observe config consensus keyAddedBalanceWei observation) := by
  have provable := (Bool.and_eq_true_iff.mp reported).1
  obtain ⟨below, above, gained | exiting | full⟩ :=
    isProvableBalance_eq_true_iff.mp provable
  · rw [confirmed_of_report reported]
    unfold reportableMaxGwei
    omega
  · rw [staying] at exiting
    exact absurd rfl exiting
  · rw [confirmed_of_report reported]
    unfold reportableMaxGwei at full ⊢
    omega

/-- No observation lowers the confirmed balance. -/
theorem confirmed_le_observe
    (config : Config)
    (keyAddedBalanceWei : Nat)
    (observation : Observation) :
    confirmedBalanceGwei consensus keyAddedBalanceWei ≤
      confirmedBalanceGwei consensus
        (observe config consensus keyAddedBalanceWei observation) := by
  by_cases reported : isReported config consensus keyAddedBalanceWei observation = true
  · have provable := (Bool.and_eq_true_iff.mp reported).1
    obtain ⟨below, above, _⟩ := isProvableBalance_eq_true_iff.mp provable
    rw [confirmed_of_report reported]
    unfold reportableMaxGwei at below
    omega
  · unfold observe
    rw [if_neg reported]

end Step

/-! ## Sequences of reports -/

section Sequence

variable {config : Config} {consensus : Consensus}

theorem confirmed_le_addedAfter
    (keyAddedBalanceWei : Nat)
    (observations : List Observation) :
    confirmedBalanceGwei consensus keyAddedBalanceWei ≤
      confirmedBalanceGwei consensus
        (addedAfter config consensus keyAddedBalanceWei observations) := by
  induction observations generalizing keyAddedBalanceWei with
  | nil =>
      exact le_refl _
  | cons observation rest inductionHypothesis =>
      exact (confirmed_le_observe config keyAddedBalanceWei observation).trans
        (inductionHypothesis _)

/-- At the reportable maximum nothing is reported any more. -/
theorem reports_eq_nil
    {keyAddedBalanceWei : Nat}
    (full :
      reportableMaxGwei config consensus ≤
        confirmedBalanceGwei consensus keyAddedBalanceWei)
    (observations : List Observation) :
    reports config consensus keyAddedBalanceWei observations = [] := by
  induction observations generalizing keyAddedBalanceWei with
  | nil =>
      rfl
  | cons observation rest inductionHypothesis =>
      have unreported :
          isReported config consensus keyAddedBalanceWei observation = false := by
        rw [isReported, not_provable (.inl full), Bool.false_and]
      have later := inductionHypothesis (full.trans (confirmed_le_observe config _ observation))
      simp only [reports, unreported, later]
      rfl

/-- The reports of a sequence made while the validator does not exit. -/
def stayingReports (config : Config) (consensus : Consensus) (keyAddedBalanceWei : Nat)
    (observations : List Observation) : List Observation :=
  (reports config consensus keyAddedBalanceWei observations).filter fun observation =>
    observation.exitEpoch = ⊤

theorem stayingReports_cons
    (keyAddedBalanceWei : Nat)
    (observation : Observation)
    (rest : List Observation) :
    stayingReports config consensus keyAddedBalanceWei (observation :: rest) =
      if isReported config consensus keyAddedBalanceWei observation = true ∧
          observation.exitEpoch = ⊤ then
        observation ::
          stayingReports config consensus
            (observe config consensus keyAddedBalanceWei observation) rest
      else
        stayingReports config consensus
          (observe config consensus keyAddedBalanceWei observation) rest := by
  unfold stayingReports
  rw [reports]
  by_cases reported : isReported config consensus keyAddedBalanceWei observation = true
  · by_cases staying : observation.exitEpoch = ⊤
    · simp [reported, staying]
    · simp [reported, staying]
  · simp [reported]

/--
All but one of these reports fit between the confirmed balance and the reportable
maximum.  A report either pays for itself with the delta it gains or is the last one.
-/
theorem stayingReports_fit
    (keyAddedBalanceWei : Nat)
    (observations : List Observation) :
    stayingReports config consensus keyAddedBalanceWei observations = [] ∨
      ((stayingReports config consensus keyAddedBalanceWei observations).length - 1 : Int) *
          config.balanceProofMinDeltaGwei <
        reportableMaxGwei config consensus -
          confirmedBalanceGwei consensus keyAddedBalanceWei := by
  induction observations generalizing keyAddedBalanceWei with
  | nil =>
      exact .inl rfl
  | cons observation rest inductionHypothesis =>
      have later :=
        inductionHypothesis (observe config consensus keyAddedBalanceWei observation)
      rw [stayingReports_cons]
      split
      · next reportedStaying =>
        obtain ⟨reported, staying⟩ := reportedStaying
        have below :=
          (isProvableBalance_eq_true_iff.mp (Bool.and_eq_true_iff.mp reported).1).1
        refine .inr ?_
        rw [List.length_cons]
        rcases later with noMore | fits
        · rw [noMore]
          simp only [List.length_nil]
          omega
        · rcases report_gains reported staying with gained | full
          · push_cast
            linarith
          · rw [stayingReports, reports_eq_nil full]
            simp only [List.filter_nil, List.length_nil]
            omega
      · rcases later with noMore | fits
        · exact .inl noMore
        · have rises := @confirmed_le_observe consensus config keyAddedBalanceWei observation
          exact .inr (by omega)

end Sequence

/-- Each report of a staying validator takes its share of the room below the maximum. -/
theorem length_stayingReports_le
    {config : Config}
    {consensus : Consensus}
    (minDelta : 1 ≤ config.balanceProofMinDeltaGwei)
    (keyAddedBalanceWei : Nat)
    (observations : List Observation) :
    (stayingReports config consensus keyAddedBalanceWei observations).length ≤
      ⌈(max 0
          (reportableMaxGwei config consensus -
            consensus.beaconConfig.minActivationBalance) : ℚ) /
        config.balanceProofMinDeltaGwei⌉₊ + 1 := by
  have positive : (0 : ℚ) < config.balanceProofMinDeltaGwei := by
    exact_mod_cast minDelta
  rcases @stayingReports_fit config consensus keyAddedBalanceWei observations with none | fits
  · rw [none]
    exact Nat.zero_le _
  · have confirmed :
        (consensus.beaconConfig.minActivationBalance : Int) ≤
          confirmedBalanceGwei consensus keyAddedBalanceWei := by
      unfold confirmedBalanceGwei
      omega
    have room :
        ((stayingReports config consensus keyAddedBalanceWei observations).length - 1 : Int) *
            config.balanceProofMinDeltaGwei <
          reportableMaxGwei config consensus -
            consensus.beaconConfig.minActivationBalance := by
      omega
    have roomRat :
        ((stayingReports config consensus keyAddedBalanceWei observations).length - 1 : ℚ) *
            config.balanceProofMinDeltaGwei ≤
          max 0
            (reportableMaxGwei config consensus -
              consensus.beaconConfig.minActivationBalance : ℚ) := by
      apply le_max_of_le_right
      exact_mod_cast room.le
    have quotient := (le_div_iff₀ positive).mpr roomRat
    have ceiling := quotient.trans (Nat.le_ceil _)
    have asRat :
        ((stayingReports config consensus keyAddedBalanceWei observations).length : ℚ) ≤
          (⌈(max 0
              (reportableMaxGwei config consensus -
                consensus.beaconConfig.minActivationBalance) : ℚ) /
            config.balanceProofMinDeltaGwei⌉₊ : ℚ) + 1 := by
      linarith
    exact_mod_cast asRat

/--
Reports of one key come to an end.  After a report nothing up to the reported
balance is provable; a report of a validator that does not exit gains more than the
delta or reaches the maximum, where nothing is provable; and so there are at most
`⌈(reportable maximum - activation balance) / delta⌉ + 1` of them.
-/
theorem reports_extinguish
    (config : Config)
    (consensus : Consensus)
    (minDelta : 1 ≤ config.balanceProofMinDeltaGwei)
    (keyAddedBalanceWei : Nat) :
    (∀ earlier observation later,
      isReported config consensus
          (addedAfter config consensus keyAddedBalanceWei earlier) observation = true →
      ∀ balance ≤ observation.balance, ∀ exitEpoch,
        isProvableBalance config consensus
            (addedAfter config consensus keyAddedBalanceWei
              (earlier ++ observation :: later))
            balance exitEpoch =
          false) ∧
    (∀ earlier observation,
      isReported config consensus
          (addedAfter config consensus keyAddedBalanceWei earlier) observation = true →
      observation.exitEpoch = ⊤ →
      let before := addedAfter config consensus keyAddedBalanceWei earlier
      let after := addedAfter config consensus keyAddedBalanceWei (earlier ++ [observation])
      confirmedBalanceGwei consensus before + config.balanceProofMinDeltaGwei <
          confirmedBalanceGwei consensus after ∨
        reportableMaxGwei config consensus ≤ confirmedBalanceGwei consensus after) ∧
    (∀ earlier later,
      reportableMaxGwei config consensus ≤
        confirmedBalanceGwei consensus
          (addedAfter config consensus keyAddedBalanceWei earlier) →
      ∀ balance exitEpoch,
        isProvableBalance config consensus
            (addedAfter config consensus keyAddedBalanceWei (earlier ++ later))
            balance exitEpoch =
          false) ∧
    ∀ observations,
      (stayingReports config consensus keyAddedBalanceWei observations).length ≤
        ⌈(max 0
            (reportableMaxGwei config consensus -
              consensus.beaconConfig.minActivationBalance) : ℚ) /
          config.balanceProofMinDeltaGwei⌉₊ + 1 := by
  refine ⟨?silenced, ?gains, ?ended, ?bounded⟩
  case silenced =>
    intro earlier observation later reported balance small exitEpoch
    apply not_provable
    have confirmed := confirmed_of_report reported
    have rises :=
      @confirmed_le_addedAfter config consensus
        (observe config consensus
          (addedAfter config consensus keyAddedBalanceWei earlier) observation) later
    rw [addedAfter_append, addedAfter_cons]
    unfold reportableMaxGwei
    omega
  case gains =>
    intro earlier observation reported staying before after
    have joined : after = observe config consensus before observation :=
      addedAfter_append config consensus keyAddedBalanceWei earlier [observation]
    rw [joined]
    exact report_gains reported staying
  case ended =>
    intro earlier later full balance exitEpoch
    apply not_provable
    rw [addedAfter_append]
    exact .inl (full.trans (confirmed_le_addedAfter _ later))
  case bounded =>
    exact length_stayingReports_le minDelta keyAddedBalanceWei

/-- A validator that is topped up to 1000 ETH, and then to 1100 ETH while it exits. -/
def sampleObservations : List Observation :=
  [{ balance := 1000 * 10 ^ 9, exitEpoch := ⊤, succeeds := true },
    { balance := 1100 * 10 ^ 9, exitEpoch := 7, succeeds := true }]

theorem reports_extinguish_sample :
    isReported (.defaults "0x01" 1) mainnetConsensus 0
        { balance := 1000 * 10 ^ 9, exitEpoch := ⊤, succeeds := true } = true ∧
      (∀ exitEpoch,
        isProvableBalance (.defaults "0x01" 1) mainnetConsensus
            (addedAfter (.defaults "0x01" 1) mainnetConsensus 0 sampleObservations)
            (1000 * 10 ^ 9) exitEpoch =
          false) := by
  have reported :
      isReported (.defaults "0x01" 1) mainnetConsensus 0
        { balance := 1000 * 10 ^ 9, exitEpoch := ⊤, succeeds := true } = true := by
    decide +kernel
  have extinguish :=
    reports_extinguish (.defaults "0x01" 1) mainnetConsensus (by decide) 0
  exact ⟨reported, extinguish.1 [] _ _ reported (1000 * 10 ^ 9) (Nat.le_refl _)⟩

end Balances

end CsmProver
