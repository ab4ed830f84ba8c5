import CsmProver.DutySelection

namespace CsmProver

/-!
# The keys a duty still has to prove

The contract is asked about the selected keys one after the other while other
proofs are mined.  A flag is never taken back, so the keys the duty keeps lie
between those without a flag at its end and those without one at its start.
-/

open Async

namespace UnprovenKeys

/-- Proofs may be mined meanwhile; no flag is taken back. -/
def FlagsKept (world moved : World) : Prop :=
  ∀ kind key,
    world.stakingModule.proved kind key = true →
    moved.stakingModule.proved kind key = true

/-- Doing nothing keeps the flags. -/
theorem FlagsKept.refl
    (world : World) :
    FlagsKept world world :=
  fun _ _ => id

/-- Keeping the flags twice keeps them. -/
theorem FlagsKept.trans
    {world moved final : World}
    (earlier : FlagsKept world moved)
    (later : FlagsKept moved final) :
    FlagsKept world final :=
  fun kind key flag => later kind key (earlier kind key flag)

/-- The others keep the flags; nothing is asked of a duty that is suspended or fails. -/
def protocol : Protocol World where
  rely := FlagsKept
  suspended := fun _ => True
  aborted := fun _ _ => True

/-- So the protocol is stable. -/
theorem protocol_stable :
    protocol.Stable where
  refl := FlagsKept.refl
  trans := FlagsKept.trans
  suspended := fun _ _ => trivial
  aborted := fun _ _ => trivial

section Filter

variable {ν : Type}

/-- The entries kept between two states of the contract. -/
structure Unproven (kind : ProofKind) (keyOf : ν → KeyInfo) (entries : List (Nat × ν))
    (world : World) (unproven : List (Nat × ν)) (final : World) : Prop where
  flags : FlagsKept world final
  sublist : unproven.Sublist entries
  fresh :
    ∀ entry ∈ unproven, world.stakingModule.proved kind (keyOf entry.2).id = false
  covered :
    ∀ entry ∈ entries,
      entry ∈ unproven ∨ final.stakingModule.proved kind (keyOf entry.2).id = true

variable {kind : ProofKind} {keyOf : ν → KeyInfo} {world : World}

/-- Asked one after the other, the entries kept lie between the two states. -/
theorem filterUnproven_spec
    (entries : List (Nat × ν)) :
    wp protocol (Unproven kind keyOf entries world)
      (filterUnproven kind keyOf entries) world := by
  induction entries generalizing world with
  | nil =>
      exact
        { flags := FlagsKept.refl world
          sublist := List.Sublist.refl []
          fresh := by simp
          covered := by simp }
  | cons entry rest inductionHypothesis =>
      simp only [filterUnproven, wp_bind, wp_settle, wp_read]
      refine ⟨trivial, fun asked asking => ⟨?_, trivial⟩⟩
      apply wp_mono inductionHypothesis
      intro unproven final kept
      have freshBefore :
          ∀ other ∈ unproven,
            world.stakingModule.proved kind (keyOf other.2).id = false := by
        intro other member
        rw [Bool.eq_false_iff]
        intro flag
        have flagLater := asking kind _ flag
        rw [kept.fresh other member] at flagLater
        cases flagLater
      by_cases flag : asked.stakingModule.proved kind (keyOf entry.2).id = true
      · simp only [flag, if_true]
        refine ⟨asking.trans kept.flags, kept.sublist.cons _, freshBefore, ?_⟩
        intro other member
        rcases List.mem_cons.mp member with rfl | inRest
        · exact .inr (kept.flags _ _ flag)
        · exact kept.covered other inRest
      · simp only [flag]
        have unflagged : world.stakingModule.proved kind (keyOf entry.2).id = false := by
          rw [Bool.eq_false_iff]
          exact fun before => flag (asking kind _ before)
        refine ⟨asking.trans kept.flags, kept.sublist.cons_cons _, ?_, ?_⟩
        · intro other member
          rcases List.mem_cons.mp member with rfl | inRest
          · exact unflagged
          · exact freshBefore other inRest
        · intro other member
          rcases List.mem_cons.mp member with rfl | inRest
          · exact .inl (by simp)
          · rcases kept.covered other inRest with unproven | proved
            · exact .inl (List.mem_cons_of_mem _ unproven)
            · exact .inr proved

/-- Undisturbed, the duty keeps exactly the entries without a flag. -/
theorem finish_filterUnproven
    (entries : List (Nat × ν)) :
    finish (filterUnproven kind keyOf entries) world =
      (.ok
        (entries.filter fun entry =>
          !world.stakingModule.proved kind (keyOf entry.2).id),
        world) := by
  induction entries with
  | nil =>
      rfl
  | cons entry rest inductionHypothesis =>
      simp only [filterUnproven, finish_bind, finish_settle, finish_read,
        inductionHypothesis]
      cases flag : world.stakingModule.proved kind (keyOf entry.2).id with
      | true => simp [flag]
      | false => simp [flag]

/-- What both `getUnproven` functions do with the keys they have collected. -/
def filterLookedUp (kind : ProofKind) (keyInfoFn : KeyInfoFn) (valIndices : List Nat)
    (keyOf : ν → KeyInfo) (entries : List (Nat × ν)) : Async World (List (Nat × ν)) := do
  noteLookups kind keyInfoFn valIndices
  if entries = [] then
    return []
  filterUnproven kind keyOf entries

variable {keyInfoFn : KeyInfoFn} {valIndices : List Nat} {entries : List (Nat × ν)}

/-- Whatever else is mined, the duty keeps entries between the two states. -/
theorem filterLookedUp_run
    {ι : Type}
    {act : ι → World → World}
    (flags : ∀ move state, FlagsKept state (act move state))
    {script : List (Beat ι)}
    {unproven : List (Nat × ν)}
    {final : World}
    (ran :
      run act (filterLookedUp kind keyInfoFn valIndices keyOf entries) script world =
        (.done unproven, final)) :
    Unproven kind keyOf entries world unproven final := by
  have holds :
      wp protocol (Unproven kind keyOf entries world)
        (filterLookedUp kind keyInfoFn valIndices keyOf entries) world := by
    unfold filterLookedUp noteLookups
    simp only [wp_bind, wp_modify]
    by_cases nobody : entries = []
    · subst nobody
      exact
        { flags := fun _ _ => id
          sublist := List.Sublist.refl []
          fresh := by simp
          covered := by simp }
    · simp only [nobody, if_false]
      apply wp_mono (filterUnproven_spec entries)
      intro unproven final kept
      exact
        { flags := kept.flags
          sublist := kept.sublist
          fresh := kept.fresh
          covered := kept.covered }
  have established := run_sound protocol_stable flags holds script
  rw [ran] at established
  exact established

/-- Undisturbed, exactly the entries without a flag are kept. -/
theorem finish_filterLookedUp :
    (finish (filterLookedUp kind keyInfoFn valIndices keyOf entries) world).1 =
      .ok
        (entries.filter fun entry =>
          !world.stakingModule.proved kind (keyOf entry.2).id) := by
  unfold filterLookedUp noteLookups
  simp only [finish_bind, finish_modify]
  by_cases nobody : entries = []
  · subst nobody
    rfl
  · simp only [nobody, if_false, finish_filterUnproven]

end Filter

end UnprovenKeys

/-! ## The two duties -/

section Duties

variable
  {ι : Type}
  {act : ι → World → World}
  {blockInfo : SupportedBlock}
  {keyInfoFn : KeyInfoFn}
  {world final : World}

/-- The slashings kept lie between the two states. -/
theorem Slashings.getUnprovenSlashings_run
    (flags : ∀ move state, UnprovenKeys.FlagsKept state (act move state))
    {script : List (Beat ι)}
    {unproven : List (Nat × KeyInfo)}
    (ran :
      run act (Slashings.getUnprovenSlashings blockInfo keyInfoFn) script world =
        (.done unproven, final)) :
    UnprovenKeys.Unproven .slashing id (Slashings.getSlashed blockInfo (keyInfoFn world))
      world unproven final :=
  UnprovenKeys.filterLookedUp_run flags ran

/-- Undisturbed, exactly the slashed keys without a flag are kept. -/
theorem Slashings.finish_getUnprovenSlashings :
    (finish (Slashings.getUnprovenSlashings blockInfo keyInfoFn) world).1 =
      .ok
        ((Slashings.getSlashed blockInfo (keyInfoFn world)).filter fun entry =>
          !world.stakingModule.proved .slashing entry.2.id) := by
  rw [Slashings.getUnprovenSlashings, finish_bind, finish_read]
  exact UnprovenKeys.finish_filterLookedUp

/-- The withdrawals kept lie between the two states. -/
theorem Withdrawals.getUnprovenWithdrawals_run
    (flags : ∀ move state, UnprovenKeys.FlagsKept state (act move state))
    {script : List (Beat ι)}
    {withdrawals : List (Nat × KeyWithWithdrawal)}
    (ran :
      run act (Withdrawals.getUnprovenWithdrawals blockInfo keyInfoFn) script world =
        (.done withdrawals, final)) :
    UnprovenKeys.Unproven .withdrawal (·.keyInfo)
      (Withdrawals.getFullWithdrawals (keyInfoFn world) blockInfo) world withdrawals
      final :=
  UnprovenKeys.filterLookedUp_run flags ran

end Duties

end CsmProver
