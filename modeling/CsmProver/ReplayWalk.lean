import Mathlib.Data.Set.Basic
import Mathlib.Tactic.Linarith

namespace CsmProver

/-!
# A walk with replays

A walker visits the positions of a track in increasing order and may leave some
of them on a stack.  A stacked position that is eligible is visited again before
the walker goes on, which moves it back.  A visited position leaves the stack
exactly when it is settled.

A position that is eligible but not settled is visited without end.  This module
says when that happens: the walker reaches the tip of the track exactly when no
such position is ahead of it.
-/

namespace ReplayWalk

/-- The positions of a walk, and what happens to a visited one. -/
structure Track where
  on : Nat → Prop
  first : Nat
  tip : Nat
  eligible : Nat → Prop
  settled : Nat → Prop
  onFirst : on first
  onTip : on tip
  first_le_tip : first ≤ tip
  settled_eligible : ∀ position, settled position → eligible position
  settled_lt :
    ∀ position stuck,
      settled position → eligible stuck → ¬ settled stuck → position < stuck

/-- Where the walker is and what it left on the stack. -/
structure State where
  last : Option Nat
  stacked : Set Nat

/-- The state after a visit: the position is stacked, and unstacked when settled. -/
def State.visit (track : Track) (state : State) (position : Nat) : State where
  last := some position
  stacked :=
    { other |
      (other ∈ state.stacked ∨ other = position) ∧
        ¬ (other = position ∧ track.settled position) }

/-- The position visited next: the first one, the lowest eligible stacked one, the next one. -/
inductive Next (track : Track) (state : State) : Nat → Prop where
  | first :
      state.last = none →
      Next track state track.first
  | replay {last position : Nat} :
      state.last = some last →
      position ∈ state.stacked →
      track.eligible position →
      (∀ other ∈ state.stacked, track.eligible other → position ≤ other) →
      Next track state position
  | forward {last position : Nat} :
      state.last = some last →
      (∀ other ∈ state.stacked, ¬ track.eligible other) →
      track.on position →
      last < position →
      position ≤ track.tip →
      (∀ other, track.on other → last < other → position ≤ other) →
      Next track state position

/-- The walker is at the tip and nothing on the stack calls it back. -/
def AtTip (track : Track) (state : State) : Prop :=
  state.last = some track.tip ∧ ∀ other ∈ state.stacked, ¬ track.eligible other

inductive Step (track : Track) (state : State) : State → Prop where
  | visit {position : Nat} :
      Next track state position →
      Step track state (state.visit track position)
  | rest :
      AtTip track state →
      Step track state state

/-- The walker and its stack are on the track, not beyond the tip. -/
structure Within (track : Track) (state : State) : Prop where
  last : ∀ last, state.last = some last → track.on last ∧ last ≤ track.tip
  stacked : ∀ other ∈ state.stacked, track.on other ∧ other ≤ track.tip

/-- A position that is visited again and again. -/
def Stuck (track : Track) (position : Nat) : Prop :=
  track.eligible position ∧ ¬ track.settled position

/-- The walker will come to the position, or come back to it. -/
def Ahead (track : Track) (state : State) (position : Nat) : Prop :=
  (state.last = none ∧ track.first ≤ position) ∨
    (∃ last, state.last = some last ∧ last < position) ∨
    ∃ replayed ∈ state.stacked, track.eligible replayed ∧ replayed ≤ position

/-- A stuck position is ahead. -/
def Blocked (track : Track) (state : State) : Prop :=
  ∃ position,
    Stuck track position ∧ track.on position ∧ position ≤ track.tip ∧
      Ahead track state position

/--
A walk that starts anew will be moved back behind its first position, and will
come to that position a second time.
-/
def Rewound (track : Track) (state : State) : Prop :=
  state.last = none ∧
    (∃ replayed ∈ state.stacked,
      track.eligible replayed ∧ replayed < track.first) ∧
    ∀ replayed ∈ state.stacked, track.eligible replayed → replayed ≤ track.first

section Steps

variable {track : Track} {state moved : State} {position : Nat}

/-- A position that is eligible on the stack after a visit was so before, or is stuck. -/
theorem eligible_after_visit
    {other : Nat}
    (stacked : other ∈ (state.visit track position).stacked)
    (eligible : track.eligible other) :
    (other ∈ state.stacked ∧ other ≠ position) ∨
      (other = position ∧ Stuck track position) := by
  obtain ⟨before, unsettled⟩ := stacked
  by_cases same : other = position
  · refine .inr ⟨same, same ▸ eligible, ?_⟩
    exact fun settled => unsettled ⟨same, settled⟩
  · exact .inl ⟨before.resolve_right same, same⟩

/-- What was stacked stays stacked unless it is visited and settled. -/
theorem stacked_after_visit
    {other : Nat}
    (stacked : other ∈ state.stacked ∨ other = position)
    (unsettled : other = position → ¬ track.settled position) :
    other ∈ (state.visit track position).stacked :=
  ⟨stacked, fun both => unsettled both.1 both.2⟩

/-- Only one position is next. -/
theorem Next.unique
    {other : Nat}
    (next : Next track state position)
    (alsoNext : Next track state other) :
    position = other := by
  cases next with
  | first fresh =>
      cases alsoNext with
      | first _ => rfl
      | replay isLast _ _ _ => cases fresh.symm.trans isLast
      | forward isLast _ _ _ _ _ => cases fresh.symm.trans isLast
  | replay isLast stacked eligible lowest =>
      cases alsoNext with
      | first fresh => cases fresh.symm.trans isLast
      | replay _ alsoStacked alsoEligible alsoLowest =>
          exact le_antisymm (lowest other alsoStacked alsoEligible)
            (alsoLowest position stacked eligible)
      | forward _ none _ _ _ _ => exact (none position stacked eligible).elim
  | forward isLast none on above _ least =>
      cases alsoNext with
      | first fresh => cases fresh.symm.trans isLast
      | replay _ stacked eligible _ => exact (none other stacked eligible).elim
      | forward alsoLast _ alsoOn alsoAbove _ alsoLeast =>
          obtain rfl := Option.some.inj (isLast.symm.trans alsoLast)
          exact le_antisymm (least other alsoOn alsoAbove)
            (alsoLeast position on above)

/-- At the tip no position is next. -/
theorem Next.not_atTip
    (next : Next track state position) :
    ¬ AtTip track state := by
  rintro ⟨atTip, none⟩
  cases next with
  | first fresh => cases fresh.symm.trans atTip
  | replay _ stacked eligible _ => exact none position stacked eligible
  | forward isLast _ _ above below _ =>
      obtain rfl := Option.some.inj (isLast.symm.trans atTip)
      omega

/-- A step visits the next position when there is one. -/
theorem Next.visited
    (next : Next track state position)
    (step : Step track state moved) :
    moved = state.visit track position := by
  cases step with
  | visit visited =>
      rw [next.unique visited]
  | rest atTip =>
      exact (next.not_atTip atTip).elim

/-- After a step the walk has a last position. -/
theorem Step.started
    (step : Step track state moved) :
    ∃ last, moved.last = some last := by
  cases step with
  | @visit position _ => exact ⟨position, rfl⟩
  | rest atTip => exact ⟨track.tip, atTip.1⟩

theorem Next.on
    (within : Within track state)
    (next : Next track state position) :
    track.on position ∧ position ≤ track.tip := by
  cases next with
  | first _ =>
      exact ⟨track.onFirst, track.first_le_tip⟩
  | replay _ stacked _ _ =>
      exact within.stacked _ stacked
  | forward _ _ on _ below _ =>
      exact ⟨on, below⟩

/-- A visited position was ahead. -/
theorem Next.ahead
    (next : Next track state position) :
    Ahead track state position := by
  cases next with
  | first fresh =>
      exact .inl ⟨fresh, le_rfl⟩
  | replay _ stacked eligible _ =>
      exact .inr (.inr ⟨position, stacked, eligible, le_rfl⟩)
  | forward isLast _ _ above _ _ =>
      exact .inr (.inl ⟨_, isLast, above⟩)

theorem Step.within
    (step : Step track state moved)
    (within : Within track state) :
    Within track moved := by
  cases step with
  | rest _ =>
      exact within
  | @visit position next =>
      have on := next.on within
      constructor
      · rintro last ⟨rfl⟩
        exact on
      · rintro other ⟨before, _⟩
        rcases before with stacked | rfl
        · exact within.stacked other stacked
        · exact on

/-! ## Blocked walks -/

/-- A position above what is ahead is ahead. -/
theorem Ahead.above
    {higher : Nat}
    (ahead : Ahead track state position)
    (above : position ≤ higher) :
    Ahead track state higher := by
  rcases ahead with ⟨fresh, below⟩ | ⟨last, isLast, below⟩ | ⟨replayed, stacked, eligible, below⟩
  · exact .inl ⟨fresh, below.trans above⟩
  · exact .inr (.inl ⟨last, isLast, below.trans_le above⟩)
  · exact .inr (.inr ⟨replayed, stacked, eligible, below.trans above⟩)

/-- A visit of a stuck position happens in a blocked walk and leaves it blocked. -/
theorem Next.blocked
    (within : Within track state)
    (next : Next track state position)
    (stuck : Stuck track position) :
    Blocked track state ∧ Blocked track (state.visit track position) := by
  obtain ⟨on, below⟩ := next.on within
  refine ⟨⟨position, stuck, on, below, next.ahead⟩, position, stuck, on, below, ?_⟩
  have stacked : position ∈ (state.visit track position).stacked :=
    stacked_after_visit (.inr rfl) fun _ => stuck.2
  exact .inr (.inr ⟨position, stacked, stuck.1, le_rfl⟩)

/-- Other visits do not get past a stuck position. -/
theorem Next.ahead_stuck
    {stuck : Nat}
    (next : Next track state position)
    (unstuck : ¬ Stuck track position)
    (isStuck : Stuck track stuck)
    (on : track.on stuck)
    (ahead : Ahead track state stuck) :
    Ahead track (state.visit track position) stuck := by
  have different : position ≠ stuck := by
    rintro rfl
    exact unstuck isStuck
  have passed (below : position ≤ stuck) :
      Ahead track (state.visit track position) stuck :=
    .inr (.inl ⟨position, rfl, by omega⟩)
  cases next with
  | first fresh =>
      rcases ahead with ⟨_, below⟩ | ⟨last, isLast, _⟩ | ⟨replayed, stacked, eligible, below⟩
      · exact passed below
      · rw [fresh] at isLast
        cases isLast
      · by_cases same : replayed = track.first
        · exact passed (same ▸ below)
        · have stays : replayed ∈ (state.visit track track.first).stacked :=
            stacked_after_visit (.inl stacked) fun again => (same again).elim
          exact .inr (.inr ⟨replayed, stays, eligible, below⟩)
  | replay _ _ eligible _ =>
      have settled : track.settled position := by
        by_contra unsettled
        exact unstuck ⟨eligible, unsettled⟩
      exact passed (track.settled_lt position stuck settled isStuck.1 isStuck.2).le
  | forward isLast none _ _ _ least =>
      rcases ahead with ⟨fresh, _⟩ | ⟨last, sameLast, below⟩ | ⟨replayed, stacked, eligible, _⟩
      · rw [isLast] at fresh
        cases fresh
      · obtain rfl := Option.some.inj (isLast.symm.trans sameLast)
        exact passed (least stuck on below)
      · exact (none replayed stacked eligible).elim

/-- A blocked walk stays blocked. -/
theorem Step.blocked
    (within : Within track state)
    (step : Step track state moved)
    (blocked : Blocked track state) :
    Blocked track moved := by
  cases step with
  | rest _ =>
      exact blocked
  | @visit position next =>
      by_cases stuck : Stuck track position
      · exact (next.blocked within stuck).2
      · obtain ⟨ahead, isStuck, on, below, isAhead⟩ := blocked
        exact ⟨ahead, isStuck, on, below, next.ahead_stuck stuck isStuck on isAhead⟩

/-- A blocked walk is not at the tip. -/
theorem Blocked.not_atTip
    (blocked : Blocked track state) :
    ¬ AtTip track state := by
  rintro ⟨atTip, none⟩
  obtain ⟨stuck, _, _, below, ahead⟩ := blocked
  rcases ahead with ⟨fresh, _⟩ | ⟨last, isLast, above⟩ | ⟨replayed, stacked, eligible, _⟩
  · rw [atTip] at fresh
    cases fresh
  · obtain rfl := Option.some.inj (atTip.symm.trans isLast)
    omega
  · exact none replayed stacked eligible

/-- A step blocks no walk. -/
theorem Step.unblocked
    (within : Within track state)
    (step : Step track state moved)
    (unblocked : ¬ Blocked track state) :
    ¬ Blocked track moved := by
  cases step with
  | rest _ =>
      exact unblocked
  | @visit position next =>
      have unstuck : ¬ Stuck track position := fun stuck =>
        unblocked (next.blocked within stuck).1
      rintro ⟨stuck, isStuck, on, below, ahead⟩
      have wasAhead : Ahead track state stuck := by
        rcases ahead with ⟨fresh, _⟩ | ⟨last, isLast, above⟩ | ⟨replayed, stacked, eligible, above⟩
        · cases fresh
        · obtain rfl : position = last := Option.some.inj isLast
          exact next.ahead.above above.le
        · rcases eligible_after_visit stacked eligible with ⟨before, _⟩ | ⟨_, nowStuck⟩
          · exact .inr (.inr ⟨replayed, before, eligible, above⟩)
          · exact (unstuck nowStuck).elim
      exact unblocked ⟨stuck, isStuck, on, below, wasAhead⟩

/-! ## Walking forward -/

/-- Everything that calls the walker back is in front of it. -/
def Forward (track : Track) (last : Nat) (state : State) : Prop :=
  state.last = some last ∧
    ∀ other ∈ state.stacked, track.eligible other → last < other

/-- In a forward walk the next position is higher than the last one. -/
theorem Forward.lt_next
    {last : Nat}
    (forward : Forward track last state)
    (next : Next track state position) :
    last < position := by
  obtain ⟨isLast, inFront⟩ := forward
  cases next with
  | first fresh =>
      rw [isLast] at fresh
      cases fresh
  | replay _ stacked eligible _ =>
      exact inFront position stacked eligible
  | forward sameLast _ _ above _ _ =>
      obtain rfl := Option.some.inj (isLast.symm.trans sameLast)
      exact above

/-- Once it has started, an unblocked walk goes forward after its next visit. -/
theorem Next.forward_of_unblocked
    (within : Within track state)
    (unblocked : ¬ Blocked track state)
    {last : Nat}
    (isLast : state.last = some last)
    (next : Next track state position) :
    Forward track position (state.visit track position) := by
  refine ⟨rfl, fun other stacked eligible => ?_⟩
  rcases eligible_after_visit stacked eligible with ⟨before, different⟩ | ⟨_, stuck⟩
  · cases next with
    | first fresh =>
        rw [isLast] at fresh
        cases fresh
    | replay _ _ _ lowest =>
        have least := lowest other before eligible
        omega
    | forward _ none _ _ _ _ =>
        exact (none other before eligible).elim
  · exact (unblocked (next.blocked within stuck).1).elim

/-- A forward walk stays forward. -/
theorem Forward.step
    {last : Nat}
    (within : Within track state)
    (unblocked : ¬ Blocked track state)
    (forward : Forward track last state)
    (step : Step track state moved) :
    ∃ higher, last ≤ higher ∧ Forward track higher moved := by
  cases step with
  | rest _ =>
      exact ⟨last, le_rfl, forward⟩
  | visit next =>
      exact ⟨_, (forward.lt_next next).le,
        next.forward_of_unblocked within unblocked forward.1⟩

end Steps

/-! ## Walks without end -/

section Walks

variable {track : Track} {states : Nat → State}

/-- A walk: every state is one step after the state before it. -/
def Walk (track : Track) (states : Nat → State) : Prop :=
  ∀ time, Step track (states time) (states (time + 1))

/-- The walk comes to the tip with nothing left that calls it back. -/
def Reaches (track : Track) (states : Nat → State) : Prop :=
  ∃ time, AtTip track (states time)

/-- A visited position is not visited again. -/
def VisitsOnce (track : Track) (states : Nat → State) : Prop :=
  ∀ earlier later position,
    earlier < later →
    Next track (states earlier) position →
    ¬ Next track (states later) position

theorem Walk.within
    (walk : Walk track states)
    (within : Within track (states 0))
    (time : Nat) :
    Within track (states time) := by
  induction time with
  | zero =>
      exact within
  | succ time inductionHypothesis =>
      exact (walk time).within inductionHypothesis

theorem Walk.unblocked
    (walk : Walk track states)
    (within : Within track (states 0))
    (unblocked : ¬ Blocked track (states 0))
    (time : Nat) :
    ¬ Blocked track (states time) := by
  induction time with
  | zero =>
      exact unblocked
  | succ time inductionHypothesis =>
      exact (walk time).unblocked (walk.within within time) inductionHypothesis

theorem Walk.blocked
    (walk : Walk track states)
    (within : Within track (states 0))
    (blocked : Blocked track (states 0))
    (time : Nat) :
    Blocked track (states time) := by
  induction time with
  | zero =>
      exact blocked
  | succ time inductionHypothesis =>
      exact (walk time).blocked (walk.within within time) inductionHypothesis

/-- A forward walk stays forward for good. -/
theorem Walk.forward
    (walk : Walk track states)
    (within : Within track (states 0))
    (unblocked : ¬ Blocked track (states 0))
    {earlier later last : Nat}
    (forward : Forward track last (states earlier))
    (order : earlier ≤ later) :
    ∃ higher, last ≤ higher ∧ Forward track higher (states later) := by
  induction later, order using Nat.le_induction with
  | base =>
      exact ⟨last, le_rfl, forward⟩
  | succ time _ inductionHypothesis =>
      obtain ⟨middle, above, middleForward⟩ := inductionHypothesis
      obtain ⟨higher, higherAbove, higherForward⟩ :=
        middleForward.step (walk.within within time)
          (walk.unblocked within unblocked time) (walk time)
      exact ⟨higher, above.trans higherAbove, higherForward⟩

/-- A forward walk reaches the tip: every step takes it closer. -/
theorem Walk.reaches_of_forward
    (walk : Walk track states)
    (within : Within track (states 0))
    (unblocked : ¬ Blocked track (states 0))
    {time last : Nat}
    (forward : Forward track last (states time)) :
    Reaches track states := by
  induction distance : track.tip - last using Nat.strong_induction_on
    generalizing time last with
  | h distance inductionHypothesis =>
      subst distance
      have timeWithin := walk.within within time
      generalize movedIs : states (time + 1) = moved
      have step := walk time
      rw [movedIs] at step
      cases step with
      | rest atTip =>
          exact ⟨time, atTip⟩
      | visit next =>
          have above := forward.lt_next next
          have below := (next.on timeWithin).2
          have nextForward :=
            next.forward_of_unblocked timeWithin (walk.unblocked within unblocked time)
              forward.1
          rw [← movedIs] at nextForward
          exact inductionHypothesis _ (by omega) nextForward rfl

/-- A walk that is not blocked reaches the tip. -/
theorem Walk.reaches
    (walk : Walk track states)
    (within : Within track (states 0))
    (unblocked : ¬ Blocked track (states 0)) :
    Reaches track states := by
  obtain ⟨last, isLast⟩ := (walk 0).started
  generalize movedIs : states 2 = moved
  have step := walk 1
  rw [movedIs] at step
  cases step with
  | rest atTip =>
      exact ⟨1, atTip⟩
  | visit next =>
      have forward :=
        next.forward_of_unblocked (walk.within within 1)
          (walk.unblocked within unblocked 1) isLast
      rw [← movedIs] at forward
      exact walk.reaches_of_forward within unblocked forward

/-! ## Visiting once -/

/-- What a started walk visits it does not visit again. -/
theorem Walk.not_again
    (walk : Walk track states)
    (within : Within track (states 0))
    (unblocked : ¬ Blocked track (states 0))
    {earlier later position last : Nat}
    (isLast : (states earlier).last = some last)
    (order : earlier < later)
    (next : Next track (states earlier) position) :
    ¬ Next track (states later) position := by
  intro again
  have forward :=
    next.forward_of_unblocked (walk.within within earlier)
      (walk.unblocked within unblocked earlier) isLast
  rw [← next.visited (walk earlier)] at forward
  obtain ⟨higher, above, laterForward⟩ :=
    walk.forward within unblocked forward order
  have beyond := laterForward.lt_next again
  omega

/-- The walk will not come to the first position again. -/
def Beyond (track : Track) (state : State) : Prop :=
  (∃ other ∈ state.stacked, track.eligible other ∧ track.first < other) ∨
    ∃ last, track.first ≤ last ∧ Forward track last state

theorem Beyond.step
    {state moved : State}
    (within : Within track state)
    (unblocked : ¬ Blocked track state)
    {last : Nat}
    (isLast : state.last = some last)
    (beyond : Beyond track state)
    (step : Step track state moved) :
    Beyond track moved := by
  rcases beyond with ⟨other, stacked, eligible, above⟩ | ⟨last, above, forward⟩
  · cases step with
    | rest _ =>
        exact .inl ⟨other, stacked, eligible, above⟩
    | @visit position next =>
        by_cases same : other = position
        · subst same
          exact .inr ⟨other, above.le,
            next.forward_of_unblocked within unblocked isLast⟩
        · have stays : other ∈ (state.visit track position).stacked :=
            stacked_after_visit (.inl stacked) fun again => (same again).elim
          exact .inl ⟨other, stays, eligible, above⟩
  · obtain ⟨higher, higherAbove, higherForward⟩ :=
      forward.step within unblocked step
    exact .inr ⟨higher, above.trans higherAbove, higherForward⟩

/-- Beyond the first position and without it on the stack, it is not next. -/
theorem Beyond.not_next
    {state : State}
    (beyond : Beyond track state)
    {last : Nat}
    (isLast : state.last = some last)
    (unstacked : track.first ∈ state.stacked → ¬ track.eligible track.first) :
    ¬ Next track state track.first := by
  intro next
  rcases beyond with ⟨other, stacked, eligible, above⟩ | ⟨_, above, forward⟩
  · generalize positionIs : track.first = position at next
    cases next with
    | first fresh => cases isLast.symm.trans fresh
    | replay _ firstStacked firstEligible _ =>
        subst positionIs
        exact unstacked firstStacked firstEligible
    | forward _ none _ _ _ _ => exact none other stacked eligible
  · have beyondLast := forward.lt_next next
    omega

/-- The first position leaves what calls the walker back. -/
theorem first_unstacked
    {state moved : State}
    (within : Within track state)
    (unblocked : ¬ Blocked track state)
    (step : Step track state moved)
    (unstacked : track.first ∈ state.stacked → ¬ track.eligible track.first) :
    track.first ∈ moved.stacked → ¬ track.eligible track.first := by
  cases step with
  | rest _ =>
      exact unstacked
  | visit next =>
      intro stacked eligible
      rcases eligible_after_visit stacked eligible with ⟨before, _⟩ | ⟨_, stuck⟩
      · exact unstacked before eligible
      · exact unblocked (next.blocked within stuck).1

/-- A walk that starts anew visits its first position again only when it is rewound. -/
theorem Walk.first_not_again
    (walk : Walk track states)
    (within : Within track (states 0))
    (unblocked : ¬ Blocked track (states 0))
    (fresh : (states 0).last = none)
    (unrewound : ¬ Rewound track (states 0))
    (later : Nat)
    (order : 0 < later) :
    ¬ Next track (states later) track.first := by
  have started : states 1 = (states 0).visit track track.first :=
    (Next.first fresh).visited (walk 0)
  have unstuck : ¬ Stuck track track.first := fun stuck =>
    unblocked ((Next.first fresh).blocked within stuck).1
  have holds :
      Beyond track (states later) ∧
        (track.first ∈ (states later).stacked → ¬ track.eligible track.first) := by
    induction later, order using Nat.le_induction with
    | base =>
        rw [started]
        refine ⟨?_, fun stacked eligible => ?_⟩
        · by_cases higher :
            ∃ other ∈ (states 0).stacked, track.eligible other ∧ track.first < other
          · obtain ⟨other, stacked, eligible, above⟩ := higher
            have stays : other ∈ ((states 0).visit track track.first).stacked :=
              stacked_after_visit (.inl stacked) fun same => by omega
            exact .inl ⟨other, stays, eligible, above⟩
          · have notHigher :
                ∀ other ∈ (states 0).stacked,
                  track.eligible other → other ≤ track.first := by
              intro other stacked eligible
              by_contra above
              exact higher ⟨other, stacked, eligible, by omega⟩
            refine .inr ⟨track.first, le_rfl, rfl, fun other stacked eligible => ?_⟩
            rcases eligible_after_visit stacked eligible with ⟨before, different⟩ | ⟨_, stuck⟩
            · by_contra notAbove
              exact unrewound
                ⟨fresh, ⟨other, before, eligible, by omega⟩, notHigher⟩
            · exact (unstuck stuck).elim
        · rcases eligible_after_visit stacked eligible with ⟨_, different⟩ | ⟨_, stuck⟩
          · exact different rfl
          · exact unstuck stuck
    | succ time positive inductionHypothesis =>
        obtain ⟨before, rfl⟩ := Nat.exists_eq_add_of_lt positive
        obtain ⟨last, isLast⟩ := (walk (0 + before)).started
        have timeWithin := walk.within within (0 + before + 1)
        have timeUnblocked := walk.unblocked within unblocked (0 + before + 1)
        exact ⟨inductionHypothesis.1.step timeWithin timeUnblocked isLast (walk _),
          first_unstacked timeWithin timeUnblocked (walk _) inductionHypothesis.2⟩
  obtain ⟨before, rfl⟩ := Nat.exists_eq_add_of_lt order
  obtain ⟨last, isLast⟩ := (walk (0 + before)).started
  exact holds.1.not_next isLast holds.2

/-- What calls the walker back lies below the first position. -/
def Below (track : Track) (state : State) : Prop :=
  ∀ other ∈ state.stacked, track.eligible other → other < track.first

theorem Below.visit
    {state : State}
    {position : Nat}
    (below : Below track state)
    (unstuck : ¬ Stuck track position) :
    Below track (state.visit track position) := by
  intro other stacked eligible
  rcases eligible_after_visit stacked eligible with ⟨before, _⟩ | ⟨_, stuck⟩
  · exact below other before eligible
  · exact (unstuck stuck).elim

/-- From below, a step comes to the first position or stays below. -/
theorem Below.step
    {state moved : State}
    (within : Within track state)
    (unblocked : ¬ Blocked track state)
    {last : Nat}
    (isLast : state.last = some last)
    (lower : last < track.first)
    (below : Below track state)
    (step : Step track state moved) :
    Next track state track.first ∨
      ∃ next, moved.last = some next ∧ next < track.first ∧ Below track moved := by
  cases step with
  | rest _ =>
      exact .inr ⟨last, isLast, lower, below⟩
  | @visit position next =>
      by_cases same : position = track.first
      · exact .inl (same ▸ next)
      · refine .inr ⟨position, rfl, ?_, below.visit fun stuck =>
          unblocked (next.blocked within stuck).1⟩
        cases next with
        | first fresh =>
            cases fresh.symm.trans isLast
        | replay _ stacked eligible _ =>
            exact below position stacked eligible
        | forward sameLast _ _ _ _ least =>
            obtain rfl := Option.some.inj (isLast.symm.trans sameLast)
            have atMost := least track.first track.onFirst lower
            omega

/-- A walk that is rewound and reaches the tip visits its first position again. -/
theorem Walk.first_again
    (walk : Walk track states)
    (within : Within track (states 0))
    (unblocked : ¬ Blocked track (states 0))
    (rewound : Rewound track (states 0))
    (reaches : Reaches track states) :
    ∃ later, 0 < later ∧ Next track (states later) track.first := by
  obtain ⟨fresh, ⟨replayed, stacked, eligible, lower⟩, notHigher⟩ := rewound
  have started : states 1 = (states 0).visit track track.first :=
    (Next.first fresh).visited (walk 0)
  have below : Below track (states 1) := by
    rw [started]
    intro other otherStacked otherEligible
    rcases eligible_after_visit otherStacked otherEligible with ⟨before, different⟩ | ⟨_, stuck⟩
    · have atMost := notHigher other before otherEligible
      omega
    · exact (unblocked ((Next.first fresh).blocked within stuck).1).elim
  have stays : replayed ∈ (states 1).stacked := by
    rw [started]
    exact stacked_after_visit (.inl stacked) fun same => by omega
  by_contra never
  have notAgain (later : Nat) (order : 0 < later) :
      ¬ Next track (states later) track.first :=
    fun again => never ⟨later, order, again⟩
  -- From its second step on the walk stays below the first position.
  have staysBelow (time : Nat) :
      ∃ last,
        (states (time + 2)).last = some last ∧ last < track.first ∧
          Below track (states (time + 2)) := by
    induction time with
    | zero =>
        generalize movedIs : states (0 + 2) = moved
        have step := walk 1
        rw [movedIs] at step
        cases step with
        | rest atTip =>
            exact (atTip.2 replayed stays eligible).elim
        | @visit position next =>
            refine ⟨position, rfl, ?_, below.visit fun stuck =>
              walk.unblocked within unblocked 1 (next.blocked (walk.within within 1) stuck).1⟩
            cases next with
            | first unstarted =>
                rw [started] at unstarted
                cases unstarted
            | replay _ otherStacked otherEligible _ =>
                exact below position otherStacked otherEligible
            | forward _ none _ _ _ _ =>
                exact (none replayed stays eligible).elim
    | succ time inductionHypothesis =>
        obtain ⟨last, isLast, lastLower, lastBelow⟩ := inductionHypothesis
        exact (lastBelow.step (walk.within within _) (walk.unblocked within unblocked _)
          isLast lastLower (walk _)).resolve_left (notAgain _ (by omega))
  obtain ⟨time, isLast, none⟩ := reaches
  match time with
  | 0 => cases fresh.symm.trans isLast
  | 1 => exact none replayed stays eligible
  | time + 2 =>
      obtain ⟨last, sameLast, lastLower, _⟩ := staysBelow time
      obtain rfl := Option.some.inj (isLast.symm.trans sameLast)
      have atMost := track.first_le_tip
      omega

end Walks

/-- The tip is reached and nothing is visited twice exactly when nothing is in the way. -/
theorem reaches_and_visitsOnce_iff
    {track : Track}
    {states : Nat → State}
    (walk : Walk track states)
    (within : Within track (states 0)) :
    Reaches track states ∧ VisitsOnce track states ↔
      ¬ Blocked track (states 0) ∧ ¬ Rewound track (states 0) := by
  constructor
  · rintro ⟨reaches, once⟩
    have unblocked : ¬ Blocked track (states 0) := by
      intro blocked
      obtain ⟨time, atTip⟩ := reaches
      exact (walk.blocked within blocked time).not_atTip atTip
    refine ⟨unblocked, fun rewound => ?_⟩
    obtain ⟨later, order, again⟩ := walk.first_again within unblocked rewound reaches
    exact once 0 later track.first order (.first rewound.1) again
  · rintro ⟨unblocked, unrewound⟩
    refine ⟨walk.reaches within unblocked, fun earlier later position order next => ?_⟩
    cases isLast : (states earlier).last with
    | some last =>
        exact walk.not_again within unblocked isLast order next
    | none =>
        obtain rfl := next.unique (.first isLast)
        cases earlier with
        | zero =>
            exact walk.first_not_again within unblocked isLast unrewound later order
        | succ before =>
            obtain ⟨last, started⟩ := (walk before).started
            cases isLast.symm.trans started

end ReplayWalk

end CsmProver
