import CsmProver.Async.Program

namespace CsmProver

/-!
# Reasoning about async functions under interference

A `Protocol` fixes what the other functions may do to the shared state while a
computation is suspended, what must hold at every suspension, and what must hold
when the computation aborts.  `wp` is the weakest condition on the current state
under which a computation keeps that protocol and ends in a given
postcondition, whatever its promises do.

`Guarantees` is the other half: every atomic update of a computation lies in a
relation.  A computation whose updates lie in a preorder that also contains the
interference ends in a state related to the one it started from, whatever it
computes.

`Keeps` joins the two: while the others move inside one relation, the computation
moves inside another one, and an update may rest on what it has established before.
-/

namespace Async

variable {σ ι α β : Type}

/-- The conditions under which a computation runs. -/
structure Protocol (σ : Type) where
  rely : σ → σ → Prop
  suspended : σ → Prop
  aborted : Abort → σ → Prop

/-- Weakest precondition of a computation under a protocol. -/
def wp (protocol : Protocol σ) (post : α → σ → Prop) :
    Async σ α → σ → Prop
  | .done value, state => post value state
  | .fail reason, state => protocol.aborted reason state
  | .sync update next, state =>
      wp protocol post (next state) (update state)
  | .await next, state =>
      protocol.suspended state ∧
        ∀ moved,
          protocol.rely state moved →
          ∀ settles, wp protocol post (next settles) moved

section Rules

variable {protocol : Protocol σ}

/-- What has returned only has to meet the postcondition. -/
@[simp] theorem wp_done
    (value : α)
    (post : α → σ → Prop)
    (state : σ) :
    wp protocol post (.done value) state ↔ post value state :=
  Iff.rfl

/-- What has failed only has to meet what the protocol says of an abort. -/
@[simp] theorem wp_fail
    (reason : Abort)
    (post : α → σ → Prop)
    (state : σ) :
    wp protocol post (.fail reason) state ↔
      protocol.aborted reason state :=
  Iff.rfl

/-- The precondition of a composition is the precondition of its first part. -/
@[simp] theorem wp_bind
    (program : Async σ α)
    (body : α → Async σ β)
    (post : β → σ → Prop)
    (state : σ) :
    wp protocol post (program >>= body) state ↔
      wp protocol
        (fun value middle => wp protocol post (body value) middle)
        program state := by
  induction program generalizing state with
  | done value =>
      rfl
  | fail reason =>
      rfl
  | sync update next inductionHypothesis =>
      rw [sync_bind]
      exact inductionHypothesis state (update state)
  | await next inductionHypothesis =>
      rw [await_bind]
      simp only [wp, inductionHypothesis]

/-- Reading hands the state on. -/
@[simp] theorem wp_read
    (post : σ → σ → Prop)
    (state : σ) :
    wp protocol post read state ↔ post state state :=
  Iff.rfl

/-- An update is followed by the rest in the updated state. -/
@[simp] theorem wp_modify
    (update : σ → σ)
    (post : Unit → σ → Prop)
    (state : σ) :
    wp protocol post (modify update) state ↔ post () (update state) :=
  Iff.rfl

/-- A thrown message aborts. -/
@[simp] theorem wp_raise
    (message : String)
    (post : α → σ → Prop)
    (state : σ) :
    wp protocol post (raise message) state ↔
      protocol.aborted (.thrown message) state :=
  Iff.rfl

/-- An await suspends and goes on in whatever state the others have left. -/
@[simp] theorem wp_tick
    (post : Unit → σ → Prop)
    (state : σ) :
    wp protocol post tick state ↔
      protocol.suspended state ∧
        ∀ moved, protocol.rely state moved → post () moved := by
  constructor
  · rintro ⟨suspended, continues⟩
    exact ⟨suspended, fun moved relied => continues moved relied .resolved⟩
  · rintro ⟨suspended, continues⟩
    exact ⟨suspended, fun moved relied _ => continues moved relied⟩

/-- A promise may also reject. -/
@[simp] theorem wp_settle
    (post : Unit → σ → Prop)
    (state : σ) :
    wp protocol post settle state ↔
      protocol.suspended state ∧
        ∀ moved, protocol.rely state moved →
          post () moved ∧ protocol.aborted .rejected moved := by
  constructor
  · rintro ⟨suspended, continues⟩
    exact ⟨suspended, fun moved relied =>
      ⟨continues moved relied .resolved, continues moved relied .rejected⟩⟩
  · rintro ⟨suspended, continues⟩
    refine ⟨suspended, fun moved relied settles => ?_⟩
    cases settles with
    | resolved =>
        exact (continues moved relied).1
    | rejected =>
        exact (continues moved relied).2

/-- A request is a promise with an answer. -/
@[simp] theorem wp_request
    (answer : α)
    (post : α → σ → Prop)
    (state : σ) :
    wp protocol post (request answer) state ↔
      protocol.suspended state ∧
        ∀ moved, protocol.rely state moved →
          post answer moved ∧ protocol.aborted .rejected moved := by
  simp [request]

/-- A call is awaited once more when its body has returned. -/
@[simp] theorem wp_call
    (body : Async σ α)
    (post : α → σ → Prop)
    (state : σ) :
    wp protocol post (call body) state ↔
      wp protocol
        (fun value middle =>
          protocol.suspended middle ∧
            ∀ moved, protocol.rely middle moved → post value moved)
        body state := by
  simp [call]

/-- A weaker postcondition has a weaker precondition. -/
theorem wp_mono
    {program : Async σ α}
    {post weaker : α → σ → Prop}
    {state : σ}
    (holds : wp protocol post program state)
    (weakens : ∀ value final, post value final → weaker value final) :
    wp protocol weaker program state := by
  induction program generalizing state with
  | done value =>
      exact weakens value state holds
  | fail reason =>
      exact holds
  | sync update next inductionHypothesis =>
      exact inductionHypothesis state holds
  | await next inductionHypothesis =>
      exact ⟨holds.1, fun moved relied settles =>
        inductionHypothesis settles (holds.2 moved relied settles)⟩

/-- What a computation ends with is one of its answers. -/
theorem wp_returns
    {program : Async σ α}
    {post : α → σ → Prop}
    {state : σ}
    (holds : wp protocol post program state) :
    wp protocol (fun value final => post value final ∧ Returns program state value)
      program state := by
  induction program generalizing state with
  | done value =>
      exact ⟨holds, rfl⟩
  | fail reason =>
      exact holds
  | sync update next inductionHypothesis =>
      exact inductionHypothesis state holds
  | await next inductionHypothesis =>
      refine ⟨holds.1, fun moved relied settles => ?_⟩
      exact wp_mono (inductionHypothesis settles (holds.2 moved relied settles))
        fun _ _ ended => ⟨ended.1, settles, moved, ended.2⟩

/--
A loop over a list keeps an assertion indexed by the part of the list that is
still to be done.
-/
theorem wp_forEach
    {body : β → Async σ Unit}
    {post : Unit → σ → Prop}
    (assertion : List β → σ → Prop)
    (exits : ∀ state, assertion [] state → post () state)
    (step :
      ∀ item rest state,
        assertion (item :: rest) state →
        wp protocol (fun _ next => assertion rest next) (body item) state)
    (items : List β)
    {state : σ}
    (enters : assertion items state) :
    wp protocol post (forEach items body) state := by
  induction items generalizing state with
  | nil =>
      exact exits state enters
  | cons item rest inductionHypothesis =>
      unfold forEach
      rw [wp_bind]
      exact wp_mono (step item rest state enters)
        fun _ _ continued => inductionHypothesis continued

/-- Catching an abort turns the abort condition into a postcondition. -/
theorem wp_attempt
    {program : Async σ α}
    {post : Except Abort α → σ → Prop}
    {state : σ}
    (holds :
      wp { protocol with aborted := fun reason final => post (.error reason) final }
        (fun value final => post (.ok value) final) program state) :
    wp protocol post (attempt program) state := by
  induction program generalizing state with
  | done value =>
      exact holds
  | fail reason =>
      exact holds
  | sync update next inductionHypothesis =>
      exact inductionHypothesis state holds
  | await next inductionHypothesis =>
      exact ⟨holds.1, fun moved relied settles =>
        inductionHypothesis settles (holds.2 moved relied settles)⟩

/-- Awaiting a body and catching its abort gives the caller either outcome. -/
theorem wp_callCatching
    {body : Async σ α}
    {post : Except Abort α → σ → Prop}
    {state : σ}
    (suspends : ∀ outcome final, post outcome final → protocol.suspended final)
    (stays :
      ∀ outcome final moved,
        post outcome final → protocol.rely final moved → post outcome moved)
    (holds :
      wp { protocol with aborted := fun reason final => post (.error reason) final }
        (fun value final => post (.ok value) final) body state) :
    wp protocol post (callCatching body) state := by
  have outcomes : wp protocol post (attempt body) state := wp_attempt holds
  unfold callCatching
  rw [wp_bind]
  apply wp_mono outcomes
  intro outcome final ended
  rw [wp_bind, wp_tick]
  exact ⟨suspends outcome final ended, fun moved relied =>
    stays outcome final moved ended relied⟩

end Rules

/-! ## Stability -/

/-- The shared conditions of a protocol survive the interference it allows. -/
structure Protocol.Stable (protocol : Protocol σ) : Prop where
  refl : ∀ state, protocol.rely state state
  trans :
    ∀ {first middle last},
      protocol.rely first middle →
      protocol.rely middle last →
      protocol.rely first last
  suspended :
    ∀ {state moved},
      protocol.suspended state →
      protocol.rely state moved →
      protocol.suspended moved
  aborted :
    ∀ {reason state moved},
      protocol.aborted reason state →
      protocol.rely state moved →
      protocol.aborted reason moved

/-- Running the synchronous head of a computation keeps its precondition. -/
theorem wp_advance
    {protocol : Protocol σ}
    {post : α → σ → Prop}
    {program : Async σ α}
    {state : σ}
    (holds : wp protocol post program state) :
    wp protocol post (advance program state).1 (advance program state).2 := by
  induction program generalizing state with
  | done value =>
      exact holds
  | fail reason =>
      exact holds
  | sync update next inductionHypothesis =>
      exact inductionHypothesis state holds
  | await next inductionHypothesis =>
      exact holds

/-- A run of allowed moves is itself allowed. -/
private theorem rely_foldl
    {protocol : Protocol σ}
    (stable : protocol.Stable)
    {act : ι → σ → σ}
    (allowed : ∀ move state, protocol.rely state (act move state))
    (moves : List ι)
    (state : σ) :
    protocol.rely state
      (moves.foldl (fun current move => act move current) state) := by
  induction moves generalizing state with
  | nil =>
      exact stable.refl state
  | cons move rest inductionHypothesis =>
      exact stable.trans (allowed move state)
        (inductionHypothesis (act move state))

/-- A computation whose synchronous head has been run. -/
def Ready : Async σ α → Prop
  | .sync _ _ => False
  | _ => True

/-- What was run up to its next suspension has no update left before it. -/
theorem ready_advance
    (program : Async σ α)
    (state : σ) :
    (advance program state).1.Ready := by
  induction program generalizing state with
  | done value =>
      trivial
  | fail reason =>
      trivial
  | sync update next inductionHypothesis =>
      exact inductionHypothesis state (update state)
  | await next inductionHypothesis =>
      trivial

/-- What a computation has established at one point of its run. -/
def Established (protocol : Protocol σ) (post : α → σ → Prop) :
    Async σ α × σ → Prop
  | (.done value, state) => post value state
  | (.fail reason, state) => protocol.aborted reason state
  | (.sync _ _, _) => False
  | (.await _, state) => protocol.suspended state

/-- The induction on the script behind the soundness of a run. -/
private theorem resume_sound
    {protocol : Protocol σ}
    (stable : protocol.Stable)
    {act : ι → σ → σ}
    (allowed : ∀ move state, protocol.rely state (act move state))
    {post : α → σ → Prop}
    (script : List (Beat ι))
    {program : Async σ α}
    {state : σ}
    (ready : program.Ready)
    (holds : wp protocol post program state) :
    Established protocol post (resume act script program state) := by
  induction script generalizing program state with
  | nil =>
      cases program with
      | done value =>
          exact holds
      | fail reason =>
          exact holds
      | sync update next =>
          exact ready.elim
      | await next =>
          exact holds.1
  | cons beat rest inductionHypothesis =>
      cases program with
      | done value =>
          exact holds
      | fail reason =>
          exact holds
      | sync update next =>
          exact ready.elim
      | await next =>
          have continued :=
            holds.2 _ (rely_foldl stable allowed beat.meanwhile state)
              beat.settles
          exact inductionHypothesis (ready_advance _ _)
            (wp_advance continued)

/--
Soundness: a computation started where its precondition holds keeps its
protocol through every script, and ends only in its postcondition.
-/
theorem run_sound
    {protocol : Protocol σ}
    (stable : protocol.Stable)
    {act : ι → σ → σ}
    (allowed : ∀ move state, protocol.rely state (act move state))
    {post : α → σ → Prop}
    {program : Async σ α}
    {state : σ}
    (holds : wp protocol post program state)
    (script : List (Beat ι)) :
    Established protocol post (run act program script state) :=
  resume_sound stable allowed script
    (ready_advance program state) (wp_advance holds)

/-- An undisturbed run ends in the postcondition or in the abort condition. -/
theorem conclude_sound
    {protocol : Protocol σ}
    (refl : ∀ state, protocol.rely state state)
    {post : α → σ → Prop}
    {program : Async σ α}
    {state : σ}
    (holds : wp protocol post program state)
    (settles : List Settle) :
    match conclude settles program state with
    | (.ok value, final) => post value final
    | (.error reason, final) => protocol.aborted reason final := by
  induction program generalizing state settles with
  | done value =>
      cases settles <;> exact holds
  | fail reason =>
      cases settles <;> exact holds
  | sync update next inductionHypothesis =>
      have continued := inductionHypothesis state holds settles
      cases settles <;> exact continued
  | await next inductionHypothesis =>
      cases settles with
      | nil =>
          exact inductionHypothesis .resolved (holds.2 state (refl state) .resolved) []
      | cons settled rest =>
          exact inductionHypothesis settled (holds.2 state (refl state) settled) rest

/-- What holds whichever way a computation stands at one point of its run. -/
theorem Established.holds
    {protocol : Protocol σ}
    {post : α → σ → Prop}
    (assertion : σ → Prop)
    (suspends : ∀ state, protocol.suspended state → assertion state)
    (aborts : ∀ reason state, protocol.aborted reason state → assertion state)
    (returns : ∀ value state, post value state → assertion state)
    {program : Async σ α}
    {state : σ}
    (established : Established protocol post (program, state)) :
    assertion state := by
  cases program with
  | done value =>
      exact returns value state established
  | fail reason =>
      exact aborts reason state established
  | sync update next =>
      exact established.elim
  | await next =>
      exact suspends state established

/--
An attempt keeps an assertion that holds after it ends, after it aborts and
after a crash at any of its suspensions.
-/
theorem Established.leave
    {protocol : Protocol σ}
    {post : α → σ → Prop}
    (restart : σ → σ)
    (assertion : σ → Prop)
    (crashes : ∀ state, protocol.suspended state → assertion (restart state))
    (aborts : ∀ reason state, protocol.aborted reason state → assertion state)
    (returns : ∀ value state, post value state → assertion state)
    {ended : Async σ α × σ}
    (established : Established protocol post ended) :
    assertion (Async.leave restart ended) := by
  obtain ⟨program, state⟩ := ended
  cases program with
  | done value =>
      exact returns value state established
  | fail reason =>
      exact aborts reason state established
  | sync update next =>
      exact established.elim
  | await next =>
      exact crashes state established

/-! ## Guarantees -/

/-- Every atomic update of a computation lies in a relation. -/
def Guarantees (relation : σ → σ → Prop) : Async σ α → Prop
  | .done _ => True
  | .fail _ => True
  | .sync update next =>
      ∀ state, relation state (update state) ∧
        Guarantees relation (next state)
  | .await next =>
      ∀ settles, Guarantees relation (next settles)

section Frame

variable {relation : σ → σ → Prop}

/-- What has returned changes nothing. -/
@[simp] theorem guarantees_done
    (value : α) :
    Guarantees relation (.done value : Async σ α) :=
  trivial

/-- What has failed changes nothing. -/
@[simp] theorem guarantees_fail
    (reason : Abort) :
    Guarantees relation (.fail reason : Async σ α) :=
  trivial

/-- A thrown message changes nothing. -/
@[simp] theorem guarantees_raise
    (message : String) :
    Guarantees relation (raise message : Async σ α) :=
  trivial

/-- An await changes nothing itself. -/
@[simp] theorem guarantees_tick :
    Guarantees relation (tick : Async σ Unit) :=
  fun _ => trivial

/-- A promise changes nothing itself, whichever way it settles. -/
@[simp] theorem guarantees_settle :
    Guarantees relation (settle : Async σ Unit) := by
  intro settles
  cases settles <;> trivial

/-- Reading is an update that changes nothing. -/
theorem guarantees_read
    (refl : ∀ state, relation state state) :
    Guarantees relation (read : Async σ σ) :=
  fun state => ⟨refl state, trivial⟩

/-- An update guarantees what it does. -/
@[simp] theorem guarantees_modify
    (update : σ → σ) :
    Guarantees relation (modify update) ↔
      ∀ state, relation state (update state) :=
  ⟨fun holds state => (holds state).1,
    fun holds state => ⟨holds state, trivial⟩⟩

/-- One part after the other guarantees what both parts do. -/
theorem guarantees_bind
    {program : Async σ α}
    {body : α → Async σ β}
    (first : Guarantees relation program)
    (rest : ∀ value, Guarantees relation (body value)) :
    Guarantees relation (program >>= body) := by
  induction program with
  | done value =>
      exact rest value
  | fail reason =>
      trivial
  | sync update next inductionHypothesis =>
      exact fun state =>
        ⟨(first state).1, inductionHypothesis state (first state).2⟩
  | await next inductionHypothesis =>
      exact fun settles => inductionHypothesis settles (first settles)

/-- A request changes nothing itself. -/
@[simp] theorem guarantees_request
    (answer : α) :
    Guarantees relation (request answer : Async σ α) :=
  guarantees_bind guarantees_settle fun _ => trivial

/-- A computation inside a relation is inside every wider one. -/
theorem Guarantees.mono
    {wider : σ → σ → Prop}
    (widens : ∀ {state moved}, relation state moved → wider state moved)
    {program : Async σ α}
    (holds : Guarantees relation program) :
    Guarantees wider program := by
  induction program with
  | done value =>
      trivial
  | fail reason =>
      trivial
  | sync update next inductionHypothesis =>
      exact fun state =>
        ⟨widens (holds state).1, inductionHypothesis state (holds state).2⟩
  | await next inductionHypothesis =>
      exact fun settles => inductionHypothesis settles (holds settles)

/-- A call guarantees what its body does. -/
theorem guarantees_call
    {body : Async σ α}
    (holds : Guarantees relation body) :
    Guarantees relation (call body) :=
  guarantees_bind holds fun _ =>
    guarantees_bind guarantees_tick fun _ => trivial

/-- A loop guarantees what its body does for every item. -/
theorem guarantees_forEach
    {items : List β}
    {body : β → Async σ Unit}
    (holds : ∀ item, Guarantees relation (body item)) :
    Guarantees relation (forEach items body) := by
  induction items with
  | nil =>
      trivial
  | cons item rest inductionHypothesis =>
      exact guarantees_bind (holds item) fun _ => inductionHypothesis

/-- Catching an error guarantees what the body does. -/
theorem guarantees_attempt
    {program : Async σ α}
    (holds : Guarantees relation program) :
    Guarantees relation (attempt program) := by
  induction program with
  | done value =>
      trivial
  | fail reason =>
      trivial
  | sync update next inductionHypothesis =>
      exact fun state =>
        ⟨(holds state).1, inductionHypothesis state (holds state).2⟩
  | await next inductionHypothesis =>
      exact fun settles => inductionHypothesis settles (holds settles)

/--
Frame rule: a computation whose updates lie in a preorder containing the
interference ends, suspends and aborts only in states related to its start.
-/
theorem wp_of_guarantees
    {protocol : Protocol σ}
    (refl : ∀ state, relation state state)
    (trans :
      ∀ {first middle last},
        relation first middle → relation middle last → relation first last)
    (relied :
      ∀ {state moved}, protocol.rely state moved → relation state moved)
    {start : σ}
    (suspends : ∀ state, relation start state → protocol.suspended state)
    (aborts :
      ∀ reason state, relation start state → protocol.aborted reason state)
    {program : Async σ α}
    (guarantees : Guarantees relation program) :
    wp protocol (fun _ final => relation start final) program start := by
  suffices generalized :
      ∀ state, relation start state →
        wp protocol (fun _ final => relation start final) program state from
    generalized start (refl start)
  induction program with
  | done value =>
      exact fun _ reached => reached
  | fail reason =>
      exact aborts reason
  | sync update next inductionHypothesis =>
      intro state reached
      exact inductionHypothesis state (guarantees state).2
        (update state) (trans reached (guarantees state).1)
  | await next inductionHypothesis =>
      intro state reached
      exact ⟨suspends state reached, fun moved moves settles =>
        inductionHypothesis settles (guarantees settles) moved
          (trans reached (relied moves))⟩

end Frame

/-! ## Rely and guarantee -/

/--
While the others move inside one relation, every update of the computation lies in
another one, and it ends in the postcondition unless it aborts.
-/
def Keeps (rely guarantee : σ → σ → Prop) (post : α → σ → Prop) : Async σ α → σ → Prop
  | .done value, state => post value state
  | .fail _, _ => True
  | .sync update next, state =>
      guarantee state (update state) ∧
        Keeps rely guarantee post (next state) (update state)
  | .await next, state =>
      ∀ moved,
        rely state moved →
        ∀ settles, Keeps rely guarantee post (next settles) moved

section Keeps

variable {rely guarantee : σ → σ → Prop}

/-- What has returned only has to meet the postcondition. -/
@[simp] theorem keeps_done
    (value : α)
    (post : α → σ → Prop)
    (state : σ) :
    Keeps rely guarantee post (.done value) state ↔ post value state :=
  Iff.rfl

/-- Nothing is asked of what has failed. -/
@[simp] theorem keeps_raise
    (message : String)
    (post : α → σ → Prop)
    (state : σ) :
    Keeps rely guarantee post (raise message) state :=
  trivial

/-- The first part has to leave a state in which the rest keeps the guarantee. -/
@[simp] theorem keeps_bind
    (program : Async σ α)
    (body : α → Async σ β)
    (post : β → σ → Prop)
    (state : σ) :
    Keeps rely guarantee post (program >>= body) state ↔
      Keeps rely guarantee
        (fun value middle => Keeps rely guarantee post (body value) middle)
        program state := by
  induction program generalizing state with
  | done value =>
      rfl
  | fail reason =>
      rfl
  | sync update next inductionHypothesis =>
      rw [sync_bind]
      simp only [Keeps, inductionHypothesis]
  | await next inductionHypothesis =>
      rw [await_bind]
      simp only [Keeps, inductionHypothesis]

/-- An update has to keep the guarantee itself. -/
@[simp] theorem keeps_modify
    (update : σ → σ)
    (post : Unit → σ → Prop)
    (state : σ) :
    Keeps rely guarantee post (modify update) state ↔
      guarantee state (update state) ∧ post () (update state) :=
  Iff.rfl

/-- After an await the others have moved. -/
@[simp] theorem keeps_tick
    (post : Unit → σ → Prop)
    (state : σ) :
    Keeps rely guarantee post tick state ↔
      ∀ moved, rely state moved → post () moved := by
  constructor
  · intro continues moved moves
    exact continues moved moves .resolved
  · intro continues moved moves _
    exact continues moved moves

/-- After a promise the others have moved; nothing is asked if it rejects. -/
@[simp] theorem keeps_settle
    (post : Unit → σ → Prop)
    (state : σ) :
    Keeps rely guarantee post settle state ↔
      ∀ moved, rely state moved → post () moved := by
  constructor
  · intro continues moved moves
    exact continues moved moves .resolved
  · intro continues moved moves settles
    cases settles with
    | resolved =>
        exact continues moved moves
    | rejected =>
        trivial

/-- A request goes on with its answer after the others have moved. -/
@[simp] theorem keeps_request
    (answer : α)
    (post : α → σ → Prop)
    (state : σ) :
    Keeps rely guarantee post (request answer) state ↔
      ∀ moved, rely state moved → post answer moved := by
  simp [request]

/-- After a call the others move once more. -/
@[simp] theorem keeps_call
    (body : Async σ α)
    (post : α → σ → Prop)
    (state : σ) :
    Keeps rely guarantee post (call body) state ↔
      Keeps rely guarantee
        (fun value middle => ∀ moved, rely middle moved → post value moved)
        body state := by
  simp [call]

/-- A computation that keeps to a relation may be asked for less. -/
theorem Keeps.mono
    {program : Async σ α}
    {post weaker : α → σ → Prop}
    {state : σ}
    (keeps : Keeps rely guarantee post program state)
    (weakens : ∀ value final, post value final → weaker value final) :
    Keeps rely guarantee weaker program state := by
  induction program generalizing state with
  | done value =>
      exact weakens value state keeps
  | fail reason =>
      trivial
  | sync update next inductionHypothesis =>
      exact ⟨keeps.1, inductionHypothesis state keeps.2⟩
  | await next inductionHypothesis =>
      exact fun moved moves settles =>
        inductionHypothesis settles (keeps moved moves settles)

/-- After a caught abort nothing is known but what always holds. -/
theorem keeps_attempt
    {program : Async σ α}
    {post : Except Abort α → σ → Prop}
    {state : σ}
    (caught : ∀ reason final, post (.error reason) final)
    (keeps : Keeps rely guarantee (fun value => post (.ok value)) program state) :
    Keeps rely guarantee post (attempt program) state := by
  induction program generalizing state with
  | done value =>
      exact keeps
  | fail reason =>
      exact caught reason state
  | sync update next inductionHypothesis =>
      exact ⟨keeps.1, inductionHypothesis state keeps.2⟩
  | await next inductionHypothesis =>
      exact fun moved moves settles =>
        inductionHypothesis settles (keeps moved moves settles)

/-- Awaiting a body that keeps to a relation keeps to it, however the body ends. -/
theorem keeps_callCatching
    {body : Async σ α}
    {state : σ}
    (keeps : Keeps rely guarantee (fun _ _ => True) body state) :
    Keeps rely guarantee (fun _ _ => True) (callCatching body) state := by
  unfold callCatching
  rw [keeps_bind]
  apply keeps_attempt
  · simp
  · exact keeps.mono fun _ _ _ => by simp

/-- A loop whose body keeps to a relation from every state keeps to it. -/
theorem keeps_forEach
    {body : β → Async σ Unit}
    (items : List β)
    (keeps :
      ∀ item ∈ items, ∀ state, Keeps rely guarantee (fun _ _ => True) (body item) state)
    (state : σ) :
    Keeps rely guarantee (fun _ _ => True) (forEach items body) state := by
  induction items generalizing state with
  | nil =>
      trivial
  | cons item rest inductionHypothesis =>
      unfold forEach
      rw [keeps_bind]
      have continues :=
        inductionHypothesis fun later member => keeps later (by simp [member])
      exact (keeps item (by simp) state).mono fun _ final _ => continues final

/--
A computation that moves inside a part of its guarantee keeps to it, and ends inside a
relation that contains this part and what the others do.
-/
theorem keeps_of_guarantees
    {own whole : σ → σ → Prop}
    (refl : ∀ state, whole state state)
    (trans :
      ∀ {first middle last},
        whole first middle → whole middle last → whole first last)
    (relied : ∀ {state moved}, rely state moved → whole state moved)
    (owned : ∀ {state moved}, own state moved → guarantee state moved ∧ whole state moved)
    {program : Async σ α}
    (guarantees : Guarantees own program)
    (start : σ) :
    Keeps rely guarantee (fun _ final => whole start final) program start := by
  suffices generalized :
      ∀ state, whole start state →
        Keeps rely guarantee (fun _ final => whole start final) program state from
    generalized start (refl start)
  induction program with
  | done value =>
      exact fun _ reached => reached
  | fail reason =>
      exact fun _ _ => trivial
  | sync update next inductionHypothesis =>
      intro state reached
      obtain ⟨guaranteed, moved⟩ := owned (guarantees state).1
      exact ⟨guaranteed,
        inductionHypothesis state (guarantees state).2 (update state)
          (trans reached moved)⟩
  | await next inductionHypothesis =>
      intro state reached moved moves settles
      exact inductionHypothesis settles (guarantees settles) moved
        (trans reached (relied moves))

end Keeps

end Async

end CsmProver
