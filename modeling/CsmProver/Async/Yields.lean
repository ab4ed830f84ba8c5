import CsmProver.Async.Loop

namespace CsmProver

/-!
# Updates that rest on answers

What a computation does to the shared state often depends on an answer it got
before, and the answer on what holds of the state at that moment.  `Yields` says
of a computation that, while an invariant of the state is kept, its updates lie
in a relation and what it returns has a property; so the property may be used
for the updates that follow.

A loop whose blocks and tasks keep to such a relation, together with everybody
outside, never leaves it.
-/

namespace Async

variable {σ τ α β : Type}

/--
In states of an invariant every update lies in the relation, and every value
returned has the property.
-/
def Yields (inv : σ → Prop) (relation : σ → σ → Prop) (property : α → Prop) :
    Async σ α → Prop
  | .done value => property value
  | .fail _ => True
  | .sync update next =>
      ∀ state,
        inv state →
        relation state (update state) ∧ Yields inv relation property (next state)
  | .await next =>
      ∀ settles, Yields inv relation property (next settles)

section Rules

variable {inv : σ → Prop} {relation : σ → σ → Prop}
variable {property : α → Prop} {other : β → Prop}

/-- Of a computation that keeps to the relation anyway nothing more is known. -/
theorem yields_of_guarantees
    {program : Async σ α}
    (guarantees : program.Guarantees relation) :
    program.Yields inv relation fun _ => True := by
  induction program with
  | done value =>
      trivial
  | fail reason =>
      trivial
  | sync update next inductionHypothesis =>
      exact fun state _ =>
        ⟨(guarantees state).1, inductionHypothesis state (guarantees state).2⟩
  | await next inductionHypothesis =>
      exact fun settles => inductionHypothesis settles (guarantees settles)

/-- Where nothing is asked of the states, an update of a yielding computation is inside. -/
theorem guarantees_of_yields
    {program : Async σ α}
    (yields : program.Yields (fun _ => True) relation property) :
    program.Guarantees relation := by
  induction program with
  | done value =>
      trivial
  | fail reason =>
      trivial
  | sync update next inductionHypothesis =>
      exact fun state =>
        ⟨(yields state trivial).1, inductionHypothesis state (yields state trivial).2⟩
  | await next inductionHypothesis =>
      exact fun settles => inductionHypothesis settles (yields settles)

/-- A sequence yields when its rest does, for every value its first part may return. -/
theorem yields_bind
    {program : Async σ α}
    {body : α → Async σ β}
    (first : program.Yields inv relation property)
    (rest : ∀ value, property value → (body value).Yields inv relation other) :
    (program >>= body).Yields inv relation other := by
  induction program with
  | done value =>
      exact rest value first
  | fail reason =>
      trivial
  | sync update next inductionHypothesis =>
      exact fun state holds =>
        ⟨(first state holds).1, inductionHypothesis state (first state holds).2⟩
  | await next inductionHypothesis =>
      exact fun settles => inductionHypothesis settles (first settles)

/-- After a read the invariant is known of the state that was read. -/
theorem yields_read_bind
    (refl : ∀ state, relation state state)
    {body : σ → Async σ β}
    (rest : ∀ state, inv state → (body state).Yields inv relation other) :
    (read >>= body).Yields inv relation other :=
  fun state holds => ⟨refl state, rest state holds⟩

/-- One update has to lie in the relation, from every state of the invariant. -/
theorem yields_modify
    {update : σ → σ}
    (contained : ∀ state, inv state → relation state (update state)) :
    (modify update).Yields inv relation fun _ => True :=
  fun state holds => ⟨contained state holds, trivial⟩

/-- What is known of the answer is known of what the request returns. -/
theorem yields_request
    {answer : α}
    (holds : property answer) :
    (request answer : Async σ α).Yields inv relation property := by
  intro settles
  cases settles with
  | resolved => exact holds
  | rejected => trivial

/-- What follows a request rests on the answer it was given. -/
theorem yields_request_bind
    {answer : α}
    {body : α → Async σ β}
    (rest : (body answer).Yields inv relation other) :
    (request answer >>= body).Yields inv relation other := by
  have answered : (request answer : Async σ α).Yields inv relation (· = answer) :=
    yields_request rfl
  exact yields_bind answered fun _ same => same ▸ rest

theorem yields_call
    {body : Async σ α}
    (yields : body.Yields inv relation property) :
    (call body).Yields inv relation property :=
  yields_bind yields fun _ holds _ => holds

/-- A caught error returns, and nothing is known of what it returns. -/
theorem yields_attempt
    {program : Async σ α}
    (yields : program.Yields inv relation property) :
    (attempt program).Yields inv relation fun _ => True := by
  induction program with
  | done value =>
      trivial
  | fail reason =>
      trivial
  | sync update next inductionHypothesis =>
      exact fun state holds =>
        ⟨(yields state holds).1, inductionHypothesis state (yields state holds).2⟩
  | await next inductionHypothesis =>
      exact fun settles => inductionHypothesis settles (yields settles)

/-- So it is with an awaited call whose error is caught. -/
theorem yields_callCatching
    {body : Async σ α}
    (yields : body.Yields inv relation property) :
    (callCatching body).Yields inv relation fun _ => True :=
  yields_bind (yields_attempt yields) fun _ _ _ => trivial

/-- A loop over a list whose body may rest on the element it is given. -/
theorem yields_forEach
    {items : List β}
    {body : β → Async σ Unit}
    (holds : ∀ item ∈ items, (body item).Yields inv relation fun _ => True) :
    (forEach items body).Yields inv relation fun _ => True := by
  induction items with
  | nil =>
      trivial
  | cons item rest inductionHypothesis =>
      exact yields_bind (holds item (by simp)) fun _ _ =>
        inductionHypothesis fun later member => holds later (by simp [member])

/-- A computation whose updates do not break a steady assertion, where it holds, ends in it. -/
theorem leads_of_yields
    {rely : σ → σ → Prop}
    {suspended assertion : σ → Prop}
    (steady : Steady rely suspended assertion)
    {program : Async σ α}
    (yields :
      program.Yields assertion (fun state moved => assertion state → assertion moved)
        property) :
    Leads rely suspended assertion assertion program := by
  refine ⟨fun state holds => ?_⟩
  induction program generalizing state with
  | done value =>
      exact holds
  | fail reason =>
      exact holds
  | sync update next inductionHypothesis =>
      obtain ⟨moves, rest⟩ := yields state holds
      exact inductionHypothesis state rest (update state) (moves holds)
  | await next inductionHypothesis =>
      refine ⟨steady.suspends holds, fun moved relied settles => ?_⟩
      exact inductionHypothesis settles (yields settles) moved (steady.stays holds relied)

/-- A computation on a part, in a whole whose invariant says enough about the part. -/
theorem yields_zoom
    {get : τ → σ}
    {put : σ → τ → τ}
    {whole : τ → Prop}
    {wholeRelation : τ → τ → Prop}
    (restricts : ∀ state, whole state → inv (get state))
    (lifts :
      ∀ state moved,
        whole state → relation (get state) moved → wholeRelation state (put moved state))
    {program : Async σ α}
    (yields : program.Yields inv relation property) :
    (zoom get put program).Yields whole wholeRelation property := by
  induction program with
  | done value =>
      exact yields
  | fail reason =>
      trivial
  | sync update next inductionHypothesis =>
      intro state holds
      obtain ⟨moves, rest⟩ := yields (get state) (restricts state holds)
      exact ⟨lifts state _ holds moves, inductionHypothesis (get state) rest⟩
  | await next inductionHypothesis =>
      exact fun settles => inductionHypothesis settles (yields settles)

end Rules

/-! ## Blocks -/

/-- A preorder of moves that keep an invariant. -/
structure Keeping (inv : σ → Prop) (relation : σ → σ → Prop) : Prop where
  refl : ∀ state, relation state state
  trans :
    ∀ {first middle last},
      relation first middle → relation middle last → relation first last
  keeps : ∀ state moved, inv state → relation state moved → inv moved

/-- A block keeps to the relation, and so does what is left. -/
theorem yields_advance
    {inv : σ → Prop}
    {relation : σ → σ → Prop}
    {property : α → Prop}
    (keeping : Keeping inv relation)
    {program : Async σ α}
    (yields : program.Yields inv relation property)
    {state : σ}
    (holds : inv state) :
    relation state (program.advance state).2 ∧
      (program.advance state).1.Yields inv relation property := by
  induction program generalizing state with
  | done value =>
      exact ⟨keeping.refl state, yields⟩
  | fail reason =>
      exact ⟨keeping.refl state, trivial⟩
  | sync update next inductionHypothesis =>
      obtain ⟨moves, rest⟩ := yields state holds
      obtain ⟨movesOn, left⟩ :=
        inductionHypothesis state rest (keeping.keeps _ _ holds moves)
      exact ⟨keeping.trans moves movesOn, left⟩
  | await next inductionHypothesis =>
      exact ⟨keeping.refl state, yields⟩

end Async

open Async

/-! ## Pools -/

namespace Pool

variable {σ α : Type} {inv : σ → Prop} {relation : σ → σ → Prop}

/-- The shared state and all tasks keep to an invariant and a relation. -/
structure Yields (inv : σ → Prop) (relation : σ → σ → Prop) (pool : Pool σ) : Prop where
  shared : inv pool.shared
  tasks : ∀ task ∈ pool.tasks, task.Yields inv relation fun _ => True

/-- Such a pool is moved inside the relation, and stays such a pool. -/
def Inside (inv : σ → Prop) (relation : σ → σ → Prop) (pool moved : Pool σ) : Prop :=
  pool.Yields inv relation →
    moved.Yields inv relation ∧ relation pool.shared moved.shared

/-- Moves inside the relation keep the pool such a pool, as the states do the invariant. -/
theorem keeping_inside
    (keeping : Keeping inv relation) :
    Keeping (Pool.Yields inv relation) (Inside inv relation) where
  refl := fun _ yields => ⟨yields, keeping.refl _⟩
  trans := by
    intro first middle last earlier later yields
    obtain ⟨middleYields, moves⟩ := earlier yields
    obtain ⟨lastYields, movesOn⟩ := later middleYields
    exact ⟨lastYields, keeping.trans moves movesOn⟩
  keeps := fun _ _ yields moves => (moves yields).1

/-- A turn of a task stays inside, whichever task it is given to. -/
theorem step_inside
    (keeping : Keeping inv relation)
    (pool : Pool σ)
    (index : Nat)
    (settles : Settle) :
    Inside inv relation pool (pool.step index settles) := by
  intro yields
  unfold step
  split
  · next next found =>
      obtain ⟨moves, left⟩ :=
        yields_advance keeping
          (yields.tasks _ (List.mem_of_getElem? found) settles) yields.shared
      refine ⟨⟨keeping.keeps _ _ yields.shared moves, fun task member => ?_⟩, moves⟩
      rcases List.mem_or_eq_of_mem_set member with old | new
      · exact yields.tasks task old
      · exact new ▸ left
  · exact ⟨yields, keeping.refl _⟩

/-- A computation on the shared state moves the pool inside the relation. -/
theorem yields_onShared
    (keeping : Keeping inv relation)
    {property : α → Prop}
    {program : Async σ α}
    (yields : program.Yields inv relation property) :
    (onShared program).Yields (Pool.Yields inv relation) (Inside inv relation)
      property :=
  yields_zoom (fun _ pool => pool.shared)
    (fun _ moved _ moves pool =>
      ⟨⟨keeping.keeps _ moved pool.shared moves, pool.tasks⟩, moves⟩) yields

/-- A new task joins the pool when it yields itself. -/
theorem yields_spawn
    (keeping : Keeping inv relation)
    {task : Async σ Unit}
    (yields : task.Yields inv relation fun _ => True) :
    (spawn task).Yields (Pool.Yields inv relation) (Inside inv relation) fun _ => True := by
  refine yields_modify fun pool holds _ => ?_
  obtain ⟨moves, left⟩ := yields_advance keeping yields holds.shared
  refine ⟨⟨keeping.keeps _ _ holds.shared moves, fun member isMember => ?_⟩, moves⟩
  rcases List.mem_append.mp isMember with old | new
  · exact holds.tasks member old
  · exact List.mem_singleton.mp new ▸ left

end Pool

/-! ## Loops -/

namespace Running

variable {σ ι : Type} {body : Nat → Async (Pool σ) Unit} {act : ι → σ → σ}

section Contained

variable {inv : Pool σ → Prop} {relation : Pool σ → Pool σ → Prop}

/-- What a loop has reached, and what it is still going to do. -/
structure Contained (inv : Pool σ → Prop) (relation : Pool σ → Pool σ → Prop)
    (start : Pool σ) (running : Running σ) : Prop where
  loop : running.loop.Yields inv relation fun _ => True
  holds : inv running.pool
  reached : relation start running.pool

variable (keeping : Keeping inv relation)
variable (blocks : ∀ iteration, (body iteration).Yields inv relation fun _ => True)

include keeping blocks

/-- A block that begins is contained from where the loop has got to. -/
theorem begin_contained
    {start pool : Pool σ}
    (holds : inv pool)
    (reached : relation start pool)
    (iteration : Nat) :
    (begin body iteration pool).Contained inv relation start := by
  obtain ⟨moves, loop⟩ := yields_advance keeping (blocks iteration) holds
  exact ⟨loop, keeping.keeps _ _ holds moves, keeping.trans reached moves⟩

/-- A turn of the loop keeps what runs contained. -/
theorem resume_contained
    {start : Pool σ}
    {running : Running σ}
    (contained : running.Contained inv relation start)
    (settles : Settle) :
    (running.resume body settles).Contained inv relation start := by
  obtain ⟨pool, loop, iteration⟩ := running
  obtain ⟨loopYields, holds, reached⟩ := contained
  cases loop with
  | await next =>
      obtain ⟨moves, rest⟩ := yields_advance keeping (loopYields settles) holds
      have movedHolds := keeping.keeps _ _ holds moves
      have movedReached := keeping.trans reached moves
      simp only [resume]
      split
      · exact begin_contained keeping blocks movedHolds movedReached _
      · exact ⟨rest, movedHolds, movedReached⟩
  | done value => exact ⟨loopYields, holds, reached⟩
  | fail reason => exact ⟨loopYields, holds, reached⟩
  | sync update next => exact ⟨loopYields, holds, reached⟩

/-- Run lemma: whoever moves, the pool stays related to the one the loop started with. -/
theorem run_contained
    (steps :
      ∀ pool index settles, inv pool → relation pool (pool.step index settles))
    (outside :
      ∀ move (pool : Pool σ),
        inv pool → relation pool { pool with shared := act move pool.shared })
    {shared : σ}
    (starts : inv { shared := shared, tasks := [] })
    (turns : List (Turn ι)) :
    (run body act shared turns).Contained inv relation
      { shared := shared, tasks := [] } := by
  have started := begin_contained keeping blocks starts (keeping.refl _) 0
  unfold run
  generalize begin body 0 { shared := shared, tasks := [] } = running at started
  induction turns generalizing running with
  | nil =>
      exact started
  | cons turn rest inductionHypothesis =>
      rw [List.foldl_cons]
      apply inductionHypothesis
      have move {pool : Pool σ} (moves : relation running.pool pool) :
          Contained inv relation { shared := shared, tasks := [] }
            { running with pool := pool } :=
        ⟨started.loop, keeping.keeps _ _ started.holds moves,
          keeping.trans started.reached moves⟩
      cases turn with
      | loop settles =>
          exact resume_contained keeping blocks started settles
      | task index settles =>
          exact move (steps _ index settles started.holds)
      | outside outsider =>
          exact move (outside outsider _ started.holds)

end Contained

/-- A loop whose blocks, tasks and surroundings keep to a relation never leaves it. -/
theorem run_inside
    {inv : σ → Prop}
    {relation : σ → σ → Prop}
    (keeping : Keeping inv relation)
    (blocks :
      ∀ iteration,
        (body iteration).Yields (Pool.Yields inv relation) (Pool.Inside inv relation)
          fun _ => True)
    (outside : ∀ move state, inv state → relation state (act move state))
    {shared : σ}
    (starts : inv shared)
    (turns : List (Turn ι)) :
    relation shared (run body act shared turns).pool.shared := by
  have started : Pool.Yields inv relation { shared := shared, tasks := [] } :=
    ⟨starts, by simp⟩
  have contained :=
    run_contained (Pool.keeping_inside keeping) blocks
      (fun pool index settles _ => Pool.step_inside keeping pool index settles)
      (fun move pool _ yields =>
        have moves := outside move pool.shared yields.shared
        ⟨⟨keeping.keeps _ _ yields.shared moves, yields.tasks⟩, moves⟩)
      started turns
  exact (contained.reached started).2

end Running

end CsmProver
