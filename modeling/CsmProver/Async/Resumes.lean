import CsmProver.Async.Yields
import Mathlib.Data.List.Induction

namespace CsmProver

/-!
# Updates that rest on an invariant of the pool

What one task keeps may be broken by another in the middle of a block and be
restored before the block ends.  An invariant known of every state in which a
task can be resumed may then be used by the tasks, although not every update
keeps it.
-/

namespace Async

variable {σ τ α β : Type}

/--
From a state on, every update lies in the relation, if the invariant holds whenever
the computation is resumed.
-/
def Resumes (inv : σ → Prop) (relation : σ → σ → Prop) : Async σ α → σ → Prop
  | .done _, _ => True
  | .fail _, _ => True
  | .sync update next, state =>
      relation state (update state) ∧ Resumes inv relation (next state) (update state)
  | .await next, _ =>
      ∀ moved, inv moved → ∀ settles, Resumes inv relation (next settles) moved

section Rules

variable {inv : σ → Prop} {relation : σ → σ → Prop}

/-- What every update does is done whenever the computation is resumed. -/
theorem resumes_of_guarantees
    {program : Async σ α}
    (guarantees : program.Guarantees relation)
    (state : σ) :
    program.Resumes inv relation state := by
  induction program generalizing state with
  | done value =>
      trivial
  | fail reason =>
      trivial
  | sync update next inductionHypothesis =>
      exact ⟨(guarantees state).1,
        inductionHypothesis state (guarantees state).2 (update state)⟩
  | await next inductionHypothesis =>
      exact fun moved _ settles => inductionHypothesis settles (guarantees settles) moved

/-- A computation that keeps the invariant itself may use it in all of its blocks. -/
theorem resumes_of_yields
    {yielding : σ → σ → Prop}
    {property : α → Prop}
    (keeps : ∀ state moved, inv state → yielding state moved → inv moved)
    (contained : ∀ state moved, yielding state moved → relation state moved)
    {program : Async σ α}
    (yields : program.Yields inv yielding property)
    {state : σ}
    (holds : inv state) :
    program.Resumes inv relation state := by
  induction program generalizing state with
  | done value =>
      trivial
  | fail reason =>
      trivial
  | sync update next inductionHypothesis =>
      obtain ⟨moves, rest⟩ := yields state holds
      exact ⟨contained _ _ moves,
        inductionHypothesis state rest (keeps _ _ holds moves)⟩
  | await next inductionHypothesis =>
      exact fun moved movedHolds settles =>
        inductionHypothesis settles (yields settles) movedHolds

/-- One part after the other, the second from whatever state it finds. -/
theorem resumes_bind
    {program : Async σ α}
    {body : α → Async σ β}
    {state : σ}
    (first : program.Resumes inv relation state)
    (rest : ∀ value state, (body value).Resumes inv relation state) :
    (program >>= body).Resumes inv relation state := by
  induction program generalizing state with
  | done value =>
      exact rest value state
  | fail reason =>
      trivial
  | sync update next inductionHypothesis =>
      exact ⟨first.1, inductionHypothesis state first.2⟩
  | await next inductionHypothesis =>
      exact fun moved holds settles => inductionHypothesis settles (first moved holds settles)

/-- Reading does not count. -/
theorem resumes_read_bind
    (refl : ∀ state, relation state state)
    {body : σ → Async σ β}
    (rest : ∀ seen state, (body seen).Resumes inv relation state)
    (state : σ) :
    (read >>= body).Resumes inv relation state :=
  ⟨refl state, rest state state⟩

/-- An update lies in the relation, and so does the rest. -/
theorem resumes_modify_bind
    {update : σ → σ}
    {body : Unit → Async σ β}
    (contained : ∀ state, relation state (update state))
    (rest : ∀ state, (body ()).Resumes inv relation state)
    (state : σ) :
    (modify update >>= body).Resumes inv relation state :=
  ⟨contained state, rest (update state)⟩

/-- A known outcome changes nothing. -/
theorem resumes_ofOutcome
    (outcome : Except Abort α)
    (state : σ) :
    (ofOutcome outcome : Async σ α).Resumes inv relation state := by
  cases outcome <;> trivial

/-- What follows a request is resumed with its answer. -/
theorem resumes_request_bind
    {answer : α}
    {body : α → Async σ β}
    (rest : ∀ moved, inv moved → (body answer).Resumes inv relation moved)
    (state : σ) :
    (request answer >>= body).Resumes inv relation state := by
  intro moved holds settles
  cases settles with
  | resolved => exact rest moved holds
  | rejected => trivial

/-- Catching an error does what the body does. -/
theorem resumes_attempt
    {program : Async σ α}
    {state : σ}
    (resumes : program.Resumes inv relation state) :
    (attempt program).Resumes inv relation state := by
  induction program generalizing state with
  | done value =>
      trivial
  | fail reason =>
      trivial
  | sync update next inductionHypothesis =>
      exact ⟨resumes.1, inductionHypothesis state resumes.2⟩
  | await next inductionHypothesis =>
      exact fun moved holds settles =>
        inductionHypothesis settles (resumes moved holds settles)

/-- What follows a caught call is resumed after it. -/
theorem resumes_callCatching_bind
    {body : Async σ α}
    {next : Except Abort α → Async σ β}
    {state : σ}
    (resumes : body.Resumes inv relation state)
    (rest : ∀ outcome state, (next outcome).Resumes inv relation state) :
    (callCatching body >>= next).Resumes inv relation state := by
  simp only [callCatching, bind_assoc]
  refine resumes_bind (resumes_attempt resumes) fun outcome _ => ?_
  exact fun moved _ _ => rest outcome moved

/-- A computation on a part, in a whole whose invariant says enough about the part. -/
theorem resumes_zoom
    {get : τ → σ}
    {put : σ → τ → τ}
    {whole : τ → Prop}
    {wholeRelation : τ → τ → Prop}
    (getPut : ∀ part state, get (put part state) = part)
    (restricts : ∀ state, whole state → inv (get state))
    (lifts :
      ∀ state moved, relation (get state) moved → wholeRelation state (put moved state))
    {program : Async σ α}
    {state : τ}
    (resumes : program.Resumes inv relation (get state)) :
    (zoom get put program).Resumes whole wholeRelation state := by
  induction program generalizing state with
  | done value =>
      trivial
  | fail reason =>
      trivial
  | sync update next inductionHypothesis =>
      refine ⟨lifts _ _ resumes.1, inductionHypothesis (get state) ?_⟩
      rw [getPut]
      exact resumes.2
  | await next inductionHypothesis =>
      exact fun moved holds settles =>
        inductionHypothesis settles (resumes (get moved) (restricts moved holds) settles)

/-- A block keeps to the relation, and what is left waits for the invariant. -/
theorem resumes_advance
    (refl : ∀ state, relation state state)
    (trans :
      ∀ {first middle last},
        relation first middle → relation middle last → relation first last)
    {program : Async σ α}
    {state : σ}
    (resumes : program.Resumes inv relation state) :
    relation state (program.advance state).2 ∧
      ∀ other, (program.advance state).1.Resumes inv relation other := by
  induction program generalizing state with
  | done value =>
      exact ⟨refl state, fun _ => trivial⟩
  | fail reason =>
      exact ⟨refl state, fun _ => trivial⟩
  | sync update next inductionHypothesis =>
      obtain ⟨moves, left⟩ := inductionHypothesis state resumes.2
      exact ⟨trans resumes.1 moves, left⟩
  | await next inductionHypothesis =>
      exact ⟨refl state, fun _ => resumes⟩

end Rules

end Async

open Async

/-! ## Pools -/

namespace Pool

variable {σ : Type} {inv : σ → Prop} {relation : σ → σ → Prop}

/-- All tasks keep to the relation when they are resumed in states of the invariant. -/
def Resumes (inv : σ → Prop) (relation : σ → σ → Prop) (pool : Pool σ) : Prop :=
  ∀ task ∈ pool.tasks, ∀ state, task.Resumes inv relation state

/-- Such a pool is moved inside the relation, and stays such a pool. -/
def Within (inv : σ → Prop) (relation : σ → σ → Prop) (pool moved : Pool σ) : Prop :=
  pool.Resumes inv relation →
    moved.Resumes inv relation ∧ relation pool.shared moved.shared

variable (refl : ∀ state, relation state state)
variable
  (trans :
    ∀ {first middle last},
      relation first middle → relation middle last → relation first last)

include refl trans

/-- What is within the relation as long as the invariant holds is closed under composition. -/
theorem keeping_within :
    Keeping (fun _ => True) (Within inv relation) where
  refl := fun _ resumes => ⟨resumes, refl _⟩
  trans := by
    intro first middle last earlier later resumes
    obtain ⟨middleResumes, moves⟩ := earlier resumes
    obtain ⟨lastResumes, movesOn⟩ := later middleResumes
    exact ⟨lastResumes, trans moves movesOn⟩
  keeps := fun _ _ _ _ => trivial

/-- A task that is resumed in a state of the invariant keeps to the relation. -/
theorem step_within
    {pool : Pool σ}
    (known : pool.tasks ≠ [] → inv pool.shared)
    (index : Nat)
    (settles : Settle) :
    Within inv relation pool (pool.step index settles) := by
  intro resumes
  unfold step
  split
  · next next found =>
      have member := List.mem_of_getElem? found
      obtain ⟨moves, left⟩ :=
        resumes_advance refl trans
          (resumes _ member pool.shared pool.shared (known (List.ne_nil_of_mem member))
            settles)
      refine ⟨fun task isTask => ?_, moves⟩
      rcases List.mem_or_eq_of_mem_set isTask with old | new
      · exact resumes task old
      · exact new ▸ left
  · exact ⟨resumes, refl _⟩

omit refl trans in
/-- Code of the loop stays within what it guarantees. -/
theorem within_onShared
    {α : Type}
    {program : Async σ α}
    (guarantees : program.Guarantees relation) :
    (onShared program).Yields (fun _ => True) (Within inv relation) fun _ => True :=
  yields_of_guarantees
    (guarantees_zoom (fun _ _ moves resumes => ⟨resumes, moves⟩) guarantees)

/-- A task stays within what it does whenever it is resumed. -/
theorem within_spawn
    {task : Async σ Unit}
    (resumes : ∀ state, task.Resumes inv relation state) :
    (spawn task).Yields (fun _ => True) (Within inv relation) fun _ => True := by
  refine yields_modify fun pool _ pooled => ?_
  obtain ⟨moves, left⟩ := resumes_advance refl trans (resumes pool.shared)
  refine ⟨fun member isMember => ?_, moves⟩
  rcases List.mem_append.mp isMember with old | new
  · exact pooled member old
  · exact List.mem_singleton.mp new ▸ left

end Pool

/-! ## Loops -/

namespace Running

variable {σ ι : Type} {body : Nat → Async (Pool σ) Unit} {act : ι → σ → σ}

/-- Run lemma: with an invariant known while there are tasks, a loop stays in the relation. -/
theorem run_within
    {inv : σ → Prop}
    {relation : σ → σ → Prop}
    (refl : ∀ state, relation state state)
    (trans :
      ∀ {first middle last},
        relation first middle → relation middle last → relation first last)
    (blocks :
      ∀ iteration,
        (body iteration).Yields (fun _ => True) (Pool.Within inv relation) fun _ => True)
    (outside : ∀ move state, relation state (act move state))
    {shared : σ}
    {turns : List (Turn ι)}
    (known :
      ∀ earlier,
        earlier <+: turns →
        (run body act shared earlier).pool.tasks ≠ [] →
        inv (run body act shared earlier).pool.shared) :
    relation shared (run body act shared turns).pool.shared := by
  have keeping := @Pool.keeping_within σ inv relation refl trans
  have contained :
      (run body act shared turns).Contained (fun _ => True) (Pool.Within inv relation)
        { shared := shared, tasks := [] } := by
    induction turns using List.reverseRecOn with
    | nil =>
        exact begin_contained keeping blocks trivial (keeping.refl _) 0
    | append_singleton earlier last inductionHypothesis =>
        have started :=
          inductionHypothesis fun prior isPrior =>
            known prior (isPrior.trans (List.prefix_append earlier [last]))
        have unfolded :
            run body act shared (earlier ++ [last]) =
              turn body act (run body act shared earlier) last := by
          simp [run]
        rw [unfolded]
        cases last with
        | loop settles =>
            exact resume_contained keeping blocks started settles
        | task index settles =>
            have moves :=
              Pool.step_within refl trans
                (known earlier (List.prefix_append earlier _)) index settles
            exact ⟨started.loop, trivial, keeping.trans started.reached moves⟩
        | outside move =>
            refine ⟨started.loop, trivial, keeping.trans started.reached ?_⟩
            exact fun resumes => ⟨resumes, outside move _⟩
  exact (contained.reached (by simp [Pool.Resumes])).2

end Running

end CsmProver
