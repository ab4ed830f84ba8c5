import CsmProver.Async.Yields

namespace CsmProver

/-!
# Tasks that exclude each other

A task may take something, a flag say, hold it over its suspensions and give it
back before it ends.  When it can be taken only while nobody holds it, at most
one task holds it in every interleaving, whoever starts and resumes the tasks.
Whatever holds of the state while it is free is then found by the next task that
takes it.
-/

namespace Async

variable {σ τ ι α β : Type}

/--
From a state on, a computation holds something until it gives it back, and then
keeps to what everybody else keeps to.
-/
def Releases (apart : σ → σ → Prop) (held free : σ → Prop) : Async σ α → σ → Prop
  | .done _, state => free state
  | .fail _, state => free state
  | .sync update next, state => Releases apart held free (next state) (update state)
  | .await next, state =>
      (held state ∧
        ∀ moved,
          apart state moved → ∀ settles, Releases apart held free (next settles) moved) ∨
      (free state ∧ ∀ settles, (next settles).Guarantees apart)

section Rules

variable {apart : σ → σ → Prop} {held free : σ → Prop}

/-- What holds nothing keeps it free. -/
theorem releases_of_guarantees
    (freeStays : ∀ state moved, free state → apart state moved → free moved)
    {program : Async σ α}
    (guarantees : program.Guarantees apart)
    {state : σ}
    (isFree : free state) :
    program.Releases apart held free state := by
  induction program generalizing state with
  | done value =>
      exact isFree
  | fail reason =>
      exact isFree
  | sync update next inductionHypothesis =>
      exact inductionHypothesis state (guarantees state).2
        (freeStays _ _ isFree (guarantees state).1)
  | await next inductionHypothesis =>
      exact .inr ⟨isFree, guarantees⟩

/-- What a computation holds at its suspensions it has given back when it ends. -/
theorem releases_of_wp
    {program : Async σ α}
    {state : σ}
    (holds :
      wp { rely := apart, suspended := held, aborted := fun _ => free }
        (fun _ => free) program state) :
    program.Releases apart held free state := by
  induction program generalizing state with
  | done value =>
      exact holds
  | fail reason =>
      exact holds
  | sync update next inductionHypothesis =>
      exact inductionHypothesis state holds
  | await next inductionHypothesis =>
      exact .inl ⟨holds.1, fun moved moves settles =>
        inductionHypothesis settles (holds.2 moved moves settles)⟩

theorem releases_attempt
    {program : Async σ α}
    {state : σ}
    (releases : program.Releases apart held free state) :
    (attempt program).Releases apart held free state := by
  induction program generalizing state with
  | done value =>
      exact releases
  | fail reason =>
      exact releases
  | sync update next inductionHypothesis =>
      exact inductionHypothesis state releases
  | await next inductionHypothesis =>
      rcases releases with ⟨isHeld, waits⟩ | ⟨isFree, guarantees⟩
      · exact .inl ⟨isHeld, fun moved moves settles =>
          inductionHypothesis settles (waits moved moves settles)⟩
      · exact .inr ⟨isFree, fun settles => guarantees_attempt (guarantees settles)⟩

/-- What follows a computation that has given everything back holds nothing. -/
theorem releases_bind
    (freeStays : ∀ state moved, free state → apart state moved → free moved)
    {program : Async σ α}
    {body : α → Async σ β}
    {state : σ}
    (releases : program.Releases apart held free state)
    (rest : ∀ value, (body value).Guarantees apart) :
    (program >>= body).Releases apart held free state := by
  induction program generalizing state with
  | done value =>
      exact releases_of_guarantees freeStays (rest value) releases
  | fail reason =>
      exact releases
  | sync update next inductionHypothesis =>
      exact inductionHypothesis state releases
  | await next inductionHypothesis =>
      rcases releases with ⟨isHeld, waits⟩ | ⟨isFree, guarantees⟩
      · exact .inl ⟨isHeld, fun moved moves settles =>
          inductionHypothesis settles (waits moved moves settles)⟩
      · exact .inr ⟨isFree, fun settles => guarantees_bind (guarantees settles) rest⟩

theorem releases_callCatching_bind
    (freeStays : ∀ state moved, free state → apart state moved → free moved)
    {body : Async σ α}
    {next : Except Abort α → Async σ β}
    {state : σ}
    (releases : body.Releases apart held free state)
    (rest : ∀ outcome, (next outcome).Guarantees apart) :
    (callCatching body >>= next).Releases apart held free state := by
  simp only [callCatching, bind_assoc]
  refine releases_bind freeStays (releases_attempt releases) fun outcome => ?_
  exact guarantees_bind guarantees_tick fun _ => rest outcome

/-- A promise whose failure is caught, and which nobody awaits. -/
theorem releases_onCatch
    (freeStays : ∀ state moved, free state → apart state moved → free moved)
    {body : Async σ Unit}
    {state : σ}
    (releases : body.Releases apart held free state) :
    (onCatch body).Releases apart held free state :=
  releases_callCatching_bind freeStays releases fun _ => trivial

theorem releases_onFinally
    (freeStays : ∀ state moved, free state → apart state moved → free moved)
    {body : Async σ α}
    {callback : Async σ Unit}
    {state : σ}
    (releases : body.Releases apart held free state)
    (calls : callback.Guarantees apart) :
    (onFinally body callback).Releases apart held free state :=
  releases_callCatching_bind freeStays releases fun outcome =>
    guarantees_bind calls fun _ => guarantees_ofOutcome outcome

theorem releases_advance
    {program : Async σ α}
    {state : σ}
    (releases : program.Releases apart held free state) :
    (program.advance state).1.Releases apart held free (program.advance state).2 := by
  induction program generalizing state with
  | done value =>
      exact releases
  | fail reason =>
      exact releases
  | sync update next inductionHypothesis =>
      exact inductionHypothesis state releases
  | await next inductionHypothesis =>
      exact releases

end Rules

/-! ## Giving up -/

/-- The first block of a computation keeps apart from a state, and so does what is left. -/
def Passes (apart : σ → σ → Prop) (origin : σ) (program : Async σ α) (state : σ) : Prop :=
  apart origin (program.advance state).2 ∧ (program.advance state).1.Guarantees apart

section Passes

variable {apart : σ → σ → Prop} {origin : σ}

theorem passes_attempt
    {program : Async σ α}
    {state : σ}
    (passes : program.Passes apart origin state) :
    (attempt program).Passes apart origin state := by
  induction program generalizing state with
  | done value =>
      exact passes
  | fail reason =>
      exact passes
  | sync update next inductionHypothesis =>
      exact inductionHypothesis state passes
  | await next inductionHypothesis =>
      exact ⟨passes.1, fun settles => guarantees_attempt (passes.2 settles)⟩

theorem passes_bind
    (refl : ∀ state, apart state state)
    (trans :
      ∀ {first middle last}, apart first middle → apart middle last → apart first last)
    {program : Async σ α}
    {body : α → Async σ β}
    {state : σ}
    (passes : program.Passes apart origin state)
    (rest : ∀ value, (body value).Guarantees apart) :
    (program >>= body).Passes apart origin state := by
  induction program generalizing state with
  | done value =>
      obtain ⟨moved, kept⟩ := Pool.guarantees_advance refl trans (rest value) state
      exact ⟨trans passes.1 moved, kept⟩
  | fail reason =>
      exact passes
  | sync update next inductionHypothesis =>
      exact inductionHypothesis state passes
  | await next inductionHypothesis =>
      exact ⟨passes.1, fun settles => guarantees_bind (passes.2 settles) rest⟩

theorem passes_callCatching_bind
    (refl : ∀ state, apart state state)
    (trans :
      ∀ {first middle last}, apart first middle → apart middle last → apart first last)
    {body : Async σ α}
    {next : Except Abort α → Async σ β}
    {state : σ}
    (passes : body.Passes apart origin state)
    (rest : ∀ outcome, (next outcome).Guarantees apart) :
    (callCatching body >>= next).Passes apart origin state := by
  simp only [callCatching, bind_assoc]
  refine passes_bind refl trans (passes_attempt passes) fun outcome => ?_
  exact guarantees_bind guarantees_tick fun _ => rest outcome

end Passes

/-! ## A part of the state -/

/-- A computation on a part meets its protocol inside the whole. -/
theorem wp_zoom
    {get : τ → σ}
    {put : σ → τ → τ}
    {protocol : Protocol σ}
    {whole : Protocol τ}
    (context : τ → Prop)
    {post : α → σ → Prop}
    {program : Async σ α}
    {state : τ}
    (holds : wp protocol post program (get state))
    (inContext : context state)
    (getPut : ∀ part state, get (put part state) = part)
    (contextPut : ∀ part state, context state → context (put part state))
    (relies :
      ∀ {state moved},
        context state → protocol.suspended (get state) → whole.rely state moved →
        context moved ∧ protocol.rely (get state) (get moved))
    (suspends :
      ∀ state, context state → protocol.suspended (get state) → whole.suspended state)
    (aborts :
      ∀ reason state,
        context state → protocol.aborted reason (get state) → whole.aborted reason state) :
    wp whole (fun value final => context final ∧ post value (get final))
      (zoom get put program) state := by
  induction program generalizing state with
  | done value =>
      exact ⟨inContext, holds⟩
  | fail reason =>
      exact aborts reason state inContext holds
  | sync update next inductionHypothesis =>
      refine inductionHypothesis (get state) ?_ (contextPut _ _ inContext)
      rw [getPut]
      exact holds
  | await next inductionHypothesis =>
      refine ⟨suspends state inContext holds.1, fun moved relied settles => ?_⟩
      obtain ⟨stillInContext, moves⟩ := relies inContext holds.1 relied
      exact inductionHypothesis settles (holds.2 _ moves settles) stillInContext

/-- A protocol under which nothing is known of the state. -/
def anything : Protocol σ where
  rely := fun _ _ => True
  suspended := fun _ => True
  aborted := fun _ _ => True

/--
What a computation on a part answers whatever happens meanwhile it answers inside the
whole, of which it keeps what its updates do not break.
-/
theorem wp_zoom_answers
    {get : τ → σ}
    {put : σ → τ → τ}
    {relation : σ → σ → Prop}
    {property : α → Prop}
    {rely : τ → τ → Prop}
    {suspended assertion : τ → Prop}
    {program : Async σ α}
    {state : τ}
    (steady : Steady rely suspended assertion)
    (getPut : ∀ part state, get (put part state) = part)
    (keeps :
      ∀ state part, assertion state → relation (get state) part → assertion (put part state))
    (answers : wp anything (fun value _ => property value) program (get state))
    (guarantees : program.Guarantees relation)
    (holds : assertion state) :
    wp { rely := rely, suspended := suspended, aborted := fun _ => assertion }
      (fun value final => property value ∧ assertion final) (zoom get put program) state := by
  induction program generalizing state with
  | done value =>
      exact ⟨answers, holds⟩
  | fail reason =>
      exact holds
  | sync update next inductionHypothesis =>
      refine inductionHypothesis (get state) ?_ (guarantees (get state)).2
        (keeps _ _ holds (guarantees (get state)).1)
      rw [getPut]
      exact answers
  | await next inductionHypothesis =>
      refine ⟨steady.suspends holds, fun moved relied settles => ?_⟩
      exact inductionHypothesis settles (answers.2 (get moved) trivial settles)
        (guarantees settles) (steady.stays holds relied)

/-- A computation that meets a protocol meets every weaker one. -/
theorem wp_weaken
    {protocol weaker : Protocol σ}
    {post weakerPost : α → σ → Prop}
    {program : Async σ α}
    {state : σ}
    (holds : wp protocol post program state)
    (relies : ∀ {state moved}, weaker.rely state moved → protocol.rely state moved)
    (suspends : ∀ state, protocol.suspended state → weaker.suspended state)
    (aborts : ∀ reason state, protocol.aborted reason state → weaker.aborted reason state)
    (returns : ∀ value state, post value state → weakerPost value state) :
    wp weaker weakerPost program state := by
  induction program generalizing state with
  | done value =>
      exact returns value state holds
  | fail reason =>
      exact aborts reason state holds
  | sync update next inductionHypothesis =>
      exact inductionHypothesis state holds
  | await next inductionHypothesis =>
      exact ⟨suspends state holds.1, fun moved relied settles =>
        inductionHypothesis settles (holds.2 moved (relies relied) settles)⟩

/-- What a computation ends in leads further on. -/
theorem leads_bind_of_imp
    {rely : σ → σ → Prop}
    {suspended first middle last : σ → Prop}
    {body : Async σ α}
    {next : α → Async σ β}
    (begins : Leads rely suspended first middle body)
    (within : ∀ state, middle state → last state)
    (continues : ∀ value, Leads rely suspended middle last (next value)) :
    Leads rely suspended first last (body >>= next) := by
  refine ⟨fun state holds => ?_⟩
  rw [wp_bind]
  refine wp_weaken (begins.ends state holds) (fun relied => relied) (fun _ => id)
    (fun _ => within) ?_
  exact fun value final reached => (continues value).ends final reached

/-- Less may be known of the states a computation ends in. -/
theorem Leads.reaches
    {rely : σ → σ → Prop}
    {suspended first middle last : σ → Prop}
    {program : Async σ α}
    (leads : Leads rely suspended first middle program)
    (within : ∀ state, middle state → last state) :
    Leads rely suspended first last program :=
  ⟨fun state holds =>
    wp_weaken (leads.ends state holds) (fun relied => relied) (fun _ => id)
      (fun _ => within) fun _ => within⟩

/-- What follows a request rests on the answer it was given. -/
theorem leads_request_bind
    {rely : σ → σ → Prop}
    {suspended first last : σ → Prop}
    {answer : α}
    {next : α → Async σ β}
    (steady : Steady rely suspended first)
    (within : ∀ state, first state → last state)
    (continues : Leads rely suspended first last (next answer)) :
    Leads rely suspended first last (request answer >>= next) := by
  refine ⟨fun state holds => ?_⟩
  rw [wp_bind, wp_request]
  refine ⟨steady.suspends holds, fun moved relied => ?_⟩
  have stays := steady.stays holds relied
  exact ⟨continues.ends moved stays, within moved stays⟩

/-- What a body has reached is still there when its caller is resumed. -/
theorem wp_call_of_stays
    {protocol : Protocol σ}
    {post : α → σ → Prop}
    {body : Async σ α}
    {state : σ}
    (holds : wp protocol post body state)
    (suspends : ∀ value final, post value final → protocol.suspended final)
    (stays :
      ∀ value final moved, post value final → protocol.rely final moved → post value moved) :
    wp protocol post (call body) state :=
  (wp_call body post state).mpr <|
    wp_mono holds fun value final reached =>
      ⟨suspends value final reached, fun moved relied => stays value final moved reached relied⟩

/-- A computation that meets two protocols meets both at once. -/
theorem wp_and
    {first second : Protocol σ}
    {firstPost secondPost : α → σ → Prop}
    {program : Async σ α}
    {state : σ}
    (meetsFirst : wp first firstPost program state)
    (meetsSecond : wp second secondPost program state) :
    wp
      { rely := fun state moved => first.rely state moved ∧ second.rely state moved
        suspended := fun state => first.suspended state ∧ second.suspended state
        aborted := fun reason state =>
          first.aborted reason state ∧ second.aborted reason state }
      (fun value state => firstPost value state ∧ secondPost value state)
      program state := by
  induction program generalizing state with
  | done value =>
      exact ⟨meetsFirst, meetsSecond⟩
  | fail reason =>
      exact ⟨meetsFirst, meetsSecond⟩
  | sync update next inductionHypothesis =>
      exact inductionHypothesis state meetsFirst meetsSecond
  | await next inductionHypothesis =>
      refine ⟨⟨meetsFirst.1, meetsSecond.1⟩, fun moved relied settles => ?_⟩
      exact inductionHypothesis settles (meetsFirst.2 moved relied.1 settles)
        (meetsSecond.2 moved relied.2 settles)

/--
A computation nobody interferes with passes only through states of its own runs,
each of them reached by a script of suspensions in which nobody else moves.
-/
theorem wp_runs
    (act : ι → σ → σ)
    (program : Async σ α)
    (start : σ) :
    wp
      { rely := Eq
        suspended := fun state => ∃ script, (run act program script start).2 = state
        aborted := fun reason state =>
          ∃ script, run act program script start = (.fail reason, state) }
      (fun value state => ∃ script, run act program script start = (.done value, state))
      program start := by
  suffices reached :
      ∀ (rest : Async σ α) (state : σ) (past : List (Beat ι)),
        (∀ script,
          run act program (past ++ script) start =
            resume act script (rest.advance state).1 (rest.advance state).2) →
        wp
          { rely := Eq
            suspended := fun state => ∃ script, (run act program script start).2 = state
            aborted := fun reason state =>
              ∃ script, run act program script start = (.fail reason, state) }
          (fun value state =>
            ∃ script, run act program script start = (.done value, state))
          rest state from
    reached program start [] fun _ => rfl
  have here
      {rest : Async σ α}
      {state : σ}
      {past : List (Beat ι)}
      (continues :
        ∀ script,
          run act program (past ++ script) start =
            resume act script (rest.advance state).1 (rest.advance state).2) :
      run act program past start = rest.advance state := by
    have atPast := continues []
    rw [List.append_nil] at atPast
    rw [atPast]
    cases rest.advance state
    rfl
  intro rest
  induction rest with
  | done value =>
      exact fun state past continues => ⟨past, here continues⟩
  | fail reason =>
      exact fun state past continues => ⟨past, here continues⟩
  | sync update next inductionHypothesis =>
      exact fun state past continues =>
        inductionHypothesis state (update state) past continues
  | await next inductionHypothesis =>
      intro state past continues
      refine ⟨⟨past, congrArg Prod.snd (here continues)⟩, ?_⟩
      rintro _ rfl settles
      apply inductionHypothesis settles state (past ++ [.quiet settles])
      intro script
      rw [List.append_assoc, continues]
      rfl

end Async

open Async

/-! ## Pools -/

namespace Pool

variable {σ α : Type}

/-- What may be held, when it is free, and what everybody may do meanwhile. -/
structure Region (apart : σ → σ → Prop) (held free : σ → Prop) : Prop where
  refl : ∀ state, apart state state
  trans :
    ∀ {first middle last}, apart first middle → apart middle last → apart first last
  heldStays : ∀ state moved, held state → apart state moved → held moved
  freeStays : ∀ state moved, free state → apart state moved → free moved

/-- Nobody holds anything, or one task does; everybody else keeps apart. -/
def Exclusive (apart : σ → σ → Prop) (held free : σ → Prop) (pool : Pool σ) : Prop :=
  (free pool.shared ∧ pool.Guarantees apart) ∨
  ∃ (owner : Nat) (next : Settle → Async σ Unit),
    pool.tasks[owner]? = some (.await next) ∧
    (held pool.shared ∧
      ∀ moved,
        apart pool.shared moved →
        ∀ settles, (next settles).Releases apart held free moved) ∧
    ∀ index task,
      index ≠ owner → pool.tasks[index]? = some task → task.Guarantees apart

section Exclusive

variable {apart : σ → σ → Prop} {held free : σ → Prop}

theorem Exclusive.held_or_free
    {pool : Pool σ}
    (exclusive : pool.Exclusive apart held free) :
    held pool.shared ∨ free pool.shared := by
  rcases exclusive with ⟨isFree, _⟩ | ⟨_, _, _, ⟨isHeld, _⟩, _⟩
  · exact .inr isFree
  · exact .inl isHeld

/-- What is not free is held by a task that waits. -/
theorem Exclusive.free_or_waits
    {pool : Pool σ}
    (exclusive : pool.Exclusive apart held free) :
    free pool.shared ∨ ∃ task ∈ pool.tasks, task.Suspended := by
  rcases exclusive with ⟨isFree, _⟩ | ⟨owner, next, found, _, _⟩
  · exact .inl isFree
  · exact .inr ⟨_, List.mem_of_getElem? found, trivial⟩

/-- A move that keeps apart changes nothing about who holds what. -/
theorem Exclusive.moved
    {pool : Pool σ}
    (exclusive : pool.Exclusive apart held free)
    (region : Region apart held free)
    {shared : σ}
    (moves : apart pool.shared shared) :
    { pool with shared := shared }.Exclusive apart held free := by
  rcases exclusive with ⟨isFree, tasks⟩ | ⟨owner, next, found, ⟨isHeld, waits⟩, others⟩
  · exact .inl ⟨region.freeStays _ _ isFree moves, tasks⟩
  · exact .inr ⟨owner, next, found,
      ⟨region.heldStays _ _ isHeld moves, fun later further =>
        waits later (region.trans moves further)⟩,
      others⟩

/-- Another task joins the pool. -/
theorem Exclusive.join
    {pool : Pool σ}
    (exclusive : pool.Exclusive apart held free)
    (region : Region apart held free)
    {shared : σ}
    (moves : apart pool.shared shared)
    {task : Async σ Unit}
    (guarantees : task.Guarantees apart) :
    { shared := shared, tasks := pool.tasks ++ [task] : Pool σ }.Exclusive apart held
      free := by
  rcases exclusive.moved region moves with
    ⟨isFree, tasks⟩ | ⟨owner, next, found, waits, others⟩
  · refine .inl ⟨isFree, fun member isMember => ?_⟩
    rcases List.mem_append.mp isMember with old | new
    · exact tasks member old
    · exact List.mem_singleton.mp new ▸ guarantees
  · have inside : owner < pool.tasks.length := (List.getElem?_eq_some_iff.mp found).1
    refine .inr ⟨owner, next, ?_, waits, ?_⟩
    · rw [List.getElem?_append_left inside]
      exact found
    · intro index member different atIndex
      rcases Nat.lt_or_ge index pool.tasks.length with old | new
      · rw [List.getElem?_append_left old] at atIndex
        exact others index member different atIndex
      · rw [List.getElem?_append_right new] at atIndex
        exact List.mem_singleton.mp (List.mem_of_getElem? atIndex) ▸ guarantees

/-- The pool after a task of it, alone in what it holds, has run its block. -/
theorem exclusive_of_block
    {tasks : List (Async σ Unit)}
    {owner : Nat}
    {program : Async σ Unit}
    {shared : σ}
    (inside : owner < tasks.length)
    (ready : program.Ready)
    (releases : program.Releases apart held free shared)
    (others :
      ∀ index task,
        index ≠ owner → tasks[index]? = some task → task.Guarantees apart) :
    { shared := shared, tasks := tasks.set owner program : Pool σ }.Exclusive apart held
      free := by
  have kept
      (ownGuarantees : program.Guarantees apart) :
      ∀ task ∈ tasks.set owner program, task.Guarantees apart := by
    intro task member
    obtain ⟨position, atPosition⟩ := List.mem_iff_getElem?.mp member
    by_cases isOwner : position = owner
    · rw [isOwner, List.getElem?_set_self inside, Option.some.injEq] at atPosition
      exact atPosition ▸ ownGuarantees
    · rw [List.getElem?_set_ne (Ne.symm isOwner)] at atPosition
      exact others position task isOwner atPosition
  cases program with
  | done value =>
      exact .inl ⟨releases, kept trivial⟩
  | fail reason =>
      exact .inl ⟨releases, kept trivial⟩
  | sync update next =>
      exact ready.elim
  | await next =>
      rcases releases with waits | ⟨isFree, guarantees⟩
      · refine .inr ⟨owner, next, List.getElem?_set_self inside, waits, ?_⟩
        intro index task different atIndex
        rw [List.getElem?_set_ne (Ne.symm different)] at atIndex
        exact others index task different atIndex
      · exact .inl ⟨isFree, kept guarantees⟩

/-- Step lemma: a turn of any task keeps the tasks apart. -/
theorem Exclusive.step
    {pool : Pool σ}
    (exclusive : pool.Exclusive apart held free)
    (region : Region apart held free)
    (index : Nat)
    (settles : Settle) :
    (pool.step index settles).Exclusive apart held free := by
  rcases exclusive with ⟨isFree, tasks⟩ | ⟨owner, next, found, ⟨isHeld, waits⟩, others⟩
  · obtain ⟨moved, kept⟩ := step_guarantees region.refl region.trans tasks index settles
    exact .inl ⟨region.freeStays _ _ isFree moved, kept⟩
  · by_cases isOwner : index = owner
    · subst isOwner
      simp only [Pool.step, found]
      exact exclusive_of_block (List.getElem?_eq_some_iff.mp found).1
        (ready_advance _ _) (releases_advance (waits _ (region.refl _) settles)) others
    · unfold Pool.step
      split
      · next otherNext otherFound =>
          obtain ⟨moved, kept⟩ :=
            guarantees_advance region.refl region.trans
              (others index _ isOwner otherFound settles) pool.shared
          refine .inr ⟨owner, next, ?_,
            ⟨region.heldStays _ _ isHeld moved, fun later further =>
              waits later (region.trans moved further)⟩, ?_⟩
          · rw [List.getElem?_set_ne isOwner]
            exact found
          · intro position task different atPosition
            by_cases samePosition : position = index
            · have inside := (List.getElem?_eq_some_iff.mp otherFound).1
              rw [samePosition, List.getElem?_set_self inside,
                Option.some.injEq] at atPosition
              exact atPosition ▸ kept
            · rw [List.getElem?_set_ne (Ne.symm samePosition)] at atPosition
              exact others position task different atPosition
      · exact .inr ⟨owner, next, found, ⟨isHeld, waits⟩, others⟩

/-- A loop's block keeps the tasks apart. -/
abbrev KeepsExclusive (apart : σ → σ → Prop) (held free : σ → Prop)
    (program : Async (Pool σ) α) : Prop :=
  program.Guarantees fun pool moved =>
    pool.Exclusive apart held free → moved.Exclusive apart held free

theorem keepsExclusive_onShared
    (region : Region apart held free)
    {program : Async σ α}
    (guarantees : program.Guarantees apart) :
    KeepsExclusive apart held free (onShared program) :=
  guarantees_zoom
    (fun _ _ moves exclusive => exclusive.moved region moves) guarantees

/-- Start a task that has nothing to do with what is held. -/
theorem keepsExclusive_spawn
    (region : Region apart held free)
    {task : Async σ Unit}
    (guarantees : task.Guarantees apart) :
    KeepsExclusive apart held free (spawn task) := by
  refine (guarantees_modify _).mpr fun pool exclusive => ?_
  obtain ⟨moved, kept⟩ := guarantees_advance region.refl region.trans guarantees pool.shared
  exact exclusive.join region moved kept

/-- The pool after a task has taken what was free, or has given up. -/
theorem Exclusive.taking
    {pool : Pool σ}
    (exclusive : pool.Exclusive apart held free)
    (region : Region apart held free)
    {task : Async σ Unit}
    (takes : free pool.shared → task.Releases apart held free pool.shared)
    (givesUp : held pool.shared → task.Passes apart pool.shared pool.shared) :
    { shared := (task.advance pool.shared).2
      tasks := pool.tasks ++ [(task.advance pool.shared).1] : Pool σ }.Exclusive apart held
        free := by
  rcases exclusive with ⟨isFree, tasks⟩ | ⟨owner, next, found, ⟨isHeld, waits⟩, others⟩
  · have block :=
      @exclusive_of_block σ apart held free (pool.tasks ++ [task]) pool.tasks.length
        (task.advance pool.shared).1 (task.advance pool.shared).2 (by simp)
        (ready_advance _ _) (releases_advance (takes isFree)) (by
          intro index other different atIndex
          rcases Nat.lt_or_ge index pool.tasks.length with old | new
          · rw [List.getElem?_append_left old] at atIndex
            exact tasks other (List.mem_of_getElem? atIndex)
          · have inside := (List.getElem?_eq_some_iff.mp atIndex).1
            simp only [List.length_append, List.length_singleton] at inside
            omega)
    simpa using block
  · obtain ⟨moves, kept⟩ := givesUp isHeld
    exact
      Exclusive.join (.inr ⟨owner, next, found, ⟨isHeld, waits⟩, others⟩) region moves
        kept

/-- Start a task that takes what is free and gives up when it is held. -/
theorem keepsExclusive_spawn_taking
    (region : Region apart held free)
    {task : Async σ Unit}
    (takes : ∀ state, free state → task.Releases apart held free state)
    (givesUp : ∀ state, held state → task.Passes apart state state) :
    KeepsExclusive apart held free (spawn task) :=
  (guarantees_modify _).mpr fun pool exclusive =>
    exclusive.taking region (takes pool.shared) (givesUp pool.shared)

end Exclusive

end Pool

end CsmProver
