import CsmProver.Async.Logic

namespace CsmProver

/-!
# Pools of concurrently running tasks

Several computations share one state.  A schedule picks, step by step, a
suspended task and the way its promise settles; that task then runs its next
synchronous block, and nobody else moves in between.  Every schedule is an
interleaving of the tasks at their suspension points.
-/

/-- Concurrently running tasks over the shared state `σ`. -/
structure Pool (σ : Type) where
  shared : σ
  tasks : List (Async σ Unit)

namespace Pool

variable {σ : Type}

/-- Resume one task: its promise settles and its next synchronous block runs. -/
def step (pool : Pool σ) (index : Nat) (settles : Settle) : Pool σ :=
  match pool.tasks[index]? with
  | some (.await next) =>
      let advanced := (next settles).advance pool.shared
      { shared := advanced.2
        tasks := pool.tasks.set index advanced.1 }
  | _ => pool

/-- Start the given programs one after the other. -/
def start : List (Async σ Unit) → σ → Pool σ
  | [], state => { shared := state, tasks := [] }
  | program :: rest, state =>
      let advanced := program.advance state
      let started := start rest advanced.2
      { started with tasks := advanced.1 :: started.tasks }

/-- Drive a pool through a schedule. -/
def run (pool : Pool σ) : List (Nat × Settle) → Pool σ
  | [] => pool
  | (index, settles) :: rest => run (pool.step index settles) rest

/-! ## Invariants -/

section Invariant

variable {relation : σ → σ → Prop}

/-- A synchronous head stays inside the guarantee and keeps it for what is left. -/
theorem guarantees_advance
    {α : Type}
    (refl : ∀ state, relation state state)
    (trans :
      ∀ {first middle last},
        relation first middle → relation middle last → relation first last)
    {program : Async σ α}
    (guarantees : program.Guarantees relation)
    (state : σ) :
    relation state (program.advance state).2 ∧
      (program.advance state).1.Guarantees relation := by
  induction program generalizing state with
  | done value =>
      exact ⟨refl state, trivial⟩
  | fail reason =>
      exact ⟨refl state, trivial⟩
  | sync update next inductionHypothesis =>
      obtain ⟨moved, kept⟩ :=
        inductionHypothesis state (guarantees state).2 (update state)
      exact ⟨trans (guarantees state).1 moved, kept⟩
  | await next inductionHypothesis =>
      exact ⟨refl state, guarantees⟩

/-- Every task of the pool keeps to the relation. -/
def Guarantees (relation : σ → σ → Prop) (pool : Pool σ) : Prop :=
  ∀ task ∈ pool.tasks, task.Guarantees relation

theorem step_guarantees
    (refl : ∀ state, relation state state)
    (trans :
      ∀ {first middle last},
        relation first middle → relation middle last → relation first last)
    {pool : Pool σ}
    (guarantees : pool.Guarantees relation)
    (index : Nat)
    (settles : Settle) :
    relation pool.shared (pool.step index settles).shared ∧
      (pool.step index settles).Guarantees relation := by
  unfold step
  split
  · next next found =>
      have member := List.mem_of_getElem? found
      obtain ⟨moved, kept⟩ :=
        guarantees_advance refl trans (guarantees _ member settles) pool.shared
      refine ⟨moved, fun task taskMember => ?_⟩
      rcases List.mem_or_eq_of_mem_set taskMember with old | new
      · exact guarantees task old
      · exact new ▸ kept
  · exact ⟨refl _, guarantees⟩

theorem start_guarantees
    (refl : ∀ state, relation state state)
    (trans :
      ∀ {first middle last},
        relation first middle → relation middle last → relation first last)
    {programs : List (Async σ Unit)}
    (guarantees : ∀ program ∈ programs, program.Guarantees relation)
    (state : σ) :
    relation state (start programs state).shared ∧
      (start programs state).Guarantees relation := by
  induction programs generalizing state with
  | nil =>
      exact ⟨refl state, by simp [start, Guarantees]⟩
  | cons program rest inductionHypothesis =>
      obtain ⟨moved, kept⟩ :=
        guarantees_advance refl trans (guarantees program (by simp)) state
      obtain ⟨restMoved, restKept⟩ :=
        inductionHypothesis
          (fun later member => guarantees later (by simp [member]))
          (program.advance state).2
      refine ⟨trans moved restMoved, fun task member => ?_⟩
      rcases List.mem_cons.mp member with isHead | inRest
      · exact isHead ▸ kept
      · exact restKept task inRest

end Invariant

/-! ## One task among the others -/

section Main

variable {protocol : Async.Protocol σ} {post : Unit → σ → Prop}

/-- A precondition survives the interference its protocol allows. -/
theorem wp_of_rely
    (stable : protocol.Stable)
    (postStable :
      ∀ state moved,
        post () state → protocol.rely state moved → post () moved)
    {program : Async σ Unit}
    (ready : program.Ready)
    {state moved : σ}
    (holds : program.wp protocol post state)
    (relied : protocol.rely state moved) :
    program.wp protocol post moved := by
  cases program with
  | done value =>
      exact postStable state moved holds relied
  | fail reason =>
      exact stable.aborted holds relied
  | sync update next =>
      exact ready.elim
  | await next =>
      exact ⟨stable.suspended holds.1 relied, fun later moves settles =>
        holds.2 later (stable.trans relied moves) settles⟩

/-- The first task meets its protocol and the others are its allowed interference. -/
structure Guarded (protocol : Async.Protocol σ) (post : Unit → σ → Prop)
    (pool : Pool σ) : Prop where
  main :
    ∃ program rest,
      pool.tasks = program :: rest ∧
        program.Ready ∧ program.wp protocol post pool.shared
  others :
    ∀ task ∈ pool.tasks.tail, task.Guarantees protocol.rely

theorem step_guarded
    (stable : protocol.Stable)
    (postStable :
      ∀ state moved,
        post () state → protocol.rely state moved → post () moved)
    {pool : Pool σ}
    (guarded : pool.Guarded protocol post)
    (index : Nat)
    (settles : Settle) :
    (pool.step index settles).Guarded protocol post := by
  obtain ⟨⟨program, rest, tasksShape, ready, holds⟩, others⟩ := guarded
  rcases pool with ⟨shared, tasks⟩
  simp only at tasksShape others holds
  subst tasksShape
  cases index with
  | zero =>
      cases program with
      | await next =>
          have continued := holds.2 shared (stable.refl shared) settles
          exact
            { main :=
                ⟨_, rest, rfl, Async.ready_advance _ _, Async.wp_advance continued⟩
              others := others }
      | done value =>
          exact ⟨⟨_, rest, rfl, ready, holds⟩, others⟩
      | fail reason =>
          exact ⟨⟨_, rest, rfl, ready, holds⟩, others⟩
      | sync update next =>
          exact ready.elim
  | succ later =>
      unfold step
      simp only [List.getElem?_cons_succ]
      split
      · next next found =>
          have member : Async.await next ∈ rest := List.mem_of_getElem? found
          obtain ⟨moved, kept⟩ :=
            guarantees_advance stable.refl stable.trans
              (others _ member settles) shared
          refine
            { main :=
                ⟨program, _, rfl, ready,
                  wp_of_rely stable postStable ready holds moved⟩
              others := fun task taskMember => ?_ }
          rcases List.mem_or_eq_of_mem_set taskMember with old | new
          · exact others task old
          · exact new ▸ kept
      · exact ⟨⟨program, rest, rfl, ready, holds⟩, others⟩

/--
A task that meets its protocol keeps it in every interleaving with tasks whose
updates are the interference the protocol allows.
-/
theorem run_guarded
    (stable : protocol.Stable)
    (postStable :
      ∀ state moved,
        post () state → protocol.rely state moved → post () moved)
    {pool : Pool σ}
    (guarded : pool.Guarded protocol post)
    (schedule : List (Nat × Settle)) :
    (pool.run schedule).Guarded protocol post := by
  induction schedule generalizing pool with
  | nil =>
      exact guarded
  | cons move rest inductionHypothesis =>
      exact inductionHypothesis
        (step_guarded stable postStable guarded move.1 move.2)

/-- What the first task of a guarded pool has established. -/
theorem Guarded.established
    {pool : Pool σ}
    (guarded : pool.Guarded protocol post) :
    ∃ program rest,
      pool.tasks = program :: rest ∧
        Async.Established protocol post (program, pool.shared) := by
  obtain ⟨program, rest, tasksShape, ready, holds⟩ := guarded.main
  refine ⟨program, rest, tasksShape, ?_⟩
  cases program with
  | done value =>
      exact holds
  | fail reason =>
      exact holds
  | sync update next =>
      exact ready.elim
  | await next =>
      exact holds.1

/-- Starting a main program before its environment gives a guarded pool. -/
theorem start_guarded
    (stable : protocol.Stable)
    (postStable :
      ∀ state moved,
        post () state → protocol.rely state moved → post () moved)
    {program : Async σ Unit}
    {others : List (Async σ Unit)}
    (guarantees : ∀ other ∈ others, other.Guarantees protocol.rely)
    {state : σ}
    (holds : program.wp protocol post state) :
    (start (program :: others) state).Guarded protocol post := by
  have started := Async.wp_advance holds
  have ready := Async.ready_advance program state
  obtain ⟨moved, kept⟩ :=
    start_guarantees stable.refl stable.trans guarantees
      (program.advance state).2
  exact
    { main :=
        ⟨_, _, rfl, ready, wp_of_rely stable postStable ready started moved⟩
      others := kept }

end Main

/-! ## Tasks that rely on each other -/

section Keeps

/-- A synchronous head stays inside the guarantee, and what is left keeps to it. -/
theorem keeps_advance
    {rely guarantee : σ → σ → Prop}
    (refl : ∀ state, guarantee state state)
    (trans :
      ∀ {first middle last},
        guarantee first middle → guarantee middle last → guarantee first last)
    {program : Async σ Unit}
    {post : Unit → σ → Prop}
    {state : σ}
    (keeps : program.Keeps rely guarantee post state) :
    guarantee state (program.advance state).2 ∧
      (program.advance state).1.Keeps rely guarantee post (program.advance state).2 := by
  induction program generalizing state with
  | done value =>
      exact ⟨refl state, keeps⟩
  | fail reason =>
      exact ⟨refl state, keeps⟩
  | sync update next inductionHypothesis =>
      obtain ⟨moved, kept⟩ := inductionHypothesis state keeps.2
      exact ⟨trans keeps.1 moved, kept⟩
  | await next inductionHypothesis =>
      exact ⟨refl state, keeps⟩

/-- A waiting task does not mind what the others do inside its rely. -/
theorem keeps_of_moved
    {rely guarantee : σ → σ → Prop}
    {program : Async σ Unit}
    {state moved : σ}
    (keeps : program.Keeps rely guarantee (fun _ _ => True) state)
    (ready : program.Ready)
    (trans :
      ∀ {first middle last}, rely first middle → rely middle last → rely first last)
    (moves : rely state moved) :
    program.Keeps rely guarantee (fun _ _ => True) moved := by
  cases program with
  | done value =>
      trivial
  | fail reason =>
      trivial
  | sync update next =>
      exact ready.elim
  | await next =>
      exact fun later further settles =>
        keeps later (trans moves further) settles

/-- Of a number of tasks each guarantees what every other one relies on. -/
structure Composes (count : Nat) (rely guarantee : Nat → σ → σ → Prop) : Prop where
  relyRefl : ∀ index state, rely index state state
  relyTrans :
    ∀ {index first middle last},
      rely index first middle → rely index middle last → rely index first last
  refl : ∀ index state, guarantee index state state
  trans :
    ∀ {index first middle last},
      guarantee index first middle → guarantee index middle last → guarantee index first last
  others :
    ∀ {index other state moved},
      index < count → other < count → index ≠ other →
      guarantee other state moved → rely index state moved

/-- Without its first task the pool composes as before. -/
theorem Composes.tail
    {count : Nat}
    {rely guarantee : Nat → σ → σ → Prop}
    (composes : Composes (count + 1) rely guarantee) :
    Composes count (fun index => rely (index + 1)) (fun index => guarantee (index + 1)) where
  relyRefl := fun index => composes.relyRefl (index + 1)
  relyTrans := composes.relyTrans
  refl := fun index => composes.refl (index + 1)
  trans := composes.trans
  others := fun inside otherInside differ =>
    composes.others (by omega) (by omega) (by omega)

/-- Every task waits or has ended, and keeps to its guarantee under its rely. -/
def Keeps (rely guarantee : Nat → σ → σ → Prop) (pool : Pool σ) : Prop :=
  ∀ (index : Nat) (task : Async σ Unit),
    pool.tasks[index]? = some task →
    task.Ready ∧
      task.Keeps (rely index) (guarantee index) (fun _ _ => True) pool.shared

variable {rely guarantee : Nat → σ → σ → Prop}

/-- Nobody joins or leaves the pool. -/
theorem length_step
    (pool : Pool σ)
    (index : Nat)
    (settles : Settle) :
    (pool.step index settles).tasks.length = pool.tasks.length := by
  unfold step
  split
  · exact List.length_set
  · rfl

/-- Step lemma: the task that moves stays inside its guarantee, and the others wait. -/
theorem step_keeps
    {pool : Pool σ}
    (composes : Composes pool.tasks.length rely guarantee)
    (keeps : pool.Keeps rely guarantee)
    (index : Nat)
    (settles : Settle) :
    guarantee index pool.shared (pool.step index settles).shared ∧
      (pool.step index settles).Keeps rely guarantee := by
  unfold step
  split
  · next next found =>
      have inside := (List.getElem?_eq_some_iff.mp found).1
      have continued :=
        (keeps index _ found).2 pool.shared (composes.relyRefl index _) settles
      obtain ⟨moved, kept⟩ := keeps_advance (composes.refl index) composes.trans continued
      refine ⟨moved, fun other task isTask => ?_⟩
      by_cases same : index = other
      · subst same
        rw [List.getElem?_set_self inside] at isTask
        obtain rfl := Option.some.inj isTask
        exact ⟨Async.ready_advance _ _, kept⟩
      · rw [List.getElem?_set_ne same] at isTask
        have otherInside := (List.getElem?_eq_some_iff.mp isTask).1
        obtain ⟨ready, holds⟩ := keeps other task isTask
        exact ⟨ready, keeps_of_moved holds ready composes.relyTrans
          (composes.others otherInside inside (Ne.symm same) moved)⟩
  · exact ⟨composes.refl index _, keeps⟩

variable {whole : σ → σ → Prop}

/-- Run lemma: tasks that compose move their state only inside their guarantees. -/
theorem run_keeps
    (refl : ∀ state, whole state state)
    (trans :
      ∀ {first middle last}, whole first middle → whole middle last → whole first last)
    (guaranteed : ∀ {index state moved}, guarantee index state moved → whole state moved)
    {pool : Pool σ}
    (composes : Composes pool.tasks.length rely guarantee)
    (keeps : pool.Keeps rely guarantee)
    (schedule : List (Nat × Settle)) :
    whole pool.shared (pool.run schedule).shared := by
  induction schedule generalizing pool with
  | nil =>
      exact refl _
  | cons move rest inductionHypothesis =>
      obtain ⟨moved, kept⟩ := step_keeps composes keeps move.1 move.2
      rw [← length_step pool move.1 move.2] at composes
      exact trans (guaranteed moved) (inductionHypothesis composes kept)

/-- Every program keeps to its guarantee from whatever state it starts. -/
def StartsKeeping (rely guarantee : Nat → σ → σ → Prop)
    (programs : List (Async σ Unit)) : Prop :=
  ∀ (index : Nat) (program : Async σ Unit),
    programs[index]? = some program →
    ∀ state, program.Keeps (rely index) (guarantee index) (fun _ _ => True) state

/-- Starting moves the state only inside the guarantees. -/
theorem start_moves
    (refl : ∀ state, whole state state)
    (trans :
      ∀ {first middle last}, whole first middle → whole middle last → whole first last)
    {programs : List (Async σ Unit)}
    (guaranteed :
      ∀ {index state moved},
        index < programs.length → guarantee index state moved → whole state moved)
    (composes : Composes programs.length rely guarantee)
    (keeps : StartsKeeping rely guarantee programs)
    (state : σ) :
    whole state (start programs state).shared := by
  induction programs generalizing rely guarantee state with
  | nil =>
      exact refl state
  | cons program rest inductionHypothesis =>
      have moved :=
        (keeps_advance (composes.refl 0) composes.trans (keeps 0 program rfl state)).1
      refine trans (guaranteed (by simp) moved)
        (inductionHypothesis (fun inside => guaranteed ?_) composes.tail
          (fun index => keeps (index + 1)) (program.advance state).2)
      rw [List.length_cons]
      omega

/-- Programs that keep to their guarantees make a pool that does. -/
theorem start_keeps
    {programs : List (Async σ Unit)}
    (composes : Composes programs.length rely guarantee)
    (keeps : StartsKeeping rely guarantee programs)
    (state : σ) :
    (start programs state).Keeps rely guarantee := by
  induction programs generalizing rely guarantee state with
  | nil =>
      intro index task isTask
      cases isTask
  | cons program rest inductionHypothesis =>
      have keepsRest :
          StartsKeeping (fun index => rely (index + 1)) (fun index => guarantee (index + 1))
            rest :=
        fun index => keeps (index + 1)
      have kept :=
        (keeps_advance (composes.refl 0) composes.trans (keeps 0 program rfl state)).2
      have restMoved :
          rely 0 (program.advance state).2 (start rest (program.advance state).2).shared := by
        refine start_moves (composes.relyRefl 0) composes.relyTrans (fun inside moved => ?_)
          composes.tail keepsRest _
        refine composes.others ?_ ?_ (by omega) moved
        · simp
        · rw [List.length_cons]
          omega
      intro index task isTask
      cases index with
      | zero =>
          obtain rfl := Option.some.inj isTask
          have ready := Async.ready_advance program state
          exact ⟨ready, keeps_of_moved kept ready composes.relyTrans restMoved⟩
      | succ later =>
          exact inductionHypothesis composes.tail keepsRest (program.advance state).2 later task
            isTask

theorem length_start
    (programs : List (Async σ Unit))
    (state : σ) :
    (start programs state).tasks.length = programs.length := by
  induction programs generalizing state with
  | nil =>
      rfl
  | cons program rest inductionHypothesis =>
      simp [start, inductionHypothesis]

/--
Parallel composition: programs that rely on each other's guarantees move their state
only inside the guarantees, from their start on and through every schedule.
-/
theorem run_start_moves
    (refl : ∀ state, whole state state)
    (trans :
      ∀ {first middle last}, whole first middle → whole middle last → whole first last)
    (guaranteed : ∀ {index state moved}, guarantee index state moved → whole state moved)
    {programs : List (Async σ Unit)}
    (composes : Composes programs.length rely guarantee)
    (keeps : StartsKeeping rely guarantee programs)
    (state : σ)
    (schedule : List (Nat × Settle)) :
    whole state ((start programs state).run schedule).shared := by
  have started := start_moves refl trans (fun _ => guaranteed) composes keeps state
  have keepsPool := start_keeps composes keeps state
  rw [← length_start programs state] at composes
  exact trans started (run_keeps refl trans guaranteed composes keepsPool schedule)

end Keeps

end Pool

end CsmProver
