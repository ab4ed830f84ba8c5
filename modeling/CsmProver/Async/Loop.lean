import CsmProver.Async.Pool

namespace CsmProver

/-!
# A loop and the tasks it leaves running

A function may call another one without awaiting it.  The callee runs its first
synchronous block at once and goes on by itself, so the caller is a computation
over the pool of the tasks it has started.  A loop runs one such computation
after another; between two of its blocks any task may move.
-/

namespace Async

variable {σ τ ι α β : Type}

/-- A computation on a part of the state. -/
def zoom (get : τ → σ) (put : σ → τ → τ) : Async σ α → Async τ α
  | .done value => .done value
  | .fail reason => .fail reason
  | .sync update next =>
      .sync (fun state => put (update (get state)) state)
        fun state => zoom get put (next (get state))
  | .await next =>
      .await fun settle => zoom get put (next settle)

section Zoom

variable (get : τ → σ) (put : σ → τ → τ)

/-- A composition on a part is the composition of its parts. -/
@[simp] theorem zoom_bind
    (program : Async σ α)
    (body : α → Async σ β) :
    zoom get put (program >>= body) =
      zoom get put program >>= fun value => zoom get put (body value) := by
  induction program with
  | done value =>
      rfl
  | fail reason =>
      rfl
  | sync update next inductionHypothesis =>
      exact congrArg (Async.sync _) (funext fun state => inductionHypothesis (get state))
  | await next inductionHypothesis =>
      exact congrArg Async.await (funext inductionHypothesis)

/-- A value is the same in the whole state. -/
@[simp] theorem zoom_done
    (value : α) :
    zoom get put (.done value : Async σ α) = .done value :=
  rfl

/-- A thrown message is the same in the whole state. -/
@[simp] theorem zoom_raise
    (message : String) :
    zoom get put (raise message : Async σ α) = raise message :=
  rfl

/-- An update of the part is one of the whole. -/
@[simp] theorem zoom_modify
    (update : σ → σ) :
    zoom get put (modify update) = modify fun state => put (update (get state)) state :=
  rfl

/-- An await is the same in the whole state. -/
@[simp] theorem zoom_tick :
    zoom get put (tick : Async σ Unit) = tick :=
  rfl

/-- A rejection on a part is a rejection. -/
@[simp] theorem zoom_settle :
    zoom get put (settle : Async σ Unit) = settle := by
  apply congrArg Async.await
  funext settles
  cases settles <;> rfl

/-- A request is the same in the whole state. -/
@[simp] theorem zoom_request
    (answer : α) :
    zoom get put (request answer : Async σ α) = request answer := by
  simp [request]

/-- A call of a program of the part. -/
@[simp] theorem zoom_call
    (body : Async σ α) :
    zoom get put (call body) = call (zoom get put body) := by
  simp [call]

/-- What is caught on a part is what is caught. -/
@[simp] theorem zoom_attempt
    (program : Async σ α) :
    zoom get put (attempt program) = attempt (zoom get put program) := by
  induction program with
  | done value =>
      rfl
  | fail reason =>
      rfl
  | sync update next inductionHypothesis =>
      exact congrArg (Async.sync _) (funext fun state => inductionHypothesis (get state))
  | await next inductionHypothesis =>
      exact congrArg Async.await (funext inductionHypothesis)

/-- A caught call of a program of the part. -/
@[simp] theorem zoom_callCatching
    (body : Async σ α) :
    zoom get put (callCatching body) = callCatching (zoom get put body) := by
  simp [callCatching]

/-- A loop on a part is the loop of its rounds. -/
@[simp] theorem zoom_forEach
    (items : List β)
    (body : β → Async σ Unit) :
    zoom get put (forEach items body) = forEach items fun item => zoom get put (body item) := by
  induction items with
  | nil =>
      rfl
  | cons item rest inductionHypothesis =>
      simp only [forEach, zoom_bind, inductionHypothesis]

end Zoom

/-- The updates of a computation on a part are updates of the whole. -/
theorem guarantees_zoom
    {get : τ → σ}
    {put : σ → τ → τ}
    {relation : σ → σ → Prop}
    {whole : τ → τ → Prop}
    (lifts : ∀ state moved, relation (get state) moved → whole state (put moved state))
    {program : Async σ α}
    (guarantees : program.Guarantees relation) :
    (zoom get put program).Guarantees whole := by
  induction program with
  | done value =>
      trivial
  | fail reason =>
      trivial
  | sync update next inductionHypothesis =>
      exact fun state =>
        ⟨lifts state _ (guarantees (get state)).1,
          inductionHypothesis (get state) (guarantees (get state)).2⟩
  | await next inductionHypothesis =>
      exact fun settles => inductionHypothesis settles (guarantees settles)

/-! ## Parts a block does not look at -/

/-- The synchronous block at the head of a computation does not notice a change. -/
def Ignores (change : σ → σ) : Async σ α → Prop
  | .sync update next =>
      ∀ state,
        update (change state) = change (update state) ∧
          next (change state) = next state ∧ Ignores change (next state)
  | _ => True

section Ignores

variable {change : σ → σ}

/-- What a computation ignores may change before or after it runs. -/
theorem advance_ignored
    {program : Async σ α}
    (ignores : program.Ignores change)
    (state : σ) :
    advance program (change state) =
      ((advance program state).1, change (advance program state).2) := by
  induction program generalizing state with
  | done value =>
      rfl
  | fail reason =>
      rfl
  | sync update next inductionHypothesis =>
      obtain ⟨sameState, sameNext, ignoresNext⟩ := ignores state
      rw [advance, advance, sameState, sameNext]
      exact inductionHypothesis state ignoresNext (update state)
  | await next inductionHypothesis =>
      rfl

/-- Two parts that ignore a change ignore it together. -/
theorem ignores_bind
    {program : Async σ α}
    {body : α → Async σ β}
    (first : program.Ignores change)
    (rest : ∀ value, (body value).Ignores change) :
    (program >>= body).Ignores change := by
  induction program with
  | done value =>
      exact rest value
  | fail reason =>
      trivial
  | sync update next inductionHypothesis =>
      intro state
      obtain ⟨sameState, sameNext, ignoresNext⟩ := first state
      refine ⟨sameState, ?_, inductionHypothesis state ignoresNext⟩
      exact congrArg (bind · body) sameNext
  | await next inductionHypothesis =>
      trivial

/-- A state may be read by what does not look at the change. -/
theorem ignores_read_bind
    {body : σ → Async σ β}
    (same : ∀ state, body (change state) = body state)
    (rest : ∀ state, (body state).Ignores change) :
    (read >>= body).Ignores change :=
  fun state => ⟨rfl, same state, rest state⟩

/-- An update that commutes with the change ignores it. -/
theorem ignores_modify
    {update : σ → σ}
    (same : ∀ state, update (change state) = change (update state)) :
    (modify update).Ignores change :=
  fun state => ⟨same state, rfl, trivial⟩

/-- An await ignores every change. -/
theorem ignores_tick :
    (tick : Async σ Unit).Ignores change :=
  trivial

/-- Catching an error ignores what the body ignores. -/
theorem ignores_attempt
    {program : Async σ α}
    (ignores : program.Ignores change) :
    (attempt program).Ignores change := by
  induction program with
  | done value =>
      trivial
  | fail reason =>
      trivial
  | sync update next inductionHypothesis =>
      intro state
      obtain ⟨sameState, sameNext, ignoresNext⟩ := ignores state
      exact ⟨sameState, congrArg attempt sameNext, inductionHypothesis state ignoresNext⟩
  | await next inductionHypothesis =>
      trivial

/-- A computation on one part does not notice a change of another. -/
theorem ignores_zoom
    {get : σ → τ}
    {put : τ → σ → σ}
    (sameGet : ∀ state, get (change state) = get state)
    (samePut : ∀ part state, put part (change state) = change (put part state))
    (program : Async τ α) :
    (zoom get put program).Ignores change := by
  induction program with
  | done value =>
      trivial
  | fail reason =>
      trivial
  | sync update next inductionHypothesis =>
      intro state
      refine ⟨?_, ?_, inductionHypothesis (get state)⟩
      · simp only [sameGet, samePut]
      · simp only [sameGet]
  | await next inductionHypothesis =>
      trivial

/-- A call ignores what its body ignores. -/
theorem ignores_call
    {body : Async σ α}
    (ignores : body.Ignores change) :
    (call body).Ignores change :=
  ignores_bind ignores fun _ => ignores_bind ignores_tick fun _ => trivial

/-- What follows a caught promise is not part of the block that made it. -/
theorem ignores_callCatching_bind
    {body : Async σ α}
    (ignores : body.Ignores change)
    (next : Except Abort α → Async σ β) :
    (callCatching body >>= next).Ignores change := by
  unfold callCatching
  induction body with
  | done value =>
      trivial
  | fail reason =>
      trivial
  | sync update rest inductionHypothesis =>
      intro state
      obtain ⟨sameState, sameNext, ignoresNext⟩ := ignores state
      refine ⟨sameState, ?_, inductionHypothesis state ignoresNext⟩
      simp only [sameNext]
  | await rest inductionHypothesis =>
      trivial

end Ignores

/-! ## Promise chains -/

/-- The end of a computation as an end again. -/
def ofOutcome : Except Abort α → Async σ α
  | .ok value => .done value
  | .error reason => .fail reason

/-- `promise.then(callback)` or `promise.catch(callback)` that passes on how it settles. -/
def passOn (body : Async σ α) : Async σ α := do
  let outcome ← callCatching body
  ofOutcome outcome

/-- `promise.catch(callback)` with a callback that returns. -/
def onCatch (body : Async σ Unit) : Async σ Unit := do
  let _ ← callCatching body

/-- `promise.finally(callback)`: the callback runs however the promise settles. -/
def onFinally (body : Async σ α) (callback : Async σ Unit) : Async σ α := do
  let outcome ← callCatching body
  callback
  ofOutcome outcome

section Guarantees

variable {relation : σ → σ → Prop}

/-- Everything guarantees nothing. -/
theorem guarantees_true
    (program : Async σ α) :
    program.Guarantees fun _ _ => True := by
  induction program with
  | done value => trivial
  | fail reason => trivial
  | sync update next inductionHypothesis =>
      exact fun state => ⟨trivial, inductionHypothesis state⟩
  | await next inductionHypothesis => exact inductionHypothesis

/-- A known outcome changes nothing. -/
theorem guarantees_ofOutcome
    (outcome : Except Abort α) :
    (ofOutcome outcome : Async σ α).Guarantees relation := by
  cases outcome <;> trivial

/-- A caught call guarantees what its body does. -/
theorem guarantees_callCatching
    {body : Async σ α}
    (holds : body.Guarantees relation) :
    (callCatching body).Guarantees relation :=
  guarantees_bind (guarantees_attempt holds) fun _ =>
    guarantees_bind guarantees_tick fun _ => trivial

/-- A promise that is passed on guarantees what its body does. -/
theorem guarantees_passOn
    {body : Async σ α}
    (holds : body.Guarantees relation) :
    (passOn body).Guarantees relation :=
  guarantees_bind (guarantees_callCatching holds) guarantees_ofOutcome

/-- A caught task guarantees what its body does. -/
theorem guarantees_onCatch
    {body : Async σ Unit}
    (holds : body.Guarantees relation) :
    (onCatch body).Guarantees relation :=
  guarantees_bind (guarantees_callCatching holds) fun _ => trivial

/-- A task with a callback guarantees what both do. -/
theorem guarantees_onFinally
    {body : Async σ α}
    {callback : Async σ Unit}
    (holds : body.Guarantees relation)
    (calls : callback.Guarantees relation) :
    (onFinally body callback).Guarantees relation :=
  guarantees_bind (guarantees_callCatching holds) fun outcome =>
    guarantees_bind calls fun _ => guarantees_ofOutcome outcome

end Guarantees

/-- A caught promise is never seen to settle in the block that made it. -/
theorem suspended_callCatching_bind
    (body : Async σ α)
    (next : Except Abort α → Async σ β)
    (state : σ) :
    (advance (callCatching body >>= next) state).1.Suspended := by
  unfold callCatching
  induction body generalizing state with
  | done value =>
      trivial
  | fail reason =>
      trivial
  | sync update rest inductionHypothesis =>
      exact inductionHypothesis state (update state)
  | await rest inductionHypothesis =>
      trivial

/-! ## From one assertion to another -/

/-- An assertion others may see at a suspension and do not break. -/
structure Steady (rely : σ → σ → Prop) (suspended : σ → Prop) (assertion : σ → Prop) :
    Prop where
  suspends : ∀ {state}, assertion state → suspended state
  stays : ∀ {state moved}, assertion state → rely state moved → assertion moved

/-- From states of the first kind a computation ends, either way, in the second. -/
structure Leads (rely : σ → σ → Prop) (suspended before after : σ → Prop)
    (program : Async σ α) : Prop where
  ends :
    ∀ state,
      before state →
      wp { rely := rely, suspended := suspended, aborted := fun _ => after }
        (fun _ => after) program state

section Leads

variable {rely : σ → σ → Prop} {suspended first middle last : σ → Prop}

/-- What follows a caught call begins where the call ends. -/
theorem leads_callCatching_bind
    {body : Async σ α}
    {next : Except Abort α → Async σ β}
    (steady : Steady rely suspended middle)
    (begins : Leads rely suspended first middle body)
    (continues : ∀ outcome, Leads rely suspended middle last (next outcome)) :
    Leads rely suspended first last (callCatching body >>= next) := by
  refine ⟨fun state holds => ?_⟩
  rw [wp_bind]
  have caught :=
    @wp_callCatching _ _
      { rely := rely, suspended := suspended, aborted := fun _ => last }
      body (fun _ => middle) state
      (fun _ _ reached => steady.suspends reached)
      (fun _ _ _ reached relied => steady.stays reached relied)
      (begins.ends state holds)
  exact wp_mono caught fun outcome final reached => (continues outcome).ends final reached

/-- What follows a caught error begins where the body ends. -/
theorem leads_attempt_bind
    {body : Async σ α}
    {next : Except Abort α → Async σ β}
    (begins : Leads rely suspended first middle body)
    (continues : ∀ outcome, Leads rely suspended middle last (next outcome)) :
    Leads rely suspended first last (attempt body >>= next) := by
  refine ⟨fun state holds => ?_⟩
  rw [wp_bind]
  have caught :=
    @wp_attempt _ _
      { rely := rely, suspended := suspended, aborted := fun _ => last }
      body (fun _ => middle) state (begins.ends state holds)
  exact wp_mono caught fun outcome final reached => (continues outcome).ends final reached

/-- A known outcome stays where it is. -/
theorem leads_ofOutcome
    (outcome : Except Abort α) :
    Leads rely suspended last last (ofOutcome outcome : Async σ α) := by
  refine ⟨fun state holds => ?_⟩
  cases outcome <;> exact holds

/-- A promise that is passed on leads where its body leads. -/
theorem leads_passOn
    {body : Async σ α}
    (steady : Steady rely suspended last)
    (leads : Leads rely suspended first last body) :
    Leads rely suspended first last (passOn body) :=
  leads_callCatching_bind steady leads leads_ofOutcome

/-- A call leads where its body leads. -/
theorem leads_call
    {body : Async σ α}
    (steady : Steady rely suspended last)
    (leads : Leads rely suspended first last body) :
    Leads rely suspended first last (call body) := by
  refine ⟨fun state holds => ?_⟩
  rw [wp_call]
  exact wp_mono (leads.ends state holds) fun _ final reached =>
    ⟨steady.suspends reached, fun moved relied => steady.stays reached relied⟩

/-- A caught task leads where its body leads. -/
theorem leads_onCatch
    {body : Async σ Unit}
    (steady : Steady rely suspended last)
    (leads : Leads rely suspended first last body) :
    Leads rely suspended first last (onCatch body) :=
  leads_callCatching_bind steady leads fun _ => ⟨fun _ holds => holds⟩

/-- A value stays where it is. -/
theorem leads_pure
    (value : α) :
    Leads rely suspended first first (pure value : Async σ α) :=
  ⟨fun _ holds => holds⟩

/-- An update leads where it leads. -/
theorem leads_modify
    {update : σ → σ}
    (holds : ∀ state, first state → last (update state)) :
    Leads rely suspended first last (modify update) :=
  ⟨holds⟩

/-- The callback begins where the body ends. -/
theorem leads_onFinally
    {body : Async σ α}
    {callback : Async σ Unit}
    (steady : Steady rely suspended middle)
    (leads : Leads rely suspended first middle body)
    (calls : Leads rely suspended middle last callback) :
    Leads rely suspended first last (onFinally body callback) := by
  apply leads_callCatching_bind steady leads
  refine fun outcome => ⟨fun state holds => ?_⟩
  rw [wp_bind]
  exact wp_mono (calls.ends state holds) fun _ final reached =>
    (leads_ofOutcome outcome).ends final reached

/-- The rest begins where the first part ends. -/
theorem leads_bind
    {body : Async σ α}
    {next : α → Async σ β}
    (begins : Leads rely suspended first last body)
    (continues : ∀ value, Leads rely suspended last last (next value)) :
    Leads rely suspended first last (body >>= next) := by
  refine ⟨fun state holds => ?_⟩
  rw [wp_bind]
  exact wp_mono (begins.ends state holds) fun value final reached =>
    (continues value).ends final reached

/-- The rest begins in the state that was read. -/
theorem leads_read_bind
    {next : σ → Async σ β}
    (continues :
      ∀ seen, Leads rely suspended (fun state => state = seen ∧ first state) last (next seen)) :
    Leads rely suspended first last (read >>= next) :=
  ⟨fun state holds => (continues state).ends state ⟨rfl, holds⟩⟩

/-- The rest begins in the updated state. -/
theorem leads_modify_bind
    {update : σ → σ}
    {next : Unit → Async σ β}
    (holds : ∀ state, first state → middle (update state))
    (continues : Leads rely suspended middle last (next ())) :
    Leads rely suspended first last (modify update >>= next) :=
  ⟨fun state reached => continues.ends _ (holds state reached)⟩

/-- An await stays where the others leave it. -/
theorem leads_tick
    (steady : Steady rely suspended first) :
    Leads rely suspended first first (tick : Async σ Unit) := by
  refine ⟨fun state holds => ?_⟩
  rw [wp_tick]
  exact ⟨steady.suspends holds, fun moved relied => steady.stays holds relied⟩

/-- Less may be asked of the states a computation is started in. -/
theorem Leads.of_imp
    {program : Async σ α}
    (leads : Leads rely suspended middle last program)
    (enters : ∀ state, first state → middle state) :
    Leads rely suspended first last program :=
  ⟨fun state holds => leads.ends state (enters state holds)⟩

/-- A computation whose updates do not break a steady assertion ends in it. -/
theorem leads_of_guarantees
    {program : Async σ α}
    (steady : Steady rely suspended first)
    (guarantees :
      program.Guarantees fun state moved => first state → first moved) :
    Leads rely suspended first first program := by
  refine ⟨fun state holds => ?_⟩
  apply wp_mono (wp_of_guarantees (fun _ holds => holds)
    (fun earlier later holds => later (earlier holds))
    (fun relied holds => steady.stays holds relied)
    (fun _ reached => steady.suspends (reached holds))
    (fun _ _ reached => reached holds) guarantees)
  exact fun _ _ reached => reached holds

end Leads

end Async

open Async

/-! ## A pool with an owner -/

namespace Pool

variable {σ α : Type}

/-- What a waiting task needs: its suspensions survive the interference of its protocol. -/
structure Patient (protocol : Protocol σ) : Prop where
  refl : ∀ state, protocol.rely state state
  trans :
    ∀ {first middle last},
      protocol.rely first middle →
      protocol.rely middle last →
      protocol.rely first last
  suspended :
    ∀ {state moved},
      protocol.suspended state →
      protocol.rely state moved →
      protocol.suspended moved

/-- One task waits under its protocol, and the others move inside a relation. -/
structure OwnedBy (protocol : Protocol σ) (post : Unit → σ → Prop)
    (relation : σ → σ → Prop) (owner : Nat) (pool : Pool σ) : Prop where
  waits :
    ∃ next,
      pool.tasks[owner]? = some (.await next) ∧
        wp protocol post (.await next) pool.shared
  others :
    ∀ index task,
      index ≠ owner → pool.tasks[index]? = some task → task.Guarantees relation

section Owned

variable {protocol : Protocol σ} {post : Unit → σ → Prop}
variable {relation : σ → σ → Prop} {owner : Nat}

/-- A waiting task does not mind what its protocol allows. -/
theorem wp_await_of_rely
    (patient : Patient protocol)
    {next : Settle → Async σ Unit}
    {state moved : σ}
    (holds : wp protocol post (.await next) state)
    (relied : protocol.rely state moved) :
    wp protocol post (.await next) moved :=
  ⟨patient.suspended holds.1 relied, fun later moves settles =>
    holds.2 later (patient.trans relied moves) settles⟩

/-- The pool of an owner whose state moves inside its protocol. -/
theorem OwnedBy.moved
    (patient : Patient protocol)
    {pool : Pool σ}
    (owned : pool.OwnedBy protocol post relation owner)
    {shared : σ}
    (relied : protocol.rely pool.shared shared) :
    { pool with shared := shared }.OwnedBy protocol post relation owner := by
  obtain ⟨⟨next, found, holds⟩, others⟩ := owned
  exact ⟨⟨next, found, wp_await_of_rely patient holds relied⟩, others⟩

/-- Another task joins the pool of an owner. -/
theorem OwnedBy.join
    {pool : Pool σ}
    (owned : pool.OwnedBy protocol post relation owner)
    {task : Async σ Unit}
    (guarantees : task.Guarantees relation) :
    { pool with tasks := pool.tasks ++ [task] }.OwnedBy protocol post relation owner := by
  obtain ⟨⟨next, found, holds⟩, others⟩ := owned
  have inside : owner < pool.tasks.length := (List.getElem?_eq_some_iff.mp found).1
  refine ⟨⟨next, ?_, holds⟩, ?_⟩
  · rw [List.getElem?_append_left inside]
    exact found
  · intro index member different atIndex
    rcases Nat.lt_or_ge index pool.tasks.length with old | new
    · rw [List.getElem?_append_left old] at atIndex
      exact others index member different atIndex
    · rw [List.getElem?_append_right new] at atIndex
      have isTask := List.mem_singleton.mp (List.mem_of_getElem? atIndex)
      exact isTask ▸ guarantees

/-- A task that suspends when it starts owns a pool of tasks that keep to a relation. -/
theorem ownedBy_of_start
    {tasks : List (Async σ Unit)}
    (guarantees : ∀ task ∈ tasks, task.Guarantees relation)
    {program : Async σ Unit}
    {shared : σ}
    (suspends : program.Suspended)
    (holds : wp protocol post program shared) :
    { shared := shared, tasks := tasks ++ [program] : Pool σ }.OwnedBy protocol post
      relation tasks.length := by
  cases program with
  | done value => exact suspends.elim
  | fail reason => exact suspends.elim
  | sync update next => exact suspends.elim
  | await next =>
      refine ⟨⟨next, by simp, holds⟩, ?_⟩
      intro index task different atIndex
      rcases Nat.lt_or_ge index tasks.length with old | new
      · rw [List.getElem?_append_left old] at atIndex
        exact guarantees task (List.mem_of_getElem? atIndex)
      · have inside := (List.getElem?_eq_some_iff.mp atIndex).1
        simp only [List.length_append, List.length_singleton] at inside
        omega

/-- After a turn of a task the owner still waits, or it has just ended. -/
theorem OwnedBy.step
    (patient : Patient protocol)
    (refl : ∀ state, relation state state)
    (trans :
      ∀ {first middle last},
        relation first middle → relation middle last → relation first last)
    (allowed : ∀ {state moved}, relation state moved → protocol.rely state moved)
    {pool : Pool σ}
    (owned : pool.OwnedBy protocol post relation owner)
    (index : Nat)
    (settles : Settle) :
    (pool.step index settles).OwnedBy protocol post relation owner ∨
      ((∀ task ∈ (pool.step index settles).tasks, task.Guarantees relation) ∧
        (post () (pool.step index settles).shared ∨
          ∃ reason, protocol.aborted reason (pool.step index settles).shared)) := by
  obtain ⟨⟨next, found, holds⟩, others⟩ := owned
  by_cases isOwner : index = owner
  · subst isOwner
    simp only [Pool.step, found]
    have continued := wp_advance (holds.2 pool.shared (patient.refl _) settles)
    have ready := ready_advance (next settles) pool.shared
    have inside : index < pool.tasks.length := (List.getElem?_eq_some_iff.mp found).1
    generalize (next settles).advance pool.shared = advanced at continued ready
    obtain ⟨program, shared⟩ := advanced
    have ended :
        program.Guarantees relation →
        ∀ task ∈ pool.tasks.set index program, task.Guarantees relation := by
      intro ownGuarantees task member
      obtain ⟨position, atPosition⟩ := List.mem_iff_getElem?.mp member
      by_cases samePosition : position = index
      · rw [samePosition, List.getElem?_set_self inside, Option.some.injEq] at atPosition
        exact atPosition ▸ ownGuarantees
      · rw [List.getElem?_set_ne (Ne.symm samePosition)] at atPosition
        exact others position task samePosition atPosition
    cases program with
    | done value =>
        exact Or.inr ⟨ended trivial, Or.inl continued⟩
    | fail reason =>
        exact Or.inr ⟨ended trivial, Or.inr ⟨reason, continued⟩⟩
    | sync update next =>
        exact ready.elim
    | await next =>
        refine Or.inl ⟨⟨next, List.getElem?_set_self inside, continued⟩, ?_⟩
        intro position task different atPosition
        rw [List.getElem?_set_ne (Ne.symm different)] at atPosition
        exact others position task different atPosition
  · left
    unfold Pool.step
    split
    · next otherNext otherFound =>
        obtain ⟨moved, kept⟩ :=
          guarantees_advance refl trans
            (others index _ isOwner otherFound settles) pool.shared
        refine ⟨⟨next, ?_, wp_await_of_rely patient holds (allowed moved)⟩, ?_⟩
        · rw [List.getElem?_set_ne isOwner]
          exact found
        · intro position task different atPosition
          by_cases samePosition : position = index
          · have inside : index < pool.tasks.length :=
              (List.getElem?_eq_some_iff.mp otherFound).1
            rw [samePosition, List.getElem?_set_self inside,
              Option.some.injEq] at atPosition
            exact atPosition ▸ kept
          · rw [List.getElem?_set_ne (Ne.symm samePosition)] at atPosition
            exact others position task different atPosition
    · exact ⟨⟨next, found, holds⟩, others⟩

end Owned

/-! ## Starting tasks -/

/-- Start a task without awaiting it. -/
def spawn (task : Async σ Unit) : Async (Pool σ) Unit :=
  modify fun pool =>
    let advanced := task.advance pool.shared
    { shared := advanced.2
      tasks := pool.tasks ++ [advanced.1] }

/-- A task that suspends when it starts owns the pool it joins. -/
theorem ownedBy_of_spawn
    {protocol : Protocol σ}
    {relation : σ → σ → Prop}
    {first last : σ → Prop}
    {task : Async σ Unit}
    (leads : Leads protocol.rely protocol.suspended first last task)
    (aborts : ∀ reason, protocol.aborted reason = last)
    {tasks : List (Async σ Unit)}
    (guarantees : ∀ task ∈ tasks, task.Guarantees relation)
    {state : σ}
    (suspends : (task.advance state).1.Suspended)
    (holds : first state) :
    { shared := (task.advance state).2
      tasks := tasks ++ [(task.advance state).1] : Pool σ }.OwnedBy protocol
        (fun _ => last) relation tasks.length := by
  have sameProtocol :
      protocol =
        { rely := protocol.rely
          suspended := protocol.suspended
          aborted := fun _ => last } := by
    obtain ⟨rely, suspended, aborted⟩ := protocol
    simp only [Protocol.mk.injEq, true_and]
    exact funext aborts
  rw [sameProtocol]
  exact ownedBy_of_start guarantees suspends (wp_advance (leads.ends _ holds))

/-- Run a computation on the state the tasks share. -/
def onShared (program : Async σ α) : Async (Pool σ) α :=
  program.zoom Pool.shared fun shared pool => { pool with shared := shared }

/-- An update of the shared state is one of the pool. -/
theorem onShared_modify
    (update : σ → σ) :
    onShared (modify update) =
      modify fun pool : Pool σ => { pool with shared := update pool.shared } :=
  rfl

end Pool

/-! ## The loop -/

/-- A loop in one of its iterations, and the tasks it has started. -/
structure Running (σ : Type) where
  pool : Pool σ
  loop : Async (Pool σ) Unit
  iteration : Nat

/-- Who moves next: the loop, a task, or somebody outside the program. -/
inductive Turn (ι : Type) where
  | loop (settles : Settle)
  | task (index : Nat) (settles : Settle)
  | outside (move : ι)
  deriving Repr, DecidableEq

namespace Running

variable {σ ι : Type} (body : Nat → Async (Pool σ) Unit)

/-- Begin an iteration: its first synchronous block runs. -/
def begin (iteration : Nat) (pool : Pool σ) : Running σ :=
  let advanced := (body iteration).advance pool
  { pool := advanced.2
    loop := advanced.1
    iteration := iteration }

/-- The loop goes on; an iteration that returns is followed by the next one. -/
def resume (running : Running σ) (settles : Settle) : Running σ :=
  match running.loop with
  | .await next =>
      let advanced := (next settles).advance running.pool
      match advanced.1 with
      | .done _ => begin body (running.iteration + 1) advanced.2
      | loop => { running with pool := advanced.2, loop := loop }
  | _ => running

/-- One turn of the loop, of a task, or of the outside. -/
def turn (act : ι → σ → σ) (running : Running σ) : Turn ι → Running σ
  | .loop settles => running.resume body settles
  | .task index settles => { running with pool := running.pool.step index settles }
  | .outside move =>
      { running with
        pool := { running.pool with shared := act move running.pool.shared } }

/-- A loop that starts in the given state, after the given turns. -/
def run (act : ι → σ → σ) (shared : σ) (turns : List (Turn ι)) : Running σ :=
  turns.foldl (turn body act) (begin body 0 { shared := shared, tasks := [] })

/-! ## Invariants of a loop -/

section Invariant

variable {protocol : Protocol (Pool σ)} {between : Pool σ → Prop}

/-- The current iteration meets its protocol. -/
def Meets (protocol : Protocol (Pool σ)) (between : Pool σ → Prop)
    (running : Running σ) : Prop :=
  running.loop.Ready ∧ wp protocol (fun _ => between) running.loop running.pool

variable {body}

/-- A round that begins between rounds meets the protocol. -/
theorem begin_meets
    (iterates :
      ∀ iteration pool,
        between pool → wp protocol (fun _ => between) (body iteration) pool)
    (iteration : Nat)
    {pool : Pool σ}
    (holds : between pool) :
    (begin body iteration pool).Meets protocol between :=
  ⟨ready_advance _ _, wp_advance (iterates iteration pool holds)⟩

/-- So does a round that is resumed. -/
theorem resume_meets
    (refl : ∀ pool, protocol.rely pool pool)
    (iterates :
      ∀ iteration pool,
        between pool → wp protocol (fun _ => between) (body iteration) pool)
    {running : Running σ}
    (meets : running.Meets protocol between)
    (settles : Settle) :
    (running.resume body settles).Meets protocol between := by
  obtain ⟨pool, loop, iteration⟩ := running
  obtain ⟨ready, holds⟩ := meets
  cases loop with
  | await next =>
      have continued := wp_advance (holds.2 pool (refl pool) settles)
      have readyAgain := ready_advance (next settles) pool
      simp only [resume]
      split
      · next value returned =>
          rw [returned] at continued
          exact begin_meets iterates (iteration + 1) continued
      · exact ⟨readyAgain, continued⟩
  | done value => exact ⟨ready, holds⟩
  | fail reason => exact ⟨ready, holds⟩
  | sync update next => exact ready.elim

/-- A move the protocol allows does not disturb a waiting iteration. -/
theorem Meets.moved
    (stable : protocol.Stable)
    (betweenStays :
      ∀ pool moved, between pool → protocol.rely pool moved → between moved)
    {running : Running σ}
    (meets : running.Meets protocol between)
    {moved : Pool σ}
    (relied : protocol.rely running.pool moved) :
    { running with pool := moved }.Meets protocol between :=
  ⟨meets.1,
    Pool.wp_of_rely stable betweenStays meets.1 meets.2 relied⟩

/-- In every reachable state the loop waits where its protocol lets it, whoever moves. -/
theorem run_meets_of_moves
    (stable : protocol.Stable)
    (betweenStays :
      ∀ pool moved, between pool → protocol.rely pool moved → between moved)
    (iterates :
      ∀ iteration pool,
        between pool → wp protocol (fun _ => between) (body iteration) pool)
    (steps : ∀ pool index settles, protocol.rely pool (pool.step index settles))
    {act : ι → σ → σ}
    {turns : List (Turn ι)}
    (moves :
      ∀ (pool : Pool σ) move,
        .outside move ∈ turns →
        protocol.rely pool { pool with shared := act move pool.shared })
    {shared : σ}
    (starts : between { shared := shared, tasks := [] }) :
    (run body act shared turns).Meets protocol between := by
  have started := begin_meets iterates 0 starts
  unfold run
  generalize begin body 0 { shared := shared, tasks := [] } = running at started
  induction turns generalizing running with
  | nil =>
      exact started
  | cons turn rest inductionHypothesis =>
      rw [List.foldl_cons]
      apply inductionHypothesis
      · exact fun pool move member => moves pool move (List.mem_cons_of_mem _ member)
      · cases turn with
        | loop settles =>
            exact resume_meets stable.refl iterates started settles
        | task index settles =>
            exact started.moved stable betweenStays (steps _ index settles)
        | outside move =>
            exact started.moved stable betweenStays (moves _ move (List.mem_cons_self ..))

/-- In every reachable state the loop waits where its protocol lets it. -/
theorem run_meets
    (stable : protocol.Stable)
    (betweenStays :
      ∀ pool moved, between pool → protocol.rely pool moved → between moved)
    (iterates :
      ∀ iteration pool,
        between pool → wp protocol (fun _ => between) (body iteration) pool)
    (steps : ∀ pool index settles, protocol.rely pool (pool.step index settles))
    {act : ι → σ → σ}
    (moves :
      ∀ (pool : Pool σ) move,
        protocol.rely pool { pool with shared := act move pool.shared })
    {shared : σ}
    (starts : between { shared := shared, tasks := [] })
    (turns : List (Turn ι)) :
    (run body act shared turns).Meets protocol between :=
  run_meets_of_moves stable betweenStays iterates steps
    (fun pool move _ => moves pool move) starts

/-- What holds at every suspension and between iterations holds in reachable states. -/
theorem Meets.holds
    {running : Running σ}
    (meets : running.Meets protocol between)
    {assertion : Pool σ → Prop}
    (suspends : ∀ pool, protocol.suspended pool → assertion pool)
    (aborts : ∀ reason pool, protocol.aborted reason pool → assertion pool)
    (returns : ∀ pool, between pool → assertion pool) :
    assertion running.pool := by
  obtain ⟨ready, holds⟩ := meets
  cases isLoop : running.loop with
  | done value =>
      rw [isLoop] at holds
      exact returns _ holds
  | fail reason =>
      rw [isLoop] at holds
      exact aborts reason _ holds
  | sync update next =>
      rw [isLoop] at ready
      exact ready.elim
  | await next =>
      rw [isLoop] at holds
      exact suspends _ holds.1

end Invariant

end Running

end CsmProver
