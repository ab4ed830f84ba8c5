import Mathlib.Tactic.Linarith

namespace CsmProver

/-!
# Async functions over a shared state

An async function runs synchronous blocks over the state it shares with every
other function and suspends between them.  While it is suspended the others may
change that state, and the promise it waits for may resolve or reject.  Nothing
in this module fixes what the state is or who the others are.

A computation is a tree: an atomic update of the shared state, a suspension
with one continuation for each way of settling, or an end.  `run` drives one
computation through a script of suspensions; `finish` is the undisturbed run in
which every promise resolves.
-/

/-- How an awaited promise settles. -/
inductive Settle where
  | resolved
  | rejected
  deriving Repr, DecidableEq

/-- Why a function left before its end. -/
inductive Abort where
  | thrown (message : String)
  | rejected
  deriving Repr, DecidableEq

/-- One async computation over the shared state `σ` with result `α`. -/
inductive Async (σ α : Type) : Type where
  | done (value : α)
  | fail (reason : Abort)
  | sync (update : σ → σ) (next : σ → Async σ α)
  | await (next : Settle → Async σ α)

namespace Async

variable {σ ι α β γ : Type}

/-- Sequential composition; an abort of the first part is an abort of the whole. -/
def bind : Async σ α → (α → Async σ β) → Async σ β
  | .done value, body => body value
  | .fail reason, _ => .fail reason
  | .sync update next, body =>
      .sync update fun state => bind (next state) body
  | .await next, body =>
      .await fun settle => bind (next settle) body

instance : Monad (Async σ) where
  pure := .done
  bind := bind

@[simp] theorem pure_eq_done
    (value : α) :
    (pure value : Async σ α) = .done value :=
  rfl

@[simp] theorem done_bind
    (value : α)
    (body : α → Async σ β) :
    (Async.done value >>= body) = body value :=
  rfl

@[simp] theorem fail_bind
    (reason : Abort)
    (body : α → Async σ β) :
    ((Async.fail reason : Async σ α) >>= body) = .fail reason :=
  rfl

theorem sync_bind
    (update : σ → σ)
    (next : σ → Async σ α)
    (body : α → Async σ β) :
    (Async.sync update next >>= body) =
      .sync update fun state => next state >>= body :=
  rfl

theorem await_bind
    (next : Settle → Async σ α)
    (body : α → Async σ β) :
    (Async.await next >>= body) =
      .await fun settle => next settle >>= body :=
  rfl

private theorem bind_done
    (program : Async σ α) :
    (program >>= Async.done) = program := by
  induction program with
  | done value =>
      rfl
  | fail reason =>
      rfl
  | sync update next inductionHypothesis =>
      rw [sync_bind]
      exact congrArg (Async.sync update)
        (funext inductionHypothesis)
  | await next inductionHypothesis =>
      rw [await_bind]
      exact congrArg Async.await (funext inductionHypothesis)

private theorem bind_bind
    (program : Async σ α)
    (first : α → Async σ β)
    (second : β → Async σ γ) :
    (program >>= first >>= second) =
      program >>= fun value => first value >>= second := by
  induction program with
  | done value =>
      rfl
  | fail reason =>
      rfl
  | sync update next inductionHypothesis =>
      simp only [sync_bind]
      exact congrArg (Async.sync update)
        (funext inductionHypothesis)
  | await next inductionHypothesis =>
      simp only [await_bind]
      exact congrArg Async.await (funext inductionHypothesis)

instance : LawfulMonad (Async σ) :=
  LawfulMonad.mk' (Async σ)
    bind_done (fun _ _ => rfl) bind_bind

/-! ## Primitive computations -/

/-- Read the shared state. -/
def read : Async σ σ :=
  .sync id .done

/-- Change the shared state atomically. -/
def modify (update : σ → σ) : Async σ Unit :=
  .sync update fun _ => .done ()

/-- Throw an error with the given message. -/
def raise (message : String) : Async σ α :=
  .fail (.thrown message)

/-- A suspension that cannot reject. -/
def tick : Async σ Unit :=
  .await fun _ => .done ()

/-- Await a promise whose rejection is passed on to the caller. -/
def settle : Async σ Unit :=
  .await fun
    | .resolved => .done ()
    | .rejected => .fail .rejected

/-- Await an outside request; when it resolves, its answer is `answer`. -/
def request (answer : α) : Async σ α := do
  settle
  return answer

/-- Await another function of the program: its body, then the return to the caller. -/
def call (body : Async σ α) : Async σ α := do
  let value ← body
  tick
  return value

/-- Run a body and catch its abort. -/
def attempt : Async σ α → Async σ (Except Abort α)
  | .done value => .done (.ok value)
  | .fail reason => .done (.error reason)
  | .sync update next =>
      .sync update fun state => attempt (next state)
  | .await next =>
      .await fun settle => attempt (next settle)

/-- Await another function and catch its abort, which the caller sees no sooner than a result. -/
def callCatching (body : Async σ α) : Async σ (Except Abort α) := do
  let outcome ← attempt body
  tick
  return outcome

/-- Run one body for each element of a list, in order. -/
def forEach (items : List β) (body : β → Async σ Unit) : Async σ Unit :=
  match items with
  | [] => .done ()
  | item :: rest => do
      body item
      forEach rest body

/-! ## Running one computation -/

/-- Run the synchronous block at the head of a computation. -/
def advance : Async σ α → σ → Async σ α × σ
  | .done value, state => (.done value, state)
  | .fail reason, state => (.fail reason, state)
  | .sync update next, state => advance (next state) (update state)
  | .await next, state => (.await next, state)

/-- One suspension: what the others do meanwhile, then how the promise settles. -/
structure Beat (ι : Type) where
  meanwhile : List ι
  settles : Settle
  deriving Repr, DecidableEq

namespace Beat

/-- A suspension during which nobody else moves. -/
def quiet (settles : Settle) : Beat ι where
  meanwhile := []
  settles := settles

end Beat

/--
Drive a suspended computation through a script.  The result is what is left of
the computation when the script or the computation ends, with the shared state
at that point.
-/
def resume (act : ι → σ → σ) :
    List (Beat ι) → Async σ α → σ → Async σ α × σ
  | [], program, state => (program, state)
  | beat :: rest, .await next, state =>
      let moved := beat.meanwhile.foldl (fun current move => act move current) state
      let advanced := advance (next beat.settles) moved
      resume act rest advanced.1 advanced.2
  | _ :: _, program, state => (program, state)

/-- Start a computation and drive it through a script. -/
def run (act : ι → σ → σ) (program : Async σ α)
    (script : List (Beat ι)) (state : σ) : Async σ α × σ :=
  let started := advance program state
  resume act script started.1 started.2

/-- The undisturbed run in which every promise resolves. -/
def finish : Async σ α → σ → Except Abort α × σ
  | .done value, state => (.ok value, state)
  | .fail reason, state => (.error reason, state)
  | .sync update next, state => finish (next state) (update state)
  | .await next, state => finish (next .resolved) state

/-- A computation that still waits for a promise. -/
def Suspended : Async σ α → Prop
  | .await _ => True
  | _ => False

instance (program : Async σ α) : Decidable program.Suspended := by
  cases program <;> unfold Suspended <;> infer_instance

/--
The state after an attempt.  A computation that is still suspended when its
script ends was cut by a crash, and the process starts again.
-/
def leave (restart : σ → σ) (ended : Async σ α × σ) : σ :=
  if ended.1.Suspended then restart ended.2 else ended.2

/-- A computation that has returned or aborted. -/
def Ended (program : Async σ α) : Prop :=
  (∃ value, program = .done value) ∨ ∃ reason, program = .fail reason

/-- A computation ends when its promises settle, whichever way and whenever they do. -/
theorem exists_ended
    (act : ι → σ → σ)
    (program : Async σ α)
    (beats : Nat → Beat ι)
    (state : σ) :
    ∃ count, (run act program ((List.range count).map beats) state).1.Ended := by
  induction program generalizing beats state with
  | done value =>
      exact ⟨0, Or.inl ⟨value, rfl⟩⟩
  | fail reason =>
      exact ⟨0, Or.inr ⟨reason, rfl⟩⟩
  | sync update next inductionHypothesis =>
      exact inductionHypothesis state beats (update state)
  | await next inductionHypothesis =>
      let moved :=
        (beats 0).meanwhile.foldl (fun current move => act move current) state
      obtain ⟨count, ended⟩ :=
        inductionHypothesis (beats 0).settles (fun index => beats (index + 1)) moved
      refine ⟨count + 1, ?_⟩
      rw [List.range_succ_eq_map, List.map_cons, List.map_map]
      exact ended

/-! ## The undisturbed run -/

@[simp] theorem finish_done
    (value : α)
    (state : σ) :
    finish (.done value) state = (.ok value, state) :=
  rfl

@[simp] theorem finish_fail
    (reason : Abort)
    (state : σ) :
    finish (.fail reason : Async σ α) state = (.error reason, state) :=
  rfl

/-- An undisturbed run of a composition is the two runs one after the other. -/
theorem finish_bind
    (program : Async σ α)
    (body : α → Async σ β)
    (state : σ) :
    finish (program >>= body) state =
      match finish program state with
      | (.ok value, middle) => finish (body value) middle
      | (.error reason, middle) => (.error reason, middle) := by
  induction program generalizing state with
  | done value =>
      rfl
  | fail reason =>
      rfl
  | sync update next inductionHypothesis =>
      rw [sync_bind]
      exact inductionHypothesis state (update state)
  | await next inductionHypothesis =>
      rw [await_bind]
      exact inductionHypothesis .resolved state

@[simp] theorem finish_read
    (state : σ) :
    finish read state = (.ok state, state) :=
  rfl

@[simp] theorem finish_modify
    (update : σ → σ)
    (state : σ) :
    finish (modify update) state = (.ok (), update state) :=
  rfl

@[simp] theorem finish_raise
    (message : String)
    (state : σ) :
    finish (raise message : Async σ α) state =
      (.error (.thrown message), state) :=
  rfl

@[simp] theorem finish_tick
    (state : σ) :
    finish tick state = (.ok (), state) :=
  rfl

@[simp] theorem finish_settle
    (state : σ) :
    finish settle state = (.ok (), state) :=
  rfl

@[simp] theorem finish_request
    (answer : α)
    (state : σ) :
    finish (request answer) state = (.ok answer, state) :=
  rfl

@[simp] theorem finish_call
    (body : Async σ α)
    (state : σ) :
    finish (call body) state = finish body state := by
  unfold call
  rw [finish_bind]
  rcases finish body state with ⟨_ | _, _⟩ <;> rfl

/--
The undisturbed run in which the promises settle as listed, and resolve when the
list is used up.
-/
def conclude : List Settle → Async σ α → σ → Except Abort α × σ
  | _, .done value, state => (.ok value, state)
  | _, .fail reason, state => (.error reason, state)
  | settles, .sync update next, state => conclude settles (next state) (update state)
  | [], .await next, state => conclude [] (next .resolved) state
  | settles :: rest, .await next, state => conclude rest (next settles) state

/-- A finished run as the state of an ended computation. -/
def ended : Except Abort α × σ → Async σ α × σ
  | (.ok value, state) => (.done value, state)
  | (.error reason, state) => (.fail reason, state)

/-- The undisturbed run is one of the runs. -/
theorem exists_run_finish
    (act : ι → σ → σ)
    (program : Async σ α)
    (state : σ) :
    ∃ script, run act program script state = ended (finish program state) := by
  induction program generalizing state with
  | done value =>
      exact ⟨[], rfl⟩
  | fail reason =>
      exact ⟨[], rfl⟩
  | sync update next inductionHypothesis =>
      exact inductionHypothesis state (update state)
  | await next inductionHypothesis =>
      obtain ⟨script, finished⟩ := inductionHypothesis .resolved state
      exact ⟨.quiet .resolved :: script, finished⟩

/-! ## Returned answers -/

/-- The answers a computation may return, however its promises settle and others move. -/
def Returns : Async σ α → σ → α → Prop
  | .done value, _, result => result = value
  | .fail _, _, _ => False
  | .sync update next, state, result => Returns (next state) (update state) result
  | .await next, _, result => ∃ settles moved, Returns (next settles) moved result

theorem returns_of_advance
    {program : Async σ α}
    {state : σ}
    {result : α}
    (returned : Returns (advance program state).1 (advance program state).2 result) :
    Returns program state result := by
  induction program generalizing state with
  | done value =>
      exact returned
  | fail reason =>
      exact returned
  | sync update next inductionHypothesis =>
      exact inductionHypothesis state returned
  | await next inductionHypothesis =>
      exact returned

private theorem returns_of_resume
    {act : ι → σ → σ}
    {program : Async σ α}
    {script : List (Beat ι)}
    {state after : σ}
    {result : α}
    (resumed : resume act script program state = (.done result, after)) :
    Returns program state result := by
  induction script generalizing program state with
  | nil =>
      cases resumed
      exact rfl
  | cons beat rest inductionHypothesis =>
      cases program with
      | done value =>
          cases resumed
          exact rfl
      | fail reason =>
          cases resumed
      | sync update next =>
          cases resumed
      | await next =>
          exact ⟨beat.settles, _, returns_of_advance (inductionHypothesis resumed)⟩

/-- What a run returns is one of the answers. -/
theorem returns_of_run
    {act : ι → σ → σ}
    {program : Async σ α}
    {script : List (Beat ι)}
    {state after : σ}
    {result : α}
    (ran : run act program script state = (.done result, after)) :
    Returns program state result :=
  returns_of_advance (returns_of_resume ran)

/-- What the undisturbed run returns is returned. -/
theorem returns_of_finish
    {program : Async σ α}
    {state after : σ}
    {result : α}
    (finished : finish program state = (.ok result, after)) :
    Returns program state result := by
  obtain ⟨script, ran⟩ := exists_run_finish (fun (_ : Unit) => id) program state
  rw [finished] at ran
  exact returns_of_run ran

@[simp] theorem returns_pure
    {value result : α}
    {state : σ} :
    Returns (pure value) state result ↔ result = value :=
  Iff.rfl

/-- An answered request goes on; after a rejected one nothing is returned. -/
@[simp] theorem returns_request_bind
    {answer : α}
    {body : α → Async σ β}
    {state : σ}
    {result : β} :
    Returns (request answer >>= body) state result ↔
      ∃ moved, Returns (body answer) moved result := by
  constructor
  · rintro ⟨settles, moved, returned⟩
    cases settles with
    | resolved => exact ⟨moved, returned⟩
    | rejected => exact returned.elim
  · rintro ⟨moved, returned⟩
    exact ⟨.resolved, moved, returned⟩

end Async

end CsmProver
