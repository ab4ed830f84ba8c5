import CsmProver.Async.Exclusive

namespace CsmProver

/-!
# What a computation adds

A computation may add to a measure of the shared state, which the others leave as
it is while it waits.  `Adds` relates what it returns to how much it has added by
then; a computation that aborts has promised nothing.
-/

/-- A measure of the state, and moves of the others that leave it alone. -/
structure Counting (σ : Type) where
  rely : σ → σ → Prop
  measure : σ → Nat
  keeps : ∀ {state moved}, rely state moved → measure moved = measure state

namespace Async

variable {σ τ ι α β : Type}

/-- A computation may wait in any state and abort in any state. -/
def countingProtocol (counting : Counting σ) : Protocol σ where
  rely := counting.rely
  suspended := fun _ => True
  aborted := fun _ _ => True

/-- A returned value is related to how much has been added. -/
def Adds (counting : Counting σ) (counted : α → Nat → Prop) (program : Async σ α) : Prop :=
  ∀ state,
    wp (countingProtocol counting)
      (fun value final =>
        ∃ added, counting.measure final = counting.measure state + added ∧ counted value added)
      program state

section Rules

variable {counting : Counting σ}

theorem adds_pure
    {counted : α → Nat → Prop}
    {value : α}
    (nothing : counted value 0) :
    (pure value : Async σ α).Adds counting counted :=
  fun _ => ⟨0, rfl, nothing⟩

theorem adds_fail
    {counted : α → Nat → Prop}
    (reason : Abort) :
    (.fail reason : Async σ α).Adds counting counted :=
  fun _ => trivial

theorem adds_modify
    {update : σ → σ}
    {counted : Unit → Nat → Prop}
    {added : Nat}
    (raises : ∀ state, counting.measure (update state) = counting.measure state + added)
    (isCounted : counted () added) :
    (modify update).Adds counting counted :=
  fun state => ⟨added, raises state, isCounted⟩

/-- What two computations add together. -/
theorem adds_bind
    {first : α → Nat → Prop}
    {counted : β → Nat → Prop}
    {program : Async σ α}
    {body : α → Async σ β}
    (adds : program.Adds counting first)
    (rest :
      ∀ value added,
        first value added →
        (body value).Adds counting fun result more => counted result (added + more)) :
    (program >>= body).Adds counting counted := by
  intro state
  rw [wp_bind]
  refine wp_mono (adds state) ?_
  rintro value middle ⟨added, reached, isCounted⟩
  refine wp_mono (rest value added isCounted middle) ?_
  rintro result final ⟨more, reachedAgain, areCounted⟩
  exact ⟨added + more, by omega, areCounted⟩

theorem Adds.mono
    {counted wider : α → Nat → Prop}
    {program : Async σ α}
    (adds : program.Adds counting counted)
    (widens : ∀ value added, counted value added → wider value added) :
    program.Adds counting wider := by
  intro state
  refine wp_mono (adds state) ?_
  rintro value final ⟨added, reached, isCounted⟩
  exact ⟨added, reached, widens value added isCounted⟩

/-- A computation that leaves the measure alone adds nothing. -/
theorem adds_of_guarantees
    {program : Async σ α}
    (guarantees :
      program.Guarantees fun state moved => counting.measure moved = counting.measure state) :
    program.Adds counting fun _ added => added = 0 := by
  intro state
  have keeps :
      wp (countingProtocol counting)
        (fun _ final => counting.measure final = counting.measure state) program state := by
    refine wp_of_guarantees ?_ ?_ ?_ ?_ ?_ guarantees
    · exact fun _ => rfl
    · exact fun earlier later => later.trans earlier
    · exact counting.keeps
    · exact fun _ _ => trivial
    · exact fun _ _ _ => trivial
  exact wp_mono keeps fun _ _ same => ⟨0, same, rfl⟩

/-- Before a computation that adds, nothing is added. -/
theorem adds_silent_bind
    {counted : β → Nat → Prop}
    {program : Async σ α}
    {body : α → Async σ β}
    (silent :
      program.Guarantees fun state moved => counting.measure moved = counting.measure state)
    (rest : ∀ value, (body value).Adds counting counted) :
    (program >>= body).Adds counting counted := by
  refine adds_bind (adds_of_guarantees silent) ?_
  rintro value _ rfl
  simpa only [Nat.zero_add] using rest value

theorem adds_call
    {counted : α → Nat → Prop}
    {body : Async σ α}
    (adds : body.Adds counting counted) :
    (call body).Adds counting counted := by
  intro state
  rw [wp_call]
  refine wp_mono (adds state) ?_
  rintro value final ⟨added, reached, isCounted⟩
  refine ⟨trivial, fun moved relied => ⟨added, ?_, isCounted⟩⟩
  exact (counting.keeps relied).trans reached

/-- What was added before an error does not count if the error is passed on. -/
theorem adds_attempt_bind
    {first : α → Nat → Prop}
    {counted : β → Nat → Prop}
    {body : Async σ α}
    {next : Except Abort α → Async σ β}
    (adds : body.Adds counting first)
    (rest :
      ∀ value added,
        first value added →
        (next (.ok value)).Adds counting fun result more => counted result (added + more))
    (passesOn : ∀ reason, (next (.error reason)).Adds counting fun _ _ => False) :
    (attempt body >>= next).Adds counting counted := by
  intro state
  rw [wp_bind]
  -- Nothing is known of the state in which the body was aborted.
  let ended (outcome : Except Abort α) (final : σ) : Prop :=
    ∀ value,
      outcome = .ok value →
      ∃ added, counting.measure final = counting.measure state + added ∧ first value added
  have attempted : wp (countingProtocol counting) ended (attempt body) state := by
    apply wp_attempt
    apply wp_weaken (adds state)
    · exact fun relied => relied
    · exact fun _ reached => reached
    · rintro reason final - value ⟨⟩
    · rintro value final reached _ ⟨⟩
      exact reached
  refine wp_mono attempted ?_
  intro outcome middle reached
  cases outcome with
  | ok value =>
      obtain ⟨added, grown, isCounted⟩ := reached value rfl
      refine wp_mono (rest value added isCounted middle) ?_
      rintro result final ⟨more, grownAgain, areCounted⟩
      exact ⟨added + more, by omega, areCounted⟩
  | error reason =>
      refine wp_mono (passesOn reason middle) ?_
      rintro _ _ ⟨_, _, never⟩
      exact never.elim

/-- A loop adds as often as it goes round. -/
theorem adds_forEach
    {weight : Nat}
    {items : List β}
    {body : β → Async σ Unit}
    (adds : ∀ item ∈ items, (body item).Adds counting fun _ added => added = weight) :
    (forEach items body).Adds counting fun _ added => added = items.length * weight := by
  induction items with
  | nil =>
      exact adds_pure (Nat.zero_mul weight).symm
  | cons item rest inductionHypothesis =>
      refine adds_bind (adds item (by simp)) ?_
      rintro _ _ rfl
      refine (inductionHypothesis fun later member => adds later (by simp [member])).mono ?_
      rintro _ _ rfl
      rw [List.length_cons, Nat.succ_mul, Nat.add_comm]

/-- What a computation adds to a part it adds to the whole. -/
theorem adds_zoom
    {get : τ → σ}
    {put : σ → τ → τ}
    {whole : Counting τ}
    {counted : α → Nat → Prop}
    {program : Async σ α}
    (adds : program.Adds counting counted)
    (getPut : ∀ part state, get (put part state) = part)
    (together :
      ∀ part state,
        whole.measure (put part state) + counting.measure (get state) =
          whole.measure state + counting.measure part)
    (relies :
      ∀ {state moved}, whole.rely state moved → counting.rely (get state) (get moved)) :
    (zoom get put program).Adds whole counted := by
  intro state
  -- The whole has grown as much as the part has.
  let grown (current : τ) : Prop :=
    whole.measure current + counting.measure (get state) =
      whole.measure state + counting.measure (get current)
  have zoomed :
      wp (countingProtocol whole)
        (fun value final =>
          grown final ∧
            ∃ added,
              counting.measure (get final) = counting.measure (get state) + added ∧
                counted value added)
        (zoom get put program) state := by
    apply wp_zoom grown (adds (get state)) rfl getPut
    · intro part current hasGrown
      have changed := together part current
      simp only [grown, getPut] at hasGrown ⊢
      omega
    · intro current moved hasGrown _ relied
      have kept := whole.keeps relied
      have keptPart := counting.keeps (relies relied)
      simp only [grown] at hasGrown ⊢
      exact ⟨by omega, relies relied⟩
    · exact fun _ _ _ => trivial
    · exact fun _ _ _ _ => trivial
  refine wp_mono zoomed ?_
  rintro value final ⟨hasGrown, added, reached, isCounted⟩
  simp only [grown] at hasGrown
  exact ⟨added, by omega, isCounted⟩

/-- What a computation has added when it returns, in every run. -/
theorem Adds.run
    {counted : α → Nat → Prop}
    {program : Async σ α}
    (adds : program.Adds counting counted)
    (refl : ∀ state, counting.rely state state)
    (trans :
      ∀ {first middle last},
        counting.rely first middle → counting.rely middle last → counting.rely first last)
    {act : ι → σ → σ}
    (allowed : ∀ move state, counting.rely state (act move state))
    {script : List (Beat ι)}
    {state final : σ}
    {value : α}
    (returned : Async.run act program script state = (.done value, final)) :
    ∃ added,
      counting.measure final = counting.measure state + added ∧ counted value added := by
  have stable : (countingProtocol counting).Stable :=
    { refl := refl
      trans := trans
      suspended := fun _ _ => trivial
      aborted := fun _ _ => trivial }
  have established := run_sound stable allowed (adds state) script
  rw [returned] at established
  exact established

end Rules

end Async

end CsmProver
