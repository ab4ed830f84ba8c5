import CsmProver.Duties

namespace CsmProver

/-!
# What a worker returns

A worker builds its entries one after the other and fails with the first that
fails.  So its answer is fixed by the answers to the single entries, and two
workers whose single answers agree in some part agree in that part as a whole.
-/

/-- A sequence succeeds exactly when its parts do. -/
theorem except_bind_eq_ok
    {β γ : Type}
    {first : Except Abort β}
    {next : β → Except Abort γ}
    {result : γ} :
    (first >>= next) = .ok result ↔
      ∃ value, first = .ok value ∧ next value = .ok result := by
  cases first <;> simp [bind, Except.bind]

/-! ## The loop of a worker -/

section Loop

variable {ν μ π ω : Type}

/-- The payload of one entry, if its body succeeds and does not skip. -/
def builtPayload (build : Nat → ν → Except Abort (Option π)) (entry : Nat × ν) :
    Option π :=
  match build entry.1 entry.2 with
  | .ok payload => payload
  | .error _ => none

variable {build : Nat → ν → Except Abort (Option π)} {entries : List (Nat × ν)}

/-- A worker returns when the body succeeds for every entry, and then all payloads. -/
theorem buildPayloads_eq_ok_iff
    {payloads : List π} :
    buildPayloads build entries = .ok payloads ↔
      (∀ entry ∈ entries, ∃ result, build entry.1 entry.2 = .ok result) ∧
        payloads = entries.filterMap (builtPayload build) := by
  induction entries generalizing payloads with
  | nil =>
      simp [buildPayloads, pure, Except.pure, eq_comm]
  | cons entry rest inductionHypothesis =>
      obtain ⟨valIndex, involved⟩ := entry
      rw [buildPayloads, except_bind_eq_ok]
      simp only [except_bind_eq_ok, inductionHypothesis, List.forall_mem_cons,
        List.filterMap_cons]
      cases first : build valIndex involved with
      | error reason =>
          simp
      | ok result =>
          have firstBuilt : builtPayload build (valIndex, involved) = result := by
            simp [builtPayload, first]
          rw [firstBuilt]
          cases result with
          | none => simp [pure, Except.pure, eq_comm]
          | some payload => simp [pure, Except.pure, eq_comm]

/-- A worker whose bodies all return collects what they return. -/
theorem buildPayloads_eq_ok
    {select : Nat × ν → Option π}
    (builds : ∀ entry ∈ entries, build entry.1 entry.2 = .ok (select entry)) :
    buildPayloads build entries = .ok (entries.filterMap select) := by
  refine buildPayloads_eq_ok_iff.mpr ⟨fun entry member => ⟨_, builds entry member⟩, ?_⟩
  apply List.filterMap_congr
  intro entry member
  rw [builtPayload, builds entry member]

/-- The payloads of a worker that returns are those of its entries. -/
theorem mem_buildPayloads_iff
    {payloads : List π}
    (built : buildPayloads build entries = .ok payloads)
    {payload : π} :
    payload ∈ payloads ↔
      ∃ entry ∈ entries, build entry.1 entry.2 = .ok (some payload) := by
  obtain ⟨succeeds, rfl⟩ := buildPayloads_eq_ok_iff.mp built
  rw [List.mem_filterMap]
  constructor
  · rintro ⟨entry, member, isPayload⟩
    obtain ⟨result, entryBuilt⟩ := succeeds entry member
    rw [builtPayload, entryBuilt] at isPayload
    exact ⟨entry, member, isPayload ▸ entryBuilt⟩
  · rintro ⟨entry, member, entryBuilt⟩
    exact ⟨entry, member, by rw [builtPayload, entryBuilt]⟩

/-- Payloads keep the order of the entries they were built from. -/
theorem buildPayloads_sublist
    {name : π → μ}
    {nameOf : Nat × ν → μ}
    (named :
      ∀ entry payload,
        build entry.1 entry.2 = .ok (some payload) → name payload = nameOf entry)
    {payloads : List π}
    (built : buildPayloads build entries = .ok payloads) :
    (payloads.map name).Sublist (entries.map nameOf) := by
  obtain ⟨succeeds, rfl⟩ := buildPayloads_eq_ok_iff.mp built
  clear built
  induction entries with
  | nil =>
      exact List.Sublist.refl []
  | cons entry rest inductionHypothesis =>
      have later :=
        inductionHypothesis fun other member => succeeds other (by simp [member])
      obtain ⟨result, entryBuilt⟩ := succeeds entry (by simp)
      have firstBuilt : builtPayload build entry = result := by
        rw [builtPayload, entryBuilt]
      rw [List.filterMap_cons, firstBuilt, List.map_cons]
      cases result with
      | none => exact later.cons _
      | some payload =>
          rw [List.map_cons, named entry payload entryBuilt]
          exact later.cons_cons _

/-- One entry that fails makes the worker fail. -/
theorem buildPayloads_error
    {entry : Nat × ν}
    (member : entry ∈ entries)
    {reason : Abort}
    (fails : build entry.1 entry.2 = .error reason) :
    ∃ other, buildPayloads build entries = .error other := by
  cases built : buildPayloads build entries with
  | error other =>
      exact ⟨other, rfl⟩
  | ok payloads =>
      obtain ⟨result, succeeds⟩ := (buildPayloads_eq_ok_iff.mp built).1 entry member
      rw [fails] at succeeds
      cases succeeds

/-- A part of a worker's answer is collected from that part of the single answers. -/
theorem buildPayloads_cons_map
    {part : π → μ}
    (entry : Nat × ν)
    (rest : List (Nat × ν)) :
    (buildPayloads build (entry :: rest)).map (List.map part) =
      (do
        let payload ← (build entry.1 entry.2).map (Option.map part)
        let payloads ← (buildPayloads build rest).map (List.map part)
        return payload.toList ++ payloads) := by
  obtain ⟨valIndex, involved⟩ := entry
  rw [buildPayloads]
  cases build valIndex involved with
  | error reason =>
      rfl
  | ok payload =>
      cases buildPayloads build rest with
      | error reason => rfl
      | ok payloads => cases payload <;> rfl

/-- Workers that agree in a part of each single answer agree in that part, or fail alike. -/
theorem buildPayloads_map_congr
    {other : Nat → ν → Except Abort (Option ω)}
    {part : π → μ}
    {otherPart : ω → μ}
    (agree :
      ∀ entry ∈ entries,
        (build entry.1 entry.2).map (Option.map part) =
          (other entry.1 entry.2).map (Option.map otherPart)) :
    (buildPayloads build entries).map (List.map part) =
      (buildPayloads other entries).map (List.map otherPart) := by
  induction entries with
  | nil =>
      rfl
  | cons entry rest inductionHypothesis =>
      have first := agree entry (by simp)
      have later :=
        inductionHypothesis fun entry member => agree entry (by simp [member])
      rw [buildPayloads_cons_map, buildPayloads_cons_map, first, later]

end Loop

end CsmProver
