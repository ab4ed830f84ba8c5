import Mathlib.Data.Nat.ModEq
import Mathlib.Tactic.Linarith

namespace CsmProver

/-!
# A ring buffer with periodic summaries

A sequence of values is written into a ring of `period` cells, one value after the
other.  From the index `start` on, a digest of the ring is appended to a list each
time the ring has gone around.  The ring holds the last `period` values, and entry
`k` of the list is the digest of the ring `k + 1` rounds after the start.
-/

namespace RingHistory

/-- What is left of the sequence: its last values and the digests. -/
structure State (β δ : Type) where
  ring : List β
  summaries : List δ
  deriving Repr, DecidableEq

section Recording

variable {β δ : Type}
variable (period start : Nat) (digest : List β → δ) (initial : β) (value : Nat → β)

/-- Write the value of an index; after the last cell of a round, append a digest. -/
def step (index : Nat) (state : State β δ) : State β δ :=
  let ring := state.ring.set (index % period) (value index)
  { ring := ring
    summaries :=
      if start ≤ index ∧ (index + 1) % period = 0 then
        state.summaries ++ [digest ring]
      else
        state.summaries }

/-- The state before the value of an index is written. -/
def stateAt : Nat → State β δ
  | 0 =>
      { ring := List.replicate period initial
        summaries := [] }
  | index + 1 => step period start digest value index (stateAt index)

variable {period start digest initial value}

theorem length_ring
    (index : Nat) :
    (stateAt period start digest initial value index).ring.length = period := by
  induction index with
  | zero =>
      simp [stateAt]
  | succ index inductionHypothesis =>
      simp [stateAt, step, inductionHypothesis]

/-- Indices less than a period apart lie in different cells. -/
theorem mod_ne_of_close
    {earlier later : Nat}
    (before : earlier < later)
    (close : later < earlier + period) :
    later % period ≠ earlier % period := by
  intro sameCell
  have divides : period ∣ later - earlier :=
    (Nat.modEq_iff_dvd' before.le).mp (Eq.symm sameCell)
  have atLeast := Nat.le_of_dvd (by omega) divides
  omega

/-- The ring holds the last `period` values, each in the cell of its index. -/
theorem getElem?_ring
    (positive : 0 < period)
    {earlier index : Nat}
    (before : earlier < index)
    (close : index ≤ earlier + period) :
    (stateAt period start digest initial value index).ring[earlier % period]? =
      some (value earlier) := by
  induction index with
  | zero =>
      omega
  | succ index inductionHypothesis =>
      have inRing :
          earlier % period <
            (stateAt period start digest initial value index).ring.length := by
        rw [length_ring]
        exact Nat.mod_lt _ positive
      simp only [stateAt, step]
      by_cases written : earlier = index
      · subst written
        rw [List.getElem?_set_self inRing]
      · have kept := inductionHypothesis (by omega) (by omega)
        rw [List.getElem?_set_ne (mod_ne_of_close (by omega) (by omega))]
        exact kept

/-- A round ends at the successor of an index exactly when it ends a round from the start. -/
theorem round_ends_iff
    {index : Nat}
    (aligned : period ∣ start)
    (started : start ≤ index) :
    (index + 1) % period = 0 ↔ period ∣ index - start + 1 := by
  rw [← Nat.dvd_iff_mod_eq_zero]
  have split : index + 1 = start + (index - start + 1) := by omega
  rw [split]
  exact Nat.dvd_add_right aligned

/-- One digest for each round since the start, in order. -/
theorem summaries_eq
    (aligned : period ∣ start)
    (index : Nat) :
    (stateAt period start digest initial value index).summaries =
      (List.range ((index - start) / period)).map fun round =>
        digest
          (stateAt period start digest initial value
            (start + (round + 1) * period)).ring := by
  induction index with
  | zero =>
      simp [stateAt]
  | succ index inductionHypothesis =>
      simp only [stateAt, step]
      by_cases started : start ≤ index
      · have distance : index + 1 - start = index - start + 1 := by omega
        rw [distance, Nat.succ_div]
        by_cases ends : period ∣ index - start + 1
        · have roundEnds := (round_ends_iff aligned started).mpr ends
          have atEnd : start + ((index - start) / period + 1) * period = index + 1 := by
            have whole : (index - start + 1) / period * period = index - start + 1 :=
              Nat.div_mul_cancel ends
            rw [Nat.succ_div, if_pos ends] at whole
            omega
          rw [if_pos ⟨started, roundEnds⟩, if_pos ends, inductionHypothesis]
          rw [List.range_succ, List.map_append]
          simp only [List.map_cons, List.map_nil, atEnd]
          rfl
        · have roundOpen : ¬ (start ≤ index ∧ (index + 1) % period = 0) :=
            fun both => ends ((round_ends_iff aligned started).mp both.2)
          rw [if_neg roundOpen, if_neg ends, Nat.add_zero]
          exact inductionHypothesis
      · have roundOpen : ¬ (start ≤ index ∧ (index + 1) % period = 0) :=
          fun both => started both.1
        have noneBefore : index - start = 0 := by omega
        have noneAfter : index + 1 - start = 0 := by omega
        rw [if_neg roundOpen, noneAfter]
        rw [noneBefore] at inductionHypothesis
        exact inductionHypothesis

theorem length_summaries
    (aligned : period ∣ start)
    (index : Nat) :
    (stateAt period start digest initial value index).summaries.length =
      (index - start) / period := by
  rw [summaries_eq aligned]
  simp

/-- A digest that is there was taken at the end of its round. -/
theorem getElem?_summaries
    (aligned : period ∣ start)
    {round index : Nat}
    (taken : round < (index - start) / period) :
    (stateAt period start digest initial value index).summaries[round]? =
      some
        (digest
          (stateAt period start digest initial value
            (start + (round + 1) * period)).ring) := by
  rw [summaries_eq aligned]
  simp [taken]

end Recording

end RingHistory

end CsmProver
