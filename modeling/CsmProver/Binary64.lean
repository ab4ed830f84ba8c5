import Mathlib.Data.Int.Log
import Mathlib.Data.Rat.Floor
import Mathlib.Tactic.FieldSimp
import Mathlib.Tactic.Linarith
import Mathlib.Tactic.NormNum
import Mathlib.Tactic.Positivity
import Mathlib.Tactic.Ring

namespace CsmProver

/-!
# Rounding to double precision

A double has a significand of 53 bits and no exponent below `-1074`.  `nearest`
rounds a rational to the nearest such number, ties to the even significand.  The
exponents have no upper bound here: a value from `2 ^ 1024` on is an infinity, and
whoever rounds has to look.  The two zeros are one number.
-/

namespace Binary64

/-! ## Integers -/

/-- The nearest integer; of two equally near ones the even one. -/
def roundHalfEven (value : ℚ) : ℤ :=
  let rest := value - ⌊value⌋
  if rest < 1 / 2 then ⌊value⌋
  else if 1 / 2 < rest then ⌊value⌋ + 1
  else if ⌊value⌋ % 2 = 0 then ⌊value⌋
  else ⌊value⌋ + 1

@[simp] theorem roundHalfEven_intCast
    (integer : ℤ) :
    roundHalfEven integer = integer := by
  simp [roundHalfEven]

/-- An integer that is not above a value is not above what it rounds to. -/
theorem le_roundHalfEven
    {integer : ℤ}
    {value : ℚ}
    (atMost : integer ≤ value) :
    integer ≤ roundHalfEven value := by
  have floored : integer ≤ ⌊value⌋ := Int.le_floor.mpr atMost
  simp only [roundHalfEven]
  split_ifs <;> omega

/-- An integer that is not below a value is not below what it rounds to. -/
theorem roundHalfEven_le
    {integer : ℤ}
    {value : ℚ}
    (atLeast : value ≤ integer) :
    roundHalfEven value ≤ integer := by
  rcases eq_or_lt_of_le (Int.floor_le value) with exact | above
  · rw [← exact, roundHalfEven_intCast]
    exact_mod_cast exact.le.trans atLeast
  · have floored : ⌊value⌋ + 1 ≤ integer := by
      have := above.trans_le atLeast
      exact_mod_cast this
    simp only [roundHalfEven]
    split_ifs <;> omega

/-! ## Doubles -/

/-- The exponent of the last bit of the significand. -/
def exponent (value : ℚ) : ℤ :=
  max (-1074) (Int.log 2 |value| - 52)

/-- The nearest double. -/
def nearest (value : ℚ) : ℚ :=
  roundHalfEven (value / 2 ^ exponent value) * 2 ^ exponent value

/-- The rationals that are doubles. -/
def IsDouble (value : ℚ) : Prop :=
  nearest value = value

instance (value : ℚ) : Decidable (IsDouble value) :=
  inferInstanceAs (Decidable (nearest value = value))

/-- The significand of a value stays below 53 bits. -/
theorem abs_lt_significand
    (value : ℚ) :
    |value| < 2 ^ 53 * (2 : ℚ) ^ exponent value := by
  have logarithm : |value| < ((2 : ℕ) : ℚ) ^ (Int.log 2 |value| + 1) :=
    Int.lt_zpow_succ_log_self one_lt_two |value|
  have bounded : Int.log 2 |value| + 1 ≤ 53 + exponent value := by
    have := le_max_right (-1074) (Int.log 2 |value| - 52)
    unfold exponent
    omega
  calc
    |value| < (2 : ℚ) ^ (Int.log 2 |value| + 1) := by exact_mod_cast logarithm
    _ ≤ (2 : ℚ) ^ (53 + exponent value) := zpow_le_zpow_right₀ one_le_two bounded
    _ = 2 ^ 53 * (2 : ℚ) ^ exponent value := by
        rw [zpow_add₀ two_ne_zero]
        norm_num

/-- A nonzero value with a short enough significand needs no larger exponent than it has. -/
theorem exponent_le
    {value : ℚ}
    {scale : ℤ}
    (nonzero : value ≠ 0)
    (normal : -1074 ≤ scale)
    (short : |value| < 2 ^ 53 * (2 : ℚ) ^ scale) :
    exponent value ≤ scale := by
  refine max_le normal ?_
  have bounded : Int.log 2 |value| < 53 + scale := by
    apply (Int.lt_zpow_iff_log_lt one_lt_two (abs_pos.mpr nonzero)).mp
    calc
      |value| < 2 ^ 53 * (2 : ℚ) ^ scale := short
      _ = ((2 : ℕ) : ℚ) ^ (53 + scale) := by
          push_cast
          rw [zpow_add₀ two_ne_zero]
          norm_num
  omega

private theorem unit_pos
    (value : ℚ) :
    0 < (2 : ℚ) ^ exponent value :=
  zpow_pos two_pos _

/-- A whole multiple of its own unit is a double. -/
theorem isDouble_of_unit
    {value : ℚ}
    {significand : ℤ}
    (scaled : value = significand * (2 : ℚ) ^ exponent value) :
    IsDouble value := by
  have units : value / 2 ^ exponent value = significand := by
    rw [div_eq_iff (unit_pos value).ne']
    exact scaled
  unfold IsDouble nearest
  rw [units, roundHalfEven_intCast]
  exact scaled.symm

/-- A value whose significand has at most 53 bits is a double. -/
theorem isDouble_of_scaled
    {significand scale : ℤ}
    (normal : -1074 ≤ scale)
    (short : |significand| < 2 ^ 53) :
    IsDouble (significand * (2 : ℚ) ^ scale) := by
  rcases eq_or_ne significand 0 with rfl | nonzero
  case inl =>
    simp [IsDouble, nearest, roundHalfEven]
  case inr =>
    have unit : (0 : ℚ) < 2 ^ scale := zpow_pos two_pos _
    have valueNonzero : (significand : ℚ) * 2 ^ scale ≠ 0 :=
      mul_ne_zero (by exact_mod_cast nonzero) unit.ne'
    have below : exponent (significand * (2 : ℚ) ^ scale) ≤ scale := by
      apply exponent_le valueNonzero normal
      rw [abs_mul, abs_of_pos unit]
      have : (|significand| : ℚ) < 2 ^ 53 := by exact_mod_cast short
      gcongr
    obtain ⟨gap, equation⟩ := Int.le.dest below
    apply @isDouble_of_unit _ (significand * 2 ^ gap)
    push_cast
    calc
      (significand : ℚ) * 2 ^ scale
          = significand * 2 ^ (exponent (significand * (2 : ℚ) ^ scale) + gap) := by
        rw [equation]
      _ = significand * 2 ^ gap * 2 ^ exponent (significand * (2 : ℚ) ^ scale) := by
        rw [zpow_add₀ two_ne_zero, zpow_natCast]
        ring

/-- Every rounded value has a significand of at most 53 bits. -/
theorem nearest_scaled
    (value : ℚ) :
    ∃ significand scale : ℤ,
      -1074 ≤ scale ∧ |significand| < 2 ^ 53 ∧ nearest value = significand * 2 ^ scale := by
  have unit := unit_pos value
  have bounded : |value / 2 ^ exponent value| < 2 ^ 53 := by
    rw [abs_div, abs_of_pos unit, div_lt_iff₀ unit]
    exact abs_lt_significand value
  have upper : roundHalfEven (value / 2 ^ exponent value) ≤ 2 ^ 53 := by
    apply roundHalfEven_le
    push_cast
    exact (abs_lt.mp bounded).2.le
  have lower : -2 ^ 53 ≤ roundHalfEven (value / 2 ^ exponent value) := by
    apply le_roundHalfEven
    push_cast
    exact (abs_lt.mp bounded).1.le
  have normal : -1074 ≤ exponent value := le_max_left _ _
  -- a carry out of the significand is a power of two, which fits the next exponent
  rcases upper.lt_or_eq with fits | carry
  · rcases lower.lt_or_eq with fits' | carry
    · exact ⟨_, _, normal, abs_lt.mpr ⟨fits', fits⟩, rfl⟩
    · refine ⟨-2 ^ 52, exponent value + 1, by omega, by norm_num, ?_⟩
      unfold nearest
      rw [← carry, zpow_add₀ two_ne_zero]
      push_cast
      ring
  · refine ⟨2 ^ 52, exponent value + 1, by omega, by norm_num, ?_⟩
    unfold nearest
    rw [carry, zpow_add₀ two_ne_zero]
    push_cast
    ring

/-- What a value rounds to is a double. -/
theorem isDouble_nearest
    (value : ℚ) :
    IsDouble (nearest value) := by
  obtain ⟨significand, scale, normal, short, equation⟩ := nearest_scaled value
  rw [equation]
  exact isDouble_of_scaled normal short

theorem IsDouble.neg
    {value : ℚ}
    (double : IsDouble value) :
    IsDouble (-value) := by
  obtain ⟨significand, scale, normal, short, equation⟩ := nearest_scaled value
  have negated : -value = (-significand : ℤ) * (2 : ℚ) ^ scale := by
    rw [← double, equation]
    push_cast
    ring
  rw [negated]
  exact isDouble_of_scaled normal (by rwa [abs_neg])

/-! ## Integers among the doubles -/

/-- An integer of at most 53 bits is a double, and so is the power of two above them. -/
theorem isDouble_intCast
    {integer : ℤ}
    (small : |integer| ≤ 2 ^ 53) :
    IsDouble integer := by
  rcases small.lt_or_eq with fits | carry
  case inl =>
    have := isDouble_of_scaled (show (-1074 : ℤ) ≤ 0 by norm_num) fits
    simpa using this
  case inr =>
    have half : ∃ significand : ℤ, |significand| < 2 ^ 53 ∧ integer = significand * 2 := by
      rcases abs_eq (by norm_num) |>.mp carry with positive | negative
      · exact ⟨2 ^ 52, by norm_num, by omega⟩
      · exact ⟨-2 ^ 52, by norm_num, by omega⟩
    obtain ⟨significand, fits, rfl⟩ := half
    have := isDouble_of_scaled (show (-1074 : ℤ) ≤ 1 by norm_num) fits
    simpa using this

/-- An integer rounds to an integer. -/
theorem nearest_intCast
    (integer : ℤ) :
    ∃ rounded : ℤ, nearest integer = rounded := by
  rcases le_or_gt |integer| (2 ^ 53) with small | large
  · exact ⟨integer, isDouble_intCast small⟩
  · have logarithm : 53 ≤ Int.log 2 |(integer : ℚ)| := by
      apply (Int.zpow_le_iff_le_log one_lt_two _).mp
      · have : (2 : ℚ) ^ 53 ≤ |(integer : ℚ)| := by exact_mod_cast large.le
        exact_mod_cast this
      · have : (0 : ℤ) < |integer| := lt_trans (by norm_num) large
        exact_mod_cast this
    have whole : 0 ≤ exponent integer := le_trans (by omega) (le_max_right _ _)
    obtain ⟨digits, equation⟩ := Int.eq_ofNat_of_zero_le whole
    refine ⟨roundHalfEven (integer / 2 ^ exponent integer) * 2 ^ digits, ?_⟩
    unfold nearest
    rw [equation]
    push_cast
    rfl

/-- A value from the 54-bit numbers on does not round below them. -/
theorem le_nearest
    {value : ℚ}
    (large : 2 ^ 53 ≤ value) :
    2 ^ 53 ≤ nearest value := by
  have positive : 0 < value := lt_of_lt_of_le (by norm_num) large
  have logarithm : 53 ≤ Int.log 2 |value| := by
    apply (Int.zpow_le_iff_le_log one_lt_two (abs_pos.mpr positive.ne')).mp
    rw [abs_of_pos positive]
    exact_mod_cast large
  have exponentIs : exponent value = Int.log 2 |value| - 52 := max_eq_right (by omega)
  have unit := unit_pos value
  have significand : 2 ^ 52 ≤ roundHalfEven (value / 2 ^ exponent value) := by
    apply le_roundHalfEven
    rw [le_div_iff₀ unit, exponentIs]
    push_cast
    have below : ((2 : ℕ) : ℚ) ^ Int.log 2 |value| ≤ |value| :=
      Int.zpow_log_le_self one_lt_two (abs_pos.mpr positive.ne')
    calc
      (2 : ℚ) ^ 52 * 2 ^ (Int.log 2 |value| - 52) = 2 ^ Int.log 2 |value| := by
        rw [zpow_sub₀ two_ne_zero]
        field_simp
      _ ≤ |value| := by exact_mod_cast below
      _ = value := abs_of_pos positive
  have twoUnits : (2 : ℚ) ≤ 2 ^ exponent value := by
    calc
      (2 : ℚ) = 2 ^ (1 : ℤ) := (zpow_one 2).symm
      _ ≤ 2 ^ exponent value := zpow_le_zpow_right₀ one_le_two (by omega)
  have significandCast : (2 : ℚ) ^ 52 ≤ roundHalfEven (value / 2 ^ exponent value) := by
    exact_mod_cast significand
  calc
    (2 : ℚ) ^ 53 = (2 : ℚ) ^ 52 * 2 := by norm_num
    _ ≤ roundHalfEven (value / 2 ^ exponent value) * (2 : ℚ) ^ exponent value := by
      gcongr

/-! ## Subtraction -/

/-- The difference of two integers in double precision, itself an integer. -/
def sub (left right : ℤ) : ℤ :=
  ⌊nearest (left - right : ℤ)⌋

theorem sub_cast
    (left right : ℤ) :
    (sub left right : ℚ) = nearest (left - right : ℤ) := by
  obtain ⟨rounded, equation⟩ := nearest_intCast (left - right)
  unfold sub
  rw [equation, Int.floor_intCast]

/-- Up to `2 ^ 53` a difference is exact. -/
theorem sub_exact
    {left right : ℤ}
    (small : |left - right| ≤ 2 ^ 53) :
    sub left right = left - right := by
  have exact : (sub left right : ℚ) = (left - right : ℤ) := by
    rw [sub_cast]
    exact isDouble_intCast small
  exact_mod_cast exact

/-- Above that it does not fall below `2 ^ 53`. -/
theorem le_sub
    {left right : ℤ}
    (large : 2 ^ 53 ≤ left - right) :
    2 ^ 53 ≤ sub left right := by
  have bound : (2 ^ 53 : ℚ) ≤ sub left right := by
    rw [sub_cast]
    apply le_nearest
    exact_mod_cast large
  exact_mod_cast bound

end Binary64

end CsmProver
