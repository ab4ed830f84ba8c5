import CsmProver.Binary64
import Mathlib.Data.List.DropRight

namespace CsmProver

/-!
# Numbers and their text

The numbers of JavaScript without the sign of zero, and `Number(text)`: blank text is
zero, a prefix gives the base of an integer, and everything else is a decimal with an
optional sign, point and exponent, rounded to the nearest double.
-/

/-- A number, where both zeros are one. -/
inductive JsNumber where
  | nan
  | infinity (negative : Bool)
  | finite (value : ℚ)
  deriving Repr, DecidableEq

namespace JsNumber

/-- The number nearest to a rational. -/
def ofRational (value : ℚ) : JsNumber :=
  if 2 ^ 1024 ≤ |Binary64.nearest value| then
    .infinity (decide (value < 0))
  else
    .finite (Binary64.nearest value)

/-- `-number`. -/
def neg : JsNumber → JsNumber
  | .nan => .nan
  | .infinity negative => .infinity (!negative)
  | .finite value => .finite (-value)

/-! ## White space -/

/-- White space and line terminators. -/
def isWhiteSpace (char : Char) : Bool :=
  [0x09, 0x0A, 0x0B, 0x0C, 0x0D, 0x20, 0xA0, 0x1680, 0x2028, 0x2029, 0x202F, 0x205F, 0x3000,
    0xFEFF].contains char.toNat ||
  (0x2000 ≤ char.toNat && char.toNat ≤ 0x200A)

/-- `text.trim()`. -/
def trim (text : List Char) : List Char :=
  (text.dropWhile isWhiteSpace).rdropWhile isWhiteSpace

/-! ## Digits -/

/-- The digits of all bases up to sixteen. -/
def isHexDigit (char : Char) : Bool :=
  char.isDigit || ('a' ≤ char && char ≤ 'f') || ('A' ≤ char && char ≤ 'F')

/-- What a digit stands for. -/
def digitValue (char : Char) : Nat :=
  if char.isDigit then char.toNat - 48
  else if 'a' ≤ char then char.toNat - 87
  else char.toNat - 55

/-- The digits of a base. -/
def isDigitOf (base : Nat) (char : Char) : Bool :=
  isHexDigit char && digitValue char < base

/-- The integer that digits denote. -/
def digitsValue (base : Nat) (digits : List Char) : Nat :=
  digits.foldl (fun value char => value * base + digitValue char) 0

/-! ## Literals -/

/-- Decimal digits without a sign. -/
def unsignedInteger (digits : List Char) : Option ℤ :=
  if digits ≠ [] ∧ digits.all Char.isDigit then some (digitsValue 10 digits) else none

/-- Decimal digits with an optional sign. -/
def signedInteger : List Char → Option ℤ
  | '+' :: digits => unsignedInteger digits
  | '-' :: digits => (unsignedInteger digits).map fun value => -value
  | digits => unsignedInteger digits

/-- The exponent after the digits, zero if there is none. -/
def exponentPart : List Char → Option ℤ
  | [] => some 0
  | char :: rest => if char = 'e' ∨ char = 'E' then signedInteger rest else none

/-- The digits after the point and what follows them. -/
def fractionPart : List Char → List Char × List Char
  | '.' :: rest => (rest.takeWhile Char.isDigit, rest.dropWhile Char.isDigit)
  | rest => ([], rest)

/-- A decimal without a sign, or `Infinity`. -/
def unsignedDecimalLiteral (text : List Char) : JsNumber :=
  if text = "Infinity".toList then
    .infinity false
  else
    let whole := text.takeWhile Char.isDigit
    let fraction := fractionPart (text.dropWhile Char.isDigit)
    if whole ++ fraction.1 = [] then
      .nan
    else
      match exponentPart fraction.2 with
      | none => .nan
      | some exponent =>
          ofRational (digitsValue 10 (whole ++ fraction.1) *
            10 ^ (exponent - fraction.1.length))

/-- A decimal with an optional sign. -/
def decimalLiteral : List Char → JsNumber
  | '+' :: rest => unsignedDecimalLiteral rest
  | '-' :: rest => (unsignedDecimalLiteral rest).neg
  | text => unsignedDecimalLiteral text

/-- The base that a letter after a leading zero announces. -/
def radix (letter : Char) : Option Nat :=
  if letter = 'b' ∨ letter = 'B' then some 2
  else if letter = 'o' ∨ letter = 'O' then some 8
  else if letter = 'x' ∨ letter = 'X' then some 16
  else none

/-- The digits after the prefix of a base. -/
def nonDecimalLiteral (base : Nat) (digits : List Char) : JsNumber :=
  if digits ≠ [] ∧ digits.all (isDigitOf base) then
    ofRational (digitsValue base digits)
  else
    .nan

/-- A literal without the white space around it. -/
def numericLiteral : List Char → JsNumber
  | [] => .finite 0
  | '0' :: letter :: digits =>
      match radix letter with
      | some base => nonDecimalLiteral base digits
      | none => decimalLiteral ('0' :: letter :: digits)
  | text => decimalLiteral text

/-- `Number(text)`. -/
def ofText (text : List Char) : JsNumber :=
  numericLiteral (trim text)

/-! ## What text is read as -/

/-- Text that trims to nothing is blank. -/
theorem trim_eq_nil_iff
    (text : List Char) :
    trim text = [] ↔ ∀ char ∈ text, isWhiteSpace char := by
  unfold trim
  rw [List.rdropWhile_eq_nil_iff]
  constructor
  · intro rest char member
    have parted : char ∈ text.takeWhile isWhiteSpace ++ text.dropWhile isWhiteSpace := by
      rw [List.takeWhile_append_dropWhile]
      exact member
    rcases List.mem_append.mp parted with leading | following
    · exact List.mem_takeWhile_imp leading
    · exact rest char following
  · intro blank char member
    exact blank char (List.dropWhile_sublist _ |>.subset member)

/-- Text without white space is its own trim. -/
theorem trim_eq_self
    {text : List Char}
    (solid : ∀ char ∈ text, isWhiteSpace char = false) :
    trim text = text := by
  have leading : text.dropWhile isWhiteSpace = text := by
    rw [List.dropWhile_eq_self_iff]
    intro nonempty
    simp [solid _ (List.getElem_mem nonempty)]
  unfold trim
  rw [leading, List.rdropWhile_eq_self_iff]
  intro nonempty
  simp [solid _ (List.getLast_mem nonempty)]

/-- The codes of the decimal digits. -/
theorem isDigit_bounds
    {char : Char}
    (digit : char.isDigit) :
    48 ≤ char.toNat ∧ char.toNat ≤ 57 := by
  simpa [Char.isDigit, UInt32.le_iff_toNat_le] using digit

/-- A digit is not white space. -/
theorem isWhiteSpace_of_isDigit
    {char : Char}
    (digit : char.isDigit) :
    isWhiteSpace char = false := by
  obtain ⟨above, below⟩ := isDigit_bounds digit
  simp only [isWhiteSpace, List.contains_eq_mem, List.mem_cons, List.not_mem_nil, or_false,
    Bool.or_eq_false_iff, decide_eq_false_iff_not, Bool.and_eq_false_iff]
  omega

/-- No digit announces a base. -/
theorem radix_of_isDigit
    {letter : Char}
    (digit : letter.isDigit) :
    radix letter = none := by
  have noLetter : ∀ other : Char, other.isDigit = false → letter ≠ other := by
    rintro other noDigit rfl
    simp [digit] at noDigit
  simp [radix, noLetter]

section Digits

variable {digits : List Char}

/-- Decimal digits have no prefix. -/
theorem numericLiteral_of_digits
    (nonempty : digits ≠ [])
    (decimal : ∀ char ∈ digits, char.isDigit) :
    numericLiteral digits = decimalLiteral digits := by
  unfold numericLiteral
  split
  case h_1 =>
    exact (nonempty rfl).elim
  case h_2 letter rest =>
    rw [radix_of_isDigit (decimal letter (by simp))]
  case h_3 =>
    rfl

/-- Decimal digits have no sign. -/
theorem decimalLiteral_of_digits
    (decimal : ∀ char ∈ digits, char.isDigit) :
    decimalLiteral digits = unsignedDecimalLiteral digits := by
  unfold decimalLiteral
  split
  case h_1 rest =>
    have := decimal '+' (by simp)
    cases this
  case h_2 rest =>
    have := decimal '-' (by simp)
    cases this
  case h_3 =>
    rfl

/-- Decimal digits denote their value. -/
theorem unsignedDecimalLiteral_of_digits
    (nonempty : digits ≠ [])
    (decimal : ∀ char ∈ digits, char.isDigit) :
    unsignedDecimalLiteral digits = ofRational (digitsValue 10 digits) := by
  have noInfinity : digits ≠ "Infinity".toList := by
    rintro rfl
    have := decimal 'I' (by decide)
    cases this
  have whole : digits.takeWhile Char.isDigit = digits :=
    List.takeWhile_eq_self_iff.mpr decimal
  have rest : digits.dropWhile Char.isDigit = [] :=
    List.dropWhile_eq_nil_iff.mpr decimal
  unfold unsignedDecimalLiteral
  rw [if_neg noInfinity, whole, rest]
  simp [fractionPart, exponentPart, nonempty]

/-- A decimal numeral is read as the number nearest to what it denotes. -/
theorem ofText_of_digits
    (nonempty : digits ≠ [])
    (decimal : ∀ char ∈ digits, char.isDigit) :
    ofText digits = ofRational (digitsValue 10 digits) := by
  unfold ofText
  rw [trim_eq_self fun char member => isWhiteSpace_of_isDigit (decimal char member),
    numericLiteral_of_digits nonempty decimal, decimalLiteral_of_digits decimal,
    unsignedDecimalLiteral_of_digits nonempty decimal]

end Digits

/-! ## Doubles -/

/-- A number that is a double if it is finite. -/
def IsDouble (number : JsNumber) : Prop :=
  ∀ value, number = .finite value → Binary64.IsDouble value

/-- There is nothing to show of what is not finite. -/
theorem isDouble_nan : IsDouble .nan :=
  fun _ read => by cases read

/-- A rounded rational is a double. -/
theorem isDouble_ofRational
    (value : ℚ) :
    IsDouble (ofRational value) := by
  intro rounded read
  unfold ofRational at read
  split_ifs at read
  cases read
  exact Binary64.isDouble_nearest value

/-- The opposite of a double is a double. -/
theorem IsDouble.neg
    {number : JsNumber}
    (double : IsDouble number) :
    IsDouble number.neg := by
  intro value read
  cases number with
  | nan =>
      cases read
  | infinity negative =>
      cases read
  | finite opposite =>
      cases read
      exact (double opposite rfl).neg

/-- A decimal without a sign is rounded. -/
theorem isDouble_unsignedDecimalLiteral
    (text : List Char) :
    IsDouble (unsignedDecimalLiteral text) := by
  unfold unsignedDecimalLiteral
  dsimp only
  split_ifs
  · exact fun _ read => by cases read
  · exact isDouble_nan
  · split
    · exact isDouble_nan
    · exact isDouble_ofRational _

/-- So is one with a sign. -/
theorem isDouble_decimalLiteral
    (text : List Char) :
    IsDouble (decimalLiteral text) := by
  unfold decimalLiteral
  split
  · exact isDouble_unsignedDecimalLiteral _
  · exact (isDouble_unsignedDecimalLiteral _).neg
  · exact isDouble_unsignedDecimalLiteral _

/-- Whatever text is read as, it is a double if it is finite. -/
theorem isDouble_ofText
    (text : List Char) :
    IsDouble (ofText text) := by
  unfold ofText numericLiteral
  split
  case h_1 =>
    intro value read
    cases read
    exact_mod_cast Binary64.isDouble_intCast (show |(0 : ℤ)| ≤ 2 ^ 53 by norm_num)
  case h_2 letter rest _ =>
    split
    · unfold nonDecimalLiteral
      split_ifs
      · exact isDouble_ofRational _
      · exact isDouble_nan
    · exact isDouble_decimalLiteral _
  case h_3 =>
    exact isDouble_decimalLiteral _

-- an empty text, a hexadecimal, an exponent and a fraction below the last double are integers
example :
    ["", "0x1F", " 2e1 ", "1e-400", "1_0", "+-1"].map (fun text => ofText text.toList) =
      [.finite 0, .finite 31, .finite 20, .finite 0, .nan, .nan] := by
  decide +kernel

end JsNumber

end CsmProver
