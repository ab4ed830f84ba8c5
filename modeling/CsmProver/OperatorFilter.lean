import CsmProver.JsNumber
import CsmProver.KeysIndexer

namespace CsmProver

/-!
# The operator filter

`DAEMON_NODE_OPERATOR_IDS` is split at commas, every part is trimmed and read as a
number, and the list has to pass the validators of its field before the process
starts.  In daemon mode the keys indexer then lets the listed operators pass, or all
of them without a list.

`Number` reads more than decimal numerals, and it reads long numerals inexactly, so
the list can hold an operator that is not written in the variable.
-/

namespace OperatorFilter

open JsNumber

/-! ## Validation -/

/-- The ids of the variable, each once; undefined for a blank one. -/
def toIntArray (value : Option String) : Option (List JsNumber) :=
  match value with
  | none => none
  | some value =>
      let trimmed := trim value.toList
      if trimmed = [] then
        none
      else
        some ((trimmed.splitOn ',').map fun part => ofText (trim part)).eraseDups

/-- The validators on the field, with what their documentation says they accept. -/
structure Validators where
  arrayMinSize : Nat → List JsNumber → Bool
  isInt : JsNumber → Bool
  min : ℤ → JsNumber → Bool
  arrayMinSize_iff : ∀ size items, arrayMinSize size items = true ↔ size ≤ items.length
  isInt_iff : ∀ number, isInt number = true ↔ ∃ integer : ℤ, number = .finite integer
  min_iff : ∀ bound value, min bound (.finite value) = true ↔ (bound : ℚ) ≤ value

/-- Whether the process starts: an undefined value is optional. -/
def accepts (validators : Validators) (validated : Option (List JsNumber)) : Bool :=
  match validated with
  | none => true
  | some ids =>
      validators.arrayMinSize 1 ids && ids.all validators.isInt && ids.all (validators.min 0)

/-! ## Lookup -/

/-- What `config.get` returns. -/
inductive ConfigValue where
  | undefined
  | ids (allowedOperatorIds : List JsNumber)
  | text (value : List Char)
  deriving DecidableEq

/--
The config service returns the validated value.  Where validation left it undefined,
the service may go on to the variable itself.
-/
def configGet (readsEnvironment : Bool) (value : String) : ConfigValue :=
  match toIntArray (some value) with
  | some ids => .ids ids
  | none => if readsEnvironment then .text value.toList else .undefined

/-- `allowedOperatorIds?.length` and `includes`, on a list and on a text. -/
def isAllowedOperatorId (workingMode : WorkingMode) (allowedOperatorIds : ConfigValue)
    (operatorId : Nat) : Bool :=
  if workingMode ≠ .daemon then
    true
  else
    match allowedOperatorIds with
    | .undefined => true
    | .ids ids => if ids.length = 0 then true else ids.contains (.finite operatorId)
    | .text chars =>
        if chars.length = 0 then true
        else decide (Nat.toDigits 10 operatorId <:+: chars)

/-! ## What is written -/

/-- The comma-separated parts without the white space around them. -/
def parts (value : String) : List (List Char) :=
  ((trim value.toList).splitOn ',').map trim

def Blank (value : String) : Prop :=
  ∀ char ∈ value.toList, isWhiteSpace char

/-- A string of decimal digits. -/
def IsNumeral (part : List Char) : Prop :=
  part ≠ [] ∧ ∀ char ∈ part, char.isDigit

/-- Some part is a decimal numeral that denotes the operator. -/
def Written (value : String) (operatorId : Nat) : Prop :=
  ∃ part ∈ parts value, IsNumeral part ∧ digitsValue 10 part = operatorId

/-- A part that is read as a nonnegative integer. -/
def ReadsNatural (part : List Char) : Prop :=
  ∃ operatorId : Nat, ofText part = .finite operatorId

instance (value : String) : Decidable (Blank value) :=
  decidable_of_iff (value.toList.all isWhiteSpace = true) List.all_eq_true

instance (part : List Char) : Decidable (IsNumeral part) :=
  decidable_of_iff (part ≠ [] ∧ part.all Char.isDigit = true)
    (and_congr_right fun _ => List.all_eq_true)

instance (value : String) (operatorId : Nat) : Decidable (Written value operatorId) :=
  decidable_of_iff
    ((parts value).any (fun part => decide (IsNumeral part ∧ digitsValue 10 part = operatorId)) =
      true)
    (by simp [Written])

theorem blank_iff
    (value : String) :
    Blank value ↔ trim value.toList = [] :=
  (trim_eq_nil_iff value.toList).symm

/-- The list holds what the parts are read as. -/
theorem toIntArray_of_not_blank
    {value : String}
    (written : ¬ Blank value) :
    toIntArray (some value) = some ((parts value).map ofText).eraseDups := by
  rw [blank_iff] at written
  simp [toIntArray, written, parts, Function.comp_def]

theorem toIntArray_of_blank
    {value : String}
    (blank : Blank value) :
    toIntArray (some value) = none := by
  rw [blank_iff] at blank
  simp [toIntArray, blank]

theorem parts_ne_nil
    (value : String) :
    parts value ≠ [] := by
  simp [parts, List.splitOn_ne_nil]

/-- Validation accepts a list exactly when every part is read as a nonnegative integer. -/
theorem accepts_iff
    {value : String}
    (validators : Validators)
    (written : ¬ Blank value) :
    accepts validators (toIntArray (some value)) = true ↔
      ∀ part ∈ parts value, ReadsNatural part := by
  rw [toIntArray_of_not_blank written]
  simp only [accepts, Bool.and_eq_true, List.all_eq_true, List.mem_eraseDups, List.mem_map,
    forall_exists_index, and_imp, forall_apply_eq_imp_iff₂]
  constructor
  case mp =>
    rintro ⟨⟨-, integral⟩, atLeast⟩ part member
    obtain ⟨integer, read⟩ := (validators.isInt_iff _).mp (integral part member)
    have nonnegative := atLeast part member
    rw [read, validators.min_iff] at nonnegative
    have : 0 ≤ integer := by exact_mod_cast nonnegative
    obtain ⟨operatorId, rfl⟩ := Int.eq_ofNat_of_zero_le this
    exact ⟨operatorId, by simpa using read⟩
  case mpr =>
    intro natural
    refine ⟨⟨?size, ?integral⟩, ?atLeast⟩
    case size =>
      rw [validators.arrayMinSize_iff]
      obtain ⟨part, member⟩ := List.exists_mem_of_ne_nil _ (parts_ne_nil value)
      have listed : ofText part ∈ ((parts value).map ofText).eraseDups :=
        List.mem_eraseDups.mpr (List.mem_map_of_mem member)
      exact List.length_pos_of_mem listed
    case integral =>
      intro part member
      obtain ⟨operatorId, read⟩ := natural part member
      exact (validators.isInt_iff _).mpr ⟨operatorId, by simpa using read⟩
    case atLeast =>
      intro part member
      obtain ⟨operatorId, read⟩ := natural part member
      rw [read, validators.min_iff]
      exact_mod_cast Nat.zero_le operatorId

/-- Without a list that was validated every operator passes, unless a text is looked up. -/
theorem isAllowed_of_blank
    {value : String}
    (blank : Blank value)
    (readsEnvironment : Bool)
    (operatorId : Nat) :
    isAllowedOperatorId .daemon (configGet readsEnvironment value) operatorId = true ↔
      value = "" ∨ readsEnvironment = false := by
  unfold configGet
  rw [toIntArray_of_blank blank]
  cases readsEnvironment with
  | false =>
      simp [isAllowedOperatorId]
  | true =>
      rcases eq_or_ne value "" with rfl | nonempty
      · simp [isAllowedOperatorId]
      · have someChar : value.toList.length ≠ 0 := by
          simpa using nonempty
        -- no digit of an operator id is white space
        have noDigits : ¬ Nat.toDigits 10 operatorId <:+: value.toList := by
          intro found
          obtain ⟨digit, member⟩ := List.exists_mem_of_length_pos
            (@Nat.length_toDigits_pos 10 operatorId)
          have white := blank digit (found.subset member)
          have solid := isWhiteSpace_of_isDigit
            (Nat.isDigit_of_mem_toDigits (by decide) (by decide) member)
          rw [white] at solid
          cases solid
        simp [isAllowedOperatorId, someChar, noDigits, nonempty]

/-- A list lets exactly the operators pass that its parts are read as. -/
theorem isAllowed_of_not_blank
    {value : String}
    (written : ¬ Blank value)
    (readsEnvironment : Bool)
    (operatorId : Nat) :
    isAllowedOperatorId .daemon (configGet readsEnvironment value) operatorId = true ↔
      ∃ part ∈ parts value, ofText part = .finite operatorId := by
  have nonempty : ((parts value).map ofText).eraseDups.length ≠ 0 := by
    obtain ⟨part, member⟩ := List.exists_mem_of_ne_nil _ (parts_ne_nil value)
    have listed : ofText part ∈ ((parts value).map ofText).eraseDups :=
      List.mem_eraseDups.mpr (List.mem_map_of_mem member)
    exact (List.length_pos_of_mem listed).ne'
  unfold configGet
  rw [toIntArray_of_not_blank written]
  simp [isAllowedOperatorId, nonempty]

/-- A numeral that denotes a double is read as it is written. -/
theorem ofText_of_numeral
    {part : List Char}
    (numeral : IsNumeral part) :
    ofText part = ofRational (digitsValue 10 part) :=
  ofText_of_digits numeral.1 numeral.2

/-! ## Reading exactly -/

/--
What the filter is for: in daemon mode the operators that pass are the written ones,
or all for a blank variable, and a variable with anything but decimal numerals in it
is rejected, so that it enables nothing that is not written.
-/
structure ReadsExactly (validators : Validators) (readsEnvironment : Bool) (value : String) :
    Prop where
  allowed_iff :
    accepts validators (toIntArray (some value)) = true →
    ∀ operatorId : Nat, Binary64.IsDouble operatorId →
      (isAllowedOperatorId .daemon (configGet readsEnvironment value) operatorId = true ↔
        Blank value ∨ Written value operatorId)
  rejected :
    ¬ Blank value → (∃ part ∈ parts value, ¬ IsNumeral part) →
    accepts validators (toIntArray (some value)) = false

/--
When it does: a blank variable is not looked up again, and of the others each has a
part that is read as no nonnegative integer, or holds decimal numerals only, each of
which is read as a number that is written.
-/
def ReadableExactly (readsEnvironment : Bool) (value : String) : Prop :=
  (Blank value ∧ (value = "" ∨ readsEnvironment = false)) ∨
    (¬ Blank value ∧
      ((∃ part ∈ parts value, ¬ ReadsNatural part) ∨
        ∀ part ∈ parts value, IsNumeral part ∧
          ∀ operatorId : Nat, ofText part = .finite operatorId → Written value operatorId))

section Exactness

variable {validators : Validators} {readsEnvironment : Bool} {value : String}

theorem readsExactly_iff_of_blank
    (blank : Blank value) :
    ReadsExactly validators readsEnvironment value ↔ value = "" ∨ readsEnvironment = false := by
  have accepted : accepts validators (toIntArray (some value)) = true := by
    rw [toIntArray_of_blank blank]
    rfl
  constructor
  case mp =>
    intro exactly
    have zero : Binary64.IsDouble (0 : ℕ) := by
      exact_mod_cast Binary64.isDouble_intCast (show |(0 : ℤ)| ≤ 2 ^ 53 by norm_num)
    exact (isAllowed_of_blank blank readsEnvironment 0).mp
      ((exactly.allowed_iff accepted 0 zero).mpr (.inl blank))
  case mpr =>
    intro ignored
    refine ⟨fun _ operatorId _ => ?_, fun written => (written blank).elim⟩
    exact iff_of_true ((isAllowed_of_blank blank readsEnvironment operatorId).mpr ignored)
      (.inl blank)

/-- Numerals whose numbers are written let exactly the written operators pass. -/
theorem allowed_iff_of_numerals
    (written : ¬ Blank value)
    (accepted : accepts validators (toIntArray (some value)) = true)
    (numerals :
      ∀ part ∈ parts value, IsNumeral part ∧
        ∀ operatorId : Nat, ofText part = .finite operatorId → Written value operatorId)
    {operatorId : Nat}
    (double : Binary64.IsDouble operatorId) :
    (∃ part ∈ parts value, ofText part = .finite operatorId) ↔ Written value operatorId := by
  constructor
  case mp =>
    rintro ⟨part, member, read⟩
    exact (numerals part member).2 operatorId read
  case mpr =>
    rintro ⟨part, member, numeral, rfl⟩
    refine ⟨part, member, ?_⟩
    obtain ⟨operatorId, natural⟩ := (accepts_iff validators written).mp accepted part member
    have read := ofText_of_numeral numeral
    unfold ofRational at read
    split_ifs at read
    case pos =>
      rw [natural] at read
      cases read
    case neg =>
      rw [read, double]

theorem readsExactly_iff_of_not_blank
    (written : ¬ Blank value) :
    ReadsExactly validators readsEnvironment value ↔
      (∃ part ∈ parts value, ¬ ReadsNatural part) ∨
        ∀ part ∈ parts value, IsNumeral part ∧
          ∀ operatorId : Nat, ofText part = .finite operatorId → Written value operatorId := by
  constructor
  case mp =>
    intro exactly
    rcases Classical.em (∃ part ∈ parts value, ¬ ReadsNatural part) with unread | natural
    · exact .inl unread
    · right
      have natural : ∀ part ∈ parts value, ReadsNatural part := by
        simpa using natural
      have accepted := (accepts_iff validators written).mpr natural
      intro part member
      constructor
      · by_contra noNumeral
        have rejected := exactly.rejected written ⟨part, member, noNumeral⟩
        rw [accepted] at rejected
        cases rejected
      · intro operatorId read
        have allowed := (isAllowed_of_not_blank written readsEnvironment operatorId).mpr
          ⟨part, member, read⟩
        have double : Binary64.IsDouble operatorId := isDouble_ofText part _ read
        exact ((exactly.allowed_iff accepted operatorId double).mp allowed).resolve_left written
  case mpr =>
    rintro (⟨part, member, unread⟩ | numerals)
    · have rejected : accepts validators (toIntArray (some value)) = false := by
        rw [← Bool.not_eq_true, accepts_iff validators written]
        exact fun natural => unread (natural part member)
      refine ⟨fun accepted => ?_, fun _ _ => rejected⟩
      rw [rejected] at accepted
      cases accepted
    · refine ⟨fun accepted operatorId double => ?_, ?_⟩
      · rw [isAllowed_of_not_blank written, or_iff_right written]
        exact allowed_iff_of_numerals written accepted numerals double
      · rintro - ⟨part, member, noNumeral⟩
        exact (noNumeral (numerals part member).1).elim

end Exactness

/-- The filter is read exactly for the variables that can be, and for no others. -/
theorem filter_reads_exactly_iff
    (validators : Validators)
    (readsEnvironment : Bool)
    (value : String) :
    ReadsExactly validators readsEnvironment value ↔ ReadableExactly readsEnvironment value := by
  by_cases blank : Blank value
  · rw [readsExactly_iff_of_blank blank]
    simp [ReadableExactly, blank]
  · rw [readsExactly_iff_of_not_blank blank]
    simp only [ReadableExactly, blank, false_and, false_or, not_false_eq_true, true_and]

/-- Validators that do what their documentation says. -/
def documentedValidators : Validators where
  arrayMinSize size items := decide (size ≤ items.length)
  isInt
    | .finite value => value.den == 1
    | _ => false
  min bound
    | .finite value => decide ((bound : ℚ) ≤ value)
    | .infinity negative => !negative
    | .nan => false
  arrayMinSize_iff := by simp
  isInt_iff := by
    intro number
    cases number with
    | nan =>
        simp
    | infinity negative =>
        simp
    | finite value =>
        simp only [beq_iff_eq, JsNumber.finite.injEq]
        constructor
        · exact fun whole => ⟨value.num, (Rat.coe_int_num_of_den_eq_one whole).symm⟩
        · rintro ⟨integer, rfl⟩
          exact Rat.den_intCast integer
  min_iff := by simp

/-- A comma at the end lets operator zero pass, which is not written. -/
theorem trailing_comma_not_read_exactly :
    accepts documentedValidators (toIntArray (some "1,")) = true ∧
      isAllowedOperatorId .daemon (configGet true "1,") 0 = true ∧
      ¬ Written "1," 0 ∧
      ¬ ReadsExactly documentedValidators true "1," := by
  have accepted : accepts documentedValidators (toIntArray (some "1,")) = true := by
    decide +kernel
  refine ⟨accepted, by decide +kernel, by decide +kernel, fun exactly => ?_⟩
  have noNumeral : ∃ part ∈ parts "1,", ¬ IsNumeral part :=
    ⟨[], by decide +kernel, by decide +kernel⟩
  have rejected := exactly.rejected (by decide +kernel) noNumeral
  rw [accepted] at rejected
  cases rejected

/-! ## Consequences -/

/-- Numerals up to `2 ^ 53` are read exactly. -/
theorem readsExactly_of_small
    {value : String}
    (written : ¬ Blank value)
    (small : ∀ part ∈ parts value, IsNumeral part ∧ digitsValue 10 part ≤ 2 ^ 53)
    (validators : Validators)
    (readsEnvironment : Bool) :
    ReadsExactly validators readsEnvironment value := by
  refine (readsExactly_iff_of_not_blank written).mpr (.inr fun part member => ?_)
  obtain ⟨numeral, bounded⟩ := small part member
  refine ⟨numeral, fun operatorId read => ⟨part, member, numeral, ?_⟩⟩
  have double : Binary64.IsDouble (digitsValue 10 part) := by
    have := @Binary64.isDouble_intCast (digitsValue 10 part) (by
      rw [abs_of_nonneg (Int.natCast_nonneg _)]
      exact_mod_cast bounded)
    exact_mod_cast this
  rw [ofText_of_numeral numeral, ofRational, double] at read
  split_ifs at read
  exact_mod_cast JsNumber.finite.inj read

/-- An empty part that validation lets through enables operator zero. -/
theorem empty_part_enables_zero
    {value : String}
    (written : ¬ Blank value)
    (emptyPart : [] ∈ parts value)
    (readsEnvironment : Bool) :
    isAllowedOperatorId .daemon (configGet readsEnvironment value) 0 = true := by
  refine (isAllowed_of_not_blank written readsEnvironment 0).mpr ⟨[], emptyPart, ?_⟩
  simp [ofText, trim, numericLiteral]

/-! ## The filter of the keys indexer -/

/-- The operator id that a number is. -/
def operatorIdOf : JsNumber → Option Nat
  | .finite value => if value.den = 1 ∧ 0 ≤ value then some value.num.toNat else none
  | _ => none

@[simp] theorem operatorIdOf_natCast
    (operatorId : Nat) :
    operatorIdOf (.finite operatorId) = some operatorId := by
  simp [operatorIdOf]

/-- The configuration that the keys indexer reads, when the process has started. -/
def configOf (config : Config) (value : String) : Config :=
  { config with
    daemonNodeOperatorIds := (toIntArray (some value)).map fun ids => ids.filterMap operatorIdOf }

section OperatorIds

variable {value : String} (natural : ∀ part ∈ parts value, ReadsNatural part)

include natural

theorem mem_operatorIds
    {operatorId : Nat} :
    operatorId ∈ ((parts value).map ofText).eraseDups.filterMap operatorIdOf ↔
      ∃ part ∈ parts value, ofText part = .finite operatorId := by
  simp only [List.mem_filterMap, List.mem_eraseDups, List.mem_map, exists_exists_and_eq_and]
  constructor
  case mp =>
    rintro ⟨part, member, isId⟩
    obtain ⟨found, read⟩ := natural part member
    rw [read, operatorIdOf_natCast] at isId
    cases isId
    exact ⟨part, member, read⟩
  case mpr =>
    rintro ⟨part, member, read⟩
    exact ⟨part, member, by rw [read, operatorIdOf_natCast]⟩

theorem operatorIds_ne_nil :
    ((parts value).map ofText).eraseDups.filterMap operatorIdOf ≠ [] := by
  obtain ⟨part, member⟩ := List.exists_mem_of_ne_nil _ (parts_ne_nil value)
  obtain ⟨operatorId, read⟩ := natural part member
  exact List.ne_nil_of_mem ((mem_operatorIds natural).mpr ⟨part, member, read⟩)

end OperatorIds

/-- On an accepted variable the keys indexer lets the same operators pass. -/
theorem isAllowedOperatorId_configOf
    {validators : Validators}
    {value : String}
    (accepted : accepts validators (toIntArray (some value)) = true)
    (config : Config)
    (operatorId : Nat) :
    KeysIndexer.isAllowedOperatorId (configOf config value) operatorId =
      isAllowedOperatorId config.workingMode (configGet false value) operatorId := by
  by_cases daemon : config.workingMode = .daemon
  case neg =>
    simp [KeysIndexer.isAllowedOperatorId, isAllowedOperatorId, configOf, daemon]
  case pos =>
    by_cases blank : Blank value
    case pos =>
      simp [KeysIndexer.isAllowedOperatorId, isAllowedOperatorId, configOf, configGet, daemon,
        toIntArray_of_blank blank]
    case neg =>
      rw [daemon, Bool.eq_iff_iff, isAllowed_of_not_blank blank,
        ← mem_operatorIds ((accepts_iff validators blank).mp accepted)]
      obtain ⟨first, rest, listed⟩ := List.exists_cons_of_ne_nil
        (operatorIds_ne_nil ((accepts_iff validators blank).mp accepted))
      simp [KeysIndexer.isAllowedOperatorId, configOf, daemon, toIntArray_of_not_blank blank,
        listed]

end OperatorFilter

end CsmProver
