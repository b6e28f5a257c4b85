import Mathlib.Algebra.Order.Ring.Rat
import Mathlib.Data.List.TakeDrop
import YPriceMagic.Python.Text

/-! The texts of numbers: what `int`, `float` and `Decimal` accept. -/
namespace YPriceMagic.Python.Numerals
open YPriceMagic.Python.Text

/-- The value a number's text denotes, before any rounding. -/
inductive Number
  | nan
  | infinite (negative : Bool)
  | finite (value : Rat)
  deriving DecidableEq, Repr

/-- The blanks around a number, once Unicode blanks are read as spaces. -/
def asciiSpace (c : Char) : Bool := (9 ≤ c.toNat && c.toNat ≤ 13) || c == ' '

def sign : List Char → Bool × List Char
  | '-'::rest => (true,rest)
  | '+'::rest => (false,rest)
  | rest => (false,rest)

/-- An underscore stands between two digits. -/
def joinDigits (afterDigit : Bool) : List Char → Option (List Char)
  | [] => some []
  | ['_'] => none
  | '_'::c::rest => if afterDigit && c.isDigit then (joinDigits true rest).map (c::·) else none
  | c::rest => (joinDigits c.isDigit rest).map (c::·)

def natOf (digits : List Char) : Nat := Nat.ofDigitChars 10 digits 0

/-- An integer's text may have this many digits (`sys.get_int_max_str_digits()`). -/
def maxStrDigits : Nat := 4300

/-- `int(text)`. -/
def intOf (text : List Char) : Option Int := do
  let text ← joinDigits false (stripBy asciiSpace (text.map asciiDigit))
  let (negative,digits) := sign text
  if digits ≠ [] ∧ digits.all Char.isDigit ∧ digits.length ≤ maxStrDigits then
    return if negative then -(natOf digits : Int) else natOf digits
  else none

/-- The digits of a decimal number and the power of ten that multiplies them. -/
structure Scientific where
  digits : List Char
  exponent : Int

def Scientific.value (number : Scientific) : Rat := natOf number.digits * 10 ^ number.exponent

def exponentOf : List Char → Option Int
  | [] => some 0
  | c::rest => do
    let (negative,digits) := sign rest
    if (c = 'e' ∨ c = 'E') ∧ digits ≠ [] ∧ digits.all Char.isDigit then
      return if negative then -(natOf digits : Int) else natOf digits
    else none

def scientific (text : List Char) : Option Scientific := do
  let (whole,rest) := text.span Char.isDigit
  let (fraction,rest) := if rest.head? = some '.' then rest.tail.span Char.isDigit else ([],rest)
  if whole ++ fraction = [] then none
  else do
    let exponent ← exponentOf rest
    return ⟨whole ++ fraction,exponent - fraction.length⟩

def signed (negative : Bool) (value : Rat) : Number := .finite (if negative then -value else value)

/-- The value `float(text)` rounds. -/
def floatOf (text : List Char) : Option Number := do
  let text ← joinDigits false (stripBy asciiSpace (text.map asciiDigit))
  let (negative,rest) := sign text
  let word := rest.map Char.toLower
  if word = "inf".toList ∨ word = "infinity".toList then return .infinite negative
  else if word = "nan".toList then return .nan
  else do
    let number ← scientific rest
    return signed negative number.value

/-- A `Decimal` keeps its text's digits; they and the exponent stay within the largest context. -/
def Scientific.exact (number : Scientific) : Bool :=
  let digits := max 1 (number.digits.dropWhile (· = '0')).length
  decide (-1999999999999999997 ≤ number.exponent ∧ number.exponent + digits ≤ 1000000000000000000)

def isNan (word : List Char) : Bool :=
  ["nan".toList,"snan".toList].any fun name => name.isPrefixOf word && (word.drop name.length).all Char.isDigit

/-- `Decimal(text)`. -/
def decimalOf (text : List Char) : Option Number := do
  let text := ((stripBy isspace text).map asciiDigit).filter (· ≠ '_')
  let (negative,rest) := sign text
  let word := rest.map Char.toLower
  if word = "inf".toList ∨ word = "infinity".toList then return .infinite negative
  else if isNan word then return .nan
  else do
    let number ← scientific rest
    if number.exact then return signed negative number.value else none

theorem isDigit_toNat {c : Char} (digit : c.isDigit = true) : 48 ≤ c.toNat ∧ c.toNat ≤ 57 := by
  simpa [Char.isDigit,UInt32.le_iff_toNat_le] using digit

theorem not_asciiSpace {c : Char} (digit : c.isDigit = true) : asciiSpace c = false := by
  have range := isDigit_toNat digit
  have space : c ≠ ' ' := by
    rintro rfl
    simp at range
  simp [asciiSpace,space]
  omega

section
variable {digits : List Char} (numeral : ∀ c ∈ digits, c.isDigit = true)
include numeral

theorem asciiDigit_digits : digits.map asciiDigit = digits := by
  conv_rhs => rw [← List.map_id digits]
  apply List.map_congr_left
  intro c member
  have range := isDigit_toNat (numeral c member)
  exact asciiDigit_ascii (by omega)

theorem stripBy_digits : stripBy asciiSpace digits = digits := by
  apply stripBy_eq_self
  intro c member
  exact not_asciiSpace (numeral c member)

theorem joinDigits_digits (afterDigit : Bool) : joinDigits afterDigit digits = some digits := by
  induction digits generalizing afterDigit with
  | nil => rfl
  | cons c digits ih =>
    have range := isDigit_toNat (numeral c List.mem_cons_self)
    have underscore : c ≠ '_' := by
      rintro rfl
      simp at range
    have rest := ih (fun d member => numeral d (List.mem_cons_of_mem c member)) c.isDigit
    simp [joinDigits,underscore,rest]

theorem intOf_negative (nonempty : digits ≠ []) (short : digits.length ≤ maxStrDigits) :
    intOf ('-'::digits) = some (-(natOf digits : Int)) := by
  have ascii : ('-'::digits).map asciiDigit = '-'::digits := by
    rw [List.map_cons,asciiDigit_digits numeral]
    rfl
  have solid : stripBy asciiSpace ('-'::digits) = '-'::digits := by
    apply stripBy_eq_self
    intro c member
    obtain rfl | digit := List.mem_cons.mp member
    · decide
    · exact not_asciiSpace (numeral c digit)
  have joined : joinDigits false ('-'::digits) = some ('-'::digits) := by
    rw [joinDigits,joinDigits_digits numeral]
    · rfl
    · simp
    · simp
  simpa [intOf,ascii,solid,joined,sign,nonempty,short] using numeral

theorem sign_digits : sign digits = (false,digits) := by
  unfold sign
  split
  · simpa using numeral '-' List.mem_cons_self
  · simpa using numeral '+' List.mem_cons_self
  · rfl

theorem intOf_digits (nonempty : digits ≠ []) (short : digits.length ≤ maxStrDigits) :
    intOf digits = some (natOf digits : Int) := by
  simpa [intOf,asciiDigit_digits numeral,stripBy_digits numeral,joinDigits_digits numeral,sign_digits numeral,
    nonempty,short] using numeral

theorem intOf_long (long : maxStrDigits < digits.length) : intOf digits = none := by
  simp [intOf,asciiDigit_digits numeral,stripBy_digits numeral,joinDigits_digits numeral,sign_digits numeral,long]

end

theorem numeral_toDigits (n : Nat) : ∀ c ∈ Nat.toDigits 10 n, c.isDigit = true :=
  fun _ member => Nat.isDigit_of_mem_toDigits (by decide) (by decide) member

/-- `int(str(n))`. -/
theorem intOf_repr {n : Nat} (short : (Nat.toDigits 10 n).length ≤ maxStrDigits) :
    intOf n.repr.toList = some (n : Int) := by
  rw [Nat.toList_repr,intOf_digits (numeral_toDigits n) Nat.toDigits_ne_nil short,natOf,Nat.ofDigitChars_ten_toDigits]

theorem intOf_toString {n : Int} (short : (Nat.toDigits 10 n.natAbs).length ≤ maxStrDigits) :
    intOf (toString n).toList = some n := by
  cases n with
  | ofNat n => exact intOf_repr short
  | negSucc n =>
    change intOf ("-" ++ (n+1).repr).toList = some (Int.negSucc n)
    rw [String.toList_append,Nat.toList_repr]
    change intOf ('-'::Nat.toDigits 10 (n+1)) = _
    rw [intOf_negative (numeral_toDigits (n+1)) Nat.toDigits_ne_nil short,natOf,Nat.ofDigitChars_ten_toDigits]
    rfl

/-- The characters of a finite decimal. -/
def numeric (c : Char) : Bool := c.isDigit || c == '.' || c == 'e' || c == 'E' || c == '+' || c == '-'

theorem numeric_digit {c : Char} (digit : c.isDigit = true) : numeric c = true := by simp [numeric,digit]

theorem sign_numeric {text : List Char} (rest : ∀ c ∈ (sign text).2, numeric c = true) : ∀ c ∈ text, numeric c = true := by
  unfold sign at rest
  split at rest
  · exact List.forall_mem_cons.mpr ⟨rfl,rest⟩
  · exact List.forall_mem_cons.mpr ⟨rfl,rest⟩
  · exact rest

theorem exponentOf_numeric {text : List Char} {exponent : Int} (read : exponentOf text = some exponent) :
    ∀ c ∈ text, numeric c = true := by
  cases text with
  | nil => exact List.forall_mem_nil _
  | cons first rest =>
    simp only [exponentOf,Option.ite_none_right_eq_some] at read
    obtain ⟨⟨letter,_,digits⟩,_⟩ := read
    refine List.forall_mem_cons.mpr ⟨?_,sign_numeric fun c member => numeric_digit (List.all_eq_true.mp digits c member)⟩
    rcases letter with rfl | rfl <;> rfl

theorem span_digits (text : List Char) : ∃ whole rest, text.span Char.isDigit = (whole,rest) ∧ text = whole ++ rest ∧
    ∀ c ∈ whole, numeric c = true :=
  ⟨_,_,List.span_eq_takeWhile_dropWhile ..,(List.takeWhile_append_dropWhile).symm,
    fun _ member => numeric_digit (List.mem_takeWhile_imp member)⟩

theorem scientific_numeric {text : List Char} {number : Scientific} (read : scientific text = some number) :
    ∀ c ∈ text, numeric c = true := by
  obtain ⟨whole,rest,split,rfl,digits⟩ := span_digits text
  rw [scientific,split] at read
  refine List.forall_mem_append.mpr ⟨digits,?_⟩
  dsimp only at read
  by_cases point : rest.head? = some '.'
  · obtain ⟨fraction,later,again,after,more⟩ := span_digits rest.tail
    rw [if_pos point,again] at read
    simp only [Option.ite_none_left_eq_some,Option.bind_eq_bind,Option.bind_eq_some_iff] at read
    obtain ⟨_,exponent,found,_⟩ := read
    rw [List.eq_cons_of_mem_head? point,after]
    exact List.forall_mem_cons.mpr ⟨rfl,List.forall_mem_append.mpr ⟨more,exponentOf_numeric found⟩⟩
  · rw [if_neg point] at read
    simp only [Option.ite_none_left_eq_some,Option.bind_eq_bind,Option.bind_eq_some_iff] at read
    obtain ⟨_,exponent,found,_⟩ := read
    exact exponentOf_numeric found

theorem asciiDigit_comma : asciiDigit ',' = ',' := asciiDigit_ascii (by decide)

/-- A finite decimal is written without commas. -/
theorem decimalOf_no_comma {text : List Char} {value : Rat} (read : decimalOf text = some (.finite value)) : ',' ∉ text := by
  intro member
  have kept : ',' ∈ ((stripBy isspace text).map asciiDigit).filter (· ≠ '_') := by
    refine List.mem_filter.mpr ⟨List.mem_map.mpr ⟨',',mem_stripBy member rfl,asciiDigit_comma⟩,rfl⟩
  have plain : ∀ c ∈ ((stripBy isspace text).map asciiDigit).filter (· ≠ '_'), numeric c = true := by
    simp only [decimalOf,Option.pure_def,Option.bind_eq_bind] at read
    split at read
    · cases read
    · split at read
      · cases read
      · obtain ⟨number,found,_⟩ := Option.bind_eq_some_iff.mp read
        exact sign_numeric (scientific_numeric found)
  exact absurd (plain ',' kept) (by decide)

theorem decimalOf_stripBy (text : List Char) : decimalOf (stripBy isspace text) = decimalOf text := by
  unfold decimalOf
  rw [stripBy_stripBy]

theorem joinDigits_mem {text joined : List Char} {afterDigit : Bool} (read : joinDigits afterDigit text = some joined) {c : Char}
    (other : c ≠ '_') (member : c ∈ text) : c ∈ joined := by
  fun_induction joinDigits afterDigit text generalizing joined with
  | case1 => cases member
  | case2 => cases read
  | case3 afterDigit d rest digit ih =>
    obtain ⟨later,found,rfl⟩ := Option.map_eq_some_iff.mp read
    rcases List.mem_cons.mp member with rfl | inside
    · exact absurd rfl other
    · rcases List.mem_cons.mp inside with rfl | rest
      · exact List.mem_cons_self
      · exact List.mem_cons_of_mem _ (ih found rest)
  | case4 => cases read
  | case5 afterDigit d rest _ _ ih =>
    obtain ⟨later,found,rfl⟩ := Option.map_eq_some_iff.mp read
    rcases List.mem_cons.mp member with rfl | inside
    · exact List.mem_cons_self
    · exact List.mem_cons_of_mem _ (ih found inside)

theorem mem_sign {text : List Char} {c : Char} (unsigned : c ≠ '-' ∧ c ≠ '+') (member : c ∈ text) : c ∈ (sign text).2 := by
  unfold sign
  split
  · exact (List.mem_cons.mp member).resolve_left unsigned.1
  · exact (List.mem_cons.mp member).resolve_left unsigned.2
  · exact member

/-- No number that `float` reads is written with a colon. -/
theorem floatOf_no_colon {text : List Char} {number : Number} (read : floatOf text = some number) : ':' ∉ text := by
  intro member
  have ascii : asciiDigit ':' = ':' := asciiDigit_ascii (by decide)
  have kept : ':' ∈ stripBy asciiSpace (text.map asciiDigit) := mem_stripBy (List.mem_map.mpr ⟨':',member,ascii⟩) rfl
  obtain ⟨joined,found,read⟩ := Option.bind_eq_some_iff.mp read
  have inside : ':' ∈ (sign joined).2 := mem_sign (by decide) (joinDigits_mem found (by decide) kept)
  have lower : ':' ∈ (sign joined).2.map Char.toLower := List.mem_map.mpr ⟨':',inside,rfl⟩
  dsimp only at read
  split at read
  · rename_i word
    rcases word with same | same <;> rw [same] at lower <;> revert lower <;> decide
  · split at read
    · rename_i word
      rw [word] at lower
      revert lower
      decide
    · obtain ⟨scientific,read,_⟩ := Option.bind_eq_some_iff.mp read
      exact absurd (scientific_numeric read ':' inside) (by decide)

end YPriceMagic.Python.Numerals
