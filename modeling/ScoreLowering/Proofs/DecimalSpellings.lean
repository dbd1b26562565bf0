import Mathlib.Data.Nat.Digits.Defs
import ScoreLowering.Proofs.RangeText
import ScoreLowering.Value.Decimal

/-!
# How decimal literals are spelled

A decimal literal is spelled with an optional minus sign, a row of digits and, optionally, a
point and a second row.  Either row may be empty, but not both.  The reader accepts the spellings
with at most 18 digits behind the point of the numbers that have 64 bits, and nothing else, and
what it reads is the number that the digits stand for.

The printer chooses one spelling for each literal.  So a literal is read back unless it has more
digits than a reader takes, or is the one number whose magnitude needs another bit.
-/

namespace ScoreLowering

namespace Numeral

/-- The characters of a row of digits. -/
def ofDigits (row : List (Fin 10)) : List Char :=
  row.map fun digit : Fin 10 => Nat.digitChar digit

/-- The number that a row of digits stands for.  The first digit counts most. -/
def value (row : List (Fin 10)) : Nat :=
  Nat.ofDigits 10 (row.map Fin.val).reverse

theorem ofDigits_append (first next : List (Fin 10)) :
    ofDigits (first ++ next) = ofDigits first ++ ofDigits next :=
  List.map_append

@[simp]
theorem length_ofDigits (row : List (Fin 10)) : (ofDigits row).length = row.length :=
  List.length_map _

theorem ofDigits_leftpad (length : Nat) (row : List (Fin 10)) :
    ofDigits (row.leftpad length 0) = (ofDigits row).leftpad length '0' := by
  rw [List.leftpad, List.leftpad, ofDigits_append, length_ofDigits, ofDigits,
    List.map_replicate]
  rfl

theorem isDigit_of_mem_ofDigits {row : List (Fin 10)} {char : Char}
    (member : char ∈ ofDigits row) : char.isDigit := by
  obtain ⟨digit, _, rfl⟩ := List.mem_map.mp member
  rw [Nat.isDigit_digitChar]
  exact decide_eq_true digit.isLt

theorem exists_digit {char : Char} (isDigit : char.isDigit) :
    ∃ digit : Fin 10, Nat.digitChar digit = char := by
  obtain ⟨low, high⟩ := Char.isDigit_iff_toNat.mp isDigit
  have zero : '0'.toNat = 48 := rfl
  have nine : '9'.toNat = 57 := rfl
  have small : char.toNat - 48 < 10 := by omega
  refine ⟨⟨char.toNat - 48, small⟩, Char.toNat_inj.mp ?_⟩
  rw [Nat.toNat_digitChar_of_lt_ten small]
  omega

theorem exists_ofDigits {chars : List Char} (digits : ∀ char ∈ chars, char.isDigit) :
    ∃ row, ofDigits row = chars := by
  induction chars with
  | nil => exact ⟨[], rfl⟩
  | cons char rest ih =>
      obtain ⟨digit, digitEq⟩ := exists_digit (digits char List.mem_cons_self)
      obtain ⟨row, rowEq⟩ := ih fun other member => digits other (List.mem_cons_of_mem char member)
      exact ⟨digit :: row, congrArg₂ List.cons digitEq rowEq⟩

theorem value_cons (digit : Fin 10) (row : List (Fin 10)) :
    value (digit :: row) = value row + 10 ^ row.length * digit := by
  rw [value, List.map_cons, Nat.ofDigits_reverse_cons, List.length_map, value]

/-- Leading zeros count nothing. -/
theorem value_leftpad (length : Nat) (row : List (Fin 10)) :
    value (row.leftpad length 0) = value row := by
  rw [value, List.leftpad, List.map_append, List.map_replicate, List.reverse_append,
    List.reverse_replicate]
  exact Nat.ofDigits_append_replicate_zero _

theorem ofDigitChars_ofDigits (row : List (Fin 10)) :
    Nat.ofDigitChars 10 (ofDigits row) 0 = value row := by
  induction row with
  | nil => rfl
  | cons digit rest ih =>
      have consEq : ofDigits (digit :: rest) = Nat.digitChar digit :: ofDigits rest := rfl
      rw [consEq, Nat.ofDigitChars_cons_digitChar_of_lt_ten digit.isLt,
        Nat.ofDigitChars_eq_ofDigitChars_zero, ih, length_ofDigits, value_cons, Nat.mul_zero,
        Nat.zero_add, Nat.add_comm]

theorem nat?_ofDigits {row : List (Fin 10)} (written : row ≠ []) :
    nat? (ofDigits row) = some (value row) := by
  have someChars : ofDigits row ≠ [] := mt List.map_eq_nil_iff.mp written
  have digits : (ofDigits row).all Char.isDigit :=
    List.all_eq_true.mpr fun _ member => isDigit_of_mem_ofDigits member
  rw [nat?, if_pos ⟨someChars, digits⟩, ofDigitChars_ofDigits]

/-- Whatever is read as a number is a row of digits. -/
theorem exists_of_nat? {chars : List Char} {number : Nat} (found : nat? chars = some number) :
    ∃ row, row ≠ [] ∧ ofDigits row = chars ∧ value row = number := by
  unfold nat? at found
  split at found
  case isTrue digits =>
      obtain ⟨row, rfl⟩ := exists_ofDigits (List.all_eq_true.mp digits.2)
      rw [Option.some.injEq, ofDigitChars_ofDigits] at found
      exact ⟨row, fun empty => digits.1 (by rw [empty]; rfl), rfl, found⟩
  case isFalse => cases found

end Numeral

namespace Decimal

/-- One way to write down a decimal literal. -/
structure Spelling where
  negative : Bool
  /-- The digits before the point. -/
  whole : List (Fin 10)
  /-- The digits behind the point, if there is one. -/
  fraction : Option (List (Fin 10))
  deriving DecidableEq, Repr

namespace Spelling

variable (spelling : Spelling)

/-- All digits, without the point. -/
def digits : List (Fin 10) :=
  spelling.whole ++ spelling.fraction.getD []

/-- The number of digits behind the point. -/
def places : Nat :=
  (spelling.fraction.getD []).length

/-- What all digits stand for, with the sign and without the point. -/
def number : Int :=
  if spelling.negative then -(Numeral.value spelling.digits) else Numeral.value spelling.digits

/-- The characters behind the sign. -/
def body : List Char :=
  Numeral.ofDigits spelling.whole ++
    spelling.fraction.elim [] fun row => '.' :: Numeral.ofDigits row

def chars : List Char :=
  if spelling.negative then '-' :: spelling.body else spelling.body

def text : String :=
  String.ofList spelling.chars

/-- There is a digit, there are not too many behind the point, and 64 bits can hold the number. -/
structure Readable : Prop where
  written : spelling.digits ≠ []
  short : spelling.places ≤ 18
  fits : (Numeral.value spelling.digits : Int) ≤ Int64.maxValue.toInt

/-- What a reader makes of the spelling. -/
def decimal : Decimal :=
  ⟨Int64.ofInt spelling.number, spelling.places⟩

theorem natAbs_number : spelling.number.natAbs = Numeral.value spelling.digits := by
  unfold number
  split
  · rw [Int.natAbs_neg, Int.natAbs_natCast]
  · exact Int.natAbs_natCast _

variable {spelling}

theorem Readable.natAbs_number_lt (readable : spelling.Readable) :
    spelling.number.natAbs < 2 ^ 63 := by
  have fits := readable.fits
  have greatest : Int64.maxValue.toInt = 2 ^ 63 - 1 := rfl
  rw [natAbs_number]
  omega

theorem Readable.toInt_mantissa (readable : spelling.Readable) :
    spelling.decimal.mantissa.toInt = spelling.number := by
  have small := readable.natAbs_number_lt
  exact Int64.toInt_ofInt_of_le (by omega) (by omega)

/-- The magnitude of the least number has no room without its sign. -/
theorem Readable.mantissa_ne_minValue (readable : spelling.Readable) :
    spelling.decimal.mantissa ≠ Int64.minValue := by
  intro minimal
  have small := readable.natAbs_number_lt
  rw [← readable.toInt_mantissa, minimal] at small
  exact absurd small (by decide)

theorem mem_body {char : Char} (member : char ∈ spelling.body) : char.isDigit ∨ char = '.' := by
  rcases List.mem_append.mp member with inWhole | inRest
  · exact Or.inl (Numeral.isDigit_of_mem_ofDigits inWhole)
  · cases fractionEq : spelling.fraction with
    | none =>
        rw [fractionEq] at inRest
        cases inRest
    | some row =>
        rw [fractionEq] at inRest
        rcases List.mem_cons.mp inRest with point | inRow
        · exact Or.inr point
        · exact Or.inl (Numeral.isDigit_of_mem_ofDigits inRow)

end Spelling

theorem splitAtPoint_append {before : List Char} (noPoint : '.' ∉ before) (rest : List Char) :
    splitAtPoint (before ++ rest) =
      (before ++ (splitAtPoint rest).1, (splitAtPoint rest).2) := by
  have passes : ∀ char ∈ before, decide (char ≠ '.') = true := by
    intro char member
    exact decide_eq_true fun point => noPoint (point ▸ member)
  rw [splitAtPoint, List.takeWhile_append_of_pos passes, List.dropWhile_append_of_pos passes]
  rfl

/-- The first point is where a text is cut. -/
theorem splitAtPoint_point {before : List Char} (noPoint : '.' ∉ before) (after : List Char) :
    splitAtPoint (before ++ '.' :: after) = (before, after) := by
  have cut : splitAtPoint ('.' :: after) = ([], after) := by simp [splitAtPoint]
  rw [splitAtPoint_append noPoint, cut, List.append_nil]

theorem splitAtPoint_of_not_mem {chars : List Char} (noPoint : '.' ∉ chars) :
    splitAtPoint chars = (chars, []) := by
  have appended := splitAtPoint_append noPoint []
  have nothing : splitAtPoint [] = ([], []) := rfl
  rw [nothing, List.append_nil] at appended
  exact appended

/-- A text is what comes before its first point and, if it has one, what comes after it. -/
theorem splitAtPoint_cases (chars : List Char) :
    (chars = (splitAtPoint chars).1 ∧ (splitAtPoint chars).2 = []) ∨
      chars = (splitAtPoint chars).1 ++ '.' :: (splitAtPoint chars).2 := by
  by_cases point : '.' ∈ chars
  · obtain ⟨before, after, charsEq, noPoint⟩ := List.eq_append_cons_of_mem point
    rw [charsEq, splitAtPoint_point noPoint]
    exact Or.inr rfl
  · rw [splitAtPoint_of_not_mem point]
    exact Or.inl ⟨rfl, rfl⟩

namespace Spelling

theorem splitAtPoint_body (spelling : Spelling) :
    splitAtPoint spelling.body =
      (Numeral.ofDigits spelling.whole, Numeral.ofDigits (spelling.fraction.getD [])) := by
  have noPoint : '.' ∉ Numeral.ofDigits spelling.whole := fun member =>
    absurd (Numeral.isDigit_of_mem_ofDigits member) (by decide)
  unfold body
  cases spelling.fraction with
  | none =>
      rw [Option.elim_none, List.append_nil]
      exact splitAtPoint_of_not_mem noPoint
  | some row => exact splitAtPoint_point noPoint _

/-- The unsigned part of a spelling is read if the spelling can be read, as its number. -/
theorem readUnsigned?_body {spelling : Spelling} {decimal : Decimal} :
    readUnsigned? spelling.negative spelling.body = some decimal ↔
      spelling.Readable ∧ spelling.decimal = decimal := by
  have joined : Numeral.ofDigits spelling.whole ++ Numeral.ofDigits (spelling.fraction.getD []) =
      Numeral.ofDigits spelling.digits :=
    (Numeral.ofDigits_append _ _).symm
  simp only [readUnsigned?, splitAtPoint_body, joined, Numeral.length_ofDigits]
  by_cases empty : spelling.digits = []
  · have nothing : Numeral.nat? (Numeral.ofDigits []) = none := rfl
    rw [empty, nothing]
    constructor
    · exact nofun
    · exact fun read => absurd empty read.1.written
  · rw [Numeral.nat?_ofDigits empty, Option.bind_eq_bind, Option.bind_some]
    constructor
    · intro found
      split at found
      case isTrue fits =>
          cases found
          exact ⟨⟨empty, fits.1, fits.2⟩, rfl⟩
      case isFalse => cases found
    · rintro ⟨readable, rfl⟩
      exact if_pos ⟨readable.short, readable.fits⟩

theorem readChars?_chars (spelling : Spelling) :
    readChars? spelling.chars = readUnsigned? spelling.negative spelling.body := by
  unfold chars
  cases spelling.negative with
  | true => rfl
  | false =>
      rw [if_neg Bool.false_ne_true]
      unfold readChars?
      split
      case h_1 bodyEq =>
          have sign : '-' ∈ spelling.body := bodyEq ▸ List.mem_cons_self
          rcases mem_body sign with isDigit | point
          · exact absurd isDigit (by decide)
          · exact absurd point (by decide)
      case h_2 => rfl

theorem parse?_text {spelling : Spelling} {decimal : Decimal} :
    parse? spelling.text = some decimal ↔ spelling.Readable ∧ spelling.decimal = decimal := by
  rw [parse?, text, String.toList_ofList, readChars?_chars, readUnsigned?_body]

end Spelling

/-- Whatever is read behind the sign is spelled. -/
theorem exists_body_of_readUnsigned? {negative : Bool} {body : List Char} {decimal : Decimal}
    (found : readUnsigned? negative body = some decimal) :
    ∃ spelling : Spelling, spelling.negative = negative ∧ spelling.body = body := by
  obtain ⟨magnitude, read, _⟩ := Option.bind_eq_some_iff.mp found
  obtain ⟨row, _, rowEq, _⟩ : ∃ row, row ≠ [] ∧
      Numeral.ofDigits row = (splitAtPoint body).1 ++ (splitAtPoint body).2 ∧
      Numeral.value row = magnitude := Numeral.exists_of_nat? read
  obtain ⟨whole, fraction, rfl, wholeEq, fractionEq⟩ := List.map_eq_append_iff.mp rowEq
  rcases splitAtPoint_cases body with ⟨bodyEq, _⟩ | bodyEq
  · refine ⟨⟨negative, whole, none⟩, rfl, ?_⟩
    rw [bodyEq, ← wholeEq]
    exact List.append_nil _
  · refine ⟨⟨negative, whole, some fraction⟩, rfl, ?_⟩
    rw [bodyEq, ← wholeEq, ← fractionEq]
    rfl

theorem exists_spelling_of_parse? {text : String} {decimal : Decimal}
    (found : parse? text = some decimal) : ∃ spelling : Spelling, spelling.text = text := by
  suffices spelled : ∃ spelling : Spelling, spelling.chars = text.toList by
    obtain ⟨spelling, charsEq⟩ := spelled
    exact ⟨spelling, by rw [Spelling.text, charsEq, String.ofList_toList]⟩
  unfold parse? readChars? at found
  split at found
  case h_1 body textEq =>
      obtain ⟨spelling, negative, rfl⟩ := exists_body_of_readUnsigned? found
      exact ⟨spelling, by rw [textEq, Spelling.chars, if_pos negative]⟩
  case h_2 =>
      obtain ⟨spelling, positive, bodyEq⟩ := exists_body_of_readUnsigned? found
      exact ⟨spelling, by rw [Spelling.chars, if_neg (by simp [positive]), bodyEq]⟩

/-- The texts that are read as decimals are exactly the readable spellings, and the decimal is
the one that is spelled. -/
theorem parse?_accepts_spellings (text : String) :
    (∀ decimal, parse? text = some decimal ↔
      ∃ spelling : Spelling, spelling.text = text ∧ spelling.Readable ∧
        decimal.mantissa.toInt = spelling.number ∧ decimal.precision = spelling.places) ∧
    (parse? text = none ↔
      ¬ ∃ spelling : Spelling, spelling.text = text ∧ spelling.Readable) := by
  have accepted (decimal : Decimal) : parse? text = some decimal ↔
      ∃ spelling : Spelling, spelling.text = text ∧ spelling.Readable ∧
        decimal.mantissa.toInt = spelling.number ∧ decimal.precision = spelling.places := by
    constructor
    · intro found
      obtain ⟨spelling, rfl⟩ := exists_spelling_of_parse? found
      obtain ⟨readable, rfl⟩ := Spelling.parse?_text.mp found
      exact ⟨spelling, rfl, readable, readable.toInt_mantissa, rfl⟩
    · rintro ⟨spelling, rfl, readable, mantissaEq, precisionEq⟩
      refine Spelling.parse?_text.mpr ⟨readable, ?_⟩
      rw [Spelling.decimal, ← mantissaEq, ← precisionEq, Int64.ofInt_toInt]
  refine ⟨accepted, ?_⟩
  constructor
  · rintro refused ⟨spelling, rfl, readable⟩
    rw [Spelling.parse?_text.mpr ⟨readable, rfl⟩] at refused
    cases refused
  · intro unspelled
    rw [Option.eq_none_iff_forall_ne_some]
    intro decimal found
    obtain ⟨spelling, spelled, readable, _⟩ := (accepted decimal).mp found
    exact unspelled ⟨spelling, spelled, readable⟩

example : parse? "007." = some ⟨7, 0⟩ ∧ parse? "-.05" = some ⟨-5, 2⟩ ∧ parse? "-." = none ∧
    parse? "1.2.3" = none ∧ parse? "+1" = none := by decide

/-- Digits with a point among them are the unsigned part of a spelling of the same number. -/
theorem exists_pointed (negative : Bool) {row : List (Fin 10)} (written : row ≠ [])
    (precision : Nat) :
    ∃ spelling : Spelling, spelling.negative = negative ∧
      spelling.body = pointed (Numeral.ofDigits row) precision ∧
      spelling.places = precision ∧ spelling.digits ≠ [] ∧
      Numeral.value spelling.digits = Numeral.value row := by
  unfold pointed
  split
  case isTrue noDigits =>
      refine ⟨⟨negative, row, none⟩, rfl, List.append_nil _, noDigits.symm, ?_, ?_⟩
      · exact fun empty => written ((List.append_nil row).symm.trans empty)
      · exact congrArg Numeral.value (List.append_nil row)
  case isFalse =>
      let padded := row.leftpad (precision + 1) 0
      have paddedEq : (Numeral.ofDigits row).leftpad (precision + 1) '0' =
          Numeral.ofDigits padded := (Numeral.ofDigits_leftpad _ _).symm
      have long : precision + 1 ≤ padded.length := by
        rw [List.length_leftpad]
        exact Nat.le_max_left _ _
      let position := padded.length - precision
      have joined : padded.take position ++ padded.drop position = padded :=
        List.take_append_drop _ _
      refine ⟨⟨negative, padded.take position, some (padded.drop position)⟩, rfl, ?_, ?_, ?_, ?_⟩
      · simp only [paddedEq, Numeral.length_ofDigits, Spelling.body, Option.elim_some]
        simp only [Numeral.ofDigits, List.map_take, List.map_drop, position]
      · simp only [Spelling.places, Option.getD_some, List.length_drop]
        omega
      · simp only [Spelling.digits, Option.getD_some, joined]
        exact List.ne_nil_of_length_pos (by omega)
      · simp only [Spelling.digits, Option.getD_some, joined]
        exact Numeral.value_leftpad _ _

/-- Every literal is printed as a spelling of itself. -/
theorem exists_spelling (decimal : Decimal) :
    ∃ spelling : Spelling, spelling.text = decimal.text ∧ spelling.digits ≠ [] ∧
      spelling.number = decimal.mantissa.toInt ∧ spelling.places = decimal.precision := by
  obtain ⟨row, written, rowEq, rowValue⟩ :=
    Numeral.exists_of_nat? (Numeral.nat?_ofNat decimal.mantissa.toInt.natAbs)
  obtain ⟨spelling, sign, bodyEq, places, someDigits, sameValue⟩ :=
    exists_pointed (decide (decimal.mantissa < 0)) written decimal.precision
  have negativeIff : spelling.negative ↔ decimal.mantissa.toInt < 0 := by
    rw [sign, decide_eq_true_iff, Int64.lt_iff_toInt_lt, Int64.toInt_zero]
  refine ⟨spelling, ?_, someDigits, ?_, places⟩
  · rw [Spelling.text, text, Spelling.chars, chars, sign, bodyEq, rowEq]
    simp only [decide_eq_true_iff]
  · rw [Spelling.number, sameValue, rowValue]
    split
    case isTrue negative =>
        have below := negativeIff.mp negative
        omega
    case isFalse nonnegative =>
        have notBelow := negativeIff.not.mp nonnegative
        omega

theorem parse?_text_iff (decimal : Decimal) :
    parse? decimal.text = some decimal ↔
      decimal.mantissa ≠ Int64.minValue ∧ decimal.precision ≤ 18 := by
  have least : Int64.minValue.toInt = -2 ^ 63 := rfl
  have greatest : Int64.maxValue.toInt = 2 ^ 63 - 1 := rfl
  obtain ⟨spelling, spelled, someDigits, numberEq, places⟩ := exists_spelling decimal
  have magnitude : decimal.mantissa.toInt.natAbs = Numeral.value spelling.digits := by
    rw [← numberEq, spelling.natAbs_number]
  rw [← spelled, Spelling.parse?_text]
  constructor
  · rintro ⟨readable, rfl⟩
    exact ⟨readable.mantissa_ne_minValue, readable.short⟩
  · rintro ⟨notLeast, short⟩
    have fits : (Numeral.value spelling.digits : Int) ≤ Int64.maxValue.toInt := by
      have low := decimal.mantissa.le_toInt
      have high := decimal.mantissa.toInt_lt
      have different : decimal.mantissa.toInt ≠ -2 ^ 63 := fun same =>
        notLeast (Int64.toInt_inj.mp (same.trans least.symm))
      omega
    refine ⟨⟨someDigits, places.trans_le short, fits⟩, ?_⟩
    rw [Spelling.decimal, numberEq, places, Int64.ofInt_toInt]

/-- A printed decimal reads back as itself, except for the least mantissa and for precisions
that no text has.  What was read from a text always does. -/
theorem printed_literals_read_back :
    (∀ decimal : Decimal, parse? decimal.text = some decimal ↔
      decimal.mantissa ≠ Int64.minValue ∧ decimal.precision ≤ 18) ∧
    ∀ (text : String) (decimal : Decimal), parse? text = some decimal →
      parse? decimal.text = some decimal := by
  refine ⟨parse?_text_iff, ?_⟩
  intro text decimal found
  obtain ⟨spelling, rfl⟩ := exists_spelling_of_parse? found
  obtain ⟨readable, rfl⟩ := Spelling.parse?_text.mp found
  exact (parse?_text_iff _).mpr ⟨readable.mantissa_ne_minValue, readable.short⟩

/-- A literal without a digit before the point is printed with one and stays what it is.  The
greatest mantissa can have 18 digits behind the point, the least one is never read back. -/
theorem literals_read_back_at_the_ends :
    let half : Decimal := ⟨-50, 2⟩
    let greatest : Decimal := ⟨Int64.maxValue, 18⟩
    let least : Decimal := ⟨Int64.minValue, 0⟩
    parse? "-.50" = some half ∧ parse? half.text = some half ∧
      parse? greatest.text = some greatest ∧ parse? least.text ≠ some least := by
  intro half greatest least
  obtain ⟨printed, reread⟩ := printed_literals_read_back
  have read : parse? "-.50" = some half := by decide
  exact ⟨read, reread _ _ read, (printed greatest).mpr (by decide),
    (printed least).not.mpr (by decide)⟩

end Decimal
end ScoreLowering
