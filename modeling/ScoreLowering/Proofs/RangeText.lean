import ScoreLowering.Score.Range

/-!
# Numbers and ranges are read as they were written

The text of a number consists of digits and at most a minus sign, so the dots of a
range end it.  Reading the text of a score or of a range with a bound gives back
what was written.  A range without bounds is written from the least score on and
read back with that bound, which leaves out no score.
-/

namespace ScoreLowering

namespace Numeral

theorem nat?_ofNat (number : Nat) : nat? (ofNat number) = some number := by
  have digits : (ofNat number).all Char.isDigit := by
    rw [List.all_eq_true]
    exact fun char member => Nat.isDigit_of_mem_toDigits (by decide) (by decide) member
  have written : ofNat number ≠ [] := Nat.toDigits_ne_nil
  rw [nat?, if_pos ⟨written, digits⟩, ofNat, Nat.ofDigitChars_toDigits (by decide) (by decide)]

/-- A reader of numbers that starts with a digit finds no sign. -/
theorem int?_ofNat (number : Nat) : int? (ofNat number) = some (number : Int) := by
  have digit : ∀ char ∈ (ofNat number).head?, char.isDigit := fun char member =>
    Nat.isDigit_of_mem_toDigits (by decide) (by decide) (List.mem_of_mem_head? member)
  unfold int?
  split
  · rename_i text
    rw [text] at digit
    exact absurd (digit '-' rfl) (by decide)
  · rename_i text
    rw [text] at digit
    exact absurd (digit '+' rfl) (by decide)
  · simp [nat?_ofNat]

theorem int?_ofInt (number : Int) : int? (ofInt number) = some number := by
  unfold ofInt
  split
  · rename_i negative
    have magnitude : -(number.natAbs : Int) = number := by
      rw [Int.ofNat_natAbs_of_nonpos (Int.le_of_lt negative), Int.neg_neg]
    simp only [int?, nat?_ofNat]
    exact congrArg some magnitude
  · rename_i nonnegative
    rw [int?_ofNat, Int.natAbs_of_nonneg (Int.not_lt.mp nonnegative)]

theorem mem_ofInt {number : Int} {char : Char} (member : char ∈ ofInt number) :
    char = '-' ∨ char.isDigit := by
  have digit {digits : List Char} (inside : digits = ofNat number.natAbs) (has : char ∈ digits) :
      char.isDigit := by
    rw [inside] at has
    exact Nat.isDigit_of_mem_toDigits (by decide) (by decide) has
  unfold ofInt at member
  split at member
  · exact (List.mem_cons.mp member).imp_right (digit rfl)
  · exact Or.inr (digit rfl member)

theorem ofInt_ne_nil (number : Int) : ofInt number ≠ [] := by
  unfold ofInt
  split
  · exact List.cons_ne_nil _ _
  · exact Nat.toDigits_ne_nil

end Numeral

namespace Score

theorem ofInt?_toInt (score : Score) : ofInt? score.toInt = some score := by
  have low := score.le_toInt
  have high := score.toInt_lt
  have bounds : least ≤ score.toInt ∧ score.toInt ≤ greatest := by
    constructor
    · exact low
    · exact Int.le_of_lt_add_one high
  rw [ofInt?, if_pos bounds, Int32.ofInt_toInt]

theorem toList_text (score : Score) : score.text.toList = Numeral.ofInt score.toInt :=
  String.toList_ofList

theorem read?_text (score : Score) : read? score.text.toList = some score := by
  rw [toList_text, read?, Numeral.int?_ofInt, Option.bind_some, ofInt?_toInt]

/-- No score is written with the characters that stand between the parts of a text. -/
theorem not_mem_text (score : Score) {char : Char} (sign : char ≠ '-')
    (digit : char.isDigit = false) : char ∉ score.text.toList := by
  rw [toList_text]
  intro member
  rcases Numeral.mem_ofInt member with minus | isDigit
  · exact sign minus
  · rw [digit] at isDigit
    cases isDigit

theorem text_ne_nil (score : Score) : score.text.toList ≠ [] := by
  rw [toList_text]
  exact Numeral.ofInt_ne_nil _

theorem text_ne_empty (score : Score) : score.text ≠ "" :=
  mt String.toList_eq_nil_iff.mpr score.text_ne_nil

end Score

namespace Range

theorem splitAtDots_cons {char : Char} (noDot : char ≠ '.') (rest : List Char) :
    splitAtDots (char :: rest) =
      (splitAtDots rest).map fun (before, after) => (char :: before, after) := by
  rw [splitAtDots]
  rintro after dot -
  exact noDot dot

theorem splitAtDots_append {before : List Char} (noDot : '.' ∉ before) (after : List Char) :
    splitAtDots (before ++ '.' :: '.' :: after) = some (before, after) := by
  induction before with
  | nil => rfl
  | cons char rest ih =>
      obtain ⟨charApart, restApart⟩ := not_or.mp (mt List.mem_cons.mpr noDot)
      rw [List.cons_append, splitAtDots_cons (Ne.symm charApart), ih restApart, Option.map_some]

theorem splitAtDots_eq_none {chars : List Char} (noDot : '.' ∉ chars) :
    splitAtDots chars = none := by
  induction chars with
  | nil => rfl
  | cons char rest ih =>
      obtain ⟨charApart, restApart⟩ := not_or.mp (mt List.mem_cons.mpr noDot)
      rw [splitAtDots_cons (Ne.symm charApart), ih restApart, Option.map_none]

theorem readBound?_text (score : Score) : readBound? score.text.toList = some (some score) := by
  rw [readBound?, if_neg score.text_ne_nil, Score.read?_text, Option.map_some]

/-- At least one bound is given. -/
def IsBounded (range : Range) : Prop :=
  range.min.isSome ∨ range.max.isSome

instance (range : Range) : Decidable range.IsBounded :=
  inferInstanceAs (Decidable (_ ∨ _))

theorem readBounds?_boundsText {min max : Option Score} (bounded : min.isSome ∨ max.isSome) :
    readBounds? (boundsText min max).toList = some (min, max) := by
  have noDot (score : Score) : '.' ∉ score.text.toList := score.not_mem_text (by decide) (by decide)
  have dots : "..".toList = ['.', '.'] := rfl
  have noBound : readBound? [] = some none := rfl
  cases min with
  | some min =>
      cases max with
      | some max =>
          rw [boundsText]
          split
          · rename_i same
            subst same
            simp [readBounds?, splitAtDots_eq_none (noDot min), Score.read?_text]
          · simp [readBounds?, dots, splitAtDots_append (noDot min), readBound?_text]
      | none =>
          simp [boundsText, readBounds?, dots, splitAtDots_append (noDot min), readBound?_text,
            noBound]
  | none =>
      cases max with
      | some max => simp [boundsText, readBounds?, dots, splitAtDots, readBound?_text, noBound]
      | none => simp at bounded

theorem not_mem_boundsText (min max : Option Score) {char : Char} (sign : char ≠ '-')
    (digit : char.isDigit = false) (dot : char ≠ '.') : char ∉ (boundsText min max).toList := by
  have dots : "..".toList = ['.', '.'] := rfl
  have number (score : Score) : char ∉ score.text.toList := score.not_mem_text sign digit
  unfold boundsText
  split
  · split <;> simp [dots, number, dot]
  · simp [dots, number, dot]
  · simp [dots, number, dot]
  · simp [dots, number, dot]

theorem parse?_text {range : Range} (bounded : range.IsBounded) :
    parse? range.text = some range := by
  obtain ⟨min, max, inverted⟩ := range
  have read : readBounds? (boundsText min max).toList = some (min, max) :=
    readBounds?_boundsText bounded
  cases inverted with
  | true => simp [parse?, text, readChars?, read]
  | false =>
      have noMark : '!' ∉ (boundsText min max).toList :=
        not_mem_boundsText min max (by decide) (by decide) (by decide)
      simp only [parse?, text, Bool.false_eq_true, if_false, String.empty_append]
      unfold readChars?
      split
      · rename_i marked
        rw [marked] at noMark
        exact absurd List.mem_cons_self noMark
      · rw [read, Option.map_some]

theorem not_mem_text (range : Range) {char : Char} (sign : char ≠ '-')
    (digit : char.isDigit = false) (dot : char ≠ '.') (mark : char ≠ '!') :
    char ∉ range.text.toList := by
  have bounds := not_mem_boundsText range.min range.max sign digit dot
  unfold text
  split <;> simp [bounds, mark]

theorem text_ne_empty {range : Range} (bounded : range.IsBounded) : range.text ≠ "" := by
  intro empty
  have read := parse?_text bounded
  rw [empty] at read
  cases read

/-- The same scores with the bound that their text shows.  Only a range without
bounds is written as another one. -/
def explicit (range : Range) : Range :=
  if range.IsBounded then range else { range with min := some Int32.minValue }

theorem explicit_of_isBounded {range : Range} (bounded : range.IsBounded) :
    range.explicit = range :=
  if_pos bounded

theorem isBounded_explicit (range : Range) : range.explicit.IsBounded := by
  unfold explicit
  split
  · assumption
  · exact Or.inl rfl

theorem eq_none_of_not_isBounded {range : Range} (unbounded : ¬ range.IsBounded) :
    range.min = none ∧ range.max = none := by
  simpa [IsBounded] using unbounded

theorem text_explicit (range : Range) : range.explicit.text = range.text := by
  unfold explicit
  split
  · rfl
  · rename_i unbounded
    obtain ⟨noMin, noMax⟩ := eq_none_of_not_isBounded unbounded
    simp only [text, noMin, noMax, boundsText]

theorem contains_explicit (range : Range) (score : Score) :
    range.explicit.contains score = range.contains score := by
  unfold explicit
  split
  · rfl
  · rename_i unbounded
    obtain ⟨noMin, noMax⟩ := eq_none_of_not_isBounded unbounded
    simp [contains, inBounds, noMin, noMax]

theorem parse?_text_explicit (range : Range) : parse? range.text = some range.explicit := by
  rw [← text_explicit, parse?_text range.isBounded_explicit]

theorem isSome_of_readBounds? {chars : List Char} {min max : Option Score}
    (read : readBounds? chars = some (min, max)) : min.isSome ∨ max.isSome := by
  unfold readBounds? at read
  split at read
  · simp only [Option.bind_eq_bind, Option.bind_eq_some_iff] at read
    obtain ⟨low, _, high, _, given⟩ := read
    split at given
    · cases given
    · rename_i oneGiven
      cases given
      cases min with
      | some _ => exact Or.inl rfl
      | none => exact Or.inr (Option.isSome_iff_ne_none.mpr (by simpa using oneGiven))
  · obtain ⟨score, _, given⟩ := Option.map_eq_some_iff.mp read
    cases given
    exact Or.inl rfl

theorem isBounded_of_parse? {text : String} {range : Range} (read : parse? text = some range) :
    range.IsBounded := by
  unfold parse? readChars? at read
  split at read <;>
  · obtain ⟨⟨min, max⟩, bounds, rfl⟩ := Option.map_eq_some_iff.mp read
    exact isSome_of_readBounds? bounds

/-- A printed range reads back as one with the same scores, and as itself if it is bounded or
was read from a text. -/
theorem ranges_survive_text (range : Range) :
    (∃ read, parse? range.text = some read ∧
        (∀ score, read.contains score = range.contains score) ∧
        (range.IsBounded → read = range)) ∧
      ∀ text, parse? text = some range → parse? range.text = some range := by
  refine ⟨⟨range.explicit, range.parse?_text_explicit, range.contains_explicit, ?_⟩, ?_⟩
  · exact explicit_of_isBounded
  · intro text read
    exact parse?_text (isBounded_of_parse? read)

/-- Crossed bounds keep their order, a range without bounds gets the least score, and a
spelling that is never written is read once more as the same range. -/
theorem ranges_survive_at_the_edges :
    let crossed : Range := ⟨some (-3), some (-7), true⟩
    let unbounded : Range := ⟨none, none, true⟩
    let padded : Range := ⟨none, some 7, true⟩
    crossed.text = "!-3..-7" ∧ parse? crossed.text = some crossed ∧
      unbounded.text = "!-2147483648.." ∧
      (∃ read, parse? unbounded.text = some read ∧
        ∀ score, read.contains score = unbounded.contains score) ∧
      parse? "!..+07" = some padded ∧ parse? padded.text = some padded := by
  intro crossed unbounded padded
  obtain ⟨⟨read, crossedRead, _, same⟩, _⟩ := ranges_survive_text crossed
  rw [same (by decide)] at crossedRead
  obtain ⟨⟨other, otherRead, sameScores, _⟩, _⟩ := ranges_survive_text unbounded
  have paddedRead : parse? "!..+07" = some padded := by decide
  exact ⟨by decide, crossedRead, by decide, ⟨other, otherRead, sameScores⟩, paddedRead,
    (ranges_survive_text padded).2 _ paddedRead⟩

end Range
end ScoreLowering
