import ScoreLowering.Proofs.SnippetMarks

/-!
# Marks in characters

A mark is kept in bytes and shown in characters.  Both ends are translated alike: the
character at an index is counted if it starts before the byte.  A mark between characters
therefore shows the text of its bytes, however many bytes its characters take.  A mark that
ends inside of a character or behind the text is still a range of characters of the text.  Only
a mark whose end is too great a number is not shown.
-/

namespace ScoreLowering

namespace Text

theorem byteLength_cons (char : Char) (rest : List Char) :
    byteLength (char :: rest) = char.utf8Size + byteLength rest :=
  rfl

/-- The characters that are counted are those that start before the position. -/
theorem lt_charsBefore_iff {chars : List Char} {position index : Nat} :
    index < charsBefore chars position ↔
      index < chars.length ∧ byteLength (chars.take index) < position := by
  fun_induction charsBefore chars position generalizing index with
  | case1 position => simp
  | case2 char rest => simp
  | case3 char rest position nonzero ih =>
      have size := char.utf8Size_pos
      cases index with
      | zero =>
          have positive : 0 < position := Nat.pos_of_ne_zero nonzero
          simp only [List.take_zero, byteLength, List.length_cons]
          omega
      | succ index =>
          rw [List.take_succ_cons, byteLength_cons, List.length_cons, Nat.add_comm 1,
            Nat.add_lt_add_iff_right, Nat.add_lt_add_iff_right, ih]
          omega

theorem charsBefore_mono (chars : List Char) {first second : Nat} (ordered : first ≤ second) :
    charsBefore chars first ≤ charsBefore chars second := by
  refine Nat.le_of_not_lt fun fewer => ?_
  obtain ⟨inside, before⟩ := lt_charsBefore_iff.mp fewer
  exact Nat.lt_irrefl _ (lt_charsBefore_iff.mpr ⟨inside, Nat.lt_of_lt_of_le before ordered⟩)

theorem charsBefore_le_length (chars : List Char) (position : Nat) :
    charsBefore chars position ≤ chars.length := by
  refine Nat.le_of_not_lt fun more => ?_
  exact Nat.lt_irrefl _ (lt_charsBefore_iff.mp more).1

theorem charsBefore_append (before after : List Char) :
    charsBefore (before ++ after) (byteLength before) = before.length := by
  induction before with
  | nil => cases after <;> rfl
  | cons char rest ih =>
      have size := char.utf8Size_pos
      rw [List.cons_append, byteLength_cons, charsBefore, Nat.add_sub_cancel_left, ih,
        List.length_cons, Nat.add_comm]
      omega

/-- The characters of a text from one index to another. -/
def slice (text : String) (range : Nat × Nat) : String :=
  String.ofList ((text.toList.drop range.1).take (range.2 - range.1))

theorem bytes_slice (text : String) (range : Nat × Nat) :
    bytes (slice text range) =
      ((text.toList.drop range.1).take (range.2 - range.1)).flatMap String.utf8EncodeChar := by
  rw [bytes_eq_flatMap, slice, String.toList_ofList]

/-- The characters before a position between two characters have the bytes before it. -/
theorem flatMap_take_charsBefore {text : String} {position : Nat}
    (boundary : String.Pos.Raw.IsValid text ⟨position⟩) :
    (text.toList.take (charsBefore text.toList position)).flatMap String.utf8EncodeChar =
      (bytes text).take position := by
  obtain ⟨first, next, rfl, positionEq⟩ := String.Pos.Raw.isValid_iff_exists_append.mp boundary
  have lengthEq : position = byteLength first.toList := by
    rw [← length_bytes]
    exact congrArg String.Pos.Raw.byteIdx positionEq
  rw [String.toList_append, lengthEq, charsBefore_append, List.take_left, bytes_eq_flatMap,
    String.toList_append, List.flatMap_append, ← length_flatMap_encode, List.take_left]

end Text

namespace Mark

/-- A mark whose end can be counted to is shown. -/
theorem charRange?_of_le {mark : Mark}
    (ends : mark.range.start + mark.range.len ≤ Span.lastPosition) (source : String) :
    mark.charRange? source = some (Text.charsBefore source.toList mark.range.start,
      Text.charsBefore source.toList (mark.range.start + mark.range.len)) := by
  rw [charRange?, Span.stop?, if_pos ends]
  rfl

/-- Nothing else stands in the way of a mark. -/
theorem charRange?_eq_none_iff {mark : Mark} {source : String} :
    mark.charRange? source = none ↔
      Span.lastPosition < mark.range.start + mark.range.len := by
  by_cases ends : mark.range.start + mark.range.len ≤ Span.lastPosition
  · rw [charRange?_of_le ends]
    simp [ends]
  · rw [charRange?, Span.stop?, if_neg ends]
    simpa using ends

/-- A mark shows characters of the text in order.  Between characters it shows the text of
its bytes, where those are.  All of this holds of every mark that ends somewhere, be it behind
the text. -/
theorem character_ranges_show_bytes (mark : Mark) (source : String)
    (ends : mark.range.start + mark.range.len ≤ Span.lastPosition) :
    ∃ range, mark.charRange? source = some range ∧
      (range.1 ≤ range.2 ∧ range.2 ≤ source.length) ∧
      (String.Pos.Raw.IsValid source ⟨mark.range.start⟩ →
        String.Pos.Raw.IsValid source ⟨mark.range.start + mark.range.len⟩ →
          Text.bytes (Text.slice source (0, range.1)) =
              (Text.bytes source).take mark.range.start ∧
            Text.bytes (Text.slice source range) = mark.range.select (Text.bytes source)) := by
  have ordered : Text.charsBefore source.toList mark.range.start ≤
      Text.charsBefore source.toList (mark.range.start + mark.range.len) :=
    Text.charsBefore_mono _ (Nat.le_add_right _ _)
  refine ⟨_, charRange?_of_le ends source, ⟨ordered, ?_⟩, fun starts stops => ?_⟩
  · rw [← String.length_toList]
    exact Text.charsBefore_le_length _ _
  · have before := Text.flatMap_take_charsBefore starts
    have upTo := Text.flatMap_take_charsBefore stops
    refine ⟨by rw [Text.bytes_slice, List.drop_zero, Nat.sub_zero, before], ?_⟩
    -- what comes up to the end is what comes before the start, then the marked text
    rw [← Nat.add_sub_of_le ordered, List.take_add, List.flatMap_append, before,
      List.take_add] at upTo
    rw [Text.bytes_slice, Span.select]
    exact List.append_cancel_left upTo

/-- Characters of two, three and four bytes stand before and inside of the first mark.  The
second one goes from inside of one character to the greatest position there is. -/
theorem character_ranges_of_wide_text :
    let source := "é€ 😀x = ü\n"
    let whole : Mark := ⟨.error, "here", ⟨6, 5⟩⟩
    let loose : Mark := ⟨.info, "there", ⟨8, 18446744073709551607⟩⟩
    whole.charRange? source = some (3, 5) ∧ Text.slice source (3, 5) = "😀x" ∧
      Text.bytes "😀x" = whole.range.select (Text.bytes source) ∧
      loose.charRange? source = some (4, 10) ∧ 10 ≤ source.length := by
  intro source whole loose
  have wholeRange : whole.charRange? source = some (3, 5) := by decide +kernel
  have looseRange : loose.charRange? source = some (4, 10) := by decide +kernel
  have marked : Text.slice source (3, 5) = "😀x" := by decide
  obtain ⟨range, isRange, _, shown⟩ := character_ranges_show_bytes whole source (by decide)
  obtain ⟨looseEnd, isEnd, ⟨_, inside⟩, _⟩ := character_ranges_show_bytes loose source (by decide)
  rw [wholeRange, Option.some.injEq] at isRange
  rw [looseRange, Option.some.injEq] at isEnd
  rw [← isEnd] at inside
  have selected := (shown (by decide) (by decide)).2
  rw [← isRange, marked] at selected
  exact ⟨wholeRange, marked, selected, looseRange, inside⟩

end Mark
end ScoreLowering
