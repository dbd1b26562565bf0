import Mathlib.Data.List.Forall2
import ScoreLowering.Diagnostic.Basic
import ScoreLowering.Proofs.SourcePositions

/-!
# Snippets mark the text of their spans

A snippet shows the file of the statement at fault, with the statement marked and, for
an unexpected type, the declaration as well.  All marks are counted from the start of
that file.  So the marks select what their spans stand for among the bytes of all
files if and only if the declaration is in the same file as the statement.  There is no
snippet for a declaration before that file, and a mark beyond the end of the text for
one behind it.
-/

namespace ScoreLowering

namespace Span

/-- The bytes in a span. -/
def select (span : Span) (bytes : List UInt8) : List UInt8 :=
  (bytes.drop span.start).take span.len

theorem select_append {span : Span} {front middle : List UInt8} (back : List UInt8)
    (starts : front.length ≤ span.start) (stops : span.start + span.len ≤ front.length + middle.length) :
    span.select (front ++ (middle ++ back)) =
      select ⟨span.start - front.length, span.len⟩ middle := by
  have room : span.len ≤ (middle.drop (span.start - front.length)).length := by
    rw [List.length_drop]
    omega
  have inside : span.start - front.length ≤ middle.length := by omega
  rw [select, select, List.drop_append, List.drop_eq_nil_of_le starts, List.nil_append,
    List.drop_append_of_le_length inside, List.take_append_of_le_length room]

theorem relativeTo?_eq_some_iff {span relative : Span} {offset : Nat} :
    span.relativeTo? offset = some relative ↔
      offset ≤ span.start ∧ relative = ⟨span.start - offset, span.len⟩ := by
  simp [relativeTo?, eq_comm]

theorem relativeTo?_eq_none_iff {span : Span} {offset : Nat} :
    span.relativeTo? offset = none ↔ span.start < offset := by
  simp [relativeTo?]

end Span

namespace PlacedFile

/-- The span lies inside of the file.  An empty one may also stand at its end. -/
def Covers (placed : PlacedFile) (span : Span) : Prop :=
  placed.offset ≤ span.start ∧
    span.start + span.len ≤ placed.offset + placed.file.bytes.length

instance (placed : PlacedFile) (span : Span) : Decidable (placed.Covers span) :=
  inferInstanceAs (Decidable (_ ∧ _))

end PlacedFile

namespace SourceFiles

variable {files : SourceFiles} {span : Span} {placed : PlacedFile}

/-- The span lies inside of one file. -/
def Cover (files : SourceFiles) (span : Span) : Prop :=
  ∃ placed ∈ files.placed, placed.Covers span

instance (files : SourceFiles) (span : Span) : Decidable (files.Cover span) :=
  inferInstanceAs (Decidable (∃ placed ∈ files.placed, placed.Covers span))

/-- The bytes of a file stand among those of all files from its offset on. -/
theorem exists_bytes_eq (member : placed ∈ files.placed) :
    ∃ front back, files.bytes = front ++ (placed.file.bytes ++ back) ∧
      placed.offset = front.length := by
  obtain ⟨_, _, placedEq⟩ := List.append_of_mem member
  obtain ⟨before, after, filesEq, offsetEq, _⟩ := exists_split placedEq
  refine ⟨before.flatMap SourceFile.bytes, after.flatMap SourceFile.bytes, ?_, ?_⟩
  · rw [bytes, filesEq, List.flatMap_append, List.flatMap_cons]
  · rw [offsetEq, Nat.zero_add]

theorem select_relative (member : placed ∈ files.placed) (covers : placed.Covers span) :
    Span.select ⟨span.start - placed.offset, span.len⟩ placed.file.bytes =
      span.select files.bytes := by
  obtain ⟨front, back, bytesEq, offsetEq⟩ := exists_bytes_eq member
  obtain ⟨starts, stops⟩ := covers
  rw [offsetEq] at starts stops ⊢
  rw [bytesEq, Span.select_append back starts stops]

/-- A start that is found in a file is not behind its end, unless it is behind all files. -/
theorem start_le_of_find? (found : files.find? span = some placed)
    (inside : span.start ≤ files.bytes.length) :
    span.start ≤ placed.offset + placed.file.bytes.length := by
  obtain ⟨_, front, back, placedEq, behind⟩ := find?_eq_some_iff.mp found
  obtain ⟨before, after, filesEq, offsetEq, rfl⟩ := exists_split placedEq
  cases after with
  | nil =>
      rw [bytes, filesEq, List.flatMap_append, List.flatMap_singleton, List.length_append] at inside
      omega
  | cons next after => exact Nat.le_of_lt (behind _ List.mem_cons_self)

theorem find?_of_cover (cover : files.Cover span) :
    ∃ placed ∈ files.placed, files.find? span = some placed ∧ placed.Covers span := by
  obtain ⟨placed, member, starts, stops⟩ := cover
  by_cases empty : span.len = 0
  · -- an empty span may be found in another file, which starts where this one ends
    have isSome : (files.find? span).isSome :=
      List.find?_isSome.mpr ⟨placed, List.mem_reverse.mpr member, decide_eq_true starts⟩
    obtain ⟨found, isFound⟩ := Option.isSome_iff_exists.mp isSome
    obtain ⟨front, back, bytesEq, offsetEq⟩ := exists_bytes_eq member
    have inside : span.start ≤ files.bytes.length := by
      rw [bytesEq, List.length_append, List.length_append, ← offsetEq]
      omega
    obtain ⟨before, _, _, placedEq, _⟩ := find?_eq_some_iff.mp isFound
    refine ⟨found, by simp [placedEq], isFound, before, ?_⟩
    rw [empty]
    exact start_le_of_find? isFound inside
  · have holds : placed.Holds span.start := ⟨starts, by omega⟩
    exact ⟨placed, member, find?_of_holds member holds, starts, stops⟩

end SourceFiles

namespace Mark

/-- The mark is inside of the source and on this text. -/
structure Selects (mark : Mark) (source : String) (text : List UInt8) : Prop where
  inside : mark.range.start + mark.range.len ≤ (Text.bytes source).length
  selected : mark.range.select (Text.bytes source) = text

theorem selects_iff {mark : Mark} {marked : Span} {placed : PlacedFile} {files : SourceFiles}
    (member : placed ∈ files.placed)
    (rangeEq : placed.relative? marked = some mark.range) :
    mark.Selects placed.file.source (marked.select files.bytes) ↔ placed.Covers marked := by
  obtain ⟨starts, shifted⟩ := Span.relativeTo?_eq_some_iff.mp rangeEq
  constructor
  · intro selects
    have inside := selects.inside
    rw [shifted] at inside
    refine ⟨starts, ?_⟩
    exact Nat.sub_le_iff_le_add'.mp (by rwa [Nat.sub_add_comm starts])
  · intro covers
    refine ⟨?_, ?_⟩
    · have stops := covers.2
      rw [shifted, ← Nat.sub_add_comm starts]
      exact Nat.sub_le_iff_le_add'.mpr stops
    · rw [shifted]
      exact SourceFiles.select_relative member covers

/-- Marks counted from the start of a file are on the right texts exactly if all of their
spans are inside of it. -/
theorem forall_selects_iff {placed : PlacedFile} {files : SourceFiles} {marks : List Mark}
    {spans : List Span} (member : placed ∈ files.placed)
    (ranges : List.Forall₂ (fun mark marked => placed.relative? marked = some mark.range) marks
      spans) :
    List.Forall₂ (fun mark marked =>
        mark.Selects placed.file.source (marked.select files.bytes)) marks spans ↔
      ∀ marked ∈ spans, placed.Covers marked := by
  induction ranges with
  | nil => simp
  | cons range _ ih => rw [List.forall₂_cons, List.forall_mem_cons, selects_iff member range, ih]

end Mark

namespace UserError

/-- What is marked for an error: the statement, and the declaration if there is one. -/
def markedSpans (error : UserError) (span : Span) : List Span :=
  span :: error.declaration?.toList

variable {error : UserError} {span : Span} {placed : PlacedFile}

theorem ranges_of_marks? {marks : List Mark} (marked : error.marks? span placed = some marks) :
    List.Forall₂ (fun mark marked => placed.relative? marked = some mark.range) marks
      (error.markedSpans span) := by
  obtain ⟨range, statement, rest⟩ := Option.bind_eq_some_iff.mp marked
  cases declaration : error.declaration? with
  | none =>
      rw [declaration] at rest
      cases rest
      simp [markedSpans, declaration, statement]
  | some declared =>
      rw [declaration] at rest
      obtain ⟨info, declaredRange, rest⟩ := Option.bind_eq_some_iff.mp rest
      cases rest
      simp [markedSpans, declaration, statement, declaredRange]

theorem marks?_eq_none_iff :
    error.marks? span placed = none ↔
      ∃ marked ∈ error.markedSpans span, marked.start < placed.offset := by
  have outside (marked : Span) : placed.relative? marked = none ↔ marked.start < placed.offset :=
    Span.relativeTo?_eq_none_iff
  cases statement : placed.relative? span with
  | none => simp [marks?, markedSpans, statement, (outside span).mp statement]
  | some range =>
      cases declaration : error.declaration? with
      | none => simp [marks?, markedSpans, statement, declaration, ← outside]
      | some declared =>
          cases info : placed.relative? declared <;>
            simp [marks?, markedSpans, statement, declaration, ← outside, info]

end UserError

namespace Snippet

/-- The snippet shows one source, with a mark on the text of each span. -/
def MarksText (snippet : Snippet) (spans : List Span) (files : SourceFiles) : Prop :=
  ∃ excerpt, snippet.excerpts = [excerpt] ∧
    List.Forall₂ (fun mark marked => mark.Selects excerpt.source (marked.select files.bytes))
      excerpt.marks spans

end Snippet

namespace Diagnostic

theorem snippet?_of_find? {error : UserError} {span : Span} {files : SourceFiles}
    {placed : PlacedFile} (found : files.find? span = some placed) :
    (user error span).snippet? files = (error.marks? span placed).map fun marks =>
      ⟨error.message, "Lang", .error, [⟨placed.file.path, placed.file.source, marks⟩],
        error.notes⟩ := by
  simp only [snippet?, found]
  cases error.marks? span placed <;> rfl

/-- The file in which the statement is found has all of it.  The marks are on the texts of
their spans exactly if that file has all of the declaration, too. -/
theorem snippets_mark_text_iff (error : UserError) {span : Span} {files : SourceFiles}
    (cover : files.Cover span) :
    ∃ placed, files.find? span = some placed ∧ placed.Covers span ∧
      ((∃ snippet, (user error span).snippet? files = some snippet ∧
          snippet.MarksText (error.markedSpans span) files) ↔
        ∀ declared ∈ error.declaration?, placed.Covers declared) ∧
      ((user error span).snippet? files = none ↔
        ∃ declared ∈ error.declaration?, declared.start < placed.offset) := by
  obtain ⟨placed, member, found, covers⟩ := SourceFiles.find?_of_cover cover
  have allCovered : (∀ marked ∈ error.markedSpans span, placed.Covers marked) ↔
      ∀ declared ∈ error.declaration?, placed.Covers declared := by
    simp [UserError.markedSpans, covers]
  refine ⟨placed, found, covers, ?_, ?_⟩
  · rw [snippet?_of_find? found, ← allCovered]
    constructor
    · rintro ⟨snippet, shown, excerpt, excerpts, selects⟩
      obtain ⟨marks, marked, rfl⟩ := Option.map_eq_some_iff.mp shown
      obtain ⟨rfl, _⟩ := List.cons.inj excerpts
      exact (Mark.forall_selects_iff member (UserError.ranges_of_marks? marked)).mp selects
    · intro covered
      have shown : error.marks? span placed ≠ none := by
        rw [Ne, UserError.marks?_eq_none_iff]
        rintro ⟨marked, inside, before⟩
        exact absurd (covered marked inside).1 (Nat.not_le.mpr before)
      obtain ⟨marks, marked⟩ := Option.ne_none_iff_exists'.mp shown
      refine ⟨_, by rw [marked]; rfl, _, rfl, ?_⟩
      exact (Mark.forall_selects_iff member (UserError.ranges_of_marks? marked)).mpr covered
  · rw [snippet?_of_find? found, Option.map_eq_none_iff, UserError.marks?_eq_none_iff]
    simp [UserError.markedSpans, Nat.not_lt.mpr covers.1]

/-- Statement and declaration are in the second of three files, behind a character of two
bytes. -/
theorem snippets_mark_declared_type :
    let second : SourceFile := ⟨"// é\nint x\nx = true\n", some "b.mcc"⟩
    let files : SourceFiles := ⟨[⟨"a\n", none⟩, second, ⟨"", none⟩]⟩
    let error : UserError := .unexpectedType ["int"] "bool" (some ⟨8, 5⟩)
    let statement : Span := ⟨14, 8⟩
    files.Cover statement ∧ (∀ declared ∈ error.declaration?, files.Cover declared) ∧
      ∃ snippet, (user error statement).snippet? files = some snippet ∧
        snippet.MarksText [statement, ⟨8, 5⟩] files := by
  intro second files error statement
  have cover : files.Cover statement := by decide
  have found : files.find? statement = some ⟨1, 2, second⟩ := by decide
  obtain ⟨placed, placedFound, _, marksText, _⟩ := snippets_mark_text_iff error cover
  cases found.symm.trans placedFound
  exact ⟨cover, by decide, marksText.mpr (by decide)⟩

/-- A declaration before the file of the statement leaves no snippet.  The other way round,
its mark is behind the end of the source. -/
theorem declaration_in_other_file :
    let files : SourceFiles := ⟨[⟨"int x\n", some "a.mcc"⟩, ⟨"x = true\n", some "b.mcc"⟩]⟩
    let first : Span := ⟨0, 5⟩
    let second : Span := ⟨6, 8⟩
    let error (declared : Span) : UserError := .unexpectedType ["int"] "bool" (some declared)
    files.Cover first ∧ files.Cover second ∧ (user (error first) second).snippet? files = none ∧
      ∃ snippet, (user (error second) first).snippet? files = some snippet ∧
        ∃ excerpt ∈ snippet.excerpts, ∃ mark ∈ excerpt.marks,
          (Text.bytes excerpt.source).length < mark.range.start + mark.range.len := by
  intro files first second error
  exact ⟨by decide, by decide, by decide, _, rfl, by decide⟩

end Diagnostic
end ScoreLowering
