import Mathlib.Logic.ExistsUnique
import ScoreLowering.Source.Files

/-!
# Positions tell their files

The files of a program are laid end to end, so the offset of a file is the number of
bytes before it.  The search for a position runs backwards to the last file that does
not start behind it.  Files without bytes may share an offset with others; still, a
position before the end of all files is in one file only, and the search finds that one.
Files that are added later start behind every position there was before.
-/

namespace ScoreLowering

namespace Text

/-- The bytes of a text in UTF-8. -/
def bytes (text : String) : List UInt8 :=
  text.toByteArray.data.toList

theorem bytes_eq_flatMap (text : String) :
    bytes text = text.toList.flatMap String.utf8EncodeChar := by
  rw [bytes, ← String.utf8Encode_toList, List.utf8Encode, List.toList_data_toByteArray]

theorem length_flatMap_encode (chars : List Char) :
    (chars.flatMap String.utf8EncodeChar).length = byteLength chars := by
  induction chars with
  | nil => rfl
  | cons char rest ih =>
      rw [List.flatMap_cons, List.length_append, ih, String.length_utf8EncodeChar, byteLength]

theorem length_bytes (text : String) : (bytes text).length = byteLength text.toList := by
  rw [bytes_eq_flatMap, length_flatMap_encode]

/-- The bytes of a character beyond ASCII are large, so only a line feed has its byte. -/
theorem eq_newline_of_mem_encode {char : Char} (member : 10 ∈ String.utf8EncodeChar char) :
    char = '\n' := by
  have large {byte : Nat} (beyond : 128 ≤ byte) (small : byte < 256) : 10 ≠ UInt8.ofNat byte := by
    intro same
    have sameNat := congrArg UInt8.toNat same
    rw [UInt8.toNat_ofNat_of_lt' small] at sameNat
    exact absurd beyond (by rw [← sameNat]; decide)
  revert member
  fun_cases String.utf8EncodeChar char with
  | case1 code ascii =>
      intro member
      have same := congrArg UInt8.toNat (List.mem_singleton.mp member)
      rw [UInt8.toNat_ofNat_of_lt' (Nat.lt_of_le_of_lt ascii (by decide))] at same
      exact Char.toNat_inj.mp same.symm
  | case2 | case3 | case4 =>
      intro member
      refine absurd member ?_
      simp only [List.mem_cons, List.not_mem_nil, or_false, not_or]
      and_intros <;> exact large (by omega) (by omega)

theorem count_encode_newline (char : Char) :
    (String.utf8EncodeChar char).count 10 = if char = '\n' then 1 else 0 := by
  split
  · rename_i newline
    subst newline
    rfl
  · rename_i other
    exact List.count_eq_zero.mpr fun member => other (eq_newline_of_mem_encode member)

theorem count_flatMap_encode (chars : List Char) :
    (chars.flatMap String.utf8EncodeChar).count 10 = chars.count '\n' := by
  induction chars with
  | nil => rfl
  | cons char rest ih =>
      rw [List.flatMap_cons, List.count_append, ih, count_encode_newline, List.count_cons,
        Nat.add_comm]
      simp

theorem takeBytes?_append (before after : List Char) :
    takeBytes? (before ++ after) (byteLength before) = some before := by
  induction before with
  | nil => cases after <;> rfl
  | cons char rest ih =>
      have positive := char.utf8Size_pos
      have sizeEq : byteLength (char :: rest) = char.utf8Size + byteLength rest := rfl
      rw [List.cons_append, takeBytes?, sizeEq, if_pos (Nat.le_add_right _ _),
        Nat.add_sub_cancel_left, ih, Option.map_some]
      omega

theorem takeBytes?_of_isValid {text : String} {position : Nat}
    (boundary : String.Pos.Raw.IsValid text ⟨position⟩) :
    ∃ before, takeBytes? text.toList position = some before ∧
      before.count '\n' = ((bytes text).take position).count 10 := by
  obtain ⟨first, next, rfl, positionEq⟩ := String.Pos.Raw.isValid_iff_exists_append.mp boundary
  have lengthEq : position = (first.toList.flatMap String.utf8EncodeChar).length := by
    rw [← bytes_eq_flatMap]
    exact congrArg String.Pos.Raw.byteIdx positionEq
  refine ⟨first.toList, ?_, ?_⟩
  · rw [String.toList_append, lengthEq, length_flatMap_encode, takeBytes?_append]
  · rw [bytes_eq_flatMap, String.toList_append, List.flatMap_append, lengthEq, List.take_left,
      count_flatMap_encode]

end Text

namespace SourceFile

def bytes (file : SourceFile) : List UInt8 :=
  Text.bytes file.source

theorem length_bytes (file : SourceFile) : file.bytes.length = file.size :=
  Text.length_bytes file.source

end SourceFile

namespace PlacedFile

/-- One of the bytes of the file has this position. -/
def Holds (placed : PlacedFile) (position : Nat) : Prop :=
  placed.offset ≤ position ∧ position < placed.offset + placed.file.bytes.length

instance (placed : PlacedFile) (position : Nat) : Decidable (placed.Holds position) :=
  inferInstanceAs (Decidable (_ ∧ _))

/-- The line is one more than the line feeds before the position. -/
theorem line?_of_isValid {placed : PlacedFile} {span relative : Span}
    (relativeEq : placed.relative? span = some relative)
    (boundary : String.Pos.Raw.IsValid placed.file.source ⟨relative.start⟩) :
    placed.line? span =
      some (1 + (placed.file.bytes.take relative.start).count '\n'.toUInt8) := by
  obtain ⟨before, taken, sameCount⟩ := Text.takeBytes?_of_isValid boundary
  have feeds : before.count '\n' =
      (placed.file.bytes.take relative.start).count '\n'.toUInt8 := sameCount
  simp [line?, relativeEq, taken, feeds, Nat.add_comm]

end PlacedFile

namespace SourceFiles

/-- The bytes of all files, laid end to end. -/
def bytes (files : SourceFiles) : List UInt8 :=
  files.files.flatMap SourceFile.bytes

/-- The number of bytes before a file. -/
def offset (files : SourceFiles) (id : Nat) : Nat :=
  ((files.files.take id).flatMap SourceFile.bytes).length

/-- Add files one after the other. -/
def addAll (files : SourceFiles) (later : List SourceFile) : SourceFiles :=
  later.foldl (fun files file => (files.add file).2) files

theorem files_addAll (files : SourceFiles) (later : List SourceFile) :
    (files.addAll later).files = files.files ++ later := by
  induction later generalizing files with
  | nil => exact (List.append_nil _).symm
  | cons file later ih =>
      rw [addAll, List.foldl_cons, ← addAll, ih, add, List.append_assoc, List.singleton_append]

theorem le_offset_of_mem {id offset : Nat} {files : List SourceFile} {placed : PlacedFile}
    (member : placed ∈ placeFrom id offset files) : offset ≤ placed.offset := by
  induction files generalizing id offset with
  | nil => cases member
  | cons file files ih =>
      rcases List.mem_cons.mp member with rfl | later
      · exact Nat.le_refl _
      · exact Nat.le_trans (Nat.le_add_right _ _) (ih later)

theorem getElem?_placeFrom (id offset : Nat) (files : List SourceFile) (index : Nat) :
    (placeFrom id offset files)[index]? = files[index]?.map fun file =>
      ⟨id + index, offset + ((files.take index).flatMap SourceFile.bytes).length, file⟩ := by
  induction files generalizing id offset index with
  | nil => rfl
  | cons first files ih =>
      cases index with
      | zero => rfl
      | succ index =>
          simp only [placeFrom, List.getElem?_cons_succ, ih, List.take_succ_cons,
            List.flatMap_cons, List.length_append, first.length_bytes, Nat.add_assoc,
            Nat.add_comm 1]

theorem placed?_of_get? {files : SourceFiles} {id : Nat} {file : SourceFile}
    (found : files.get? id = some file) : files.placed? id = some ⟨id, files.offset id, file⟩ := by
  have stored : files.files[id]? = some file := found
  rw [placed?, placed, getElem?_placeFrom, stored, Nat.zero_add, Nat.zero_add, Option.map_some,
    offset]

/-- Behind a file stand those added after it, from its end on. -/
theorem exists_split {id offset : Nat} {files : List SourceFile} {front back : List PlacedFile}
    {file : PlacedFile} (placedEq : placeFrom id offset files = front ++ file :: back) :
    ∃ before after, files = before ++ file.file :: after ∧
      file.offset = offset + (before.flatMap SourceFile.bytes).length ∧
      back = placeFrom (file.id + 1) (file.offset + file.file.bytes.length) after := by
  induction front generalizing id offset files with
  | nil =>
      cases files with
      | nil => cases placedEq
      | cons first files =>
          obtain ⟨rfl, rfl⟩ := List.cons.inj placedEq
          refine ⟨[], files, rfl, rfl, ?_⟩
          rw [SourceFile.length_bytes]
  | cons head front ih =>
      cases files with
      | nil => cases placedEq
      | cons first files =>
          obtain ⟨before, after, rfl, offsetEq, backEq⟩ := ih (List.cons.inj placedEq).2
          refine ⟨first :: before, after, rfl, ?_, backEq⟩
          rw [offsetEq, List.flatMap_cons, List.length_append, first.length_bytes, Nat.add_assoc]

theorem exists_holds {id offset position : Nat} {files : List SourceFile}
    (above : offset ≤ position)
    (below : position < offset + (files.flatMap SourceFile.bytes).length) :
    ∃ placed ∈ placeFrom id offset files, placed.Holds position := by
  induction files generalizing id offset with
  | nil => exact absurd above (Nat.not_le.mpr below)
  | cons file files ih =>
      by_cases inside : position < offset + file.bytes.length
      · exact ⟨_, List.mem_cons_self, above, inside⟩
      · rw [List.flatMap_cons, List.length_append, ← Nat.add_assoc] at below
        rw [placeFrom, ← file.length_bytes]
        obtain ⟨placed, member, holds⟩ := ih (Nat.not_lt.mp inside) below
        exact ⟨placed, List.mem_cons_of_mem _ member, holds⟩

/-- The search finds the last file that does not start behind the span. -/
theorem find?_eq_some_iff {files : SourceFiles} {span : Span} {placed : PlacedFile} :
    files.find? span = some placed ↔ placed.offset ≤ span.start ∧
      ∃ front back, files.placed = front ++ placed :: back ∧
        ∀ later ∈ back, span.start < later.offset := by
  rw [find?, List.find?_eq_some_iff_append]
  refine and_congr decide_eq_true_iff ⟨?_, ?_⟩
  · rintro ⟨back, front, reversed, behind⟩
    refine ⟨front.reverse, back.reverse, ?_, fun later member => ?_⟩
    · simpa using congrArg List.reverse reversed
    · simpa using behind later (List.mem_reverse.mp member)
  · rintro ⟨front, back, placedEq, behind⟩
    refine ⟨back.reverse, front.reverse, by simp [placedEq], fun later member => ?_⟩
    simpa using behind later (List.mem_reverse.mp member)

theorem find?_of_holds {files : SourceFiles} {placed : PlacedFile} {span : Span}
    (member : placed ∈ files.placed) (holds : placed.Holds span.start) :
    files.find? span = some placed := by
  obtain ⟨front, back, placedEq⟩ := List.append_of_mem member
  obtain ⟨_, after, _, _, rfl⟩ := exists_split placedEq
  refine find?_eq_some_iff.mpr ⟨holds.1, front, _, placedEq, fun later behind => ?_⟩
  exact Nat.lt_of_lt_of_le holds.2 (le_offset_of_mem behind)

theorem mem_placed_addAll {files : SourceFiles} {id : Nat} {file : SourceFile}
    (found : files.get? id = some file) (later : List SourceFile) :
    ⟨id, files.offset id, file⟩ ∈ (files.addAll later).placed := by
  have stored : files.files[id]? = some file := found
  have inside := (List.getElem?_eq_some_iff.mp stored).1
  have grown : (files.addAll later).get? id = some file := by
    rw [get?, files_addAll, List.getElem?_append_left inside, stored]
  have sameOffset : (files.addAll later).offset id = files.offset id := by
    rw [offset, files_addAll, List.take_append_of_le_length (Nat.le_of_lt inside), offset]
  rw [← sameOffset]
  exact List.mem_of_getElem? (placed?_of_get? grown)

/-- A position inside of a file is found there, whatever is added behind, and one before the
end of all files is inside of exactly one. -/
theorem spans_identify_files (files : SourceFiles) :
    (∀ id file, files.get? id = some file → ∀ position < file.bytes.length, ∀ len later,
      let placed : PlacedFile := ⟨id, files.offset id, file⟩
      let span : Span := ⟨files.offset id + position, len⟩
      files.placed? id = some placed ∧
        (files.addAll later).find? span = some placed ∧
        placed.relative? span = some ⟨position, len⟩ ∧
        (String.Pos.Raw.IsValid file.source ⟨position⟩ →
          placed.line? span = some (1 + (file.bytes.take position).count '\n'.toUInt8))) ∧
      ∀ position < files.bytes.length,
        ∃! placed, placed ∈ files.placed ∧ placed.Holds position := by
  refine ⟨fun id file found position inside len later => ?_, fun position inside => ?_⟩
  · intro placed span
    have relative : placed.relative? span = some ⟨position, len⟩ := by
      simp [placed, span, PlacedFile.relative?, Span.relativeTo?]
    refine ⟨placed?_of_get? found, ?_, relative, fun boundary => ?_⟩
    · exact find?_of_holds (mem_placed_addAll found later)
        ⟨Nat.le_add_right _ _, Nat.add_lt_add_left inside _⟩
    · exact PlacedFile.line?_of_isValid relative boundary
  · obtain ⟨placed, member, holds⟩ : ∃ placed ∈ files.placed, placed.Holds position :=
      exists_holds (Nat.zero_le position) (Nat.lt_of_lt_of_eq inside (Nat.zero_add _).symm)
    refine ⟨placed, ⟨member, holds⟩, fun other ⟨otherMember, otherHolds⟩ => ?_⟩
    have found : files.find? ⟨position, 0⟩ = some placed := find?_of_holds member holds
    rw [find?_of_holds otherMember otherHolds] at found
    exact Option.some.inj found

/-- Two empty files start where the last one does, whose first line ends after a character
of two bytes.  Its second line begins at byte three, and a file is added behind it. -/
theorem spans_identify_last_line :
    let last : SourceFile := ⟨"é\nx = 1\n", some "b.mcc"⟩
    let files : SourceFiles := ⟨[⟨"a\n", none⟩, ⟨"", none⟩, ⟨"", none⟩, last]⟩
    let placed : PlacedFile := ⟨3, 2, last⟩
    let grown := (files.add ⟨"y", none⟩).2
    files.get? 3 = some last ∧ 3 < last.bytes.length ∧
      String.Pos.Raw.IsValid last.source ⟨3⟩ ∧ grown.find? ⟨5, 4⟩ = some placed ∧
      placed.relative? ⟨5, 4⟩ = some ⟨3, 4⟩ ∧ placed.line? ⟨5, 4⟩ = some 2 := by
  intro last files placed grown
  have stored : files.get? 3 = some last := rfl
  have inside : 3 < last.bytes.length := by decide
  have boundary : String.Pos.Raw.IsValid last.source ⟨3⟩ := by decide
  obtain ⟨_, found, relative, line⟩ :=
    (spans_identify_files files).1 3 last stored 3 inside 4 [⟨"y", none⟩]
  exact ⟨stored, inside, boundary, found, relative, line boundary⟩

end SourceFiles
end ScoreLowering
