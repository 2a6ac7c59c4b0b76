import SchemaServer.Lint
import SchemaServer.Proofs.Guarded.Document

/-! Positions of byte offsets. Any offset, also one inside a character or past the end, has a position in the
document, so the ranges of lints are in the document whatever offsets they name. A position goes by the line that
an offset is on and by the characters in front of it there. An index of the lines by bytes of its own gives the same
positions, as long as it breaks lines at the same places. -/
namespace SchemaServer

open Text

variable {doc : Document} {line : Text} {row byte : Nat} {pos : Position} {p : Piece} {front back : List Piece}

/-- The position is on a line of the document, and not past the end of that line. -/
structure Position.Inside (pos : Position) (doc : Document) : Prop where
  row : pos.line < doc.lineCount
  column : pos.character ≤ doc.width pos.line

namespace Piece

/-- Bytes are counted from the start of the piece that they are on; all bytes past the last piece are on it. -/
theorem positionIn_split (row : Nat) (lower : byteLength (front.flatMap text) ≤ byte)
    (upper : back ≠ [] → byte < byteLength (front.flatMap text) + byteLength p.text) :
    positionIn row (front ++ p :: back) byte =
      ⟨row + front.length, columnAt p.line (byte - byteLength (front.flatMap text))⟩ := by
  induction front generalizing row byte with
  | nil =>
    have start : byteLength (([] : List Piece).flatMap text) = 0 := rfl
    rw [start, Nat.zero_add] at upper
    have here : (back.isEmpty || byte < byteLength p.text) = true := by
      cases back with
      | nil => rfl
      | cons q rest => simpa using upper (by simp)
    simp only [List.nil_append, positionIn, if_pos here]
    rfl
  | cons q rest ih =>
    rw [List.flatMap_cons, byteLength_append] at lower upper ⊢
    have later : ¬ ((rest ++ p :: back).isEmpty || byte < byteLength q.text) = true := by
      simp
      omega
    simp only [List.cons_append, positionIn, if_neg later]
    rw [ih (row + 1) (by omega) fun more => by have := upper more; omega, List.length_cons, Nat.sub_add_eq,
      Nat.add_right_comm, Nat.add_assoc]

/-- Each byte is on a piece. -/
theorem exists_split {ps : List Piece} (nonempty : ps ≠ []) (byte : Nat) : ∃ front p back, ps = front ++ p :: back ∧
    byteLength (front.flatMap text) ≤ byte ∧
    (back ≠ [] → byte < byteLength (front.flatMap text) + byteLength p.text) := by
  induction ps generalizing byte with
  | nil => contradiction
  | cons p rest ih =>
    by_cases here : rest ≠ [] → byte < byteLength p.text
    · have start : byteLength (([] : List Piece).flatMap text) = 0 := rfl
      exact ⟨[], p, rest, rfl, Nat.zero_le _, by rwa [start, Nat.zero_add]⟩
    · simp only [Classical.not_imp, Nat.not_lt] at here
      obtain ⟨more, behind⟩ := here
      obtain ⟨front, q, back, rfl, lower, upper⟩ := ih more (byte - byteLength p.text)
      refine ⟨p :: front, q, back, rfl, ?_⟩
      rw [List.flatMap_cons, byteLength_append]
      exact ⟨by omega, fun some => by have := upper some; omega⟩

end Piece

namespace Document

/-! ## Lines in a text -/

/-- The byte offset at which a line starts. -/
def lineStart (doc : Document) (row : Nat) : Nat := Guarded.rowStart doc.pieces row

theorem lineStart_mono (doc : Document) {a b : Nat} (le : a ≤ b) : doc.lineStart a ≤ doc.lineStart b := by
  obtain ⟨more, same⟩ := List.take_prefix_take_left (l := doc.pieces) le
  rw [lineStart, lineStart, Guarded.rowStart, Guarded.rowStart, ← same, List.flatMap_append, byteLength_append]
  omega

theorem lineStart_le (doc : Document) (row : Nat) : doc.lineStart row ≤ byteLength doc.text := by
  have spelled := doc.text_pieces
  rw [← List.take_append_drop row doc.pieces, List.flatMap_append] at spelled
  rw [lineStart, Guarded.rowStart, ← spelled, byteLength_append]
  omega

theorem exists_pieces (there : doc.line? row = some line) :
    ∃ front p back, doc.pieces = front ++ p :: back ∧ front.length = row ∧ p.line = line := by
  rw [line?, lines_eq_pieces, List.getElem?_map, Option.map_eq_some_iff] at there
  obtain ⟨p, found, same⟩ := there
  obtain ⟨bound, rfl⟩ := List.getElem?_eq_some_iff.mp found
  refine ⟨doc.pieces.take row, _, doc.pieces.drop (row + 1), ?_, ?_, same⟩
  · rw [← List.drop_eq_getElem_cons bound, List.take_append_drop]
  · rw [List.length_take, Nat.min_eq_left (Nat.le_of_lt bound)]

/-- A piece of a document is one of its lines, from the start of that line to the start of the next one. -/
structure PieceAt (doc : Document) (row : Nat) (front : List Piece) (p : Piece) (back : List Piece) : Prop where
  there : doc.line? row = some p.line
  start : doc.lineStart row = byteLength (front.flatMap Piece.text)
  next : doc.lineStart (row + 1) = byteLength (front.flatMap Piece.text) + byteLength p.text
  count : doc.lineCount = row + 1 + back.length

theorem pieceAt (pieces : doc.pieces = front ++ p :: back) : doc.PieceAt front.length front p back := by
  have first : doc.pieces.take front.length = front := by rw [pieces, List.take_left]
  have more : doc.pieces.take (front.length + 1) = front ++ [p] := by
    rw [pieces, List.take_length_add_append, List.take_succ_cons, List.take_zero]
  refine ⟨?_, ?_, ?_, ?_⟩
  · rw [line?, lines_eq_pieces, List.getElem?_map, pieces, List.getElem?_append_right (Nat.le_refl _), Nat.sub_self]
    rfl
  · rw [lineStart, Guarded.rowStart, first]
  · rw [lineStart, Guarded.rowStart, more, List.flatMap_append, byteLength_append, List.flatMap_singleton]
  · rw [← length_pieces, pieces, List.length_append, List.length_cons]
    omega

/-- Behind each line but the last one stands a break; the last one ends the text. -/
theorem lineStart_succ (there : doc.line? row = some line) :
    (row + 1 < doc.lineCount → doc.lineStart row + byteLength line < doc.lineStart (row + 1)) ∧
      (row + 1 = doc.lineCount → doc.lineStart row + byteLength line = byteLength doc.text) := by
  obtain ⟨front, p, back, pieces, rfl, rfl⟩ := exists_pieces there
  have piece := pieceAt pieces
  have count := piece.count
  have regular := doc.regular_pieces
  rw [pieces] at regular
  cases back with
  | nil =>
    have plain : p.text = p.line := by simp [Piece.text, regular.of_append.2]
    refine ⟨fun more => ?_, fun _ => ?_⟩
    · rw [List.length_nil] at count
      omega
    · rw [piece.start, ← text_pieces, pieces, List.flatMap_append, byteLength_append, List.flatMap_singleton, plain]
  | cons q rest =>
    have := byteLength_pos regular.of_append.2.1.breakText_ne_nil
    refine ⟨fun _ => ?_, fun last => ?_⟩
    · rw [piece.start, piece.next, Piece.text_eq, byteLength_append]
      omega
    · rw [List.length_cons] at count
      omega

/-- The line that a byte offset is on; the last line has all offsets past the end. -/
structure OnLine (doc : Document) (byte row : Nat) (line : Text) : Prop where
  there : doc.line? row = some line
  lower : doc.lineStart row ≤ byte
  upper : row + 1 < doc.lineCount → byte < doc.lineStart (row + 1)

theorem exists_onLine (doc : Document) (byte : Nat) : ∃ row line, doc.OnLine byte row line := by
  have nonempty : doc.pieces ≠ [] := by
    rw [← List.length_pos_iff, length_pieces]
    exact doc.lineCount_pos
  obtain ⟨front, p, back, pieces, lower, upper⟩ := Piece.exists_split nonempty byte
  have piece := pieceAt pieces
  refine ⟨front.length, p.line, piece.there, ?_, fun more => ?_⟩
  · rwa [piece.start]
  · rw [piece.next]
    refine upper (List.ne_nil_of_length_pos ?_)
    have := piece.count
    omega

theorem OnLine.positionAtByte (on : doc.OnLine byte row line) :
    doc.positionAtByte byte = ⟨row, columnAt line (byte - doc.lineStart row)⟩ := by
  obtain ⟨front, p, back, pieces, rfl, rfl⟩ := exists_pieces on.there
  have piece := pieceAt pieces
  have lower := on.lower
  rw [piece.start] at lower
  rw [Document.positionAtByte, ← Document.pieces, pieces, Piece.positionIn_split 0 lower, Nat.zero_add, piece.start]
  intro more
  have size := List.length_pos_iff.mpr more
  have upper := on.upper (by rw [piece.count]; omega)
  rwa [piece.next] at upper

/-- Offsets in order are on rows in order, and on one row they have columns in order. -/
theorem OnLine.mono {a b rowA rowB : Nat} {lineA lineB : Text} (onA : doc.OnLine a rowA lineA)
    (onB : doc.OnLine b rowB lineB) (le : a ≤ b) : doc.positionAtByte a ≤ doc.positionAtByte b := by
  rw [onA.positionAtByte, onB.positionAtByte]
  have lower := onA.lower
  rcases Nat.lt_trichotomy rowA rowB with above | same | below
  · exact .inl above
  · subst same
    obtain rfl := Option.some.inj (onA.there.symm.trans onB.there)
    exact .inr ⟨rfl, columnAt_mono lineA (Nat.sub_le_sub_right le _)⟩
  · have bound := lt_lineCount onA.there
    have upper := onB.upper (by omega)
    have next : doc.lineStart (rowB + 1) ≤ doc.lineStart rowA := doc.lineStart_mono below
    omega

/-! ## Indexes -/

/-- The position of a byte offset by an index, which knows the row of each offset in the text and the offset at which
each row starts. -/
def positionBy (doc : Document) (rowOf startOf : Nat → Nat) (byte : Nat) : Position :=
  let inText := min byte (byteLength doc.text)
  let row := rowOf inText
  ⟨row, (doc.line? row).elim 0 fun line => columnAt line (min (inText - startOf row) (byteLength line))⟩

/-- The index breaks lines where the document does. A line goes up to the start of the next one, so an offset inside
a line break is on the line that it ends. -/
structure Indexes (doc : Document) (rowOf startOf : Nat → Nat) : Prop where
  row : ∀ byte ≤ byteLength doc.text, ∃ line, doc.OnLine byte (rowOf byte) line
  start : ∀ row < doc.lineCount, startOf row = doc.lineStart row

/-- With any such index, positions are the same. -/
theorem Indexes.positionBy_eq {rowOf startOf : Nat → Nat} (index : doc.Indexes rowOf startOf) (byte : Nat) :
    doc.positionBy rowOf startOf byte = doc.positionAtByte byte := by
  obtain ⟨line, on⟩ := index.row _ (Nat.min_le_right byte (byteLength doc.text))
  have bound := lt_lineCount on.there
  simp only [positionBy, on.there, Option.elim_some, index.start _ bound, Guarded.columnAt_min]
  rcases Nat.le_total byte (byteLength doc.text) with inside | past
  · rw [Nat.min_eq_left inside] at on ⊢
    exact on.positionAtByte.symm
  · rw [Nat.min_eq_right past] at on bound ⊢
    have last : rowOf (byteLength doc.text) + 1 = doc.lineCount := by
      by_contra more
      have upper := on.upper (by omega)
      have := doc.lineStart_le (rowOf (byteLength doc.text) + 1)
      omega
    have ended := (lineStart_succ on.there).2 last
    have onLast : doc.OnLine byte _ line := ⟨on.there, on.lower.trans past, fun more => by omega⟩
    rw [onLast.positionAtByte, columnAt_of_le (by omega), columnAt_of_le (by omega)]

/-- Going down the pieces of a document gives such an index. -/
theorem indexes_rowOf (doc : Document) : doc.Indexes (Guarded.rowOf doc.pieces) doc.lineStart := by
  refine ⟨fun byte inside => ?_, fun _ _ => rfl⟩
  obtain ⟨row, line, on⟩ := doc.exists_onLine byte
  have nonempty : doc.pieces ≠ [] := List.ne_nil_of_length_pos (by rw [length_pieces]; exact doc.lineCount_pos)
  obtain ⟨-, p, -, same⟩ := Guarded.positionIn_eq nonempty 0 byte
  rw [text_pieces, Nat.min_eq_left inside, Nat.zero_add] at same
  have rows := congrArg Position.line (same.symm.trans on.positionAtByte)
  dsimp only at rows
  exact ⟨line, rows ▸ on⟩

/-! ## Positions -/

/-- What stands at a byte offset, and the position that goes with it: an offset between two characters of a line, one
inside a character, one inside a line break and one past the end. -/
inductive Locates (doc : Document) : Nat → Position → Prop
  | between {row : Nat} {before after : Text} (there : doc.line? row = some (before ++ after)) :
      Locates doc (doc.lineStart row + byteLength before) ⟨row, unitLength before⟩
  | inCharacter {byte row : Nat} {before after : Text} {c : Char} (there : doc.line? row = some (before ++ c :: after))
      (lower : doc.lineStart row + byteLength before < byte)
      (upper : byte < doc.lineStart row + byteLength before + c.utf8Size) : Locates doc byte ⟨row, unitLength before⟩
  | inBreak {byte row : Nat} {line : Text} (there : doc.line? row = some line)
      (lower : doc.lineStart row + byteLength line < byte) (upper : byte < doc.lineStart (row + 1)) :
      Locates doc byte ⟨row, unitLength line⟩
  | pastEnd {byte row : Nat} {line : Text} (there : doc.line? row = some line) (last : row + 1 = doc.lineCount)
      (lower : byteLength doc.text < byte) : Locates doc byte ⟨row, unitLength line⟩

theorem locates_positionAtByte (doc : Document) (byte : Nat) : doc.Locates byte (doc.positionAtByte byte) := by
  obtain ⟨row, line, on⟩ := doc.exists_onLine byte
  have there := on.there
  obtain ⟨broken, ended⟩ := lineStart_succ there
  obtain ⟨k, rfl⟩ := Nat.exists_eq_add_of_le on.lower
  rw [on.positionAtByte, Nat.add_sub_cancel_left]
  rcases Nat.lt_or_ge (byteLength line) k with behind | inside
  · have bound := lt_lineCount there
    rw [columnAt_of_le (Nat.le_of_lt behind)]
    by_cases last : row + 1 = doc.lineCount
    · exact .pastEnd there last (by rw [← ended last]; omega)
    · exact .inBreak there (by omega) (on.upper (by omega))
  · have parts := takeWithin_append_dropWithin Char.utf8Size k line
    rcases Nat.lt_or_eq_of_le (total_takeWithin_le Char.utf8Size k line) with split | whole
    · cases left : dropWithin Char.utf8Size k line with
      | nil =>
        rw [left, List.append_nil] at parts
        rw [parts] at split
        exact absurd inside (Nat.not_le.mpr split)
      | cons c after =>
        have fits := lt_of_dropWithin left
        rw [left] at parts
        exact .inCharacter (there.trans (congrArg some parts.symm)) (Nat.add_lt_add_left split _)
          (by rw [Nat.add_assoc]; exact Nat.add_lt_add_left fits _)
    · have located := Locates.between (there.trans (congrArg some parts.symm))
      rwa [byteLength, whole] at located

theorem Locates.positionAtByte_eq (located : doc.Locates byte pos) : doc.positionAtByte byte = pos := by
  cases located with
  | @between row before after there =>
    have next := (lineStart_succ there).1
    rw [byteLength_append] at next
    have on : doc.OnLine (doc.lineStart row + byteLength before) row (before ++ after) :=
      ⟨there, Nat.le_add_right _ _, fun more => by have := next more; omega⟩
    rw [on.positionAtByte, Nat.add_sub_cancel_left, columnAt_append]
  | @inCharacter _ row before after c there lower upper =>
    have next := (lineStart_succ there).1
    have size : byteLength (c :: after) = c.utf8Size + byteLength after := rfl
    rw [byteLength_append, size] at next
    have on : doc.OnLine byte row (before ++ c :: after) :=
      ⟨there, by omega, fun more => by have := next more; omega⟩
    rw [on.positionAtByte, columnAt_inside (by omega) (by omega)]
  | @inBreak _ row line there lower upper =>
    have on : doc.OnLine byte row line := ⟨there, by omega, fun _ => upper⟩
    rw [on.positionAtByte, columnAt_of_le (by omega)]
  | @pastEnd _ row line there last lower =>
    rw [← (lineStart_succ there).2 last] at lower
    have on : doc.OnLine byte row line := ⟨there, by omega, fun more => by omega⟩
    rw [on.positionAtByte, columnAt_of_le (by omega)]

theorem positionAtByte_mono (doc : Document) {a b : Nat} (le : a ≤ b) : doc.positionAtByte a ≤ doc.positionAtByte b := by
  obtain ⟨rowA, lineA, onA⟩ := doc.exists_onLine a
  obtain ⟨rowB, lineB, onB⟩ := doc.exists_onLine b
  exact onA.mono onB le

theorem positionAtByte_inside (doc : Document) (byte : Nat) : (doc.positionAtByte byte).Inside doc := by
  obtain ⟨row, line, on⟩ := doc.exists_onLine byte
  rw [on.positionAtByte]
  exact ⟨lt_lineCount on.there, (columnAt_le_unitLength line _).trans (Nat.le_of_eq (width_eq on.there).symm)⟩

end Document

/-- Both ends of the range of a diagnostic are in the document that was linted. -/
theorem Lint.toDiagnostic_inside (doc : Document) (lint : Lint) :
    (lint.toDiagnostic doc).range.start.Inside doc ∧ (lint.toDiagnostic doc).range.stop.Inside doc :=
  ⟨doc.positionAtByte_inside lint.start, doc.positionAtByte_inside lint.stop⟩

/-- The position of a byte offset goes by what stands there: between two characters of a line it has the column of
the characters in front, which leads back to the byte, inside a character it is the start of that character, inside a
line break the end of the line that it ends, and past the end of the text the end of its last line. It is in the
document, and offsets in order have positions in order, as have the two ends of a lint. Any index that breaks lines
where the document does gives these positions. -/
theorem Document.positionAtByte_faithful (doc : Document) :
    (∀ rowOf startOf, doc.Indexes rowOf startOf →
        ∀ byte, doc.positionBy rowOf startOf byte = doc.positionAtByte byte) ∧
      (∀ byte pos, doc.positionAtByte byte = pos ↔ doc.Locates byte pos) ∧
      (∀ row line k, doc.line? row = some line → IsBoundary line k →
        doc.positionAtByte (doc.lineStart row + k) = ⟨row, columnAt line k⟩ ∧ byteAt line (columnAt line k) = k) ∧
      (∀ byte, (doc.positionAtByte byte).Inside doc) ∧
      (∀ a b, a ≤ b → doc.positionAtByte a ≤ doc.positionAtByte b) ∧
      ∀ lint : Lint, lint.start ≤ lint.stop →
        (lint.toDiagnostic doc).range.start ≤ (lint.toDiagnostic doc).range.stop := by
  refine ⟨fun _ _ index => index.positionBy_eq, fun byte pos => ⟨?_, Locates.positionAtByte_eq⟩, ?_,
    doc.positionAtByte_inside, fun _ _ => doc.positionAtByte_mono, fun _ => doc.positionAtByte_mono⟩
  · rintro rfl
    exact doc.locates_positionAtByte byte
  · intro row line k there boundary
    refine ⟨?_, byteAt_columnAt boundary⟩
    obtain ⟨before, after, rfl, rfl⟩ := boundary.split
    rw [columnAt_append]
    exact (Locates.between there).positionAtByte_eq

/-- Two bytes of a letter, a line break of two characters, and a character of two units at the end. -/
theorem Document.positionAtByte_faithful_wide :
    let doc := ofText "é\r\n😀".toList 0
    doc.Indexes (Guarded.rowOf doc.pieces) doc.lineStart ∧
      [0, 1, 2, 3, 4, 6, 8, 100].map (doc.positionBy (Guarded.rowOf doc.pieces) doc.lineStart) =
        [⟨0, 0⟩, ⟨0, 0⟩, ⟨0, 1⟩, ⟨0, 1⟩, ⟨1, 0⟩, ⟨1, 0⟩, ⟨1, 2⟩, ⟨1, 2⟩] := by
  intro doc
  obtain ⟨agrees, -⟩ := doc.positionAtByte_faithful
  refine ⟨doc.indexes_rowOf, ?_⟩
  rw [List.map_congr_left fun byte _ => agrees _ _ doc.indexes_rowOf byte]
  decide +kernel

end SchemaServer
