import SchemaServer.Proofs.Edit.Apart
import SchemaServer.Proofs.Text.Occurrence

/-! The text under a range. A range that starts and stops between characters of one line covers the stretch
between them. -/
namespace SchemaServer

open Text

variable {doc : Document} {range : Range} {line before found after name : Text} {row : Nat}

/-- The text from one UTF-16 column of a line up to another. -/
def Text.between (line : Text) (start stop : Nat) : Text :=
  takeWithin unitSize (stop - start) (dropWithin unitSize start line)

theorem Text.between_append (before found after : Text) :
    between (before ++ found ++ after) (unitLength before) (unitLength (before ++ found)) = found := by
  have behind : dropWithin unitSize (unitLength before) (before ++ found ++ after) = found ++ after := by
    rw [List.append_assoc]
    exact dropWithin_total unitSize_pos before (found ++ after)
  have size : unitLength (before ++ found) - unitLength before = total unitSize found := by
    rw [unitLength_append, Nat.add_sub_cancel_left]
    rfl
  rw [between, behind, size, takeWithin_total unitSize_pos]

def Document.textIn? (doc : Document) (range : Range) : Option Text :=
  if range.stop.line = range.start.line then
    (doc.line? range.start.line).map (Text.between · range.start.character range.stop.character)
  else none

namespace Range

/-- The range starts and stops on one line of the document, in this order and not past its end. -/
structure Within (range : Range) (doc : Document) : Prop where
  row : range.stop.line = range.start.line
  bound : range.start.line < doc.lineCount
  ordered : range.start.character ≤ range.stop.character
  inLine : range.stop.character ≤ doc.width range.start.line

/-- The range covers `found` on a line that reads `before ++ found ++ after`. -/
structure Covers (range : Range) (doc : Document) (before found after : Text) : Prop where
  line : doc.line? range.start.line = some (before ++ found ++ after)
  row : range.stop.line = range.start.line
  start : range.start.character = unitLength before
  stop : range.stop.character = unitLength (before ++ found)

/-- The range covers `name`, and no identifier character touches it. -/
def CoversWhole (range : Range) (doc : Document) (name : Text) : Prop :=
  ∃ before after, range.Covers doc before name after ∧
    before.getLast?.any isIdentifierChar = false ∧ after.head?.any isIdentifierChar = false

theorem Covers.within (covers : range.Covers doc before found after) : range.Within doc := by
  refine ⟨covers.row, Document.lt_lineCount covers.line, ?_, ?_⟩
  · rw [covers.start, covers.stop, unitLength_append]
    omega
  · rw [covers.stop, Document.width_eq covers.line, unitLength_append (before ++ found)]
    omega

theorem Covers.textIn? (covers : range.Covers doc before found after) : doc.textIn? range = some found := by
  rw [Document.textIn?, if_pos covers.row, covers.line, covers.start, covers.stop, Option.map_some, between_append]

theorem covers_ofSpan (there : doc.line? row = some line) (parts : line = before ++ found ++ after) :
    (ofSpan row line (byteLength before) (byteLength before + byteLength found)).Covers doc before found after := by
  subst parts
  rw [ofSpan_append]
  exact ⟨there, rfl, rfl, rfl⟩

theorem coversWhole_ofSpan (there : doc.line? row = some line) (stands : Stands name before after line) :
    (ofSpan row line (byteLength before) (byteLength before + byteLength name)).CoversWhole doc name :=
  ⟨before, after, covers_ofSpan there stands.parts, stands.free_before, stands.free_after⟩

theorem CoversWhole.within (covers : range.CoversWhole doc name) : range.Within doc := by
  obtain ⟨_, _, covers, -⟩ := covers
  exact covers.within

end Range

end SchemaServer
