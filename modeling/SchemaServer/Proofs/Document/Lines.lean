import SchemaServer.Proofs.Edit.Apply
import SchemaServer.Proofs.Guarded.Document

/-! The lines of a text. With the breaks between them they spell it, in one way only, and the range of a whole
document takes in all of it. -/
namespace SchemaServer

variable {s line : Text} {lines : List Text} {breaks : List LineBreak} {ps : List Piece} {row : Nat}

/-- A text in lines with breaks between them. A carriage return that breaks a line on its own has no line feed
behind it, so the two together are always one break. -/
inductive Text.Cut : Text → List Text → List LineBreak → Prop
  | last {line : Text} (unbroken : line.Unbroken) : Cut line [line] []
  | next {line rest : Text} {b : LineBreak} {lines : List Text} {breaks : List LineBreak}
      (unbroken : line.Unbroken) (whole : b = .carriage → rest.head? ≠ some '\n')
      (behind : Cut rest lines breaks) : Cut (line ++ b.text ++ rest) (line :: lines) (b :: breaks)

namespace Text.Cut

theorem unbroken (cut : Cut s lines breaks) : ∀ line ∈ lines, line.Unbroken := by
  induction cut with
  | last unbroken => simpa using unbroken
  | next unbroken _ _ ih => exact List.forall_mem_cons.mpr ⟨unbroken, ih⟩

/-- The pieces of a text are its lines with its breaks. -/
theorem ofText_eq (cut : Cut s lines breaks) :
    (Piece.ofText s).map Piece.line = lines ∧ (Piece.ofText s).filterMap Piece.ending = breaks := by
  induction cut with
  | last unbroken =>
    rw [Piece.ofText_unbroken unbroken]
    exact ⟨rfl, rfl⟩
  | next unbroken whole _ ih =>
    rw [Piece.ofText_break unbroken whole, ← ih.1, ← ih.2]
    exact ⟨rfl, rfl⟩

theorem exists_cut (s : Text) : ∃ lines breaks, Cut s lines breaks := by
  induction size : s.length using Nat.strong_induction_on generalizing s with
  | _ n ih =>
    rcases Guarded.unbroken_or_break s with unbroken | ⟨line, b, rest, rfl, unbroken, whole⟩
    · exact ⟨[s], [], .last unbroken⟩
    · have shorter : rest.length < n := by
        have breakSize : 0 < b.text.length := by cases b <;> decide
        rw [← size, List.length_append, List.length_append]
        omega
      obtain ⟨lines, breaks, behind⟩ := ih rest.length shorter rest rfl
      exact ⟨line :: lines, b :: breaks, .next unbroken whole behind⟩

theorem cut_ofText (s : Text) : Cut s ((Piece.ofText s).map Piece.line) ((Piece.ofText s).filterMap Piece.ending) := by
  obtain ⟨lines, breaks, cut⟩ := exists_cut s
  rwa [cut.ofText_eq.1, cut.ofText_eq.2]

end Text.Cut

/-! ## The range of a document -/

theorem Piece.offsetIn_end (row : Nat) (regular : Regular ps) :
    offsetIn row ps ⟨row + (ps.length - 1), ps.getLast?.elim 0 fun p => Text.unitLength p.line⟩ =
      (ps.flatMap text).length := by
  induction ps generalizing row with
  | nil => exact regular.elim
  | cons p rest ih =>
    cases rest with
    | nil =>
      have plain : p.text = p.line := by simp [text, regular.2]
      have whole := Text.takeWithin_total Text.unitSize_pos p.line []
      rw [List.append_nil] at whole
      simp [offsetIn, plain, Text.unitLength, whole]
    | cons q rest =>
      have below : ¬ row + ((p :: q :: rest).length - 1) ≤ row := by
        rw [List.length_cons, List.length_cons]
        omega
      have later : row + ((p :: q :: rest).length - 1) = row + 1 + ((q :: rest).length - 1) := by
        rw [List.length_cons, List.length_cons]
        omega
      have whole : (p :: q :: rest).flatMap text = p.text ++ (q :: rest).flatMap text := List.flatMap_cons
      rw [offsetIn, if_neg below, later, List.getLast?_cons_cons, ih (row + 1) regular.2.2, whole, List.length_append]

theorem Change.apply_all (s new : Text) : apply [⟨0, s.length, new⟩] s = new := by
  by_cases nonempty : s = []
  · subst nonempty
    simp [apply, rewrite, written]
  · have whole : apply [⟨([] : Text).length, ([] : Text).length + s.length, new⟩] ([] ++ s ++ []) = [] ++ new ++ [] :=
      apply_single nonempty
    simpa using whole

/-- An edit of the range of a document puts its text in the place of all there is. -/
theorem Document.apply_fullRange (doc : Document) (newText : Text) : doc.apply [⟨doc.fullRange, newText⟩] = newText := by
  have last : doc.width (doc.lineCount - 1) = doc.pieces.getLast?.elim 0 fun p => Text.unitLength p.line := by
    rw [width, line?, lines_eq_pieces, List.getElem?_map, ← length_pieces, List.getLast?_eq_getElem?]
    cases doc.pieces[doc.pieces.length - 1]? <;> rfl
  have stop : Piece.offsetIn 0 doc.pieces doc.fullRange.stop = doc.text.length := by
    have whole := Piece.offsetIn_end 0 doc.regular_pieces
    rw [length_pieces, ← last, text_pieces, Nat.zero_add] at whole
    exact whole
  have start : Piece.offsetIn 0 doc.pieces doc.fullRange.start = 0 := by
    cases pieces : doc.pieces with
    | nil => rfl
    | cons p rest => simp [fullRange, Piece.offsetIn, Text.takeWithin_zero Text.unitSize_pos]
  have change : Edit.changeIn 0 doc.pieces ⟨doc.fullRange, newText⟩ = ⟨0, doc.text.length, newText⟩ := by
    rw [Edit.changeIn, start, stop]
  rw [apply, List.map_singleton, change, Change.apply_all]

end SchemaServer
