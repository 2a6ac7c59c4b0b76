import SchemaServer.Proofs.Block.Rewriting
import SchemaServer.Proofs.Edit.Apply
import SchemaServer.Proofs.Edit.Apart

/-! Edits as a rewriting of lines: where the edits of each row make its new line, the edited text has the
rewritten rows. -/
namespace SchemaServer

open Text

variable {w : Rewriting} {doc : Document} {edits : List Edit} {line before old after new : Text} {row : Nat}

theorem Text.Word.unbroken {w : Text} (word : Word w) : w.Unbroken := by
  constructor
  · intro feed
    exact absurd (word.2 _ feed) (by decide)
  · intro carriage
    exact absurd (word.2 _ carriage) (by decide)

namespace Edit

/-- An edit within a line of the document that writes some text and no line break. -/
structure Within (doc : Document) (e : Edit) : Prop where
  onLine : e.OnLine
  inside : e.range.start.line < doc.lineCount
  filled : e.newText ≠ []
  unbroken : e.newText.Unbroken

theorem OnRow.within {e : Edit} (onRow : e.OnRow row) (inside : row < doc.lineCount) (filled : e.newText ≠ [])
    (unbroken : e.newText.Unbroken) : e.Within doc :=
  ⟨onRow.2.trans onRow.1.symm, by rwa [onRow.1], filled, unbroken⟩

theorem changeOn_ofSpan (parts : line = before ++ old ++ after) :
    changeOn line ⟨.ofSpan row line (byteLength before) (byteLength before + byteLength old), new⟩ =
      ⟨before.length, (before ++ old).length, new⟩ := by
  have start : takeWithin unitSize (unitLength before) (before ++ old ++ after) = before := by
    rw [List.append_assoc]
    exact takeWithin_total unitSize_pos before (old ++ after)
  have stop : takeWithin unitSize (unitLength (before ++ old)) (before ++ old ++ after) = before ++ old :=
    takeWithin_total unitSize_pos (before ++ old) after
  rw [parts, ofSpan_append, changeOn, start, stop]

/-- An edit of one stretch of a line puts its text in the place of the stretch. -/
theorem applyOn_ofSpan (nonempty : old ≠ []) (parts : line = before ++ old ++ after) :
    applyOn [⟨.ofSpan row line (byteLength before) (byteLength before + byteLength old), new⟩] line =
      before ++ new ++ after := by
  rw [applyOn, List.map_singleton, changeOn_ofSpan parts, parts, List.length_append]
  exact Change.apply_single nonempty

theorem applyOn_nil (line : Text) : applyOn [] line = line := Change.apply_nil line

end Edit

namespace Rewriting

def piecesOf (w : Rewriting) (x : Piece × Nat) : List Piece :=
  (if w.above = some x.2 then [⟨w.inserted, some .feed⟩] else []) ++ [⟨w.line x.2 x.1.line, x.1.ending⟩]

/-- The edits of each row make its new line, and no line vanishes. -/
structure WrittenBy (w : Rewriting) (doc : Document) (edits : List Edit) : Prop where
  onLine : ∀ e ∈ edits, e.OnLine
  inside : ∀ e ∈ edits, e.range.start.line < doc.lineCount
  makes : ∀ row line, doc.line? row = some line →
    Edit.applyOn (edits.filter fun e => e.range.start.line = row) line =
      (if w.above = some row then w.inserted ++ ['\n'] else []) ++ w.line row line
  unbroken : ∀ row line, doc.line? row = some line → (w.line row line).Unbroken
  stays : ∀ row line, doc.line? row = some line → w.line row line = [] → line = []
  insertedUnbroken : w.inserted.Unbroken
  inserted : w.inserted ≠ []

/-- The pieces of a rewriting come on the rows of the rewriting. -/
theorem zipIdx_piecesOf (w : Rewriting) (ps : List Piece) (k : Nat) :
    ((ps.zipIdx k).flatMap w.piecesOf).zipIdx (if w.above.any (· < k) then k + 1 else k) =
      (ps.zipIdx k).flatMap fun x => (if w.above = some x.2 then [(⟨w.inserted, some .feed⟩, x.2)] else []) ++
        [(⟨w.line x.2 x.1.line, x.1.ending⟩, w.shift x.2)] := by
  induction ps generalizing k with
  | nil => rfl
  | cons p rest ih =>
    rw [List.zipIdx_cons, List.flatMap_cons, List.zipIdx_append, List.flatMap_cons, ← ih]
    unfold piecesOf shift
    cases w.above with
    | none => simp
    | some m =>
      rcases Nat.lt_trichotomy m k with below | rfl | above
      · have other : ¬ m = k := by omega
        have onward : m < k + 1 := by omega
        simp only [Option.any_some, decide_eq_true_eq, below, onward, Option.some.injEq, other, if_true, if_false]
        simp [Nat.le_of_lt below]
      · simp
      · have other : ¬ m = k := by omega
        have later : ¬ m < k := by omega
        have later' : ¬ m < k + 1 := by omega
        simp only [Option.any_some, decide_eq_true_eq, later, later', Option.some.injEq, other, if_false]
        simp [Nat.not_le.mpr above]

namespace WrittenBy

variable (written : w.WrittenBy doc edits)

include written

theorem text : doc.apply edits = (doc.pieces.zipIdx.flatMap w.piecesOf).flatMap Piece.text := by
  rw [Document.apply_eq doc written.onLine written.inside, List.flatMap_assoc]
  apply List.flatMap_congr
  intro x member
  rw [written.makes _ _ (Document.line?_of_mem_pieces member)]
  unfold piecesOf
  split <;> simp [Piece.text, Piece.breakText, LineBreak.text]

theorem replaces (x : Piece × Nat) (member : x ∈ doc.pieces.zipIdx) : Piece.Replaces x.1 (w.piecesOf x) := by
  have found := Document.line?_of_mem_pieces member
  refine ⟨⟨_, _, rfl, ?_⟩, ?_, ?_⟩
  · intro q inFront
    split at inFront
    · rw [List.mem_singleton.mp inFront]
    · contradiction
  · intro q inside
    rcases List.mem_append.mp inside with front | last
    · split at front
      · rw [List.mem_singleton.mp front]
        exact written.insertedUnbroken
      · contradiction
    · rw [List.mem_singleton.mp last]
      exact written.unbroken _ _ found
  · intro head
    unfold piecesOf at head
    split at head
    · have empty : w.inserted = [] := by
        have := Option.some.inj head
        exact congrArg Piece.line this
      exact absurd empty written.inserted
    · have same : (⟨w.line x.2 x.1.line, x.1.ending⟩ : Piece) = ⟨[], some .feed⟩ := Option.some.inj head
      have bare := written.stays _ _ found (congrArg Piece.line same)
      have feed : x.1.ending = some .feed := congrArg Piece.ending same
      exact congr (congrArg Piece.mk bare) feed

theorem pieces : Piece.ofText (doc.apply edits) = doc.pieces.zipIdx.flatMap w.piecesOf := by
  rw [written.text, Piece.ofText_text (doc.regular_pieces.flatMap written.replaces)]

theorem carries (version : Int) : w.Carries doc (.ofText (doc.apply edits) version) := by
  have rows := zipIdx_piecesOf w doc.pieces 0
  have first : ¬ w.above.any (· < 0) = true := by cases w.above <;> simp
  rw [if_neg first, ← written.pieces] at rows
  have lines := congrArg (List.map (Prod.map Piece.line id)) rows
  rw [← List.zipIdx_map, List.map_flatMap] at lines
  rw [Carries, Document.rows, Document.rows, doc.lines_eq_pieces, List.zipIdx_map, List.flatMap_map]
  refine lines.trans (List.flatMap_congr fun x _ => ?_)
  unfold rowsOf
  split <;> simp_all

end WrittenBy

/-- The rewriting of edits that break no line. -/
def ofEdits (edits : List Edit) : Rewriting where
  line := fun row line => Edit.applyOn (edits.filter fun e => e.range.start.line = row) line
  title := fun _ name => name
  inserted := [' ']
  above := none

theorem ofEdits_writtenBy (within : ∀ e ∈ edits, e.Within doc) : (ofEdits edits).WrittenBy doc edits where
  onLine := fun e member => (within e member).onLine
  inside := fun e member => (within e member).inside
  makes := fun _ _ _ => rfl
  unbroken := by
    intro row line there
    have old := Document.unbroken_line there
    have made : ∀ c ∈ (ofEdits edits).line row line, c ∈ line ∨ ∃ e ∈ edits, c ∈ e.newText := by
      intro c member
      refine (Change.mem_apply member).imp_right ?_
      rintro ⟨d, changed, text⟩
      obtain ⟨e, member, rfl⟩ := List.mem_map.mp changed
      exact ⟨e, (List.mem_filter.mp member).1, text⟩
    constructor
    · intro feed
      rcases made _ feed with kept | ⟨e, member, text⟩
      · exact old.1 kept
      · exact (within e member).unbroken.1 text
    · intro carriage
      rcases made _ carriage with kept | ⟨e, member, text⟩
      · exact old.2 kept
      · exact (within e member).unbroken.2 text
  stays := by
    intro row line there empty
    cases here : edits.filter fun e => e.range.start.line = row with
    | nil =>
      dsimp only [ofEdits] at empty
      rwa [here, Edit.applyOn_nil] at empty
    | cons e more =>
      have member : e ∈ edits.filter fun e => e.range.start.line = row := by simp [here]
      obtain ⟨c, text⟩ := List.exists_mem_of_ne_nil _ (within e (List.mem_filter.mp member).1).filled
      have written : c ∈ (ofEdits edits).line row line :=
        Change.mem_apply_of_mem (List.mem_map_of_mem member) (Edit.changeOn_bounds line e).1 text
      rw [empty] at written
      contradiction
  insertedUnbroken := by simp [ofEdits, Unbroken]
  inserted := by simp [ofEdits]

end Rewriting

/-- Edits that break no line change each line on its own. -/
theorem Document.line?_apply (within : ∀ e ∈ edits, e.Within doc) (there : doc.line? row = some line)
    (version : Int) : (Document.ofText (doc.apply edits) version).line? row =
      some (Edit.applyOn (edits.filter fun e => e.range.start.line = row) line) := by
  have carries := (Rewriting.ofEdits_writtenBy within).carries version
  exact Rewriting.line?_shift carries there

end SchemaServer
