import SchemaServer.Rename
import SchemaServer.Proofs.Document.Pieces
import SchemaServer.Proofs.Text.Word

/-! When two edits stay clear of each other. Edits of different rows always do, so a list of edits is
judged row by row, and on a row the UTF-16 columns compare as the byte offsets do. -/
namespace SchemaServer

open Text

variable {edits : List Edit} {e f : Edit} {row : Nat} {line before after found before' after' found' : Text}

theorem Position.le_iff {p q : Position} :
    p ≤ q ↔ p.line < q.line ∨ (p.line = q.line ∧ p.character ≤ q.character) := Iff.rfl

namespace Edit

/-- One of the two ends at or before the start of the other. -/
def Apart (e f : Edit) : Prop := e.range.stop ≤ f.range.start ∨ f.range.stop ≤ e.range.start

def OnRow (row : Nat) (e : Edit) : Prop := e.range.start.line = row ∧ e.range.stop.line = row

instance (e f : Edit) : Decidable (Apart e f) := inferInstanceAs (Decidable (_ ∨ _))

instance (row : Nat) (e : Edit) : Decidable (OnRow row e) := inferInstanceAs (Decidable (_ ∧ _))

theorem apart_of_rows {row' : Nat} (he : OnRow row e) (hf : OnRow row' f) (differ : row ≠ row') :
    Apart e f := by
  obtain ⟨startE, stopE⟩ := he
  obtain ⟨startF, stopF⟩ := hf
  rcases Nat.lt_or_gt_of_ne differ with above | below
  · exact .inl (.inl (by omega))
  · exact .inr (.inl (by omega))

/-- Edits of single rows are clear of each other when those of each row are. -/
theorem pairwise_apart_iff (single : ∀ e ∈ edits, ∃ row, OnRow row e) :
    edits.Pairwise Apart ↔ ∀ row, (edits.filter (OnRow row ·)).Pairwise Apart := by
  constructor
  · exact fun all row => all.filter _
  · intro byRow
    induction edits with
    | nil => exact List.Pairwise.nil
    | cons e rest ih =>
      obtain ⟨row, own⟩ := single e List.mem_cons_self
      refine List.pairwise_cons.mpr ⟨?_, ih (fun f member => single f (List.mem_cons_of_mem e member)) ?_⟩
      · intro f member
        obtain ⟨row', other⟩ := single f (List.mem_cons_of_mem e member)
        by_cases same : row' = row
        · have here := byRow row
          rw [List.filter_cons_of_pos (by simpa using own), List.pairwise_cons] at here
          exact here.1 f (List.mem_filter.mpr ⟨member, by simpa using same ▸ other⟩)
        · exact apart_of_rows own other (Ne.symm same)
      · intro row
        exact (byRow row).sublist ((List.sublist_cons_self e rest).filter _)

end Edit

/-- Stretches of one line come in the same order by bytes and by columns. -/
theorem units_le_iff {a b : Text} (ha : a <+: line) (hb : b <+: line) :
    unitLength a ≤ unitLength b ↔ byteLength a ≤ byteLength b := by
  constructor
  · exact fun le => total_le_of_prefix _ (prefix_of_total_le unitSize_pos ha hb le)
  · exact fun le => total_le_of_prefix _ (prefix_of_total_le Char.utf8Size_pos ha hb le)

theorem ofSpan_append (row : Nat) (before found after : Text) :
    Range.ofSpan row (before ++ found ++ after) (byteLength before) (byteLength before + byteLength found) =
      ⟨⟨row, unitLength before⟩, ⟨row, unitLength (before ++ found)⟩⟩ := by
  rw [Range.ofSpan, columnAt_append_left, ← unitLength_append, List.append_assoc, columnAt_append]

theorem onRow_ofSpan {start stop : Nat} {newText : Text} :
    Edit.OnRow row ⟨.ofSpan row line start stop, newText⟩ := ⟨rfl, rfl⟩

theorem apart_ofSpan_iff {new new' : Text} (here : line = before ++ found ++ after)
    (there : line = before' ++ found' ++ after') :
    Edit.Apart ⟨.ofSpan row line (byteLength before) (byteLength before + byteLength found), new⟩
        ⟨.ofSpan row line (byteLength before') (byteLength before' + byteLength found'), new'⟩ ↔
      byteLength before + byteLength found ≤ byteLength before' ∨
        byteLength before' + byteLength found' ≤ byteLength before := by
  have near : Range.ofSpan row line (byteLength before) (byteLength before + byteLength found) =
      ⟨⟨row, unitLength before⟩, ⟨row, unitLength (before ++ found)⟩⟩ := by
    rw [here, ofSpan_append]
  have far : Range.ofSpan row line (byteLength before') (byteLength before' + byteLength found') =
      ⟨⟨row, unitLength before'⟩, ⟨row, unitLength (before' ++ found')⟩⟩ := by
    rw [there, ofSpan_append]
  have ends : before ++ found <+: line := ⟨after, here.symm⟩
  have ends' : before' ++ found' <+: line := ⟨after', there.symm⟩
  rw [near, far, ← byteLength_append, ← byteLength_append,
    ← units_le_iff ends ((List.prefix_append _ _).trans ends'),
    ← units_le_iff ends' ((List.prefix_append _ _).trans ends)]
  simp [Edit.Apart, Position.le_iff]

namespace Text

/-- A run without blanks ends in front of the next blank. -/
theorem Word.within {left rest : Text} (solid : Word found) (parted : Parted rest)
    (tail : found ++ after = left ++ rest) : found <+: left := by
  rcases List.prefix_or_prefix_of_prefix ⟨after, tail⟩ (List.prefix_append left rest)
    with inside | ⟨more, longer⟩
  · exact inside
  · subst longer
    cases more with
    | nil => simp
    | cons c r =>
      rw [List.append_assoc, List.append_cancel_left_eq] at tail
      have blank := parted c (by simp [← tail])
      simp [solid.2 c (by simp)] at blank

/-- A run without blanks that starts behind the start of the first word, or is longer than it, starts
behind its end. -/
theorem FirstWord.behind {word rest : Text} (first : FirstWord line before word rest)
    (here : line = before' ++ found ++ after) (solid : Word found)
    (later : ¬ Blank before' ∨ byteLength word < byteLength found) (size : byteLength word ≤ byteLength found) :
    byteLength before + byteLength word ≤ byteLength before' := by
  rw [← byteLength_append]
  apply total_le_of_prefix Char.utf8Size
  have inLine : before' <+: line := ⟨found ++ after, by rw [here, List.append_assoc]⟩
  have wordEnds : before ++ word <+: line := ⟨rest, first.parts.symm⟩
  rcases List.prefix_or_prefix_of_prefix wordEnds inLine with behind | ⟨left, wordParts⟩
  · exact behind
  · have tail : found ++ after = left ++ rest := by
      have same := here.symm.trans first.parts
      rw [← wordParts, List.append_assoc, List.append_assoc] at same
      exact List.append_cancel_left same
    have inside := solid.within first.parted tail
    have fits := total_le_of_prefix Char.utf8Size inside
    have sizes := congrArg byteLength wordParts
    rw [byteLength_append, byteLength_append] at sizes
    have leads : before' <+: before :=
      prefix_of_total_le Char.utf8Size_pos inLine ((List.prefix_append _ _).trans wordEnds)
        (by unfold byteLength at *; omega)
    obtain ⟨gap, beforeEq⟩ := leads
    have none : gap = [] := by
      cases gap with
      | nil => rfl
      | cons c r =>
        subst beforeEq
        obtain ⟨d, t, rfl, head⟩ := solid.head
        obtain ⟨more, rfl⟩ := inside
        rw [List.append_assoc, List.append_cancel_left_eq] at wordParts
        obtain ⟨rfl, -⟩ := List.cons.inj wordParts
        simp [first.blank d (by simp)] at head
    subst none
    rw [List.append_nil] at beforeEq
    subst beforeEq
    rcases later with solidLead | longer
    · exact absurd first.blank solidLead
    · unfold byteLength at *
      omega

end Text

end SchemaServer
