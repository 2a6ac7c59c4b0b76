import SchemaServer.Text.Basic

/-! Positions and ranges of a document: zero-based lines and UTF-16 columns. Edits are data, all computed
against one text; whether a list of them is free of overlaps is decided on neighbours in sorted order. -/
namespace SchemaServer

structure Position where
  line : Nat
  character : Nat
  deriving DecidableEq

namespace Position

/-- Document order. -/
protected def Le (p q : Position) : Prop :=
  p.line < q.line ∨ (p.line = q.line ∧ p.character ≤ q.character)

instance : LE Position := ⟨Position.Le⟩

instance : DecidableLE Position := fun p q =>
  inferInstanceAs (Decidable (p.line < q.line ∨ (p.line = q.line ∧ p.character ≤ q.character)))

end Position

/-- Line numbers on the wire are 32-bit words. -/
def lineNumber (row : Nat) : Nat := row % UInt32.size

structure Range where
  start : Position
  stop : Position
  deriving DecidableEq

namespace Range

def ofSpan (row : Nat) (line : Text) (start stop : Nat) : Range :=
  ⟨⟨row, Text.columnAt line start⟩, ⟨row, Text.columnAt line stop⟩⟩

/-- Ordered by start, then by stop. -/
protected def Le (r s : Range) : Prop := if r.start = s.start then r.stop ≤ s.stop else r.start ≤ s.start

instance : LE Range := ⟨Range.Le⟩

instance : DecidableLE Range := fun r s =>
  inferInstanceAs (Decidable (if r.start = s.start then r.stop ≤ s.stop else r.start ≤ s.start))

end Range

structure Edit where
  range : Range
  newText : Text
  deriving DecidableEq

/-- Each range ends at or before the start of the next. -/
def neighboursApart : List Range → Bool
  | r :: s :: rest => decide (r.stop ≤ s.start) && neighboursApart (s :: rest)
  | _ => true

namespace Edit

/-- No two edits overlap; touching is allowed. -/
def disjoint (edits : List Edit) : Bool :=
  neighboursApart ((edits.map Edit.range).mergeSort fun r s => decide (r ≤ s))

end Edit

end SchemaServer
