import SchemaServer.Hover
import SchemaServer.Proofs.Field

/-! The definition behind the type token of a field: the first model or enum of that name. -/
namespace SchemaServer

open Text

variable {doc : Document} {b : Block} {field : Field} {line before token rest : Text}

def Field.typePosition? (field : Field) (doc : Document) : Option Position := do
  let line ← doc.line? field.line
  let (_, nameEnd) ← firstWordSpan line
  let (gap, _) ← firstWordSpan (dropBytes nameEnd line)
  return ⟨field.line, columnAt line (nameEnd + gap)⟩

/-- Blocks that a type can name. -/
def Block.isType (b : Block) : Bool := b.kind = .model || b.kind = .enum

def Document.typeBlock? (doc : Document) (name : Text) : Option Block :=
  if name = [] then none else doc.blocks.find? fun b => b.isType && b.name = name

theorem Document.typeBlock?_eq_some {name : Text} (names : doc.typeBlock? name = some b) :
    b ∈ doc.blocks ∧ b.name = name := by
  unfold typeBlock? at names
  split at names
  · contradiction
  · have found := List.find?_some names
    simp only [Bool.and_eq_true, decide_eq_true_eq] at found
    exact ⟨List.mem_of_find?_eq_some names, found.2⟩

/-- At its type token a field leads to the block that its type names. -/
theorem definitionAt?_typePosition (member : field ∈ b.fields doc) : ∃ pos,
    field.typePosition? doc = some pos ∧
      doc.definitionAt? pos = (doc.typeBlock? field.typeName).bind (·.nameRange? doc) := by
  obtain ⟨line, there, -, read⟩ := Block.mem_fields_iff.mp member
  obtain ⟨-, -, -, token, ws, two, strips⟩ := Field.ofLine?_eq_some_iff.mp read
  obtain ⟨lead, gap, rest, first, second, apart, -⟩ := words_eq_cons_cons two
  have whole : line = lead ++ field.name ++ gap ++ token ++ rest := by
    rw [first.parts]
    simp
  have behind : dropBytes (byteLength lead + byteLength field.name) line = gap ++ token ++ rest := by
    rw [← byteLength_append, first.parts, dropBytes_byteLength]
  have column : columnAt line (byteLength lead + byteLength field.name + byteLength gap) =
      unitLength (lead ++ field.name ++ gap) := by
    rw [← byteLength_append, ← byteLength_append, whole, List.append_assoc _ token, columnAt_append]
  refine ⟨⟨field.line, unitLength (lead ++ field.name ++ gap)⟩, ?_, ?_⟩
  · simp only [Field.typePosition?, there, first.span, behind, second.span, column, Option.bind_eq_bind,
      Option.bind_some, Option.pure_def]
  · have run : Run line (lead ++ field.name ++ gap) token rest :=
      first.parts ▸ second.run_append apart (lead ++ field.name)
    have word : wordAt line (unitLength (lead ++ field.name ++ gap)) = token :=
      run.wordAt (Nat.le_refl _) <| total_le_of_prefix _ (List.prefix_append _ token)
    have name : doc.typeNameAt? ⟨field.line, unitLength (lead ++ field.name ++ gap)⟩ =
        if field.typeName = [] then none else some field.typeName := by
      simp only [Document.typeNameAt?, there, word, Option.bind_eq_bind, Option.bind_some, ← strips,
        List.isEmpty_iff]
    rw [Document.definitionAt?, name, Document.typeBlock?]
    split <;> rfl

end SchemaServer
