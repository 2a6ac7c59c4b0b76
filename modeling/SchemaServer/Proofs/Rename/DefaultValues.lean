import SchemaServer.Proofs.Edit.Covers
import SchemaServer.Proofs.Rename.Mentions

/-! Which default values a rename of an enum value edits. The type of the field plays no part: it is enough that
the enum stands somewhere on the line, also as the name of the field, in another attribute or in a comment. -/
namespace SchemaServer

open Text

variable {doc : Document} {symbol : Symbol} {field : Field} {name enumName newName line : Text} {row : Nat} {e : Edit}

/-- A field of a model has a default value `name` on its line. -/
structure DefaultsTo (doc : Document) (field : Field) (name line : Text) : Prop where
  owned : ∃ b ∈ doc.blocks, b.kind = .model ∧ field ∈ b.fields doc
  there : doc.line? field.line = some line
  call : defaultCall name <:+: line

/-- `e` writes a default value `newName` over the first default value `name` of a row. -/
structure DefaultEdited (doc : Document) (name newName : Text) (row : Nat) (e : Edit) : Prop where
  text : e.newText = defaultCall newName
  row : e.range.start.line = row
  first : ∃ before after, e.range.Covers doc before (defaultCall name) after ∧
    ∀ front back, before ++ defaultCall name ++ after = front ++ defaultCall name ++ back →
      before.length ≤ front.length

/-- The edits of the symbol's references on one row. -/
def Symbol.referencesOn (symbol : Symbol) (newName : Text) (doc : Document) (row : Nat) : List Edit :=
  (symbol.references newName doc).filter fun e => e.range.start.line = row

/-! ## One line -/

/-- A line with a default value is edited where the enum stands on it. -/
theorem enumValueEdit?_isSome_iff (identifier : isIdentifier enumName = true) (call : defaultCall name <:+: line) :
    (enumValueEdit? name newName enumName (line, row)).isSome = true ↔
      ∃ before after, Stands enumName before after line := by
  obtain ⟨nonempty, identifying⟩ := isIdentifier_parts identifier
  obtain ⟨⟨before, found⟩, split⟩ := Option.isSome_iff_exists.mp (mentions_iff.mpr call)
  rw [← findIdentifier_isSome_iff identifying nonempty, enumValueEdit?, split]
  cases findIdentifier line enumName 0 <;> rfl

theorem enumValueEdit?_defaultEdited (there : doc.line? row = some line)
    (edit : enumValueEdit? name newName enumName (line, row) = some e) : DefaultEdited doc name newName row e := by
  obtain ⟨before, after, parts, first, rfl⟩ := enumValueEdit?_eq_some edit
  exact ⟨rfl, rfl, before, after, Range.covers_ofSpan there parts, fun front back whole =>
    first front back (parts.trans whole)⟩

/-! ## The rename -/

/-- The enum stands on the line of a field whose type token starts with it. -/
theorem DefaultsTo.stands_of_type (defaults : DefaultsTo doc field name line)
    (identifier : isIdentifier enumName = true) (spelled : doc.SpellsType enumName)
    (typed : field.typeName = enumName) : ∃ before after, Stands enumName before after line := by
  obtain ⟨b, member, model, owned⟩ := defaults.owned
  obtain ⟨line', lead, gap, markers, rest, there, token⟩ := spelled.exists_token member model owned typed
  obtain rfl := Option.some.inj (defaults.there.symm.trans there)
  exact ⟨_, _, token.stands (isIdentifier_parts identifier).2⟩

/-- When a rename of an enum value follows the types of fields: where the enum stands on the line, the first
default value of the line is edited and nothing else. -/
theorem defaultValue_renamed_iff (kind : symbol.kind = .enumValue) (identifier : isIdentifier symbol.block.name = true)
    (defaults : DefaultsTo doc field symbol.name line) (newName : Text) :
    (symbol.referencesOn newName doc field.line = [] ∨ ∃ e, symbol.referencesOn newName doc field.line = [e] ∧
        DefaultEdited doc symbol.name newName field.line e) ∧
      ((symbol.referencesOn newName doc field.line ≠ [] ↔ field.typeName = symbol.block.name) ↔
        ((∃ before after, Stands symbol.block.name before after line) ↔ field.typeName = symbol.block.name)) := by
  have onRow : symbol.referencesOn newName doc field.line =
      (enumValueEdit? symbol.name newName symbol.block.name (line, field.line)).toList := by
    rw [Symbol.referencesOn, Symbol.references, kind]
    exact filter_row_enumValueReferences defaults.there
  have named : (enumValueEdit? symbol.name newName symbol.block.name (line, field.line)).isSome = true ↔
      ∃ before after, Stands symbol.block.name before after line :=
    enumValueEdit?_isSome_iff identifier defaults.call
  rw [onRow, ← named]
  cases edit : enumValueEdit? symbol.name newName symbol.block.name (line, field.line) with
  | none => simp
  | some e => simpa using enumValueEdit?_defaultEdited defaults.there edit

/-- The default value of a field of the enum. -/
theorem defaultValue_renamed_iff_role :
    let doc := Document.ofText ("enum Role \x7b\n  USER\n\x7d\n".toList ++
      "model User \x7b\n  role Role? @default(USER)\n\x7d\n".toList) 0
    let user : Symbol := ⟨.enumValue, "USER".toList, ⟨.enum, "Role".toList, ⟨0, 0⟩, ⟨2, 1⟩, true⟩, 1⟩
    let role : Field := ⟨"role".toList, "Role".toList, 4⟩
    let line := "  role Role? @default(USER)".toList
    user.kind = .enumValue ∧ isIdentifier user.block.name = true ∧ DefaultsTo doc role user.name line ∧
      (user.referencesOn "MEMBER".toList doc role.line ≠ [] ↔ role.typeName = user.block.name) := by
  intro doc user role line
  have identifier : isIdentifier user.block.name = true := by decide +kernel
  have owned : ∃ b ∈ doc.blocks, b.kind = .model ∧ role ∈ b.fields doc := by decide +kernel
  have defaults : DefaultsTo doc role user.name line :=
    ⟨owned, by decide +kernel, mentions_iff.mp (by decide +kernel)⟩
  have named := defaults.stands_of_type identifier (by decide +kernel) rfl
  exact ⟨rfl, identifier, defaults, (defaultValue_renamed_iff rfl identifier defaults _).2.mpr (iff_of_true named rfl)⟩

/-- The default value of a field of another enum with a value of the same name is edited too, since a comment
mentions the enum. -/
theorem defaultValue_renamed_other_enum :
    let doc := Document.ofText ("enum Role \x7b\n  USER\n\x7d\nenum Level \x7b\n  USER\n\x7d\n".toList ++
      "model User \x7b\n  level Level @default(USER) // see Role\n\x7d\n".toList) 0
    let user : Symbol := ⟨.enumValue, "USER".toList, ⟨.enum, "Role".toList, ⟨0, 0⟩, ⟨2, 1⟩, true⟩, 1⟩
    let other : Symbol := ⟨.enumValue, "USER".toList, ⟨.enum, "Level".toList, ⟨3, 0⟩, ⟨5, 1⟩, true⟩, 4⟩
    let level : Field := ⟨"level".toList, "Level".toList, 7⟩
    let line := "  level Level @default(USER) // see Role".toList
    doc.symbolAt? ⟨1, 3⟩ = some user ∧ doc.symbolAt? ⟨4, 3⟩ = some other ∧ level.typeName = other.block.name ∧
      isIdentifier user.name = true ∧ isIdentifier user.block.name = true ∧ checkNewName "MEMBER".toList = .ok () ∧
      DefaultsTo doc level user.name line ∧
      ¬ (user.referencesOn "MEMBER".toList doc level.line ≠ [] ↔ level.typeName = user.block.name) := by
  intro doc user other level line
  have owned : ∃ b ∈ doc.blocks, b.kind = .model ∧ level ∈ b.fields doc := by decide +kernel
  exact ⟨by decide +kernel, by decide +kernel, rfl, by decide +kernel, by decide +kernel, by decide +kernel,
    ⟨owned, by decide +kernel, mentions_iff.mp (by decide +kernel)⟩, by decide +kernel⟩

end SchemaServer
