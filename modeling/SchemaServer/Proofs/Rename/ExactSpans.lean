import SchemaServer.Proofs.Edit.Covers
import SchemaServer.Proofs.Rename.Mentions

/-! What the edits of a rename replace: the old name where nothing of an identifier touches it, the call around a
default value, the closing line of a block, or nothing at the end of a line. -/
namespace SchemaServer

open Text

variable {doc : Document} {pos : Position} {symbol : Symbol} {block : Block} {name newName : Text} {e : Edit}

/-! ## Each kind of edit -/

theorem Symbol.Declared.declaration (declared : symbol.Declared doc) : ∃ range,
    symbol.declaration? doc = some range ∧ range.start.line = symbol.line ∧ range.CoversWhole doc symbol.name := by
  by_cases isName : symbol.kind.isBlockName = true
  · obtain ⟨line, lead, keyword, gap, tail, there, written, -⟩ := (Document.placed declared.member).written
    obtain ⟨named, onLine⟩ := declared.opening isName
    rw [Symbol.declaration?, if_pos isName, named]
    exact ⟨_, Block.nameRange?_of_written there written, onLine.symm, Range.coversWhole_ofSpan there written.stands⟩
  · have noName := Bool.eq_false_iff.mpr isName
    obtain ⟨line, lead, rest, there, first⟩ := declared.firstWord noName
    exact ⟨_, Symbol.declaration?_of_firstWord noName there first, rfl,
      Range.coversWhole_ofSpan there first.stands⟩

theorem typeReferences_covers (member : e ∈ typeReferences name newName doc) : e.range.CoversWhole doc name := by
  obtain ⟨b, -, -, field, -, edit⟩ := mem_typeReferences_iff.mp member
  obtain ⟨-, line, _, _, n, there, -, found, rfl⟩ := typeEdit?_eq_some_iff.mp edit
  obtain ⟨_, before, after, -, -, rfl, stands⟩ := findIdentifier_sound found
  exact Range.coversWhole_ofSpan there stands

theorem fieldReferences_covers (member : e ∈ fieldReferences name newName doc block) :
    e.range.CoversWhole doc name := by
  obtain ⟨row, line, there, listed⟩ := mem_fieldReferences_iff.mp member
  obtain ⟨label, searched, n, found, rfl⟩ := mem_listEdits_iff.mp listed
  obtain ⟨wordy, plain⟩ := searchedLabels_plain searched
  obtain ⟨before, after, stands, rfl, -⟩ := placeInList?_stands wordy plain found
  exact Range.coversWhole_ofSpan there stands

theorem enumValueReferences_covers {enumName : Text} (member : e ∈ enumValueReferences name newName doc enumName) :
    ∃ before after, e.range.Covers doc before (defaultCall name) after := by
  rw [enumValueReferences_eq] at member
  obtain ⟨⟨line, row⟩, inRows, edit⟩ := List.mem_flatMap.mp member
  obtain ⟨before, after, parts, -, rfl⟩ := enumValueEdit?_eq_some (Option.mem_toList.mp edit)
  exact ⟨before, after, Range.covers_ofSpan (Document.mem_rows_iff.mp inRows) parts⟩

theorem blockMapping_covers (declared : symbol.Declared doc) (isName : symbol.kind.isBlockName = true)
    (mapping : symbol.mapping? doc = some e) : symbol.block.terminated = true ∧
      e.range.start.line = symbol.block.stop.line ∧ ∃ line, e.range.Covers doc [] line [] := by
  obtain ⟨ended, rfl⟩ := mapping?_blockName isName mapping
  have placed := Document.placed declared.member
  obtain ⟨-, line, there, -⟩ := placed.closes ended
  refine ⟨ended, rfl, line, by simpa using there, rfl, rfl, ?_⟩
  exact placed.lineEnd.trans (Document.width_eq there)

/-- The mapping of a field or an enum value goes in at the end of its line. -/
theorem lineMapping_covers (declared : symbol.Declared doc) (noName : symbol.kind.isBlockName = false)
    (mapping : symbol.mapping? doc = some e) :
    e.range.start.line = symbol.line ∧ ∃ line, e.range.Covers doc line [] [] := by
  obtain ⟨line, lead, rest, there, -⟩ := declared.firstWord noName
  rw [mapping?_of_line noName there] at mapping
  obtain rfl := Option.some.inj mapping
  exact ⟨rfl, line, by simpa using there, rfl, rfl, by simp⟩

/-! ## All edits of a rename -/

/-- What each edit of a rename covers: `declaration` is the first one and `mapping` what comes behind the
references. -/
structure Symbol.EditsCover (symbol : Symbol) (doc : Document) (newName : Text) (declaration : Edit)
    (mapping : Option Edit) : Prop where
  declares : symbol.declaration? doc = some declaration.range ∧ declaration.newText = newName
  declaration : declaration.range.start.line = symbol.line ∧ declaration.range.CoversWhole doc symbol.name
  names : symbol.kind ≠ .enumValue → ∀ e ∈ symbol.references newName doc, e.range.CoversWhole doc symbol.name
  defaults : symbol.kind = .enumValue → ∀ e ∈ symbol.references newName doc,
    ∃ before after, e.range.Covers doc before (defaultCall symbol.name) after
  blockMapping : symbol.kind.isBlockName = true → ∀ e ∈ mapping, symbol.block.terminated = true ∧
    e.range.start.line = symbol.block.stop.line ∧ ∃ line, e.range.Covers doc [] line []
  lineMapping : symbol.kind.isBlockName = false → ∀ e ∈ mapping,
    e.range.start.line = symbol.line ∧ ∃ line, e.range.Covers doc line [] []

theorem Symbol.Declared.editsCover (declared : symbol.Declared doc) (differ : symbol.name ≠ newName) :
    ∃ declaration mapping, symbol.rename doc newName =
        declaration :: symbol.references newName doc ++ Option.toList mapping ∧
      symbol.EditsCover doc newName declaration mapping := by
  obtain ⟨range, declares, onLine, covers⟩ := declared.declaration
  refine ⟨⟨range, newName⟩, if symbol.needsMapping doc then symbol.mapping? doc else none, ?_,
    ⟨declares, rfl⟩, ⟨onLine, covers⟩, ?_, ?_, ?_, ?_⟩
  · rw [Symbol.rename, if_neg differ, declares]
    rfl
  · intro other e member
    unfold Symbol.references at member
    split at member
    · exact fieldReferences_covers member
    · contradiction
    · exact typeReferences_covers member
    · exact typeReferences_covers member
  · intro value e member
    rw [Symbol.references, value] at member
    exact enumValueReferences_covers member
  · intro isName e member
    split at member
    · exact blockMapping_covers declared isName member
    · contradiction
  · intro noName e member
    split at member
    · exact lineMapping_covers declared noName member
    · contradiction

/-- A rename replaces exact spans: the declaration first, then the references, then the mapping. Without a symbol
under the cursor, and with the name that it has, it edits nothing. -/
theorem renameAt_covers (doc : Document) (pos : Position) (newName : Text) :
    (∀ e ∈ doc.renameAt pos newName, e.range.Within doc) ∧
      ((doc.renameAt pos newName = [] ∧ ∀ symbol, doc.symbolAt? pos = some symbol → symbol.name = newName) ∨
        ∃ symbol declaration mapping, doc.symbolAt? pos = some symbol ∧ symbol.name ≠ newName ∧
          doc.renameAt pos newName = declaration :: symbol.references newName doc ++ Option.toList mapping ∧
          symbol.EditsCover doc newName declaration mapping) := by
  unfold Document.renameAt
  cases found : doc.symbolAt? pos with
  | none => exact ⟨nofun, .inl ⟨rfl, nofun⟩⟩
  | some symbol =>
    by_cases same : symbol.name = newName
    · have none : symbol.rename doc newName = [] := if_pos same
      dsimp only
      rw [none]
      exact ⟨nofun, .inl ⟨rfl, fun other here => Option.some.inj here ▸ same⟩⟩
    · obtain ⟨declaration, mapping, edits, covers⟩ := (Document.symbolAt?_declared found).editsCover same
      refine ⟨fun e member => ?_, .inr ⟨symbol, declaration, mapping, rfl, same, edits, covers⟩⟩
      dsimp only at member
      rw [edits] at member
      rcases List.mem_append.mp member with front | last
      · rcases List.mem_cons.mp front with rfl | reference
        · exact covers.declaration.2.within
        · by_cases value : symbol.kind = .enumValue
          · obtain ⟨_, _, here⟩ := covers.defaults value e reference
            exact here.within
          · exact (covers.names value e reference).within
      · have last := Option.mem_toList.mp last
        by_cases isName : symbol.kind.isBlockName = true
        · obtain ⟨-, -, _, here⟩ := covers.blockMapping isName e last
          exact here.within
        · obtain ⟨-, _, here⟩ := covers.lineMapping (Bool.eq_false_iff.mpr isName) e last
          exact here.within

end SchemaServer
