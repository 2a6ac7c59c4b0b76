import SchemaServer.Proofs.Rename.Lines

/-! A model or enum rename keeps the structure of a document: the same blocks with the same fields, but for the
new name and the line that the mapping takes. -/
namespace SchemaServer

open Text

variable {doc : Document} {pos : Position} {symbol : Symbol} {newName line : Text} {row : Nat}

namespace Symbol

def mappingEdit? (symbol : Symbol) (doc : Document) : Option Edit :=
  if symbol.needsMapping doc then symbol.mapping? doc else none

/-- The row of a line after a block rename: a mapping goes in above the closing line. -/
def rowAfter (symbol : Symbol) (doc : Document) (row : Nat) : Nat :=
  if (symbol.mappingEdit? doc).isSome ∧ symbol.block.stop.line ≤ row then row + 1 else row

/-- A block after the rename; `doc'` is the document with its new lines. -/
def blockAfter (symbol : Symbol) (newName : Text) (doc doc' : Document) (b : Block) : Block :=
  let stop := symbol.rowAfter doc b.stop.line
  { b with
    name := if b = symbol.block then newName else b.name
    start := ⟨symbol.rowAfter doc b.start.line, b.start.character⟩
    stop := ⟨stop, doc'.width stop⟩ }

def fieldAfter (symbol : Symbol) (newName : Text) (doc : Document) (field : Field) : Field :=
  ⟨field.name, if field.typeName = symbol.name then newName else field.typeName, symbol.rowAfter doc field.line⟩

def rewriting (symbol : Symbol) (doc : Document) (newName : Text) : Rewriting where
  line row line :=
    if (symbol.mappingEdit? doc).isSome ∧ row = symbol.block.stop.line then ['}']
    else Edit.applyOn ((symbol.rename doc newName).filter fun e => e.range.start.line = row) line
  title row name := if row = symbol.block.start.line then newName else name
  inserted := "\t@@map(\"".toList ++ symbol.name ++ "\")".toList
  above := (symbol.mappingEdit? doc).map fun _ => symbol.block.stop.line

theorem shift_rewriting (row : Nat) : (symbol.rewriting doc newName).shift row = symbol.rowAfter doc row := by
  unfold Rewriting.shift rewriting rowAfter
  cases symbol.mappingEdit? doc <;> simp

theorem above_rewriting : (symbol.rewriting doc newName).above = some row ↔
    (symbol.mappingEdit? doc).isSome ∧ row = symbol.block.stop.line := by
  unfold rewriting
  cases symbol.mappingEdit? doc <;> simp [eq_comm]

theorem mappingEdit?_eq_some {e : Edit} : symbol.mappingEdit? doc = some e ↔
    symbol.needsMapping doc = true ∧ symbol.mapping? doc = some e := by
  simp [mappingEdit?]

end Symbol

namespace Retitling

variable (retitling : Retitling symbol doc newName)

include retitling

/-- The closing line that a mapping goes in above. -/
theorem mapped_line (mapped : (symbol.mappingEdit? doc).isSome = true) :
    ∃ line, doc.line? symbol.block.stop.line = some line ∧ isClosing line = true ∧
      symbol.mappingEdit? doc = some ⟨.ofSpan symbol.block.stop.line line 0 (byteLength line),
        "\t@@map(\"".toList ++ symbol.name ++ "\")".toList ++ ['\n', '}']⟩ := by
  obtain ⟨e, edit⟩ := Option.isSome_iff_exists.mp mapped
  obtain ⟨ended, made⟩ := mapping?_blockName retitling.isName (Symbol.mappingEdit?_eq_some.mp edit).2
  have placed := Document.placed retitling.declared.member
  obtain ⟨-, line, there, closing⟩ := placed.closes ended
  have ends : symbol.block.stop = ⟨symbol.block.stop.line, unitLength line⟩ := by
    rw [← Document.width_eq there, ← placed.lineEnd]
  have range : Range.ofSpan symbol.block.stop.line line 0 (byteLength line) =
      ⟨⟨symbol.block.stop.line, 0⟩, symbol.block.stop⟩ := by
    have whole := ofSpan_append symbol.block.stop.line [] line []
    simp only [List.nil_append, List.append_nil] at whole
    rw [ends]
    simpa [byteLength, unitLength, total] using whole
  have text : "\")\n\x7d".toList = "\")".toList ++ ['\n', '}'] := by decide
  refine ⟨line, there, closing, ?_⟩
  rw [edit, made, range, text, ← List.append_assoc]

theorem unmapped_row {row : Nat} (unmapped : ¬ ((symbol.mappingEdit? doc).isSome ∧ row = symbol.block.stop.line)) :
    ∀ e, symbol.needsMapping doc = true → symbol.mapping? doc = some e → e.range.start.line ≠ row := by
  intro e needed made here
  have edit := Symbol.mappingEdit?_eq_some.mpr ⟨needed, made⟩
  obtain ⟨-, rfl⟩ := mapping?_blockName retitling.isName made
  exact unmapped ⟨by rw [edit]; rfl, here.symm⟩

theorem retitled_line (row : Nat) (line : Text) (there : doc.line? row = some line)
    (unmapped : ¬ ((symbol.mappingEdit? doc).isSome ∧ row = symbol.block.stop.line)) :
    Retitled symbol newName row line ((symbol.rewriting doc newName).line row line) := by
  simp only [Symbol.rewriting, if_neg unmapped]
  exact retitling.retitled_applyOn there (retitling.unmapped_row unmapped)

/-- The edits of a row make its new line, with the mapping above the closing line. -/
theorem rewriting_makes (there : doc.line? row = some line) :
    Edit.applyOn ((symbol.rename doc newName).filter fun e => e.range.start.line = row) line =
      (if (symbol.rewriting doc newName).above = some row
        then (symbol.rewriting doc newName).inserted ++ ['\n'] else []) ++
        (symbol.rewriting doc newName).line row line := by
  by_cases mapped : (symbol.mappingEdit? doc).isSome ∧ row = symbol.block.stop.line
  · obtain ⟨written, rfl⟩ := mapped
    obtain ⟨closing, there', closes, edit⟩ := retitling.mapped_line written
    obtain rfl := Option.some.inj (there.symm.trans there')
    have member : (⟨.ofSpan symbol.block.stop.line line 0 (byteLength line),
        "\t@@map(\"".toList ++ symbol.name ++ "\")".toList ++ ['\n', '}']⟩ : Edit) ∈
        symbol.rename doc newName := by
      rw [rename_blockName doc retitling.isName retitling.differ]
      exact List.mem_append_right _ (Option.mem_toList.mpr edit)
    have whole : line ≠ [] := by
      rintro rfl
      contradiction
    have nodup := nodup_rename retitling.declared retitling.isName retitling.differ
    have made := applyOn_row symbol.block.stop.line _ whole (show line = [] ++ line ++ [] by simp) nodup
      (by simpa [byteLength, total] using member)
    rw [made, if_pos (Symbol.above_rewriting.mpr ⟨written, rfl⟩)]
    simp [Symbol.rewriting, written]
  · rw [if_neg (mt Symbol.above_rewriting.mp mapped), List.nil_append]
    simp only [Symbol.rewriting, if_neg mapped]

theorem rewriting_writtenBy :
    (symbol.rewriting doc newName).WrittenBy doc (symbol.rename doc newName) := by
  have word := retitling.word
  have onRows := rename_onRow retitling.declared retitling.isName retitling.differ
  have lines := retitling.retitled_line
  refine ⟨?_, ?_, fun row line there => retitling.rewriting_makes there, ?_, ?_, ?_, ?_⟩
  · intro e member
    obtain ⟨row, line, -, onRow⟩ := onRows e member
    exact onRow.2.trans onRow.1.symm
  · intro e member
    obtain ⟨row, line, there, onRow⟩ := onRows e member
    rw [onRow.1]
    exact Document.lt_lineCount there
  · intro row line there
    by_cases mapped : (symbol.mappingEdit? doc).isSome ∧ row = symbol.block.stop.line
    · have closing : Unbroken ['}'] := ⟨by decide, by decide⟩
      simpa [Symbol.rewriting, mapped] using closing
    · exact (lines row line there mapped).unbroken word (Document.unbroken_line there)
  · intro row line there vanishes
    by_cases mapped : (symbol.mappingEdit? doc).isSome ∧ row = symbol.block.stop.line
    · simp [Symbol.rewriting, if_pos mapped] at vanishes
    · exact (lines row line there mapped).nonempty word vanishes
  · have front : Unbroken "\t@@map(\"".toList := ⟨by decide, by decide⟩
    have back : Unbroken "\")".toList := ⟨by decide, by decide⟩
    exact (front.append (retitling.known.word retitling.nonempty).unbroken).append back
  · exact List.append_ne_nil_of_right_ne_nil _ (by decide)

theorem words_inserted : words (symbol.rewriting doc newName).inserted =
    ["@@map(\"".toList ++ symbol.name ++ "\")".toList] := by
  have word : Word ("@@map(\"".toList ++ symbol.name ++ "\")".toList) :=
    (retitling.known.word retitling.nonempty).enclosed (solid_of_all (by decide)) (solid_of_all (by decide))
  have shape : (symbol.rewriting doc newName).inserted =
      ['\t'] ++ ("@@map(\"".toList ++ symbol.name ++ "\")".toList ++ []) := by
    have front : "\t@@map(\"".toList = '\t' :: "@@map(\"".toList := by decide
    rw [Symbol.rewriting, front, List.append_nil]
    rfl
  rw [shape, words_blank_append (blank_of_all (by decide)),
    words_word_append word (Blank.parted (by simp [Blank]))]
  rfl

theorem rewriting_keeps : (symbol.rewriting doc newName).Keeps doc := by
  have word := retitling.word
  have lines := retitling.retitled_line
  have single := retitling.words_inserted
  refine ⟨?_, ?_, ?_, ?_, ?_⟩
  · intro row line there
    by_cases mapped : (symbol.mappingEdit? doc).isSome ∧ row = symbol.block.stop.line
    · obtain ⟨written, rfl⟩ := mapped
      obtain ⟨closing, there', closes, -⟩ := retitling.mapped_line written
      obtain rfl := Option.some.inj (there.symm.trans there')
      have unopened : Header.ofLine? line = none := by
        rw [Option.eq_none_iff_forall_ne_some]
        intro header opens
        rw [isClosing_of_header opens] at closes
        contradiction
      have brace : Header.ofLine? ['}'] = none := by decide
      simp [Symbol.rewriting, written, unopened, brace]
    · exact (lines row line there mapped).header_eq word retitling.oldWord retitling.plain
  · intro row line there
    by_cases mapped : (symbol.mappingEdit? doc).isSome ∧ row = symbol.block.stop.line
    · obtain ⟨written, rfl⟩ := mapped
      obtain ⟨closing, there', closes, -⟩ := retitling.mapped_line written
      obtain rfl := Option.some.inj (there.symm.trans there')
      have brace : isClosing ['}'] = true := by decide
      simp [Symbol.rewriting, written, closes, brace]
    · exact (lines row line there mapped).isClosing_eq word retitling.oldWord
  · rw [isOpening, Option.isSome_eq_false_iff, Option.isNone_iff_eq_none, Option.eq_none_iff_forall_ne_some]
    intro header opens
    obtain ⟨keyword, -, -, two | three⟩ := Header.ofLine?_eq_some_iff_words.mp opens
    · simp [single] at two
    · simp [single] at three
  · rw [isClosing_eq, single]
    rfl
  · intro row above
    obtain ⟨written, rfl⟩ := Symbol.above_rewriting.mp above
    obtain ⟨line, there, closes, -⟩ := retitling.mapped_line written
    exact ⟨line, there, closes⟩

theorem block_rewriting (doc' : Document) {b : Block} (member : b ∈ doc.blocks) :
    (symbol.rewriting doc newName).block doc' b = symbol.blockAfter newName doc doc' b := by
  have same := Document.block_eq_iff member retitling.declared.member
  simp only [Rewriting.block, Symbol.shift_rewriting, Symbol.blockAfter]
  simp only [Symbol.rewriting, same]

theorem blocks_after (version : Int) :
    let doc' := Document.ofText (doc.apply (symbol.rename doc newName)) version
    doc'.blocks = doc.blocks.map (symbol.blockAfter newName doc doc') := by
  have written := retitling.rewriting_writtenBy
  have keeps := retitling.rewriting_keeps
  intro doc'
  rw [Rewriting.blocks_eq (written.carries version) keeps]
  exact List.map_congr_left fun b member => retitling.block_rewriting doc' member

end Retitling

namespace BlockRename

variable (rename : BlockRename symbol doc newName)

include rename

theorem renames_line (row : Nat) (line : Text) (there : doc.line? row = some line)
    (unmapped : ¬ ((symbol.mappingEdit? doc).isSome ∧ row = symbol.block.stop.line)) :
    Renames symbol doc newName row line ((symbol.rewriting doc newName).line row line) := by
  simp only [Symbol.rewriting, if_neg unmapped]
  exact rename.renames_applyOn there (rename.unmapped_row unmapped)

theorem fields_after (version : Int) (b : Block) (member : b ∈ doc.blocks) (model : b.kind = .model) :
    let doc' := Document.ofText (doc.apply (symbol.rename doc newName)) version
    (symbol.blockAfter newName doc doc' b).fields doc' = (b.fields doc).map (symbol.fieldAfter newName doc) := by
  have written := rename.rewriting_writtenBy
  have single := rename.words_inserted
  have placed := Document.placed member
  intro doc'
  rw [← rename.block_rewriting doc' member]
  refine Rewriting.fields_eq (written.carries version) ?_ ?_
  · intro row
    have marked : startsAttribute (symbol.rewriting doc newName).inserted = true := by
      rw [startsAttribute_eq, single]
      rfl
    rw [Field.ofLine?, marked]
    rfl
  · intro row line there inside
    have unmapped : ¬ ((symbol.mappingEdit? doc).isSome ∧ row = symbol.block.stop.line) := by
      rintro ⟨mapped, rfl⟩
      obtain ⟨closing, there', closes, -⟩ := rename.mapped_line mapped
      obtain rfl := Option.some.inj (there.symm.trans there')
      rw [placed.unclosed _ _ inside there] at closes
      contradiction
    have renames := rename.renames_line row line there unmapped
    rw [renames.field_eq there rename member model inside, Symbol.shift_rewriting]
    cases read : Field.ofLine? line row with
    | none => rfl
    | some field =>
      obtain ⟨-, -, rfl, -⟩ := Field.ofLine?_eq_some_iff.mp read
      rfl

end BlockRename

/-- Renaming a model or an enum changes lines one by one and keeps all blocks and fields, up to the new name
and the row that the mapping takes. -/
theorem rename_structure (found : doc.symbolAt? pos = some symbol) (isName : symbol.kind.isBlockName = true)
    (current : checkNewName symbol.name = .ok ()) (accepted : checkNewName newName = .ok ())
    (differ : newName ≠ symbol.name) (spelled : doc.SpellsType symbol.name) (version : Int) :
    let edits := doc.renameAt pos newName
    let doc' := Document.ofText (doc.apply edits) version
    (∀ e ∈ edits, e.OnLine) ∧ (edits.map fun e => e.range.start.line).Nodup ∧
      doc'.blocks = doc.blocks.map (symbol.blockAfter newName doc doc') ∧
      ∀ b ∈ doc.blocks, b.kind = .model → (symbol.blockAfter newName doc doc' b).fields doc' =
        (b.fields doc).map (symbol.fieldAfter newName doc) := by
  have rename := BlockRename.of_checks found isName current accepted differ spelled
  have edits : doc.renameAt pos newName = symbol.rename doc newName := by
    simp only [Document.renameAt, found]
  simp only [edits]
  exact ⟨rename.rewriting_writtenBy.onLine, nodup_rename rename.declared isName rename.differ,
    rename.blocks_after version, rename.fields_after version⟩

/-- An enum that a field names, with a mapping for the database. -/
theorem rename_structure_enum :
    let doc := Document.ofText "enum Role \x7b\n  USER\n\x7d\nmodel User \x7b\n  role Role?\n\x7d".toList 0
    let role : Symbol := ⟨.enum, "Role".toList, ⟨.enum, "Role".toList, ⟨0, 0⟩, ⟨2, 1⟩, true⟩, 0⟩
    let edited := doc.apply (doc.renameAt ⟨0, 6⟩ "Kind".toList)
    let doc' := Document.ofText edited 1
    doc.symbolAt? ⟨0, 6⟩ = some role ∧ doc.SpellsType role.name ∧
      edited = ("enum Kind \x7b\n  USER\n\t@@map(\"Role\")\n\x7d\n".toList ++
        "model User \x7b\n  role Kind?\n\x7d".toList) ∧
      doc'.blocks = doc.blocks.map (role.blockAfter "Kind".toList doc doc') ∧
      ∀ b ∈ doc.blocks, b.kind = .model → (role.blockAfter "Kind".toList doc doc' b).fields doc' =
        (b.fields doc).map (role.fieldAfter "Kind".toList doc) := by
  intro doc role edited doc'
  have found : doc.symbolAt? ⟨0, 6⟩ = some role := by decide +kernel
  have spelled : doc.SpellsType role.name := by decide +kernel
  have accepted : checkNewName "Kind".toList = .ok () := by decide +kernel
  have kept := rename_structure found rfl (by decide +kernel) accepted (by decide +kernel) spelled 1
  exact ⟨found, spelled, by decide +kernel, kept.2.2⟩

end SchemaServer
