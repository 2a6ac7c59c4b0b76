import SchemaServer.Proofs.Rename.BlockMapping

/-! Two renames of a block one behind the other write what one rename to the last name does, where no field has the
name between as its type. Each line is compared on its own: the second rename finds what the first one wrote. -/
namespace SchemaServer

open Text

variable {doc doc' : Document} {pos : Position} {symbol : Symbol} {between newName line new : Text} {row : Nat}
variable {b : Block}

namespace Rewriting

variable {w w' w'' : Rewriting} {edits edits' edits'' : List Edit} {version : Int}

/-- Two rewritings make the text of one, where they do so line by line and only the first inserts a line. -/
theorem WrittenBy.comp (first : w.WrittenBy doc edits) (made : doc' = .ofText (doc.apply edits) version)
    (second : w'.WrittenBy doc' edits') (flat : w'.above = none)
    (direct : w''.WrittenBy doc edits'') (above : w''.above = w.above) (inserted : w''.inserted = w.inserted)
    (lines : ∀ row line, doc.line? row = some line →
      w'.line (w.shift row) (w.line row line) = w''.line row line)
    (kept : ∀ row, w.above = some row → w'.line row w.inserted = w.inserted) :
    doc'.apply edits' = doc.apply edits'' := by
  subst made
  have rows := zipIdx_piecesOf w doc.pieces 0
  have start : ¬ w.above.any (· < 0) = true := by cases w.above <;> simp
  rw [if_neg start, ← first.pieces] at rows
  rw [second.text, direct.text, Document.pieces]
  refine congrArg (List.flatMap Piece.text) ?_
  change (Piece.ofText (doc.apply edits)).zipIdx.flatMap w'.piecesOf = _
  rw [rows, List.flatMap_assoc]
  have single : ∀ x, w'.piecesOf x = [⟨w'.line x.2 x.1.line, x.1.ending⟩] := by simp [piecesOf, flat]
  refine List.flatMap_congr fun x member => ?_
  rw [List.flatMap_append, List.flatMap_singleton, single, lines x.2 x.1.line (Document.line?_of_mem_pieces member),
    piecesOf, above, inserted]
  split
  · rename_i here
    rw [List.flatMap_singleton, single, kept x.2 here]
  · rfl

/-- No edits at all leave each line as it is. -/
theorem WrittenBy.unchanged (written : w.WrittenBy doc edits) :
    WrittenBy { w with line := fun _ line => line, above := none } doc [] where
  onLine := nofun
  inside := nofun
  makes := fun _ line _ => Edit.applyOn_nil line
  unbroken := fun _ _ there => Document.unbroken_line there
  stays := fun _ _ _ empty => empty
  insertedUnbroken := written.insertedUnbroken
  inserted := written.inserted

end Rewriting

namespace Renames

theorem eq_self (renames : Renames symbol doc symbol.name row line new) : new = line := by
  cases renames with
  | title start written keywordEq =>
    rw [written.parts]
    simp
  | typed member model inside read typeEq first second apart names =>
    rw [first.parts]
    simp
  | kept => rfl

theorem eq_applyOn (renames : Renames symbol doc newName row line new) (there : doc.line? row = some line)
    (retitling : Retitling symbol doc newName)
    (unmapped : ∀ e, symbol.needsMapping doc = true → symbol.mapping? doc = some e → e.range.start.line ≠ row) :
    new = Edit.applyOn ((symbol.rename doc newName).filter fun e => e.range.start.line = row) line := by
  cases renames with
  | title start written keywordEq => exact (retitling.applyOn_title there start written).symm
  | typed member model inside read typeEq first second apart names =>
    exact (retitling.applyOn_typed there member model inside read typeEq first second apart names).symm
  | kept start untyped => exact (retitling.applyOn_untyped there start untyped unmapped).symm

end Renames

/-- A rename of a block to a name that no field has as its type, and another rename of the block in the new text. -/
structure Twice (symbol : Symbol) (doc doc' : Document) (between newName : Text) : Prop where
  first : BlockRename symbol doc between
  made : ∃ version, doc' = .ofText (doc.apply (symbol.rename doc between)) version
  fresh : ∀ b ∈ doc.blocks, b.kind = .model → ∀ field ∈ b.fields doc, field.typeName ≠ between
  second : Retitling (symbol.after between doc doc') doc' newName

namespace Twice

variable (twice : Twice symbol doc doc' between newName)

include twice

theorem carries : (symbol.rewriting doc between).Carries doc doc' := by
  obtain ⟨version, rfl⟩ := twice.made
  exact twice.first.rewriting_writtenBy.carries version

theorem blocks_eq : doc'.blocks = doc.blocks.map (symbol.blockAfter between doc doc') := by
  obtain ⟨version, rfl⟩ := twice.made
  exact twice.first.blocks_after version

theorem unmapped : (symbol.after between doc doc').mappingEdit? doc' = none := by
  obtain ⟨version, rfl⟩ := twice.made
  exact twice.first.mappingEdit?_after version

theorem bodyContains_after (member : b ∈ doc.blocks) :
    (symbol.blockAfter between doc doc' b).bodyContains (symbol.rowAfter doc row) = b.bodyContains row := by
  have shifted : (symbol.rewriting doc between).shift row = symbol.rowAfter doc row := Symbol.shift_rewriting row
  rw [← twice.first.block_rewriting doc' member, ← shifted, Rewriting.bodyContains_shift]

theorem flat : ((symbol.after between doc doc').rewriting doc' newName).above = none := by
  simp [Symbol.rewriting, twice.unmapped]

/-- The second rename edits titles and type tokens only. -/
theorem line_eq (row : Nat) (line : Text) : ((symbol.after between doc doc').rewriting doc' newName).line row line =
    Edit.applyOn (((symbol.after between doc doc').rename doc' newName).filter fun e => e.range.start.line = row)
      line := by
  simp [Symbol.rewriting, twice.unmapped]

/-- The second rename keeps a line without the name. -/
theorem line_kept (there : doc'.line? row = some line) (start : row ≠ symbol.rowAfter doc symbol.block.start.line)
    (untyped : ∀ b ∈ doc'.blocks, b.kind = .model → b.bodyContains row = true →
      ∀ field, Field.ofLine? line row = some field → field.typeName ≠ between) :
    ((symbol.after between doc doc').rewriting doc' newName).line row line = line := by
  rw [twice.line_eq]
  refine twice.second.applyOn_untyped there start untyped fun e needed mapping => ?_
  have written := Symbol.mappingEdit?_eq_some.mpr ⟨needed, mapping⟩
  rw [twice.unmapped] at written
  contradiction

/-- The second rename makes of a renamed line what one rename to the last name makes of the line. -/
theorem renames_line (there : doc.line? row = some line) (renames : Renames symbol doc between row line new)
    (there' : doc'.line? (symbol.rowAfter doc row) = some new) : Renames symbol doc newName row line
      (((symbol.after between doc doc').rewriting doc' newName).line (symbol.rowAfter doc row) new) := by
  have word := twice.first.word
  have plain := twice.first.plain
  cases renames with
  | title start written keywordEq =>
    rw [twice.line_eq, twice.second.applyOn_title there' (congrArg _ start) (written.retitled word)]
    exact .title start written keywordEq
  | typed member model inside read typeEq first second apart names =>
    rename_i b field lead name gap markers rest
    have again := (Renames.typed member model inside read typeEq first second apart names).field_eq there twice.first
      member model inside (symbol.rowAfter doc row)
    rw [read, Option.map_some, if_pos typeEq] at again
    have member' : symbol.blockAfter between doc doc' b ∈ doc'.blocks := by
      rw [twice.blocks_eq]
      exact List.mem_map_of_mem member
    have solid : Word (between ++ markers) :=
      word.enclosed (s := []) (by simp) fun c inside => second.solid.2 c (List.mem_append_right _ inside)
    have second' : FirstWord (gap ++ (between ++ markers) ++ rest) gap (between ++ markers) rest :=
      ⟨rfl, second.blank, solid, second.parted⟩
    have first' : FirstWord (lead ++ name ++ gap ++ between ++ (markers ++ rest)) lead name
        (gap ++ (between ++ markers) ++ rest) :=
      ⟨by simp, first.blank, first.solid, by rw [List.append_assoc]; exact parted_gap second.blank apart _⟩
    have names' : stripTypeModifiers (between ++ markers) = between := by
      rw [stripTypeModifiers_append plain, (modifiers_of_strip twice.first.known names).1, List.append_nil]
    rw [twice.line_eq, twice.second.applyOn_typed there' member' model (twice.bodyContains_after member ▸ inside)
      again rfl first' second' apart names']
    exact .typed member model inside read typeEq first second apart names
  | kept start untyped =>
    rw [twice.line_kept there' ?_ ?_]
    · exact .kept start untyped
    · exact mt Symbol.rowAfter_inj.mp start
    · intro b' member' model inside field read
      rw [twice.blocks_eq] at member'
      obtain ⟨b, member, rfl⟩ := List.mem_map.mp member'
      rw [twice.bodyContains_after member] at inside
      rw [Field.ofLine?_row line row] at read
      obtain ⟨was, readWas, rfl⟩ := Option.map_eq_some_iff.mp read
      obtain ⟨-, -, rfl, -⟩ := Field.ofLine?_eq_some_iff.mp readWas
      exact twice.fresh b member model was (Block.mem_fields_iff.mpr ⟨line, there, inside, readWas⟩)

/-- The closing line below a mapping and the mapping itself hold no name that the second rename looks for. -/
theorem line_mapped (mapped : (symbol.mappingEdit? doc).isSome = true) :
    ((symbol.after between doc doc').rewriting doc' newName).line (symbol.rowAfter doc symbol.block.stop.line) ['}'] =
        ['}'] ∧
      ((symbol.after between doc doc').rewriting doc' newName).line symbol.block.stop.line
        (symbol.rewriting doc between).inserted = (symbol.rewriting doc between).inserted := by
  have retitling := twice.first.toRetitling
  obtain ⟨closing, there, -⟩ := retitling.mapped_line mapped
  have ended := ((Symbol.mappingEdit?_isSome_iff retitling.isName).mp mapped).2
  have below := ((Document.placed retitling.declared.member).closes ended).1
  have start := retitling.rowAfter_start
  have stop : symbol.rowAfter doc symbol.block.stop.line = symbol.block.stop.line + 1 :=
    if_pos ⟨mapped, Nat.le_refl _⟩
  constructor
  · have brace := Rewriting.line?_shift twice.carries there
    have closing : (symbol.rewriting doc between).line symbol.block.stop.line closing = ['}'] := if_pos ⟨mapped, rfl⟩
    rw [Symbol.shift_rewriting, closing] at brace
    refine twice.line_kept brace (by omega) fun b member model inside => ?_
    have unclosed := (Block.unopened_body member inside brace).2
    contradiction
  · have above : (symbol.rewriting doc between).above = some symbol.block.stop.line :=
      Symbol.above_rewriting.mpr ⟨mapped, rfl⟩
    refine twice.line_kept ((Rewriting.line?_iff twice.carries).mpr ⟨_, closing, there, .inl ⟨above, rfl, rfl⟩⟩)
      (by omega) fun b member model inside field read => ?_
    have unmarked := (Field.ofLine?_eq_some_iff.mp read).1
    rw [startsAttribute_eq, retitling.words_inserted] at unmarked
    contradiction

/-- Two renames make the text of one rename to the last name. -/
theorem apply_eq (direct : BlockRename symbol doc newName) :
    doc'.apply ((symbol.after between doc doc').rename doc' newName) = doc.apply (symbol.rename doc newName) := by
  obtain ⟨version, made⟩ := twice.made
  refine twice.first.rewriting_writtenBy.comp made twice.second.rewriting_writtenBy twice.flat
    direct.rewriting_writtenBy rfl rfl ?_ ?_
  · intro row line there
    have there' := Rewriting.line?_shift twice.carries there
    rw [Symbol.shift_rewriting] at there' ⊢
    by_cases mapped : (symbol.mappingEdit? doc).isSome ∧ row = symbol.block.stop.line
    · obtain ⟨written, rfl⟩ := mapped
      simpa [Symbol.rewriting, written] using (twice.line_mapped written).1
    · have once := twice.first.renames_line row line there mapped
      rw [(twice.renames_line there once there').eq_applyOn there direct.toRetitling (direct.unmapped_row mapped)]
      simp only [Symbol.rewriting, if_neg mapped]
  · intro row above
    obtain ⟨written, rfl⟩ := Symbol.above_rewriting.mp above
    exact (twice.line_mapped written).2

end Twice

/-- A second rename back to the first name restores the text, where the first one writes no mapping. -/
theorem Twice.apply_back (twice : Twice symbol doc doc' between symbol.name)
    (unwritten : symbol.mappingEdit? doc = none) :
    doc'.apply ((symbol.after between doc doc').rename doc' symbol.name) = doc.text := by
  obtain ⟨version, made⟩ := twice.made
  have first := twice.first.rewriting_writtenBy
  have flat : (symbol.rewriting doc between).above = none := by simp [Symbol.rewriting, unwritten]
  have same : doc.apply [] = doc.text := Change.apply_nil doc.text
  rw [← same]
  refine first.comp made twice.second.rewriting_writtenBy twice.flat first.unchanged flat.symm rfl ?_ ?_
  · intro row line there
    have there' := Rewriting.line?_shift twice.carries there
    rw [Symbol.shift_rewriting] at there' ⊢
    have once := twice.first.renames_line row line there (by simp [unwritten])
    exact (twice.renames_line there once there').eq_self
  · intro row above
    rw [flat] at above
    contradiction

/-- Renaming a model or an enum twice makes the text of one rename to the last name, where no model field has the
name between as its type; renaming it back restores the text of a block that takes no mapping. -/
theorem rename_compose (found : doc.symbolAt? pos = some symbol) (isName : symbol.kind.isBlockName = true)
    (current : checkNewName symbol.name = .ok ()) (spelled : doc.SpellsType symbol.name)
    (accepted : checkNewName between = .ok ()) (differ : between ≠ symbol.name)
    (fresh : ∀ b ∈ doc.blocks, b.kind = .model → ∀ field ∈ b.fields doc, field.typeName ≠ between) (version : Int) :
    let doc' := Document.ofText (doc.apply (doc.renameAt pos between)) version
    (∀ newName, checkNewName newName = .ok () → newName ≠ symbol.name → newName ≠ between →
      doc'.apply (doc'.renameAt pos newName) = doc.apply (doc.renameAt pos newName)) ∧
    ((∃ x ∈ symbol.block.body doc, isBlockMapping x.1 = true) ∨ symbol.block.terminated = false →
      doc'.apply (doc'.renameAt pos symbol.name) = doc.text) := by
  have first := BlockRename.of_checks found isName current accepted differ spelled
  have edits : ∀ name, doc.renameAt pos name = symbol.rename doc name := by
    simp [Document.renameAt, found]
  intro doc'
  have made : doc' = .ofText (doc.apply (symbol.rename doc between)) version := by
    rw [← edits between]
  have found' : doc'.symbolAt? pos = some (symbol.after between doc doc') := by
    rw [made]
    exact first.symbolAt?_after found version
  have edits' : ∀ name, doc'.renameAt pos name = (symbol.after between doc doc').rename doc' name := by
    simp [Document.renameAt, found']
  have twice : ∀ name, checkNewName name = .ok () → name ≠ between → Twice symbol doc doc' between name :=
    fun name checked other => ⟨first, ⟨version, made⟩, fresh, .of_checks found' isName accepted checked other⟩
  constructor
  · intro newName checked other fromBetween
    rw [edits, edits']
    exact (twice newName checked fromBetween).apply_eq (.of_checks found isName current checked other spelled)
  · intro anchored
    rw [edits']
    refine (twice symbol.name current differ.symm).apply_back ?_
    rw [← Option.not_isSome_iff_eq_none, Symbol.mappingEdit?_isSome_iff isName]
    rintro ⟨bare, ended⟩
    rcases anchored with ⟨x, member, maps⟩ | open'
    · exact List.ne_nil_of_mem (List.mem_filter.mpr ⟨member, maps⟩) bare
    · rw [ended] at open'
      contradiction

/-- A model with a mapping and a field of its own type, and an enum without a mapping. -/
theorem rename_compose_model :
    let doc := Document.ofText ("model A \x7b\n  up A?\n  role Role[]\n  @@map(\"a\")\n\x7d\n".toList ++
      "enum Role \x7b\n  USER\n\x7d".toList) 0
    let a : Symbol := ⟨.model, "A".toList, ⟨.model, "A".toList, ⟨0, 0⟩, ⟨4, 1⟩, true⟩, 0⟩
    let role : Symbol := ⟨.enum, "Role".toList, ⟨.enum, "Role".toList, ⟨5, 0⟩, ⟨7, 1⟩, true⟩, 5⟩
    let doc' := Document.ofText (doc.apply (doc.renameAt ⟨0, 7⟩ "B".toList)) 1
    let doc'' := Document.ofText (doc.apply (doc.renameAt ⟨5, 6⟩ "Kind".toList)) 1
    doc.symbolAt? ⟨0, 7⟩ = some a ∧ doc.symbolAt? ⟨5, 6⟩ = some role ∧
      doc'.apply (doc'.renameAt ⟨0, 7⟩ "C".toList) = doc.apply (doc.renameAt ⟨0, 7⟩ "C".toList) ∧
      doc'.apply (doc'.renameAt ⟨0, 7⟩ "A".toList) = doc.text ∧
      doc''.apply (doc''.renameAt ⟨5, 6⟩ "Rank".toList) = doc.apply (doc.renameAt ⟨5, 6⟩ "Rank".toList) := by
  intro doc a role doc' doc''
  have foundA : doc.symbolAt? ⟨0, 7⟩ = some a := by decide +kernel
  have foundRole : doc.symbolAt? ⟨5, 6⟩ = some role := by decide +kernel
  have accepted : checkNewName "B".toList = .ok () := by decide +kernel
  have accepted' : checkNewName "Kind".toList = .ok () := by decide +kernel
  obtain ⟨model, back⟩ := rename_compose foundA rfl (by decide +kernel) (by decide +kernel) accepted
    (by decide +kernel) (by decide +kernel) 1
  obtain ⟨enum, -⟩ := rename_compose foundRole rfl (by decide +kernel) (by decide +kernel) accepted'
    (by decide +kernel) (by decide +kernel) 1
  have mapped : ∃ x ∈ a.block.body doc, isBlockMapping x.1 = true := by decide +kernel
  exact ⟨foundA, foundRole, model "C".toList (by decide +kernel) (by decide) (by decide), back (.inl mapped),
    enum "Rank".toList (by decide +kernel) (by decide) (by decide)⟩

end SchemaServer
