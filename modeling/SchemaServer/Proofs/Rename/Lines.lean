import SchemaServer.Proofs.Edit.Rewriting
import SchemaServer.Proofs.Rename.TypeReferences

/-! What a model or enum rename makes of each line: the opening line with the new name, a line that refers to
the name with the new one, or the line as it was. Where type tokens start with the name they refer to, the
lines that refer to it are the fields of that type. -/
namespace SchemaServer

open Text

variable {doc : Document} {symbol : Symbol} {newName line new : Text} {row : Nat} {b : Block} {e : Edit}
variable {edits : List Edit} {field : Field}

/-- A model or an enum takes another identifier as its name. -/
structure Retitling (symbol : Symbol) (doc : Document) (newName : Text) : Prop where
  declared : symbol.Declared doc
  isName : symbol.kind.isBlockName = true
  differ : symbol.name ≠ newName
  known : Identifying symbol.name
  nonempty : symbol.name ≠ []
  plain : Identifying newName
  filled : newName ≠ []

/-- A rename of a model or an enum from one identifier to another, where type tokens start with the old one. -/
structure BlockRename (symbol : Symbol) (doc : Document) (newName : Text) : Prop
    extends Retitling symbol doc newName where
  spelled : doc.SpellsType symbol.name

/-- What a retitling makes of a line, other than the closing line that takes the mapping. -/
inductive Retitled (symbol : Symbol) (newName : Text) (row : Nat) (line : Text) : Text → Prop
  | title {lead keyword gap tail kind} : row = symbol.block.start.line →
      Header.Written line lead keyword gap symbol.name tail → BlockKind.ofKeyword? keyword = some kind →
      Retitled symbol newName row line (lead ++ keyword ++ gap ++ newName ++ tail)
  | reference {lead name front back} : row ≠ symbol.block.start.line → isOpening line = false →
      startsAttribute line = false → FirstWord line lead name (front ++ symbol.name ++ back) →
      Retitled symbol newName row line (lead ++ name ++ (front ++ newName ++ back))
  | kept : row ≠ symbol.block.start.line → Retitled symbol newName row line line

/-- What a rename of `symbol` makes of a line, other than the closing line that takes the mapping. -/
inductive Renames (symbol : Symbol) (doc : Document) (newName : Text) (row : Nat) (line : Text) : Text → Prop
  | title {lead keyword gap tail kind} : row = symbol.block.start.line →
      Header.Written line lead keyword gap symbol.name tail → BlockKind.ofKeyword? keyword = some kind →
      Renames symbol doc newName row line (lead ++ keyword ++ gap ++ newName ++ tail)
  | typed {b field lead name gap markers rest} : b ∈ doc.blocks → b.kind = .model →
      b.bodyContains row = true → Field.ofLine? line row = some field → field.typeName = symbol.name →
      FirstWord line lead name (gap ++ (symbol.name ++ markers) ++ rest) →
      FirstWord (gap ++ (symbol.name ++ markers) ++ rest) gap (symbol.name ++ markers) rest → gap ≠ [] →
      stripTypeModifiers (symbol.name ++ markers) = symbol.name →
      Renames symbol doc newName row line (lead ++ name ++ gap ++ newName ++ (markers ++ rest))
  | kept : row ≠ symbol.block.start.line →
      (∀ b ∈ doc.blocks, b.kind = .model → b.bodyContains row = true →
        ∀ field, Field.ofLine? line row = some field → field.typeName ≠ symbol.name) →
      Renames symbol doc newName row line line

/-! ## The edits of one row -/

variable {lead keyword name gap markers rest tail : Text}

theorem filter_row_of_mem (nodup : (edits.map fun e => e.range.start.line).Nodup) (member : e ∈ edits) :
    (edits.filter fun f => f.range.start.line = e.range.start.line) = [e] := by
  obtain ⟨front, back, rfl⟩ := List.append_of_mem member
  rw [List.map_append, List.map_cons, List.nodup_append, List.nodup_cons] at nodup
  obtain ⟨-, ⟨later, -⟩, apart⟩ := nodup
  have silent : ∀ fs : List Edit, (∀ f ∈ fs, f.range.start.line ≠ e.range.start.line) →
      (fs.filter fun f => f.range.start.line = e.range.start.line) = [] := by
    intro fs other
    simpa [List.filter_eq_nil_iff] using other
  rw [List.filter_append, List.filter_cons_of_pos (by simp), silent front, silent back, List.nil_append]
  · exact fun f inBack same => later (List.mem_map.mpr ⟨f, inBack, same⟩)
  · exact fun f inFront same => apart _ (List.mem_map_of_mem inFront) _ List.mem_cons_self same

theorem applyOn_row {before old after : Text} (row : Nat) (new : Text) (nonempty : old ≠ [])
    (parts : line = before ++ old ++ after) (nodup : (edits.map fun e => e.range.start.line).Nodup)
    (member : ⟨.ofSpan row line (byteLength before) (byteLength before + byteLength old), new⟩ ∈ edits) :
    Edit.applyOn (edits.filter fun e => e.range.start.line = row) line = before ++ new ++ after := by
  have single : (edits.filter fun e => e.range.start.line = row) =
      [⟨.ofSpan row line (byteLength before) (byteLength before + byteLength old), new⟩] :=
    filter_row_of_mem nodup member
  rw [single]
  exact Edit.applyOn_ofSpan nonempty parts

/-- A model body line declares no block. -/
theorem Block.unopened_body (member : b ∈ doc.blocks) (inside : b.bodyContains row = true)
    (there : doc.line? row = some line) : isOpening line = false ∧ isClosing line = false := by
  have placed := Document.placed member
  have bounds := bodyContains_bounds inside
  exact ⟨placed.unopened row line bounds.1 bounds.2 there, placed.unclosed row line inside there⟩

namespace Retitling

theorem of_checks {pos : Position} (found : doc.symbolAt? pos = some symbol)
    (isName : symbol.kind.isBlockName = true) (current : checkNewName symbol.name = .ok ())
    (accepted : checkNewName newName = .ok ()) (differ : newName ≠ symbol.name) :
    Retitling symbol doc newName :=
  ⟨Document.symbolAt?_declared found, isName, Ne.symm differ, (checkNewName_ok current).2,
    (checkNewName_ok current).1, (checkNewName_ok accepted).2, (checkNewName_ok accepted).1⟩

theorem word (retitling : Retitling symbol doc newName) : Word newName := retitling.plain.word retitling.filled

theorem oldWord (retitling : Retitling symbol doc newName) : Word symbol.name :=
  retitling.known.word retitling.nonempty

section Row

variable (retitling : Retitling symbol doc newName) (there : doc.line? row = some line)

include retitling there

theorem applyOn_title (start : row = symbol.block.start.line)
    (written : Header.Written line lead keyword gap symbol.name tail) :
    Edit.applyOn ((symbol.rename doc newName).filter fun e => e.range.start.line = row) line =
      lead ++ keyword ++ gap ++ newName ++ tail := by
  subst start
  have named := (retitling.declared.opening retitling.isName).1
  have range := Block.nameRange?_of_written there (named ▸ written)
  rw [← named] at range
  have parts : line = lead ++ keyword ++ gap ++ symbol.name ++ tail := by
    rw [written.parts]
    simp
  exact applyOn_row _ newName written.word.1 parts
    (nodup_rename retitling.declared retitling.isName retitling.differ)
    (title_mem_rename retitling.isName retitling.differ range)

theorem written_title (start : row = symbol.block.start.line) : ∃ lead keyword gap tail,
    Header.Written line lead keyword gap symbol.name tail ∧
      BlockKind.ofKeyword? keyword = some symbol.block.kind := by
  subst start
  obtain ⟨first, lead, keyword, gap, tail, startLine, written, keywordEq⟩ :=
    (Document.placed retitling.declared.member).written
  obtain rfl := Option.some.inj (there.symm.trans startLine)
  rw [← (retitling.declared.opening retitling.isName).1] at written
  exact ⟨lead, keyword, gap, tail, written, keywordEq⟩

theorem ne_start_of_unopened (unopened : isOpening line = false) : row ≠ symbol.block.start.line := by
  rintro rfl
  obtain ⟨first, opensLine, opens⟩ := (Document.placed retitling.declared.member).opens
  obtain rfl := Option.some.inj (there.symm.trans opensLine)
  simp [isOpening, opens] at unopened

theorem retitled_reference (member : b ∈ doc.blocks) (model : b.kind = .model) (owned : field ∈ b.fields doc)
    (here : field.line = row) (edit : typeEdit? doc symbol.name newName field = some e) :
    Retitled symbol newName row line (Edit.applyOn
      ((symbol.rename doc newName).filter fun e => e.range.start.line = row) line) := by
  subst here
  have listed := mem_typeReferences_iff.mpr ⟨b, member, model, field, owned, edit⟩
  obtain ⟨-, line', start, nameEnd, n, there', span, found, rfl⟩ := typeEdit?_eq_some_iff.mp edit
  obtain rfl := Option.some.inj (there.symm.trans there')
  obtain ⟨line', there', inside, read⟩ := Block.mem_fields_iff.mp owned
  obtain rfl := Option.some.inj (there.symm.trans there')
  obtain ⟨unmarked, -, -, token, ws, two, -⟩ := Field.ofLine?_eq_some_iff.mp read
  obtain ⟨lead, rest, first, -⟩ := words_eq_cons two
  obtain ⟨unopened, -⟩ := Block.unopened_body member inside there
  obtain ⟨-, rfl⟩ : byteLength lead = start ∧ byteLength lead + byteLength field.name = nameEnd := by
    simpa [first.span] using span
  obtain ⟨reached, before, back, reach, size, rfl, stands⟩ := findIdentifier_sound found
  have aligned : lead ++ field.name <+: before := by
    refine prefix_of_total_le Char.utf8Size_pos (s := line) ⟨rest, first.parts.symm⟩
      ⟨symbol.name ++ back, by rw [stands.parts, List.append_assoc]⟩ ?_
    change byteLength (lead ++ field.name) ≤ byteLength before
    rw [byteLength_append, ← size]
    exact total_le_of_prefix _ reach
  obtain ⟨front, rfl⟩ := aligned
  have restEq : rest = front ++ symbol.name ++ back := by
    have whole := first.parts.symm.trans stands.parts
    simpa using whole
  subst restEq
  have made := applyOn_row field.line newName retitling.nonempty stands.parts
    (nodup_rename retitling.declared retitling.isName retitling.differ)
    (typeReference_mem_rename retitling.isName retitling.differ listed)
  rw [made, List.append_assoc (lead ++ field.name), List.append_assoc (lead ++ field.name)]
  exact .reference (retitling.ne_start_of_unopened there unopened) unopened unmarked first

omit there in
theorem filter_row_unreferenced (start : row ≠ symbol.block.start.line)
    (unreferenced : ∀ e ∈ typeReferences symbol.name newName doc, e.range.start.line ≠ row)
    (unmapped : ∀ e, symbol.needsMapping doc = true → symbol.mapping? doc = some e → e.range.start.line ≠ row) :
    ((symbol.rename doc newName).filter fun e => e.range.start.line = row) = [] := by
  simp only [List.filter_eq_nil_iff, decide_eq_true_eq]
  intro e member here
  rw [rename_blockName doc retitling.isName retitling.differ] at member
  rcases List.mem_append.mp member with member | mapping
  · rcases List.mem_append.mp member with title | reference
    · exact start (here.symm.trans (title_onRow title).1)
    · exact unreferenced e reference here
  · split at mapping
    · rename_i needed
      exact unmapped e needed (Option.mem_toList.mp mapping) here
    · simp at mapping

theorem applyOn_typed (member : b ∈ doc.blocks) (model : b.kind = .model) (inside : b.bodyContains row = true)
    (read : Field.ofLine? line row = some field) (typeEq : field.typeName = symbol.name)
    (first : FirstWord line lead name (gap ++ (symbol.name ++ markers) ++ rest))
    (second : FirstWord (gap ++ (symbol.name ++ markers) ++ rest) gap (symbol.name ++ markers) rest)
    (apart : gap ≠ []) (names : stripTypeModifiers (symbol.name ++ markers) = symbol.name) :
    Edit.applyOn ((symbol.rename doc newName).filter fun e => e.range.start.line = row) line =
      lead ++ name ++ gap ++ newName ++ (markers ++ rest) := by
  obtain ⟨-, -, rfl, -⟩ := Field.ofLine?_eq_some_iff.mp read
  have owned : field ∈ b.fields doc := Block.mem_fields_iff.mpr ⟨line, there, inside, read⟩
  have token : TypeToken line lead name gap symbol.name markers rest := ⟨first, second, apart, names⟩
  have edit := typeEdit?_at_token newName retitling.known retitling.nonempty there token typeEq
  have listed := mem_typeReferences_iff.mpr ⟨b, member, model, field, owned, edit⟩
  exact applyOn_row _ newName retitling.nonempty token.parts
    (nodup_rename retitling.declared retitling.isName retitling.differ)
    (typeReference_mem_rename retitling.isName retitling.differ listed)

theorem applyOn_untyped (start : row ≠ symbol.block.start.line)
    (untyped : ∀ b ∈ doc.blocks, b.kind = .model → b.bodyContains row = true →
      ∀ field, Field.ofLine? line row = some field → field.typeName ≠ symbol.name)
    (unmapped : ∀ e, symbol.needsMapping doc = true → symbol.mapping? doc = some e → e.range.start.line ≠ row) :
    Edit.applyOn ((symbol.rename doc newName).filter fun e => e.range.start.line = row) line = line := by
  have unreferenced : ∀ e ∈ typeReferences symbol.name newName doc, e.range.start.line ≠ row := by
    intro e listed here
    obtain ⟨b, member, model, field, owned, edit⟩ := mem_typeReferences_iff.mp listed
    obtain ⟨line', there', inside, read⟩ := Block.mem_fields_iff.mp owned
    obtain rfl : field.line = row := (typeEdit?_eq_some edit).1.1.symm.trans here
    obtain rfl := Option.some.inj (there.symm.trans there')
    exact untyped b member model inside field read (typeEdit?_eq_some_iff.mp edit).1
  rw [retitling.filter_row_unreferenced start unreferenced unmapped, Edit.applyOn_nil]

/-- A row is retitled as its edits say. -/
theorem retitled_applyOn
    (unmapped : ∀ e, symbol.needsMapping doc = true → symbol.mapping? doc = some e → e.range.start.line ≠ row) :
    Retitled symbol newName row line (Edit.applyOn
      ((symbol.rename doc newName).filter fun e => e.range.start.line = row) line) := by
  by_cases start : row = symbol.block.start.line
  · obtain ⟨lead, keyword, gap, tail, written, keywordEq⟩ := retitling.written_title there start
    rw [retitling.applyOn_title there start written]
    exact .title start written keywordEq
  · by_cases referred : ∃ e ∈ typeReferences symbol.name newName doc, e.range.start.line = row
    · obtain ⟨e, listed, here⟩ := referred
      obtain ⟨b, member, model, field, owned, edit⟩ := mem_typeReferences_iff.mp listed
      exact retitling.retitled_reference there member model owned
        ((typeEdit?_eq_some edit).1.1.symm.trans here) edit
    · have unreferenced : ∀ e ∈ typeReferences symbol.name newName doc, e.range.start.line ≠ row :=
        fun e listed here => referred ⟨e, listed, here⟩
      rw [retitling.filter_row_unreferenced start unreferenced unmapped, Edit.applyOn_nil]
      exact .kept start

end Row

end Retitling

namespace BlockRename

theorem of_checks {pos : Position} (found : doc.symbolAt? pos = some symbol)
    (isName : symbol.kind.isBlockName = true) (current : checkNewName symbol.name = .ok ())
    (accepted : checkNewName newName = .ok ()) (differ : newName ≠ symbol.name)
    (spelled : doc.SpellsType symbol.name) : BlockRename symbol doc newName :=
  ⟨.of_checks found isName current accepted differ, spelled⟩

section Row

variable (rename : BlockRename symbol doc newName) (there : doc.line? row = some line)

include rename there

theorem renames_typed (member : b ∈ doc.blocks) (model : b.kind = .model) (inside : b.bodyContains row = true)
    (read : Field.ofLine? line row = some field) (typeEq : field.typeName = symbol.name) :
    Renames symbol doc newName row line (Edit.applyOn
      ((symbol.rename doc newName).filter fun e => e.range.start.line = row) line) := by
  obtain ⟨-, -, rfl, -⟩ := Field.ofLine?_eq_some_iff.mp read
  have owned : field ∈ b.fields doc := Block.mem_fields_iff.mpr ⟨line, there, inside, read⟩
  obtain ⟨line', lead, gap, markers, rest, there', first, second, apart, names⟩ :=
    rename.spelled.exists_token member model owned typeEq
  obtain rfl := Option.some.inj (there.symm.trans there')
  rw [rename.applyOn_typed there member model inside read typeEq first second apart names]
  exact .typed member model inside read typeEq first second apart names

theorem renames_applyOn
    (unmapped : ∀ e, symbol.needsMapping doc = true → symbol.mapping? doc = some e → e.range.start.line ≠ row) :
    Renames symbol doc newName row line (Edit.applyOn
      ((symbol.rename doc newName).filter fun e => e.range.start.line = row) line) := by
  by_cases start : row = symbol.block.start.line
  · obtain ⟨lead, keyword, gap, tail, written, keywordEq⟩ := rename.written_title there start
    rw [rename.applyOn_title there start written]
    exact .title start written keywordEq
  · by_cases typed : ∃ b ∈ doc.blocks, b.kind = .model ∧ b.bodyContains row = true ∧
        ∃ field, Field.ofLine? line row = some field ∧ field.typeName = symbol.name
    · obtain ⟨b, member, model, inside, field, read, typeEq⟩ := typed
      exact rename.renames_typed there member model inside read typeEq
    · have untyped : ∀ b ∈ doc.blocks, b.kind = .model → b.bodyContains row = true →
          ∀ field, Field.ofLine? line row = some field → field.typeName ≠ symbol.name := by
        intro b member model inside field read typeEq
        exact typed ⟨b, member, model, inside, field, read, typeEq⟩
      rw [rename.applyOn_untyped there start untyped unmapped]
      exact .kept start untyped

end Row

end BlockRename

/-! ## What a renamed line still is -/

/-- The words of a line with another type at the start of its type token. -/
theorem words_retyped {lead name gap old markers rest : Text}
    (first : FirstWord line lead name (gap ++ (old ++ markers) ++ rest))
    (second : FirstWord (gap ++ (old ++ markers) ++ rest) gap (old ++ markers) rest) (apart : gap ≠ [])
    (word : Word new) : words (lead ++ name ++ gap ++ new ++ (markers ++ rest)) =
      name :: (new ++ markers) :: words rest := by
  have token : Word (new ++ markers) :=
    word.enclosed (s := []) (by simp) fun c member => second.solid.2 c (List.mem_append_right _ member)
  have shape : lead ++ name ++ gap ++ new ++ (markers ++ rest) =
      lead ++ name ++ (gap ++ (new ++ markers) ++ rest) := by simp
  rw [shape, words_two first.blank first.solid second.blank apart token second.parted]

namespace Retitled

variable (retitled : Retitled symbol newName row line new) (word : Word newName)

include retitled word

theorem unbroken (whole : line.Unbroken) : new.Unbroken := by
  cases retitled with
  | title start written keywordEq =>
    rename_i lead keyword gap tail kind
    rw [written.parts] at whole
    obtain ⟨front, back⟩ := whole.of_append
    obtain ⟨middle, tailUnbroken⟩ := back.of_append
    exact ((front.append middle.of_append.1).append word.unbroken).append tailUnbroken
  | reference start unopened unmarked first =>
    rename_i lead name front back
    rw [first.parts] at whole
    obtain ⟨left, right⟩ := whole.of_append
    obtain ⟨middle, backUnbroken⟩ := right.of_append
    exact left.append ((middle.of_append.1.append word.unbroken).append backUnbroken)
  | kept => exact whole

theorem nonempty (vanishes : new = []) : line = [] := by
  cases retitled with
  | title | reference => simp [word.1] at vanishes
  | kept => exact vanishes

theorem words_head? (old : Word symbol.name) : (words new).head? = (words line).head? := by
  cases retitled with
  | title start written keywordEq => rw [(written.retitled word).firstWord.words, written.firstWord.words]; rfl
  | reference start unopened unmarked first => rw [(first.replaced old newName).words, first.words]; rfl
  | kept => rfl

theorem isClosing_eq (old : Word symbol.name) : isClosing new = isClosing line := by
  rw [SchemaServer.isClosing_eq, SchemaServer.isClosing_eq, retitled.words_head? word old]

theorem startsAttribute_eq (old : Word symbol.name) : startsAttribute new = startsAttribute line := by
  rw [SchemaServer.startsAttribute_eq, SchemaServer.startsAttribute_eq, retitled.words_head? word old]

theorem startsComment_eq (old : Word symbol.name) : startsComment new = startsComment line := by
  rw [SchemaServer.startsComment_eq, SchemaServer.startsComment_eq, retitled.words_head? word old]

/-- A line that refers to the name opens no block, whatever the name is. -/
theorem header_eq (old : Word symbol.name) (plain : Identifying newName) : Header.ofLine? new =
    (Header.ofLine? line).map fun h =>
      ⟨h.kind, if row = symbol.block.start.line then newName else h.name⟩ := by
  cases retitled with
  | title start written keywordEq =>
    rw [Header.ofLine?_of_written written keywordEq, Header.ofLine?_of_written (written.retitled word) keywordEq,
      Option.map_some, if_pos start]
  | reference start unopened unmarked first =>
    have unbraced : '{' ∉ newName := fun brace => absurd (plain _ brace) (by decide)
    have still := Header.isOpening_replaced old word unbraced first (first.replaced old newName) unopened
    rw [isOpening, Option.isSome_eq_false_iff, Option.isNone_iff_eq_none] at still unopened
    rw [still, unopened, Option.map_none]
  | kept other =>
    simp only [if_neg other]
    cases Header.ofLine? line <;> rfl

end Retitled

namespace Renames

variable (renames : Renames symbol doc newName row line new) (there : doc.line? row = some line)
variable (rename : BlockRename symbol doc newName)

include renames there rename

theorem retitled : Retitled symbol newName row line new := by
  cases renames with
  | title start written keywordEq => exact .title start written keywordEq
  | typed member model inside read typeEq first second apart names =>
    rename_i b field lead name gap markers rest
    obtain ⟨unmarked, -⟩ := Field.ofLine?_eq_some_iff.mp read
    obtain ⟨unopened, -⟩ := Block.unopened_body member inside there
    have split : FirstWord line lead name (gap ++ symbol.name ++ (markers ++ rest)) := by
      simpa using first
    have made : Retitled symbol newName row line (lead ++ name ++ (gap ++ newName ++ (markers ++ rest))) :=
      .reference (rename.ne_start_of_unopened there unopened) unopened unmarked split
    simpa using made
  | kept other => exact .kept other

theorem field_eq (member : b ∈ doc.blocks)
    (model : b.kind = .model) (inside : b.bodyContains row = true) (row' : Nat) :
    Field.ofLine? new row' = (Field.ofLine? line row).map fun field =>
      ⟨field.name, if field.typeName = symbol.name then newName else field.typeName, row'⟩ := by
  have word := rename.word
  have retitled := renames.retitled there rename
  have unmarked := retitled.startsAttribute_eq word rename.oldWord
  have uncommented := retitled.startsComment_eq word rename.oldWord
  cases renames with
  | title start written keywordEq =>
    have unopened := (Block.unopened_body member inside there).1
    simp [isOpening, Header.ofLine?_of_written written keywordEq] at unopened
  | typed owned kind within read typeEq first second apart names =>
    rename_i field lead name gap markers rest
    obtain ⟨noAttribute, noComment, -, token, ws, two, -⟩ := Field.ofLine?_eq_some_iff.mp read
    rw [first.words] at two
    rw [read, Option.map_some, typeEq, if_pos rfl]
    refine Field.ofLine?_eq_some_iff.mpr ⟨unmarked.trans noAttribute, uncommented.trans noComment, rfl,
      newName ++ markers, words rest, ?_, ?_⟩
    · rw [words_retyped first second apart word, (List.cons.inj two).1]
    · rw [stripTypeModifiers_append rename.plain, (modifiers_of_strip rename.known names).1, List.append_nil]
  | kept other untyped =>
    rw [Field.ofLine?_row line row row']
    cases read : Field.ofLine? line row with
    | none => rfl
    | some field => simp only [Option.map_some, if_neg (untyped b member model inside field read)]

end Renames

end SchemaServer
