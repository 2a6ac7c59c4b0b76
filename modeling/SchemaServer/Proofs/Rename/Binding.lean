import Mathlib.Data.List.Find
import Mathlib.Data.List.Nodup
import SchemaServer.Proofs.Definition
import SchemaServer.Proofs.Rename.Structure

/-! A model or enum rename to a fresh name keeps what every field refers to: its type leads to the same block
as before. -/
namespace SchemaServer

open Text

variable {doc : Document} {pos : Position} {symbol : Symbol} {newName name : Text} {b c : Block} {field : Field}

/-- Models and enums have names of their own. -/
def Document.DistinctTypes (doc : Document) : Prop := ((doc.blocks.filter Block.isType).map Block.name).Nodup

instance (doc : Document) : Decidable doc.DistinctTypes := inferInstanceAs (Decidable (List.Nodup _))

/-- No block and no type of a model field has the name. -/
structure Document.Fresh (doc : Document) (name : Text) : Prop where
  blocks : ∀ b ∈ doc.blocks, b.name ≠ name
  types : ∀ b ∈ doc.blocks, b.kind = .model → ∀ field ∈ b.fields doc, field.typeName ≠ name

/-- The range of a block name after a block rename. -/
def Symbol.rangeAfter (symbol : Symbol) (newName : Text) (doc : Document) (range : Range) : Range :=
  let row := symbol.rowAfter doc range.start.line
  ⟨⟨row, range.start.character⟩,
    ⟨row, if range.start.line = symbol.block.start.line then range.start.character + unitLength newName
      else range.stop.character⟩⟩

theorem Block.nameRange?_columns {line lead keyword gap tail : Text} (there : doc.line? b.start.line = some line)
    (named : b.name = name) (written : Header.Written line lead keyword gap name tail) :
    b.nameRange? doc = some ⟨⟨b.start.line, unitLength (lead ++ keyword ++ gap)⟩,
      ⟨b.start.line, unitLength (lead ++ keyword ++ gap) + unitLength name⟩⟩ := by
  subst named
  have parts : line = lead ++ keyword ++ gap ++ b.name ++ tail := by
    rw [written.parts]
    simp
  rw [nameRange?_of_written there written, parts, ofSpan_append, unitLength_append _ b.name]

namespace BlockRename

variable (rename : BlockRename symbol doc newName)

include rename

/-- The name of a block is found where it was, up to the row of a mapping. -/
theorem nameRange?_after (version : Int) (member : b ∈ doc.blocks) :
    let doc' := Document.ofText (doc.apply (symbol.rename doc newName)) version
    (b.nameRange? doc).isSome ∧ (symbol.blockAfter newName doc doc' b).nameRange? doc' =
      (b.nameRange? doc).map (symbol.rangeAfter newName doc) := by
  intro doc'
  obtain ⟨line, lead, keyword, gap, tail, there, written, keywordEq⟩ := (Document.placed member).written
  have opens := Header.ofLine?_of_written written keywordEq
  have unmapped : ¬ ((symbol.mappingEdit? doc).isSome ∧ b.start.line = symbol.block.stop.line) := by
    rintro ⟨mapped, same⟩
    obtain ⟨closing, there', closes, -⟩ := rename.mapped_line mapped
    rw [← same] at there'
    obtain rfl := Option.some.inj (there.symm.trans there')
    rw [isClosing_of_header opens] at closes
    contradiction
  have renames := rename.renames_line b.start.line line there unmapped
  have there' := Rewriting.line?_shift (rename.rewriting_writtenBy.carries version) there
  rw [Symbol.shift_rewriting] at there'
  change doc'.line? (symbol.blockAfter newName doc doc' b).start.line = _ at there'
  generalize (symbol.rewriting doc newName).line b.start.line line = new at renames there'
  cases renames with
  | title start written' keywordEq' =>
    have own := (Document.block_eq_iff member rename.declared.member).mp start
    have named : b.name = symbol.name := by rw [own, (rename.declared.opening rename.isName).1]
    have renamed : (symbol.blockAfter newName doc doc' b).name = newName := if_pos own
    rw [Block.nameRange?_columns there named written',
      Block.nameRange?_columns there' renamed (written'.retitled rename.word)]
    simp [Symbol.rangeAfter, start, Symbol.blockAfter]
  | typed owned _ inside =>
    have bounds := Block.bodyContains_bounds inside
    have unopened := (Document.placed owned).unopened _ _ bounds.1 bounds.2 there
    simp [isOpening, opens] at unopened
  | kept other =>
    have differ : b ≠ symbol.block := fun same => other (by rw [same])
    have kept : (symbol.blockAfter newName doc doc' b).name = b.name := if_neg differ
    rw [Block.nameRange?_columns there rfl written, Block.nameRange?_columns there' kept written]
    simp [Symbol.rangeAfter, other, Symbol.blockAfter]

/-- A type has the name of a model or an enum after the rename just when it had it before. -/
theorem names_after_iff {doc' : Document} (distinct : doc.DistinctTypes) (fresh : doc.Fresh newName)
    (untyped : field.typeName ≠ newName) (inDoc : c ∈ doc.blocks) (isType : c.isType = true) :
    (symbol.blockAfter newName doc doc' c).name = (symbol.fieldAfter newName doc field).typeName ↔
      c.name = field.typeName := by
  have named := (rename.declared.opening rename.isName).1
  have own : symbol.block.isType = true := by
    rw [Block.isType, rename.declared.owned]
    cases symbol.kind <;> rfl
  change (if c = symbol.block then newName else c.name) =
    (if field.typeName = symbol.name then newName else field.typeName) ↔ _
  by_cases renamed : c = symbol.block
  · rw [if_pos renamed, renamed, ← named]
    by_cases typed : field.typeName = symbol.name
    · simp [typed]
    · rw [if_neg typed]
      exact iff_of_false (Ne.symm untyped) (Ne.symm typed)
  · rw [if_neg renamed]
    by_cases typed : field.typeName = symbol.name
    · rw [if_pos typed, typed]
      refine iff_of_false (fresh.blocks c inDoc) fun clash => renamed ?_
      exact List.inj_on_of_nodup_map distinct (List.mem_filter.mpr ⟨inDoc, isType⟩)
        (List.mem_filter.mpr ⟨rename.declared.member, own⟩) (clash.trans named)
    · rw [if_neg typed]

theorem typeBlock?_after (version : Int) (distinct : doc.DistinctTypes) (fresh : doc.Fresh newName)
    (member : b ∈ doc.blocks) (model : b.kind = .model) (owned : field ∈ b.fields doc) :
    let doc' := Document.ofText (doc.apply (symbol.rename doc newName)) version
    doc'.typeBlock? (symbol.fieldAfter newName doc field).typeName =
      (doc.typeBlock? field.typeName).map (symbol.blockAfter newName doc doc') := by
  intro doc'
  have same : ∀ c ∈ doc.blocks, ((symbol.blockAfter newName doc doc' c).isType &&
      (symbol.blockAfter newName doc doc' c).name = (symbol.fieldAfter newName doc field).typeName) =
        (c.isType && c.name = field.typeName) := by
    intro c inDoc
    have untyped := fresh.types b member model field owned
    change (c.isType && decide ((symbol.blockAfter newName doc doc' c).name = _)) = _
    cases isType : c.isType with
    | false => rfl
    | true =>
      rw [Bool.true_and, Bool.true_and, decide_eq_decide]
      exact rename.names_after_iff distinct fresh untyped inDoc isType
  have empty : (symbol.fieldAfter newName doc field).typeName = [] ↔ field.typeName = [] := by
    change (if field.typeName = symbol.name then newName else field.typeName) = [] ↔ _
    by_cases typed : field.typeName = symbol.name
    · rw [if_pos typed, typed]
      exact iff_of_false rename.filled rename.nonempty
    · rw [if_neg typed]
  simp only [Document.typeBlock?, empty]
  split
  · rfl
  · rw [rename.blocks_after version, List.find?_map]
    exact congrArg _ (List.find?_congr same)

end BlockRename

/-- After a model or an enum is renamed to a fresh name, each field leads to no block where it led to none, and
otherwise to the name of the block it led to. -/
theorem rename_binding (found : doc.symbolAt? pos = some symbol) (isName : symbol.kind.isBlockName = true)
    (current : checkNewName symbol.name = .ok ()) (accepted : checkNewName newName = .ok ())
    (spelled : doc.SpellsType symbol.name) (distinct : doc.DistinctTypes) (fresh : doc.Fresh newName)
    (version : Int) :
    let doc' := Document.ofText (doc.apply (doc.renameAt pos newName)) version
    let after := symbol.blockAfter newName doc doc'
    ∀ b ∈ doc.blocks, b.kind = .model → ∀ field ∈ b.fields doc,
      after b ∈ doc'.blocks ∧ symbol.fieldAfter newName doc field ∈ (after b).fields doc' ∧
      ∃ here there, field.typePosition? doc = some here ∧
        (symbol.fieldAfter newName doc field).typePosition? doc' = some there ∧
        ((doc.definitionAt? here = none ∧ doc'.definitionAt? there = none) ∨
          ∃ c ∈ doc.blocks, ∃ range, c.name = field.typeName ∧ after c ∈ doc'.blocks ∧
            c.nameRange? doc = some range ∧ doc.definitionAt? here = some range ∧
            (after c).nameRange? doc' = some (symbol.rangeAfter newName doc range) ∧
            doc'.definitionAt? there = some (symbol.rangeAfter newName doc range)) := by
  have differ : newName ≠ symbol.name := by
    have declared := Document.symbolAt?_declared found
    rw [(declared.opening isName).1]
    exact (fresh.blocks _ declared.member).symm
  have rename := BlockRename.of_checks found isName current accepted differ spelled
  have edits : doc.renameAt pos newName = symbol.rename doc newName := by
    simp only [Document.renameAt, found]
  rw [edits]
  intro doc' after b member model field owned
  have moved : ∀ c ∈ doc.blocks, after c ∈ doc'.blocks := fun c inDoc => by
    rw [rename.blocks_after version]
    exact List.mem_map_of_mem inDoc
  have kept : symbol.fieldAfter newName doc field ∈ (symbol.blockAfter newName doc doc' b).fields doc' := by
    rw [rename.fields_after version b member model]
    exact List.mem_map_of_mem owned
  obtain ⟨here, atToken, leads⟩ := definitionAt?_typePosition owned
  obtain ⟨there, atToken', leads'⟩ := definitionAt?_typePosition kept
  rw [rename.typeBlock?_after version distinct fresh member model owned] at leads'
  refine ⟨moved b member, kept, here, there, atToken, atToken', ?_⟩
  cases names : doc.typeBlock? field.typeName with
  | none =>
    rw [names] at leads leads'
    exact .inl ⟨leads, leads'⟩
  | some c =>
    rw [names] at leads leads'
    obtain ⟨inDoc, nameEq⟩ := Document.typeBlock?_eq_some names
    obtain ⟨some, shifted⟩ := rename.nameRange?_after version inDoc
    obtain ⟨range, ranged⟩ := Option.isSome_iff_exists.mp some
    rw [ranged] at shifted
    exact .inr ⟨c, inDoc, range, nameEq, moved c inDoc, ranged, leads.trans ranged, shifted,
      leads'.trans shifted⟩

/-- Fields of the renamed enum, of a model further down and of no block at all. -/
theorem rename_binding_enum :
    let doc := Document.ofText ("enum Role \x7b\n  USER\n\x7d\n".toList ++
      "model User \x7b\n  role Role?\n  boss User\n  note Text\n\x7d".toList) 0
    let role : Symbol := ⟨.enum, "Role".toList, ⟨.enum, "Role".toList, ⟨0, 0⟩, ⟨2, 1⟩, true⟩, 0⟩
    let user : Block := ⟨.model, "User".toList, ⟨3, 0⟩, ⟨7, 1⟩, true⟩
    let doc' := Document.ofText (doc.apply (doc.renameAt ⟨0, 6⟩ "Kind".toList)) 1
    let after := role.blockAfter "Kind".toList doc doc'
    doc.symbolAt? ⟨0, 6⟩ = some role ∧ doc.SpellsType role.name ∧ doc.DistinctTypes ∧ doc.Fresh "Kind".toList ∧
      user ∈ doc.blocks ∧ (user.fields doc).map Field.line = [4, 5, 6] ∧
      ∀ field ∈ user.fields doc, ∃ here there, field.typePosition? doc = some here ∧
        (role.fieldAfter "Kind".toList doc field).typePosition? doc' = some there ∧
        ((doc.definitionAt? here = none ∧ doc'.definitionAt? there = none) ∨
          ∃ c ∈ doc.blocks, ∃ range, c.name = field.typeName ∧ after c ∈ doc'.blocks ∧
            c.nameRange? doc = some range ∧ doc.definitionAt? here = some range ∧
            (after c).nameRange? doc' = some (role.rangeAfter "Kind".toList doc range) ∧
            doc'.definitionAt? there = some (role.rangeAfter "Kind".toList doc range)) := by
  intro doc role user doc' after
  have found : doc.symbolAt? ⟨0, 6⟩ = some role := by decide +kernel
  have spelled : doc.SpellsType role.name := by decide +kernel
  have distinct : doc.DistinctTypes := by decide +kernel
  have fresh : doc.Fresh "Kind".toList := ⟨by decide +kernel, by decide +kernel⟩
  have accepted : checkNewName "Kind".toList = .ok () := by decide +kernel
  have inDoc : user ∈ doc.blocks := by decide +kernel
  have bound := rename_binding found rfl (by decide +kernel) accepted spelled distinct fresh 1 user inDoc rfl
  exact ⟨found, spelled, distinct, fresh, inDoc, by decide +kernel, fun field owned => (bound field owned).2.2⟩

end SchemaServer
