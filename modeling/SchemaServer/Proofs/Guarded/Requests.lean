import SchemaServer.Hover
import SchemaServer.Proofs.Guarded.Rename

/-! No request makes the server cut a text out of bounds or count below zero: with every check in place, each
gives what it gives without them. -/
namespace SchemaServer.Guarded

open Text

/-! ## Completions -/

def completionTypes (doc : Document) (block : Block) : Except Fault (List Completion) := do
  let models ← blockNames doc .model
  let enums ← blockNames doc .enum
  return Completion.scalarTypes.map (⟨·, .scalar, none⟩)
    ++ (models.filter (· ≠ block.name)).map (⟨·, .model, none⟩)
    ++ enums.map (⟨·, .enum, none⟩)

def completionsInBlock (doc : Document) (block : Block) (row : Nat) (before token : Text) (wordCount : Nat) :
    Except Fault (List Completion) :=
  let fieldAttribute := token.head? = some '@'
  match block.kind with
  | .model => do
    if ← insideRelation before then return Completion.otherFields doc block row
    else if "@@".toList.isPrefixOf token then return Completion.attributes "@@".toList blockAttributes
    else if fieldAttribute then return Completion.attributes ['@'] fieldAttributes
    else if wordCount = 1 then completionTypes doc block
    else return []
  | .typeAlias => .ok (if fieldAttribute then Completion.attributes ['@'] fieldAttributes else [])
  | .datasource => .ok (if wordCount = 0 then Completion.unassigned doc block Completion.datasourceKeys else [])
  | .generator => .ok (if wordCount = 0 then Completion.unassigned doc block Completion.generatorKeys else [])
  | .enum => .ok []

def completionsAt (doc : Document) (pos : Position) : Except Fault (List Completion) :=
  match doc.line? pos.line with
  | none => .ok []
  | some line => do
    let before ← cutFront line (byteAt line pos.character)
    let token := (before.reverse.takeWhile (!isBlank ·)).reverse
    let complete ← cutFront before (← minus (byteLength before) (byteLength token))
    let wordCount := (words complete).length
    match ← blockAt? doc pos.line with
    | none => return if wordCount > 0 then [] else Completion.keywords
    | some block =>
      if pos.line = block.start.line || (block.terminated && pos.line = block.stop.line) then return []
      else completionsInBlock doc block pos.line before token wordCount

theorem completionTypes_eq (doc : Document) (block : Block) :
    completionTypes doc block = .ok (Completion.types doc block) := by
  rw [completionTypes, blockNames_eq, ok_bind, blockNames_eq, ok_bind]
  rfl

theorem completionsInBlock_eq (doc : Document) (block : Block) (row : Nat) (before token : Text)
    (wordCount : Nat) : completionsInBlock doc block row before token wordCount =
      .ok (Completion.inBlock doc block row before token wordCount) := by
  unfold completionsInBlock Completion.inBlock
  cases block.kind with
  | model =>
    dsimp only
    rw [insideRelation_eq, ok_bind, completionTypes_eq]
    repeat' split
    all_goals rfl
  | _ => rfl

theorem completionsAt_eq (doc : Document) (pos : Position) :
    completionsAt doc pos = .ok (doc.completionsAt pos) := by
  unfold completionsAt Document.completionsAt
  cases doc.line? pos.line with
  | none => rfl
  | some line =>
    obtain ⟨lead, token, before, apart, solid⟩ := solidEnd_parts (takeWithin unitSize pos.character line)
    have offset : minus (byteLength (lead ++ token)) (byteLength token) = .ok (byteLength lead) := by
      rw [minus_of_le (by rw [byteLength_append]; omega), byteLength_append, Nat.add_sub_cancel]
    have complete : (lead ++ token).take ((lead ++ token).length - token.length) = lead := by
      rw [List.length_append, Nat.add_sub_cancel, List.take_left]
    dsimp only
    rw [cutFront_byteAt, ok_bind, before, takeWhile_reverse_solid apart solid, offset, ok_bind, cutFront_append,
      ok_bind, blockAt?_eq, ok_bind, complete]
    cases doc.blockAt? pos.line with
    | none => rfl
    | some block =>
      dsimp only
      split
      · rfl
      · exact completionsInBlock_eq _ _ _ _ _ _

/-! ## Names under the cursor -/

def typeNameAt? (doc : Document) (pos : Position) : Except Fault (Option Text) :=
  match doc.line? pos.line with
  | none => .ok none
  | some line => do
    let name := stripTypeModifiers (← wordAt line pos.character)
    return if name.isEmpty then none else some name

def definitionAt? (doc : Document) (pos : Position) : Except Fault (Option Range) :=
  whenSome (typeNameAt? doc pos) fun name => do
    let all ← blocks doc
    whenSome (.ok (all.find? fun b => (b.kind = .model || b.kind = .enum) && b.name = name)) fun block =>
      nameRange? block doc

def hoverAt? (doc : Document) (pos : Position) : Except Fault (Option Text) :=
  whenSome (typeNameAt? doc pos) fun name => do
    let all ← blocks doc
    .ok ((all.find? fun b => (b.kind = .model || b.kind = .enum || b.kind = .typeAlias) && b.name = name).map
      (·.markdown doc))

theorem typeNameAt?_eq (doc : Document) (pos : Position) : typeNameAt? doc pos = .ok (doc.typeNameAt? pos) := by
  unfold typeNameAt? Document.typeNameAt?
  cases doc.line? pos.line with
  | none => rfl
  | some line =>
    dsimp only
    rw [wordAt_eq, ok_bind]
    rfl

theorem definitionAt?_eq (doc : Document) (pos : Position) :
    definitionAt? doc pos = .ok (doc.definitionAt? pos) := by
  rw [definitionAt?, typeNameAt?_eq]
  simp only [blocks_eq, ok_bind, nameRange?_eq, whenSome_ok]
  rfl

theorem hoverAt?_eq (doc : Document) (pos : Position) : hoverAt? doc pos = .ok (doc.hoverAt? pos) := by
  rw [hoverAt?, typeNameAt?_eq]
  simp only [blocks_eq, ok_bind, whenSome_ok, Option.map_eq_bind]
  rfl

/-! ## All of them -/

/-- For every text, and at every position and byte offset and for every new name, all cuts are made between
characters and in order, no difference is negative and every field has its line. -/
theorem requests_pass_checks (text : Text) (version : Int) :
    splitLines text = .ok (Document.ofText text version).lines ∧
      (∀ byte, positionAtByte (Document.ofText text version) byte =
        .ok ((Document.ofText text version).positionAtByte byte)) ∧
      ∀ pos,
        symbolAt? (Document.ofText text version) pos = .ok ((Document.ofText text version).symbolAt? pos) ∧
        (∀ newName, renameAt (Document.ofText text version) pos newName =
          .ok ((Document.ofText text version).renameAt pos newName)) ∧
        completionsAt (Document.ofText text version) pos =
          .ok ((Document.ofText text version).completionsAt pos) ∧
        definitionAt? (Document.ofText text version) pos =
          .ok ((Document.ofText text version).definitionAt? pos) ∧
        hoverAt? (Document.ofText text version) pos = .ok ((Document.ofText text version).hoverAt? pos) := by
  refine ⟨splitLines_eq text, positionAtByte_eq _, ?_⟩
  intro pos
  exact ⟨symbolAt?_eq _ pos, renameAt_eq _ pos, completionsAt_eq _ pos, definitionAt?_eq _ pos, hoverAt?_eq _ pos⟩

end SchemaServer.Guarded
