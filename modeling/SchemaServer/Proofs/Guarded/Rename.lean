import SchemaServer.Proofs.Guarded.Document
import SchemaServer.Proofs.Rename.Mentions

/-! Finding and renaming a symbol with checked cuts and differences. The type references are collected in one pass
over the lines that remembers the models it has been to. -/
namespace SchemaServer.Guarded

open Text

variable {doc : Document} {current newName : Text}

/-! ## The symbol at a position -/

def onFirstWord (line : Text) (column : Nat) : Except Fault Bool := do
  match ← firstWordSpan line with
  | some (start, stop) => return columnAt line start ≤ column && column ≤ columnAt line stop
  | none => return false

def classify? (pos : Position) (line : Text) (block : Block) : Except Fault (Option SymbolKind) :=
  let atStart := pos.line = block.start.line
  let inBody := block.bodyContains pos.line
  match block.kind with
  | .model =>
    if atStart then .ok (if modelKeywordWidth < pos.character then some .model else none)
    else do
      let named ← andAlso (inBody && !startsAttribute line && !startsComment line) (onFirstWord line pos.character)
      return if named then some .field else none
  | .enum =>
    if atStart then .ok (if enumKeywordWidth < pos.character then some .enum else none)
    else do
      let named ← andAlso (inBody && !(trim line).isEmpty && !"@@".toList.isPrefixOf (trim line)
        && !startsComment line) (do return (← wordAt line pos.character).head? ≠ some '@')
      return if named then some .enumValue else none
  | _ => .ok none

def symbolAt? (doc : Document) (pos : Position) : Except Fault (Option Symbol) :=
  whenSome (.ok (doc.line? pos.line)) fun line =>
    whenSome (blockAt? doc pos.line) fun block =>
      whenSome (classify? pos line block) fun kind =>
        whenSome (.ok (kind.currentName? block line)) fun name => .ok (some ⟨kind, name, block, pos.line⟩)

def declaration? (symbol : Symbol) (doc : Document) : Except Fault (Option Range) :=
  if symbol.kind.isBlockName then nameRange? symbol.block doc
  else whenSome (.ok (doc.line? symbol.line)) fun line =>
    whenSome (firstWordSpan line) fun (start, stop) => .ok (some (.ofSpan symbol.line line start stop))

@[simp] theorem onFirstWord_eq (line : Text) (column : Nat) :
    onFirstWord line column = .ok (SchemaServer.onFirstWord line column) := by
  rw [onFirstWord, firstWordSpan_eq, ok_bind, SchemaServer.onFirstWord]
  cases Text.firstWordSpan line <;> rfl

@[simp] theorem classify?_eq (pos : Position) (line : Text) (block : Block) :
    classify? pos line block = .ok (SymbolKind.classify? pos line block) := by
  unfold classify? SymbolKind.classify?
  cases block.kind with
  | model =>
    dsimp only
    rw [onFirstWord_eq, andAlso_ok]
    split <;> rfl
  | enum =>
    have word : (do return (← wordAt line pos.character).head? ≠ some '@' : Except Fault Bool) =
        .ok ((Text.wordAt line pos.character).head? ≠ some '@') := by
      rw [wordAt_eq]
      rfl
    dsimp only
    rw [word, andAlso_ok]
    split <;> rfl
  | _ => rfl

@[simp] theorem symbolAt?_eq (doc : Document) (pos : Position) : symbolAt? doc pos = .ok (doc.symbolAt? pos) := by
  simp [symbolAt?, Document.symbolAt?]

@[simp] theorem declaration?_eq (symbol : Symbol) (doc : Document) :
    declaration? symbol doc = .ok (symbol.declaration? doc) := by
  unfold declaration? Symbol.declaration?
  split
  · rw [nameRange?_eq]
  · simp

/-! ## References -/

def ownFieldEdits (row : Nat) (line current newName : Text) : Except Fault (List Edit) :=
  if mentions line current then do
    let relation ← whenTrue (mentions line relationAttribute) (editInList? row line ownFieldsLabel current newName)
    let listed ← whenSome (.ok (fieldListAttributes.find? (mentions line ·))) fun label =>
      editInList? row line label current newName
    return relation.toList ++ listed.toList
  else .ok []

def foreignFieldEdit? (row : Nat) (line model current newName : Text) : Except Fault (Option Edit) :=
  whenTrue (mentions line model && mentions line current && mentions line relationAttribute)
    (editInList? row line foreignFieldsLabel current newName)

def fieldReferences (current newName : Text) (doc : Document) (block : Block) : Except Fault (List Edit) := do
  let own ← concat (fun (line, row) => ownFieldEdits row line current newName) (block.body doc)
  let foreign ← concat (fun (line, row) => do
    return (← foreignFieldEdit? row line block.name current newName).toList) doc.rows
  return own ++ foreign

def enumValueEdit? (row : Nat) (line enumName current newName : Text) : Except Fault (Option Edit) :=
  whenSome (.ok (textAt? (defaultCall current) line)) fun start =>
    whenSome (findIdentifier line enumName 0) fun _ =>
      .ok (some ⟨.ofSpan row line start (start + byteLength (defaultCall current)), defaultCall newName⟩)

def enumValueReferences (current newName : Text) (doc : Document) (enumName : Text) :
    Except Fault (List Edit) :=
  concat (fun (line, row) => do return (← enumValueEdit? row line enumName current newName).toList) doc.rows

/-- The edit for a field of the table, which is expected to stand on a line. -/
def typeEdit? (doc : Document) (current newName : Text) (field : Field) : Except Fault (Option Edit) :=
  if field.typeName ≠ current then .ok none
  else match doc.line? field.line with
    | none => .error .vanishedLine
    | some line =>
      whenSome (firstWordSpan line) fun (_, nameEnd) =>
        whenSome (findIdentifier line current nameEnd) fun found =>
          .ok (some (renameEdit field.line line found current newName))

/-- Goes over the lines; the types of a model are renamed at the first line of it that mentions the name. -/
def typeReferencesIn (doc : Document) (blocks : List Block) (current newName : Text) (visited : List Block) :
    List (Text × Nat) → Except Fault (List Edit)
  | [] => .ok []
  | (line, row) :: rest =>
    if !mentions line current || visited.any (·.containsLine row) then
      typeReferencesIn doc blocks current newName visited rest
    else match blocks.find? (·.containsLine row) with
      | none => typeReferencesIn doc blocks current newName visited rest
      | some block =>
        if block.kind ≠ .model then typeReferencesIn doc blocks current newName visited rest
        else do
          let edits ← concat (fun field => do return (← typeEdit? doc current newName field).toList)
            (block.fields doc)
          return edits ++ (← typeReferencesIn doc blocks current newName (visited ++ [block]) rest)

def typeReferences (current newName : Text) (doc : Document) : Except Fault (List Edit) := do
  typeReferencesIn doc (← blocks doc) current newName [] doc.rows

def references (symbol : Symbol) (newName : Text) (doc : Document) : Except Fault (List Edit) :=
  match symbol.kind with
  | .field => fieldReferences symbol.name newName doc symbol.block
  | .enumValue => enumValueReferences symbol.name newName doc symbol.block.name
  | .model | .enum => typeReferences symbol.name newName doc

def rename (symbol : Symbol) (doc : Document) (newName : Text) : Except Fault (List Edit) :=
  if symbol.name = newName then .ok []
  else do
    let declaration ← declaration? symbol doc
    let references ← references symbol newName doc
    let mapping := if symbol.needsMapping doc then symbol.mapping? doc else none
    return (declaration.map fun range => ⟨range, newName⟩).toList ++ references ++ mapping.toList

def renameAt (doc : Document) (pos : Position) (newName : Text) : Except Fault (List Edit) := do
  match ← symbolAt? doc pos with
  | some symbol => rename symbol doc newName
  | none => return []

@[simp] theorem ownFieldEdits_eq (row : Nat) (line current newName : Text) :
    ownFieldEdits row line current newName = .ok (SchemaServer.ownFieldEdits row line current newName) := by
  unfold ownFieldEdits SchemaServer.ownFieldEdits
  split
  · simp only [editInList?_eq, whenTrue_ok, whenSome_ok, ok_bind]
    rfl
  · rfl

@[simp] theorem foreignFieldEdit?_eq (row : Nat) (line model current newName : Text) :
    foreignFieldEdit? row line model current newName =
      .ok (SchemaServer.foreignFieldEdit? row line model current newName) := by
  rw [foreignFieldEdit?, editInList?_eq, whenTrue_ok, SchemaServer.foreignFieldEdit?]

theorem fieldReferences_eq (current newName : Text) (doc : Document) (block : Block) :
    fieldReferences current newName doc block =
      .ok (SchemaServer.fieldReferences current newName doc block) := by
  rw [fieldReferences, concat_ok fun _ _ => ownFieldEdits_eq _ _ _ _, ok_bind,
    concat_ok (g := fun x => (SchemaServer.foreignFieldEdit? x.2 x.1 block.name current newName).toList)
      fun _ _ => by simp only [foreignFieldEdit?_eq, ok_bind]; rfl, ok_bind]
  rw [SchemaServer.fieldReferences, List.filterMap_eq_flatMap_toList]
  rfl

@[simp] theorem enumValueEdit?_eq (row : Nat) (line enumName current newName : Text) :
    enumValueEdit? row line enumName current newName =
      .ok (SchemaServer.enumValueEdit? current newName enumName (line, row)) := by
  unfold enumValueEdit? SchemaServer.enumValueEdit?
  cases split : splitAtFirst? (defaultCall current) line with
  | none => simp [textAt?_of_none split]
  | some parts => simp [textAt?_of_split split]

theorem enumValueReferences_eq (current newName : Text) (doc : Document) (enumName : Text) :
    enumValueReferences current newName doc enumName =
      .ok (SchemaServer.enumValueReferences current newName doc enumName) := by
  rw [enumValueReferences, SchemaServer.enumValueReferences_eq]
  refine concat_ok fun x _ => ?_
  simp only [enumValueEdit?_eq, ok_bind]
  rfl

theorem typeEdit?_eq {block : Block} {field : Field} (member : field ∈ block.fields doc) :
    typeEdit? doc current newName field = .ok (SchemaServer.typeEdit? doc current newName field) := by
  obtain ⟨line, there, -⟩ := Block.mem_fields_iff.mp member
  unfold typeEdit? SchemaServer.typeEdit?
  by_cases typed : field.typeName = current
  · simp [typed, there]
  · simp [typed]

/-- A row counts if it leads to a model that was not visited yet. -/
theorem typeReferencesIn_cons {visited : List Block} {x : Text × Nat} {rest : List (Text × Nat)}
    (known : ∀ b ∈ visited, b ∈ doc.blocks) :
    typeReferencesIn doc doc.blocks current newName visited (x :: rest) =
      match (modelAt? doc current x).filter (· ∉ visited) with
      | none => typeReferencesIn doc doc.blocks current newName visited rest
      | some block => do
        let edits ← concat (fun field => do return (← typeEdit? doc current newName field).toList)
          (block.fields doc)
        return edits ++ (← typeReferencesIn doc doc.blocks current newName (visited ++ [block]) rest) := by
  obtain ⟨line, row⟩ := x
  rw [typeReferencesIn, modelAt?]
  dsimp only
  by_cases mentioned : mentions line current = true
  · rw [if_pos mentioned]
    by_cases seen : visited.any (·.containsLine row) = true
    · obtain ⟨b, member, inside⟩ := List.any_eq_true.mp seen
      have owner := Document.blockAt?_eq_some_iff.mpr ⟨known b member, inside⟩
      rw [if_pos (by simp [seen]), owner]
      by_cases model : b.kind = .model <;> simp [Option.filter, model, member]
    · rw [if_neg (by simp [mentioned, seen]), Document.blockAt?]
      cases owner : doc.blocks.find? (·.containsLine row) with
      | none => rfl
      | some block =>
        have fresh : block ∉ visited := fun member =>
          seen (List.any_eq_true.mpr ⟨block, member, by simpa using List.find?_some owner⟩)
        by_cases model : block.kind = .model <;> simp [Option.filter, model, fresh]
  · rw [if_pos (by simp [mentioned]), if_neg mentioned]
    rfl

/-- The rest of the pass collects the models that its rows lead to and that were not visited, each once. -/
theorem typeReferencesIn_eq {visited : List Block} {rows : List (Text × Nat)}
    (known : ∀ b ∈ visited, b ∈ doc.blocks) :
    typeReferencesIn doc doc.blocks current newName visited rows =
      .ok (((rows.filterMap (modelAt? doc current)).filter (· ∉ visited)).eraseDups.flatMap fun block =>
        (block.fields doc).filterMap (SchemaServer.typeEdit? doc current newName)) := by
  induction rows generalizing visited with
  | nil => rfl
  | cons x rest ih =>
    rw [typeReferencesIn_cons known, List.filterMap_cons]
    cases lead : modelAt? doc current x with
    | none => exact ih known
    | some block =>
      by_cases old : block ∈ visited
      · rw [List.filter_cons_of_neg (by simpa using old)]
        simpa [Option.filter, old] using ih known
      · have further : ∀ b ∈ visited ++ [block], b ∈ doc.blocks :=
          List.forall_mem_append.mpr ⟨known, by simpa using (modelAt?_eq_some_iff.mp lead).2.1⟩
        have others : (rest.filterMap (modelAt? doc current)).filter (· ∉ visited ++ [block]) =
            ((rest.filterMap (modelAt? doc current)).filter (· ∉ visited)).filter fun b => !b == block := by
          rw [List.filter_filter]
          refine List.filter_congr fun b _ => ?_
          by_cases same : b = block <;> simp [same]
        have edits : concat (fun field => do return (← typeEdit? doc current newName field).toList)
            (block.fields doc) = .ok ((block.fields doc).flatMap fun field =>
              (SchemaServer.typeEdit? doc current newName field).toList) :=
          concat_ok fun field member => by rw [typeEdit?_eq member]; rfl
        rw [List.filter_cons_of_pos (by simpa using old), List.eraseDups_cons, ← others, List.flatMap_cons,
          List.filterMap_eq_flatMap_toList]
        simp only [Option.filter, old, not_false_eq_true, decide_true, if_true]
        rw [edits, ok_bind, ih further]
        rfl

theorem typeReferences_eq (current newName : Text) (doc : Document) :
    typeReferences current newName doc = .ok (SchemaServer.typeReferences current newName doc) := by
  have all : (doc.rows.filterMap (modelAt? doc current)).filter (· ∉ ([] : List Block)) =
      doc.rows.filterMap (modelAt? doc current) := List.filter_eq_self.mpr (by simp)
  rw [typeReferences, blocks_eq, ok_bind, typeReferencesIn_eq (by simp), all, SchemaServer.typeReferences,
    modelsMentioning_eq]

theorem references_eq (symbol : Symbol) (newName : Text) (doc : Document) :
    references symbol newName doc = .ok (symbol.references newName doc) := by
  unfold references Symbol.references
  cases symbol.kind with
  | field => exact fieldReferences_eq _ _ _ _
  | enumValue => exact enumValueReferences_eq _ _ _ _
  | model | enum => exact typeReferences_eq _ _ _

theorem rename_eq (symbol : Symbol) (doc : Document) (newName : Text) :
    rename symbol doc newName = .ok (symbol.rename doc newName) := by
  unfold rename Symbol.rename
  split
  · rfl
  · rw [declaration?_eq, ok_bind, references_eq, ok_bind]
    rfl

theorem renameAt_eq (doc : Document) (pos : Position) (newName : Text) :
    renameAt doc pos newName = .ok (doc.renameAt pos newName) := by
  rw [renameAt, symbolAt?_eq, ok_bind, Document.renameAt]
  cases doc.symbolAt? pos with
  | none => rfl
  | some symbol => exact rename_eq symbol doc newName

end SchemaServer.Guarded
