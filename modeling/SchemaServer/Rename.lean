import SchemaServer.Symbol
import SchemaServer.Position
import SchemaServer.Text.Parts
import SchemaServer.Rename.NewName

/-! Renaming a symbol: its declaration, its references and, where the database name would change, a mapping, in
this order. A reference is one exact span of one line. -/
namespace SchemaServer

def renameEdit (row : Nat) (line : Text) (start : Nat) (current newName : Text) : Edit :=
  ⟨.ofSpan row line start (start + Text.byteLength current), newName⟩

/-- Byte offsets of the brackets around the list that follows `label`: the first `[` behind the label
and the first `]` behind that. -/
def argumentList? (line label : Text) : Option (Nat × Nat) := do
  let (before, labelled) ← Text.splitAtFirst? label line
  let (between, list) ← Text.splitAtFirst? ['['] labelled
  let (items, _) ← Text.splitAtFirst? [']'] list
  let start := Text.byteLength before + Text.byteLength between
  return (start, start + Text.byteLength items)

def editInList? (row : Nat) (line label current newName : Text) : Option Edit := do
  let (start, stop) ← argumentList? line label
  let found ← Text.findIdentifier (Text.takeBytes stop line) current start
  return renameEdit row line found current newName

def relationAttribute : Text := "@relation".toList

def ownFieldsLabel : Text := "fields:".toList

def foreignFieldsLabel : Text := "references:".toList

def fieldListAttributes : List Text := ["@@index".toList, "@@id".toList, "@@unique".toList]

/-- References to a field on one body line of its own model. -/
def ownFieldEdits (row : Nat) (line current newName : Text) : List Edit :=
  if Text.mentions line current then
    let relation := if Text.mentions line relationAttribute then
      editInList? row line ownFieldsLabel current newName else none
    let listed := (fieldListAttributes.find? (Text.mentions line ·)).bind
      (editInList? row line · current newName)
    relation.toList ++ listed.toList
  else []

/-- The reference to a field of model `model` on one line of a relation to that model. -/
def foreignFieldEdit? (row : Nat) (line model current newName : Text) : Option Edit :=
  if Text.mentions line model && Text.mentions line current && Text.mentions line relationAttribute then
    editInList? row line foreignFieldsLabel current newName
  else none

/-- Lists of the model itself first, then the relations that point at it from anywhere. -/
def fieldReferences (current newName : Text) (doc : Document) (block : Block) : List Edit :=
  ((block.body doc).flatMap fun (line, row) => ownFieldEdits row line current newName)
    ++ doc.rows.filterMap fun (line, row) => foreignFieldEdit? row line block.name current newName

def defaultCall (value : Text) : Text := "@default(".toList ++ value ++ [')']

/-- Default values on the lines that name the enum. -/
def enumValueReferences (current newName : Text) (doc : Document) (enumName : Text) : List Edit :=
  doc.rows.filterMap fun (line, row) => do
    let (before, _) ← Text.splitAtFirst? (defaultCall current) line
    let _ ← Text.findIdentifier line enumName 0
    let start := Text.byteLength before
    let stop := start + Text.byteLength (defaultCall current)
    return ⟨.ofSpan row line start stop, defaultCall newName⟩

/-- The model blocks with a line that mentions `name`, each once. -/
def modelsMentioning (name : Text) (doc : Document) : List Block :=
  let blocks := doc.blocks
  let owners := doc.rows.filterMap fun (line, row) =>
    if Text.mentions line name then blocks.find? (·.containsLine row) else none
  (owners.filter (·.kind = .model)).eraseDups

/-- The type token of a field, where it names `current`. -/
def typeEdit? (doc : Document) (current newName : Text) (field : Field) : Option Edit := do
  guard (field.typeName = current)
  let line ← doc.line? field.line
  let (_, nameEnd) ← Text.firstWordSpan line
  let found ← Text.findIdentifier line current nameEnd
  return renameEdit field.line line found current newName

def typeReferences (current newName : Text) (doc : Document) : List Edit :=
  (modelsMentioning current doc).flatMap fun block =>
    (block.fields doc).filterMap (typeEdit? doc current newName)

def Symbol.references (symbol : Symbol) (newName : Text) (doc : Document) : List Edit :=
  match symbol.kind with
  | .field => fieldReferences symbol.name newName doc symbol.block
  | .enumValue => enumValueReferences symbol.name newName doc symbol.block.name
  | .model | .enum => typeReferences symbol.name newName doc

namespace Symbol

def rename (symbol : Symbol) (doc : Document) (newName : Text) : List Edit :=
  if symbol.name = newName then []
  else
    let declaration := (symbol.declaration? doc).map fun range => ⟨range, newName⟩
    let mapping := if symbol.needsMapping doc then symbol.mapping? doc else none
    declaration.toList ++ symbol.references newName doc ++ mapping.toList

/-- What the log says about a rename. -/
def renameNotice? (symbol : Symbol) (newName : Text) : Option Text :=
  if symbol.name = newName then none
  else some <| symbol.kind.label ++ " '".toList ++ symbol.name ++ "' was renamed to '".toList
    ++ newName ++ "'".toList

end Symbol

namespace Document

/-- Edits that rename the symbol at a position; none where there is no symbol. -/
def renameAt (doc : Document) (pos : Position) (newName : Text) : List Edit :=
  match doc.symbolAt? pos with
  | some symbol => symbol.rename doc newName
  | none => []

end Document

end SchemaServer
