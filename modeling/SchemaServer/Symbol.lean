import SchemaServer.Block

/-! The symbol under a cursor: a model or enum name on an opening line, or a field or enum value at the
start of a body line. -/
namespace SchemaServer

inductive SymbolKind
  | model
  | field
  | enum
  | enumValue
  deriving DecidableEq

namespace SymbolKind

/-- Model and enum names stand on the opening line of their block. -/
def isBlockName : SymbolKind → Bool
  | model | enum => true
  | field | enumValue => false

def label : SymbolKind → Text
  | model => "Model".toList
  | field => "Field".toList
  | enum => "Enum".toList
  | enumValue => "Enum value".toList

def all : List SymbolKind := [model, field, enum, enumValue]

end SymbolKind

structure Symbol where
  kind : SymbolKind
  name : Text
  block : Block
  line : Nat
  deriving DecidableEq

namespace Symbol

def declaration? (symbol : Symbol) (doc : Document) : Option Range :=
  if symbol.kind.isBlockName then symbol.block.nameRange? doc
  else do
    let line ← doc.line? symbol.line
    let (start, stop) ← Text.firstWordSpan line
    return .ofSpan symbol.line line start stop

end Symbol

/-- Columns up to the length of this keyword never name a model. -/
def modelKeywordWidth : Nat := 5

/-- Columns up to the length of this keyword never name an enum. -/
def enumKeywordWidth : Nat := 4

/-- The column lies on the first word of the line or at one of its ends. -/
def onFirstWord (line : Text) (column : Nat) : Bool :=
  match Text.firstWordSpan line with
  | some (start, stop) => Text.columnAt line start ≤ column && column ≤ Text.columnAt line stop
  | none => false

def SymbolKind.classify? (pos : Position) (line : Text) (block : Block) : Option SymbolKind :=
  let atStart := pos.line = block.start.line
  let inBody := block.bodyContains pos.line
  match block.kind with
  | .model =>
    if atStart then
      if modelKeywordWidth < pos.character then some .model else none
    else if inBody && !startsAttribute line && !startsComment line && onFirstWord line pos.character then
      some .field
    else none
  | .enum =>
    if atStart then
      if enumKeywordWidth < pos.character then some .enum else none
    else if inBody && !(Text.trim line).isEmpty && !"@@".toList.isPrefixOf (Text.trim line)
        && !startsComment line && (Text.wordAt line pos.character).head? ≠ some '@' then
      some .enumValue
    else none
  | _ => none

/-- The name that a symbol of kind `kind` has on the line that declares it. -/
def SymbolKind.currentName? (kind : SymbolKind) (block : Block) (line : Text) : Option Text :=
  if kind.isBlockName then some block.name else (Text.words line).head?

def Document.symbolAt? (doc : Document) (pos : Position) : Option Symbol := do
  let line ← doc.line? pos.line
  let block ← doc.blockAt? pos.line
  let kind ← SymbolKind.classify? pos line block
  let name ← kind.currentName? block line
  return ⟨kind, name, block, pos.line⟩

end SchemaServer
