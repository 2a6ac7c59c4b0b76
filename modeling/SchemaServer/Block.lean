import SchemaServer.Document
import SchemaServer.Text.Parts
import SchemaServer.Text.Identifier

/-! The blocks of a schema, found by their opening and closing lines, and the table of fields of a block: every
body line with a name and a type that is no attribute and no comment. -/
namespace SchemaServer

inductive BlockKind
  | datasource
  | generator
  | model
  | enum
  | typeAlias
  deriving DecidableEq

namespace BlockKind

def keyword : BlockKind → Text
  | datasource => "datasource".toList
  | generator => "generator".toList
  | model => "model".toList
  | enum => "enum".toList
  | typeAlias => "type_alias".toList

def all : List BlockKind := [datasource, generator, model, enum, typeAlias]

/-- The kind a keyword opens; `type` is a short form of `type_alias`. -/
def ofKeyword? (word : Text) : Option BlockKind :=
  if word = "type".toList then some typeAlias else all.find? (·.keyword = word)

end BlockKind

structure Header where
  kind : BlockKind
  name : Text
  deriving DecidableEq

namespace Header

def ofLine? (line : Text) : Option Header :=
  let trimmed := Text.trim line
  if trimmed.getLast? = some '{' then
    match Text.words trimmed.dropLast with
    | [keyword, name] => (BlockKind.ofKeyword? keyword).map (⟨·, name⟩)
    | _ => none
  else none

end Header

def isOpening (line : Text) : Bool := (Header.ofLine? line).isSome

def isClosing (line : Text) : Bool := (Text.trim line).head? = some '}'

structure Block where
  kind : BlockKind
  name : Text
  start : Position
  /-- The end of the closing line. -/
  stop : Position
  /-- Whether a closing line was found. -/
  terminated : Bool
  deriving DecidableEq

namespace Block

def containsLine (block : Block) (row : Nat) : Bool :=
  block.start.line ≤ row && row ≤ block.stop.line

/-- First row of the body and the row behind it. An unterminated block has no closing line, so its last
line belongs to the body. -/
def bodyRows (block : Block) : Nat × Nat :=
  let stop := if block.terminated then block.stop.line else block.stop.line + 1
  (block.start.line + 1, max stop (block.start.line + 1))

def bodyContains (block : Block) (row : Nat) : Bool :=
  block.bodyRows.1 ≤ row && row < block.bodyRows.2

def body (block : Block) (doc : Document) : List (Text × Nat) :=
  doc.rowsBetween block.bodyRows.1 block.bodyRows.2

/-- Range of the name on the opening line, behind the keyword. -/
def nameRange? (block : Block) (doc : Document) : Option Range := do
  let line ← doc.line? block.start.line
  let (_, keywordEnd) ← Text.firstWordSpan line
  let start ← Text.findIdentifier line block.name keywordEnd
  return .ofSpan block.start.line line start (start + Text.byteLength block.name)

/-- The block opened by `header` on row `row`, where `rest` are the lines below. -/
def opened (doc : Document) (header : Header) (row : Nat) (rest : List (Text × Nat)) : Block :=
  let upTo (stop : Nat) (terminated : Bool) : Block :=
    ⟨header.kind, header.name, ⟨row, 0⟩, ⟨stop, doc.width stop⟩, terminated⟩
  match rest.find? fun (line, _) => isOpening line || isClosing line with
  | some (line, stop) => if isOpening line then upTo (stop - 1) false else upTo stop true
  | none => upTo (doc.lineCount - 1) false

/-- The blocks that open in a run of lines. -/
def inRows (doc : Document) : List (Text × Nat) → List Block
  | [] => []
  | (line, row) :: rest =>
    match Header.ofLine? line with
    | some header => opened doc header row rest :: inRows doc rest
    | none => inRows doc rest

end Block

namespace Document

def blocks (doc : Document) : List Block := Block.inRows doc doc.rows

def blockAt? (doc : Document) (row : Nat) : Option Block := doc.blocks.find? (·.containsLine row)

def blockNames (doc : Document) (kind : BlockKind) : List Text :=
  (doc.blocks.filter (·.kind = kind)).map Block.name

end Document

def removeBrackets : Text → Text
  | '[' :: ']' :: rest => removeBrackets rest
  | c :: rest => c :: removeBrackets rest
  | [] => []

/-- A type token without its `?` and `[]` markers. -/
def stripTypeModifiers (token : Text) : Text := removeBrackets (token.filter (· ≠ '?'))

structure Field where
  name : Text
  typeName : Text
  line : Nat
  deriving DecidableEq

def startsAttribute (line : Text) : Bool := (Text.trim line).head? = some '@'

def startsComment (line : Text) : Bool := "//".toList.isPrefixOf (Text.trim line)

namespace Field

def ofLine? (line : Text) (row : Nat) : Option Field :=
  if startsAttribute line || startsComment line then none
  else match Text.words line with
    | name :: token :: _ => some ⟨name, stripTypeModifiers token, row⟩
    | _ => none

end Field

def Block.fields (block : Block) (doc : Document) : List Field :=
  (block.body doc).filterMap fun (line, row) => Field.ofLine? line row

end SchemaServer
