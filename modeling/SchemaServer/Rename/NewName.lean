import SchemaServer.Text.Identifier
import SchemaServer.Symbol
import SchemaServer.Position
import SchemaServer.Text.Parts

/-! The two names of a rename: which new names it accepts, and the mapping attributes that keep the old name in
the database. -/
namespace SchemaServer

inductive NewNameError
  | empty
  | notIdentifier (name : Text)
  deriving DecidableEq

namespace NewNameError

def message : NewNameError → Text
  | empty => "new name must not be empty".toList
  | notIdentifier name => "'".toList ++ name ++ "' is not a valid identifier".toList

end NewNameError

def checkNewName (name : Text) : Except NewNameError Unit :=
  if name.isEmpty then .error .empty
  else if Text.isIdentifier name then .ok ()
  else .error (.notIdentifier name)

def blockMapAttribute : Text := "@@map(".toList

def fieldMapAttribute : Text := "@map(".toList

def isBlockMapping (line : Text) : Bool := blockMapAttribute.isPrefixOf (Text.trim line)

/-- The end of a line. A row that the document lacks counts as an empty line. -/
def Document.lineEnd (doc : Document) (row : Nat) : Position :=
  if row < doc.lineCount then ⟨row, doc.width row⟩ else ⟨lineNumber row, 0⟩

namespace Symbol

/-- No mapping anchors the name in the database yet. -/
def needsMapping (symbol : Symbol) (doc : Document) : Bool :=
  if symbol.kind.isBlockName then
    !(symbol.block.body doc).any fun (line, _) => isBlockMapping line
  else
    !(doc.line? symbol.line).any (Text.mentions · fieldMapAttribute)

/-- The attribute that maps to the current name. A block takes it in front of its closing brace, so an
unterminated block takes none. -/
def mapping? (symbol : Symbol) (doc : Document) : Option Edit :=
  if symbol.kind.isBlockName then
    let stop := symbol.block.stop
    if symbol.block.terminated then
      some ⟨⟨⟨stop.line, 0⟩, stop⟩, "\t@@map(\"".toList ++ symbol.name ++ "\")\n\x7d".toList⟩
    else none
  else
    let stop := doc.lineEnd symbol.line
    some ⟨⟨stop, stop⟩, " @map(\"".toList ++ symbol.name ++ "\")".toList⟩

end Symbol

end SchemaServer
