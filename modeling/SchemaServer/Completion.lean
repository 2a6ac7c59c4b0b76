import SchemaServer.Json.Basic
import SchemaServer.Text.Parts
import SchemaServer.Block

/-! What can be written at a cursor, by the block around it and the words before it, and the documentation of
the attributes among that. -/
namespace SchemaServer

structure Attribute where
  name : Text
  documentation : Text

def blockAttributes : List Attribute :=
  [⟨"map".toList, "Maps the model name to a different table name in the database.".toList⟩,
    ⟨"id".toList, "Defines a multi-field primary key on the model.".toList⟩,
    ⟨"unique".toList, "Defines a compound unique constraint for the listed fields.".toList⟩,
    ⟨"index".toList, "Defines an index on the listed fields.".toList⟩]

def fieldAttributes : List Attribute :=
  [⟨"id".toList, "The @id attribute marks the primary identifier of a model.".toList⟩,
    ⟨"unique".toList, "Defines a unique constraint for this field.".toList⟩,
    ⟨"map".toList, "Maps a field name to a different column name in the database.".toList⟩,
    ⟨"default".toList, "Specifies a default value if null is provided.".toList⟩,
    ⟨"relation".toList, "Defines meta information about the relation.".toList⟩,
    ⟨"updatedAt".toList, "Stores the time when the record was last updated.".toList⟩]

/-- Documentation of an attribute written with its mark, `@@name` or `@name`. -/
def attributeDocumentation? (written : Text) : Option Text := do
  let (table, name) ← match Text.after? "@@".toList written with
    | some name => some (blockAttributes, name)
    | none => (Text.after? ['@'] written).map (fieldAttributes, ·)
  let found ← table.find? (·.name = name)
  return found.documentation

/-- Documents a completion item whose data is the name of an attribute; every other item stays as it is. -/
def documentItem (item : Json) : Json :=
  match ((item.member? "data").bind Json.text?).bind attributeDocumentation? with
  | some text => item.set "documentation" (.string text)
  | none => item

inductive CompletionKind
  | keyword
  | scalar
  | model
  | enum
  | field
  | property
  deriving DecidableEq

structure Completion where
  label : Text
  kind : CompletionKind
  /-- The attribute with its mark, by which its documentation is found. -/
  written : Option Text := none
  deriving DecidableEq

namespace Completion

def scalarTypes : List Text :=
  ["String".toList, "Boolean".toList, "Int".toList, "BigInt".toList, "Float".toList, "Decimal".toList,
    "DateTime".toList, "Json".toList, "Bytes".toList]

def datasourceKeys : List Text := ["provider".toList, "url".toList]

def generatorKeys : List Text := ["provider".toList, "output".toList]

def keywords : List Completion := BlockKind.all.map fun kind => ⟨kind.keyword, .keyword, none⟩

def attributes (mark : Text) (table : List Attribute) : List Completion :=
  table.map fun a => ⟨a.name, .property, some (mark ++ a.name)⟩

def types (doc : Document) (block : Block) : List Completion :=
  scalarTypes.map (⟨·, .scalar, none⟩)
    ++ ((doc.blockNames .model).filter (· ≠ block.name)).map (⟨·, .model, none⟩)
    ++ (doc.blockNames .enum).map (⟨·, .enum, none⟩)

/-- What stands in front of the first `=` of a line, or the whole line without one. -/
def assignedKey (line : Text) : Text := Text.trim (line.takeWhile (· ≠ '='))

/-- The keys that no line of the body starts with. -/
def unassigned (doc : Document) (block : Block) (keys : List Text) : List Completion :=
  let assigned := (block.body doc).map fun (line, _) => assignedKey line
  (keys.filter (!assigned.contains ·)).map (⟨·, .field, none⟩)

def otherFields (doc : Document) (block : Block) (row : Nat) : List Completion :=
  ((block.fields doc).filter (·.line ≠ row)).map (⟨·.name, .field, none⟩)

/-- The last `@relation(` of a line is not closed yet. -/
def insideRelation (before : Text) : Bool :=
  match Text.fromLast? "@relation(".toList before with
  | some call => !call.contains ')'
  | none => false

/-- Candidates inside a block, by the text before the cursor, the word `token` that ends there and the
number of words in front of it. -/
def inBlock (doc : Document) (block : Block) (row : Nat) (before token : Text) (wordCount : Nat) :
    List Completion :=
  let fieldAttribute := token.head? = some '@'
  match block.kind with
  | .model =>
    if insideRelation before then otherFields doc block row
    else if "@@".toList.isPrefixOf token then attributes "@@".toList blockAttributes
    else if fieldAttribute then attributes ['@'] fieldAttributes
    else if wordCount = 1 then types doc block
    else []
  | .typeAlias => if fieldAttribute then attributes ['@'] fieldAttributes else []
  | .datasource => if wordCount = 0 then unassigned doc block datasourceKeys else []
  | .generator => if wordCount = 0 then unassigned doc block generatorKeys else []
  | .enum => []

end Completion

def Document.completionsAt (doc : Document) (pos : Position) : List Completion :=
  match doc.line? pos.line with
  | none => []
  | some line =>
    let before := Text.takeWithin Text.unitSize pos.character line
    let token := (before.reverse.takeWhile (!Text.isBlank ·)).reverse
    let wordCount := (Text.words (before.take (before.length - token.length))).length
    match doc.blockAt? pos.line with
    | none => if wordCount > 0 then [] else Completion.keywords
    | some block =>
      if pos.line = block.start.line || (block.terminated && pos.line = block.stop.line) then []
      else Completion.inBlock doc block pos.line before token wordCount

end SchemaServer
