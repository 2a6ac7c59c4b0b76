import SchemaServer.Block
import SchemaServer.Text.Parts

/-! What a cursor on the name of a model, enum or type leads to: where it is declared, and its declaration
with the `///` comments directly above it. -/
namespace SchemaServer

namespace Document

def typeNameAt? (doc : Document) (pos : Position) : Option Text := do
  let line ← doc.line? pos.line
  let name := stripTypeModifiers (Text.wordAt line pos.character)
  if name.isEmpty then none else some name

/-- Range of the name of the first model or enum that the word under the cursor names. -/
def definitionAt? (doc : Document) (pos : Position) : Option Range := do
  let name ← doc.typeNameAt? pos
  let block ← doc.blocks.find? fun b => (b.kind = .model || b.kind = .enum) && b.name = name
  block.nameRange? doc

end Document

def documentationMark : Text := "///".toList

def documentation? (line : Text) : Option Text :=
  (Text.after? documentationMark (Text.trim line)).map Text.trim

/-- The documentation lines directly above the opening line, in order. -/
def Block.documentation (block : Block) (doc : Document) : List Text :=
  if block.start.line ≤ doc.lineCount then
    let above := (doc.lines.take block.start.line).reverse
    ((above.takeWhile fun line => (documentation? line).isSome).filterMap documentation?).reverse
  else []

def Block.markdown (block : Block) (doc : Document) : Text :=
  let heading := "```prisma\n".toList ++ block.kind.keyword ++ [' '] ++ block.name ++ "\n```".toList
  match block.documentation doc with
  | [] => heading
  | docs => heading ++ "\n___\n".toList ++ ['\n'].intercalate docs

def Document.hoverAt? (doc : Document) (pos : Position) : Option Text := do
  let name ← doc.typeNameAt? pos
  let block ← doc.blocks.find? fun b =>
    (b.kind = .model || b.kind = .enum || b.kind = .typeAlias) && b.name = name
  return block.markdown doc

end SchemaServer
