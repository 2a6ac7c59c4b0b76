import SchemaServer.Spelling
import SchemaServer.Completion
import SchemaServer.Position

/-! Fixes for diagnostics that report an unknown type: other spellings of its name. -/
namespace SchemaServer

/-- A diagnostic as a client sends it back. -/
structure Report where
  range : Range
  message : Text
  /-- All of it, in normal form. -/
  given : Json

structure QuickFix where
  report : Report
  name : Text
  preferred : Bool

namespace QuickFix

def title (fix : QuickFix) : Text := "Change spelling to '".toList ++ fix.name ++ "'".toList

def edit (fix : QuickFix) : Edit := ⟨fix.report.range, fix.name⟩

end QuickFix

def unknownType? (message : Text) : Option Text := do
  let rest ← Text.after? "Type \"".toList message
  let (name, _) ← Text.splitAtFirst? "\" is neither a built-in type".toList rest
  return name

namespace Document

/-- Every name that a type can have. -/
def knownTypes (doc : Document) : List Text :=
  Completion.scalarTypes ++ doc.blockNames .model ++ doc.blockNames .enum ++ doc.blockNames .typeAlias

def fixesFor (doc : Document) (report : Report) : List QuickFix :=
  match unknownType? report.message with
  | none => []
  | some unknown =>
    (Spelling.suggestions unknown doc.knownTypes).zipIdx.map fun (name, rank) =>
      ⟨report, name, rank = 0⟩

def quickFixes (doc : Document) (reports : List Report) : List QuickFix := reports.flatMap doc.fixesFor

end Document

end SchemaServer
