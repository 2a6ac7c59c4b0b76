import SchemaServer.Lint
import SchemaServer.QuickFix

/-! The written form of answers as JSON. -/
namespace SchemaServer

def Position.toJson (pos : Position) : Json :=
  .ofMembers [("line", .nat pos.line), ("character", .nat pos.character)]

def Range.toJson (range : Range) : Json :=
  .ofMembers [("start", range.start.toJson), ("end", range.stop.toJson)]

def Edit.toJson (edit : Edit) : Json :=
  .ofMembers [("range", edit.range.toJson), ("newText", .string edit.newText)]

def changesJson (uri : Text) (edits : List Edit) : Json :=
  .ofMembers [("changes", .object [(uri, .array (edits.map Edit.toJson))])]

def Severity.code : Severity → Nat
  | error => 1
  | warning => 2

def Diagnostic.toJson (d : Diagnostic) : Json :=
  .ofMembers [("range", d.range.toJson), ("severity", .nat d.severity.code),
    ("source", .ofString "prisma"), ("message", .string d.message)]

def CompletionKind.code : CompletionKind → Nat
  | keyword => 14
  | scalar => 25
  | model => 7
  | enum => 13
  | field => 5
  | property => 10

def Completion.toJson (c : Completion) : Json :=
  .ofMembers ([("label", .string c.label), ("kind", .nat c.kind.code)]
    ++ (c.written.map fun w => ("data", Json.string w)).toList)

def markdownJson (text : Text) : Json :=
  .ofMembers [("contents", .ofMembers [("kind", .ofString "markdown"), ("value", .string text)])]

def QuickFix.toJson (fix : QuickFix) (uri : Text) : Json :=
  .ofMembers [("title", .string fix.title), ("kind", .ofString "quickfix"),
    ("diagnostics", .array [fix.report.given]), ("edit", changesJson uri [fix.edit]),
    ("isPreferred", .bool fix.preferred)]

end SchemaServer
