import SchemaServer.Position
import SchemaServer.Document
import SchemaServer.Json.Written
import SchemaServer.Text.Parts

/-! The output of a lint run, a JSON list of problems, each between two byte offsets of the text, and the
problems as they are reported, each about a range of the document. -/
namespace SchemaServer

inductive Severity
  | error
  | warning
  deriving DecidableEq

structure Diagnostic where
  range : Range
  severity : Severity
  message : Text
  deriving DecidableEq

structure Lint where
  start : Nat
  stop : Nat
  text : Text
  isWarning : Bool
  deriving DecidableEq

namespace Lint

def offset? : WrittenJson → Option Nat
  | .number spelling =>
    if spelling.all Char.isDigit then
      let n := spelling.foldl (fun n c => n * 10 + (c.toNat - '0'.toNat)) 0
      if n < UInt64.size then some n else none
    else none
  | _ => none

def message? : WrittenJson → Option Text
  | .string content => content
  | _ => none

def flag? : WrittenJson → Option Bool
  | .bool b => some b
  | _ => none

/-- The only member of that name, `fallback` where there is none. -/
def only? (members : List (Text × WrittenJson)) (key : String) (fallback : Option WrittenJson) :
    Option WrittenJson :=
  match members.filter (·.1 = key.toList) with
  | [] => fallback
  | [(_, value)] => some value
  | _ => none

/-- An object, whose unknown members do not matter, or a list of its values in order. -/
def ofWritten? : WrittenJson → Option Lint
  | .object members => do
    let members ← members.mapM fun (key, value) => key.map (·, value)
    let start ← offset? (← only? members "start" none)
    let stop ← offset? (← only? members "end" none)
    let text ← message? (← only? members "text" none)
    let isWarning ← flag? (← only? members "is_warning" (some (.bool false)))
    return ⟨start, stop, text, isWarning⟩
  | .array [start, stop, text] => do
    return ⟨← offset? start, ← offset? stop, ← message? text, false⟩
  | .array [start, stop, text, isWarning] => do
    return ⟨← offset? start, ← offset? stop, ← message? text, ← flag? isWarning⟩
  | _ => none

/-- Blank output reports nothing. -/
def ofOutput? (output : Text) : Option (List Lint) :=
  if output.all Text.isBlank then some []
  else match WrittenJson.ofText? output with
    | some (.array items) => items.mapM ofWritten?
    | _ => none

def toDiagnostic (doc : Document) (lint : Lint) : Diagnostic :=
  ⟨⟨doc.positionAtByte lint.start, doc.positionAtByte lint.stop⟩,
    if lint.isWarning then .warning else .error, lint.text⟩

end Lint

end SchemaServer
