import SchemaServer.Uri
import SchemaServer.Wire.Misfit

/-! The shapes of the values that the protocol sends. Reading a value by its shape checks it and gives its
normal form: an object with the members that the shape names, in their order, without those that are null or
unknown, and with addresses in their normal form. -/
namespace SchemaServer

inductive Shape
  | any
  | text
  | flag
  | number
  /-- An integer between two bounds. -/
  | int (name : String) (low high : Int)
  | uri
  /-- One of some words. It may also name the only member of an object, which is null. -/
  | word (choices : List String)
  | list (item : Shape)
  /-- An object with members by name, each required or not. It may also be a list of all its values in
  order. -/
  | record (name : String) (members : List (String × Bool × Shape))
  | union (name : String) (choices : List Shape)
  /-- An object that holds the members of all the shapes. Those of the first are its own and are read first. -/
  | joined (name : String) (parts : List Shape)
  /-- An object whose members have one shape, except those of some names. -/
  | others (names : List String) (item : Shape)

namespace Shape

def recordText (name : String) : Text := "struct ".toList ++ name.toList

def countText (count : Nat) : Text :=
  Nat.toDigits 10 count ++ (if count = 1 then " element" else " elements").toList

/-- What is expected of a list that goes on behind the last member of a record. Values that are set aside
until the members around them are read count their items. -/
def endText (isSetAside : Bool) (count : Nat) : Text :=
  if isSetAside then countText count ++ " in sequence".toList else "fewer elements in array".toList

/-- Of the members of an object, the wrong ones are found before the missing ones, and in the order of
their names. -/
def settle (value : Json) (read : List (String × Except Misfit (Option Json))) :
    Except Misfit (List (Text × Json)) := do
  let (given, missing) := read.partition fun (name, _) => (value.member? name).isSome
  let _ ← ((given.mergeSort fun a b => decide (a.1 ≤ b.1)) ++ missing).mapM Prod.snd
  let found ← read.mapM fun (name, member) => member.map fun item => (name.toList, item)
  return found.filterMap fun (name, item) => item.map (name, ·)

mutual

def read (isSetAside : Bool) : Shape → Json → Except Misfit Json
  | any, value => .ok value
  | text, .string s => .ok (.string s)
  | text, other => .error (.kind other "a string".toList)
  | flag, .bool b => .ok (.bool b)
  | flag, other => .error (.kind other "a boolean".toList)
  | number, .int n => .ok (.int n)
  | number, .float isNegative magnitude => .ok (.float isNegative magnitude)
  | number, other => .error (.kind other "f32".toList)
  | int name low high, .int n =>
    if low ≤ n && n ≤ high then .ok (.int n) else .error (.range n name.toList)
  | int name _ _, other => .error (.kind other name.toList)
  | uri, .string s =>
    match Uri.ofText s with
    | .ok address => .ok (.string address)
    | .error fault => .error (.address s fault)
  | uri, other => .error (.kind other "a string representing an URL".toList)
  | word choices, .string s =>
    if choices.any (·.toList = s) then .ok (.string s) else .error (.word s choices)
  | word choices, .object [(s, .null)] =>
    if choices.any (·.toList = s) then .ok (.string s) else .error (.word s choices)
  | word _, other => .error (.kind other "string or map".toList)
  | list item, .array items => (items.mapM (read isSetAside item)).map .array
  | list _, other => .error (.kind other "a sequence".toList)
  | record _ members, .object given => do
    let found ← settle (.object given) (readMembers isSetAside members (.object given))
    return .object found
  | record name members, .array items => do
    let found ← readItems isSetAside members items
    if items.length < members.length then
      .error (.length items.length (recordText name ++ " with ".toList ++ countText members.length))
    else if members.length < items.length then
      .error (.length items.length (endText isSetAside members.length))
    else return .object found
  | record name _, other => .error (.kind other (recordText name))
  | union name choices, value => (readFirst? choices value).elim (.error (.union name)) .ok
  | joined _ parts, .object given => (readParts isSetAside parts (.object given)).map .object
  | joined name _, other => .error (.kind other (recordText name))
  | others names item, .object given => do
    let rest := given.filter fun (name, _) => !names.any (·.toList = name)
    return .object (← rest.mapM fun (name, value) => (read isSetAside item value).map (name, ·))
  | others .., other => .error (.kind other "a map".toList)

def readMembers (isSetAside : Bool) : List (String × Bool × Shape) → Json →
    List (String × Except Misfit (Option Json))
  | [], _ => []
  | (name, isRequired, shape) :: rest, value =>
    let member := match if isRequired then value.member? name else value.given? name with
      | some member => (read isSetAside shape member).map some
      | none => if isRequired then .error (.missing name) else .ok none
    (name, member) :: readMembers isSetAside rest value

def readItems (isSetAside : Bool) : List (String × Bool × Shape) → List Json →
    Except Misfit (List (Text × Json))
  | (name, isRequired, shape) :: rest, item :: items => do
    let member ← if !isRequired && item.isNull then pure [] else
      (read isSetAside shape item).map fun member => [(name.toList, member)]
    return member ++ (← readItems isSetAside rest items)
  | _, _ => .ok []

def readFirst? : List Shape → Json → Option Json
  | [], _ => none
  | shape :: rest, value =>
    match read true shape value with
    | .ok found => some found
    | .error _ => readFirst? rest value

/-- All members of an object that belong to some shapes. Only those of the first are read at once. -/
def readParts (isSetAside : Bool) : List Shape → Json → Except Misfit (List (Text × Json))
  | [], _ => .ok []
  | shape :: rest, value => do
    let members ← match ← read isSetAside shape value with
      | .object members => pure members
      | _ => pure []
    return members ++ (← readParts true rest value)

end

/-- The normal form of a value that has the shape. -/
def read? (shape : Shape) (value : Json) : Option Json := (shape.read false value).toOption

/-! ## Shapes of the protocol -/

def required (name : String) (shape : Shape) : String × Bool × Shape := (name, true, shape)

def optional (name : String) (shape : Shape) : String × Bool × Shape := (name, false, shape)

def nat32 : Shape := int "u32" 0 (UInt32.size - 1)

def int32 : Shape := int "i32" Int32.minValue.toInt Int32.maxValue.toInt

def position : Shape := record "Position" [required "line" nat32, required "character" nat32]

def range : Shape := record "Range" [required "start" position, required "end" position]

def edit : Shape := record "TextEdit" [required "range" range, required "newText" text]

def numberOrText : Shape := union "NumberOrString" [int32, text]

def location : Shape := record "Location" [required "uri" uri, required "range" range]

def diagnostic : Shape := record "Diagnostic" [
  required "range" range,
  optional "severity" int32,
  optional "code" numberOrText,
  optional "codeDescription" (record "CodeDescription" [required "href" uri]),
  optional "source" text,
  required "message" text,
  optional "relatedInformation" (list (record "DiagnosticRelatedInformation"
    [required "location" location, required "message" text])),
  optional "tags" (list int32),
  optional "data" any]

def markupKind : Shape := word ["plaintext", "markdown"]

def documentation : Shape :=
  union "Documentation" [text, record "MarkupContent" [required "kind" markupKind, required "value" text]]

def command : Shape :=
  record "Command" [required "title" text, required "command" text, optional "arguments" (list any)]

def completionItem : Shape := record "CompletionItem" [
  required "label" text,
  optional "labelDetails"
    (record "CompletionItemLabelDetails" [optional "detail" text, optional "description" text]),
  optional "kind" int32,
  optional "detail" text,
  optional "documentation" documentation,
  optional "deprecated" flag,
  optional "preselect" flag,
  optional "sortText" text,
  optional "filterText" text,
  optional "insertText" text,
  optional "insertTextFormat" int32,
  optional "insertTextMode" int32,
  optional "textEdit" (union "CompletionTextEdit" [edit, record "InsertReplaceEdit"
    [required "newText" text, required "insert" range, required "replace" range]]),
  optional "additionalTextEdits" (list edit),
  optional "command" command,
  optional "commitCharacters" (list text),
  optional "data" any,
  optional "tags" (list int32)]

def document : Shape := record "TextDocumentIdentifier" [required "uri" uri]

end Shape

end SchemaServer
