import SchemaServer.Json.Strict

/-! Calls and responses of JSON-RPC 2.0. -/
namespace SchemaServer

/-- A request, or without an identifier a notification. -/
structure Call where
  method : Text
  id : Option Json
  params : Option Json

inductive RpcError
  | unreadable
  | invalidRequest
  /-- With the name of a method that nobody knows; without it if the server merely lacks it. -/
  | methodNotFound (name : Option Text)
  | invalidParams (why : Text)
  | notInitialized
  deriving DecidableEq

namespace RpcError

def code : RpcError → Int
  | unreadable => -32700
  | invalidRequest => -32600
  | methodNotFound _ => -32601
  | invalidParams _ => -32602
  | notInitialized => -32002

def message : RpcError → Text
  | unreadable => "Parse error".toList
  | invalidRequest => "Invalid request".toList
  | methodNotFound _ => "Method not found".toList
  | invalidParams why => why
  | notInitialized => "Server not initialized".toList

def toJson (e : RpcError) : Json :=
  let data := match e with
    | methodNotFound (some name) => [("data", Json.string name)]
    | _ => []
  .ofMembers ([("code", .int e.code), ("message", .string e.message)] ++ data)

end RpcError

structure Response where
  id : Json
  result : Except RpcError Json

def Response.members (response : Response) : List (String × Json) :=
  [("id", response.id), match response.result with
    | .ok value => ("result", value)
    | .error e => ("error", e.toJson)]

inductive Incoming
  | call (call : Call)
  | response

def isInt64 : Json → Bool
  | .int n => Int64.minValue.toInt ≤ n && n ≤ Int64.maxValue.toInt
  | _ => false

/-- Identifiers are integers, texts or null. -/
def isId : Json → Bool
  | .string _ | .null => true
  | value => isInt64 value

def countMembers (members : List (Text × Json)) (name : String) : Nat :=
  (members.filter (·.1 = name.toList)).length

def isVersioned (message : Json) : Bool := (message.member? "jsonrpc").bind Json.text? = some "2.0".toList

namespace Call

def memberNames : List String := ["jsonrpc", "method", "params", "id"]

/-- Reads a call; members of other names do not matter. Without a method it calls the one without a name. -/
def ofMembers? (members : List (Text × Json)) : Option Call :=
  let message := Json.object members
  let id := message.member? "id"
  let repeated := memberNames.any fun name => 1 < countMembers members name
  if repeated || !isVersioned message || !id.all isId then none
  else match message.member? "method" with
    | none => some ⟨[], id, (message.member? "params").map Json.sorted⟩
    | some (.string method) => some ⟨method, id, (message.member? "params").map Json.sorted⟩
    | some _ => none

/-- A call is an object, or a list of the values of its members, of which the last ones may be missing. -/
def ofJson? : Json → Option Call
  | .object members => ofMembers? members
  | .array items =>
    if memberNames.length < items.length then none
    else ofMembers? ((memberNames.map String.toList).zip items)
  | _ => none

end Call

namespace Incoming

def isError : Json → Bool
  | .object members =>
    let error := Json.object members
    let count := countMembers members
    count "code" = 1 && count "message" = 1 && count "data" ≤ 1
      && count "code" + count "message" + count "data" = members.length
      && (error.member? "code").any isInt64 && ((error.member? "message").bind Json.text?).isSome
  | .array [code, .string _, _] => isInt64 code
  | _ => false

/-- A response has an identifier and either a result or an error. -/
def isResponse : Json → Bool
  | .object members =>
    let message := Json.object members
    let count := countMembers members
    count "jsonrpc" = 1 && isVersioned message && count "id" = 1 && (message.member? "id").any isId
      && (count "result" = 1 || (count "error" = 1 && (message.member? "error").any isError))
  | _ => false

/-- What is no response is read as a call. -/
def ofJson? (value : Json) : Option Incoming :=
  if isResponse value then some .response else (Call.ofJson? value).map .call

/-- Reads the body of a message. That a value is no message is found before what follows it. -/
def ofBody (body : Text) : Except RpcError Incoming :=
  match WrittenJson.readStrict? body with
  | none => .error .unreadable
  | some (value, rest) =>
    match ofJson? value with
    | none => .error .invalidRequest
    | some incoming => if rest.all WrittenJson.isSpace then .ok incoming else .error .unreadable

end Incoming

end SchemaServer
