import SchemaServer.Server.Workspace
import SchemaServer.Server.Rpc
import SchemaServer.Json.Print
import SchemaServer.Wire.Decode
import SchemaServer.Wire.Params

/-! The methods of the protocol by name, and their parameters. -/
namespace SchemaServer

inductive Method
  | start
  | shutdown
  | exit
  | cancel
  | request (read : Json → Except Misfit Message)
  | notification (read : Json → Except Misfit Message)
  /-- A request of the protocol that the server lacks. -/
  | missingRequest (params : Shape)
  /-- A notification of the protocol that the server ignores. -/
  | missingNotification

namespace Method

/-! ## Messages of parameters in normal form -/

def uriOf (params : Json) : Uri := (params.get "textDocument").getText "uri"

def versionOf (params : Json) : Int := (params.get "textDocument").getInt "version"

def atPlace (make : Uri → Position → Message) (params : Json) : Message :=
  make (uriOf params) (.ofJson (params.get "position"))

def openMessage (params : Json) : Message :=
  .didOpen (uriOf params) (versionOf params) ((params.get "textDocument").getText "text")

def changeMessage (params : Json) : Message :=
  .didChange (uriOf params) (versionOf params) ((params.getItems "contentChanges").map (·.getText "text"))

def codeActionMessage (params : Json) : Message :=
  .codeAction (uriOf params) (((params.get "context").getItems "diagnostics").map Report.ofJson)

def formattingMessage (params : Json) : Message :=
  .formatting (uriOf params) ((params.get "options").getNat "tabSize")

/-! ## Methods by name -/

def shaped (shape : Shape) (message : Json → Message) (params : Json) : Except Misfit Message :=
  (shape.read false params).map message

def table : List (String × Method) :=
  [("initialize", start), ("shutdown", shutdown), ("exit", exit), ("$/cancelRequest", cancel),
    ("initialized", notification (shaped .readyParams fun _ => .initialized)),
    ("textDocument/didOpen", notification (shaped .openParams openMessage)),
    ("textDocument/didChange", notification (shaped .changeParams changeMessage)),
    ("textDocument/didClose", notification (shaped .closeParams (.didClose <| uriOf ·))),
    ("workspace/didChangeConfiguration", notification (shaped .configurationParams
      (.didChangeConfiguration <| ·.get "settings"))),
    ("textDocument/prepareRename", request (shaped .placeParams (atPlace .prepareRename))),
    ("textDocument/rename", request (shaped .renameParams fun params =>
      atPlace (.rename · · (params.getText "newName")) params)),
    ("textDocument/definition", request (shaped .definitionParams (atPlace .definition))),
    ("textDocument/completion", request (shaped .completionParams (atPlace .completion))),
    ("completionItem/resolve", request (shaped .completionItem .resolveCompletion)),
    ("textDocument/hover", request (shaped .hoverParams (atPlace .hover))),
    ("textDocument/codeAction", request (shaped .codeActionParams codeActionMessage)),
    ("textDocument/formatting", request (shaped .formattingParams formattingMessage))]

def missingNotifications : List String :=
  ["textDocument/willSave", "textDocument/didSave", "workspace/didChangeWorkspaceFolders",
    "workspace/didCreateFiles", "workspace/didRenameFiles", "workspace/didDeleteFiles",
    "workspace/didChangeWatchedFiles"]

def ofName? (name : Text) : Option Method :=
  match table.find? (·.1.toList = name), Shape.missingRequests.find? (·.1.toList = name) with
  | some (_, method), _ => some method
  | none, some (_, params) => some (missingRequest params)
  | none, none => if missingNotifications.any (·.toList = name) then some missingNotification else none

end Method

def readParams {α : Type} (read : Json → Except Misfit α) : Option Json → Except RpcError α
  | none => .error (.invalidParams "Missing params field".toList)
  | some params => (read params).mapError fun misfit => .invalidParams misfit.message

structure ClientFacts where
  options : Option Json
  codeActionLiterals : Bool

def ClientFacts.ofJson (params : Json) : Except Misfit ClientFacts := do
  let params ← Shape.startParams.read false params
  let codeActions := ((params.get "capabilities").get "textDocument").get "codeAction"
  return ⟨params.member? "initializationOptions", (codeActions.member? "codeActionLiteralSupport").isSome⟩

end SchemaServer
