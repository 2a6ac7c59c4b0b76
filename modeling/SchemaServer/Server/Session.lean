import SchemaServer.Server.Method
import SchemaServer.Wire.Encode

/-! The life of a server: it starts uninitialized, works between `initialize` and `shutdown`, and ends
with `exit`. -/
namespace SchemaServer

inductive Phase
  | uninitialized
  | initialized
  | shutDown
  | exited
  deriving DecidableEq

structure Session where
  phase : Phase := .uninitialized
  workspace : Workspace := {}

inductive Reply
  | silent
  | response (response : Response)
  | exited

def Answer.toJson : Answer → Except RpcError Json
  | .nothing => .ok .null
  | .prepared range placeholder =>
    .ok (.ofMembers [("range", range.toJson), ("placeholder", .string placeholder)])
  | .changes uri edits => .ok (changesJson uri edits)
  | .location uri range => .ok (.ofMembers [("uri", .string uri), ("range", range.toJson)])
  | .completions list => .ok (.array (list.map Completion.toJson))
  | .item value => .ok value
  | .markdown text => .ok (markdownJson text)
  | .fixes uri list => .ok (.array (list.map (·.toJson uri)))
  | .formatted edit => .ok (.array [edit.toJson])
  | .refused e => .error (.invalidParams e.message)

def Notice.toJson : Notice → Json
  | .log text => .ofMembers [("method", .ofString "window/logMessage"),
      ("params", .ofMembers [("type", .nat 3), ("message", .string text)])]
  | .alert text => .ofMembers [("method", .ofString "window/showMessage"),
      ("params", .ofMembers [("type", .nat 1), ("message", .string text)])]
  | .diagnostics uri items version => .ofMembers [("method", .ofString "textDocument/publishDiagnostics"),
      ("params", .ofMembers ([("uri", .string uri), ("diagnostics", .array (items.map Diagnostic.toJson))]
        ++ (version.map fun v => ("version", Json.int v)).toList))]

/-- What the server can do, for a client with or without code actions as literals. -/
def capabilitiesJson (codeActionLiterals : Bool) : Json :=
  let codeActions := if codeActionLiterals then
    [("codeActionProvider", Json.ofMembers [("codeActionKinds", .array [.ofString "quickfix"])])] else []
  .ofMembers [
    ("capabilities", .ofMembers ([
      ("positionEncoding", .ofString "utf-16"),
      ("textDocumentSync", .nat 1),
      ("completionProvider", .ofMembers [("resolveProvider", .bool true),
        ("triggerCharacters", .array [.ofString "@", .ofString "\"", .ofString "."])]),
      ("definitionProvider", .bool true),
      ("hoverProvider", .bool true),
      ("documentFormattingProvider", .bool true),
      ("renameProvider", .ofMembers [("prepareProvider", .bool true)])] ++ codeActions)),
    ("serverInfo", .ofMembers [("name", .ofString "prisma-lsp"), ("version", .ofString "0.1.0")])]

def Call.respond (call : Call) (result : Except RpcError Json) : Reply :=
  match call.id with
  | some id => .response ⟨id, result⟩
  | none => .silent

namespace Session

/-- Reads the settings among the options and is ready from then on. -/
def start (session : Session) (facts : ClientFacts) : Session :=
  let ws := session.workspace
  ⟨.initialized, (facts.options.map ws.acceptSettings).getD ws⟩

def perform (env : Surroundings) (session : Session) (call : Call) (message : Message) :
    Session × List Notice × Reply :=
  let (workspace, notices, answer) := session.workspace.handle env message
  ({ session with workspace }, notices, call.respond answer.toJson)

/-- A method call of a ready server. Requests need an identifier and notifications must have none. -/
def dispatch (env : Surroundings) (session : Session) (call : Call) :
    Method → Session × List Notice × Reply
  | .request read =>
    if call.id.isNone then (session, [], .silent)
    else match readParams read call.params with
      | .ok message => session.perform env call message
      | .error e => (session, [], call.respond (.error e))
  | .notification read =>
    if call.id.isSome then (session, [], call.respond (.error .invalidRequest))
    else match readParams read call.params with
      | .ok message => session.perform env call message
      | .error _ => (session, [], .silent)
  | .missingRequest params =>
    match readParams (params.read false) call.params with
    | .ok _ => (session, [], call.respond (.error (.methodNotFound none)))
    | .error e => (session, [], call.respond (.error e))
  | _ => (session, [], call.respond (.error .invalidRequest))

def notReady (session : Session) (call : Call) : Session × List Notice × Reply :=
  let e : RpcError := if session.phase = .uninitialized then .notInitialized else .invalidRequest
  (session, [], call.respond (.error e))

def shutdown (session : Session) (call : Call) : Session × List Notice × Reply :=
  let result := match call.params with
    | none => .ok .null
    | some params => .error (.invalidParams ("Unexpected params: ".toList ++ params.print))
  ({ session with phase := .shutDown }, [], call.respond result)

def receive (env : Surroundings) (session : Session) (call : Call) : Session × List Notice × Reply :=
  if session.phase = .exited then (session, [], .exited)
  else match Method.ofName? call.method with
    | none =>
      if "$/".toList.isPrefixOf call.method then (session, [], .silent)
      else (session, [], call.respond (.error (.methodNotFound (some call.method))))
    | some .exit => ({ session with phase := .exited }, [], .silent)
    | some .cancel => (session, [], call.respond (.error .invalidRequest))
    | some .start =>
      if session.phase ≠ .uninitialized then (session, [], call.respond (.error .invalidRequest))
      else if call.id.isNone then (session, [], .silent)
      else match readParams ClientFacts.ofJson call.params with
        | .ok facts =>
          (session.start facts, [], call.respond (.ok (capabilitiesJson facts.codeActionLiterals)))
        | .error e => (session, [], call.respond (.error e))
    | some .shutdown =>
      if session.phase = .initialized then session.shutdown call else session.notReady call
    | some method =>
      if session.phase = .initialized then session.dispatch env call method else session.notReady call

def receiveBody (env : Surroundings) (session : Session) (body : Text) : Session × List Notice × Reply :=
  if session.phase = .exited then (session, [], .exited)
  else match Incoming.ofBody body with
    | .ok (.call call) => session.receive env call
    | .ok .response => (session, [], .silent)
    | .error e => (session, [], .response ⟨.null, .error e⟩)

end Session

end SchemaServer
