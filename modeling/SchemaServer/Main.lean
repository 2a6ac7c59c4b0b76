import SchemaServer.Server.Session
import SchemaServer.CommandLine.Usage

/-! The program: it reads framed messages from standard input and writes framed answers to standard
output. It starts no other program, so a formatter that is there counts as one that may not be started. -/
namespace SchemaServer

def SystemError.ofIO : IO.Error → SystemError
  | .noFileOrDirectory .. => .notFound
  | .inappropriateType _ code _ => if code = 21 then .isDirectory else .notDirectory
  | .invalidArgument _ 36 _ => .nameTooLong
  | _ => .permissionDenied

namespace Program

def pathExists (path : Text) : IO Bool := do
  try return (← (← IO.FS.realPath (String.ofList path)).pathExists)
  catch _ => return false

def readFile (path : Text) : IO (Except SystemError Text) := do
  try
    let bytes ← IO.FS.readBinFile (String.ofList path)
    return match Text.ofUtf8? bytes.toList with
      | some text => .ok text
      | none => .error .notUtf8
  catch e => return .error (.ofIO e)

def configVariables : IO ConfigVariables := do
  let read (name : String) : IO (Option Text) := do return (← IO.getEnv name).map String.toList
  return ⟨← read "XDG_CONFIG_HOME", ← read "HOME"⟩

/-- The configuration in force, read from the one file that it can stand in. -/
def loadConfig : IO Config := do
  let vars ← configVariables
  match vars.configPath with
  | .error _ => return {}
  | .ok path =>
    let present ← pathExists path
    let content ← readFile path
    return Config.loadOrDefault vars
      ⟨fun _ => present, fun _ => content, fun _ _ _ => .error .notFound⟩

/-- The surroundings as a message finds them. Its settings decide which paths are looked at, and they do
not depend on the surroundings. -/
def surroundings (config : Config) (settings : Settings) : IO Surroundings := do
  let configured := Text.trim settings.formatterPath
  let present ← pathExists configured
  let known (path : Text) : Bool := present && path = configured
  let blind : System := ⟨known, fun _ => .error .notFound, fun _ _ _ => .error .notFound⟩
  let chosen := (FormatterChoice.make settings config blind).path
  let found := chosen.contains '/' && (← pathExists chosen)
  let cause : SystemError := if found then .permissionDenied else .notFound
  return ⟨config, { blind with run := fun _ _ _ => .error cause }⟩

/-- Reads header lines up to the empty one and gives the length that they announce. -/
partial def readLength (input : IO.FS.Stream) (length : Option Nat) : IO (Option Nat) := do
  let line ← input.getLine
  if line.isEmpty then return none
  let text := Text.trim line.toList
  if text.isEmpty then return length
  match Text.after? "Content-Length:".toList text with
  | some value => readLength input (String.ofList (Text.trim value)).toNat?
  | none => readLength input length

partial def readBytes (input : IO.FS.Stream) (count : Nat) (bytes : ByteArray) : IO ByteArray := do
  if count ≤ bytes.size then return bytes
  let more ← input.read (count - bytes.size).toUSize
  if more.isEmpty then return bytes
  readBytes input count (bytes ++ more)

def send (output : IO.FS.Stream) (members : List (String × Json)) : IO Unit := do
  let body := String.ofList (Json.ofMembers (("jsonrpc", .ofString "2.0") :: members)).print
  output.putStr s!"Content-Length: {body.utf8ByteSize}\r\n\r\n{body}"
  output.flush

def sendNotice (output : IO.FS.Stream) (notice : Notice) : IO Unit :=
  match notice.toJson with
  | .object members => send output (members.map fun (key, value) => (String.ofList key, value))
  | _ => return ()

partial def serve (input output : IO.FS.Stream) (config : Config) (session : Session) : IO Unit := do
  let some length ← readLength input none | return ()
  let bytes ← readBytes input length ByteArray.empty
  let body := Text.ofUtf8 bytes.toList
  let (after, _, _) := session.receiveBody (← surroundings config session.workspace.settings) body
  let env ← surroundings config after.workspace.settings
  let (session, notices, reply) := session.receiveBody env body
  notices.forM (sendNotice output)
  match reply with
  | .exited => return ()
  | .response response => send output response.members
  | .silent => pure ()
  serve input output config session

def openLog (path : Text) : IO Unit := do
  try
    let _ ← IO.FS.Handle.mk (String.ofList path) .write
  catch e => (← IO.getStderr).putStr (String.ofList (CommandLine.logFileAlert path (.ofIO e)))

end Program

end SchemaServer

open SchemaServer in
def main (arguments : List String) : IO UInt32 := do
  match CommandLine.Startup.ofArguments (arguments.map String.toList) with
  | .quit stdout stderr exitCode =>
    (← IO.getStdout).putStr (String.ofList stdout)
    (← IO.getStderr).putStr (String.ofList stderr)
    return exitCode.toUInt32
  | .serve logFile =>
    if let some path := logFile then Program.openLog path
    Program.serve (← IO.getStdin) (← IO.getStdout) (← Program.loadConfig) {}
    return 0
