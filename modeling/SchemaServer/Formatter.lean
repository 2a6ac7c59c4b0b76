import SchemaServer.Lint
import SchemaServer.System
import SchemaServer.Text.Quoted
import SchemaServer.Text.Encoding

/-! The external formatter: it lints or formats a text given on its input. -/
namespace SchemaServer

inductive FormatterError
  | notStarted (path : Text) (cause : SystemError)
  | failed (status : ExitStatus) (stderr : Text)
  | unreadableOutput
  deriving DecidableEq

namespace FormatterError

def message : FormatterError → Text
  | notStarted path cause =>
    "failed to start ".toList ++ Text.quoted path ++ ": ".toList ++ cause.message
  | failed status stderr => "prisma-fmt exited with ".toList ++ status.text ++ ": ".toList ++ stderr
  | unreadableOutput => "prisma-fmt returned unreadable output: ".toList

end FormatterError

structure Formatter where
  path : Text

namespace Formatter

def run (formatter : Formatter) (sys : System) (arguments : List Text) (input : Text) :
    Except FormatterError Text :=
  match sys.run formatter.path arguments input with
  | .error cause => .error (.notStarted formatter.path cause)
  | .ok output =>
    if output.status = .code 0 then .ok (Text.ofUtf8 output.stdout)
    else .error (.failed output.status (Text.trim (Text.ofUtf8 output.stderr)))

def format (formatter : Formatter) (sys : System) (text : Text) (tabSize : Nat) :
    Except FormatterError Text :=
  formatter.run sys ["format".toList, "-s".toList, (toString tabSize).toList] text

def lint (formatter : Formatter) (sys : System) (text : Text) : Except FormatterError (List Lint) :=
  match formatter.run sys ["lint".toList, "--no-env-errors".toList] text with
  | .error e => .error e
  | .ok output =>
    match Lint.ofOutput? output with
    | some lints => .ok lints
    | none => .error .unreadableOutput

end Formatter

end SchemaServer
