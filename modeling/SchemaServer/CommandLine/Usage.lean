import SchemaServer.CommandLine.Arguments
import SchemaServer.System
import SchemaServer.Text.Quoted

/-! What the program prints about itself and about faulty arguments. -/
namespace SchemaServer.CommandLine

def usage (parts : List Text) : Text :=
  "Usage: prisma-lsp ".toList ++
    if parts.isEmpty then "[OPTIONS]".toList else [' '].intercalate parts

def usageLine (used : List Flag) : Text := usage (used.map Flag.shown)

def verbosityGroup : Text :=
  ['<'] ++ ['|'].intercalate ((Flag.all.filter Flag.isVerbosity).map Flag.shown) ++ ['>']

/-- The usage of flags read before a faulty one, and of that one. Flags of verbosity read before stand
together behind all others. -/
def faultUsageLine (before : List Flag) (fault : Flag) : Text :=
  let all := Flag.addTo before fault
  if before.any Flag.isVerbosity then
    usage ((all.filter (!·.isVerbosity)).map Flag.shown ++ [verbosityGroup])
  else usageLine all

def helpLines : List Text :=
  ["Language server for Prisma schema files with mapping-preserving rename".toList,
    [],
    usageLine [],
    [],
    "Options:".toList,
    "  -d, --debuglogfile <FILE>  write logs to this file".toList,
    "      --stdio                talk LSP over stdin/stdout (the only transport; accepted for editor compatibility)".toList,
    "  -v, --verbose...           Increase logging verbosity".toList,
    "  -q, --quiet...             Decrease logging verbosity".toList,
    "  -h, --help                 Print help".toList,
    "  -V, --version              Print version".toList]

def unlines (lines : List Text) : Text := lines.flatMap (· ++ ['\n'])

def helpText : Text := unlines helpLines

def versionText : Text := "prisma-lsp 0.1.0\n".toList

namespace ArgumentError

def inQuotes (s : Text) : Text := ['\''] ++ s ++ ['\'']

def paragraphs : ArgumentError → List Text
  | unexpected argument meant used =>
    ["unexpected argument ".toList ++ inQuotes argument ++ " found".toList]
      ++ (meant.map fun flag => "  tip: a similar argument exists: ".toList
          ++ inQuotes ("--".toList ++ flag.long)).toList
      ++ [usageLine used]
  | missingValue flag =>
    ["a value is required for ".toList ++ inQuotes flag.shown ++ " but none was supplied".toList]
  | unexpectedValue value flag used =>
    ["unexpected value ".toList ++ inQuotes value ++ " for ".toList ++ inQuotes flag.shown
        ++ " found; no more were expected".toList,
      faultUsageLine used flag]
  | repeated flag =>
    ["the argument ".toList ++ inQuotes flag.shown ++ " cannot be used multiple times".toList, usageLine []]
  | conflict first second used =>
    ["the argument ".toList ++ inQuotes first.shown ++ " cannot be used with ".toList
        ++ inQuotes second.shown,
      usageLine used]

def message (e : ArgumentError) : Text :=
  "error: ".toList ++ "\n\n".toList.intercalate
    (e.paragraphs ++ ["For more information, try '--help'.".toList]) ++ ['\n']

end ArgumentError

inductive Startup
  | quit (stdout stderr : Text) (exitCode : Nat)
  | serve (logFile : Option Text)

def Startup.ofArguments (arguments : List Text) : Startup :=
  match Command.ofArguments arguments with
  | .ok .help => .quit helpText [] 0
  | .ok .version => .quit versionText [] 0
  | .ok (.serve logFile) => .serve logFile
  | .error e => .quit [] e.message 2

/-- A log file that cannot be opened does not keep the server from running. -/
def logFileAlert (path : Text) (cause : SystemError) : Text :=
  "cannot open log file ".toList ++ Text.quoted path ++ ": ".toList ++ cause.message ++ ['\n']

end SchemaServer.CommandLine
