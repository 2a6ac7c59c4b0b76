import SchemaServer.CommandLine.Similarity

/-! The arguments of the program, read one after another. The first fault, or the first request for help
or the version, ends the reading; conflicts are looked for at the end. -/
namespace SchemaServer.CommandLine

inductive Flag
  | logFile
  | stdio
  | verbose
  | quiet
  | help
  | version
  deriving DecidableEq

namespace Flag

def all : List Flag := [logFile, stdio, verbose, quiet, help, version]

def long : Flag → Text
  | logFile => "debuglogfile".toList
  | stdio => "stdio".toList
  | verbose => "verbose".toList
  | quiet => "quiet".toList
  | help => "help".toList
  | version => "version".toList

def short? : Flag → Option Char
  | logFile => some 'd'
  | stdio => none
  | verbose => some 'v'
  | quiet => some 'q'
  | help => some 'h'
  | version => some 'V'

def shown (flag : Flag) : Text :=
  "--".toList ++ flag.long ++ match flag with
    | logFile => " <FILE>".toList
    | verbose | quiet => "...".toList
    | _ => []

def isVerbosity (flag : Flag) : Bool := flag = verbose || flag = quiet

/-- Flags and one more, which is named once. -/
def addTo (flags : List Flag) (flag : Flag) : List Flag :=
  if flags.contains flag then flags else flags ++ [flag]

end Flag

inductive ArgumentError
  /-- With the flag that was perhaps meant, and the flags that the usage line names. -/
  | unexpected (argument : Text) (meant : Option Flag) (used : List Flag)
  | missingValue (flag : Flag)
  /-- With the flags read before it. -/
  | unexpectedValue (value : Text) (flag : Flag) (used : List Flag)
  | repeated (flag : Flag)
  | conflict (first second : Flag) (used : List Flag)

inductive Command
  | help
  | version
  | serve (logFile : Option Text)

/-- What is read so far: the flags in order of their last use, the log file, and a flag that still waits
for its value or whose value is not checked yet. -/
structure Progress where
  used : List Flag := []
  logFile : Option Text := none
  waiting : Option (Option Text) := none

inductive Ending
  | error (e : ArgumentError)
  | command (c : Command)

namespace Progress

/-- Takes the waiting value. -/
def settle (p : Progress) : Except Ending Progress :=
  match p.waiting with
  | none => .ok p
  | some none => .error (.error (.missingValue .logFile))
  | some (some value) =>
    if p.used.contains .logFile then .error (.error (.repeated .logFile))
    else if value.isEmpty then .error (.error (.missingValue .logFile))
    else .ok ⟨p.used ++ [.logFile], some value, none⟩

/-- The flags once the waiting value is taken. A value that is refused counts too, and a second log file
takes the first one away. -/
def settledFlags (p : Progress) : List Flag :=
  match p.waiting with
  | some (some _) =>
    if p.used.contains .logFile then p.used.filter (· ≠ .logFile) else p.used ++ [.logFile]
  | _ => p.used

def take (p : Progress) (flag : Flag) : Except Ending Progress := do
  let p ← p.settle
  match flag with
  | .help => .error (.command .help)
  | .version => .error (.command .version)
  | .stdio =>
    if p.used.contains .stdio then .error (.error (.repeated .stdio))
    else .ok { p with used := p.used ++ [.stdio] }
  | _ => .ok { p with used := p.used.filter (· ≠ flag) ++ [flag] }

def takeLogFile (p : Progress) (value : Option Text) : Except Ending Progress := do
  let p ← p.settle
  match value with
  | none => .ok { p with waiting := some none }
  | some value => ({ p with waiting := some (some value) } : Progress).settle

/-- Takes a cluster of short flags; the rest behind `d` is its value. -/
def takeShorts (p : Progress) : Text → Except Ending Progress
  | [] => .ok p
  | c :: rest =>
    match Flag.all.find? (·.short? = some c) with
    | none => .error (.error (.unexpected ['-', c] none []))
    | some .logFile =>
      match rest with
      | [] => p.takeLogFile none
      | '=' :: value => p.takeLogFile (some value)
      | value => p.takeLogFile (some value)
    | some flag => do (← p.take flag).takeShorts rest

def takeLong (p : Progress) (name : Text) (value : Option Text) : Except Ending Progress :=
  match Flag.all.find? (·.long = name) with
  | some .logFile => p.takeLogFile value
  | some flag =>
    match value with
    | none => p.take flag
    | some value => .error (.error (.unexpectedValue value flag p.used))
  | none =>
    let meant := (closest? name (Flag.all.map Flag.long)).bind fun n => Flag.all.find? (·.long = n)
    let used := p.settledFlags
    .error (.error (.unexpected ("--".toList ++ name) meant (meant.elim used (Flag.addTo used))))

def takeArgument (p : Progress) (argument : Text) : Except Ending Progress :=
  match argument with
  | '-' :: '-' :: rest =>
    let name := rest.takeWhile (· ≠ '=')
    p.takeLong name (if name.length < rest.length then some (rest.drop (name.length + 1)) else none)
  | '-' :: c :: rest => p.takeShorts (c :: rest)
  | value =>
    if p.waiting = some none then .ok { p with waiting := some (some value) }
    else .error (.error (.unexpected value none []))

/-- Reads arguments up to the end or to `--`, behind which nothing may follow. -/
def takeAll (p : Progress) : List Text → Except Ending Progress
  | [] => p.settle
  | argument :: rest =>
    if argument = "--".toList then
      match rest with
      | [] => p.settle
      | next :: _ => .error (.error (.unexpected next none []))
    else do (← p.takeArgument argument).takeAll rest

/-- The command of all arguments, unless two of them exclude each other. -/
def finish (p : Progress) : Except ArgumentError Command :=
  match p.used.find? Flag.isVerbosity with
  | some first =>
    let second := if first = .verbose then Flag.quiet else .verbose
    if p.used.contains second then .error (.conflict first second (p.used.filter (· ≠ second)))
    else .ok (.serve p.logFile)
  | none => .ok (.serve p.logFile)

end Progress

def Command.ofArguments (arguments : List Text) : Except ArgumentError Command :=
  match ({} : Progress).takeAll arguments with
  | .error (.error e) => .error e
  | .error (.command c) => .ok c
  | .ok p => p.finish

end SchemaServer.CommandLine
