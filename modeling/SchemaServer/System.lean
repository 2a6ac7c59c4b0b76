import SchemaServer.Text.Basic

/-! What the program asks of its surroundings: files and programs. Everything else in the library is a
function of these answers. -/
namespace SchemaServer

inductive SystemError
  | notFound
  | permissionDenied
  | notDirectory
  | isDirectory
  | nameTooLong
  /-- The name of a program holds a NUL character. -/
  | nulInName
  | notUtf8
  deriving DecidableEq

namespace SystemError

def message : SystemError → Text
  | notFound => "No such file or directory (os error 2)".toList
  | permissionDenied => "Permission denied (os error 13)".toList
  | notDirectory => "Not a directory (os error 20)".toList
  | isDirectory => "Is a directory (os error 21)".toList
  | nameTooLong => "File name too long (os error 36)".toList
  | nulInName => "nul byte found in provided data".toList
  | notUtf8 => "stream did not contain valid UTF-8".toList

end SystemError

inductive ExitStatus
  | code (n : Nat)
  | signal (n : Nat)
  deriving DecidableEq

namespace ExitStatus

def signalNames : List (Nat × String) :=
  [(1, "SIGHUP"), (2, "SIGINT"), (3, "SIGQUIT"), (4, "SIGILL"), (5, "SIGTRAP"), (6, "SIGABRT"),
    (7, "SIGBUS"), (8, "SIGFPE"), (9, "SIGKILL"), (10, "SIGUSR1"), (11, "SIGSEGV"), (12, "SIGUSR2"),
    (13, "SIGPIPE"), (14, "SIGALRM"), (15, "SIGTERM"), (16, "SIGSTKFLT"), (17, "SIGCHLD"),
    (18, "SIGCONT"), (19, "SIGSTOP"), (20, "SIGTSTP"), (21, "SIGTTIN"), (22, "SIGTTOU"),
    (23, "SIGURG"), (24, "SIGXCPU"), (25, "SIGXFSZ"), (26, "SIGVTALRM"), (27, "SIGPROF"),
    (28, "SIGWINCH"), (29, "SIGIO"), (30, "SIGPWR"), (31, "SIGSYS")]

def text : ExitStatus → Text
  | code n => "exit status: ".toList ++ (toString n).toList
  | signal n =>
    let name := (signalNames.find? (·.1 = n)).elim "" fun (_, name) => s!" ({name})"
    "signal: ".toList ++ (toString n).toList ++ name.toList

end ExitStatus

structure ProgramOutput where
  status : ExitStatus
  stdout : List UInt8
  stderr : List UInt8
  deriving DecidableEq

structure System where
  pathExists : Text → Bool
  readFile : Text → Except SystemError Text
  /-- Starts the program at a path with arguments and an input, and waits for it. -/
  run : Text → List Text → Text → Except SystemError ProgramOutput

end SchemaServer
