import SchemaServer.System
import SchemaServer.Text.Parts
import SchemaServer.Text.Encoding

/-! A tree of files as data, and what a path names in it. -/
namespace SchemaServer

def joinPath (base name : Text) : Text :=
  if base.isEmpty || base.getLast? = some '/' then base ++ name else base ++ '/' :: name

def pathParts (path : Text) : List Text := Text.parts (· = '/') path

inductive FileEntry
  | directory
  | file (content : List UInt8) (executable : Bool)
  deriving DecidableEq

/-- Why a path names nothing. -/
inductive PathError
  | missing
  | belowFile
  | tooLong
  deriving DecidableEq

def PathError.toSystem : PathError → SystemError
  | .missing => .notFound
  | .belowFile => .notDirectory
  | .tooLong => .nameTooLong

/-- How many bytes a name and a whole path have at most. -/
def nameLimit : Nat := 255

def pathLimit : Nat := 4095

/-- Entries by the names from the root down; what lies on the way to an entry is a directory. -/
structure FileTree where
  entries : List (List Text × FileEntry)
  /-- Where relative paths start. -/
  workingDirectory : List Text

namespace FileTree

def entry? (tree : FileTree) (place : List Text) : Option FileEntry :=
  match tree.entries.find? (·.1 = place) with
  | some (_, found) => some found
  | none =>
    if place.isEmpty || tree.entries.any (fun (p, _) => place.isPrefixOf p) then some .directory else none

/-- Follows the parts of a path from a directory to a place and what is there. -/
def follow (tree : FileTree) (place : List Text) : List Text → Except PathError (List Text × FileEntry)
  | [] => .ok (place, .directory)
  | part :: rest =>
    if part.isEmpty || part = ['.'] then tree.follow place rest
    else if part = ['.', '.'] then tree.follow place.dropLast rest
    else if nameLimit < Text.byteLength part then .error .tooLong
    else match tree.entry? (place ++ [part]) with
      | none => .error .missing
      | some .directory => tree.follow (place ++ [part]) rest
      | some found => if rest.isEmpty then .ok (place ++ [part], found) else .error .belowFile

def route (tree : FileTree) (path : Text) : List Text × List Text :=
  match path with
  | '/' :: rest => ([], pathParts rest)
  | _ => (tree.workingDirectory, pathParts path)

def lookup (tree : FileTree) (path : Text) : Except PathError FileEntry :=
  if path.isEmpty || path.contains '\x00' then .error .missing
  else if pathLimit < Text.byteLength path then .error .tooLong
  else
    let (place, parts) := tree.route path
    (tree.follow place parts).map Prod.snd

def pathExists (tree : FileTree) (path : Text) : Bool := (tree.lookup path).isOk

def readFile (tree : FileTree) (path : Text) : Except SystemError Text :=
  match tree.lookup path with
  | .error e => .error e.toSystem
  | .ok .directory => .error .isDirectory
  | .ok (.file content _) =>
    match Text.ofUtf8? content with
    | some text => .ok text
    | none => .error .notUtf8

/-- Whether a program can be started by a path. A name without a slash is looked up among the installed
programs, of which there are none; there a directory is found for `.` and `..`. -/
def checkProgram (tree : FileTree) (path : Text) : Except SystemError Unit :=
  if path.contains '\x00' then .error .nulInName
  else if path = ['.'] || path = ['.', '.'] then .error .permissionDenied
  else if nameLimit < Text.byteLength path && !path.contains '/' then .error .nameTooLong
  else if !path.contains '/' then .error .notFound
  else match tree.lookup path with
    | .error e => .error e.toSystem
    | .ok (.file _ true) => .ok ()
    | .ok _ => .error .permissionDenied

/-- Makes a file empty, or a new file in a directory that is there. With a slash at its end a path names a
directory, whatever is there. -/
def createFile (tree : FileTree) (path : Text) : Except SystemError FileTree :=
  let (place, parts) := tree.route path
  let named := (parts.reverse.dropWhile List.isEmpty).reverse
  let name := named.getLastD []
  match tree.follow place named.dropLast with
  | .error e => .error e.toSystem
  | .ok (_, .file ..) => .error .notDirectory
  | .ok (place, .directory) =>
    if path.isEmpty then .error .notFound
    else if nameLimit < Text.byteLength name || pathLimit < Text.byteLength path then .error .nameTooLong
    else if named.length < parts.length || name = ['.'] || name = ['.', '.'] then .error .isDirectory
    else match tree.entry? (place ++ [name]) with
      | some .directory => .error .isDirectory
      | _ => .ok { tree with entries := (place ++ [name], .file [] false) :: tree.entries }

/-- The surroundings that a tree makes, where every program does what `behaviour` says. -/
def system (tree : FileTree) (behaviour : List Text → Text → ProgramOutput) : System where
  pathExists := tree.pathExists
  readFile := tree.readFile
  run path arguments input := (tree.checkProgram path).map fun () => behaviour arguments input

end FileTree

end SchemaServer
