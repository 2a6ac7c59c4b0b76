import SchemaServer.Uri.Host
import SchemaServer.Uri.Path

/-! Addresses of documents. An address is kept in its normal form, in which equal addresses are equal
texts. -/
namespace SchemaServer

/-- The normal form of an address. -/
abbrev Uri := Text

namespace Uri

inductive Scheme
  | file
  /-- A scheme whose addresses name a host, with its usual port. -/
  | network (port : Nat)
  | other
  deriving DecidableEq

namespace Scheme

def networkPorts : List (String × Nat) :=
  [("http", 80), ("https", 443), ("ws", 80), ("wss", 443), ("ftp", 21)]

def ofName (name : Text) : Scheme :=
  if name = "file".toList then file
  else match networkPorts.find? (·.1.toList = name) with
    | some (_, port) => network port
    | none => other

def isKnown (scheme : Scheme) : Bool := scheme ≠ other

end Scheme

/-- The name of the scheme in front of the first colon, in small letters, and what follows it. -/
def readScheme? (s : Text) : Option (Text × Text) :=
  let isSchemeChar (c : Char) : Bool := c.isAlphanum || c = '+' || c = '-' || c = '.'
  let name := s.takeWhile isSchemeChar
  match s.drop name.length with
  | ':' :: rest => if name.head?.any Char.isAlpha then some (name.map Char.toLower, rest) else none
  | _ => none

def tailText (scheme : Scheme) : Text → Text
  | '?' :: rest =>
    let query := rest.takeWhile (· ≠ '#')
    let set := if scheme.isKnown then knownQuerySet else querySet
    '?' :: encode set query ++ match rest.drop query.length with
      | '#' :: fragment => '#' :: encode fragmentSet fragment
      | _ => []
  | '#' :: fragment => '#' :: encode fragmentSet fragment
  | _ => []

def splitTail (s : Text) : Text × Text :=
  let path := s.takeWhile fun c => c ≠ '?' && c ≠ '#'
  (path, s.drop path.length)

def endsAuthority (scheme : Scheme) (c : Char) : Bool :=
  c = '/' || c = '?' || c = '#' || (scheme.isKnown && c = '\\')

def userText (s : Text) : Text :=
  let user := s.takeWhile (· ≠ ':')
  let password := s.drop (user.length + 1)
  let written := encode userSet user ++ if password.isEmpty then [] else ':' :: encode userSet password
  if written.isEmpty then [] else written ++ ['@']

/-- Cuts in front of the first colon that is not between brackets. -/
def splitPort (isInside : Bool) : Text → Text × Text
  | [] => ([], [])
  | c :: rest =>
    if c = ':' && !isInside then ([], c :: rest)
    else
      let (host, port) := splitPort (c = '[' || (isInside && c ≠ ']')) rest
      (c :: host, port)

/-- A port behind its colon, which is not written if it is the usual one. -/
def portText (scheme : Scheme) (digits : Text) : Except Fault Text :=
  let port := Decimal.radixValue 10 digits
  if !digits.all Char.isDigit || UInt16.size ≤ port then .error .badPort
  else if digits.isEmpty || scheme = .network port then .ok []
  else .ok (':' :: Nat.toDigits 10 port)

/-- User, host and port with what follows them. A user or a port needs a host, and so does an empty user in
front of more text. -/
def readAuthority (scheme : Scheme) (s : Text) : Except Fault (Text × Text) := do
  let authority := s.takeWhile (!endsAuthority scheme ·)
  let rest := s.drop authority.length
  let place := (authority.reverse.takeWhile (· ≠ '@')).reverse
  let user := userText (authority.take (authority.length - place.length - 1))
  if authority = ['@'] && !rest.isEmpty then .error .emptyHost
  else
    let (host, port) := splitPort false place
    let host ← if scheme.isKnown then knownHost host else otherHost host
    if host.isEmpty && (!user.isEmpty || !port.isEmpty) then .error .emptyHost
    else
      let digits := (port.drop 1).takeWhile (· ≠ '\\')
      return (user ++ host ++ (← portText scheme digits), port.drop (1 + digits.length) ++ rest)

def isSlash (c : Char) : Bool := c = '/' || c = '\\'

/-- A path of a known scheme, which always starts with a slash. -/
def rootedSegments (s : Text) : List Text :=
  segments true (if s.head?.any isSlash then s.drop 1 else s)

def networkText (scheme : Scheme) (s : Text) : Except Fault Text := do
  let (authority, rest) ← readAuthority scheme (s.dropWhile isSlash)
  let (path, tail) := splitTail rest
  return "//".toList ++ authority ++ pathText (rootedSegments path) ++ tailText scheme tail

/-- The host of a file with what follows it. A drive is no host, and the own machine is not named. -/
def readFileHost (s : Text) : Except Fault (Text × Text) :=
  match s with
  | a :: b :: rest =>
    if isSlash a && isSlash b then
      let host := rest.takeWhile (!endsAuthority .file ·)
      if host.isEmpty || isDrive host then .ok ([], rest)
      else (knownHost host).map fun name =>
        (if name = "localhost".toList then [] else name, rest.drop host.length)
    else .ok ([], s)
  | _ => .ok ([], s)

def fileText (s : Text) : Except Fault Text := do
  let (host, rest) ← readFileHost s
  let (path, tail) := splitTail rest
  return "//".toList ++ host ++ pathText (dropEmptyStart (rootedSegments path)) ++ tailText .file tail

/-- The path behind the host of an other scheme, which may be missing. -/
def pathBehindHost : Text → Text
  | [] => []
  | '/' :: path | path => pathText (segments false path)

/-- An address of a scheme with rules of its own. Without a host its path must not look like one, and a path
without a slash at its start is no path of segments. -/
def otherText (s : Text) : Except Fault Text :=
  match s with
  | '/' :: '/' :: rest => do
    let (authority, rest) ← readAuthority .other rest
    let (path, tail) := splitTail rest
    return "//".toList ++ authority ++ pathBehindHost path ++ tailText .other tail
  | _ =>
    let (path, tail) := splitTail s
    let path := match path with
      | '/' :: path =>
        let path := pathText (segments false path)
        if "//".toList.isPrefixOf path then "/.".toList ++ path else path
      | path => encode [] path
    .ok (path ++ tailText .other tail)

def ofText (s : Text) : Except Fault Uri := do
  let isMargin (c : Char) : Bool := c ≤ ' '
  let s := ((s.dropWhile isMargin).reverse.dropWhile isMargin).reverse
  let (name, rest) ← orFault .isRelative (readScheme? (s.filter fun c => c ≠ '\t' && c ≠ '\n' && c ≠ '\r'))
  let text ← match Scheme.ofName name with
    | .file => fileText rest
    | .network port => networkText (.network port) rest
    | .other => otherText rest
  return name ++ ':' :: text

end Uri

end SchemaServer
