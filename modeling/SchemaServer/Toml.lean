import SchemaServer.Toml.Scalar
import SchemaServer.Toml.Quoted
import SchemaServer.Toml.Table

/-! Reading TOML. The reader checks a whole document and keeps of its values the strings. -/
namespace SchemaServer.Toml

/-- Drops a comment, which must hold no control characters. -/
def skipComment : Text → Option Text
  | '#' :: rest =>
    let body := rest.takeWhile fun c => c ≠ '\n' && c ≠ '\r'
    if body.any isControl then none else some (rest.drop body.length)
  | s => some s

def endLine : Text → Option Text
  | [] => some []
  | '\n' :: rest | '\r' :: '\n' :: rest => some rest
  | _ => none

def finishLine (s : Text) : Option Text := do endLine (← skipComment (s.dropWhile isGap))

/-- Blanks, line breaks and comments between the parts of a list or of a table written as a value. -/
def skipFiller : Nat → Text → Option Text
  | 0, _ => none
  | fuel + 1, s =>
    match s.dropWhile isGap with
    | '#' :: rest => (skipComment ('#' :: rest)).bind (skipFiller fuel)
    | '\n' :: rest | '\r' :: '\n' :: rest => skipFiller fuel rest
    | s => some s

def isBareKeyChar (c : Char) : Bool := c.isAlphanum || c = '_' || c = '-'

def readKeyPart (s : Text) : Option (Text × Text) :=
  match s with
  | '"' :: rest => readBasic (rest.length + 1) rest
  | '\'' :: rest => readLiteral rest
  | _ =>
    match s.takeWhile isBareKeyChar with
    | [] => none
    | key => some (key, s.drop key.length)

def keyLimit : Nat := 80

/-- At most `count` parts of a dotted key. -/
def readKeyParts : Nat → Text → Option (List Text × Text)
  | 0, _ => none
  | count + 1, s => do
    let (part, rest) ← readKeyPart (s.dropWhile isGap)
    match rest.dropWhile isGap with
    | '.' :: rest =>
      let (parts, rest) ← readKeyParts count rest
      return (part :: parts, rest)
    | rest => return ([part], rest)

def readKey (s : Text) : Option (List Text × Text) := readKeyParts keyLimit s

/-- A value without quotes; a date and its time may have one space between them. -/
def readBare (s : Text) : Option Text :=
  let ends (c : Char) : Bool := isGap c || c = '\n' || c = '\r' || c = ',' || c = ']' || c = '\x7d' || c = '#'
  let word := s.takeWhile (!ends ·)
  let rest := s.drop word.length
  let later := (rest.drop 1).takeWhile (!ends ·)
  let token :=
    if readDate word = some [] && rest.head? = some ' ' && later.head?.any Char.isDigit then
      word ++ ' ' :: later
    else word
  if isBareScalar token then some (s.drop token.length) else none

def depthLimit : Nat := 80

mutual

/-- A value and what follows it, with its text if it is a string. `depth` says how deep lists and tables
may still nest in it, and `fuel` bounds nested and neighbouring values. -/
def readValue (depth fuel : Nat) (s : Text) : Option (Option Text × Text) :=
  match fuel with
  | 0 => none
  | fuel + 1 =>
    match s with
    | '[' :: rest => if depth = 0 then none else (readItems (depth - 1) fuel rest).map (none, ·)
    | '\x7b' :: rest => if depth = 0 then none else (readInline (depth - 1) fuel [] rest).map (none, ·)
    | c :: rest =>
      if c = '"' || c = '\'' then (readQuoted (c :: rest)).map fun (text, rest) => (some text, rest)
      else (readBare (c :: rest)).map (none, ·)
    | [] => none

def readItems (depth fuel : Nat) (s : Text) : Option Text :=
  match fuel with
  | 0 => none
  | fuel + 1 => do
    match ← skipFiller (s.length + 1) s with
    | ']' :: rest => return rest
    | s =>
      let (_, rest) ← readValue depth fuel s
      match ← skipFiller (rest.length + 1) rest with
      | ',' :: rest => readItems depth fuel rest
      | ']' :: rest => return rest
      | _ => none

/-- The members of a table written as a value, behind the members read before. -/
def readInline (depth fuel : Nat) (members : Members) (s : Text) : Option Text :=
  match fuel with
  | 0 => none
  | fuel + 1 => do
    match ← skipFiller (s.length + 1) s with
    | '\x7d' :: rest => return rest
    | s =>
      let (key, rest) ← readKey s
      let rest ← readChar '=' (← skipFiller (rest.length + 1) rest)
      let (text, rest) ← readValue depth fuel (← skipFiller (rest.length + 1) rest)
      let members ← members.insert key.dropLast (key.getLastD []) text
      match ← skipFiller (rest.length + 1) rest with
      | ',' :: rest => readInline depth fuel members rest
      | '\x7d' :: rest => return rest
      | _ => none

end

structure State where
  root : Members
  current : List Text

/-- One line, or a key with a value of several lines. -/
def readExpression (state : State) (s : Text) : Option (State × Text) := do
  match s.dropWhile isGap with
  | '[' :: '[' :: rest =>
    let (key, rest) ← readKey rest
    let rest ← finishLine (← readChar ']' (← readChar ']' rest))
    return (⟨← state.root.openListed key.dropLast (key.getLastD []), key⟩, rest)
  | '[' :: rest =>
    let (key, rest) ← readKey rest
    let rest ← finishLine (← readChar ']' rest)
    return (⟨← state.root.openTable key.dropLast (key.getLastD []), key⟩, rest)
  | s =>
    if s.isEmpty || s.head? = some '#' || s.head? = some '\n' || s.head? = some '\r' then
      return (state, ← finishLine s)
    else
      let (key, rest) ← readKey s
      let rest ← readChar '=' rest
      let (text, rest) ← readValue depthLimit (2 * rest.length + 2) (rest.dropWhile isGap)
      let rest ← finishLine rest
      let root ← state.root.change state.current fun members =>
        members.insert key.dropLast (key.getLastD []) text
      return (⟨root, state.current⟩, rest)

def readExpressions : Nat → State → Text → Option Members
  | 0, _, _ => none
  | fuel + 1, state, s =>
    if s.isEmpty then some state.root
    else (readExpression state s).bind fun (state, rest) => readExpressions fuel state rest

/-- The members of a document; a byte order mark in front of it does not count. -/
def ofText? (s : Text) : Option Members :=
  let s := if s.head? = some '\uFEFF' then s.drop 1 else s
  readExpressions (s.length + 1) ⟨[], []⟩ s

end SchemaServer.Toml
