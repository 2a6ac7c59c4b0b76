import SchemaServer.Text.Encoding

/-! The four kinds of TOML strings. A reader starts behind the opening quotes and stops behind the
closing ones; its fuel is the length of the text. -/
namespace SchemaServer.Toml

def isControl (c : Char) : Bool := c ≠ '\t' && (c.toNat < 0x20 || c.toNat = 0x7F)

def isGap (c : Char) : Bool := c = ' ' || c = '\t'

def hexEscape (count : Nat) (s : Text) : Option (Char × Text) := do
  let digits := s.take count
  guard (digits.length = count)
  let c ← Text.charOf? (← Text.hexNumber? digits)
  return (c, s.drop count)

def readEscape : Text → Option (Char × Text)
  | 'b' :: rest => some ('\x08', rest)
  | 't' :: rest => some ('\t', rest)
  | 'n' :: rest => some ('\n', rest)
  | 'f' :: rest => some ('\x0C', rest)
  | 'r' :: rest => some ('\r', rest)
  | 'e' :: rest => some ('\x1B', rest)
  | '"' :: rest => some ('"', rest)
  | '\\' :: rest => some ('\\', rest)
  | 'x' :: rest => hexEscape 2 rest
  | 'u' :: rest => hexEscape 4 rest
  | 'U' :: rest => hexEscape 8 rest
  | _ => none

def readBasic : Nat → Text → Option (Text × Text)
  | _, '"' :: rest => some ([], rest)
  | fuel + 1, '\\' :: rest => do
    let (c, rest) ← readEscape rest
    let (content, rest) ← readBasic fuel rest
    return (c :: content, rest)
  | fuel + 1, c :: rest =>
    if isControl c then none
    else (readBasic fuel rest).map fun (content, rest) => (c :: content, rest)
  | _, _ => none

def readLiteral (s : Text) : Option (Text × Text) :=
  let content := s.takeWhile (· ≠ '\'')
  match s.drop content.length with
  | _ :: rest => if content.any isControl then none else some (content, rest)
  | [] => none

/-- Drops the line break that directly follows opening quotes. -/
def dropFirstBreak : Text → Text
  | '\n' :: rest | '\r' :: '\n' :: rest => rest
  | s => s

/-- Three quotes close a string, and up to two more in front of them belong to it. -/
def readClosing (quote : Char) (s : Text) : Option (Text × Text) :=
  let count := (s.takeWhile (· = quote)).length
  if count < 3 then none
  else
    let inside := min (count - 3) 2
    some (List.replicate inside quote, s.drop (inside + 3))

def dropBlankLines : Text → Text
  | '\r' :: '\n' :: rest => dropBlankLines rest
  | c :: rest => if isGap c || c = '\n' then dropBlankLines rest else c :: rest
  | [] => []

/-- What follows a backslash that ends its line. -/
def skipFolded (s : Text) : Option Text :=
  match s.dropWhile isGap with
  | '\n' :: rest | '\r' :: '\n' :: rest => some (dropBlankLines rest)
  | _ => none

/-- The content of a string of several lines; a line break stays as it is written. -/
def readLines (quote : Char) : Nat → Text → Option (Text × Text)
  | 0, _ => none
  | _, [] => none
  | fuel + 1, c :: rest =>
    match readClosing quote (c :: rest) with
    | some closed => some closed
    | none =>
      let continueWith (c : Char) (rest : Text) : Option (Text × Text) :=
        (readLines quote fuel rest).map fun (content, rest) => (c :: content, rest)
      if c = '\\' && quote = '"' then
        match skipFolded rest with
        | some rest => readLines quote fuel rest
        | none => (readEscape rest).bind fun (c, rest) => continueWith c rest
      else if c = '\n' then continueWith c rest
      else if c = '\r' then
        match rest with
        | '\n' :: _ => continueWith c rest
        | _ => none
      else if isControl c then none
      else continueWith c rest

/-- A string of any kind, from its opening quote on. -/
def readQuoted (s : Text) : Option (Text × Text) :=
  match s with
  | '"' :: '"' :: '"' :: rest => readLines '"' (rest.length + 1) (dropFirstBreak rest)
  | '\'' :: '\'' :: '\'' :: rest => readLines '\'' (rest.length + 1) (dropFirstBreak rest)
  | '"' :: rest => readBasic (rest.length + 1) rest
  | '\'' :: rest => readLiteral rest
  | _ => none

end SchemaServer.Toml
