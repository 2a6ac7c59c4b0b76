import SchemaServer.Text.Encoding
import SchemaServer.Json.Basic

/-! JSON as it is written. Reading checks the grammar and keeps what a value may or may not be allowed
to say: a number keeps its spelling, an object its repeated members, and a string with a lone surrogate
escape is there without a text. -/
namespace SchemaServer

inductive WrittenJson
  | null
  | bool (value : Bool)
  | number (spelling : Text)
  | string (content : Option Text)
  | array (items : List WrittenJson)
  | object (members : List (Option Text × WrittenJson))
  deriving Inhabited

namespace WrittenJson

def isSpace (c : Char) : Bool := c = ' ' || c = '\t' || c = '\n' || c = '\r'

/-- Code points between the quotes, with an escape by number as one UTF-16 unit, and the rest behind the
closing quote. -/
def readUnits : Text → Option (List Nat × Text)
  | [] => none
  | '"' :: rest => some ([], rest)
  | '\\' :: 'u' :: a :: b :: c :: d :: rest => do
    let n ← Text.hexNumber? [a, b, c, d]
    let (units, rest) ← readUnits rest
    return (n :: units, rest)
  | '\\' :: c :: rest => do
    let n ← match c with
      | '"' | '\\' | '/' => some c.toNat
      | 'b' => some 0x08
      | 'f' => some 0x0C
      | 'n' => some 0x0A
      | 'r' => some 0x0D
      | 't' => some 0x09
      | _ => none
    let (units, rest) ← readUnits rest
    return (n :: units, rest)
  | c :: rest =>
    if c.toNat < 0x20 then none
    else do
      let (units, rest) ← readUnits rest
      return (c.toNat :: units, rest)

/-- Joins surrogate pairs; none if a surrogate stands alone. -/
def joinSurrogates : List Nat → Option Text
  | [] => some []
  | high :: low :: rest =>
    if 0xD800 ≤ high && high < 0xDC00 then
      if 0xDC00 ≤ low && low < 0xE000 then do
        let c ← Text.charOf? (0x10000 + (high - 0xD800) * 0x400 + (low - 0xDC00))
        return c :: (← joinSurrogates rest)
      else none
    else do
      let c ← Text.charOf? high
      return c :: (← joinSurrogates (low :: rest))
  | [n] => (Text.charOf? n).map ([·])

def readString (s : Text) : Option (Option Text × Text) :=
  (readUnits s).map fun (units, rest) => (joinSurrogates units, rest)

def readDigits (s : Text) : Option (Text × Text) :=
  match s.takeWhile Char.isDigit with
  | [] => none
  | digits => some (digits, s.dropWhile Char.isDigit)

/-- The digits in front of a point or an exponent: a zero stands alone. -/
def readWhole : Text → Option (Text × Text)
  | '0' :: rest => some (['0'], rest)
  | s => readDigits s

def readFraction : Text → Option (Text × Text)
  | '.' :: rest => (readDigits rest).map fun (digits, rest) => ('.' :: digits, rest)
  | s => some ([], s)

def readExponent : Text → Option (Text × Text)
  | c :: rest =>
    if c = 'e' || c = 'E' then
      match rest with
      | sign :: rest =>
        if sign = '+' || sign = '-' then
          (readDigits rest).map fun (digits, rest) => (c :: sign :: digits, rest)
        else (readDigits (sign :: rest)).map fun (digits, rest) => (c :: digits, rest)
      | [] => none
    else some ([], c :: rest)
  | [] => some ([], [])

def readNumber (s : Text) : Option (Text × Text) := do
  let (sign, rest) := match s with
    | '-' :: rest => (['-'], rest)
    | _ => ([], s)
  let (whole, rest) ← readWhole rest
  let (fraction, rest) ← readFraction rest
  let (exponent, rest) ← readExponent rest
  return (sign ++ whole ++ fraction ++ exponent, rest)

mutual

/-- A value and what follows it. `fuel` bounds the number of nested and neighbouring values. -/
def readValue (fuel : Nat) (s : Text) : Option (WrittenJson × Text) :=
  match fuel with
  | 0 => none
  | fuel + 1 =>
    match s.dropWhile isSpace with
    | 'n' :: 'u' :: 'l' :: 'l' :: rest => some (.null, rest)
    | 't' :: 'r' :: 'u' :: 'e' :: rest => some (.bool true, rest)
    | 'f' :: 'a' :: 'l' :: 's' :: 'e' :: rest => some (.bool false, rest)
    | '"' :: rest => (readString rest).map fun (content, rest) => (.string content, rest)
    | '[' :: rest =>
      match rest.dropWhile isSpace with
      | ']' :: rest => some (.array [], rest)
      | rest => (readItems fuel rest).map fun (items, rest) => (.array items, rest)
    | '\x7b' :: rest =>
      match rest.dropWhile isSpace with
      | '\x7d' :: rest => some (.object [], rest)
      | rest => (readMembers fuel rest).map fun (members, rest) => (.object members, rest)
    | s => (readNumber s).map fun (spelling, rest) => (.number spelling, rest)

def readItems (fuel : Nat) (s : Text) : Option (List WrittenJson × Text) :=
  match fuel with
  | 0 => none
  | fuel + 1 => do
    let (item, rest) ← readValue fuel s
    match rest.dropWhile isSpace with
    | ',' :: rest =>
      let (items, rest) ← readItems fuel rest
      return (item :: items, rest)
    | ']' :: rest => return ([item], rest)
    | _ => none

def readMembers (fuel : Nat) (s : Text) : Option (List (Option Text × WrittenJson) × Text) :=
  match fuel with
  | 0 => none
  | fuel + 1 =>
    match s.dropWhile isSpace with
    | '"' :: rest => do
      let (key, rest) ← readString rest
      match rest.dropWhile isSpace with
      | ':' :: rest =>
        let (value, rest) ← readValue fuel rest
        match rest.dropWhile isSpace with
        | ',' :: rest =>
          let (members, rest) ← readMembers fuel rest
          return ((key, value) :: members, rest)
        | '\x7d' :: rest => return ([(key, value)], rest)
        | _ => none
      | _ => none
    | _ => none

end

/-- The value at the start of a text and what follows it. Every bracket, comma and value takes two steps
at most, so the fuel never runs out. -/
def read? (s : Text) : Option (WrittenJson × Text) := readValue (2 * s.length + 2) s

def ofText? (s : Text) : Option WrittenJson := do
  let (value, rest) ← read? s
  if rest.all isSpace then some value else none

end WrittenJson

end SchemaServer
