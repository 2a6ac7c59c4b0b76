import SchemaServer.Binary64
import SchemaServer.Json.Basic

/-! JSON written without blanks. -/
namespace SchemaServer.Json

def escapedChar (c : Char) : Text :=
  if c = '"' then ['\\', '"']
  else if c = '\\' then ['\\', '\\']
  else if c = '\n' then ['\\', 'n']
  else if c = '\r' then ['\\', 'r']
  else if c = '\t' then ['\\', 't']
  else if c = '\x08' then ['\\', 'b']
  else if c = '\x0C' then ['\\', 'f']
  else if c.toNat < 0x20 then
    ['\\', 'u', '0', '0', Nat.digitChar (c.toNat / 16), Nat.digitChar (c.toNat % 16)]
  else [c]

def quotedText (s : Text) : Text := '"' :: s.flatMap escapedChar ++ ['"']

/-- A number of `digits * 10 ^ exponent`, with a digit on either side of the point. From `10 ^ 16` on and
below `10 ^ -5` the point stands behind the first digit and the power of ten is written. -/
def decimalText (digits : Nat) (exponent : Int) : Text :=
  let written := Nat.toDigits 10 digits
  let point : Int := written.length + exponent
  if 16 < point || point < -4 then
    let fraction := written.drop 1
    written.take 1 ++ (if fraction.isEmpty then [] else '.' :: fraction) ++ ['e']
      ++ (if point < 1 then ['-'] else ['+']) ++ Nat.toDigits 10 (point - 1).natAbs
  else if 0 ≤ exponent then written ++ List.replicate exponent.toNat '0' ++ ['.', '0']
  else if point ≤ 0 then ['0', '.'] ++ List.replicate (-point).toNat '0' ++ written
  else written.take point.toNat ++ '.' :: written.drop point.toNat

def floatText (isNegative : Bool) (magnitude : Binary64) : Text :=
  let (digits, exponent) := magnitude.shortest
  (if isNegative then ['-'] else []) ++ decimalText digits exponent

def intText (n : Int) : Text := (if n < 0 then ['-'] else []) ++ Nat.toDigits 10 n.natAbs

mutual

def print : Json → Text
  | .null => "null".toList
  | .bool b => (toString b).toList
  | .int n => intText n
  | .float isNegative magnitude => floatText isNegative magnitude
  | .string s => quotedText s
  | .array items => '[' :: printItems items ++ [']']
  | .object members => '\x7b' :: printMembers members ++ ['\x7d']

def printItems : List Json → Text
  | [] => []
  | [item] => print item
  | item :: rest => print item ++ ',' :: printItems rest

def printMembers : List (Text × Json) → Text
  | [] => []
  | [(key, value)] => quotedText key ++ ':' :: print value
  | (key, value) :: rest => quotedText key ++ ':' :: print value ++ ',' :: printMembers rest

end

end SchemaServer.Json
