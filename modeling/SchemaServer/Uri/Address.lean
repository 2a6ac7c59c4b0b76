import SchemaServer.Decimal
import SchemaServer.Text.Parts

/-! Network addresses in the place of a host name. An address of four bytes is written in up to four numbers,
the last of which fills the bytes that are left. An address of eight pieces is written between brackets, and
one run of zero pieces may be left out. -/
namespace SchemaServer.Uri

/-! ## Four bytes -/

/-- A number that counts hexadecimal behind `0x` and octal behind `0`. -/
def addressNumber? (s : Text) : Option Nat :=
  let number (radix : Nat) (digits : Text) : Option Nat :=
    if digits.all fun c => (Text.hexDigit? c).any (· < radix) then some (Decimal.radixValue radix digits)
    else none
  match s with
  | [] => none
  | '0' :: 'x' :: digits | '0' :: 'X' :: digits => number 16 digits
  | '0' :: d :: digits => number 8 (d :: digits)
  | _ => number 10 s

/-- The parts of a name between its dots, without an empty last one. -/
def nameParts (name : Text) : List Text :=
  let parts := Text.parts (· = '.') name
  if 1 < parts.length && parts.getLast? = some [] then parts.dropLast else parts

/-- A name whose last part is a number can only be an address. -/
def endsInNumber (name : Text) : Bool :=
  match (nameParts name).getLast? with
  | some part => !part.isEmpty && (part.all Char.isDigit || (addressNumber? part).isSome)
  | none => false

def bytesOf : Nat → Nat → List Nat
  | 0, _ => []
  | count + 1, n => bytesOf count (n / 256) ++ [n % 256]

def shortAddress? (name : Text) : Option Text := do
  let numbers ← (nameParts name).mapM addressNumber?
  guard (numbers.length ≤ 4)
  let last ← numbers.getLast?
  let count := 5 - numbers.length
  guard (numbers.dropLast.all (· < 256) && last < Nat.pow 256 count)
  return ['.'].intercalate ((numbers.dropLast ++ bytesOf count last).map fun n => Nat.toDigits 10 n)

/-! ## Eight pieces -/

/-- Four decimal numbers without leading zeros as two pieces. -/
def decimalPieces? (s : Text) : Option (List Nat) := do
  let numbers ← (Text.parts (· = '.') s).mapM fun part =>
    if part.isEmpty || !part.all Char.isDigit || (1 < part.length && part.head? = some '0') || 3 < part.length
    then none else some (Decimal.radixValue 10 part)
  match numbers with
  | [a, b, c, d] => if [a, b, c, d].all (· < 256) then some [a * 256 + b, c * 256 + d] else none
  | _ => none

/-- One piece of up to four hexadecimal digits. -/
def piece? (s : Text) : Option Nat :=
  if s.isEmpty || 4 < s.length then none else Text.hexNumber? s

/-- Pieces between colons. The last two may be written as four numbers at the end of an address. -/
def pieces? (atEnd : Bool) (s : Text) : Option (List Nat) :=
  if s.isEmpty then some []
  else
    let parts := Text.parts (· = ':') s
    let last := parts.getLastD []
    if atEnd && last.contains '.' then do
      return (← parts.dropLast.mapM piece?) ++ (← decimalPieces? last)
    else parts.mapM piece?

/-- The eight pieces of an address; two colons stand for at least one zero piece. -/
def allPieces? (s : Text) : Option (List Nat) :=
  match Text.splitAtFirst? [':', ':'] s with
  | none => do
    let pieces ← pieces? true s
    if pieces.length = 8 then some pieces else none
  | some (left, rest) => do
    let left ← pieces? false left
    let right ← pieces? true (rest.drop 2)
    let count := left.length + right.length
    if count < 8 then some (left ++ List.replicate (8 - count) 0 ++ right) else none

def zeroRun (pieces : List Nat) : Nat := (pieces.takeWhile (· = 0)).length

/-- The first of the longest runs of zero pieces, as its place and length. -/
def longestZeros (pieces : List Nat) : Nat × Nat :=
  (List.range pieces.length).foldl (fun best i =>
    let run := zeroRun (pieces.drop i)
    if best.2 < run then (i, run) else best) (0, 0)

def hexPieces (pieces : List Nat) : Text := [':'].intercalate (pieces.map (Nat.toDigits 16))

/-- The written form of eight pieces. A single zero is not left out. -/
def longAddress? (s : Text) : Option Text := do
  let pieces ← allPieces? s
  let (place, run) := longestZeros pieces
  return if run < 2 then hexPieces pieces
    else hexPieces (pieces.take place) ++ [':', ':'] ++ hexPieces (pieces.drop (place + run))

end SchemaServer.Uri
