import SchemaServer.Text.Encoding

/-! Two ways to write a text in ASCII. Percent encoding writes a character by its UTF-8 bytes, each as `%` with
two hexadecimal digits. In Punycode the ASCII characters of a label come first, and the others follow in
ascending order, each as the distance from the one before in the order of all insertions. Distances are written
in digits of base 36, the least significant first, and a digit below the threshold of its position is the last
one. -/
namespace SchemaServer.Uri

/-- Control characters and all beyond ASCII are encoded everywhere. -/
def isAlwaysEncoded (c : Char) : Bool := c.toNat < 0x20 || 0x7F ≤ c.toNat

/-- What is encoded besides in each part of an address. -/
def fragmentSet : List Char := [' ', '"', '<', '>', '\x60']

def pathSet : List Char := fragmentSet ++ ['#', '?', '\x7b', '\x7d']

def userSet : List Char := pathSet ++ ['/', ':', ';', '=', '@', '[', '\\', ']', '^', '|']

def querySet : List Char := [' ', '"', '#', '<', '>']

/-- The query of an address with a known scheme. -/
def knownQuerySet : List Char := querySet ++ ['\'']

def upperHexDigit (n : Nat) : Char := (Nat.digitChar n).toUpper

def encodedByte (byte : UInt8) : Text :=
  ['%', upperHexDigit (byte.toNat / 16), upperHexDigit (byte.toNat % 16)]

def encode (set : List Char) (s : Text) : Text :=
  s.flatMap fun c =>
    if isAlwaysEncoded c || set.contains c then (String.utf8EncodeChar c).flatMap encodedByte else [c]

/-- The bytes of a text; a `%` without two hexadecimal digits stands for itself. -/
def decode : Text → List UInt8
  | '%' :: a :: b :: rest =>
    match Text.hexNumber? [a, b] with
    | some n => UInt8.ofNat n :: decode rest
    | none => String.utf8EncodeChar '%' ++ decode (a :: b :: rest)
  | c :: rest => String.utf8EncodeChar c ++ decode rest
  | [] => []

namespace Punycode

/-- The threshold of the digit at `position`, which counts in steps of 36. -/
def threshold (position bias : Nat) : Nat :=
  if position ≤ bias then 1 else if bias + 26 ≤ position then 26 else position - bias

def shrink (delta steps : Nat) : Nat × Nat :=
  if 455 < delta then shrink (delta / 35) (steps + 36) else (delta, steps)
termination_by delta

def adapt (delta count : Nat) (isFirst : Bool) : Nat :=
  let damped := if isFirst then delta / 700 else delta / 2
  let (delta, steps) := shrink (damped + damped / count) 0
  steps + 36 * delta / (delta + 38)

def digitChar (n : Nat) : Char := if n < 26 then Char.ofNat ('a'.toNat + n) else Char.ofNat ('0'.toNat + n - 26)

def digit? (c : Char) : Option Nat :=
  let c := c.toLower
  if 'a' ≤ c && c ≤ 'z' then some (c.toNat - 'a'.toNat)
  else if c.isDigit then some (c.toNat - '0'.toNat + 26)
  else none

theorem threshold_bounds (position bias : Nat) :
    1 ≤ threshold position bias ∧ threshold position bias ≤ 26 := by
  unfold threshold
  split
  · omega
  · split <;> omega

def writeDistance (bias position n : Nat) : Text :=
  let t := threshold position bias
  if n < t then [digitChar n]
  else digitChar (t + (n - t) % (36 - t)) :: writeDistance bias (position + 36) ((n - t) / (36 - t))
termination_by n
decreasing_by
  have bounds := threshold_bounds position bias
  have quotient := Nat.div_le_self (n - threshold position bias) (36 - threshold position bias)
  omega

structure Progress where
  written : Text := []
  delta : Nat := 0
  bias : Nat := 72
  /-- How many characters are written. -/
  count : Nat

def step (basic point : Nat) (p : Progress) (c : Char) : Progress :=
  if c.toNat < point then { p with delta := p.delta + 1 }
  else if c.toNat = point then
    ⟨p.written ++ writeDistance p.bias 36 p.delta, 0, adapt p.delta (p.count + 1) (p.count = basic),
      p.count + 1⟩
  else p

/-- Writes the characters of each code point in turn; `next` is the first point not looked at yet. -/
def writePoints (label : Text) (basic : Nat) : List Nat → Nat → Progress → Progress
  | [], _, p => p
  | point :: rest, next, p =>
    let p := label.foldl (step basic point) { p with delta := p.delta + (point - next) * (p.count + 1) }
    writePoints label basic rest (point + 1) { p with delta := p.delta + 1 }

def encode (label : Text) : Text :=
  let basic := label.filter (·.toNat < 0x80)
  let points := ((label.map Char.toNat).filter (0x80 ≤ ·)).mergeSort.eraseReps
  basic ++ (if basic.isEmpty then [] else ['-'])
    ++ (writePoints label basic.length points 0x80 { count := basic.length }).written

/-- A distance at the start of a text, added to `sum`, with the rest of the text. -/
def readDistance (bias position weight sum : Nat) : Text → Option (Nat × Text)
  | [] => none
  | c :: rest => do
    let n ← digit? c
    let t := threshold position bias
    if n < t then return (sum + n * weight, rest)
    else readDistance bias (position + 36) (weight * (36 - t)) (sum + n * weight) rest

/-- Reads distances and inserts a character for each. Each distance takes a character at least, so the
length of the text is fuel enough. -/
def readPoints : Nat → Nat → Nat → Nat → Text → Text → Option Text
  | _, _, _, _, label, [] => some label
  | 0, _, _, _, _, _ => none
  | fuel + 1, bias, point, place, label, s => do
    let (sum, rest) ← readDistance bias 36 1 place s
    let count := label.length + 1
    let point := point + sum / count
    let c ← Text.charOf? point
    let label := label.take (sum % count) ++ c :: label.drop (sum % count)
    readPoints fuel (adapt (sum - place) count (place = 0)) point (sum % count + 1) label rest

def decode? (s : Text) : Option Text :=
  let tail := (s.reverse.takeWhile (· ≠ '-')).reverse
  let basic := s.take (s.length - tail.length - 1)
  readPoints (tail.length + 1) 72 0x80 0 basic tail

end Punycode

end SchemaServer.Uri
