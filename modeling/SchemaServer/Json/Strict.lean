import SchemaServer.Json.Basic
import SchemaServer.Decimal
import SchemaServer.Json.Written

/-! The value of a written JSON text, within the limits of a reader: every string has a text, numbers stay in the
range of binary64, and values nest less than 128 deep. Of a number that is no integer of 64 bits the digits that
fit 64 bits are taken, and they are scaled to the power of ten by binary64 multiplication or division, so that a
value may be off by a few units in the last place. -/
namespace SchemaServer

namespace Json

/-- Appends digits to a number as long as it fits 64 bits, and leaves the others. -/
def absorb (n : Nat) : Text → Nat × Text
  | [] => (n, [])
  | c :: rest =>
    let longer := n * 10 + (Text.hexDigit? c).getD 0
    if longer < UInt64.size then absorb longer rest else (n, c :: rest)

/-- The largest power of ten that a value is scaled by at once. -/
def stepExponent : Nat := 308

/-- Scales a value by a power of ten. A very small one is reached in steps, and zero stays zero. -/
def scaled? (x : Binary64) (exponent : Int) : Option Binary64 :=
  if exponent.natAbs ≤ stepExponent then do
    let power ← Binary64.powerOfTen? exponent.natAbs
    if 0 ≤ exponent then x.mul? power else x.div? power
  else if x.isZero then some x
  else if _positive : 0 ≤ exponent then none
  else ((Binary64.powerOfTen? stepExponent).bind x.div?).bind fun smaller =>
    scaled? smaller (exponent + stepExponent)
termination_by exponent.natAbs
decreasing_by
  simp only [stepExponent] at *
  omega

/-- Exponents count up to this size; beyond it a number is zero or out of range. -/
def exponentLimit : Nat := Int32.maxValue.toInt.toNat

def magnitude? (significand : Nat) (start written : Int) : Option Binary64 := do
  let x ← Binary64.ofRatio? significand 1
  if exponentLimit < written.natAbs then
    if significand ≠ 0 && 0 < written then none else Binary64.ofRatio? 0 1
  else scaled? x (start + written)

/-- The value of a number that is written by the grammar; none if it is out of range. -/
def number? (spelling : Text) : Option Json :=
  let isNegative := spelling.head? = some '-'
  let mantissa := spelling.takeWhile (!Decimal.isExponentMark ·)
  let (significand, dropped) := absorb 0 ((mantissa.takeWhile (· ≠ '.')).filter Char.isDigit)
  let fraction := (mantissa.dropWhile (· ≠ '.')).drop 1
  let (significand, ignored) := absorb significand fraction
  let start : Int := (dropped.length : Int) - (fraction.length - ignored.length : Nat)
  let isWhole := mantissa.length = spelling.length && fraction.isEmpty && dropped.isEmpty
  if isWhole && !isNegative then some (.int significand)
  else if isWhole && 0 < significand && Int64.minValue.toInt ≤ -(significand : Int) then
    some (.int (-significand))
  else (magnitude? significand start (Decimal.writtenExponent spelling)).map (.float isNegative)

/-- The value of `mantissa / 10 ^ scale`. Zero stands for a number that is out of range. -/
def ofDecimal (mantissa : Int) (scale : Nat) : Json :=
  if scale = 0 && Int64.minValue.toInt ≤ mantissa && mantissa < UInt64.size then .int mantissa
  else .float (mantissa < 0) ((Binary64.ofRatio? mantissa.natAbs (Nat.pow 10 scale)).getD default)

end Json

namespace WrittenJson

def depthLimit : Nat := 128

mutual

/-- `depth` bounds how deep the value may still nest. -/
def value? (depth : Nat) : WrittenJson → Option Json
  | .null => some .null
  | .bool b => some (.bool b)
  | .number spelling => Json.number? spelling
  | .string content => content.map .string
  | .array items => if depth ≤ 1 then none else (values? (depth - 1) items).map .array
  | .object members => if depth ≤ 1 then none else (memberValues? (depth - 1) members).map .object

def values? (depth : Nat) : List WrittenJson → Option (List Json)
  | [] => some []
  | item :: rest => do
    let value ← value? depth item
    return value :: (← values? depth rest)

def memberValues? (depth : Nat) : List (Option Text × WrittenJson) → Option (List (Text × Json))
  | [] => some []
  | (key, item) :: rest => do
    let key ← key
    let value ← value? depth item
    return (key, value) :: (← memberValues? depth rest)

end

/-- The value at the start of a text and what follows it. -/
def readStrict? (s : Text) : Option (Json × Text) := do
  let (written, rest) ← read? s
  return (← value? depthLimit written, rest)

end WrittenJson

end SchemaServer
