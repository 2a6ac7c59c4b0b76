import SchemaServer.Text.Encoding

/-! Magnitudes of written numbers. Signs, and underscores between digits, do not count. -/
namespace SchemaServer

/-- The number `digits * 10 ^ exponent`. -/
structure Decimal where
  digits : Nat
  exponent : Int

namespace Decimal

/-- The number that the digits of a text write in a radix of at most sixteen. -/
def radixValue (radix : Nat) (s : Text) : Nat :=
  (s.filterMap Text.hexDigit?).foldl (fun n d => n * radix + d) 0

def isExponentMark (c : Char) : Bool := c = 'e' || c = 'E'

/-- The power of ten behind its mark, zero without one. -/
def writtenExponent (s : Text) : Int :=
  match s.dropWhile (!isExponentMark ·) with
  | [] => 0
  | _ :: exponent =>
    let n : Nat := radixValue 10 exponent
    if exponent.head? = some '-' then -(n : Int) else n

def ofSpelling (s : Text) : Decimal :=
  let mantissa := s.takeWhile (!isExponentMark ·)
  let fraction := ((mantissa.dropWhile (· ≠ '.')).drop 1).filter Char.isDigit
  ⟨radixValue 10 mantissa, writtenExponent s - fraction.length⟩

/-- Whether the nearest binary64 number is finite. The first two cases keep the powers of ten small: the
digits are below `2 ^ (log2 + 1)`, hence below `10 ^ (log2 + 1)`. -/
def isFinite (d : Decimal) : Bool :=
  if d.digits = 0 || d.exponent + d.digits.log2 ≤ 300 then true
  else if d.exponent > 308 then false
  else
    d.digits * Nat.pow 10 d.exponent.toNat
      < (Nat.pow 2 1024 - Nat.pow 2 970) * Nat.pow 10 (-d.exponent).toNat

end Decimal

end SchemaServer
