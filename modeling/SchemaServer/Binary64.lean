/-! Finite binary64 magnitudes with multiplication and division. Each operation forms its exact result as a
quotient of natural numbers and rounds it once, to the nearest value and on a tie to the even one. A result
beyond the largest finite value is none. The shortest decimal that reads back as a value lies in the interval of
numbers that round to it; the ends belong to it if the mantissa is even. Among the decimals of the fewest digits
there the nearest one is taken, and on each decimal grid only the two neighbours of the value have to be tried. -/
namespace SchemaServer

/-- The number `mantissa * 2 ^ exponent`. -/
structure Binary64 where
  mantissa : Nat
  exponent : Int
  deriving DecidableEq, Inhabited

namespace Binary64

/-- Mantissas are below this power of two. -/
def precision : Nat := 53

/-- The exponents of the smallest and of the largest values. -/
def minExponent : Int := -1074

def maxExponent : Int := 971

def isZero (x : Binary64) : Bool := x.mantissa = 0

/-- The quotient rounded to the nearest natural number, a tie to the even one. -/
def roundQuotient (num den : Nat) : Nat :=
  let quotient := num / den
  let rest := num % den
  if 2 * rest < den then quotient
  else if den < 2 * rest then quotient + 1
  else quotient + quotient % 2

/-- The fraction `num / den` measured in units of `2 ^ exponent`. -/
def inUnits (num den : Nat) (exponent : Int) : Nat × Nat :=
  (num * Nat.pow 2 (-exponent).toNat, den * Nat.pow 2 exponent.toNat)

/-- The unit in which a fraction is rounded: the mantissa gets all its bits, unless the fraction is too
small. The logarithms leave two units to choose from. -/
def unitOf (num den : Nat) : Int :=
  let low := max ((num.log2 : Int) - den.log2 - precision) minExponent
  let (n, d) := inUnits num den low
  if n / d < Nat.pow 2 precision then low else low + 1

def ofRatio? (num den : Nat) : Option Binary64 :=
  let unit := unitOf num den
  let (n, d) := inUnits num den unit
  let mantissa := roundQuotient n d
  let x : Binary64 :=
    if mantissa < Nat.pow 2 precision then ⟨mantissa, unit⟩ else ⟨mantissa / 2, unit + 1⟩
  if maxExponent < x.exponent then none else some x

def ratio (x : Binary64) : Nat × Nat :=
  (x.mantissa * Nat.pow 2 x.exponent.toNat, Nat.pow 2 (-x.exponent).toNat)

def mul? (x y : Binary64) : Option Binary64 :=
  ofRatio? (x.ratio.1 * y.ratio.1) (x.ratio.2 * y.ratio.2)

def div? (x y : Binary64) : Option Binary64 :=
  ofRatio? (x.ratio.1 * y.ratio.2) (x.ratio.2 * y.ratio.1)

def powerOfTen? (n : Nat) : Option Binary64 := ofRatio? (Nat.pow 10 n) 1

/-- The number `num / den` against `digits * 10 ^ exponent`, on a common denominator. -/
def onGrid (num den : Nat) (exponent : Int) : Nat × Nat :=
  (num * Nat.pow 10 (-exponent).toNat, den * Nat.pow 10 exponent.toNat)

/-- The power of ten of the first digit of `num / den`, looked for from `guess` on. -/
def leadingPower (num den : Nat) : Nat → Int → Int
  | 0, guess => guess
  | fuel + 1, guess =>
    let (n, d) := onGrid num den guess
    if n < d then leadingPower num den fuel (guess - 1)
    else if 10 * d ≤ n then leadingPower num den fuel (guess + 1)
    else guess

/-- Whether a decimal reads back as the value. All quantities are measured in quarters of the value's unit:
the interval reaches two of them up, and two down, but only one below a power of two. -/
def readsBack (x : Binary64) (digits : Nat) (exponent : Int) : Bool :=
  let down := if x.mantissa = Nat.pow 2 (precision - 1) && minExponent < x.exponent then 1 else 2
  let (n, d) := ratio ⟨1, x.exponent - 2⟩
  let (low, scale) := onGrid ((4 * x.mantissa - down) * n) d exponent
  let (high, _) := onGrid ((4 * x.mantissa + 2) * n) d exponent
  if x.mantissa % 2 = 0 then low ≤ digits * scale && digits * scale ≤ high
  else low < digits * scale && digits * scale < high

def neighbour? (x : Binary64) (exponent : Int) : Option Nat :=
  let (n, d) := onGrid x.ratio.1 x.ratio.2 exponent
  let below := n / d
  match readsBack x below exponent, readsBack x (below + 1) exponent with
  | true, true => some (roundQuotient n d)
  | true, false => some below
  | false, true => some (below + 1)
  | false, false => none

/-- The first grid with a neighbour that reads back, from coarse to fine. -/
def finerGrid (x : Binary64) : Nat → Int → Nat × Int
  | 0, exponent => (0, exponent)
  | fuel + 1, exponent =>
    match neighbour? x exponent with
    | some digits => (digits, exponent)
    | none => finerGrid x fuel (exponent - 1)

/-- Digits and power of ten of the shortest decimal. Seventeen digits are always enough. A trailing zero can
only come from a value just below a power of ten. -/
def shortest (x : Binary64) : Nat × Int :=
  if x.isZero then (0, 0)
  else
    let guess := ((x.mantissa.log2 : Int) + x.exponent) * 30103 / 100000
    match finerGrid x 17 (leadingPower x.ratio.1 x.ratio.2 3 guess) with
    | (10, exponent) => (1, exponent + 1)
    | found => found

end Binary64

end SchemaServer
