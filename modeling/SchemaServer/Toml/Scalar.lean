import SchemaServer.Decimal

/-! The scalar values of TOML that are written without quotes: booleans, integers, floats, dates and
times. They are checked for form and range, and not kept. -/
namespace SchemaServer.Toml

/-- Digits with single underscores between them. -/
def isDigitGroup (isDigit : Char → Bool) : Text → Bool
  | [] => false
  | [c] => isDigit c
  | c :: '_' :: rest => isDigit c && isDigitGroup isDigit rest
  | c :: rest => isDigit c && isDigitGroup isDigit rest

def unsigned : Text → Text
  | '+' :: rest | '-' :: rest => rest
  | s => s

def isWhole (s : Text) : Bool :=
  isDigitGroup Char.isDigit s && (s.head? ≠ some '0' || s.length = 1)

/-- Integers have at most 128 bits, with a sign or without. -/
def isInteger (s : Text) : Bool :=
  let isRadix (radix : Nat) (digits : Text) : Bool :=
    isDigitGroup (fun c => (Text.hexDigit? c).any (· < radix)) digits
      && Decimal.radixValue radix digits < Nat.pow 2 128
  match s with
  | '0' :: 'x' :: digits => isRadix 16 digits
  | '0' :: 'o' :: digits => isRadix 8 digits
  | '0' :: 'b' :: digits => isRadix 2 digits
  | '-' :: digits => isWhole digits && Decimal.radixValue 10 digits ≤ Nat.pow 2 127
  | _ => isWhole (unsigned s) && Decimal.radixValue 10 s < Nat.pow 2 128

def isFloat (s : Text) : Bool :=
  let s := unsigned s
  if s = "inf".toList || s = "nan".toList then true
  else
    let mantissa := s.takeWhile (!Decimal.isExponentMark ·)
    let exponentOk := match s.dropWhile (!Decimal.isExponentMark ·) with
      | [] => true
      | _ :: exponent => isDigitGroup Char.isDigit (unsigned exponent)
    let whole := mantissa.takeWhile (· ≠ '.')
    let fractionOk := match mantissa.dropWhile (· ≠ '.') with
      | [] => mantissa.length < s.length
      | _ :: fraction => isDigitGroup Char.isDigit fraction
    isWhole whole && fractionOk && exponentOk && (Decimal.ofSpelling s).isFinite

/-- Exactly `count` digits with their number, and the rest. -/
def readFixed (count : Nat) (s : Text) : Option (Nat × Text) :=
  let digits := s.take count
  if digits.length = count && digits.all Char.isDigit then
    some (digits.foldl (fun n c => n * 10 + (c.toNat - '0'.toNat)) 0, s.drop count)
  else none

def readChar (c : Char) : Text → Option Text
  | d :: rest => if c = d then some rest else none
  | [] => none

def daysInMonth (year month : Nat) : Nat :=
  if month = 2 then
    if year % 4 = 0 && (year % 100 ≠ 0 || year % 400 = 0) then 29 else 28
  else if month = 4 || month = 6 || month = 9 || month = 11 then 30 else 31

def readDate (s : Text) : Option Text := do
  let (year, rest) ← readFixed 4 s
  let (month, rest) ← readFixed 2 (← readChar '-' rest)
  let (day, rest) ← readFixed 2 (← readChar '-' rest)
  guard (1 ≤ month && month ≤ 12 && 1 ≤ day && day ≤ daysInMonth year month)
  return rest

def readTime (s : Text) : Option Text := do
  let (hour, rest) ← readFixed 2 s
  let (minute, rest) ← readFixed 2 (← readChar ':' rest)
  guard (hour ≤ 23 && minute ≤ 59)
  match rest with
  | ':' :: rest =>
    let (second, rest) ← readFixed 2 rest
    guard (second ≤ 60)
    match rest with
    | '.' :: rest => if rest.head?.any Char.isDigit then return rest.dropWhile Char.isDigit else none
    | _ => return rest
  | _ => return rest

/-- The offset behind a date with a time, if there is one. -/
def isOffset : Text → Bool
  | [] => true
  | ['Z'] | ['z'] => true
  | sign :: rest =>
    (sign = '+' || sign = '-') && (do
      let (hour, rest) ← readFixed 2 rest
      let (minute, rest) ← readFixed 2 (← readChar ':' rest)
      guard (hour ≤ 23 && minute ≤ 59 && rest.isEmpty)).isSome

def isDateTime (s : Text) : Bool :=
  match readDate s with
  | some [] => true
  | some (mark :: rest) =>
    (mark = 'T' || mark = 't' || mark = ' ') && (readTime rest).any isOffset
  | none => readTime s = some []

def isBareScalar (s : Text) : Bool :=
  s = "true".toList || s = "false".toList || isInteger s || isFloat s || isDateTime s

end SchemaServer.Toml
