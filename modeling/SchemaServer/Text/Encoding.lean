import SchemaServer.Text.Basic

/-! Characters by their numbers: hexadecimal digits, code points, and UTF-8 read byte by byte. A byte sequence
that cannot be continued counts as one error up to the byte that breaks it, and that byte is read anew. -/
namespace SchemaServer.Text

def hexDigit? (c : Char) : Option Nat :=
  if '0' ≤ c && c ≤ '9' then some (c.toNat - '0'.toNat)
  else if 'a' ≤ c && c ≤ 'f' then some (c.toNat - 'a'.toNat + 10)
  else if 'A' ≤ c && c ≤ 'F' then some (c.toNat - 'A'.toNat + 10)
  else none

def hexNumber? (digits : Text) : Option Nat :=
  digits.foldlM (fun n c => (hexDigit? c).map (n * 16 + ·)) 0

/-- The character of a code point; none for surrogates and beyond the last. -/
def charOf? (n : Nat) : Option Char :=
  if n < 0xD800 || (0xE000 ≤ n && n < 0x110000) then some (Char.ofNat n) else none

/-- A character of which some bytes are read: the bits so far and the ranges of the bytes to come. -/
structure Pending where
  bits : Nat
  expected : List (Nat × Nat)

def Pending.ofLead? (byte : Nat) : Option Pending :=
  let tail := (0x80, 0xBF)
  if byte < 0xC2 then none
  else if byte < 0xE0 then some ⟨byte - 0xC0, [tail]⟩
  else if byte = 0xE0 then some ⟨0, [(0xA0, 0xBF), tail]⟩
  else if byte = 0xED then some ⟨0xD, [(0x80, 0x9F), tail]⟩
  else if byte < 0xF0 then some ⟨byte - 0xE0, [tail, tail]⟩
  else if byte = 0xF0 then some ⟨0, [(0x90, 0xBF), tail, tail]⟩
  else if byte < 0xF4 then some ⟨byte - 0xF0, [tail, tail, tail]⟩
  else if byte = 0xF4 then some ⟨4, [(0x80, 0x8F), tail, tail]⟩
  else none

/-- What one byte completes, with `none` for an error, and the character left open. -/
def startByte (byte : Nat) : List (Option Char) × Option Pending :=
  if byte < 0x80 then ([some (Char.ofNat byte)], none)
  else match Pending.ofLead? byte with
    | some pending => ([], some pending)
    | none => ([none], none)

def nextByte (pending : Option Pending) (byte : Nat) : List (Option Char) × Option Pending :=
  match pending with
  | some ⟨bits, (low, high) :: more⟩ =>
    if low ≤ byte && byte ≤ high then
      let bits := bits * 64 + (byte - 0x80)
      if more.isEmpty then ([charOf? bits], none) else ([], some ⟨bits, more⟩)
    else
      let (done, pending) := startByte byte
      (none :: done, pending)
  | _ => startByte byte

def decodeFrom (pending : Option Pending) : List UInt8 → List (Option Char)
  | [] => if pending.isSome then [none] else []
  | byte :: rest =>
    let (done, pending) := nextByte pending byte.toNat
    done ++ decodeFrom pending rest

/-- The characters of a byte sequence, each error as `none`. -/
def decode (bytes : List UInt8) : List (Option Char) := decodeFrom none bytes

/-- The text of a byte sequence; none if there is an error in it. -/
def ofUtf8? (bytes : List UInt8) : Option Text := (decode bytes).mapM id

/-- The text of a byte sequence with U+FFFD for each error. -/
def ofUtf8 (bytes : List UInt8) : Text := (decode bytes).map (·.getD '\uFFFD')

end SchemaServer.Text
