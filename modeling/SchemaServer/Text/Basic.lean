/-!
Text as a list of characters, with the two sizes that offsets into it count: UTF-8 bytes and UTF-16
units. A cut at a size keeps the longest prefix that fits, so it never splits a character.
-/
namespace SchemaServer

abbrev Text := List Char

namespace Text

/-- UTF-16 code units of a character: characters above U+FFFF are written as a surrogate pair. -/
def unitSize (c : Char) : Nat := if c.toNat < 0x10000 then 1 else 2

def total (size : Char → Nat) : Text → Nat
  | [] => 0
  | c :: r => size c + total size r

def byteLength (s : Text) : Nat := total Char.utf8Size s

def unitLength (s : Text) : Nat := total unitSize s

/-- The longest prefix of total size at most `n`. -/
def takeWithin (size : Char → Nat) : Nat → Text → Text
  | _, [] => []
  | n, c :: r => if size c ≤ n then c :: takeWithin size (n - size c) r else []

/-- What `takeWithin` leaves. -/
def dropWithin (size : Char → Nat) : Nat → Text → Text
  | _, [] => []
  | n, c :: r => if size c ≤ n then dropWithin size (n - size c) r else c :: r

def takeBytes (n : Nat) (s : Text) : Text := takeWithin Char.utf8Size n s

def dropBytes (n : Nat) (s : Text) : Text := dropWithin Char.utf8Size n s

def slice (start stop : Nat) (s : Text) : Text := takeBytes (stop - start) (dropBytes start s)

/-- UTF-16 column of a byte offset: an offset inside a character counts as its start, one past the
end as the end. -/
def columnAt (line : Text) (byte : Nat) : Nat := unitLength (takeBytes byte line)

/-- Byte offset of a UTF-16 column, rounded and clamped as in `columnAt`. -/
def byteAt (line : Text) (column : Nat) : Nat := byteLength (takeWithin unitSize column line)

/-- Byte offset `n` stands between two characters of `s` or at an end. -/
def IsBoundary (s : Text) (n : Nat) : Prop := byteLength (takeBytes n s) = n

instance (s : Text) (n : Nat) : Decidable (IsBoundary s n) := inferInstanceAs (Decidable (_ = _))

theorem takeWithin_append_dropWithin (size : Char → Nat) (n : Nat) (s : Text) :
    takeWithin size n s ++ dropWithin size n s = s := by
  induction s generalizing n with
  | nil => rfl
  | cons c r ih =>
    unfold takeWithin dropWithin
    split
    · simp [ih]
    · rfl

theorem total_append (size : Char → Nat) (s t : Text) :
    total size (s ++ t) = total size s + total size t := by
  induction s with
  | nil => simp [total]
  | cons c r ih => simp only [List.cons_append, total, ih, Nat.add_assoc]

theorem total_takeWithin_le (size : Char → Nat) (n : Nat) (s : Text) :
    total size (takeWithin size n s) ≤ n := by
  induction s generalizing n with
  | nil => simp [takeWithin, total]
  | cons c r ih =>
    unfold takeWithin
    split
    · have := ih (n - size c)
      simp only [total]
      omega
    · simp [total]

/-- Whether a table of first and last code points has the character in one of its ranges. -/
def inRanges (ranges : List (Nat × Nat)) (c : Char) : Bool :=
  ranges.any fun (first, last) => first ≤ c.toNat && c.toNat ≤ last

end Text

end SchemaServer
