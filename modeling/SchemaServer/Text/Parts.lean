import SchemaServer.Text.Basic

/-! The parts of a text: words, which are the runs between the characters of the Unicode property White_Space,
and what stands in front of and behind an occurrence of another text. -/
namespace SchemaServer.Text

def isBlank (c : Char) : Bool :=
  let n := c.toNat
  n = 0x20 || (0x09 ≤ n && n ≤ 0x0D) || n = 0x85 || n = 0xA0 || n = 0x1680
    || (0x2000 ≤ n && n ≤ 0x200A) || n = 0x2028 || n = 0x2029 || n = 0x202F || n = 0x205F
    || n = 0x3000

def trim (s : Text) : Text := (s.dropWhile isBlank).reverse.dropWhile isBlank |>.reverse

/-- The maximal runs of characters that are no blanks. -/
def words : Text → List Text
  | [] => []
  | c :: r =>
    if isBlank c then words r
    else if r.head?.all isBlank then [c] :: words r
    else match words r with
      | [] => [[c]]
      | w :: ws => (c :: w) :: ws

def firstWordSpan (line : Text) : Option (Nat × Nat) :=
  let before := line.takeWhile isBlank
  match (line.dropWhile isBlank).takeWhile (!isBlank ·) with
  | [] => none
  | word => some (byteLength before, byteLength before + byteLength word)

/-- The word that contains or touches UTF-16 column `column`; empty between blanks. -/
def wordAt (line : Text) (column : Nat) : Text :=
  let before := takeWithin unitSize column line
  let after := dropWithin unitSize column line
  (before.reverse.takeWhile (!isBlank ·)).reverse ++ after.takeWhile (!isBlank ·)

def splitAtFirst? (needle : Text) : Text → Option (Text × Text)
  | [] => if needle.isEmpty then some ([], []) else none
  | c :: r =>
    if needle.isPrefixOf (c :: r) then some ([], c :: r)
    else (splitAtFirst? needle r).map fun (before, found) => (c :: before, found)

def mentions (s needle : Text) : Bool := (splitAtFirst? needle s).isSome

def fromLast? (needle : Text) : Text → Option Text
  | [] => if needle.isEmpty then some [] else none
  | c :: r =>
    match fromLast? needle r with
    | some found => some found
    | none => if needle.isPrefixOf (c :: r) then some (c :: r) else none

def parts (isSeparator : Char → Bool) (s : Text) : List Text :=
  s.foldr (fun c parts =>
    if isSeparator c then [] :: parts
    else match parts with
      | part :: rest => (c :: part) :: rest
      | [] => [[c]]) [[]]

def after? (lead s : Text) : Option Text :=
  if lead.isPrefixOf s then some (s.drop lead.length) else none

theorem append_of_splitAtFirst {needle s before found : Text}
    (h : splitAtFirst? needle s = some (before, found)) :
    before ++ found = s ∧ needle.isPrefixOf found = true := by
  induction s generalizing before found with
  | nil =>
    unfold splitAtFirst? at h
    split at h
    · simp_all
    · contradiction
  | cons c r ih =>
    unfold splitAtFirst? at h
    split at h
    · simp_all
    · obtain ⟨⟨b, f⟩, found', same⟩ := Option.map_eq_some_iff.mp h
      obtain ⟨rfl, rfl⟩ := Prod.mk.inj same
      simp [ih found']

end SchemaServer.Text
