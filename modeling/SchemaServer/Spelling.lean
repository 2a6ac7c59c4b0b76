import SchemaServer.Text.Basic

/-! Corrections of a misspelt name: the candidates that contain its characters in order, best score first, then
shortest. Matches score more at the start of a word, in runs and in the same case; gaps cost. The two rows of
the table live in a memory that outlasts a call and is only partly cleared, so a score can depend on the calls
before. -/
namespace SchemaServer.Spelling

/-- What a character is in the division of a name into words. -/
inductive Letter
  | edge
  | upper
  | lower
  | digit
  | hard
  | soft
  deriving DecidableEq

def Letter.ofChar (c : Char) : Letter :=
  if c.toNat = 0 then edge
  else if " /\\|()[]\x7b\x7d".toList.contains c then hard
  else if ('!' ≤ c && c ≤ '\'') || ('*' ≤ c && c ≤ '.') || (':' ≤ c && c ≤ '@')
      || ('^' ≤ c && c.toNat ≤ 0x60) || c = '~' then soft
  else if c.isDigit then digit
  else if c.isUpper then upper
  else lower

def placeBonus (previous c : Char) : Int :=
  match Letter.ofChar previous, Letter.ofChar c with
  | .edge, _ | .hard, _ => 8
  | .soft, _ => 7
  | .lower, .upper | .digit, .upper => 6
  | _, _ => 0

/-- Bonuses of all characters of a candidate; the first counts twice. -/
def placeBonuses (choice : Text) : List Int :=
  match List.zipWith placeBonus (Char.ofNat 0 :: choice) choice with
  | first :: rest => first * 2 :: rest
  | [] => []

def same (caseSensitive : Bool) (a b : Char) : Bool :=
  if caseSensitive then a = b else a.toLower = b.toLower

/-- Indices of the pattern in the candidate, each the first behind the one before. -/
def firstIndices (caseSensitive : Bool) (index : Nat) : Text → Text → Option (List Nat)
  | _, [] => some []
  | [], _ :: _ => none
  | c :: choice, p :: pattern =>
    if same caseSensitive c p then (firstIndices caseSensitive (index + 1) choice pattern).map (index :: ·)
    else firstIndices caseSensitive (index + 1) choice (p :: pattern)

/-- Score of the best match that ends in a cell, of the best gap, and the bonus of a run. -/
structure Cell where
  matched : Int
  gap : Int
  bonus : Int
  deriving DecidableEq

def noMatch : Int := -32768

abbrev Memory := Array Cell

namespace Memory

def empty : Cell := ⟨noMatch, noMatch, 0⟩

def cell (memory : Memory) (k : Nat) : Cell := memory.getD k empty

/-- Cut or filled up to `size` cells; the cells that stay keep their values. -/
def resize (memory : Memory) (size : Nat) : Memory :=
  (memory ++ Array.replicate (size - memory.size) empty).take size

end Memory

/-- One candidate against one pattern. -/
structure Match where
  choice : Array Char
  bonuses : Array Int
  caseSensitive : Bool

/-- Fills the cell behind candidate character `j` for pattern character `p`; `row` and `above` are where
the two rows of the table start. -/
def Match.fill (m : Match) (p : Char) (row above : Nat) (memory : Memory) (j : Nat) : Memory :=
  let c := m.choice.getD j (Char.ofNat 0)
  let place := m.bonuses.getD j 0
  let last := memory.cell (row + j)
  let current := memory.cell (row + j + 1)
  let diagonal := memory.cell (above + j)
  let gap := max (last.matched - 4) (last.gap - 1)
  if same m.caseSensitive c p then
    let bonus := max last.bonus (max place 4)
    let value := if !m.caseSensitive && p ≠ c then 14 else 16
    let matched := max (diagonal.matched + bonus) (diagonal.gap + place) + value
    (memory.setIfInBounds (row + j) { last with bonus }).setIfInBounds (row + j + 1)
      { current with matched, gap }
  else memory.setIfInBounds (row + j + 1) ⟨noMatch, gap, 0⟩

/-- Fills a row per pattern character, from the first index at which it can stand. -/
def Match.fillRows (m : Match) (columns : Nat) : Nat → List (Char × Nat) → Memory → Memory
  | _, [], memory => memory
  | i, (p, first) :: rest, memory =>
    let row := (i + 1) % 2 * columns
    let above := i % 2 * columns
    m.fillRows columns (i + 1) rest
      ((List.range' first (m.choice.size - first)).foldl (m.fill p row above) memory)

/-- Score of a candidate, `none` if it does not contain the pattern, and the memory afterwards. -/
def score (memory : Memory) (choice pattern : Text) : Option Int × Memory :=
  if pattern.isEmpty then (some 0, memory)
  else
    let caseSensitive := pattern.any Char.isUpper
    match firstIndices caseSensitive 0 choice pattern with
    | none => (none, memory)
    | some indices =>
      let m : Match := ⟨choice.toArray, (placeBonuses choice).toArray, caseSensitive⟩
      let columns := choice.length + 1
      let cleared := (memory.resize (2 * columns)).setIfInBounds (columns + indices.headD 0)
        Memory.empty
      let cleared := (List.range columns).foldl
        (fun memory j => memory.setIfInBounds j ⟨noMatch, -1, 0⟩) cleared
      let filled := m.fillRows columns 0 (pattern.zip indices) cleared
      let row := pattern.length % 2 * columns
      let last := indices.getLastD 0
      let best := (List.range' last (columns - last)).foldl
        (fun best k => max best (filled.cell (row + k)).matched) noMatch
      (some best, filled)

def scored (pattern : Text) (memory : Memory) : List Text → List (Int × Text)
  | [] => []
  | c :: rest =>
    let (value, after) := score memory c pattern
    (value.map (·, c)).toList ++ scored pattern after rest

/-- Higher scores first, then shorter candidates. -/
def ranksBefore (a b : Int × Text) : Bool :=
  b.1 < a.1 || (a.1 = b.1 && Text.byteLength a.2 ≤ Text.byteLength b.2)

def suggestionLimit : Nat := 3

def suggestions (unknown : Text) (candidates : List Text) : List Text :=
  let ranked := (scored unknown #[] (candidates.filter (· ≠ unknown))).mergeSort ranksBefore
  (ranked.take suggestionLimit).map Prod.snd

end SchemaServer.Spelling
