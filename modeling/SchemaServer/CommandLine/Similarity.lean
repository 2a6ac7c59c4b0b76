import SchemaServer.Text.Basic

/-! The Jaro similarity of two names, as an exact fraction. Characters match if they are equal and at most
about half a name apart; matches in another order count less. -/
namespace SchemaServer.CommandLine

/-- Index of the first free character equal to `c` between two bounds. -/
def matchIndex? (c : Char) (first stop : Nat) (name : Text) (used : List Nat) : Option Nat :=
  ((name.zipIdx.filter fun (d, j) => d = c && first ≤ j && j < stop && !used.contains j).head?).map Prod.snd

/-- Pairs of indices of matching characters, in the order of the first name. -/
def matchedPairs (reach : Nat) (b : Text) (used : List Nat) : List (Char × Nat) → List (Nat × Nat)
  | [] => []
  | (c, i) :: rest =>
    match matchIndex? c (i - reach) (i + reach + 1) b used with
    | some j => (i, j) :: matchedPairs reach b (j :: used) rest
    | none => matchedPairs reach b used rest

/-- A similarity `part / whole`. -/
structure Similarity where
  part : Nat
  whole : Nat

namespace Similarity

def between (a b : Text) : Similarity :=
  if a.isEmpty && b.isEmpty then ⟨1, 1⟩
  else
    let reach := max a.length b.length / 2 - 1
    let pairs := matchedPairs reach b [] a.zipIdx
    let m := pairs.length
    if m = 0 then ⟨0, 1⟩
    else
      let left := pairs.map fun (i, _) => a[i]?
      let right := ((pairs.map Prod.snd).mergeSort fun i j => decide (i ≤ j)).map fun j => b[j]?
      let moved := ((left.zip right).filter fun (x, y) => x ≠ y).length / 2
      ⟨m * m * b.length + m * m * a.length + (m - moved) * a.length * b.length,
        3 * a.length * b.length * m⟩

/-- From seven tenths on a name is worth suggesting. -/
def isClose (s : Similarity) : Bool := 7 * s.whole ≤ 10 * s.part

def atMost (s t : Similarity) : Bool := s.part * t.whole ≤ t.part * s.whole

end Similarity

/-- The name closest to a misspelt one; of equally close names the last. -/
def closest? (name : Text) (names : List Text) : Option Text :=
  let scored := (names.map fun n => (Similarity.between name n, n)).filter (·.1.isClose)
  (scored.foldl (fun best found =>
    match best with
    | some old => if old.1.atMost found.1 then some found else some old
    | none => some found) (none : Option (Similarity × Text))).map Prod.snd

end SchemaServer.CommandLine
