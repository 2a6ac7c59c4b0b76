import Mathlib.Data.List.Basic
import SchemaServer.Proofs.Field

/-! Blocks of a document with some lines rewritten and at most one line inserted. Where each line opens and
closes what it did before, the blocks stay the same but for their names, and the rows behind the inserted line
count one more. -/
namespace SchemaServer

open Text

/-- Lines by row, what a block that opens on a row is called afterwards, and a line that goes in above a row. -/
structure Rewriting where
  line : Nat → Text → Text
  title : Nat → Text → Text
  inserted : Text
  above : Option Nat

namespace Rewriting

variable {w : Rewriting} {doc doc' : Document} {rows rest : List (Text × Nat)} {line : Text} {row stop : Nat}
variable {b : Block}

/-- The row after the insertion. -/
def shift (w : Rewriting) (row : Nat) : Nat := if w.above.any (· ≤ row) then row + 1 else row

/-- The rows that take the place of a row. -/
def rowsOf (w : Rewriting) (x : Text × Nat) : List (Text × Nat) :=
  (if w.above = some x.2 then [(w.inserted, x.2)] else []) ++ [(w.line x.2 x.1, w.shift x.2)]

/-- `doc'` is what the rewriting makes of `doc`. -/
def Carries (w : Rewriting) (doc doc' : Document) : Prop := doc'.rows = doc.rows.flatMap w.rowsOf

/-- Every line opens and closes what it did before, and the inserted line goes in above a closing line and does
neither. -/
structure Keeps (w : Rewriting) (doc : Document) : Prop where
  opens : ∀ row line, doc.line? row = some line →
    Header.ofLine? (w.line row line) = (Header.ofLine? line).map fun h => ⟨h.kind, w.title row h.name⟩
  closes : ∀ row line, doc.line? row = some line → isClosing (w.line row line) = isClosing line
  unopened : isOpening w.inserted = false
  unclosed : isClosing w.inserted = false
  above : ∀ row, w.above = some row → ∃ line, doc.line? row = some line ∧ isClosing line = true

def block (w : Rewriting) (doc' : Document) (b : Block) : Block :=
  { b with
    name := w.title b.start.line b.name
    start := ⟨w.shift b.start.line, b.start.character⟩
    stop := ⟨w.shift b.stop.line, doc'.width (w.shift b.stop.line)⟩ }

theorem shift_lt_iff {m n : Nat} : w.shift m < w.shift n ↔ m < n := by
  unfold shift
  cases w.above with
  | none => simp
  | some row =>
    simp only [Option.any_some, decide_eq_true_eq]
    split <;> split <;> omega

theorem shift_le_iff {m n : Nat} : w.shift m ≤ w.shift n ↔ m ≤ n := by
  rw [← Nat.not_lt, shift_lt_iff, Nat.not_lt]

theorem shift_inj {m n : Nat} : w.shift m = w.shift n ↔ m = n := by
  refine ⟨fun same => ?_, fun same => by rw [same]⟩
  exact Nat.le_antisymm (shift_le_iff.mp (Nat.le_of_eq same)) (shift_le_iff.mp (Nat.le_of_eq same.symm))

/-- The first marked row stays the first. -/
theorem find?_flatMap (mark : Text → Bool) (among : ∀ x ∈ rest, x ∈ doc.rows)
    (same : ∀ row line, doc.line? row = some line → mark (w.line row line) = mark line)
    (silent : mark w.inserted = false) :
    (rest.flatMap w.rowsOf).find? (fun x => mark x.1) =
      (rest.find? fun x => mark x.1).map fun x => (w.line x.2 x.1, w.shift x.2) := by
  induction rest with
  | nil => rfl
  | cons x rest ih =>
    obtain ⟨line, row⟩ := x
    have there := Document.mem_rows_iff.mp (among _ List.mem_cons_self)
    have later := ih fun x member => among x (List.mem_cons_of_mem _ member)
    have front : (w.rowsOf (line, row)).find? (fun x => mark x.1) =
        if mark line then some (w.line row line, w.shift row) else none := by
      unfold rowsOf
      split <;> simp [List.find?_cons, silent, same row line there] <;> split <;> simp_all
    rw [List.flatMap_cons, List.find?_append, front, later, List.find?_cons]
    cases mark line <;> rfl

theorem bodyContains_shift : (w.block doc' b).bodyContains (w.shift row) = b.bodyContains row := by
  apply Bool.eq_iff_iff.mpr
  rw [Block.bodyContains_iff, Block.bodyContains_iff]
  simp only [block, shift_lt_iff, shift_inj]

section Carried

variable (carries : w.Carries doc doc')

include carries

theorem line?_iff {found : Text} {n : Nat} : doc'.line? n = some found ↔
    ∃ row line, doc.line? row = some line ∧
      ((w.above = some row ∧ n = row ∧ found = w.inserted) ∨ (n = w.shift row ∧ found = w.line row line)) := by
  rw [← Document.mem_rows_iff, carries]
  simp only [List.mem_flatMap, Prod.exists, Document.mem_rows_iff, rowsOf, List.mem_append,
    List.mem_singleton, Prod.mk.injEq, exists_comm (α := Text)]
  refine exists_congr fun row => exists_congr fun line => and_congr_right fun _ => or_congr ?_ and_comm
  split
  · rename_i inserted
    simp [inserted, and_comm]
  · rename_i other
    simp [other]

theorem line?_shift (there : doc.line? row = some line) : doc'.line? (w.shift row) = some (w.line row line) :=
  (line?_iff carries).mpr ⟨row, line, there, .inr ⟨rfl, rfl⟩⟩

theorem lineCount_eq : doc'.lineCount - 1 = w.shift (doc.lineCount - 1) := by
  have pos := doc.lineCount_pos
  obtain ⟨last, there⟩ := Option.isSome_iff_exists.mp
    (Document.line?_isSome_iff.mpr (Nat.sub_one_lt_of_lt pos))
  have reached := Document.lt_lineCount (line?_shift carries there)
  obtain ⟨last', there'⟩ := Option.isSome_iff_exists.mp
    (Document.line?_isSome_iff.mpr (Nat.sub_one_lt_of_lt doc'.lineCount_pos))
  obtain ⟨row, line, found, place⟩ := (line?_iff carries).mp there'
  have bound := Document.lt_lineCount found
  have below : doc'.lineCount - 1 ≤ w.shift row := by
    rcases place with ⟨-, here, -⟩ | ⟨here, -⟩
    · rw [here]
      unfold shift
      split <;> omega
    · exact Nat.le_of_eq here
  have := shift_le_iff (w := w).mpr (show row ≤ doc.lineCount - 1 by omega)
  omega

variable (keeps : w.Keeps doc)

include keeps

omit carries in
theorem isOpening_line (there : doc.line? row = some line) : isOpening (w.line row line) = isOpening line := by
  rw [isOpening, isOpening, keeps.opens row line there, Option.isSome_map]

theorem opened_flatMap {header : Header} (suffix : (line, row) :: rest <:+ doc.rows) :
    Block.opened doc' ⟨header.kind, w.title row header.name⟩ (w.shift row) (rest.flatMap w.rowsOf) =
      w.block doc' (Block.opened doc header row rest) := by
  have marks : ∀ row line, doc.line? row = some line →
      (isOpening (w.line row line) || isClosing (w.line row line)) = (isOpening line || isClosing line) := by
    intro row line there
    rw [isOpening_line keeps there, keeps.closes row line there]
  have found := find?_flatMap (w := w) (fun line => isOpening line || isClosing line)
    (fun x member => suffix.subset (List.mem_cons_of_mem _ member)) marks
    (by simp [keeps.unopened, keeps.unclosed])
  unfold Block.opened
  rw [found]
  cases first : rest.find? fun x => isOpening x.1 || isClosing x.1 with
  | none => simp only [Option.map_none, block, lineCount_eq carries]
  | some x =>
    obtain ⟨stopLine, stop⟩ := x
    obtain ⟨there, below⟩ := (Block.mem_rest_iff suffix).mp (List.mem_of_find?_eq_some first)
    simp only [Option.map_some, isOpening_line keeps there]
    by_cases opening : isOpening stopLine = true
    · -- the inserted line goes in above a closing line, so not between the opening line and the row above it
      have apart : w.shift stop - 1 = w.shift (stop - 1) := by
        have other : w.above ≠ some stop := by
          intro here
          obtain ⟨line', there', closing⟩ := keeps.above stop here
          obtain rfl := Option.some.inj (there.symm.trans there')
          obtain ⟨header, opens⟩ := Option.isSome_iff_exists.mp opening
          rw [isClosing_of_header opens] at closing
          contradiction
        unfold shift
        cases place : w.above with
        | none => simp
        | some m =>
          rw [place] at other
          have : m ≠ stop := fun same => other (by rw [same])
          simp only [Option.any_some, decide_eq_true_eq]
          split <;> split <;> omega
      simp only [opening, ↓reduceIte, block, apart]
    · simp only [opening, ↓reduceIte, block, Bool.false_eq_true]

theorem inRows_flatMap (suffix : rows <:+ doc.rows) :
    Block.inRows doc' (rows.flatMap w.rowsOf) = (Block.inRows doc rows).map (w.block doc') := by
  induction rows with
  | nil => rfl
  | cons x rest ih =>
    obtain ⟨line, row⟩ := x
    have there := Block.mem_rows_suffix suffix
    have later := ih ((List.suffix_cons _ _).trans suffix)
    have front : Block.inRows doc' (((line, row) :: rest).flatMap w.rowsOf) =
        Block.inRows doc' ((w.line row line, w.shift row) :: rest.flatMap w.rowsOf) := by
      have silent : Header.ofLine? w.inserted = none := by simpa [isOpening] using keeps.unopened
      rw [List.flatMap_cons, rowsOf]
      split
      · simp only [List.cons_append, List.nil_append, Block.inRows, silent]
      · rfl
    rw [front, Block.inRows, Block.inRows, keeps.opens row line there]
    cases opens : Header.ofLine? line with
    | none => exact later
    | some header =>
      simp only [Option.map_some, List.map_cons, later]
      rw [opened_flatMap carries keeps suffix]

theorem blocks_eq : doc'.blocks = doc.blocks.map (w.block doc') := by
  rw [Document.blocks, carries, inRows_flatMap carries keeps List.suffix_rfl]
  rfl

omit keeps

/-- The fields of a block, where each body line declares what it did before up to `relabel`. -/
theorem fields_eq {relabel : Field → Field} (silent : ∀ row, Field.ofLine? w.inserted row = none)
    (same : ∀ row line, doc.line? row = some line → b.bodyContains row = true →
      Field.ofLine? (w.line row line) (w.shift row) = (Field.ofLine? line row).map relabel) :
    (w.block doc' b).fields doc' = (b.fields doc).map relabel := by
  simp only [Block.fields, Block.body_eq_filter, List.filterMap_filter, List.map_filterMap]
  rw [carries, List.filterMap_flatMap, List.filterMap_eq_flatMap_toList]
  apply List.flatMap_congr
  rintro ⟨line, row⟩ member
  have there := Document.mem_rows_iff.mp member
  have inserted : ((if w.above = some row then [(w.inserted, row)] else []).filterMap fun x =>
      if (w.block doc' b).bodyContains x.2 then Field.ofLine? x.1 x.2 else none) = [] := by
    split <;> simp [silent]
  rw [rowsOf, List.filterMap_append, inserted, List.nil_append]
  dsimp only
  by_cases inside : b.bodyContains row = true
  · rw [if_pos inside, ← same row line there inside]
    cases declared : Field.ofLine? (w.line row line) (w.shift row) <;>
      simp [bodyContains_shift, inside, declared]
  · rw [if_neg inside]
    simp [bodyContains_shift, inside]

end Carried

end Rewriting

end SchemaServer
