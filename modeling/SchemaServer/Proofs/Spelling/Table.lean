import Mathlib.Data.List.Range
import SchemaServer.Spelling

/-! The table of scores, cell by cell. Its two rows lie one behind the other in the memory. A pass fills one of them for
a letter of the pattern, from the first place at which the letter can stand on, and reads the other. -/
namespace SchemaServer.Spelling

variable {memory : Memory} {m : Match} {p : Char} {lower s : Bool} {first i j k n : Nat} {c : Cell}

namespace Memory

theorem cell_setIfInBounds (memory : Memory) (i k : Nat) (c : Cell) :
    cell (memory.setIfInBounds i c) k = if k = i ∧ i < memory.size then c else memory.cell k := by
  unfold cell
  rw [Array.getD_eq_getD_getElem?, Array.getD_eq_getD_getElem?, Array.getElem?_setIfInBounds]
  by_cases same : i = k
  · subst same
    by_cases inside : i < memory.size <;> simp [inside]
  · rw [if_neg same, if_neg fun both => same both.1.symm]

theorem cell_resize (inside : k < n) : (memory.resize n).cell k = memory.cell k := by
  have filled : k < (memory ++ Array.replicate (n - memory.size) empty).size := by
    rw [Array.size_append, Array.size_replicate]
    omega
  unfold cell resize
  rw [Array.getD_eq_getD_getElem?, Array.getD_eq_getD_getElem?, Array.take_eq_extract, Array.getElem?_extract,
    if_pos (by omega), Nat.zero_add, Array.getElem?_append]
  split
  · rfl
  · rename_i outside
    rw [Array.getElem?_eq_none (Nat.le_of_not_lt outside), Array.getElem?_replicate]
    split <;> rfl

theorem size_resize (memory : Memory) (n : Nat) : (memory.resize n).size = n := by
  rw [resize, Array.take_eq_extract, Array.size_extract, Array.size_append, Array.size_replicate]
  omega

end Memory

/-! ## Loops over places -/

/-- What every step of two loops over the same places keeps holds at their ends. -/
theorem foldl_range'_induct {σ : Type} {f g : σ → Nat → σ} {P : Nat → σ → σ → Prop} {a b : σ} (first n : Nat)
    (start : P first a b)
    (step : ∀ j a b, first ≤ j → j < first + n → P j a b → P (j + 1) (f a j) (g b j)) :
    P (first + n) ((List.range' first n).foldl f a) ((List.range' first n).foldl g b) := by
  induction n generalizing first a b with
  | zero => exact start
  | succ n ih =>
    have next := ih (first + 1) (step first a b (Nat.le_refl _) (by omega) start)
      fun j a b after before => step j a b (by omega) (by omega)
    rw [List.range'_succ, List.foldl_cons, List.foldl_cons]
    exact (show first + 1 + n = first + (n + 1) by omega) ▸ next

namespace Match

def columns (m : Match) : Nat := m.choice.size + 1

/-- Cell `k` of the upper or the lower row. -/
def cellAt (m : Match) (memory : Memory) (lower : Bool) (k : Nat) : Cell := memory.cell (lower.toNat * m.columns + k)

/-- The letter can stand at place `j` of the candidate. -/
def fits (m : Match) (p : Char) (j : Nat) : Bool := same m.caseSensitive (m.choice.getD j (Char.ofNat 0)) p

def place (m : Match) (j : Nat) : Int := m.bonuses.getD j 0

def value (m : Match) (p : Char) (j : Nat) : Int :=
  if !m.caseSensitive && p ≠ m.choice.getD j (Char.ofNat 0) then 14 else 16

/-- The bonus for going on with a run at place `j`; it takes part of what the memory holds. -/
def runBonus (m : Match) (memory : Memory) (lower : Bool) (j : Nat) : Int :=
  max (m.cellAt memory lower j).bonus (max (m.place j) 4)

/-- The score of a match at place `j`: it goes on with a run, or comes behind a gap. -/
def matchedAt (m : Match) (p : Char) (lower : Bool) (memory : Memory) (j : Nat) : Int :=
  max ((m.cellAt memory (!lower) j).matched + m.runBonus memory lower j)
    ((m.cellAt memory (!lower) j).gap + m.place j) + m.value p j

def step (m : Match) (p : Char) (lower : Bool) (memory : Memory) (j : Nat) : Memory :=
  m.fill p (lower.toNat * m.columns) ((!lower).toNat * m.columns) memory j

def pass (m : Match) (p : Char) (lower : Bool) (first : Nat) (memory : Memory) : Memory :=
  (List.range' first (m.choice.size - first)).foldl (m.step p lower) memory

theorem value_bounds (m : Match) (p : Char) (j : Nat) : 14 ≤ m.value p j ∧ m.value p j ≤ 16 := by
  unfold value
  split <;> omega

/-- Passes take turns with the rows, beginning with the lower one. -/
theorem fillRows_cons (m : Match) (i : Nat) (rest : List (Char × Nat)) :
    m.fillRows m.columns i ((p, first) :: rest) memory =
      m.fillRows m.columns (i + 1) rest (m.pass p (i % 2 = 0) first memory) := by
  rw [fillRows]
  rcases Nat.mod_two_eq_zero_or_one i with even | odd
  · have next : (i + 1) % 2 = 1 := by omega
    rw [next, even]
    rfl
  · have next : (i + 1) % 2 = 0 := by omega
    rw [next, odd]
    rfl

theorem fillRows_induct {P : Nat → Memory → Prop} (letters : List (Char × Nat)) (start : P i memory)
    (step : ∀ l p first memory, letters[l]? = some (p, first) → P (i + l) memory →
      P (i + l + 1) (m.pass p ((i + l) % 2 = 0) first memory)) :
    P (i + letters.length) (m.fillRows m.columns i letters memory) := by
  induction letters generalizing i memory with
  | nil => exact start
  | cons x rest ih =>
    obtain ⟨p, first⟩ := x
    have next : P (i + 1) (m.pass p (i % 2 = 0) first memory) := step 0 p first memory rfl start
    rw [fillRows_cons, List.length_cons, show i + (rest.length + 1) = i + 1 + rest.length by omega]
    refine ih next fun l q second memory there held => ?_
    rw [show i + 1 + l = i + (l + 1) by omega] at held ⊢
    exact step (l + 1) q second memory there held

/-! ## One step -/

/-- The gap score behind place `j`. -/
def gapAt (m : Match) (lower : Bool) (memory : Memory) (j : Nat) : Int :=
  max ((m.cellAt memory lower j).matched - 4) ((m.cellAt memory lower j).gap - 1)

theorem step_of_fits (fit : m.fits p j = true) : m.step p lower memory j =
    (memory.setIfInBounds (lower.toNat * m.columns + j)
        { m.cellAt memory lower j with bonus := m.runBonus memory lower j }).setIfInBounds
      (lower.toNat * m.columns + (j + 1))
      { m.cellAt memory lower (j + 1) with
        matched := m.matchedAt p lower memory j
        gap := m.gapAt lower memory j } := if_pos fit

theorem step_of_missed (missed : m.fits p j = false) : m.step p lower memory j =
    memory.setIfInBounds (lower.toNat * m.columns + (j + 1)) ⟨noMatch, m.gapAt lower memory j, 0⟩ :=
  if_neg (Bool.eq_false_iff.mp missed)

@[simp] theorem size_step : (m.step p lower memory j).size = memory.size := by
  cases fit : m.fits p j with
  | true => rw [step_of_fits fit, Array.size_setIfInBounds, Array.size_setIfInBounds]
  | false => rw [step_of_missed fit, Array.size_setIfInBounds]

/-- Cells of the table are told apart by their row and their column. -/
theorem place_inj (hk : k ≤ m.choice.size) (hj : j ≤ m.choice.size) :
    s.toNat * m.columns + k = lower.toNat * m.columns + j ↔ s = lower ∧ k = j := by
  unfold columns
  cases s <;> cases lower <;> simp <;> omega

theorem inside_table (size : memory.size = 2 * m.columns) (hj : j ≤ m.choice.size) :
    lower.toNat * m.columns + j < memory.size := by
  rw [size]
  unfold columns
  cases lower <;> simp <;> omega

section Step

variable (size : memory.size = 2 * m.columns) (hj : j < m.choice.size) (hk : k ≤ m.choice.size)

include size hj hk

theorem cellAt_step : m.cellAt (m.step p lower memory j) s k =
    if s = lower ∧ k = j + 1 then
      if m.fits p j then
        { m.cellAt memory s k with matched := m.matchedAt p lower memory j, gap := m.gapAt lower memory j }
      else ⟨noMatch, m.gapAt lower memory j, 0⟩
    else if s = lower ∧ k = j ∧ m.fits p j then { m.cellAt memory s k with bonus := m.runBonus memory lower j }
    else m.cellAt memory s k := by
  have next : lower.toNat * m.columns + (j + 1) < memory.size := inside_table size hj
  have here : lower.toNat * m.columns + j < memory.size := inside_table size (Nat.le_of_lt hj)
  have atNext : s.toNat * m.columns + k = lower.toNat * m.columns + (j + 1) ↔ s = lower ∧ k = j + 1 :=
    place_inj hk hj
  have atHere : s.toNat * m.columns + k = lower.toNat * m.columns + j ↔ s = lower ∧ k = j :=
    place_inj hk (Nat.le_of_lt hj)
  cases fit : m.fits p j with
  | true =>
    rw [step_of_fits fit, cellAt, Memory.cell_setIfInBounds, Memory.cell_setIfInBounds, Array.size_setIfInBounds]
    by_cases isNext : s = lower ∧ k = j + 1
    · obtain ⟨rfl, rfl⟩ := isNext
      simp [next]
    · rw [if_neg fun both => isNext (atNext.mp both.1), if_neg isNext]
      by_cases isHere : s = lower ∧ k = j
      · obtain ⟨rfl, rfl⟩ := isHere
        simp [here]
      · rw [if_neg fun both => isHere (atHere.mp both.1), if_neg fun both => isHere ⟨both.1, both.2.1⟩]
        rfl
  | false =>
    rw [step_of_missed fit, cellAt, Memory.cell_setIfInBounds]
    by_cases isNext : s = lower ∧ k = j + 1
    · rw [if_pos ⟨atNext.mpr isNext, next⟩, if_pos isNext]
      rfl
    · rw [if_neg fun both => isNext (atNext.mp both.1), if_neg isNext, if_neg (by simp)]
      rfl

theorem matched_step : (m.cellAt (m.step p lower memory j) s k).matched =
    if s = lower ∧ k = j + 1 then if m.fits p j then m.matchedAt p lower memory j else noMatch
    else (m.cellAt memory s k).matched := by
  rw [cellAt_step size hj hk]
  split_ifs <;> rfl

theorem gap_step : (m.cellAt (m.step p lower memory j) s k).gap =
    if s = lower ∧ k = j + 1 then m.gapAt lower memory j else (m.cellAt memory s k).gap := by
  rw [cellAt_step size hj hk]
  split_ifs <;> rfl

theorem bonus_step : (m.cellAt (m.step p lower memory j) s k).bonus =
    if s = lower ∧ k = j + 1 then if m.fits p j then (m.cellAt memory s k).bonus else 0
    else if s = lower ∧ k = j ∧ m.fits p j then m.runBonus memory lower j
    else (m.cellAt memory s k).bonus := by
  rw [cellAt_step size hj hk]
  split_ifs <;> rfl

end Step

/-- A step leaves the row that it reads as it is. -/
theorem cellAt_step_other (size : memory.size = 2 * m.columns) (hj : j < m.choice.size) (hk : k ≤ m.choice.size) :
    m.cellAt (m.step p lower memory j) (!lower) k = m.cellAt memory (!lower) k := by
  have differ : ¬ (!lower) = lower := by cases lower <;> decide
  rw [cellAt_step size hj hk, if_neg fun both => differ both.1, if_neg fun both => differ both.1]

/-! ## One pass -/

theorem pass_induct {P : Nat → Memory → Prop} (inside : first ≤ m.choice.size)
    (size : memory.size = 2 * m.columns) (start : P first memory)
    (step : ∀ j memory, memory.size = 2 * m.columns → first ≤ j → j < m.choice.size → P j memory →
      P (j + 1) (m.step p lower memory j)) :
    (m.pass p lower first memory).size = 2 * m.columns ∧ P m.choice.size (m.pass p lower first memory) := by
  have ends : first + (m.choice.size - first) = m.choice.size := by omega
  have kept := foldl_range'_induct (P := fun j a _ => a.size = 2 * m.columns ∧ P j a) (f := m.step p lower)
    (g := m.step p lower) (b := memory) first (m.choice.size - first) ⟨size, start⟩
    fun j a _ after before held =>
      ⟨size_step.trans held.1, step j a held.1 after (by omega) held.2⟩
  rwa [ends] at kept

theorem size_pass (inside : first ≤ m.choice.size) (size : memory.size = 2 * m.columns) :
    (m.pass p lower first memory).size = 2 * m.columns :=
  (pass_induct (P := fun _ _ => True) inside size trivial fun _ _ _ _ _ _ => trivial).1

theorem matched_pass_missed (inside : first ≤ m.choice.size) (size : memory.size = 2 * m.columns) (after : first ≤ j)
    (hj : j < m.choice.size) (missed : m.fits p j = false) :
    (m.cellAt (m.pass p lower first memory) lower (j + 1)).matched = noMatch := by
  refine (pass_induct (P := fun i a => j < i → (m.cellAt a lower (j + 1)).matched = noMatch) inside size
    (by omega) fun i a held _ before above below => ?_).2 hj
  rw [matched_step held before hj]
  by_cases here : j = i
  · simp [here ▸ missed, here]
  · rw [if_neg (by omega)]
    exact above (by omega)

/-- The first match of a pass is scored by what was there before the pass. -/
theorem matched_pass_first (size : memory.size = 2 * m.columns) (hj : first < m.choice.size)
    (fit : m.fits p first = true) :
    (m.cellAt (m.pass p lower first memory) lower (first + 1)).matched = m.matchedAt p lower memory first := by
  refine (pass_induct (P := fun i a => (i = first → a = memory) ∧
      (first < i → (m.cellAt a lower (first + 1)).matched = m.matchedAt p lower memory first))
    (Nat.le_of_lt hj) size ⟨fun _ => rfl, by omega⟩ fun i a held after before above => ⟨by omega, fun _ => ?_⟩).2.2 hj
  rw [matched_step held before hj]
  by_cases here : i = first
  · rw [if_pos ⟨rfl, by omega⟩, here, if_pos fit, above.1 here]
  · rw [if_neg (by omega)]
    exact above.2 (by omega)

end Match

end SchemaServer.Spelling
