import Mathlib.Data.List.Forall2
import Mathlib.Data.List.Perm.Subperm
import SchemaServer.Spelling

/-! Which candidates can correct a name: those that have its characters in their order. Whatever the scores are, three
of them are suggested, or all if there are fewer. -/
namespace SchemaServer.Spelling

variable {caseSensitive : Bool} {choice pattern unknown : Text} {candidates : List Text} {memory : Memory} {index : Nat}

/-- The candidate has the characters of the pattern in their order. Capitals and small letters are told apart only if
the pattern has a capital. -/
def Matches (pattern choice : Text) : Prop :=
  List.SublistForall₂ (fun p c => same (pattern.any Char.isUpper) c p = true) pattern choice

/-- The candidates that can stand for an unknown name. -/
abbrev Candidate (unknown c : Text) : Prop := c ≠ unknown ∧ Matches unknown c

section Subsequences

variable {α β : Type} {R : α → β → Prop} {a : α} {b : β} {as : List α} {bs : List β}

theorem SublistForall₂.of_cons (whole : List.SublistForall₂ R (a :: as) bs) : List.SublistForall₂ R as bs := by
  induction bs with
  | nil => cases whole
  | cons b bs ih =>
    cases whole with
    | cons _ rest => exact rest.cons_right
    | cons_right later => exact (ih later).cons_right

/-- Taking the first character that fits misses nothing. -/
theorem SublistForall₂.cons_iff (fits : R a b) :
    List.SublistForall₂ R (a :: as) (b :: bs) ↔ List.SublistForall₂ R as bs := by
  refine ⟨fun whole => ?_, .cons fits⟩
  cases whole with
  | cons _ rest => exact rest
  | cons_right later => exact SublistForall₂.of_cons later

theorem SublistForall₂.cons_right_iff (differs : ¬ R a b) :
    List.SublistForall₂ R (a :: as) (b :: bs) ↔ List.SublistForall₂ R (a :: as) bs := by
  refine ⟨fun whole => ?_, .cons_right⟩
  cases whole with
  | cons fits _ => exact absurd fits differs
  | cons_right later => exact later

end Subsequences

theorem firstIndices_isSome_iff : (firstIndices caseSensitive index choice pattern).isSome = true ↔
    List.SublistForall₂ (fun p c => same caseSensitive c p = true) pattern choice := by
  induction choice generalizing index pattern with
  | nil =>
    cases pattern with
    | nil => exact iff_of_true rfl .nil
    | cons p pattern => exact iff_of_false (by simp [firstIndices]) nofun
  | cons c choice ih =>
    cases pattern with
    | nil => exact iff_of_true rfl .nil
    | cons p pattern =>
      by_cases fits : same caseSensitive c p = true
      · rw [firstIndices, if_pos fits, Option.isSome_map, ih]
        exact Iff.symm (SublistForall₂.cons_iff fits)
      · rw [firstIndices, if_neg fits, ih]
        exact Iff.symm (SublistForall₂.cons_right_iff fits)

theorem score_isSome_iff (memory : Memory) : (score memory choice pattern).1.isSome = true ↔ Matches pattern choice := by
  have places : (firstIndices (pattern.any Char.isUpper) 0 choice pattern).isSome = true ↔ Matches pattern choice :=
    firstIndices_isSome_iff
  unfold score
  by_cases empty : pattern.isEmpty = true
  · rw [if_pos empty, List.isEmpty_iff.mp empty]
    exact iff_of_true rfl .nil
  · rw [if_neg empty]
    dsimp only
    rw [← places]
    cases firstIndices (pattern.any Char.isUpper) 0 choice pattern <;> simp

instance (pattern choice : Text) : Decidable (Matches pattern choice) := decidable_of_iff _ (score_isSome_iff #[])

/-- Every candidate that matches gets a score, whatever was scored before. -/
theorem map_scored (pattern : Text) (memory : Memory) (candidates : List Text) :
    (scored pattern memory candidates).map Prod.snd = candidates.filter (Matches pattern ·) := by
  induction candidates generalizing memory with
  | nil => rfl
  | cons c rest ih =>
    have found : (score memory c pattern).1.isSome = true ↔ Matches pattern c := score_isSome_iff memory
    rw [scored, List.map_append, ih]
    cases value : (score memory c pattern).1 with
    | none =>
      have differs : ¬ Matches pattern c := by simpa [value] using found
      simp [differs]
    | some n =>
      have fits : Matches pattern c := by simpa [value] using found
      simp [fits]

theorem ranked_perm (memory : Memory) (candidates : List Text) :
    (((scored unknown memory (candidates.filter (· ≠ unknown))).mergeSort ranksBefore).map Prod.snd).Perm
      (candidates.filter (Candidate unknown ·)) := by
  have kept : (candidates.filter (· ≠ unknown)).filter (Matches unknown ·) =
      candidates.filter (Candidate unknown ·) := by
    rw [List.filter_filter]
    exact List.filter_congr fun c _ => by simp [Bool.and_comm]
  rw [← kept, ← map_scored unknown memory]
  exact (List.mergeSort_perm _ _).map Prod.snd

/-- No candidate is suggested more often than it is given. -/
theorem suggestions_subperm (unknown : Text) (candidates : List Text) :
    (suggestions unknown candidates).Subperm (candidates.filter (Candidate unknown ·)) := by
  rw [suggestions, List.map_take]
  exact (List.take_sublist _ _).subperm.trans (ranked_perm #[] candidates).subperm

theorem length_suggestions (unknown : Text) (candidates : List Text) :
    (suggestions unknown candidates).length = min suggestionLimit (candidates.filter (Candidate unknown ·)).length := by
  rw [suggestions, List.map_take, List.length_take, (ranked_perm #[] candidates).length_eq]

end SchemaServer.Spelling
