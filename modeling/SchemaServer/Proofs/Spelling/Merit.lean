import SchemaServer.Proofs.Spelling.Agreement

/-! Suggestions by the merit of each candidate: its score in a memory of its own. One memory serves all candidates, so
the scores are these only where nothing that an earlier candidate left behind can be read. -/
namespace SchemaServer.Spelling

variable {a b memory : Memory} {choice pattern unknown c d : Text} {candidates others : List Text} {indices : List Nat}
variable {i j : Nat} {p : Char}

/-! ## Exposed candidates -/

/-- The letter of the pattern at `i` can stand for the character of the candidate at `j`. -/
def FitsAt (pattern choice : Text) (i j : Nat) : Prop :=
  ∃ p c, pattern[i]? = some p ∧ choice[j]? = some c ∧ same (pattern.any Char.isUpper) c p = true

/-- Counted from one: some even letter of the pattern and all odd letters before it can stand for one character of the
candidate, and the letter that follows can stand for the next character. -/
def Exposed (pattern choice : Text) : Prop :=
  ∃ i j, i % 2 = 1 ∧ FitsAt pattern choice i j ∧ FitsAt pattern choice (i + 1) (j + 1) ∧
    ∀ l, l < i → l % 2 = 0 → FitsAt pattern choice l j

instance (pattern choice : Text) (i j : Nat) : Decidable (FitsAt pattern choice i j) :=
  decidable_of_iff ((pattern[i]?.any fun p => choice[j]?.any fun c => same (pattern.any Char.isUpper) c p) = true)
    (by simp [FitsAt, Option.any_eq_true])

instance (pattern choice : Text) : Decidable (Exposed pattern choice) :=
  decidable_of_iff (∃ i, i < pattern.length ∧ ∃ j, j < choice.length ∧ i % 2 = 1 ∧ FitsAt pattern choice i j ∧
    FitsAt pattern choice (i + 1) (j + 1) ∧ ∀ l, l < i → l % 2 = 0 → FitsAt pattern choice l j) (by
      constructor
      · rintro ⟨i, -, j, -, exposed⟩
        exact ⟨i, j, exposed⟩
      · rintro ⟨i, j, odd, fits, next⟩
        have ⟨p, c, hp, hc, _⟩ := fits
        exact ⟨i, (List.getElem?_eq_some_iff.mp hp).1, j, (List.getElem?_eq_some_iff.mp hc).1, odd, fits, next⟩)

/-- The letters that expose a candidate expose the pattern itself, where they stand. -/
theorem Exposed.own (exposed : Exposed pattern choice) :
    ∃ i, i % 2 = 1 ∧ FitsAt pattern pattern i i ∧ FitsAt pattern pattern (i + 1) (i + 1) ∧
      ∀ l, l < i → l % 2 = 0 → FitsAt pattern pattern l i := by
  obtain ⟨i, j, odd, ⟨p, c, hp, hc, fit⟩, ⟨q, -, hq, -⟩, before⟩ := exposed
  refine ⟨i, odd, ⟨p, p, hp, hp, same_refl _ p⟩, ⟨q, q, hq, hq, same_refl _ q⟩, fun l below even => ?_⟩
  obtain ⟨r, d, hr, hd, fits⟩ := before l below even
  obtain rfl := Option.some.inj (hc.symm.trans hd)
  exact ⟨r, p, hr, hp, same_trans fit fits⟩

theorem Exposed.self (exposed : Exposed pattern choice) : Exposed pattern pattern := by
  obtain ⟨i, there⟩ := exposed.own
  exact ⟨i, i, there⟩

example : ¬ Exposed "Strng".toList "Strng".toList := by decide +kernel

example : Exposed "aab".toList "aab".toList := by decide +kernel

theorem fitsAt_iff (hp : pattern[i]? = some p) : FitsAt pattern choice i j ↔
    (Match.ofChoice (pattern.any Char.isUpper) choice).fits p j = true ∧ j < choice.length := by
  rw [fits_ofChoice_iff]
  constructor
  · rintro ⟨q, c, hq, there⟩
    obtain rfl := Option.some.inj (hp.symm.trans hq)
    exact ⟨c, there⟩
  · rintro ⟨c, there⟩
    exact ⟨p, c, hp, there⟩

theorem steady_of_unexposed (unexposed : ¬ Exposed pattern choice) :
    (Match.ofChoice (pattern.any Char.isUpper) choice).Steady (pattern.zip indices) := by
  intro i j q p odd hq hp inside fitQ fitP
  have size : (Match.ofChoice (pattern.any Char.isUpper) choice).choice.size = choice.length := rfl
  have letter : ∀ {l : Nat} {x : Char × Nat}, (pattern.zip indices)[l]? = some x → pattern[l]? = some x.1 :=
    fun there => (List.getElem?_zip_eq_some.mp there).1
  rw [size] at inside
  by_contra kept
  refine unexposed ⟨i, j, odd, (fitsAt_iff (letter hq)).mpr ⟨fitQ, by omega⟩,
    (fitsAt_iff (letter hp)).mpr ⟨fitP, inside⟩, fun l below even => ?_⟩
  have position : l < (pattern.zip indices).length := by
    have := (List.getElem?_eq_some_iff.mp hq).1
    omega
  have there := List.getElem?_eq_getElem position
  refine (fitsAt_iff (letter there)).mpr ⟨?_, by omega⟩
  by_contra cleared
  exact kept ⟨l, _, below, even, there, Bool.eq_false_iff.mpr cleared⟩

/-! ## Scores -/

/-- What the memory holds from before does not change the score of a candidate that is not exposed. -/
theorem score_congr (ta : Tame a) (tb : Tame b) (short : choice.length ≤ lengthLimit)
    (unexposed : ¬ Exposed pattern choice) : (score a choice pattern).1 = (score b choice pattern).1 := by
  by_cases empty : pattern = []
  · subst empty
    rfl
  cases found : firstIndices (pattern.any Char.isUpper) 0 choice pattern with
  | none => rw [score_of_none empty found, score_of_none empty found]
  | some indices =>
    have places : (pattern.zip indices).map Prod.snd = indices :=
      List.map_snd_zip (Nat.le_of_eq (length_firstIndices found))
    have seated := seated_firstIndices found
    have level := Level.filled ta tb (moderate_ofChoice _ choice) short seated (steady_of_unexposed unexposed)
    have nonempty : indices ≠ [] := by
      rintro rfl
      exact empty (List.length_eq_zero_iff.mp (length_firstIndices found).symm)
    rw [score_of_some empty found, score_of_some empty found]
    refine congrArg some (best_congr fun k after inside => level.agree.matched inside ⟨?_, fun _ missing => ?_⟩)
    · have final : indices.getLast nonempty ∈ (pattern.zip indices).map Prod.snd := by
        rw [places]
        exact List.getLast_mem nonempty
      obtain ⟨x, member, last⟩ := List.mem_map.mp final
      have start := seated.start_le member
      rw [List.getLastD_eq_getLast?, List.getLast?_eq_some_getLast nonempty, Option.getD_some, ← last] at after
      exact Nat.le_trans start after
    · rw [missing] at places
      exact absurd places.symm nonempty

/-! ## Suggestions -/

/-- The score of a candidate alone. -/
def merit (unknown c : Text) : Option Int := (score #[] c unknown).1

/-- What a list of candidates would suggest if each had a memory of its own. -/
def byMerit (unknown : Text) (candidates : List Text) : List Text :=
  let alone := (candidates.filter (· ≠ unknown)).filterMap fun c => (merit unknown c).map (·, c)
  ((alone.mergeSort ranksBefore).take suggestionLimit).map Prod.snd

theorem scored_eq (tame : Tame memory)
    (plain : ∀ c ∈ candidates, c.length ≤ lengthLimit ∧ ¬ Exposed unknown c) :
    scored unknown memory candidates = candidates.filterMap fun c => (merit unknown c).map (·, c) := by
  induction candidates generalizing memory with
  | nil => rfl
  | cons c rest ih =>
    obtain ⟨short, unexposed⟩ := plain c List.mem_cons_self
    have alone : (score memory c unknown).1 = merit unknown c := score_congr tame tame_empty short unexposed
    have later := ih (tame.score c unknown) fun d member => plain d (List.mem_cons_of_mem _ member)
    rcases result : score memory c unknown with ⟨value, after⟩
    rw [result] at alone later
    rw [scored, result, List.filterMap_cons, ← later, ← alone]
    cases value <;> rfl

theorem suggestions_eq_byMerit (plain : ∀ c ∈ candidates, c.length ≤ lengthLimit ∧ ¬ Exposed unknown c) :
    suggestions unknown candidates = byMerit unknown candidates := by
  have alone : scored unknown #[] (candidates.filter (· ≠ unknown)) = _ :=
    scored_eq tame_empty fun c member => plain c (List.mem_of_mem_filter member)
  rw [suggestions, alone]
  rfl

theorem ranksBefore_iff {x y : Int × Text} : ranksBefore x y = true ↔
    y.1 < x.1 ∨ x.1 = y.1 ∧ Text.byteLength x.2 ≤ Text.byteLength y.2 := by
  simp [ranksBefore]

theorem ranksBefore_trans (x y z : Int × Text) (first : ranksBefore x y = true) (second : ranksBefore y z = true) :
    ranksBefore x z = true := by
  rw [ranksBefore_iff] at *
  omega

theorem ranksBefore_total (x y : Int × Text) : (ranksBefore x y || ranksBefore y x) = true := by
  rw [Bool.or_eq_true, ranksBefore_iff, ranksBefore_iff]
  omega

theorem mergeSort_eq {scores : List (Int × Text)} (ranked : List (Int × Text)) (same : scores.Perm ranked)
    (sorted : ranked.Pairwise fun x y => ranksBefore x y = true)
    (distinct : ∀ x ∈ ranked, ∀ y ∈ ranked, ranksBefore x y = true → ranksBefore y x = true → x = y) :
    scores.mergeSort ranksBefore = ranked := by
  have whole := (List.mergeSort_perm scores ranksBefore).trans same
  exact whole.eq_of_pairwise (fun x y hx hy => distinct x (whole.subset hx) y hy)
    (List.pairwise_mergeSort ranksBefore_trans ranksBefore_total scores) sorted

theorem ranksBefore_of_best {scores : List (Int × Text)}
    (order : [c, d].Sublist (((scores.mergeSort ranksBefore).take suggestionLimit).map Prod.snd)) :
    ∃ x y, (x, c) ∈ scores ∧ (y, d) ∈ scores ∧ ranksBefore (x, c) (y, d) = true := by
  obtain ⟨pair, within, names⟩ := List.sublist_map_iff.mp order
  obtain ⟨⟨x, c'⟩, rest, rfl, rfl, last⟩ := List.map_eq_cons_iff.mp names.symm
  obtain ⟨⟨y, d'⟩, empty, rfl, rfl, ends⟩ := List.map_eq_cons_iff.mp last
  obtain rfl := List.map_eq_nil_iff.mp ends
  have ranked := within.trans (List.take_sublist _ _)
  have sorted := (List.pairwise_mergeSort ranksBefore_trans ranksBefore_total scores).sublist ranked
  have member : ∀ z ∈ [(x, c'), (y, d')], z ∈ scores := fun z there => List.mem_mergeSort.mp (ranked.subset there)
  exact ⟨x, y, member _ (by simp), member _ (by simp), List.rel_of_pairwise_cons sorted (by simp)⟩

theorem merit_of_mem {x : Int}
    (member : (x, c) ∈ candidates.filterMap fun c => (merit unknown c).map (·, c)) : merit unknown c = some x := by
  obtain ⟨e, -, found⟩ := List.mem_filterMap.mp member
  obtain ⟨value, there, same⟩ := Option.map_eq_some_iff.mp found
  obtain ⟨rfl, rfl⟩ := Prod.mk.inj same
  exact there

/-- Two candidates that differ in score or length never change places. -/
theorem byMerit_order (first : [c, d].Sublist (byMerit unknown candidates))
    (second : [d, c].Sublist (byMerit unknown others)) :
    merit unknown c = merit unknown d ∧ Text.byteLength c = Text.byteLength d := by
  obtain ⟨x, y, hx, hy, before⟩ := ranksBefore_of_best first
  obtain ⟨y', x', hy', hx', after⟩ := ranksBefore_of_best second
  have hc := merit_of_mem hx
  have hd := merit_of_mem hy
  obtain rfl := Option.some.inj (hc.symm.trans (merit_of_mem hx'))
  obtain rfl := Option.some.inj (hd.symm.trans (merit_of_mem hy'))
  rw [ranksBefore_iff] at before after
  dsimp only at before after
  rw [hc, hd]
  exact ⟨congrArg some (by omega), by omega⟩

end SchemaServer.Spelling
