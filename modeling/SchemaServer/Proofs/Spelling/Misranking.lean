import SchemaServer.Proofs.Text.Cut
import SchemaServer.Proofs.Spelling.Bounds
import SchemaServer.Proofs.Spelling.Merit

/-! Where a name exposes itself, candidates can be ranked wrongly: the bonus of the first place of a long candidate lies
where a shorter one, scored behind it, goes on with a run. -/
namespace SchemaServer.Spelling

variable {memory : Memory} {unknown rest c : Text} {k : Nat}

/-- No character of the text can stand for the last letter of the name. -/
def Ends (unknown rest : Text) : Prop :=
  ∀ p z, unknown.getLast? = some p → z ∈ rest → same (unknown.any Char.isUpper) z p = false

theorem exists_ends (unknown : Text) : ∃ z, ∀ n, Ends unknown (List.replicate n z) := by
  have two : ∀ (caseSensitive : Bool) (p : Char), ∃ z, same caseSensitive z p = false := by
    intro caseSensitive p
    by_cases zero : same caseSensitive '0' p = true
    · refine ⟨'1', Bool.eq_false_iff.mpr fun one => ?_⟩
      rw [same_comm] at zero one
      have equal := same_trans zero one
      cases caseSensitive <;> revert equal <;> decide
    · exact ⟨'0', Bool.eq_false_iff.mpr zero⟩
  cases last : unknown.getLast? with
  | none => exact ⟨'0', fun _ _ _ found => absurd (last.symm.trans found) nofun⟩
  | some p =>
    obtain ⟨z, other⟩ := two (unknown.any Char.isUpper) p
    refine ⟨z, fun n q x found member => ?_⟩
    obtain rfl := Option.some.inj (last.symm.trans found)
    rw [List.eq_of_mem_replicate member]
    exact other

theorem merit_append (nonempty : unknown ≠ []) (ends : Ends unknown rest) : merit unknown (unknown ++ rest) =
    some ((Match.ofChoice (unknown.any Char.isUpper) unknown).potential unknown.length) := by
  have starts := starts_append (unknown.any Char.isUpper) nonempty rest
  have missed : ∀ p j, unknown.getLast? = some p → unknown.length ≤ j → j < (unknown ++ rest).length →
      (Match.ofChoice (unknown.any Char.isUpper) (unknown ++ rest)).fits p j = false := by
    intro p j last behind hj
    refine Bool.eq_false_iff.mpr fun fit => ?_
    obtain ⟨z, there, fits⟩ := fits_ofChoice_iff.mp ⟨fit, hj⟩
    rw [List.getElem?_append_right behind] at there
    rw [ends p z last (List.mem_of_getElem? there)] at fits
    contradiction
  rw [merit, score_append nonempty, ← potential_append _ rest (Nat.le_refl unknown.length)]
  exact congrArg some (best_filled starts nonempty missed)

theorem bonus_score (nonempty : unknown ≠ []) (memory : Memory) (rest : Text) :
    16 ≤ ((score memory (unknown ++ rest) unknown).2.cell (unknown.length + rest.length + 1)).bonus := by
  have starts := starts_append (unknown.any Char.isUpper) nonempty rest
  have left := bonus_filled starts nonempty memory
  rw [Match.cellAt, Bool.toNat_true, Nat.one_mul, Nat.add_zero, Match.columns, Match.ofChoice, List.size_toArray,
    List.length_append] at left
  rw [score_append nonempty]
  exact left

theorem score_of_left (later : 0 < k) (even : k % 2 = 0) (inside : k < unknown.length)
    (repeats : ∀ l, l < k → l % 2 = 0 → FitsAt unknown unknown l (k - 1))
    (left : 16 ≤ (memory.cell (unknown.length + rest.length + 1 + k)).bonus) :
    ∃ value, (score memory (unknown ++ rest) unknown).1 = some value ∧
      (Match.ofChoice (unknown.any Char.isUpper) unknown).potential unknown.length + 8 ≤ value := by
  have nonempty : unknown ≠ [] := List.length_pos_iff.mp (by omega)
  have starts := starts_append (unknown.any Char.isUpper) nonempty rest
  have columns : (Match.ofChoice (unknown.any Char.isUpper) (unknown ++ rest)).columns =
      unknown.length + rest.length + 1 := by
    rw [Match.columns, Match.ofChoice, List.size_toArray, List.length_append]
  have led := led_filled_left starts later even inside
    (fun l p below evenL letter => by
      obtain ⟨q, c, hq, hc, fits⟩ := repeats l below evenL
      obtain rfl := Option.some.inj (letter.symm.trans hq)
      rw [Match.fits, starts.letter hc]
      exact fits) (columns.symm ▸ left)
  rw [score_append nonempty, ← potential_append _ rest (Nat.le_refl unknown.length)]
  exact ⟨_, rfl, led.le_best starts nonempty⟩

/-! ## Longer names -/

section Longer

variable (unknown : Text) (z : Char) (n : Nat)

/-- A name and some more characters. -/
def longer (unknown : Text) (z : Char) (n : Nat) : Text := unknown ++ List.replicate n z

theorem length_longer : (longer unknown z n).length = unknown.length + n := by
  rw [longer, List.length_append, List.length_replicate]

theorem byteLength_longer {n k : Nat} (upTo : n ≤ k) :
    Text.byteLength (longer unknown z n) ≤ Text.byteLength (longer unknown z k) := by
  obtain ⟨more, rfl⟩ := Nat.exists_eq_add_of_le upTo
  rw [longer, longer, List.replicate_add, ← List.append_assoc, Text.byteLength_append (unknown ++ _)]
  exact Nat.le_add_right _ _

theorem longer_inj {n k : Nat} : longer unknown z n = longer unknown z k ↔ n = k := by
  refine ⟨fun same => ?_, fun same => by rw [same]⟩
  have lengths := congrArg List.length same
  rw [length_longer, length_longer] at lengths
  omega

theorem longer_ne (more : n ≠ 0) : longer unknown z n ≠ unknown := fun same => by
  have lengths := congrArg List.length same
  rw [length_longer] at lengths
  omega

end Longer

/-! ## Rankings -/

/-- The first place of the second candidate lies where the third goes on with a run at place `k`. -/
def misranked (unknown : Text) (z : Char) (k : Nat) : List Text :=
  [longer unknown z 1, longer unknown z (k + 2), longer unknown z 2]

section Misranked

variable {z : Char} (nonempty : unknown ≠ []) (ends : ∀ n, Ends unknown (List.replicate n z))

theorem filter_misranked (unknown : Text) (z : Char) (k : Nat) :
    (misranked unknown z k).filter (· ≠ unknown) = misranked unknown z k := by
  simp [misranked, longer_ne]

include nonempty ends

theorem merit_longer (n : Nat) : merit unknown (longer unknown z n) =
    some ((Match.ofChoice (unknown.any Char.isUpper) unknown).potential unknown.length) :=
  merit_append nonempty (ends n)

theorem byMerit_misranked (k : Nat) :
    [longer unknown z 1, longer unknown z 2].Sublist (byMerit unknown (misranked unknown z k)) := by
  have alone := merit_longer nonempty ends
  generalize (Match.ofChoice (unknown.any Char.isUpper) unknown).potential unknown.length = s at alone
  have ranks : ranksBefore (s, longer unknown z 1) (s, longer unknown z 2) = true :=
    ranksBefore_iff.mpr (.inr ⟨rfl, byteLength_longer unknown z (by decide)⟩)
  have within : [(s, longer unknown z 1), (s, longer unknown z 2)].Sublist
      [(s, longer unknown z 1), (s, longer unknown z (k + 2)), (s, longer unknown z 2)] := by simp
  have sorted := List.pair_sublist_mergeSort ranksBefore_trans ranksBefore_total ranks within
  rw [byMerit, filter_misranked, misranked]
  simp only [List.filterMap_cons, List.filterMap_nil, alone, Option.map_some]
  rw [List.take_of_length_le (by simp [suggestionLimit])]
  exact sorted.map Prod.snd

theorem scored_misranked (later : 0 < k) (even : k % 2 = 0) (inside : k < unknown.length)
    (repeats : ∀ l, l < k → l % 2 = 0 → FitsAt unknown unknown l (k - 1)) :
    ∃ (s t : Int) (middle : Option Int), s < t ∧ scored unknown #[] (misranked unknown z k) =
      (s, longer unknown z 1) :: (middle.map (·, longer unknown z (k + 2))).toList ++ [(t, longer unknown z 2)] := by
  have alone := merit_longer nonempty ends 1
  rcases first : score #[] (longer unknown z 1) unknown with ⟨v, a⟩
  rcases second : score a (longer unknown z (k + 2)) unknown with ⟨middle, b⟩
  rcases third : score b (longer unknown z 2) unknown with ⟨u, d⟩
  rw [merit, first] at alone
  obtain rfl : v = _ := alone
  have left := bonus_score nonempty a (List.replicate (k + 2) z)
  rw [← longer, second, List.length_replicate, show unknown.length + (k + 2) + 1 = unknown.length + 2 + 1 + k by omega,
    ← List.length_replicate (n := 2) (a := z)] at left
  obtain ⟨t, raised, more⟩ := score_of_left later even inside repeats left
  rw [← longer, third] at raised
  obtain rfl : u = some t := raised
  exact ⟨(Match.ofChoice (unknown.any Char.isUpper) unknown).potential unknown.length, t, middle, by omega,
    by simp [misranked, scored, first, second, third]⟩

end Misranked

theorem suggestions_ne_byMerit (exposed : Exposed unknown unknown) :
    ∃ candidates, (∀ c ∈ candidates, c.length ≤ 2 * unknown.length + 1) ∧
      suggestions unknown candidates ≠ byMerit unknown candidates := by
  obtain ⟨i, odd, -, ⟨q, -, hq, -, -⟩, repeats⟩ := exposed.own
  have inside : i + 1 < unknown.length := (List.getElem?_eq_some_iff.mp hq).1
  have nonempty : unknown ≠ [] := List.length_pos_iff.mp (by omega)
  obtain ⟨z, ends⟩ := exists_ends unknown
  refine ⟨misranked unknown z (i + 1), fun c member => ?_, fun same => ?_⟩
  · simp only [misranked, List.mem_cons, List.not_mem_nil, or_false] at member
    rcases member with rfl | rfl | rfl <;> rw [length_longer] <;> omega
  · obtain ⟨s, t, middle, raised, scores⟩ := scored_misranked nonempty ends (Nat.succ_pos i) (by omega) inside
      fun l below even => repeats l (by omega) even
    have order := byMerit_misranked nonempty ends (i + 1)
    rw [← same, suggestions, filter_misranked, scores] at order
    obtain ⟨x, y, hx, hy, before⟩ := ranksBefore_of_best order
    have hs : x = s := by simpa [longer_inj] using hx
    have ht : y = t := by simpa [longer_inj] using hy
    rw [ranksBefore_iff, hs, ht] at before
    omega

/-! ## Plain candidates -/

/-- Candidates that are not too long and not exposed. -/
def Plain (unknown : Text) (candidates : List Text) : Prop :=
  ∀ c ∈ candidates, c.length ≤ lengthLimit ∧ ¬ Exposed unknown c

/-- Suggestions rank plain candidates by their own merit, so that two of them that differ in score or length never
change places. Whether the candidates are plain is a matter of the name, up to their lengths: a name that exposes itself
always misranks some of them. -/
theorem suggestions_byMerit (unknown : Text) :
    (∀ candidates, Plain unknown candidates → suggestions unknown candidates = byMerit unknown candidates) ∧
      (∀ candidates others c d, Plain unknown candidates → Plain unknown others →
        [c, d].Sublist (suggestions unknown candidates) → [d, c].Sublist (suggestions unknown others) →
        merit unknown c = merit unknown d ∧ Text.byteLength c = Text.byteLength d) ∧
      (¬ Exposed unknown unknown → ∀ candidates, (∀ c ∈ candidates, c.length ≤ lengthLimit) →
        Plain unknown candidates) ∧
      (Exposed unknown unknown → ∃ candidates, (∀ c ∈ candidates, c.length ≤ 2 * unknown.length + 1) ∧
        suggestions unknown candidates ≠ byMerit unknown candidates) := by
  refine ⟨fun candidates plain => suggestions_eq_byMerit plain, fun candidates others c d plain plain' first second => ?_,
    fun steady candidates short c member => ⟨short c member, fun exposed => steady exposed.self⟩,
    suggestions_ne_byMerit⟩
  rw [suggestions_eq_byMerit plain] at first
  rw [suggestions_eq_byMerit plain'] at second
  exact byMerit_order first second

/-- The long candidate leaves its bonus where `aabzz` goes on with the run `aab`. -/
theorem suggestions_leftover :
    let aabz := "aabz".toList
    let aabzz := "aabzz".toList
    let long := "aabzzzz".toList
    suggestions "aab".toList [aabz, long, aabzz] = [aabzz, aabz, long] ∧
      byMerit "aab".toList [aabz, long, aabzz] = [aabz, aabzz, long] ∧
      suggestions "aab".toList [aabz, aabzz] = [aabz, aabzz] := by
  intro aabz aabzz long
  have together : scored "aab".toList #[] ([aabz, long, aabzz].filter (· ≠ "aab".toList)) =
      [(71, aabz), (71, long), (83, aabzz)] := by decide +kernel
  have alone : ([aabz, long, aabzz].filter (· ≠ "aab".toList)).filterMap
      (fun c => (merit "aab".toList c).map (·, c)) = [(71, aabz), (71, long), (71, aabzz)] := by decide +kernel
  have without : scored "aab".toList #[] ([aabz, aabzz].filter (· ≠ "aab".toList)) =
      [(71, aabz), (71, aabzz)] := by decide +kernel
  refine ⟨?_, ?_, ?_⟩
  · rw [suggestions, together, mergeSort_eq [(83, aabzz), (71, aabz), (71, long)] (by decide) (by decide) (by decide)]
    rfl
  · rw [byMerit, alone, mergeSort_eq [(71, aabz), (71, aabzz), (71, long)] (by decide) (by decide) (by decide)]
    rfl
  · rw [suggestions, without, mergeSort_eq [(71, aabz), (71, aabzz)] (by decide) (by decide) (by decide)]
    rfl

end SchemaServer.Spelling
