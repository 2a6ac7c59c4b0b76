import SchemaServer.Proofs.Spelling.Table

/-! A score from its parts: the bonuses of the places of a candidate, the first places of the letters of the pattern, the
memory as it is cleared, and the best cell of the last row. The bonuses in the lower row are not cleared. -/
namespace SchemaServer.Spelling

variable {memory : Memory} {m : Match} {p : Char} {lower s : Bool} {first i j k n : Nat}
variable {caseSensitive : Bool} {choice pattern : Text} {indices : List Nat} {letters : List (Char × Nat)}

/-! ## Characters -/

theorem same_refl (caseSensitive : Bool) (c : Char) : same caseSensitive c c = true := by
  unfold same
  split <;> simp

theorem same_comm (caseSensitive : Bool) (c p : Char) : same caseSensitive c p = same caseSensitive p c := by
  unfold same
  split <;> exact decide_eq_decide.mpr eq_comm

theorem same_trans {c p q : Char} (first : same caseSensitive c p = true) (second : same caseSensitive c q = true) :
    same caseSensitive p q = true := by
  unfold same at *
  cases caseSensitive <;> simp_all

/-! ## Places -/

theorem placeBonus_bounds (previous c : Char) : 0 ≤ placeBonus previous c ∧ placeBonus previous c ≤ 8 := by
  unfold placeBonus
  split <;> decide

theorem placeBonuses_cons (c : Char) (choice : Text) : placeBonuses (c :: choice) =
    placeBonus (Char.ofNat 0) c * 2 :: List.zipWith placeBonus (c :: choice) choice := rfl

theorem mem_zipWith_placeBonus {before after : Text} {x : Int} (member : x ∈ List.zipWith placeBonus before after) :
    0 ≤ x ∧ x ≤ 8 := by
  obtain ⟨i, inside, rfl⟩ := List.mem_iff_getElem.mp member
  rw [List.getElem_zipWith]
  exact placeBonus_bounds _ _

theorem mem_placeBonuses {x : Int} (member : x ∈ placeBonuses choice) : 0 ≤ x ∧ x ≤ 16 := by
  cases choice with
  | nil => contradiction
  | cons c choice =>
    rw [placeBonuses_cons] at member
    rcases List.mem_cons.mp member with rfl | later
    · have first := placeBonus_bounds (Char.ofNat 0) c
      omega
    · have plain := mem_zipWith_placeBonus later
      omega

/-- A candidate ready to be scored. -/
def Match.ofChoice (caseSensitive : Bool) (choice : Text) : Match :=
  ⟨choice.toArray, (placeBonuses choice).toArray, caseSensitive⟩

def Match.Moderate (m : Match) : Prop := ∀ j, 0 ≤ m.place j ∧ m.place j ≤ 16

theorem place_ofChoice (caseSensitive : Bool) (choice : Text) (j : Nat) :
    (Match.ofChoice caseSensitive choice).place j = (placeBonuses choice)[j]?.getD 0 := by
  rw [Match.place, Match.ofChoice, Array.getD_eq_getD_getElem?, List.getElem?_toArray]

theorem moderate_ofChoice (caseSensitive : Bool) (choice : Text) : (Match.ofChoice caseSensitive choice).Moderate := by
  intro j
  rw [place_ofChoice]
  cases found : (placeBonuses choice)[j]? with
  | none => decide
  | some x => exact mem_placeBonuses (List.mem_of_getElem? found)

theorem fits_ofChoice_iff : (Match.ofChoice caseSensitive choice).fits p j = true ∧ j < choice.length ↔
    ∃ c, choice[j]? = some c ∧ same caseSensitive c p = true := by
  unfold Match.fits Match.ofChoice
  rw [Array.getD_eq_getD_getElem?, List.getElem?_toArray]
  by_cases inside : j < choice.length
  · simp [inside]
  · simp [inside]

/-! ## Letters -/

/-- Letters of a pattern with places at which they can stand, one behind the other. -/
structure Match.Seated (m : Match) (letters : List (Char × Nat)) : Prop where
  inside : ∀ x ∈ letters, x.2 < m.choice.size
  fits : ∀ x ∈ letters, m.fits x.1 x.2 = true
  ascending : letters.Pairwise fun x y => x.2 < y.2

theorem Match.Seated.start_le {x : Char × Nat} (seated : m.Seated letters) (member : x ∈ letters) :
    (letters.map Prod.snd).headD 0 ≤ x.2 := by
  cases letters with
  | nil => contradiction
  | cons first rest =>
    rcases List.mem_cons.mp member with rfl | later
    · exact Nat.le_refl _
    · exact Nat.le_of_lt ((List.pairwise_cons.mp seated.ascending).1 x later)

theorem length_firstIndices (found : firstIndices caseSensitive i choice pattern = some indices) :
    indices.length = pattern.length := by
  induction choice generalizing i pattern indices with
  | nil =>
    cases pattern with
    | nil =>
      obtain rfl := Option.some.inj found
      rfl
    | cons p pattern => contradiction
  | cons c choice ih =>
    cases pattern with
    | nil =>
      obtain rfl := Option.some.inj found
      rfl
    | cons p pattern =>
      rw [firstIndices] at found
      split at found
      · obtain ⟨later, rest, rfl⟩ := Option.map_eq_some_iff.mp found
        rw [List.length_cons, List.length_cons, ih rest]
      · exact ih found

theorem firstIndices_stand (found : firstIndices caseSensitive i choice pattern = some indices) :
    (pattern.zip indices).Pairwise (fun x y => x.2 < y.2) ∧
      ∀ x ∈ pattern.zip indices, i ≤ x.2 ∧ ∃ c, choice[x.2 - i]? = some c ∧ same caseSensitive c x.1 = true := by
  induction choice generalizing i pattern indices with
  | nil =>
    cases pattern with
    | nil => simp
    | cons p pattern => contradiction
  | cons c choice ih =>
    cases pattern with
    | nil => simp
    | cons p pattern =>
      have further : ∀ {x : Char × Nat}, (i + 1 ≤ x.2 ∧ ∃ d, choice[x.2 - (i + 1)]? = some d ∧
          same caseSensitive d x.1 = true) → i ≤ x.2 ∧ ∃ d, (c :: choice)[x.2 - i]? = some d ∧
            same caseSensitive d x.1 = true := by
        rintro x ⟨after, d, there, fit⟩
        refine ⟨by omega, d, ?_, fit⟩
        rw [show x.2 - i = (x.2 - (i + 1)) + 1 by omega, List.getElem?_cons_succ]
        exact there
      rw [firstIndices] at found
      split at found
      · rename_i fit
        obtain ⟨later, rest, rfl⟩ := Option.map_eq_some_iff.mp found
        obtain ⟨ascending, stand⟩ := ih rest
        rw [List.zip_cons_cons]
        refine ⟨List.pairwise_cons.mpr ⟨fun x member => ?_, ascending⟩, fun x member => ?_⟩
        · exact (stand x member).1
        · rcases List.mem_cons.mp member with rfl | member
          · exact ⟨Nat.le_refl _, c, by simp, fit⟩
          · exact further (stand x member)
      · obtain ⟨ascending, stand⟩ := ih found
        exact ⟨ascending, fun x member => further (stand x member)⟩

theorem seated_firstIndices (found : firstIndices caseSensitive 0 choice pattern = some indices) :
    (Match.ofChoice caseSensitive choice).Seated (pattern.zip indices) := by
  obtain ⟨ascending, stand⟩ := firstIndices_stand found
  have there : ∀ x ∈ pattern.zip indices,
      (Match.ofChoice caseSensitive choice).fits x.1 x.2 = true ∧ x.2 < choice.length := by
    intro x member
    exact fits_ofChoice_iff.mpr (stand x member).2
  exact ⟨fun x member => (there x member).2, fun x member => (there x member).1, ascending⟩

/-! ## The memory before the first pass -/

def Match.cleared (m : Match) (first : Nat) (memory : Memory) : Memory :=
  (List.range m.columns).foldl (fun memory j => memory.setIfInBounds j ⟨noMatch, -1, 0⟩)
    ((memory.resize (2 * m.columns)).setIfInBounds (m.columns + first) Memory.empty)

theorem Memory.cell_foldl_range (memory : Memory) (c : Cell) (inside : n ≤ memory.size) :
    ((List.range n).foldl (fun (memory : Memory) j => memory.setIfInBounds j c) memory).size = memory.size ∧
      cell ((List.range n).foldl (fun (memory : Memory) j => memory.setIfInBounds j c) memory) k =
        if k < n then c else memory.cell k := by
  induction n with
  | zero => exact ⟨rfl, rfl⟩
  | succ n ih =>
    obtain ⟨size, cells⟩ := ih (by omega)
    rw [List.range_succ, List.foldl_append]
    refine ⟨(Array.size_setIfInBounds ..).trans size, ?_⟩
    rw [List.foldl_cons, List.foldl_nil, cell_setIfInBounds, cells, size]
    split_ifs <;> first | rfl | omega

theorem size_resized : ((memory.resize (2 * m.columns)).setIfInBounds (m.columns + first) Memory.empty).size =
    2 * m.columns := by
  rw [Array.size_setIfInBounds, Memory.size_resize]

theorem cleared_spec (k : Nat) : (m.cleared first memory).size = 2 * m.columns ∧
    (m.cleared first memory).cell k = if k < m.columns then ⟨noMatch, -1, 0⟩
      else Memory.cell ((memory.resize (2 * m.columns)).setIfInBounds (m.columns + first) Memory.empty) k := by
  have inside : m.columns ≤
      ((memory.resize (2 * m.columns)).setIfInBounds (m.columns + first) Memory.empty).size := by
    rw [size_resized]
    omega
  obtain ⟨size, cells⟩ := Memory.cell_foldl_range _ ⟨noMatch, -1, 0⟩ inside
  exact ⟨size.trans size_resized, cells⟩

theorem size_cleared : (m.cleared first memory).size = 2 * m.columns := (cleared_spec 0).1

theorem cell_cleared : (m.cleared first memory).cell k = if k < m.columns then ⟨noMatch, -1, 0⟩
    else Memory.cell ((memory.resize (2 * m.columns)).setIfInBounds (m.columns + first) Memory.empty) k :=
  (cleared_spec k).2

theorem cellAt_cleared_upper (hk : k ≤ m.choice.size) :
    m.cellAt (m.cleared first memory) false k = ⟨noMatch, -1, 0⟩ := by
  have inside : k < m.columns := Nat.lt_succ_of_le hk
  rw [Match.cellAt, Bool.toNat_false, Nat.zero_mul, Nat.zero_add, cell_cleared, if_pos inside]

theorem cellAt_cleared_lower (hk : k ≤ m.choice.size) : m.cellAt (m.cleared first memory) true k =
    if k = first then Memory.empty else memory.cell (m.columns + k) := by
  have inside : m.columns + k < 2 * m.columns := by
    unfold Match.columns
    omega
  rw [Match.cellAt, Bool.toNat_true, Nat.one_mul, cell_cleared, if_neg (by omega), Memory.cell_setIfInBounds,
    Memory.size_resize, Memory.cell_resize inside]
  by_cases here : k = first
  · rw [if_pos ⟨by omega, by omega⟩, if_pos here]
  · rw [if_neg (by omega), if_neg here]

/-! ## Small bonuses -/

/-- All bonuses in the memory are those of places. -/
def Tame (memory : Memory) : Prop := ∀ k, (memory.cell k).bonus ≤ 16

theorem tame_empty : Tame #[] := fun k => by
  have fresh : (Memory.cell #[] k).bonus = 0 := by simp [Memory.cell, Memory.empty]
  omega

theorem Tame.set {c : Cell} (tame : Tame memory) (small : c.bonus ≤ 16) (i : Nat) :
    Tame (memory.setIfInBounds i c) := by
  intro k
  rw [Memory.cell_setIfInBounds]
  split
  · exact small
  · exact tame k

theorem Tame.resize (tame : Tame memory) (n : Nat) : Tame (memory.resize n) := by
  intro k
  by_cases inside : k < n
  · rw [Memory.cell_resize inside]
    exact tame k
  · have outside : (memory.resize n)[k]? = none :=
      Array.getElem?_eq_none (by rw [Memory.size_resize]; omega)
    rw [Memory.cell, Array.getD_eq_getD_getElem?, outside]
    decide

theorem Tame.cleared (tame : Tame memory) (m : Match) (first : Nat) : Tame (m.cleared first memory) := by
  intro k
  rw [cell_cleared]
  split
  · decide
  · exact (tame.resize _).set (by decide) _ k

theorem Tame.runBonus_le (tame : Tame memory) (moderate : m.Moderate) (lower : Bool) (j : Nat) :
    m.runBonus memory lower j ≤ 16 := by
  have held : (m.cellAt memory lower j).bonus ≤ 16 := tame _
  have place := moderate j
  unfold Match.runBonus
  omega

theorem Tame.step (tame : Tame memory) (moderate : m.Moderate) : Tame (m.step p lower memory j) := by
  cases fit : m.fits p j with
  | true =>
    have run := tame.runBonus_le moderate lower j
    have next : (m.cellAt memory lower (j + 1)).bonus ≤ 16 := tame _
    rw [Match.step_of_fits fit]
    refine Tame.set (Tame.set tame ?_ _) ?_ _
    · exact run
    · exact next
  | false =>
    rw [Match.step_of_missed fit]
    refine Tame.set tame ?_ _
    show (0 : Int) ≤ 16
    decide

theorem Tame.pass (tame : Tame memory) (moderate : m.Moderate) : Tame (m.pass p lower first memory) := by
  have kept := foldl_range'_induct (P := fun _ a _ => Tame a) (f := m.step p lower) (g := m.step p lower) (b := memory)
    first (m.choice.size - first) tame fun _ _ _ _ _ held => held.step moderate
  exact kept

theorem Tame.fillRows (tame : Tame memory) (moderate : m.Moderate) (i : Nat) (letters : List (Char × Nat)) :
    Tame (m.fillRows m.columns i letters memory) :=
  Match.fillRows_induct (P := fun _ a => Tame a) letters tame fun _ _ _ _ _ held => held.pass moderate

/-! ## The score -/

def Match.best (m : Match) (lower : Bool) (last : Nat) (memory : Memory) : Int :=
  (List.range' last (m.columns - last)).foldl (fun best k => max best (m.cellAt memory lower k).matched) noMatch

theorem best_le_iff {last : Nat} {bound : Int} : m.best lower last memory ≤ bound ↔
    noMatch ≤ bound ∧ ∀ k, last ≤ k → k ≤ m.choice.size → (m.cellAt memory lower k).matched ≤ bound := by
  have fold : ∀ (places : List Nat) (start : Int),
      places.foldl (fun best k => max best (m.cellAt memory lower k).matched) start ≤ bound ↔
        start ≤ bound ∧ ∀ k ∈ places, (m.cellAt memory lower k).matched ≤ bound := by
    intro places
    induction places with
    | nil => simp
    | cons k places ih =>
      intro start
      rw [List.foldl_cons, ih, List.forall_mem_cons, ← and_assoc, Int.max_le]
  rw [Match.best, fold]
  refine and_congr_right fun _ => forall_congr' fun k => ?_
  rw [List.mem_range'_1, Match.columns, and_imp]
  refine forall_congr' fun after => imp_congr_left ?_
  omega

theorem best_congr {a b : Memory} {last : Nat}
    (same : ∀ k, last ≤ k → k ≤ m.choice.size → (m.cellAt a lower k).matched = (m.cellAt b lower k).matched) :
    m.best lower last a = m.best lower last b := by
  refine List.foldl_ext _ _ _ fun best k member => ?_
  obtain ⟨after, before⟩ := List.mem_range'_1.mp member
  unfold Match.columns at before
  rw [same k after (by omega)]

def Match.filled (m : Match) (letters : List (Char × Nat)) (memory : Memory) : Memory :=
  m.fillRows m.columns 0 letters (m.cleared ((letters.map Prod.snd).headD 0) memory)

/-- What every pass keeps holds behind the last one, if it holds of the cleared memory. -/
theorem Match.filled_induct {P : Nat → Memory → Prop} (letters : List (Char × Nat)) (memory : Memory)
    (start : P 0 (m.cleared ((letters.map Prod.snd).headD 0) memory))
    (step : ∀ l p first memory, letters[l]? = some (p, first) → P l memory →
      P (l + 1) (m.pass p (l % 2 = 0) first memory)) :
    P letters.length (m.filled letters memory) := by
  have whole := fillRows_induct (P := P) letters start fun l p first memory there held => by
    rw [Nat.zero_add] at held ⊢
    exact step l p first memory there held
  rwa [Nat.zero_add] at whole

theorem score_of_none (nonempty : pattern ≠ [])
    (missing : firstIndices (pattern.any Char.isUpper) 0 choice pattern = none) :
    score memory choice pattern = (none, memory) := by
  rw [score, if_neg (by simpa using nonempty)]
  simp only [missing]

theorem score_of_some (nonempty : pattern ≠ [])
    (found : firstIndices (pattern.any Char.isUpper) 0 choice pattern = some indices) :
    let m := Match.ofChoice (pattern.any Char.isUpper) choice
    let filled := m.filled (pattern.zip indices) memory
    score memory choice pattern =
      (some (m.best (pattern.length % 2 = 1) (indices.getLastD 0) filled), filled) := by
  have places : (pattern.zip indices).map Prod.snd = indices :=
    List.map_snd_zip (Nat.le_of_eq (length_firstIndices found))
  have row : ∀ columns, pattern.length % 2 * columns = (decide (pattern.length % 2 = 1)).toNat * columns := by
    intro columns
    rcases Nat.mod_two_eq_zero_or_one pattern.length with even | odd
    · rw [even]
      rfl
    · rw [odd]
      rfl
  rw [score, if_neg (by simpa using nonempty)]
  simp only [found, Match.filled, places, row]
  rfl

theorem Tame.score (tame : Tame memory) (choice pattern : Text) : Tame (score memory choice pattern).2 := by
  by_cases empty : pattern = []
  · subst empty
    exact tame
  · cases found : firstIndices (pattern.any Char.isUpper) 0 choice pattern with
    | none =>
      rw [score_of_none empty found]
      exact tame
    | some indices =>
      rw [score_of_some empty found]
      exact (tame.cleared _ _).fillRows (moderate_ofChoice _ _) 0 _

end SchemaServer.Spelling
