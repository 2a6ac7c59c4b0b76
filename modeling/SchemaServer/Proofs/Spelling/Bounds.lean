import SchemaServer.Proofs.Spelling.Scoring

/-! Bounds of the scores of a candidate that starts with the pattern. Each letter at its own place goes on with the run,
which earns what the place can give; in a memory of its own no cell holds more. A bonus left in the lower row comes on
top if the letters scored in this row before keep it. -/
namespace SchemaServer.Spelling

variable {memory : Memory} {m : Match} {p : Char} {lower s : Bool} {first i j k n : Nat} {bound extra : Int}
variable {caseSensitive : Bool} {choice pattern rest : Text} {letters : List (Char × Nat)}

namespace Match

/-- What a run over the first places earns. -/
def potential (m : Match) : Nat → Int
  | 0 => -1
  | k + 1 => m.potential k + max (m.place k) 4 + 16

theorem potential_step (m : Match) (k : Nat) : m.potential k ≤ m.potential (k + 1) := by
  rw [potential]
  omega

theorem potential_mono (m : Match) (upTo : j ≤ k) : m.potential j ≤ m.potential k := by
  induction upTo with
  | refl => exact Int.le_refl _
  | step _ ih => exact Int.le_trans ih (m.potential_step _)

theorem potential_lower (m : Match) (k : Nat) : -1 ≤ m.potential k := m.potential_mono (Nat.zero_le k)

end Match

/-! ## No cell holds more -/

/-- No score exceeds what a run up to its column earns, and no bonus exceeds that of its place. -/
structure Capped (m : Match) (memory : Memory) : Prop where
  size : memory.size = 2 * m.columns
  matched : ∀ s k, k ≤ m.choice.size → (m.cellAt memory s k).matched ≤ m.potential k
  gap : ∀ s k, k ≤ m.choice.size → (m.cellAt memory s k).gap ≤ m.potential k
  bonus : ∀ s k, k ≤ m.choice.size → (m.cellAt memory s k).bonus ≤ max (m.place k) 4

namespace Capped

theorem runBonus_le (capped : Capped m memory) (hj : j ≤ m.choice.size) :
    m.runBonus memory lower j ≤ max (m.place j) 4 := by
  have held := capped.bonus lower j hj
  unfold Match.runBonus
  omega

theorem step (capped : Capped m memory) (hj : j < m.choice.size) : Capped m (m.step p lower memory j) := by
  have here := Nat.le_of_lt hj
  refine ⟨Match.size_step.trans capped.size, fun s k hk => ?_, fun s k hk => ?_, fun s k hk => ?_⟩
  · rw [Match.matched_step capped.size hj hk]
    split_ifs with new fit
    · have run : m.runBonus memory lower j ≤ max (m.place j) 4 := capped.runBonus_le here
      have matched := capped.matched (!lower) j here
      have gap := capped.gap (!lower) j here
      have value := (m.value_bounds p j).2
      rw [new.2, Match.potential, Match.matchedAt]
      omega
    · have := m.potential_lower k
      unfold noMatch
      omega
    · exact capped.matched s k hk
  · rw [Match.gap_step capped.size hj hk]
    split_ifs with new
    · have matched := capped.matched lower j here
      have gap := capped.gap lower j here
      have next := m.potential_step j
      rw [new.2, Match.gapAt]
      omega
    · exact capped.gap s k hk
  · rw [Match.bonus_step capped.size hj hk]
    split_ifs with new fit raised
    · exact capped.bonus s k hk
    · omega
    · rw [raised.2.1]
      exact capped.runBonus_le here
    · exact capped.bonus s k hk

theorem pass (capped : Capped m memory) (inside : first ≤ m.choice.size) : Capped m (m.pass p lower first memory) :=
  (Match.pass_induct (P := fun _ a => Capped m a) inside capped.size capped fun _ _ _ _ before held =>
    held.step before).2

theorem cleared (m : Match) (first : Nat) : Capped m (m.cleared first #[]) := by
  have lowest : ∀ k, noMatch ≤ m.potential k := fun k => by
    have := m.potential_lower k
    unfold noMatch
    omega
  have fresh : ∀ k, Memory.cell #[] k = Memory.empty := fun k => by simp [Memory.cell]
  have cells : ∀ s k, k ≤ m.choice.size → m.cellAt (m.cleared first #[]) s k = ⟨noMatch, -1, 0⟩ ∨
      m.cellAt (m.cleared first #[]) s k = Memory.empty := by
    intro s k hk
    cases s with
    | false => exact .inl (cellAt_cleared_upper hk)
    | true =>
      rw [cellAt_cleared_lower hk, fresh, ite_self]
      exact .inr rfl
  refine ⟨size_cleared, fun s k hk => ?_, fun s k hk => ?_, fun s k hk => ?_⟩
  · rcases cells s k hk with cell | cell <;> rw [cell] <;> exact lowest k
  · rcases cells s k hk with cell | cell <;> rw [cell]
    · exact m.potential_lower k
    · exact lowest k
  · have positive : (0 : Int) ≤ max (m.place k) 4 := by omega
    rcases cells s k hk with cell | cell <;> rw [cell] <;> exact positive

theorem filled (inside : ∀ x ∈ letters, x.2 ≤ m.choice.size) : Capped m (m.filled letters #[]) :=
  Match.filled_induct (P := fun _ a => Capped m a) letters #[] (cleared m _) fun _ _ _ _ there held =>
    held.pass (inside _ (List.mem_of_getElem? there))

end Capped

/-! ## The run that each letter goes on with -/

def ownPlaces (pattern : Text) : List (Char × Nat) := pattern.zip (List.range' 0 pattern.length)

theorem ownPlaces_getElem? (there : (ownPlaces pattern)[i]? = some (p, first)) :
    pattern[i]? = some p ∧ first = i ∧ i < pattern.length := by
  obtain ⟨letter, place⟩ := List.getElem?_zip_eq_some.mp there
  have inside := (List.getElem?_eq_some_iff.mp letter).1
  rw [List.getElem?_range' inside, Nat.zero_add, Nat.one_mul] at place
  exact ⟨letter, (Option.some.inj place).symm, inside⟩

theorem length_ownPlaces (pattern : Text) : (ownPlaces pattern).length = pattern.length := by
  rw [ownPlaces, List.length_zip, List.length_range', Nat.min_self]

theorem ownPlaces_start (pattern : Text) : ((ownPlaces pattern).map Prod.snd).headD 0 = 0 := by
  cases pattern <;> rfl

/-- A candidate that starts with the pattern. The bonus of its first place counts twice. -/
structure Match.Starts (m : Match) (pattern : Text) : Prop where
  length : pattern.length ≤ m.choice.size
  letter : ∀ {i p}, pattern[i]? = some p → m.choice.getD i (Char.ofNat 0) = p
  first : m.place 0 = 16
  later : ∀ i, 0 < i → m.place i ≤ 8

theorem Match.Starts.fits (starts : m.Starts pattern) (letter : pattern[i]? = some p) : m.fits p i = true := by
  rw [Match.fits, starts.letter letter]
  exact same_refl _ p

theorem Match.Starts.own (starts : m.Starts pattern) (there : (ownPlaces pattern)[i]? = some (p, first)) :
    pattern[i]? = some p ∧ first = i ∧ i < m.choice.size := by
  obtain ⟨letter, place, inside⟩ := ownPlaces_getElem? there
  exact ⟨letter, place, Nat.lt_of_lt_of_le inside starts.length⟩

/-- The letters so far go on with a run from the first place, and something was earned on top. -/
structure Led (m : Match) (extra : Int) (i : Nat) (memory : Memory) : Prop where
  size : memory.size = 2 * m.columns
  earned : m.potential i + extra ≤ (m.cellAt memory (i % 2 = 1) i).matched ∨
    i = 0 ∧ extra = 0 ∧ -1 ≤ (m.cellAt memory false 0).gap

theorem led_cleared (m : Match) (memory : Memory) : Led m 0 0 (m.cleared first memory) := by
  have cell : m.cellAt (m.cleared first memory) false 0 = ⟨noMatch, -1, 0⟩ := cellAt_cleared_upper (Nat.zero_le _)
  exact ⟨size_cleared, .inr ⟨rfl, rfl, Int.le_of_eq (congrArg Cell.gap cell).symm⟩⟩

theorem Led.pass (more : Int) (led : Led m extra i memory) (starts : m.Starts pattern)
    (there : (ownPlaces pattern)[i]? = some (p, first)) (begins : i = 0 → more = 0)
    (run : max (m.place i) 4 + more ≤ m.runBonus memory (i % 2 = 0) i) :
    Led m (extra + more) (i + 1) (m.pass p (i % 2 = 0) first memory) := by
  obtain ⟨letter, rfl, hi⟩ := starts.own there
  have value : m.value p first = 16 := by
    rw [Match.value, starts.letter letter]
    simp
  have read : (!decide (first % 2 = 0)) = decide (first % 2 = 1) := by
    rw [← decide_not]
    exact decide_eq_decide.mpr (by omega)
  have written : decide ((first + 1) % 2 = 1) = decide (first % 2 = 0) := decide_eq_decide.mpr (by omega)
  refine ⟨Match.size_pass (Nat.le_of_lt hi) led.size, .inl ?_⟩
  rw [written, Match.matched_pass_first led.size hi (starts.fits letter), Match.matchedAt, value, read, Match.potential]
  rcases led.earned with earned | ⟨rfl, rfl, gap⟩
  · omega
  · have upper : decide (0 % 2 = 1) = false := rfl
    have lowest : m.potential 0 = -1 := rfl
    have noMore := begins rfl
    have place := starts.first
    rw [upper, lowest]
    omega

/-- Whatever the memory holds, the run is earned. -/
theorem led_filled (starts : m.Starts pattern) (memory : Memory) :
    Led m 0 pattern.length (m.filled (ownPlaces pattern) memory) := by
  have whole := Match.filled_induct (P := Led m 0) (ownPlaces pattern) memory (led_cleared m memory)
    fun l p first a there led => led.pass 0 starts there (fun _ => rfl) (by unfold Match.runBonus; omega)
  rwa [length_ownPlaces] at whole

/-! ## Bonuses -/

theorem bonus_pass (inside : first ≤ m.choice.size) (size : memory.size = 2 * m.columns) (hk : k ≤ m.choice.size)
    (keeps : lower = s → first < k → m.fits p (k - 1) = true) :
    (m.cellAt memory s k).bonus ≤ (m.cellAt (m.pass p lower first memory) s k).bonus := by
  refine (Match.pass_induct (P := fun _ a => (m.cellAt memory s k).bonus ≤ (m.cellAt a s k).bonus) inside size
    (Int.le_refl _) fun j a held after before above => ?_).2
  rw [Match.bonus_step held before hk]
  split_ifs with new fit raised
  · exact above
  · obtain ⟨rfl, rfl⟩ := new
    exact absurd (keeps rfl (by omega)) fit
  · obtain ⟨rfl, rfl, -⟩ := raised
    unfold Match.runBonus
    omega
  · exact above

theorem bonus_pass_first (size : memory.size = 2 * m.columns) (hj : first < m.choice.size)
    (fit : m.fits p first = true) :
    m.place first ≤ (m.cellAt (m.pass p lower first memory) lower first).bonus := by
  refine (Match.pass_induct (P := fun i a => first < i → m.place first ≤ (m.cellAt a lower first).bonus)
    (Nat.le_of_lt hj) size (by omega) fun j a held after before above _ => ?_).2 hj
  rw [Match.bonus_step held before (Nat.le_of_lt hj), if_neg (by omega)]
  split_ifs with raised
  · rw [← raised.2.1, Match.runBonus]
    omega
  · by_cases here : first = j
    · exact absurd ⟨rfl, here, here ▸ fit⟩ raised
    · exact above (by omega)

theorem bonus_filled (starts : m.Starts pattern) (nonempty : pattern ≠ []) (memory : Memory) :
    16 ≤ (m.cellAt (m.filled (ownPlaces pattern) memory) true 0).bonus := by
  refine (Match.filled_induct (P := fun l a => a.size = 2 * m.columns ∧ (0 < l → 16 ≤ (m.cellAt a true 0).bonus))
    (ownPlaces pattern) memory ⟨size_cleared, by omega⟩
    fun l p first a there ⟨size, held⟩ => ?_).2 (by
      rw [length_ownPlaces]
      exact List.length_pos_iff.mpr nonempty)
  obtain ⟨letter, rfl, hl⟩ := starts.own there
  refine ⟨Match.size_pass (Nat.le_of_lt hl) size, fun _ => ?_⟩
  rcases Nat.eq_zero_or_pos first with rfl | later
  · have left : m.place 0 ≤ (m.cellAt (m.pass p true 0 a) true 0).bonus :=
      bonus_pass_first size hl (starts.fits letter)
    rw [starts.first] at left
    exact left
  · exact Int.le_trans (held later) (bonus_pass (Nat.le_of_lt hl) size (Nat.zero_le _) (by omega))

/-- A large bonus left in the lower row reaches the score if the letters scored in this row before fit the place in
front of it. -/
theorem led_filled_left (starts : m.Starts pattern) (later : 0 < k) (even : k % 2 = 0) (inside : k < pattern.length)
    (keeps : ∀ l p, l < k → l % 2 = 0 → pattern[l]? = some p → m.fits p (k - 1) = true)
    (left : 16 ≤ (memory.cell (m.columns + k)).bonus) :
    Led m 8 pattern.length (m.filled (ownPlaces pattern) memory) := by
  have hk : k < m.choice.size := Nat.lt_of_lt_of_le inside starts.length
  have start : 16 ≤ (m.cellAt (m.cleared ((ownPlaces pattern).map Prod.snd |>.headD 0) memory) true k).bonus := by
    rw [ownPlaces_start, cellAt_cleared_lower (Nat.le_of_lt hk), if_neg (by omega)]
    exact left
  have whole := (Match.filled_induct (P := fun l a =>
    Led m (if l ≤ k then 0 else 8) l a ∧ (l ≤ k → 16 ≤ (m.cellAt a true k).bonus)) (ownPlaces pattern) memory
    ⟨led_cleared m memory, fun _ => start⟩ fun l p first a there ⟨led, held⟩ => ?_).1
  · rwa [length_ownPlaces, if_neg (by omega)] at whole
  · obtain ⟨letter, own, hl⟩ := starts.own there
    have ordinary : max (m.place l) 4 + 0 ≤ m.runBonus a (l % 2 = 0) l := by
      unfold Match.runBonus
      omega
    refine ⟨?_, fun below => ?_⟩
    · rcases Nat.lt_trichotomy l k with below | rfl | above
      · rw [if_pos (by omega)] at led ⊢
        exact led.pass 0 starts there (fun _ => rfl) ordinary
      · rw [if_pos (Nat.le_refl _)] at led
        rw [if_neg (by omega)]
        refine led.pass 8 starts there (by omega) ?_
        have bonus := held (Nat.le_refl _)
        have place := starts.later l later
        rw [decide_eq_true even]
        unfold Match.runBonus
        omega
      · rw [if_neg (by omega)] at led ⊢
        exact led.pass 0 starts there (fun _ => rfl) ordinary
    · exact Int.le_trans (held (by omega)) (bonus_pass (by omega) led.size (Nat.le_of_lt hk)
        fun row _ => keeps l p (by omega) (of_decide_eq_true row) letter)

theorem missed_filled (starts : m.Starts pattern) (nonempty : pattern ≠ [])
    (ends : ∀ p j, pattern.getLast? = some p → pattern.length ≤ j → j < m.choice.size → m.fits p j = false)
    (behind : pattern.length < k) (hk : k ≤ m.choice.size) :
    (m.cellAt (m.filled (ownPlaces pattern) memory) (pattern.length % 2 = 1) k).matched = noMatch := by
  have positive : 0 < pattern.length := List.length_pos_iff.mpr nonempty
  have whole := (Match.filled_induct (P := fun l a => a.size = 2 * m.columns ∧
    (l = pattern.length → (m.cellAt a (l % 2 = 1) k).matched = noMatch)) (ownPlaces pattern) memory
    ⟨size_cleared, by omega⟩ fun l p first a there ⟨size, _⟩ => ?_).2
  · rw [length_ownPlaces] at whole
    exact whole rfl
  · obtain ⟨letter, rfl, hl⟩ := starts.own there
    refine ⟨Match.size_pass (Nat.le_of_lt hl) size, fun last => ?_⟩
    have final : pattern.getLast? = some p := by
      rw [List.getLast?_eq_getElem?, ← last]
      exact letter
    have written : decide ((first + 1) % 2 = 1) = decide (first % 2 = 0) := decide_eq_decide.mpr (by omega)
    have missed : (m.cellAt (m.pass p (first % 2 = 0) first a) (first % 2 = 0) (k - 1 + 1)).matched = noMatch :=
      Match.matched_pass_missed (Nat.le_of_lt hl) size (by omega) (by omega)
        (ends p (k - 1) final (by omega) (by omega))
    rw [written]
    rwa [show k - 1 + 1 = k by omega] at missed

/-! ## Scores of candidates that start with the pattern -/

theorem Led.le_best (led : Led m extra pattern.length memory) (starts : m.Starts pattern) (nonempty : pattern ≠ []) :
    m.potential pattern.length + extra ≤ m.best (pattern.length % 2 = 1) (pattern.length - 1) memory := by
  have positive := List.length_pos_iff.mpr nonempty
  have earned := led.earned.resolve_right (by omega)
  have best := (best_le_iff.mp (Int.le_refl (m.best (pattern.length % 2 = 1) (pattern.length - 1) memory))).2
  exact Int.le_trans earned (best pattern.length (by omega) starts.length)

/-- Alone, the candidate earns the run and nothing else. -/
theorem best_filled (starts : m.Starts pattern) (nonempty : pattern ≠ [])
    (ends : ∀ p j, pattern.getLast? = some p → pattern.length ≤ j → j < m.choice.size → m.fits p j = false) :
    m.best (pattern.length % 2 = 1) (pattern.length - 1) (m.filled (ownPlaces pattern) #[]) =
      m.potential pattern.length := by
  have capped : Capped m (m.filled (ownPlaces pattern) #[]) := Capped.filled fun x member => by
    obtain ⟨i, there⟩ := List.getElem?_of_mem member
    obtain ⟨-, own, inside⟩ := starts.own there
    omega
  have lowest : noMatch ≤ m.potential pattern.length := by
    have := m.potential_lower pattern.length
    unfold noMatch
    omega
  refine Int.le_antisymm (best_le_iff.mpr ⟨lowest, fun k _ hk => ?_⟩) ?_
  · rcases Nat.lt_or_ge pattern.length k with behind | upTo
    · rw [missed_filled starts nonempty ends behind hk]
      exact lowest
    · exact Int.le_trans (capped.matched _ k hk) (m.potential_mono upTo)
  · have earned := (led_filled starts #[]).le_best starts nonempty
    rwa [Int.add_zero] at earned

theorem firstIndices_append (caseSensitive : Bool) (i : Nat) (pattern rest : Text) :
    firstIndices caseSensitive i (pattern ++ rest) pattern = some (List.range' i pattern.length) := by
  induction pattern generalizing i with
  | nil => cases rest <;> rfl
  | cons p pattern ih =>
    rw [List.cons_append, firstIndices, if_pos (same_refl caseSensitive p), ih, List.length_cons, List.range'_succ]
    rfl

theorem starts_append (caseSensitive : Bool) (nonempty : pattern ≠ []) (rest : Text) :
    (Match.ofChoice caseSensitive (pattern ++ rest)).Starts pattern := by
  obtain ⟨c, pattern, rfl⟩ := List.exists_cons_of_ne_nil nonempty
  refine ⟨by simp [Match.ofChoice], fun {i p} letter => ?_, rfl, fun i later => ?_⟩
  · have inside := (List.getElem?_eq_some_iff.mp letter).1
    rw [Match.ofChoice, Array.getD_eq_getD_getElem?, List.getElem?_toArray, List.getElem?_append_left inside, letter,
      Option.getD_some]
  · obtain ⟨i, rfl⟩ := Nat.exists_eq_succ_of_ne_zero (Nat.ne_of_gt later)
    rw [place_ofChoice, List.cons_append, placeBonuses_cons, List.getElem?_cons_succ]
    cases found : (List.zipWith placeBonus (c :: (pattern ++ rest)) (pattern ++ rest))[i]? with
    | none => decide
    | some x => exact (mem_zipWith_placeBonus (List.mem_of_getElem? found)).2

theorem place_append (caseSensitive : Bool) (rest : Text) (inside : i < pattern.length) :
    (Match.ofChoice caseSensitive (pattern ++ rest)).place i = (Match.ofChoice caseSensitive pattern).place i := by
  cases pattern with
  | nil => contradiction
  | cons c pattern =>
    rw [place_ofChoice, place_ofChoice, List.cons_append, placeBonuses_cons, placeBonuses_cons]
    cases i with
    | zero => rfl
    | succ i =>
      have inside : i < pattern.length := Nat.lt_of_succ_lt_succ inside
      rw [List.getElem?_cons_succ, List.getElem?_cons_succ, List.getElem?_zipWith, List.getElem?_zipWith,
        ← List.cons_append, List.getElem?_append_left inside, List.getElem?_append_left (by simp; omega)]

theorem potential_append (caseSensitive : Bool) (rest : Text) (upTo : i ≤ pattern.length) :
    (Match.ofChoice caseSensitive (pattern ++ rest)).potential i =
      (Match.ofChoice caseSensitive pattern).potential i := by
  induction i with
  | zero => rfl
  | succ i ih => rw [Match.potential, Match.potential, ih (Nat.le_of_succ_le upTo), place_append _ _ upTo]

theorem score_append (nonempty : pattern ≠ []) (memory : Memory) (rest : Text) :
    let m := Match.ofChoice (pattern.any Char.isUpper) (pattern ++ rest)
    let filled := m.filled (ownPlaces pattern) memory
    score memory (pattern ++ rest) pattern =
      (some (m.best (pattern.length % 2 = 1) (pattern.length - 1) filled), filled) := by
  have last : (List.range' 0 pattern.length).getLastD 0 = pattern.length - 1 := by
    obtain ⟨p, pattern, rfl⟩ := List.exists_cons_of_ne_nil nonempty
    simp [List.range'_concat]
  have found := firstIndices_append (pattern.any Char.isUpper) 0 pattern rest
  rw [score_of_some nonempty found, last]
  rfl

end SchemaServer.Spelling
