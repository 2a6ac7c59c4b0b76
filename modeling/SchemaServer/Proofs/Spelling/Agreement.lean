import SchemaServer.Proofs.Spelling.Scoring

/-! Two memories that differ only in bonuses that were left behind. A left bonus is read in the lower row alone, and it
stays only while each letter scored in this row fits the character in front of it. It reaches a score only if the cell
it is added to is a match. Where no run of the candidate does this, both memories lead to the same score. -/
namespace SchemaServer.Spelling

variable {a b : Memory} {m : Match} {p : Char} {lower s : Bool} {first i j k : Nat}
variable {known stale : Bool → Nat → Prop}

/-- Longer candidates could bring a gap score below the score of a place without a match. -/
def lengthLimit : Nat := 32752

/-- The known cells have the same scores in both memories, and the cells that are not stale have the same bonuses. -/
structure Agree (m : Match) (known stale : Bool → Nat → Prop) (a b : Memory) : Prop where
  matched : ∀ {s k}, k ≤ m.choice.size → known s k → (m.cellAt a s k).matched = (m.cellAt b s k).matched
  gap : ∀ {s k}, k ≤ m.choice.size → known s k → (m.cellAt a s k).gap = (m.cellAt b s k).gap
  bonus : ∀ {s k}, k ≤ m.choice.size → ¬ stale s k → (m.cellAt a s k).bonus = (m.cellAt b s k).bonus

structure Fitted (m : Match) (memory : Memory) : Prop where
  size : memory.size = 2 * m.columns
  tame : Tame memory

namespace Fitted

theorem step {memory : Memory} (fitted : Fitted m memory) (moderate : m.Moderate) :
    Fitted m (m.step p lower memory j) :=
  ⟨Match.size_step.trans fitted.size, fitted.tame.step moderate⟩

theorem pass {memory : Memory} (fitted : Fitted m memory) (moderate : m.Moderate) (inside : first ≤ m.choice.size) :
    Fitted m (m.pass p lower first memory) :=
  ⟨Match.size_pass inside fitted.size, fitted.tame.pass moderate⟩

end Fitted

namespace Agree

theorem weaken {known' stale' : Bool → Nat → Prop} (agree : Agree m known stale a b)
    (fewer : ∀ s k, k ≤ m.choice.size → known' s k → known s k)
    (more : ∀ s k, k ≤ m.choice.size → stale s k → stale' s k) :
    Agree m known' stale' a b :=
  ⟨fun inside isKnown => agree.matched inside (fewer _ _ inside isKnown),
    fun inside isKnown => agree.gap inside (fewer _ _ inside isKnown),
    fun inside fresh => agree.bonus inside fun isStale => fresh (more _ _ inside isStale)⟩

/-- A left bonus does not count where going on with a run is worth less than a gap, whatever the bonus is. -/
theorem matchedAt (agree : Agree m known stale a b) (fa : Fitted m a) (fb : Fitted m b) (moderate : m.Moderate)
    (hj : j ≤ m.choice.size) (above : known (!lower) j)
    (safe : stale lower j → (m.cellAt a (!lower) j).matched + 16 ≤ (m.cellAt a (!lower) j).gap + m.place j) :
    m.matchedAt p lower a j = m.matchedAt p lower b j := by
  have matched := agree.matched hj above
  have gap := agree.gap hj above
  unfold Match.matchedAt
  rw [← matched, ← gap]
  by_cases isStale : stale lower j
  · have small := safe isStale
    have runA := fa.tame.runBonus_le moderate lower j
    have runB := fb.tame.runBonus_le moderate lower j
    omega
  · have bonus := agree.bonus hj isStale
    rw [Match.runBonus, Match.runBonus, bonus]

/-- After a step the new cell is known too, and it is not stale if the letter does not fit. -/
theorem step (agree : Agree m known stale a b) (fa : Fitted m a) (fb : Fitted m b) (hj : j < m.choice.size)
    (here : known lower j)
    (same : m.fits p j = true → m.matchedAt p lower a j = m.matchedAt p lower b j) :
    Agree m (fun s k => known s k ∨ s = lower ∧ k = j + 1)
      (fun s k => stale s k ∧ (s = lower → k = j + 1 → m.fits p j = true))
      (m.step p lower a j) (m.step p lower b j) := by
  have inside := Nat.le_of_lt hj
  have gapAt : m.gapAt lower a j = m.gapAt lower b j := by
    rw [Match.gapAt, Match.gapAt, agree.matched inside here, agree.gap inside here]
  refine ⟨fun {s k} hk isKnown => ?_, fun {s k} hk isKnown => ?_, fun {s k} hk fresh => ?_⟩
  · rw [Match.matched_step fa.size hj hk, Match.matched_step fb.size hj hk]
    by_cases new : s = lower ∧ k = j + 1
    · rw [if_pos new, if_pos new]
      by_cases fit : m.fits p j = true
      · rw [if_pos fit, if_pos fit, same fit]
      · rw [if_neg fit, if_neg fit]
    · rw [if_neg new, if_neg new]
      exact agree.matched hk (isKnown.resolve_right new)
  · rw [Match.gap_step fa.size hj hk, Match.gap_step fb.size hj hk]
    by_cases new : s = lower ∧ k = j + 1
    · rw [if_pos new, if_pos new, gapAt]
    · rw [if_neg new, if_neg new]
      exact agree.gap hk (isKnown.resolve_right new)
  · rw [Match.bonus_step fa.size hj hk, Match.bonus_step fb.size hj hk]
    by_cases new : s = lower ∧ k = j + 1
    · rw [if_pos new, if_pos new]
      by_cases fit : m.fits p j = true
      · rw [if_pos fit, if_pos fit]
        exact agree.bonus hk fun isStale => fresh ⟨isStale, fun _ _ => fit⟩
      · rw [if_neg fit, if_neg fit]
    · have bonus := agree.bonus hk fun isStale => fresh ⟨isStale, fun row column => absurd ⟨row, column⟩ new⟩
      rw [if_neg new, if_neg new]
      by_cases raised : s = lower ∧ k = j ∧ m.fits p j = true
      · rw [if_pos raised, if_pos raised]
        obtain ⟨rfl, rfl, -⟩ := raised
        rw [Match.runBonus, Match.runBonus, bonus]
      · rw [if_neg raised, if_neg raised]
        exact bonus

/-- After a pass its row is known behind the first place, and stale only behind places that the letter fits. -/
theorem pass (agree : Agree m known stale a b) (fa : Fitted m a) (fb : Fitted m b) (moderate : m.Moderate)
    (inside : first ≤ m.choice.size) (here : known lower first)
    (above : ∀ j, first ≤ j → j < m.choice.size → known (!lower) j)
    (safe : ∀ j, first ≤ j → j < m.choice.size → m.fits p j = true → stale lower j →
      (first < j → m.fits p (j - 1) = true) →
      (m.cellAt a (!lower) j).matched + 16 ≤ (m.cellAt a (!lower) j).gap + m.place j) :
    Agree m (fun s k => known s k ∨ s = lower ∧ first < k)
      (fun s k => stale s k ∧ (s = lower → first < k → m.fits p (k - 1) = true))
      (m.pass p lower first a) (m.pass p lower first b) := by
  -- behind place `j` this holds of the cells up to `j`, and the row that is read has not changed
  have run := foldl_range'_induct (f := m.step p lower) (g := m.step p lower)
    (P := fun j a' b' => Fitted m a' ∧ Fitted m b' ∧
      (∀ k, k ≤ m.choice.size → m.cellAt a' (!lower) k = m.cellAt a (!lower) k) ∧
      Agree m (fun s k => known s k ∨ s = lower ∧ first < k ∧ k ≤ j)
        (fun s k => stale s k ∧ (s = lower → first < k → k ≤ j → m.fits p (k - 1) = true)) a' b')
    first (m.choice.size - first)
    ⟨fa, fb, fun _ _ => rfl, agree.weaken (fun _ _ _ isKnown => isKnown.resolve_right (by omega))
      fun _ _ _ isStale => ⟨isStale, by omega⟩⟩
    fun j a' b' after before ⟨fa', fb', read, held⟩ => ?_
  · have ends : first + (m.choice.size - first) = m.choice.size := by omega
    rw [ends] at run
    exact run.2.2.2.weaken (fun _ _ hk isKnown => isKnown.imp_right fun new => ⟨new.1, new.2, hk⟩)
      fun _ _ hk isStale => ⟨isStale.1, fun row behind => isStale.2 row behind hk⟩
  · have hj : j < m.choice.size := by omega
    have hereJ : known lower j ∨ lower = lower ∧ first < j ∧ j ≤ j := by
      rcases Nat.eq_or_lt_of_le after with rfl | behind
      · exact .inl here
      · exact .inr ⟨rfl, behind, Nat.le_refl j⟩
    have same : m.fits p j = true → m.matchedAt p lower a' j = m.matchedAt p lower b' j := fun fit =>
      held.matchedAt fa' fb' moderate (Nat.le_of_lt hj) (.inl (above j after hj)) fun isStale => by
        rw [read j (Nat.le_of_lt hj)]
        exact safe j after hj fit isStale.1 fun behind => isStale.2 rfl behind (Nat.le_refl j)
    refine ⟨fa'.step moderate, fb'.step moderate,
      fun k hk => (Match.cellAt_step_other fa'.size hj hk).trans (read k hk),
      (held.step fa' fb' hj hereJ same).weaken (fun s k _ isKnown => ?_) fun s k _ isStale => ?_⟩
    · rcases isKnown with isKnown | ⟨row, behind, upTo⟩
      · exact .inl (.inl isKnown)
      · by_cases last : k = j + 1
        · exact .inr ⟨row, last⟩
        · exact .inl (.inr ⟨row, behind, by omega⟩)
    · refine ⟨isStale.1.1, fun row behind upTo => ?_⟩
      by_cases last : k = j + 1
      · subst last
        exact isStale.2 row rfl
      · exact isStale.1.2 row behind (by omega)

end Agree

/-! ## A whole table -/

variable {done rest : List (Char × Nat)} {start : Nat}

/-- Where a bonus left in the lower row is still there after the passes for some letters. -/
def Stale (m : Match) (done : List (Char × Nat)) (s : Bool) (k : Nat) : Prop :=
  s = true ∧ ∀ l p f, done[l]? = some (p, f) → l % 2 = 0 → f < k → m.fits p (k - 1) = true

/-- Everything from the first place on, in the lower row only after its first pass. -/
def Known (start : Nat) (done : List (Char × Nat)) (s : Bool) (k : Nat) : Prop :=
  start ≤ k ∧ (s = true → done = [] → k = start)

theorem Stale.concat (stale : Stale m done s k)
    (kept : s = decide (done.length % 2 = 0) → first < k → m.fits p (k - 1) = true) :
    Stale m (done ++ [(p, first)]) s k := by
  refine ⟨stale.1, fun l q f there even before => ?_⟩
  rw [List.getElem?_append] at there
  split at there
  · exact stale.2 l q f there even before
  · rw [List.getElem?_singleton] at there
    split at there
    · obtain ⟨rfl, rfl⟩ := Prod.mk.inj (Option.some.inj there)
      have position : l = done.length := by omega
      exact kept (by rw [stale.1, ← position, even]; rfl) before
    · contradiction

theorem Known.of_concat (known : Known start (done ++ [(p, first)]) s k) (starts : done = [] → first = start) :
    Known start done s k ∨ s = decide (done.length % 2 = 0) ∧ first < k := by
  by_cases firstPass : done = []
  · have begins := starts firstPass
    subst firstPass
    cases s with
    | false => exact .inl ⟨known.1, nofun⟩
    | true =>
      rcases Nat.lt_or_ge first k with behind | upTo
      · exact .inr ⟨rfl, behind⟩
      · exact .inl ⟨known.1, fun _ _ => Nat.le_antisymm (begins ▸ upTo) known.1⟩
  · exact .inl ⟨known.1, fun _ begins => absurd begins firstPass⟩

/-- Where a letter scored in the upper row ends a match and the next letter goes on with it, a letter scored before in
the lower row has cleared the bonus there. -/
def Match.Steady (m : Match) (letters : List (Char × Nat)) : Prop :=
  ∀ i j q p, i % 2 = 1 → letters[i]? = some q → letters[i + 1]? = some p → j + 1 < m.choice.size →
    m.fits q.1 j = true → m.fits p.1 (j + 1) = true →
    ∃ l x, l < i ∧ l % 2 = 0 ∧ letters[l]? = some x ∧ m.fits x.1 j = false

structure Level (m : Match) (start : Nat) (done : List (Char × Nat)) (a b : Memory) : Prop where
  left : Fitted m a
  right : Fitted m b
  agree : Agree m (Known start done) (Stale m done) a b
  gap : ∀ k, k ≤ m.choice.size → -1 - (k : Int) ≤ (m.cellAt a false k).gap
  missed : done.length % 2 = 0 → ∀ k, k ≤ m.choice.size →
    (∀ q g, done.getLast? = some (q, g) → g < k ∧ m.fits q (k - 1) = false) →
    (m.cellAt a false k).matched = noMatch

/-- A gap costs one for each place. -/
theorem gap_pass {memory : Memory} (inside : first ≤ m.choice.size) (size : memory.size = 2 * m.columns)
    (bound : ∀ k, k ≤ m.choice.size → -1 - (k : Int) ≤ (m.cellAt memory false k).gap) :
    ∀ k, k ≤ m.choice.size → -1 - (k : Int) ≤ (m.cellAt (m.pass p lower first memory) false k).gap := by
  refine (Match.pass_induct
    (P := fun _ a => ∀ k, k ≤ m.choice.size → -1 - (k : Int) ≤ (m.cellAt a false k).gap) inside size bound
    fun j a held _ before above k hk => ?_).2
  rw [Match.gap_step held before hk]
  split
  · rename_i new
    obtain ⟨rfl, rfl⟩ := new
    have last := above j (Nat.le_of_lt before)
    unfold Match.gapAt
    omega
  · exact above k hk

namespace Level

theorem cleared (ta : Tame a) (tb : Tame b) : Level m start [] (m.cleared start a) (m.cleared start b) where
  left := ⟨size_cleared, ta.cleared m start⟩
  right := ⟨size_cleared, tb.cleared m start⟩
  agree := by
    have upper : ∀ {k}, k ≤ m.choice.size →
        m.cellAt (m.cleared start a) false k = m.cellAt (m.cleared start b) false k := fun hk =>
      (cellAt_cleared_upper hk).trans (cellAt_cleared_upper hk).symm
    have same : ∀ {s k}, k ≤ m.choice.size → Known start [] s k →
        m.cellAt (m.cleared start a) s k = m.cellAt (m.cleared start b) s k := by
      intro s k hk isKnown
      cases s with
      | false => exact upper hk
      | true =>
        obtain rfl := isKnown.2 rfl rfl
        rw [cellAt_cleared_lower hk, cellAt_cleared_lower hk, if_pos rfl, if_pos rfl]
    refine ⟨fun hk isKnown => by rw [same hk isKnown], fun hk isKnown => by rw [same hk isKnown], ?_⟩
    intro s k hk fresh
    cases s with
    | false => rw [upper hk]
    | true => exact absurd ⟨rfl, nofun⟩ fresh
  gap k hk := by
    rw [cellAt_cleared_upper hk]
    show -1 - (k : Int) ≤ -1
    omega
  missed _ k hk _ := by rw [cellAt_cleared_upper hk]

section Pass

variable (level : Level m start done a b) (moderate : m.Moderate) (short : m.choice.size ≤ lengthLimit)
variable (seated : m.Seated (done ++ (p, first) :: rest)) (steady : m.Steady (done ++ (p, first) :: rest))

include level seated steady

theorem noMatch_of_stale (stale : Stale m done (done.length % 2 = 0) j) (after : first ≤ j) (hj : j < m.choice.size)
    (fit : m.fits p j = true) : (m.cellAt a false j).matched = noMatch := by
  have even : done.length % 2 = 0 := of_decide_eq_true stale.1
  have behind : ∀ x ∈ done, x.2 < first := fun x member =>
    (List.pairwise_append.mp seated.ascending).2.2 x member (p, first) List.mem_cons_self
  refine level.missed even j (Nat.le_of_lt hj) fun q g last => ?_
  have member := List.mem_of_getLast? last
  have nonempty : 0 < done.length := List.length_pos_of_mem member
  have before := behind (q, g) member
  refine ⟨by omega, Bool.eq_false_iff.mpr fun goes => ?_⟩
  have letter : (done ++ (p, first) :: rest)[done.length - 1]? = some (q, g) := by
    rw [List.getElem?_append_left (by omega), ← List.getLast?_eq_getElem?]
    exact last
  have next : (done ++ (p, first) :: rest)[done.length - 1 + 1]? = some (p, first) := by
    rw [Nat.sub_add_cancel nonempty, List.getElem?_append_right (Nat.le_refl _), Nat.sub_self]
    rfl
  have place : j - 1 + 1 = j := by omega
  obtain ⟨l, x, below, evenL, there, cleared⟩ := steady (done.length - 1) (j - 1) (q, g) (p, first) (by omega)
    letter next (place.symm ▸ hj) goes (place.symm ▸ fit)
  rw [List.getElem?_append_left (by omega)] at there
  have kept := stale.2 l x.1 x.2 there evenL
    (Nat.lt_of_lt_of_le (behind x (List.mem_of_getElem? there)) after)
  rw [cleared] at kept
  contradiction

include moderate short

/-- A letter keeps the level: what it reads of a stale bonus is added to a place without a match. -/
theorem pass (after : start ≤ first) (starts : done = [] → first = start) :
    Level m start (done ++ [(p, first)]) (m.pass p (done.length % 2 = 0) first a)
      (m.pass p (done.length % 2 = 0) first b) := by
  have inside : first < m.choice.size := seated.inside (p, first) (by simp)
  have safe : ∀ j, first ≤ j → j < m.choice.size → m.fits p j = true → Stale m done (done.length % 2 = 0) j →
      (first < j → m.fits p (j - 1) = true) →
      (m.cellAt a (!decide (done.length % 2 = 0)) j).matched + 16 ≤
        (m.cellAt a (!decide (done.length % 2 = 0)) j).gap + m.place j := by
    intro j reached hj fit stale _
    have noRun := level.noMatch_of_stale seated steady stale reached hj fit
    have gap := level.gap j (Nat.le_of_lt hj)
    have place := (moderate j).1
    unfold lengthLimit at short
    rw [stale.1, Bool.not_true, noRun]
    unfold noMatch
    omega
  have agree := level.agree.pass level.left level.right moderate (Nat.le_of_lt inside) ⟨after, fun _ => starts⟩
    (fun j reached _ => ⟨by omega, fun upper begins => by simp [begins] at upper⟩) safe
  refine ⟨level.left.pass moderate (Nat.le_of_lt inside), level.right.pass moderate (Nat.le_of_lt inside),
    agree.weaken (fun s k _ known => known.of_concat starts) fun s k _ stale => stale.1.concat stale.2,
    gap_pass (Nat.le_of_lt inside) level.left.size level.gap, fun even k hk last => ?_⟩
  obtain ⟨before, misses⟩ := last p first (by simp)
  have upper : decide (done.length % 2 = 0) = false := by
    rw [List.length_append, List.length_singleton] at even
    exact decide_eq_false (by omega)
  have found : (m.cellAt (m.pass p false first a) false (k - 1 + 1)).matched = noMatch :=
    Match.matched_pass_missed (Nat.le_of_lt inside) level.left.size (by omega) (by omega) misses
  rw [upper]
  rwa [show k - 1 + 1 = k by omega] at found

end Pass

theorem fillRows (level : Level m start done a b) (moderate : m.Moderate) (short : m.choice.size ≤ lengthLimit)
    (seated : m.Seated (done ++ rest)) (steady : m.Steady (done ++ rest))
    (after : ∀ x ∈ rest, start ≤ x.2) (starts : done = [] → ∀ x ∈ rest.head?, x.2 = start) :
    Level m start (done ++ rest) (m.fillRows m.columns done.length rest a)
      (m.fillRows m.columns done.length rest b) := by
  induction rest generalizing done a b with
  | nil => rwa [List.append_nil]
  | cons x rest ih =>
    obtain ⟨p, first⟩ := x
    have next := level.pass moderate short seated steady (after _ List.mem_cons_self)
      fun begins => starts begins _ rfl
    rw [List.append_cons] at seated steady
    have whole := ih next seated steady (fun x member => after x (List.mem_cons_of_mem _ member)) (by simp)
    rw [Match.fillRows_cons, Match.fillRows_cons, List.append_cons]
    rwa [List.length_append, List.length_singleton] at whole

theorem filled {letters : List (Char × Nat)} (ta : Tame a) (tb : Tame b) (moderate : m.Moderate)
    (short : m.choice.size ≤ lengthLimit) (seated : m.Seated letters) (steady : m.Steady letters) :
    Level m ((letters.map Prod.snd).headD 0) letters (m.filled letters a) (m.filled letters b) :=
  (cleared ta tb).fillRows moderate short seated steady (fun _ member => seated.start_le member) fun _ x head => by
    cases letters with
    | nil => contradiction
    | cons first rest =>
      obtain rfl := Option.some.inj head
      rfl

end Level

end SchemaServer.Spelling
