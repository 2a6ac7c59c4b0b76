import Mathlib.Data.List.TakeWhile
import SchemaServer.Text.Parts
import SchemaServer.Proofs.Text.Cut

/-! Words, the first word and trimming agree on where a text is blank. What a line declares is read off
its words, so most facts about a line are stated on `words`. -/
namespace SchemaServer.Text

variable {s t w lead rest : Text} {ws : List Text} {c : Char}

def Blank (s : Text) : Prop := ∀ c ∈ s, isBlank c = true

/-- A nonempty run without blanks. -/
def Word (w : Text) : Prop := w ≠ [] ∧ ∀ c ∈ w, isBlank c = false

/-- No word reaches into `s` from the left. -/
def Parted (s : Text) : Prop := ∀ c, s.head? = some c → isBlank c = true

theorem blank_of_all (all : s.all isBlank = true) : Blank s := fun c member => List.all_eq_true.mp all c member

theorem solid_of_all (all : s.all (!isBlank ·) = true) : ∀ c ∈ s, isBlank c = false := by simpa using all

theorem Blank.parted (blank : Blank s) : Parted s := fun c first => blank c (List.mem_of_head? first)

theorem Parted.eq_nil (parted : Parted s) (solid : ∀ c ∈ s, isBlank c = false) : s = [] := by
  cases s with
  | nil => rfl
  | cons c r =>
    have blank := parted c rfl
    simp [solid c List.mem_cons_self] at blank

theorem eq_nil_of_apart (apart : ∀ c, s.getLast? = some c → isBlank c = true) (solid : ∀ c ∈ s, isBlank c = false) :
    s = [] := by
  have parted : Parted s.reverse := fun c first => apart c (by rwa [List.head?_reverse] at first)
  exact List.reverse_eq_nil_iff.mp (parted.eq_nil fun c member => solid c (List.mem_reverse.mp member))

theorem Word.head (word : Word w) : ∃ c r, w = c :: r ∧ isBlank c = false := by
  cases w with
  | nil => exact absurd rfl word.1
  | cons c r => exact ⟨c, r, rfl, word.2 c (by simp)⟩

theorem Word.enclosed (word : Word w) (front : ∀ c ∈ s, isBlank c = false)
    (back : ∀ c ∈ t, isBlank c = false) : Word (s ++ w ++ t) := by
  refine ⟨by simp [word.1], fun c member => ?_⟩
  rcases List.mem_append.mp member with member | last
  · exact (List.mem_append.mp member).elim (front c) (word.2 c)
  · exact back c last

/-- The first word of a text between what stands in front of it and the rest. -/
structure FirstWord (s lead word rest : Text) : Prop where
  parts : s = lead ++ word ++ rest
  blank : Blank lead
  solid : Word word
  parted : Parted rest

theorem words_blank_append (blank : Blank lead) (s : Text) : words (lead ++ s) = words s := by
  induction lead with
  | nil => rfl
  | cons c r ih =>
    rw [List.cons_append, words, if_pos (blank c (by simp))]
    exact ih fun d member => blank d (by simp [member])

theorem words_of_blank (blank : Blank s) : words s = [] := by
  simpa [words] using words_blank_append blank []

theorem words_word_append (word : Word w) (parted : Parted rest) :
    words (w ++ rest) = w :: words rest := by
  induction w with
  | nil => exact absurd rfl word.1
  | cons c r ih =>
    have first : ¬ isBlank c = true := by simp [word.2 c (by simp)]
    cases r with
    | nil =>
      have ends : rest.head?.all isBlank = true := by
        cases rest with
        | nil => rfl
        | cons d t => simpa using parted d rfl
      rw [List.singleton_append, words, if_neg first, if_pos ends]
    | cons d t =>
      have tail : Word (d :: t) := ⟨by simp, fun e member => word.2 e (by simp [List.mem_cons.mp member])⟩
      have goesOn : ¬ (((d :: t) ++ rest).head?.all isBlank = true) := by
        simp [word.2 d (by simp)]
      rw [List.cons_append, words, if_neg first, if_neg goesOn, ih tail]

theorem FirstWord.words (h : FirstWord s lead w rest) : words s = w :: words rest := by
  rw [h.parts, List.append_assoc, words_blank_append h.blank, words_word_append h.solid h.parted]

theorem dropWhile_eq_nil_iff_blank : s.dropWhile isBlank = [] ↔ Blank s := List.dropWhile_eq_nil_iff

theorem dropWhile_stops {p : Char → Bool} (first : (s.dropWhile p).head? = some c) : p c = false := by
  have := List.head?_dropWhile_not p s
  rwa [first] at this

theorem blank_or_firstWord (s : Text) : Blank s ∨ ∃ lead w rest, FirstWord s lead w rest := by
  have solid : ∀ c ∈ (s.dropWhile isBlank).takeWhile (!isBlank ·), isBlank c = false := by
    intro c member
    simpa using List.mem_takeWhile_imp member
  cases found : s.dropWhile isBlank with
  | nil => exact .inl (dropWhile_eq_nil_iff_blank.mp found)
  | cons c r =>
    refine .inr ⟨s.takeWhile isBlank, (s.dropWhile isBlank).takeWhile (!isBlank ·),
      (s.dropWhile isBlank).dropWhile (!isBlank ·), ?_, ?_, ⟨?_, solid⟩, ?_⟩
    · rw [List.append_assoc, List.takeWhile_append_dropWhile, List.takeWhile_append_dropWhile]
    · exact fun c member => List.mem_takeWhile_imp member
    · have first : isBlank c = false := dropWhile_stops (by rw [found]; rfl)
      simp [found, first]
    · intro d first
      simpa using dropWhile_stops first

theorem words_eq_cons (h : words s = w :: ws) :
    ∃ lead rest, FirstWord s lead w rest ∧ words rest = ws := by
  rcases blank_or_firstWord s with blank | ⟨lead, v, rest, first⟩
  · rw [words_of_blank blank] at h
    contradiction
  · obtain ⟨rfl, same⟩ := List.cons.inj (first.words.symm.trans h)
    exact ⟨lead, rest, first, same⟩

theorem words_eq_cons_cons {v : Text} (h : words s = v :: w :: ws) : ∃ lead gap rest,
    FirstWord s lead v (gap ++ w ++ rest) ∧ FirstWord (gap ++ w ++ rest) gap w rest ∧ gap ≠ [] ∧
      words rest = ws := by
  obtain ⟨lead, behind, first, others⟩ := words_eq_cons h
  obtain ⟨gap, rest, second, remaining⟩ := words_eq_cons others
  have whole := second.parts
  subst whole
  refine ⟨lead, gap, rest, first, second, ?_, remaining⟩
  rintro rfl
  obtain ⟨c, r, rfl, solid⟩ := second.solid.head
  have := first.parted c rfl
  simp [solid] at this

theorem parted_gap {gap : Text} (blank : Blank gap) (nonempty : gap ≠ []) (s : Text) : Parted (gap ++ s) := by
  obtain ⟨c, r, rfl⟩ := List.exists_cons_of_ne_nil nonempty
  exact fun d first => by simpa [← Option.some.inj first] using blank c (by simp)

theorem words_two {v gap : Text} (blank : Blank lead) (first : Word v) (blankGap : Blank gap)
    (apart : gap ≠ []) (second : Word w) (parted : Parted rest) :
    words (lead ++ v ++ (gap ++ w ++ rest)) = v :: w :: words rest := by
  rw [List.append_assoc, words_blank_append blank, List.append_assoc gap,
    words_word_append first (parted_gap blankGap apart _), words_blank_append blankGap,
    words_word_append second parted]

theorem words_eq_nil_iff : words s = [] ↔ Blank s := by
  constructor
  · intro none
    rcases blank_or_firstWord s with blank | ⟨lead, w, rest, first⟩
    · exact blank
    · rw [first.words] at none
      contradiction
  · exact words_of_blank

theorem word_of_mem_words (member : w ∈ words s) : Word w := by
  generalize all : words s = ws at member
  induction ws generalizing s with
  | nil => contradiction
  | cons v vs ih =>
    obtain ⟨lead, rest, first, others⟩ := words_eq_cons all
    rcases List.mem_cons.mp member with rfl | later
    · exact first.solid
    · exact ih others later

/-! ## Words of texts put together -/

theorem words_ne_nil (solid : isBlank c = false) (r : Text) : words (c :: r) ≠ [] := by
  rw [Ne, words_eq_nil_iff]
  intro blank
  simp [blank c List.mem_cons_self] at solid

/-- Words do not reach over a blank. -/
theorem words_append (apart : ∀ c, s.getLast? = some c → isBlank c = true) (t : Text) :
    words (s ++ t) = words s ++ words t := by
  induction s with
  | nil => rfl
  | cons c r ih =>
    cases r with
    | nil =>
      have blank := apart c rfl
      simp [words, blank]
    | cons d r =>
      have later := ih fun e last => apart e (by rwa [List.getLast?_cons_cons])
      rw [List.cons_append, words, words, later]
      by_cases blank : isBlank c = true
      · rw [if_pos blank, if_pos blank]
      · rw [if_neg blank, if_neg blank]
        by_cases ends : isBlank d = true
        · simp [ends]
        · have goesOn : isBlank d = false := by simpa using ends
          obtain ⟨w, ws, whole⟩ := List.exists_cons_of_ne_nil (words_ne_nil goesOn r)
          simp [goesOn, whole]

/-- The run without blanks at the end of a text. -/
theorem solidEnd_parts (s : Text) : ∃ lead run, s = lead ++ run ∧
    (∀ c, lead.getLast? = some c → isBlank c = true) ∧ ∀ c ∈ run, isBlank c = false := by
  refine ⟨(s.reverse.dropWhile (!isBlank ·)).reverse, (s.reverse.takeWhile (!isBlank ·)).reverse, ?_, ?_, ?_⟩
  · rw [← List.reverse_append, List.takeWhile_append_dropWhile, List.reverse_reverse]
  · intro c last
    rw [List.getLast?_reverse] at last
    simpa using dropWhile_stops last
  · intro c member
    simpa using List.mem_takeWhile_imp (List.mem_reverse.mp member)

theorem solidStart_parts (s : Text) : ∃ run rest, s = run ++ rest ∧ (∀ c ∈ run, isBlank c = false) ∧
    Parted rest := by
  refine ⟨s.takeWhile (!isBlank ·), s.dropWhile (!isBlank ·), List.takeWhile_append_dropWhile.symm, ?_, ?_⟩
  · intro c member
    simpa using List.mem_takeWhile_imp member
  · intro c first
    simpa using dropWhile_stops first

/-- A run in the place of another changes the one word around it. -/
theorem words_replaced {old new : Text} (solid : Word old) (fresh : Word new) (s t : Text) :
    ∃ ws front back ws', (∀ c ∈ front, isBlank c = false) ∧ (∀ c ∈ back, isBlank c = false) ∧
      words (s ++ old ++ t) = ws ++ (front ++ old ++ back) :: ws' ∧
      words (s ++ new ++ t) = ws ++ (front ++ new ++ back) :: ws' := by
  obtain ⟨lead, front, rfl, apart, solidFront⟩ := solidEnd_parts s
  obtain ⟨back, rest, rfl, solidBack, parted⟩ := solidStart_parts t
  have around : ∀ w, Word w →
      words (lead ++ front ++ w ++ (back ++ rest)) = words lead ++ (front ++ w ++ back) :: words rest := by
    intro w word
    have shape : lead ++ front ++ w ++ (back ++ rest) = lead ++ ((front ++ w ++ back) ++ rest) := by
      simp only [List.append_assoc]
    rw [shape, words_append apart, words_word_append (word.enclosed solidFront solidBack) parted]
  exact ⟨words lead, front, back, words rest, solidFront, solidBack, around old solid, around new fresh⟩

/-- Another run in the place of one behind the first word leaves the first word as it is. -/
theorem FirstWord.replaced {front old back : Text} (first : FirstWord s lead w (front ++ old ++ back))
    (solid : Word old) (new : Text) :
    FirstWord (lead ++ w ++ (front ++ new ++ back)) lead w (front ++ new ++ back) := by
  refine ⟨rfl, first.blank, first.solid, ?_⟩
  cases front with
  | nil =>
    obtain ⟨c, r, rfl, head⟩ := solid.head
    have blank := first.parted c rfl
    simp [head] at blank
  | cons c r => exact fun d head => first.parted d head

/-! ## The first word as a span -/

theorem takeWhile_isBlank (blank : Blank lead) (solid : Word w) (rest : Text) :
    (lead ++ (w ++ rest)).takeWhile isBlank = lead ∧
      (lead ++ (w ++ rest)).dropWhile isBlank = w ++ rest := by
  obtain ⟨c, r, rfl, first⟩ := solid.head
  rw [List.takeWhile_append_of_pos blank, List.dropWhile_append_of_pos blank]
  simp [first]

theorem takeWhile_not_isBlank (solid : ∀ c ∈ w, isBlank c = false) (parted : Parted rest) :
    (w ++ rest).takeWhile (!isBlank ·) = w := by
  rw [List.takeWhile_append_of_pos fun c member => by simp [solid c member]]
  cases rest with
  | nil => simp
  | cons c r => simp [parted c rfl]

theorem firstWordSpan_of_blank (blank : Blank s) : firstWordSpan s = none := by
  have empty := dropWhile_eq_nil_iff_blank.mpr blank
  simp only [firstWordSpan, empty, List.takeWhile_nil]

theorem FirstWord.span (h : FirstWord s lead w rest) :
    firstWordSpan s = some (byteLength lead, byteLength lead + byteLength w) := by
  obtain ⟨front, back⟩ := takeWhile_isBlank h.blank h.solid rest
  obtain ⟨c, r, rfl, -⟩ := h.solid.head
  simp only [firstWordSpan, h.parts, List.append_assoc, front, back,
    takeWhile_not_isBlank h.solid.2 h.parted]

/-! ## The word at a cursor -/

theorem takeWhile_reverse_solid {run : Text} (apart : ∀ c, lead.getLast? = some c → isBlank c = true)
    (solid : ∀ c ∈ run, isBlank c = false) : ((lead ++ run).reverse.takeWhile (!isBlank ·)).reverse = run := by
  have solidRun : ∀ c ∈ run.reverse, isBlank c = false := fun c member => solid c (List.mem_reverse.mp member)
  have partedLead : Parted lead.reverse := fun c first => apart c (by rwa [List.head?_reverse] at first)
  rw [List.reverse_append, takeWhile_not_isBlank solidRun partedLead, List.reverse_reverse]

/-- A run without blanks from a blank or the start of a text to a blank or its end. Between two blanks it is empty. -/
structure Run (s lead run rest : Text) : Prop where
  parts : s = lead ++ run ++ rest
  solid : ∀ c ∈ run, isBlank c = false
  apart : ∀ c, lead.getLast? = some c → isBlank c = true
  parted : Parted rest

theorem FirstWord.run (h : FirstWord s lead w rest) : Run s lead w rest :=
  ⟨h.parts, h.solid.2, fun c last => h.blank c (List.mem_of_getLast? last), h.parted⟩

theorem FirstWord.run_append (h : FirstWord s lead w rest) (nonempty : lead ≠ []) (front : Text) :
    Run (front ++ s) (front ++ lead) w rest := by
  refine ⟨by simp [h.parts], h.solid.2, fun c last => ?_, h.parted⟩
  obtain ⟨d, leadLast⟩ := Option.isSome_iff_exists.mp (List.getLast?_isSome.mpr nonempty)
  rw [List.getLast?_append, leadLast] at last
  obtain rfl := Option.some.inj last
  exact h.blank d (List.mem_of_getLast? leadLast)

/-- A cut inside a run gives back the whole run. -/
theorem Run.wordAt_cut {front back : Text} {column : Nat} (run : Run s lead (front ++ back) rest)
    (cut : takeWithin unitSize column s = lead ++ front) : wordAt s column = front ++ back := by
  have behind : dropWithin unitSize column s = back ++ rest := by
    have whole := takeWithin_append_dropWithin unitSize column s
    rw [cut] at whole
    exact List.append_cancel_left (whole.trans (run.parts.trans (by simp)))
  obtain ⟨solidFront, solidBack⟩ := List.forall_mem_append.mp run.solid
  have before := takeWhile_reverse_solid run.apart solidFront
  have after := takeWhile_not_isBlank solidBack run.parted
  simp only [wordAt, cut, behind, before, after]

/-- Columns from the start of a run to its end are on that run. -/
theorem Run.wordAt {column : Nat} (run : Run s lead w rest) (lower : unitLength lead ≤ column)
    (upper : column ≤ unitLength (lead ++ w)) : wordAt s column = w := by
  have leads : lead <+: takeWithin unitSize column s :=
    prefix_takeWithin ⟨w ++ rest, by rw [run.parts, List.append_assoc]⟩ lower
  have ends : takeWithin unitSize column s <+: lead ++ w :=
    prefix_of_total_le unitSize_pos ⟨_, takeWithin_append_dropWithin unitSize column s⟩ ⟨rest, run.parts.symm⟩
      ((total_takeWithin_le unitSize column s).trans upper)
  obtain ⟨front, cut⟩ := leads
  rw [← cut, List.prefix_append_right_inj] at ends
  obtain ⟨back, rfl⟩ := ends
  exact run.wordAt_cut cut.symm

theorem exists_run (s : Text) (column : Nat) : ∃ lead front back rest, Run s lead (front ++ back) rest ∧
    takeWithin unitSize column s = lead ++ front ∧ dropWithin unitSize column s = back ++ rest := by
  obtain ⟨lead, front, cut, apart, solidFront⟩ := solidEnd_parts (takeWithin unitSize column s)
  obtain ⟨back, rest, behind, solidBack, parted⟩ := solidStart_parts (dropWithin unitSize column s)
  have whole := takeWithin_append_dropWithin unitSize column s
  rw [cut, behind] at whole
  have solid : ∀ c ∈ front ++ back, isBlank c = false := List.forall_mem_append.mpr ⟨solidFront, solidBack⟩
  exact ⟨lead, front, back, rest, ⟨whole.symm.trans (by simp), solid, apart, parted⟩, cut, behind⟩

/-! ## Trimming -/

theorem trimEnd_parts (s : Text) : ∃ tail, s = (s.reverse.dropWhile isBlank).reverse ++ tail ∧ Blank tail := by
  refine ⟨(s.reverse.takeWhile isBlank).reverse, ?_, ?_⟩
  · rw [← List.reverse_append, List.takeWhile_append_dropWhile, List.reverse_reverse]
  · intro c member
    exact List.mem_takeWhile_imp (List.mem_reverse.mp member)

theorem trim_of_blank (blank : Blank s) : trim s = [] := by
  have empty := dropWhile_eq_nil_iff_blank.mpr blank
  simp [trim, empty]

/-- A trimmed text starts with its first word and keeps all but the blanks at its end. -/
theorem FirstWord.trim (h : FirstWord s lead w rest) :
    ∃ kept tail, rest = kept ++ tail ∧ Blank tail ∧ Text.trim s = w ++ kept ∧
      ∀ c, (w ++ kept).getLast? = some c → isBlank c = false := by
  have back := (takeWhile_isBlank h.blank h.solid rest).2
  have trimmed : Text.trim s = ((w ++ rest).reverse.dropWhile isBlank).reverse := by
    rw [Text.trim, h.parts, List.append_assoc, back]
  obtain ⟨tail, parts, blank⟩ := trimEnd_parts (w ++ rest)
  rw [← trimmed] at parts
  have last : ∀ c, (Text.trim s).getLast? = some c → isBlank c = false := by
    intro c found
    rw [trimmed, List.getLast?_reverse] at found
    exact dropWhile_stops found
  rcases List.append_eq_append_iff.mp parts with ⟨kept, whole, restEq⟩ | ⟨cut, wordEq, tailEq⟩
  · exact ⟨kept, tail, restEq, blank, whole, whole ▸ last⟩
  · have none : cut = [] :=
      Blank.parted (fun c member => blank c (by simp [tailEq, member])) |>.eq_nil
        fun c member => h.solid.2 c (by simp [wordEq, member])
    subst none
    refine ⟨[], tail, by simpa using tailEq.symm, blank, by simpa using wordEq.symm, ?_⟩
    simpa [wordEq] using last

theorem trim_parts (s : Text) : ∃ lead tail, s = lead ++ trim s ++ tail ∧ Blank lead ∧ Blank tail := by
  rcases blank_or_firstWord s with blank | ⟨lead, w, rest, first⟩
  · exact ⟨s, [], by simp [trim_of_blank blank], blank, by simp [Blank]⟩
  · obtain ⟨kept, tail, restEq, blank, whole, -⟩ := first.trim
    exact ⟨lead, tail, by rw [whole, first.parts, restEq]; simp, first.blank, blank⟩

theorem trim_eq {d : Char} {middle tail : Text} (blankLead : Blank lead) (blankTail : Blank tail)
    (first : isBlank c = false) (last : isBlank d = false) :
    trim (lead ++ (c :: middle ++ [d]) ++ tail) = c :: middle ++ [d] := by
  have back : (lead ++ (c :: middle ++ [d]) ++ tail).dropWhile isBlank = c :: middle ++ [d] ++ tail := by
    rw [List.append_assoc, List.dropWhile_append_of_pos blankLead]
    simp [first]
  have reversed : (c :: middle ++ [d] ++ tail).reverse = tail.reverse ++ d :: (c :: middle).reverse := by
    simp
  rw [trim, back, reversed, List.dropWhile_append_of_pos fun e member => blankTail e (by simpa using member)]
  simp [last]

theorem head?_trim (s : Text) : (trim s).head? = (words s).head?.bind List.head? := by
  rcases blank_or_firstWord s with blank | ⟨lead, w, rest, first⟩
  · simp [trim_of_blank blank, words_of_blank blank]
  · obtain ⟨kept, tail, -, -, whole, -⟩ := first.trim
    obtain ⟨c, r, rfl, -⟩ := first.solid.head
    simp [whole, first.words]

/-- A trimmed text starts with a run without blanks just where its first word does. -/
theorem isPrefixOf_trim {lead : Text} (solid : Word lead) (s : Text) :
    lead.isPrefixOf (trim s) = (words s).head?.any lead.isPrefixOf := by
  rcases blank_or_firstWord s with blank | ⟨_, w, rest, first⟩
  · obtain ⟨c, r, rfl, -⟩ := solid.head
    simp [trim_of_blank blank, words_of_blank blank]
  · obtain ⟨kept, tail, restEq, -, whole, -⟩ := first.trim
    simp only [whole, first.words, List.head?_cons, Option.any_some]
    apply Bool.eq_iff_iff.mpr
    simp only [List.isPrefixOf_iff_prefix]
    constructor
    · intro h
      rcases List.prefix_or_prefix_of_prefix h (List.prefix_append w kept) with inside | ⟨more, leadEq⟩
      · exact inside
      · subst leadEq
        cases more with
        | nil => simp
        | cons c r =>
          obtain ⟨_, same⟩ := h
          rw [List.append_assoc, List.append_cancel_left_eq] at same
          have := first.parted c (by simp [restEq, ← same])
          simp [solid.2 c (by simp)] at this
    · exact fun h => h.trans (List.prefix_append w kept)

end SchemaServer.Text
