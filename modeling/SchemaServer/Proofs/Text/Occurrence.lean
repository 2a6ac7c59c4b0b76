import SchemaServer.Text.Parts
import SchemaServer.Text.Identifier
import SchemaServer.Rename.NewName
import SchemaServer.Proofs.Text.Word

/-! Where one text occurs in another. A plain search cuts at the first occurrence; a search for an
identifier gives the first occurrence that no identifier character touches. -/
namespace SchemaServer.Text

variable {s t needle before after pre found : Text} {c : Char} {n start : Nat}

/-! ## Identifier characters -/

def blankCodes : List Nat :=
  [0x09, 0x0A, 0x0B, 0x0C, 0x0D, 0x20, 0x85, 0xA0, 0x1680, 0x2000, 0x2001, 0x2002, 0x2003, 0x2004,
    0x2005, 0x2006, 0x2007, 0x2008, 0x2009, 0x200A, 0x2028, 0x2029, 0x202F, 0x205F, 0x3000]

theorem mem_blankCodes (blank : isBlank c = true) : c.toNat ∈ blankCodes := by
  simp only [isBlank, Bool.or_eq_true, Bool.and_eq_true, decide_eq_true_eq] at blank
  simp only [blankCodes, List.mem_cons, List.not_mem_nil, or_false]
  omega

theorem not_identifier_of_blank (blank : isBlank c = true) : isIdentifierChar c = false := by
  have table : ∀ code ∈ blankCodes, isIdentifierChar (Char.ofNat code) = false := by decide +kernel
  simpa using table _ (mem_blankCodes blank)

def punctuation : List Char := ['"', '\\', '(', ')', ',', '/', '@', '[', ']']

theorem not_identifier_of_punctuation (mark : c ∈ punctuation) : isIdentifierChar c = false := by
  have table : punctuation.all (!isIdentifierChar ·) = true := by decide +kernel
  simpa using List.all_eq_true.mp table c mark

/-- Blanks keep an identifier clear of what stands in front of them. -/
theorem Blank.free_behind (blank : Blank t) (front : t = [] → s.getLast?.any isIdentifierChar = false) :
    (s ++ t).getLast?.any isIdentifierChar = false := by
  cases last : t.getLast? with
  | none =>
    have none := List.getLast?_eq_none_iff.mp last
    rw [none, List.append_nil]
    exact front none
  | some c =>
    rw [List.getLast?_append, last]
    exact not_identifier_of_blank (blank c (List.mem_of_getLast? last))

theorem Blank.free_before (blank : Blank s) (back : s = [] → t.head?.any isIdentifierChar = false) :
    (s ++ t).head?.any isIdentifierChar = false := by
  cases s with
  | nil => exact back rfl
  | cons c r => exact not_identifier_of_blank (blank c List.mem_cons_self)

theorem Parted.free (parted : Parted s) : s.head?.any isIdentifierChar = false := by
  cases s with
  | nil => rfl
  | cons c r => exact not_identifier_of_blank (parted c rfl)

def Identifying (s : Text) : Prop := ∀ c ∈ s, isIdentifierChar c = true

theorem Identifying.solid (h : Identifying s) (member : c ∈ s) : isBlank c = false := by
  by_contra blank
  have := not_identifier_of_blank (Bool.of_not_eq_false blank)
  simp [h c member] at this

theorem isIdentifierChar_of_start (h : isIdentifierStart c = true) : isIdentifierChar c = true := by
  simp only [isIdentifierStart, Bool.or_eq_true] at h
  rcases h with letter | underscore
  · simp [isIdentifierChar, letter]
  · simp [isIdentifierChar, underscore]

theorem checkNewName_ok (valid : checkNewName s = .ok ()) : s ≠ [] ∧ Identifying s := by
  cases s with
  | nil => simp [checkNewName] at valid
  | cons c r =>
    simp only [checkNewName, List.isEmpty_cons, Bool.false_eq_true, ↓reduceIte] at valid
    split at valid
    · rename_i spelled
      simp only [isIdentifier, Bool.and_eq_true, List.all_eq_true] at spelled
      refine ⟨by simp, fun d member => ?_⟩
      rcases List.mem_cons.mp member with rfl | later
      · exact isIdentifierChar_of_start spelled.1
      · exact spelled.2 d later
    · contradiction

theorem isIdentifier_parts (identifier : isIdentifier s = true) : s ≠ [] ∧ Identifying s := by
  apply checkNewName_ok
  cases s with
  | nil => contradiction
  | cons c r => simp [checkNewName, identifier]

theorem Identifying.word (h : Identifying s) (nonempty : s ≠ []) : Word s :=
  ⟨nonempty, fun _ member => h.solid member⟩

/-! ## The first occurrence -/

theorem after?_eq_some_iff {lead rest : Text} : after? lead s = some rest ↔ s = lead ++ rest := by
  unfold after?
  split
  · rename_i starts
    obtain ⟨back, rfl⟩ := List.isPrefixOf_iff_prefix.mp starts
    simp [eq_comm]
  · rename_i other
    constructor
    · intro h
      contradiction
    · rintro rfl
      simp at other

theorem splitAtFirst?_eq_some_iff : splitAtFirst? needle s = some (before, found) ↔
    before ++ found = s ∧ needle <+: found ∧
      ∀ front back, s = front ++ needle ++ back → before.length ≤ front.length := by
  induction s generalizing before found with
  | nil =>
    simp only [splitAtFirst?, List.isEmpty_iff]
    constructor
    · split
      · rename_i none
        rintro ⟨⟩
        simp [none]
      · intro h
        contradiction
    · rintro ⟨parts, starts, -⟩
      obtain ⟨rfl, rfl⟩ := List.append_eq_nil_iff.mp parts
      simpa using List.prefix_nil.mp starts
  | cons c r ih =>
    unfold splitAtFirst?
    by_cases starts : needle.isPrefixOf (c :: r) = true
    · rw [if_pos starts]
      have starts := List.isPrefixOf_iff_prefix.mp starts
      constructor
      · rintro ⟨⟩
        exact ⟨rfl, starts, fun _ _ _ => Nat.zero_le _⟩
      · rintro ⟨parts, -, first⟩
        obtain ⟨back, whole⟩ := starts
        have none : before = [] := by
          simpa using first [] back (by simp [whole])
        subst none
        rw [← parts]
        rfl
    · rw [if_neg starts, Option.map_eq_some_iff]
      have later : ∀ {front back}, c :: r = front ++ needle ++ back →
          ∃ tail, front = c :: tail ∧ r = tail ++ needle ++ back := by
        intro front back whole
        cases front with
        | nil => exact absurd (List.isPrefixOf_iff_prefix.mpr ⟨back, whole.symm⟩) starts
        | cons d tail =>
          simp only [List.cons_append, List.cons.injEq] at whole
          exact ⟨tail, by rw [whole.1], whole.2⟩
      constructor
      · rintro ⟨⟨b, f⟩, rest, ⟨⟩⟩
        obtain ⟨parts, occurs, first⟩ := ih.mp rest
        refine ⟨by rw [List.cons_append, parts], occurs, ?_⟩
        intro front back whole
        obtain ⟨tail, rfl, inside⟩ := later whole
        simpa using first tail back inside
      · rintro ⟨parts, occurs, first⟩
        obtain ⟨back, whole⟩ := occurs
        obtain ⟨tail, rfl, inside⟩ := later (by rw [← parts, ← whole, List.append_assoc])
        refine ⟨(tail, found), ih.mpr ⟨by rw [inside, ← whole, List.append_assoc], ⟨back, whole⟩, ?_⟩, rfl⟩
        intro front back whole
        simpa using first (c :: front) back (by rw [whole]; rfl)

theorem mentions_iff : mentions s needle = true ↔ needle <:+: s := by
  induction s with
  | nil => simp [mentions, splitAtFirst?, List.infix_nil]
  | cons c r ih =>
    rw [List.infix_cons_iff, ← ih, ← List.isPrefixOf_iff_prefix, mentions, mentions, splitAtFirst?]
    by_cases starts : needle.isPrefixOf (c :: r) = true <;> simp [starts]

/-! ## Whole identifiers -/

/-- `needle` stands between `before` and `after`, and no identifier character touches it. -/
structure Stands (needle before after s : Text) : Prop where
  parts : s = before ++ needle ++ after
  free_before : before.getLast?.any isIdentifierChar = false
  free_after : after.head?.any isIdentifierChar = false

theorem FirstWord.stands {lead rest : Text} (first : FirstWord s lead needle rest) : Stands needle lead rest s :=
  ⟨first.parts, by simpa using first.blank.free_behind (s := []) fun _ => rfl, first.parted.free⟩

theorem scanForIdentifier_sound {rest : Text} {skip : Nat}
    (h : scanForIdentifier needle (byteLength pre) pre.getLast? skip rest = some n) :
    ∃ before after, Stands needle before after (pre ++ rest) ∧ byteLength before = n ∧ pre <+: before := by
  induction rest generalizing pre skip with
  | nil => contradiction
  | cons c r ih =>
    simp only [scanForIdentifier] at h
    split at h
    · rename_i hit
      simp only [Bool.and_eq_true, decide_eq_true_eq, Bool.not_eq_true', Bool.or_eq_false_iff] at hit
      obtain ⟨⟨-, occurs⟩, free, freeAfter⟩ := hit
      obtain ⟨after, whole⟩ := List.isPrefixOf_iff_prefix.mp occurs
      rw [← whole, List.drop_left] at freeAfter
      exact ⟨pre, after, ⟨by rw [← whole, List.append_assoc], free, freeAfter⟩, Option.some.inj h,
        List.prefix_rfl⟩
    · rw [← byteLength_concat, ← List.getLast?_concat (l := pre) (a := c)] at h
      obtain ⟨before, after, stands, place, reach⟩ := ih h
      exact ⟨before, after, by simpa using stands, place, (List.prefix_append pre [c]).trans reach⟩

theorem findIdentifier_sound (h : findIdentifier s needle start = some n) :
    ∃ front before after, front <+: before ∧ byteLength front = start ∧ byteLength before = n ∧
      Stands needle before after s := by
  unfold findIdentifier at h
  split at h
  · contradiction
  · split at h
    · rename_i boundary
      obtain ⟨front, rest, rfl, rfl⟩ := boundary.split
      rw [takeBytes_byteLength, dropBytes_byteLength] at h
      obtain ⟨before, after, stands, place, reach⟩ := scanForIdentifier_sound h
      exact ⟨front, before, after, reach, rfl, place, stands⟩
    · contradiction

theorem findIdentifier_behind_blanks {gap : Text} (blank : Blank gap) (solid : Word needle)
    (stands : Stands needle (pre ++ gap) after s) :
    findIdentifier s needle (byteLength pre) = some (byteLength (pre ++ gap)) := by
  have nonempty : needle.isEmpty = false := by simpa using solid.1
  have whole : s = pre ++ (gap ++ needle ++ after) := by simp [stands.parts]
  rw [findIdentifier, nonempty, if_neg (by simp), if_pos (whole ▸ isBoundary_byteLength _ _), whole,
    takeBytes_byteLength, dropBytes_byteLength]
  have free := stands.free_before
  have freeAfter := stands.free_after
  clear stands whole
  induction gap generalizing pre with
  | nil =>
    obtain ⟨c, r, rfl, -⟩ := solid.head
    have free : pre.getLast?.any isIdentifierChar = false := by simpa using free
    simp [scanForIdentifier, List.isPrefixOf_iff_prefix, free, freeAfter]
  | cons c r ih =>
    obtain ⟨d, t, rfl, head⟩ := solid.head
    have differ : ¬ d = c := by
      rintro rfl
      simp [blank d (by simp)] at head
    have next := @ih (pre ++ [c]) (fun e member => blank e (by simp [member])) (by simpa using free)
    simpa [scanForIdentifier, List.isPrefixOf, differ, byteLength_concat] using next

section Least

variable {skip : Nat} {rest : Text}

/-- What is passed over belongs to an identifier, so nothing may start there. -/
def Passed (pre : Text) (skip : Nat) (rest : Text) : Prop :=
  skip = 0 ∨ (pre.getLast?.any isIdentifierChar = true ∧ Identifying (rest.take skip))

theorem Passed.step (passed : Passed pre skip (c :: rest)) : Passed (pre ++ [c]) (skip - 1) rest := by
  rcases passed with rfl | ⟨-, chars⟩
  · exact .inl rfl
  · cases skip with
    | zero => exact .inl rfl
    | succ k =>
      refine .inr ⟨?_, fun d member => chars d (List.mem_cons_of_mem c member)⟩
      simpa using chars c (by simp [List.take_succ_cons])

theorem Passed.refused (all : Identifying needle) (occurs : needle <+: c :: rest) (nonempty : needle ≠ []) :
    Passed (pre ++ [c]) (needle.length - 1) rest := by
  obtain ⟨back, whole⟩ := occurs
  cases needle with
  | nil => contradiction
  | cons d t =>
    obtain ⟨rfl, rfl⟩ := List.cons.inj whole
    refine .inr ⟨by simpa using all d (by simp), fun e member => all e ?_⟩
    have : e ∈ t := by simpa using member
    simp [this]

theorem scanForIdentifier_least (all : Identifying needle) (nonempty : needle ≠ [])
    (passed : Passed pre skip rest) (stands : Stands needle before after (pre ++ rest))
    (reach : pre <+: before) :
    ∃ m, scanForIdentifier needle (byteLength pre) pre.getLast? skip rest = some m ∧
      m ≤ byteLength before := by
  induction rest generalizing pre skip with
  | nil =>
    obtain ⟨more, rfl⟩ := reach
    have sizes := congrArg List.length stands.parts
    have := List.length_pos_iff.mpr nonempty
    simp only [List.append_nil, List.length_append] at sizes
    omega
  | cons c r ih =>
    simp only [scanForIdentifier]
    split
    · exact ⟨_, rfl, total_le_of_prefix _ reach⟩
    · rename_i miss
      have further : pre ++ [c] <+: before := by
        obtain ⟨more, rfl⟩ := reach
        cases more with
        | nil =>
          -- the needle stands right here, so neither a skip nor a neighbour can refuse it
          exfalso
          have here : c :: r = needle ++ after := by
            simpa using stands.parts
          have free : pre.getLast?.any isIdentifierChar = false := by simpa using stands.free_before
          have none : skip = 0 := by
            rcases passed with zero | ⟨touched, -⟩
            · exact zero
            · simp [free] at touched
          apply miss
          simp [none, free, stands.free_after, here]
        | cons d more =>
          have same := stands.parts
          simp only [List.append_assoc, List.append_cancel_left_eq, List.cons_append,
            List.cons.injEq] at same
          exact ⟨more, by simp [same.1]⟩
      rw [← byteLength_concat, ← List.getLast?_concat (l := pre) (a := c)]
      apply ih _ (by simpa using stands) further
      split
      · rename_i occurs
        simp only [Bool.and_eq_true] at occurs
        exact .refused all (List.isPrefixOf_iff_prefix.mp occurs.2) nonempty
      · exact passed.step

end Least

/-- A search for an identifier gives the first place behind the start where it stands alone. -/
theorem findIdentifier_least (all : Identifying needle) (nonempty : needle ≠ [])
    (stands : Stands needle before after s) (reach : pre <+: before) :
    ∃ m, findIdentifier s needle (byteLength pre) = some m ∧ m ≤ byteLength before := by
  obtain ⟨more, rfl⟩ := reach
  have whole : s = pre ++ (more ++ needle ++ after) := by simp [stands.parts]
  have some : needle.isEmpty = false := by simpa using nonempty
  rw [findIdentifier, some, if_neg (by simp), if_pos (whole ▸ isBoundary_byteLength _ _), whole,
    takeBytes_byteLength, dropBytes_byteLength]
  exact scanForIdentifier_least all nonempty (.inl rfl) (whole ▸ stands) (List.prefix_append _ _)

theorem findIdentifier_isSome_iff (all : Identifying needle) (nonempty : needle ≠ []) :
    (findIdentifier s needle 0).isSome = true ↔ ∃ before after, Stands needle before after s := by
  constructor
  · intro found
    obtain ⟨n, found⟩ := Option.isSome_iff_exists.mp found
    obtain ⟨-, before, after, -, -, -, stands⟩ := findIdentifier_sound found
    exact ⟨before, after, stands⟩
  · rintro ⟨before, after, stands⟩
    have reach : ([] : Text) <+: before := List.nil_prefix
    obtain ⟨n, found, -⟩ := findIdentifier_least all nonempty stands reach
    exact Option.isSome_iff_exists.mpr ⟨n, found⟩

end SchemaServer.Text
