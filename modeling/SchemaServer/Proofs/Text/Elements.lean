import Mathlib.Data.List.Basic
import SchemaServer.Proofs.Text.Zone

/-! Lists whose elements commas set apart, where commas in brackets and strings belong to an element. Renaming the
leading name of each element swaps the name where it opens one. -/
namespace SchemaServer.Text

/-- A reader of a list: how many brackets are open, the zone, and whether only blanks of the element were read. -/
structure ListReader where
  depth : Nat
  zone : Zone
  fresh : Bool
  deriving DecidableEq

namespace ListReader

def start : ListReader := ⟨0, .code, true⟩

/-- The reader is at the level of the list itself. -/
def atTop (reader : ListReader) : Bool := reader.depth = 0 && reader.zone = .code

/-- The character ends an element. -/
def separates (reader : ListReader) (c : Char) : Bool := reader.atTop && c = ','

def next (reader : ListReader) (c : Char) : ListReader where
  depth :=
    if reader.zone ≠ .code then reader.depth
    else if c ∈ ['(', '[', '{'] then reader.depth + 1
    else if c ∈ [')', ']', '}'] then reader.depth - 1
    else reader.depth
  zone := reader.zone.next c
  fresh := reader.separates c || (reader.fresh && isBlank c)

def after (reader : ListReader) (s : Text) : ListReader := s.foldl next reader

end ListReader

/-- The elements of a list, read on from a reader. -/
def elementsFrom (reader : ListReader) : Text → List Text
  | [] => [[]]
  | c :: r =>
    if reader.separates c then [] :: elementsFrom (reader.next c) r
    else (elementsFrom (reader.next c) r).modifyHead (c :: ·)

def elements (items : Text) : List Text := elementsFrom .start items

/-- Writes `new` for the name that an element starts with, where it is `old`. -/
def renameLeading (old new element : Text) : Text :=
  let gap := element.takeWhile isBlank
  let rest := element.dropWhile isBlank
  if rest.takeWhile isIdentifierChar = old then gap ++ new ++ rest.dropWhile isIdentifierChar else element

def renameElements (old new items : Text) : Text :=
  [','].intercalate ((elements items).map (renameLeading old new))

/-- A name stands behind `before` and opens an element. -/
def Opens (name items before : Text) : Prop :=
  (ListReader.start.after before).fresh = true ∧ ∃ back, Stands name before back items

variable {reader : ListReader} {old new items before s e : Text} {es : List Text} {c : Char}

namespace ListReader

theorem after_append (reader : ListReader) (s t : Text) : reader.after (s ++ t) = (reader.after s).after t :=
  List.foldl_append

theorem after_concat (reader : ListReader) (s : Text) (c : Char) :
    reader.after (s ++ [c]) = (reader.after s).next c := List.foldl_concat ..

theorem separates_eq (h : reader.separates c = true) : c = ',' := by
  simp only [separates, Bool.and_eq_true, decide_eq_true_eq] at h
  exact h.2

theorem not_separates_identifier (h : isIdentifierChar c = true) : reader.separates c = false := by
  by_contra comma
  obtain rfl := separates_eq (Bool.of_not_eq_false comma)
  rw [not_identifier_of_punctuation (by decide)] at h
  contradiction

theorem fresh_after_name (name : Identifying s) (nonempty : s ≠ []) : (reader.after s).fresh = false := by
  obtain ⟨r, c, rfl⟩ := (List.eq_nil_or_concat s).resolve_left nonempty
  rw [List.concat_eq_append] at name ⊢
  have last : isIdentifierChar c = true := name c (by simp)
  have solid := name.solid (c := c) (by simp)
  simp [after_concat, next, not_separates_identifier last, solid]

theorem free_of_fresh (fresh : (start.after s).fresh = true) : s.getLast?.any isIdentifierChar = false := by
  rcases List.eq_nil_or_concat s with rfl | ⟨r, c, rfl⟩
  · rfl
  · rw [List.concat_eq_append, after_concat, next, Bool.or_eq_true, Bool.and_eq_true] at fresh
    rw [List.concat_eq_append, List.getLast?_concat, Option.any_some]
    rcases fresh with comma | ⟨-, blank⟩
    · rw [separates_eq comma]
      exact not_identifier_of_punctuation (by decide)
    · exact not_identifier_of_blank blank

end ListReader

/-! ## Elements -/

theorem elementsFrom_ne_nil (reader : ListReader) (s : Text) : elementsFrom reader s ≠ [] := by
  induction s generalizing reader with
  | nil => simp [elementsFrom]
  | cons c r ih =>
    unfold elementsFrom
    split
    · simp
    · obtain ⟨e, es, whole⟩ := List.exists_cons_of_ne_nil (ih (reader.next c))
      simp [whole]

theorem intercalate_cons (e : Text) (es : List Text) : [','].intercalate (e :: es) = e ++ es.flatMap (',' :: ·) := by
  induction es generalizing e with
  | nil => simp [List.intercalate]
  | cons f es ih =>
    rw [List.intercalate_cons_cons, ih, List.flatMap_cons]
    simp

theorem intercalate_elementsFrom (reader : ListReader) (s : Text) : [','].intercalate (elementsFrom reader s) = s := by
  induction s generalizing reader with
  | nil => rfl
  | cons c r ih =>
    obtain ⟨e, es, whole⟩ := List.exists_cons_of_ne_nil (elementsFrom_ne_nil (reader.next c) r)
    have rest := ih (reader.next c)
    rw [whole, intercalate_cons] at rest
    unfold elementsFrom
    rw [whole]
    split
    · rename_i comma
      rw [intercalate_cons, List.flatMap_cons, List.nil_append, ListReader.separates_eq comma, List.cons_append, rest]
    · rw [List.modifyHead_cons, intercalate_cons, List.cons_append, rest]

theorem eq_of_elementsFrom (split : elementsFrom reader s = e :: es) : s = e ++ es.flatMap (',' :: ·) := by
  rw [← intercalate_cons, ← split, intercalate_elementsFrom]

theorem head?_separated (es : List Text) : (es.flatMap (',' :: ·)).head?.any isIdentifierChar = false := by
  cases es with
  | nil => rfl
  | cons e es =>
    rw [List.flatMap_cons, List.cons_append, List.head?_cons, Option.any_some]
    exact not_identifier_of_punctuation (by decide)

theorem head?_element (es : List Text) : (e ++ es.flatMap (',' :: ·)).head?.any isIdentifierChar = false ↔
    e.head?.any isIdentifierChar = false := by
  cases e with
  | nil => simp [head?_separated es]
  | cons c r => rfl

theorem elementsFrom_name (name : Identifying old) (s : Text) :
    elementsFrom reader (old ++ s) = (elementsFrom (reader.after old) s).modifyHead (old ++ ·) := by
  induction old generalizing reader with
  | nil =>
    change elementsFrom reader s = (elementsFrom reader s).modifyHead fun e => e
    cases elementsFrom reader s <;> rfl
  | cons c r ih =>
    have plain : reader.separates c = false := ListReader.not_separates_identifier (name c List.mem_cons_self)
    rw [List.cons_append, elementsFrom, plain, ih fun d member => name d (List.mem_cons_of_mem c member)]
    simp only [Bool.false_eq_true, ↓reduceIte, List.modifyHead_modifyHead]
    rfl

/-! ## Leading names -/

theorem renameLeading_blank (blank : isBlank c = true) (e : Text) :
    renameLeading old new (c :: e) = c :: renameLeading old new e := by
  simp only [renameLeading, List.takeWhile_cons, List.dropWhile_cons, blank, ↓reduceIte]
  split <;> rfl

theorem renameLeading_nil (nonempty : old ≠ []) : renameLeading old new [] = [] := by
  simp [renameLeading, nonempty.symm]

theorem takeWhile_name (name : Identifying old) (free : e.head?.any isIdentifierChar = false) :
    (old ++ e).takeWhile isIdentifierChar = old ∧ (old ++ e).dropWhile isIdentifierChar = e := by
  rw [List.takeWhile_append_of_pos name, List.dropWhile_append_of_pos name]
  cases e with
  | nil => simp
  | cons c r =>
    have stop : isIdentifierChar c = false := free
    simp [stop]

theorem solid_start (solid : isBlank c = false) (e : Text) :
    (c :: e).takeWhile isBlank = [] ∧ (c :: e).dropWhile isBlank = c :: e := by simp [solid]

theorem renameLeading_name (name : Identifying old) (nonempty : old ≠ [])
    (free : e.head?.any isIdentifierChar = false) : renameLeading old new (old ++ e) = new ++ e := by
  obtain ⟨gap, rest⟩ : (old ++ e).takeWhile isBlank = [] ∧ (old ++ e).dropWhile isBlank = old ++ e := by
    obtain ⟨c, r, rfl⟩ := List.exists_cons_of_ne_nil nonempty
    exact solid_start (name.solid List.mem_cons_self) (r ++ e)
  obtain ⟨leads, follows⟩ := takeWhile_name name free
  simp [renameLeading, gap, rest, leads, follows]

theorem renameLeading_other (solid : isBlank c = false) (other : (c :: e).takeWhile isIdentifierChar ≠ old) :
    renameLeading old new (c :: e) = c :: e := by
  obtain ⟨gap, rest⟩ := solid_start solid e
  simp only [renameLeading, gap, rest, if_neg other]

/-! ## Renamed lists -/

/-- Renames the leading names of a list read on from a reader. An element that is not fresh has its name behind it. -/
def renameFrom (old new : Text) (reader : ListReader) (s : Text) : Text :=
  match elementsFrom reader s with
  | [] => []
  | e :: es => [','].intercalate
      ((if reader.fresh then renameLeading old new e else e) :: es.map (renameLeading old new))

theorem renameFrom_eq (split : elementsFrom reader s = e :: es) : renameFrom old new reader s =
    (if reader.fresh then renameLeading old new e else e) ++ (es.map (renameLeading old new)).flatMap (',' :: ·) := by
  rw [renameFrom, split]
  exact intercalate_cons _ _

theorem renameElements_eq (old new items : Text) : renameElements old new items = renameFrom old new .start items := by
  obtain ⟨e, es, split⟩ := List.exists_cons_of_ne_nil (elementsFrom_ne_nil .start items)
  rw [renameElements, elements, split, renameFrom_eq split, List.map_cons, intercalate_cons]
  rfl

section Renamed

variable (name : Identifying old) (nonempty : old ≠ [])

include name nonempty

theorem renameFrom_opened (fresh : reader.fresh = true) (free : s.head?.any isIdentifierChar = false) :
    renameFrom old new reader (old ++ s) = new ++ renameFrom old new (reader.after old) s := by
  obtain ⟨e, es, rest⟩ := List.exists_cons_of_ne_nil (elementsFrom_ne_nil (reader.after old) s)
  have split : elementsFrom reader (old ++ s) = _ := elementsFrom_name name s
  rw [rest, List.modifyHead_cons] at split
  rw [eq_of_elementsFrom rest, head?_element] at free
  rw [renameFrom_eq split, renameFrom_eq rest, fresh, ListReader.fresh_after_name name nonempty,
    if_pos rfl, if_neg (by simp), renameLeading_name name nonempty free, List.append_assoc]

omit name in
theorem renameFrom_kept (unopened : reader.fresh = true →
      ¬ ∃ back, c :: s = old ++ back ∧ back.head?.any isIdentifierChar = false) :
    renameFrom old new reader (c :: s) = c :: renameFrom old new (reader.next c) s := by
  obtain ⟨e, es, rest⟩ := List.exists_cons_of_ne_nil (elementsFrom_ne_nil (reader.next c) s)
  rw [renameFrom_eq rest]
  by_cases comma : reader.separates c = true
  · have split : elementsFrom reader (c :: s) = [] :: e :: es := by rw [elementsFrom, if_pos comma, rest]
    have fresh : (reader.next c).fresh = true := by simp [ListReader.next, comma]
    rw [renameFrom_eq split, fresh, if_pos rfl, renameLeading_nil nonempty, ite_self, List.map_cons, List.flatMap_cons,
      List.nil_append, List.cons_append, ListReader.separates_eq comma]
  · have split : elementsFrom reader (c :: s) = (c :: e) :: es := by
      rw [elementsFrom, if_neg comma, rest, List.modifyHead_cons]
    rw [renameFrom_eq split]
    by_cases fresh : reader.fresh = true
    · have goesOn : (reader.next c).fresh = isBlank c := by simp [ListReader.next, comma, fresh]
      rw [if_pos fresh, goesOn]
      by_cases blank : isBlank c = true
      · rw [if_pos blank, renameLeading_blank blank, List.cons_append]
      · have other : (c :: e).takeWhile isIdentifierChar ≠ old := by
          intro leads
          have parts := List.takeWhile_append_dropWhile (p := isIdentifierChar) (l := c :: e)
          rw [leads] at parts
          refine unopened fresh ⟨(c :: e).dropWhile isIdentifierChar ++ es.flatMap (',' :: ·), ?_, ?_⟩
          · rw [← List.append_assoc, parts, eq_of_elementsFrom rest, List.cons_append]
          · rw [head?_element]
            cases stop : ((c :: e).dropWhile isIdentifierChar).head? with
            | none => rfl
            | some d => exact dropWhile_stops stop
        rw [if_neg blank, renameLeading_other (by simpa using blank) other, List.cons_append]
    · have stale : ¬ (reader.next c).fresh = true := by simp [ListReader.next, comma, fresh]
      rw [if_neg fresh, if_neg stale, List.cons_append]

theorem swapped_renameFrom (parts : items = before ++ s) : Swapped (Opens old items) old new before s
    (renameFrom old new (ListReader.start.after before) s) := by
  generalize measure : s.length = k
  induction k using Nat.strongRecOn generalizing before s with
  | _ k ih =>
    by_cases opened : Opens old items before
    · obtain ⟨fresh, back, stands⟩ := opened
      obtain rfl : s = old ++ back := by
        have whole := parts.symm.trans stands.parts
        simpa using whole
      have shorter : back.length < k := by
        have := List.length_pos_iff.mpr nonempty
        rw [← measure, List.length_append]
        omega
      have later := @ih back.length shorter (before ++ old) back (by rw [parts]; simp) rfl
      rw [renameFrom_opened name nonempty fresh stands.free_after, ← ListReader.after_append]
      exact .swap ⟨fresh, back, stands⟩ stands.free_after later
    · cases s with
      | nil =>
        have none : renameFrom old new (ListReader.start.after before) [] = [] := by
          simp [renameFrom, elementsFrom, renameLeading_nil nonempty, List.intercalate]
        rw [none]
        exact .nil
      | cons c r =>
        have later := @ih r.length (by rw [← measure]; simp) (before ++ [c]) r (by rw [parts]; simp) rfl
        rw [renameFrom_kept nonempty, ← ListReader.after_concat]
        · exact .keep opened later
        · rintro fresh ⟨back, whole, free⟩
          exact opened ⟨fresh, back, by rw [parts, whole]; simp, ListReader.free_of_fresh fresh, free⟩

/-- Renaming the elements of a list swaps the name where it opens one. -/
theorem swapped_renameElements (new items : Text) :
    Swapped (Opens old items) old new [] items (renameElements old new items) := by
  rw [renameElements_eq]
  exact swapped_renameFrom name nonempty rfl

end Renamed

theorem opens_iff_fresh {after : Text} (stands : Stands old before after items) :
    Opens old items before ↔ (ListReader.start.after before).fresh = true :=
  ⟨fun opens => opens.1, fun fresh => ⟨fresh, after, stands⟩⟩

theorem Opens.free (items : Text) : Free (Opens old items) := fun _ opened => ListReader.free_of_fresh opened.1

end SchemaServer.Text
