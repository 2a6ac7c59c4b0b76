import SchemaServer.Block
import SchemaServer.Proofs.Text.Occurrence

/-! Opening lines by their form: a keyword, a name and a brace at the end. All that a line declares is
read off its words. -/
namespace SchemaServer

variable {line keyword name gap lead after : Text} {kind : BlockKind} {header : Header}

open Text

namespace Header

/-- What may follow the name on an opening line. -/
def Opens (after : Text) : Prop := ∃ gap tail, after = gap ++ '{' :: tail ∧ Blank gap ∧ Blank tail

/-- An opening line in its parts. -/
structure Written (line lead keyword gap name after : Text) : Prop where
  parts : line = lead ++ keyword ++ (gap ++ name ++ after)
  blank : Blank lead
  solid : Word keyword
  blankGap : Blank gap
  apart : gap ≠ []
  word : Word name
  opens : Opens after

theorem Written.firstWord (h : Written line lead keyword gap name after) :
    FirstWord line lead keyword (gap ++ name ++ after) := by
  refine ⟨h.parts, h.blank, h.solid, ?_⟩
  rw [List.append_assoc]
  exact parted_gap h.blankGap h.apart _

theorem Written.stands (h : Written line lead keyword gap name after) :
    Stands name (lead ++ keyword ++ gap) after line := by
  obtain ⟨gap', tail, rfl, blank, -⟩ := h.opens
  have brace : isIdentifierChar '{' = false := by decide
  exact ⟨by simp [h.parts], h.blankGap.free_behind fun none => absurd none h.apart,
    blank.free_before fun _ => brace⟩

/-- Another name in the place of the name. -/
theorem Written.retitled {new : Text} (h : Written line lead keyword gap name after) (word : Word new) :
    Written (lead ++ keyword ++ gap ++ new ++ after) lead keyword gap new after :=
  ⟨by simp, h.blank, h.solid, h.blankGap, h.apart, word, h.opens⟩

theorem words_trimmed {body : Text} (h : words body = [keyword, name]) :
    ∃ lead gap gap', body = lead ++ keyword ++ (gap ++ name ++ gap') ∧ Blank lead ∧ Word keyword ∧
      Blank gap ∧ gap ≠ [] ∧ Word name ∧ Blank gap' := by
  obtain ⟨lead, gap, gap', first, second, apart, none⟩ := words_eq_cons_cons h
  exact ⟨lead, gap, gap', first.parts, first.blank, first.solid, second.blank, apart, second.solid,
    words_eq_nil_iff.mp none⟩

theorem ofLine?_eq_some (h : ofLine? line = some header) : ∃ lead keyword gap after,
    Written line lead keyword gap header.name after ∧ BlockKind.ofKeyword? keyword = some header.kind := by
  simp only [ofLine?] at h
  split at h
  · rename_i brace
    split at h
    · rename_i keyword name two
      obtain ⟨kind, keywordEq, rfl⟩ := Option.map_eq_some_iff.mp h
      obtain ⟨front, tail, whole, blankFront, blankTail⟩ := trim_parts line
      obtain ⟨body, trimmed⟩ := List.getLast?_eq_some_iff.mp brace
      rw [trimmed, List.dropLast_concat] at two
      obtain ⟨lead, gap, gap', bodyEq, blankLead, solid, blankGap, apart, word, blankGap'⟩ :=
        words_trimmed two
      refine ⟨front ++ lead, keyword, gap, gap' ++ '{' :: tail, ⟨?_, ?_, solid, blankGap, apart, word,
        gap', tail, rfl, blankGap', blankTail⟩, keywordEq⟩
      · rw [whole, trimmed, bodyEq]
        simp
      · exact fun c member => (List.mem_append.mp member).elim (blankFront c) (blankLead c)
    · contradiction
  · contradiction

theorem ofLine?_of_written (h : Written line lead keyword gap name after)
    (keywordEq : BlockKind.ofKeyword? keyword = some kind) : ofLine? line = some ⟨kind, name⟩ := by
  obtain ⟨gap', tail, rfl, blankGap', blankTail⟩ := h.opens
  obtain ⟨c, r, rfl, solid⟩ := h.solid.head
  have whole : line = lead ++ (c :: (r ++ gap ++ name ++ gap') ++ ['{']) ++ tail := by
    rw [h.parts]
    simp
  have trimmed : trim line = c :: (r ++ gap ++ name ++ gap') ++ ['{'] := by
    rw [whole]
    exact trim_eq h.blank blankTail solid (by decide)
  have two : words ((c :: (r ++ gap ++ name ++ gap') ++ ['{']).dropLast) = [c :: r, name] := by
    have body : (c :: (r ++ gap ++ name ++ gap') ++ ['{']).dropLast =
        [] ++ (c :: r) ++ (gap ++ name ++ gap') := by
      rw [List.dropLast_concat]
      simp
    rw [body, words_two (by simp [Blank]) h.solid h.blankGap h.apart h.word blankGap'.parted,
      words_of_blank blankGap']
  simp only [ofLine?, trimmed, List.getLast?_concat, ↓reduceIte, two, keywordEq, Option.map_some]

theorem ofLine?_eq_some_iff_words : ofLine? line = some header ↔
    ∃ keyword, BlockKind.ofKeyword? keyword = some header.kind ∧ Word header.name ∧
      (words line = [keyword, header.name ++ ['{']] ∨ words line = [keyword, header.name, ['{']]) := by
  constructor
  · intro h
    obtain ⟨lead, keyword, gap, after, written, keywordEq⟩ := ofLine?_eq_some h
    refine ⟨keyword, keywordEq, written.word, ?_⟩
    rw [written.firstWord.words, List.append_assoc, words_blank_append written.blankGap]
    obtain ⟨gap', tail, rfl, blankGap', blankTail⟩ := written.opens
    have brace : Word ['{'] := ⟨by simp, solid_of_all (by decide)⟩
    cases gap' with
    | nil =>
      have joined : Word (header.name ++ ['{']) := written.word.enclosed (s := []) (by simp) brace.2
      left
      rw [List.nil_append, List.append_cons, words_word_append joined blankTail.parted,
        words_of_blank blankTail]
    | cons c r =>
      right
      rw [words_word_append written.word (parted_gap blankGap' (by simp) _), words_blank_append blankGap',
        ← List.singleton_append (l := tail), words_word_append brace blankTail.parted,
        words_of_blank blankTail]
  · rintro ⟨keyword, keywordEq, name, joined | apart⟩
    · obtain ⟨lead, gap, tail, rfl, blankLead, solid, blankGap, gapped, -, blankTail⟩ := words_trimmed joined
      have written : Written (lead ++ keyword ++ (gap ++ (header.name ++ ['{']) ++ tail)) lead keyword gap
          header.name ('{' :: tail) :=
        ⟨by simp, blankLead, solid, blankGap, gapped, name, [], tail, rfl, by simp [Blank], blankTail⟩
      exact ofLine?_of_written written keywordEq
    · obtain ⟨lead, gap, rest, first, second, gapped, others⟩ := words_eq_cons_cons apart
      obtain ⟨gap', tail, brace, none⟩ := words_eq_cons others
      have written : Written line lead keyword gap header.name (gap' ++ '{' :: tail) :=
        ⟨by rw [first.parts, brace.parts]; simp, first.blank, first.solid, second.blank, gapped, name,
          gap', tail, rfl, brace.blank, words_eq_nil_iff.mp none⟩
      exact ofLine?_of_written written keywordEq

/-- A run without a brace in the place of another, behind the first word, opens no block. -/
theorem isOpening_replaced {line line' lead name front back old new : Text} (solid : Word old)
    (fresh : Word new) (unbraced : '{' ∉ new) (first : FirstWord line lead name (front ++ old ++ back))
    (second : FirstWord line' lead name (front ++ new ++ back)) (unopened : isOpening line = false) :
    isOpening line' = false := by
  obtain ⟨ws, u, v, ws', solidU, solidV, before, after⟩ := words_replaced solid fresh front back
  rw [isOpening, Option.isSome_eq_false_iff, Option.isNone_iff_eq_none,
    Option.eq_none_iff_forall_ne_some] at unopened ⊢
  intro header opens
  obtain ⟨keyword, keywordEq, named, two⟩ := ofLine?_eq_some_iff_words.mp opens
  rw [second.words, after] at two
  have was := first.words.trans (congrArg (name :: ·) before)
  cases ws with
  | nil =>
    rcases two with joined | apart
    · obtain ⟨rfl, whole, rfl⟩ : name = keyword ∧ u ++ new ++ v = header.name ++ ['{'] ∧ ws' = [] := by
        simpa using joined
      rcases List.eq_nil_or_concat v with rfl | ⟨v', d, rfl⟩
      · obtain ⟨new', d, rfl⟩ := (List.eq_nil_or_concat new).resolve_left fresh.1
        rw [List.append_nil, List.concat_eq_append, ← List.append_assoc] at whole
        obtain ⟨-, rfl⟩ := List.append_singleton_inj.mp whole
        simp at unbraced
      · rw [List.concat_eq_append, ← List.append_assoc] at whole
        obtain ⟨-, rfl⟩ := List.append_singleton_inj.mp whole
        refine unopened ⟨header.kind, u ++ old ++ v'⟩ (ofLine?_eq_some_iff_words.mpr
          ⟨name, keywordEq, solid.enclosed solidU fun c member => solidV c (by simp [member]), .inl ?_⟩)
        rw [was]
        simp
    · obtain ⟨rfl, whole, rfl⟩ : name = keyword ∧ u ++ new ++ v = header.name ∧ ws' = [['{']] := by
        simpa using apart
      exact unopened ⟨header.kind, u ++ old ++ v⟩ (ofLine?_eq_some_iff_words.mpr
        ⟨name, keywordEq, solid.enclosed solidU solidV, .inr was⟩)
  | cons w ws =>
    rcases two with joined | apart
    · simp at joined
    · cases ws with
      | nil =>
        obtain ⟨-, -, whole, -⟩ : name = keyword ∧ w = header.name ∧ u ++ new ++ v = ['{'] ∧ ws' = [] := by
          simpa using apart
        obtain ⟨c, r, rfl⟩ := List.exists_cons_of_ne_nil fresh.1
        have brace : c ∈ ['{'] := by
          rw [← whole]
          simp
        obtain rfl := List.mem_singleton.mp brace
        simp at unbraced
      | cons => simp at apart

end Header

theorem isClosing_eq (line : Text) :
    isClosing line = decide ((words line).head?.bind List.head? = some '}') := by
  rw [isClosing, head?_trim]

theorem startsAttribute_eq (line : Text) :
    startsAttribute line = decide ((words line).head?.bind List.head? = some '@') := by
  rw [startsAttribute, head?_trim]

theorem startsComment_eq (line : Text) :
    startsComment line = (words line).head?.any "//".toList.isPrefixOf :=
  isPrefixOf_trim ⟨by decide, solid_of_all (by decide)⟩ line

theorem not_keyword_of_brace {r : Text} : BlockKind.ofKeyword? ('}' :: r) = none := by
  rfl

/-- No line both opens and closes a block. -/
theorem isClosing_of_header (h : Header.ofLine? line = some header) : isClosing line = false := by
  obtain ⟨keyword, keywordEq, -, two⟩ := Header.ofLine?_eq_some_iff_words.mp h
  have first : (words line).head? = some keyword := by rcases two with two | two <;> rw [two] <;> rfl
  rw [isClosing_eq, first, decide_eq_false_iff_not]
  intro closes
  cases keyword with
  | nil => simp at closes
  | cons c r =>
    obtain rfl : c = '}' := by simpa using closes
    rw [not_keyword_of_brace] at keywordEq
    contradiction

end SchemaServer
