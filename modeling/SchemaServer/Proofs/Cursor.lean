import SchemaServer.Hover
import SchemaServer.Proofs.Symbol

/-! The word under a cursor. It is the longest stretch without blanks that the offset of the cursor lies in or touches,
so all columns of a word, both ends included, have one word and with it one definition, hover text and enum value. -/
namespace SchemaServer

namespace Text

variable {line lead w rest front stretch back : Text} {byte column : Nat}

/-- A stretch of a line without blanks that a byte offset lies in or touches. -/
structure Touched (line : Text) (byte : Nat) (front stretch back : Text) : Prop where
  parts : line = front ++ stretch ++ back
  solid : ∀ c ∈ stretch, isBlank c = false
  start : byteLength front ≤ byte
  stop : byte ≤ byteLength (front ++ stretch)

structure Longest (line : Text) (byte : Nat) (front stretch back : Text) : Prop extends
    Touched line byte front stretch back where
  longest : ∀ front' stretch' back', Touched line byte front' stretch' back' → stretch'.length ≤ stretch.length

/-- On neither side of a byte offset stands a character that is no blank. -/
def BetweenBlanks (line : Text) (byte : Nat) : Prop :=
  (∀ c, (takeBytes byte line).getLast? = some c → isBlank c = true) ∧
    ∀ c, (dropBytes byte line).head? = some c → isBlank c = true

/-! ## A run and the stretches that meet it -/

/-- A stretch that reaches up to a run does not start in front of it. -/
theorem Run.prefix_front (run : Run line lead w rest) (parts : line = front ++ stretch ++ back)
    (solid : ∀ c ∈ stretch, isBlank c = false) (meets : byteLength lead ≤ byteLength (front ++ stretch)) :
    lead <+: front := by
  have reached : lead <+: front ++ stretch :=
    prefix_of_total_le Char.utf8Size_pos ⟨w ++ rest, by rw [run.parts, List.append_assoc]⟩ ⟨back, parts.symm⟩ meets
  rcases List.prefix_or_prefix_of_prefix reached (List.prefix_append front stretch) with inside | ⟨cut, rfl⟩
  · exact inside
  · have taken : cut <+: stretch := (List.prefix_append_right_inj front).mp reached
    have apart : ∀ c, cut.getLast? = some c → isBlank c = true := fun c last =>
      run.apart c (by rw [List.getLast?_append, last]; rfl)
    have none := eq_nil_of_apart apart fun c member => solid c (taken.subset member)
    simp [none]

/-- A stretch that starts no later than the end of a run does not go on behind it. -/
theorem Run.prefix_end (run : Run line lead w rest) (parts : line = front ++ stretch ++ back)
    (solid : ∀ c ∈ stretch, isBlank c = false) (meets : byteLength front ≤ byteLength (lead ++ w)) :
    front ++ stretch <+: lead ++ w := by
  have started : front <+: lead ++ w :=
    prefix_of_total_le Char.utf8Size_pos ⟨stretch ++ back, by rw [parts, List.append_assoc]⟩ ⟨rest, run.parts.symm⟩
      meets
  rcases List.prefix_or_prefix_of_prefix ⟨back, parts.symm⟩ ⟨rest, run.parts.symm⟩ with inside | ⟨more, longer⟩
  · exact inside
  · obtain ⟨own, same⟩ := started
    have taken : own ++ more = stretch := by
      rw [← same, List.append_assoc] at longer
      exact List.append_cancel_left longer
    have behind : rest = more ++ back := by
      have whole := run.parts.symm.trans parts
      rw [← longer, List.append_assoc _ more] at whole
      exact List.append_cancel_left whole
    have parted : Parted more := fun c first => run.parted c (by rw [behind, List.head?_append, first]; rfl)
    have none := parted.eq_nil fun c member => solid c (by simp [← taken, member])
    simp [← longer, none]

/-- A run that an offset lies in or touches takes in every stretch that the offset lies in or touches. -/
theorem Run.takes_in (run : Run line lead w rest) (start : byteLength lead ≤ byte)
    (stop : byte ≤ byteLength (lead ++ w)) (touched : Touched line byte front stretch back) :
    lead <+: front ∧ front ++ stretch <+: lead ++ w :=
  ⟨run.prefix_front touched.parts touched.solid (start.trans touched.stop),
    run.prefix_end touched.parts touched.solid (touched.start.trans stop)⟩

/-- That run is the one longest stretch there. -/
theorem Run.longest_iff (run : Run line lead w rest) (start : byteLength lead ≤ byte)
    (stop : byte ≤ byteLength (lead ++ w)) :
    Longest line byte front stretch back ↔ front = lead ∧ stretch = w ∧ back = rest := by
  constructor
  · intro longest
    obtain ⟨leads, ends⟩ := run.takes_in start stop longest.toTouched
    have longer := longest.longest lead w rest ⟨run.parts, run.solid, start, stop⟩
    have bound := ends.length_le
    rw [List.length_append, List.length_append] at bound
    obtain rfl : lead = front := leads.eq_of_length_le (by omega)
    obtain rfl : stretch = w := ((List.prefix_append_right_inj lead).mp ends).eq_of_length_le longer
    exact ⟨rfl, rfl, List.append_cancel_left (longest.parts.symm.trans run.parts)⟩
  · rintro ⟨rfl, rfl, rfl⟩
    refine ⟨⟨run.parts, run.solid, start, stop⟩, fun front' stretch' back' touched => ?_⟩
    obtain ⟨leads, ends⟩ := run.takes_in start stop touched
    have later := leads.length_le
    have earlier := ends.length_le
    rw [List.length_append, List.length_append] at earlier
    omega

/-! ## The word at a column -/

theorem exists_run_wordAt (line : Text) (column : Nat) : ∃ lead rest, Run line lead (wordAt line column) rest ∧
    byteLength lead ≤ byteAt line column ∧ byteAt line column ≤ byteLength (lead ++ wordAt line column) := by
  obtain ⟨lead, front, back, rest, run, cut, -⟩ := exists_run line column
  have upTo : lead ++ front <+: lead ++ (front ++ back) := ⟨back, List.append_assoc lead front back⟩
  rw [run.wordAt_cut cut, byteAt, cut]
  exact ⟨lead, rest, run, total_le_of_prefix _ (List.prefix_append lead front), total_le_of_prefix _ upTo⟩

theorem wordAt_eq_nil_iff (line : Text) (column : Nat) :
    wordAt line column = [] ↔ BetweenBlanks line (byteAt line column) := by
  obtain ⟨lead, front, back, rest, run, cut, -⟩ := exists_run line column
  have whole : line = lead ++ front ++ (back ++ rest) := by simp [run.parts]
  have before : takeBytes (byteAt line column) line = lead ++ front := by
    rw [byteAt, cut, whole, takeBytes_byteLength]
  have behind : dropBytes (byteAt line column) line = back ++ rest := by
    rw [byteAt, cut, whole, dropBytes_byteLength]
  rw [run.wordAt_cut cut, BetweenBlanks, before, behind]
  constructor
  · intro empty
    obtain ⟨rfl, rfl⟩ := List.append_eq_nil_iff.mp empty
    exact ⟨by simpa using run.apart, run.parted⟩
  · rintro ⟨apart, parted⟩
    obtain ⟨solidFront, solidBack⟩ := List.forall_mem_append.mp run.solid
    have noFront := eq_nil_of_apart (fun c last => apart c (by rw [List.getLast?_append, last]; rfl)) solidFront
    have noBack := Parted.eq_nil (fun c first => parted c (by rw [List.head?_append, first]; rfl)) solidBack
    rw [noFront, noBack, List.append_nil]

end Text

/-! ## What is read off the word -/

theorem classify?_eq_enumValue_iff {pos : Position} {line : Text} {block : Block} :
    SymbolKind.classify? pos line block = some .enumValue ↔ block.kind = .enum ∧ pos.line ≠ block.start.line ∧
      block.bodyContains pos.line = true ∧ Text.trim line ≠ [] ∧ "@@".toList.isPrefixOf (Text.trim line) = false ∧
      startsComment line = false ∧ (Text.wordAt line pos.character).head? ≠ some '@' := by
  unfold SymbolKind.classify?
  dsimp only
  cases block.kind <;> grind

namespace Document

/-- Two positions with one definition, one hover text and one enum value, if they have any. -/
structure Alike (doc : Document) (p q : Position) : Prop where
  definition : doc.definitionAt? p = doc.definitionAt? q
  hover : doc.hoverAt? p = doc.hoverAt? q
  enumValue : ∀ symbol : Symbol, symbol.kind = .enumValue →
    (doc.symbolAt? p = some symbol ↔ doc.symbolAt? q = some symbol)

theorem alike_of_word {doc : Document} {p q : Position} {line : Text} (there : doc.line? p.line = some line)
    (row : p.line = q.line) (word : Text.wordAt line p.character = Text.wordAt line q.character) : doc.Alike p q := by
  have name : doc.typeNameAt? p = doc.typeNameAt? q := by
    simp only [typeNameAt?, ← row, there, Option.bind_eq_bind, Option.bind_some, word]
  refine ⟨?_, ?_, fun symbol kind => ?_⟩
  · rw [definitionAt?, name, definitionAt?]
  · rw [hoverAt?, name, hoverAt?]
  · simp only [symbolAt?_eq_some_iff, kind, classify?_eq_enumValue_iff, ← row, there, Option.some.injEq,
      exists_eq_left', word]

end Document

namespace Text

/-- The word at a column is the one longest stretch without blanks that the offset of the column lies in or touches. It
stands between blanks or the ends of the line, and it is empty just if the offset does. Every column from its start to
its end has this word, and with it the same definition, hover text and enum value. -/
theorem wordAt_longest (line : Text) (column : Nat) : ∃ lead rest,
    (∀ front stretch back, Longest line (byteAt line column) front stretch back ↔
      front = lead ∧ stretch = wordAt line column ∧ back = rest) ∧
    Run line lead (wordAt line column) rest ∧
    (wordAt line column = [] ↔ BetweenBlanks line (byteAt line column)) ∧
    ∀ other, unitLength lead ≤ other → other ≤ unitLength (lead ++ wordAt line column) →
      wordAt line other = wordAt line column ∧
        ∀ (doc : Document) (row : Nat), doc.line? row = some line → doc.Alike ⟨row, other⟩ ⟨row, column⟩ := by
  obtain ⟨lead, rest, run, start, stop⟩ := exists_run_wordAt line column
  refine ⟨lead, rest, fun front stretch back => run.longest_iff start stop, run, wordAt_eq_nil_iff line column, ?_⟩
  intro other lower upper
  have word := run.wordAt lower upper
  exact ⟨word, fun doc row there => Document.alike_of_word there rfl word⟩

/-- A value with the name of its enum, behind a blank of three bytes. Column 3 is in the middle of a character, and
column 4 is the end of the word. -/
theorem wordAt_longest_wide :
    let doc := Document.ofText "enum 名😀 \x7b\n\u3000名😀\u3000@map(\"x\")\n\x7d\n".toList 0
    let line := "\u3000名😀\u3000@map(\"x\")".toList
    let lead := "\u3000".toList
    let word := "名😀".toList
    let rest := "\u3000@map(\"x\")".toList
    (doc.line? 1 = some line ∧ unitLength lead ≤ 4 ∧ 4 ≤ unitLength (lead ++ wordAt line 3)) ∧
      wordAt line 3 = word ∧ Longest line (byteAt line 3) lead word rest ∧ wordAt line 4 = word ∧
      doc.definitionAt? ⟨1, 4⟩ = some ⟨⟨0, 5⟩, ⟨0, 8⟩⟩ ∧
      doc.hoverAt? ⟨1, 4⟩ = some "```prisma\nenum 名😀\n```".toList ∧
      ∃ symbol, doc.symbolAt? ⟨1, 4⟩ = some symbol ∧ symbol.kind = .enumValue ∧ symbol.name = word := by
  intro doc line lead word rest
  have there : doc.line? 1 = some line := by decide +kernel
  have here : wordAt line 3 = word := by decide +kernel
  have first : FirstWord line lead word rest :=
    ⟨rfl, blank_of_all (by decide), ⟨by decide, solid_of_all (by decide)⟩, fun c head => Option.some.inj head ▸ rfl⟩
  have lower : unitLength lead ≤ 4 := by decide
  have upper : 4 ≤ unitLength (lead ++ wordAt line 3) := by decide +kernel
  obtain ⟨lead', rest', longest, -, -, same⟩ := wordAt_longest line 3
  have found : Longest line (byteAt line 3) lead word rest :=
    (first.run.longest_iff (by decide +kernel) (by decide +kernel)).mpr ⟨rfl, rfl, rfl⟩
  obtain rfl : lead = lead' := ((longest lead word rest).mp found).1
  obtain ⟨again, answers⟩ := same 4 lower upper
  have alike := answers doc 1 there
  refine ⟨⟨there, lower, upper⟩, here, found, again.trans here, ?_, ?_, ?_⟩
  · rw [alike.definition]
    decide +kernel
  · rw [alike.hover]
    decide +kernel
  · let value : Symbol := ⟨.enumValue, word, ⟨.enum, word, ⟨0, 0⟩, ⟨2, 1⟩, true⟩, 1⟩
    exact ⟨value, (alike.enumValue value rfl).mpr (by decide +kernel), rfl, rfl⟩

end Text

end SchemaServer
