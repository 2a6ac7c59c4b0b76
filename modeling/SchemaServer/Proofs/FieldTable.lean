import Mathlib.Data.List.Basic
import SchemaServer.Completion
import SchemaServer.Proofs.Field
import SchemaServer.Proofs.Guarded.Text
import SchemaServer.Proofs.Symbol

/-! The table of fields of a model and the symbols under the cursor agree. A row has an entry just if it has a type and
its first word is a field symbol, so what relation completion offers can be renamed. -/
namespace SchemaServer

open Text

variable {doc : Document} {b : Block} {field : Field} {symbol : Symbol} {pos : Position}
variable {line front args needle s found : Text} {row column : Nat}

/-! ## Columns of the first word -/

def Text.OnFirstWord (line : Text) (column : Nat) : Prop :=
  ∃ lead word rest, FirstWord line lead word rest ∧ unitLength lead ≤ column ∧ column ≤ unitLength (lead ++ word)

theorem onFirstWord_iff : onFirstWord line column = true ↔ line.OnFirstWord column := by
  constructor
  · intro onWord
    rcases blank_or_firstWord line with blank | ⟨lead, word, rest, first⟩
    · simp [onFirstWord, firstWordSpan_of_blank blank] at onWord
    · exact ⟨lead, word, rest, first, first.onFirstWord_iff.mp onWord⟩
  · rintro ⟨lead, word, rest, first, ends⟩
    exact first.onFirstWord_iff.mpr ends

theorem Text.FirstWord.start_onFirstWord {lead word rest : Text} (first : FirstWord line lead word rest) :
    line.OnFirstWord (unitLength lead) :=
  ⟨lead, word, rest, first, Nat.le_refl _, by rw [unitLength_append]; omega⟩

theorem exists_onFirstWord (typed : 2 ≤ (words line).length) : ∃ column, line.OnFirstWord column := by
  rcases blank_or_firstWord line with blank | ⟨lead, word, rest, first⟩
  · simp [words_of_blank blank] at typed
  · exact ⟨_, first.start_onFirstWord⟩

/-! ## Rows of a model -/

/-- The line can declare a field: it is no attribute and no comment. -/
def declares (line : Text) : Bool := !startsAttribute line && !startsComment line

namespace Field

theorem ofLine?_isSome_iff : (ofLine? line row).isSome = true ↔ declares line = true ∧ 2 ≤ (words line).length := by
  rw [Option.isSome_iff_exists]
  constructor
  · rintro ⟨field, read⟩
    obtain ⟨noAttribute, noComment, -, token, ws, two, -⟩ := ofLine?_eq_some_iff.mp read
    simp [declares, noAttribute, noComment, two]
  · rintro ⟨plain, two⟩
    simp only [declares, Bool.and_eq_true, Bool.not_eq_true'] at plain
    obtain ⟨name, token, ws, whole⟩ : ∃ name token ws, words line = name :: token :: ws := by
      match words line, two with
      | name :: token :: ws, _ => exact ⟨name, token, ws, rfl⟩
    exact ⟨⟨name, stripTypeModifiers token, row⟩,
      ofLine?_eq_some_iff.mpr ⟨plain.1, plain.2, rfl, token, ws, whole, rfl⟩⟩

theorem name_of_ofLine? (read : ofLine? line row = some field) : (words line).head? = some field.name := by
  obtain ⟨-, -, -, token, ws, two, -⟩ := ofLine?_eq_some_iff.mp read
  rw [two]
  rfl

end Field

theorem blockAt?_body (member : b ∈ doc.blocks) (inside : b.bodyContains row = true) : doc.blockAt? row = some b :=
  Document.blockAt?_eq_some_iff.mpr ⟨member, Block.containsLine_of_bodyContains inside⟩

theorem classify?_body (model : b.kind = .model) (inside : b.bodyContains row = true) :
    SymbolKind.classify? ⟨row, column⟩ line b =
      if declares line && onFirstWord line column then some .field else none := by
  have below := (Block.bodyContains_bounds inside).1
  unfold SymbolKind.classify?
  simp only [model, inside, Bool.true_and]
  rw [if_neg (by omega)]
  rfl

/-- On the rows of a model body, the symbols are the first words of lines that can declare a field. -/
theorem symbolAt?_body (member : b ∈ doc.blocks) (model : b.kind = .model) (inside : b.bodyContains row = true)
    (there : doc.line? row = some line) : doc.symbolAt? ⟨row, column⟩ = some symbol ↔
      declares line = true ∧ line.OnFirstWord column ∧
        ∃ name, (words line).head? = some name ∧ symbol = ⟨.field, name, b, row⟩ := by
  have named : SymbolKind.field.currentName? b line = (words line).head? := rfl
  simp only [Document.symbolAt?, there, blockAt?_body member inside, classify?_body model inside,
    Option.bind_eq_bind, Option.bind_some, Option.pure_def, ← onFirstWord_iff]
  by_cases plain : declares line = true
  · by_cases onWord : onFirstWord line column = true
    · simp only [plain, onWord, Bool.and_self, if_true, Option.bind_some, named, Option.bind_eq_some_iff,
        Option.some.injEq, true_and, eq_comm (b := symbol)]
    · simp [onWord]
  · simp [plain]

def Document.FieldAt (doc : Document) (row column : Nat) : Prop :=
  ∃ symbol, doc.symbolAt? ⟨row, column⟩ = some symbol ∧ symbol.kind = .field

/-- All along the first word of the row of an entry, the cursor is on the field of that name. -/
theorem symbolAt?_of_mem_fields (member : b ∈ doc.blocks) (model : b.kind = .model) (owned : field ∈ b.fields doc) :
    b.bodyContains field.line = true ∧ ∃ line, doc.line? field.line = some line ∧ 2 ≤ (words line).length ∧
      ∀ column, line.OnFirstWord column →
        doc.symbolAt? ⟨field.line, column⟩ = some ⟨.field, field.name, b, field.line⟩ := by
  obtain ⟨line, there, inside, read⟩ := Block.mem_fields_iff.mp owned
  obtain ⟨plain, typed⟩ := Field.ofLine?_isSome_iff.mp (Option.isSome_iff_exists.mpr ⟨field, read⟩)
  exact ⟨inside, line, there, typed, fun column onWord =>
    (symbolAt?_body member model inside there).mpr ⟨plain, onWord, _, Field.name_of_ofLine? read, rfl⟩⟩

/-- A row of a model body with a type has an entry in the table if a column of its first word is on a field. -/
theorem exists_field_of_fieldAt (member : b ∈ doc.blocks) (model : b.kind = .model)
    (inside : b.bodyContains row = true) (there : doc.line? row = some line) (typed : 2 ≤ (words line).length)
    (onField : doc.FieldAt row column) : ∃ field ∈ b.fields doc, field.line = row := by
  obtain ⟨symbol, found, -⟩ := onField
  have plain := ((symbolAt?_body member model inside there).mp found).1
  have entry : (Field.ofLine? line row).isSome = true := Field.ofLine?_isSome_iff.mpr ⟨plain, typed⟩
  obtain ⟨field, read⟩ := Option.isSome_iff_exists.mp entry
  obtain ⟨-, -, rfl, -⟩ := Field.ofLine?_eq_some_iff.mp read
  exact ⟨field, Block.mem_fields_iff.mpr ⟨line, there, inside, read⟩, rfl⟩

/-! ## Fields by their symbols -/

/-- The name of the field that the first word of a row declares, if it has a type. -/
def Document.typedFieldAt? (doc : Document) (row : Nat) : Option Text := do
  let line ← doc.line? row
  let (start, _) ← firstWordSpan line
  let symbol ← doc.symbolAt? ⟨row, columnAt line start⟩
  if symbol.kind = .field ∧ 2 ≤ (words line).length then some symbol.name else none

theorem typedFieldAt?_of_firstWord {lead word rest : Text} (there : doc.line? row = some line)
    (first : FirstWord line lead word rest) : doc.typedFieldAt? row =
      (doc.symbolAt? ⟨row, unitLength lead⟩).bind fun symbol =>
        if symbol.kind = .field ∧ 2 ≤ (words line).length then some symbol.name else none := by
  have start : columnAt line (byteLength lead) = unitLength lead := by
    rw [first.parts, List.append_assoc, columnAt_append]
  simp only [Document.typedFieldAt?, there, first.span, start, Option.bind_eq_bind, Option.bind_some]

theorem typedFieldAt?_body (member : b ∈ doc.blocks) (model : b.kind = .model) (inside : b.bodyContains row = true)
    (there : doc.line? row = some line) : doc.typedFieldAt? row = (Field.ofLine? line row).map Field.name := by
  have entry : (Field.ofLine? line row).isSome = true ↔ _ := Field.ofLine?_isSome_iff
  rcases blank_or_firstWord line with blank | ⟨lead, word, rest, first⟩
  · rw [words_of_blank blank, List.length_nil] at entry
    have none : Field.ofLine? line row = none :=
      Option.not_isSome_iff_eq_none.mp fun read => by simpa using entry.mp read
    simp [Document.typedFieldAt?, there, firstWordSpan_of_blank blank, none]
  · have onWord := first.start_onFirstWord
    have named : (words line).head? = some word := by rw [first.words]; rfl
    rw [typedFieldAt?_of_firstWord there first]
    cases read : Field.ofLine? line row with
    | none =>
      refine Option.bind_eq_none_iff.mpr fun symbol found => if_neg fun typed => ?_
      have plain := ((symbolAt?_body member model inside there).mp found).1
      simpa [read] using entry.mpr ⟨plain, typed.2⟩
    | some field =>
      obtain ⟨plain, two⟩ := entry.mp (by simp [read])
      have same := Option.some.inj ((Field.name_of_ofLine? read).symm.trans named)
      rw [(symbolAt?_body member model inside there).mpr ⟨plain, onWord, word, named, rfl⟩]
      simp [two, same]

theorem typedFieldAt?_outside (member : b ∈ doc.blocks) (inBlock : b.containsLine row = true)
    (outside : b.bodyContains row = false) : doc.typedFieldAt? row = none := by
  refine Option.eq_none_iff_forall_ne_some.mpr fun name typed => ?_
  simp only [Document.typedFieldAt?, Option.bind_eq_bind, Option.bind_eq_some_iff,
    Option.ite_none_right_eq_some] at typed
  obtain ⟨line, -, _, -, symbol, found, ⟨field, -⟩, -⟩ := typed
  obtain ⟨onRow, owner, -⟩ := Document.symbolAt?_eq_some_iff.mp found
  have body := ((Document.symbolAt?_declared found).inside (by rw [field]; rfl)).1
  obtain ⟨member', inBlock'⟩ := Document.blockAt?_eq_some_iff.mp owner
  rw [Document.block_unique member' member inBlock' inBlock, onRow, outside] at body
  contradiction

/-- The names in the table are those of the fields with a type, row by row. -/
theorem names_fields (member : b ∈ doc.blocks) (model : b.kind = .model) (row : Nat) :
    ((b.fields doc).filter (·.line ≠ row)).map Field.name =
      ((List.range doc.lineCount).filter fun n => b.containsLine n && n ≠ row).filterMap doc.typedFieldAt? := by
  have rows : List.range doc.lineCount = doc.rows.map Prod.snd := by
    simp [Document.rows, Document.lineCount, List.range_eq_range']
  rw [rows, List.filter_map, List.filterMap_map, Block.fields, Block.body_eq_filter, List.filter_filterMap,
    List.map_filterMap, List.filterMap_filter, List.filterMap_filter]
  refine List.filterMap_congr fun x here => ?_
  obtain ⟨line, n⟩ := x
  have there := Document.mem_rows_iff.mp here
  dsimp only [Function.comp]
  by_cases inside : b.bodyContains n = true
  · have inBlock := Block.containsLine_of_bodyContains inside
    rw [typedFieldAt?_body member model inside there]
    cases read : Field.ofLine? line n with
    | none => simp
    | some field =>
      obtain ⟨-, -, rfl, -⟩ := Field.ofLine?_eq_some_iff.mp read
      by_cases own : field.line = row <;> simp [inside, inBlock, own]
  · by_cases inBlock : b.containsLine n = true
    · simp [inside, typedFieldAt?_outside member inBlock (Bool.eq_false_iff.mpr inside)]
    · simp [inside, inBlock]

/-! ## Relation completion -/

/-- The text ends in an `@relation(` that nothing closes. -/
def InsideRelation (before : Text) : Prop :=
  ∃ front args, before = front ++ "@relation(".toList ++ args ∧ ')' ∉ args

theorem suffix_of_fromLast? (last : fromLast? needle s = some found) : found <:+ s := by
  obtain ⟨before, parts, -⟩ := Guarded.lastTextAt?_of_some last
  exact ⟨before, parts.symm⟩

theorem exists_fromLast? (front : Text) (starts : needle <+: s) :
    ∃ found, fromLast? needle (front ++ s) = some found ∧ found <:+ s := by
  induction front with
  | nil =>
    have occurs := List.isPrefixOf_iff_prefix.mpr starts
    cases s with
    | nil => exact ⟨[], by simpa [fromLast?] using occurs, List.suffix_rfl⟩
    | cons c r =>
      rw [List.nil_append, fromLast?]
      cases last : fromLast? needle r with
      | none => exact ⟨c :: r, if_pos occurs, List.suffix_rfl⟩
      | some found => exact ⟨found, rfl, (suffix_of_fromLast? last).trans (List.suffix_cons c r)⟩
  | cons c r ih =>
    obtain ⟨found, last, inside⟩ := ih
    exact ⟨found, by rw [List.cons_append, fromLast?, last], inside⟩

theorem InsideRelation.insideRelation (within : InsideRelation s) : Completion.insideRelation s = true := by
  obtain ⟨front, args, rfl, unclosed⟩ := within
  have starts : "@relation(".toList <+: "@relation(".toList ++ args := List.prefix_append _ args
  obtain ⟨found, last, inside⟩ := exists_fromLast? front starts
  have absent : ')' ∉ "@relation(".toList ++ args := by
    rw [List.mem_append, not_or]
    exact ⟨by decide, unclosed⟩
  rw [List.append_assoc, Completion.insideRelation, last]
  simpa using fun member => absent (inside.subset member)

/-- On a body row completion looks at the block, the text before the cursor, the run without blanks that ends there and
the words in front of it. -/
theorem completionsAt_body {lead token : Text} (member : b ∈ doc.blocks) (inside : b.bodyContains pos.line = true)
    (there : doc.line? pos.line = some line) (before : takeWithin unitSize pos.character line = lead ++ token)
    (apart : ∀ c, lead.getLast? = some c → isBlank c = true) (solid : ∀ c ∈ token, isBlank c = false) :
    doc.completionsAt pos = Completion.inBlock doc b pos.line (lead ++ token) token (words lead).length := by
  have bounds := Block.bodyContains_iff.mp inside
  have between : ¬ (pos.line = b.start.line || (b.terminated && pos.line = b.stop.line)) = true := by
    simp only [Bool.or_eq_true, decide_eq_true_eq, Bool.and_eq_true]
    rintro (atStart | ⟨ended, atStop⟩)
    · omega
    · simp [ended] at bounds
      omega
  have complete : (lead ++ token).take ((lead ++ token).length - token.length) = lead := by
    rw [List.length_append, Nat.add_sub_cancel, List.take_left]
  simp only [Document.completionsAt, there, blockAt?_body member inside, before, takeWhile_reverse_solid apart solid,
    complete]
  rw [if_neg between]

theorem completionsAt_insideRelation (member : b ∈ doc.blocks) (model : b.kind = .model)
    (inside : b.bodyContains pos.line = true) (there : doc.line? pos.line = some line)
    (within : InsideRelation (takeWithin unitSize pos.character line)) :
    doc.completionsAt pos = Completion.otherFields doc b pos.line := by
  obtain ⟨lead, token, before, apart, solid⟩ := solidEnd_parts (takeWithin unitSize pos.character line)
  rw [completionsAt_body member inside there before apart solid, ← before]
  simp only [Completion.inBlock, model, within.insideRelation, if_true]

/-- A row of a model body has an entry in the table of fields just if it has a type and its first word is a field
symbol, all along or at any one column. Entry and symbol have the same name, and no row has two entries. So in an open
`@relation(` completion offers the fields with a type on the other rows of the model, in order. -/
theorem fields_renameable (member : b ∈ doc.blocks) (model : b.kind = .model) :
    (∀ row line, b.bodyContains row = true → doc.line? row = some line →
        ((∃ field ∈ b.fields doc, field.line = row) ↔
          2 ≤ (words line).length ∧ ∀ column, line.OnFirstWord column → doc.FieldAt row column) ∧
        ((∃ field ∈ b.fields doc, field.line = row) ↔
          2 ≤ (words line).length ∧ ∃ column, line.OnFirstWord column ∧ doc.FieldAt row column)) ∧
      (∀ field ∈ b.fields doc, b.bodyContains field.line = true ∧ ∃ line, doc.line? field.line = some line ∧
        ∀ column, line.OnFirstWord column →
          doc.symbolAt? ⟨field.line, column⟩ = some ⟨.field, field.name, b, field.line⟩) ∧
      (b.fields doc).Pairwise (fun f g => f.line < g.line) ∧
      ∀ pos line, b.bodyContains pos.line = true → doc.line? pos.line = some line →
        InsideRelation (takeWithin unitSize pos.character line) →
          doc.completionsAt pos =
            (((List.range doc.lineCount).filter fun n => b.containsLine n && n ≠ pos.line).filterMap
              doc.typedFieldAt?).map (⟨·, .field, none⟩) := by
  refine ⟨fun row line inside there => ?_, fun field owned => ?_, b.fields_sorted doc,
    fun pos line inside there within => ?_⟩
  · have entry : (∃ field ∈ b.fields doc, field.line = row) →
        2 ≤ (words line).length ∧ ∀ column, line.OnFirstWord column → doc.FieldAt row column := by
      rintro ⟨field, owned, rfl⟩
      obtain ⟨-, line', there', typed, along⟩ := symbolAt?_of_mem_fields member model owned
      obtain rfl := Option.some.inj (there.symm.trans there')
      exact ⟨typed, fun column onWord => ⟨_, along column onWord, rfl⟩⟩
    refine ⟨⟨entry, ?_⟩, fun owned => ?_, ?_⟩
    · rintro ⟨typed, along⟩
      obtain ⟨column, onWord⟩ := exists_onFirstWord typed
      exact exists_field_of_fieldAt member model inside there typed (along column onWord)
    · obtain ⟨typed, along⟩ := entry owned
      obtain ⟨column, onWord⟩ := exists_onFirstWord typed
      exact ⟨typed, column, onWord, along column onWord⟩
    · rintro ⟨typed, column, -, onField⟩
      exact exists_field_of_fieldAt member model inside there typed onField
  · obtain ⟨inside, line, there, -, along⟩ := symbolAt?_of_mem_fields member model owned
    exact ⟨inside, line, there, along⟩
  · rw [completionsAt_insideRelation member model inside there within, ← names_fields member model, List.map_map]
    rfl

/-- A model without a closing line: the attribute, the comment and the field without a type are not offered. -/
theorem fields_renameable_unterminated :
    let doc := Document.ofText ("model Post \x7b\n  id Int\n  // no field\n  title\n  @@map(\"p\")\n".toList ++
      "  authorId Int\n  author User @relation(fields: [".toList) 0
    let post : Block := ⟨.model, "Post".toList, ⟨0, 0⟩, ⟨6, 33⟩, false⟩
    post ∈ doc.blocks ∧ post.kind = .model ∧ (∃ field ∈ post.fields doc, field.line = 5) ∧
      doc.completionsAt ⟨6, 33⟩ = [⟨"id".toList, .field, none⟩, ⟨"authorId".toList, .field, none⟩] := by
  intro doc post
  have member : post ∈ doc.blocks := by decide +kernel
  obtain ⟨entries, -, -, offers⟩ := fields_renameable member rfl
  have inside : post.bodyContains 5 = true := by decide
  have there : doc.line? 5 = some "  authorId Int".toList := by decide +kernel
  have onField : doc.FieldAt 5 2 := ⟨⟨.field, "authorId".toList, post, 5⟩, by decide +kernel, rfl⟩
  have onWord : Text.OnFirstWord "  authorId Int".toList 2 := onFirstWord_iff.mp (by decide +kernel)
  refine ⟨member, rfl, (entries 5 _ inside there).2.mpr ⟨by decide +kernel, 2, onWord, onField⟩, ?_⟩
  have last : doc.line? (⟨6, 33⟩ : Position).line = some "  author User @relation(fields: [".toList := by
    decide +kernel
  rw [offers ⟨6, 33⟩ _ (by decide) last ⟨"  author User ".toList, "fields: [".toList, by decide +kernel, by decide⟩]
  decide +kernel

end SchemaServer
