import SchemaServer.Proofs.Edit.Swap
import SchemaServer.Proofs.Rename.Overlap

/-! The edits that renames of fields and enum values make on a line, as mentions of the old name. -/
namespace SchemaServer

open Text

variable {doc : Document} {symbol : Symbol} {block : Block} {name newName line before : Text} {row : Nat}

/-! ## Searched lists -/

/-- The places of a line that the searches behind some labels end at. -/
def listMentions (line : Text) (labels : List Text) (name : Text) : List Mention :=
  labels.filterMap fun label => (placeInList? line label name).map fun n => ⟨takeBytes n line, [], []⟩

section Mentions

variable {labels : List Text} (plain : ∀ label ∈ labels, Word label ∧ '[' ∉ label)

include plain

omit plain in
theorem placeInList?_cut {label : Text} {n : Nat} (plain : Word label ∧ '[' ∉ label)
    (place : placeInList? line label name = some n) :
    ∃ after, Stands name (takeBytes n line) after line ∧ byteLength (takeBytes n line) = n := by
  obtain ⟨before, after, stands, rfl, -⟩ := placeInList?_stands plain.1 plain.2 place
  have cut : takeBytes (byteLength before) line = before := by
    rw [stands.parts, List.append_assoc, takeBytes_byteLength]
  rw [cut]
  exact ⟨after, stands, rfl⟩

theorem listMentions_on {x : Mention} (member : x ∈ listMentions line labels name) :
    x.On name line ∧ ∃ label ∈ labels, placeInList? line label name = some (byteLength x.place) := by
  obtain ⟨label, labelled, found⟩ := List.mem_filterMap.mp member
  obtain ⟨n, place, rfl⟩ := Option.map_eq_some_iff.mp found
  obtain ⟨after, stands, size⟩ := placeInList?_cut (plain label labelled) place
  rw [Mention.On, Mention.place, List.append_nil, size]
  exact ⟨⟨after, stands⟩, label, labelled, place⟩

omit plain in
theorem listMentions_bare {x : Mention} (member : x ∈ listMentions line labels name) : x.lead = [] ∧ x.trail = [] := by
  obtain ⟨label, -, found⟩ := List.mem_filterMap.mp member
  obtain ⟨n, -, rfl⟩ := Option.map_eq_some_iff.mp found
  exact ⟨rfl, rfl⟩

theorem listEdits_eq (row : Nat) (newName : Text) : listEdits row line labels name newName =
    (listMentions line labels name).map (Mention.edit row line name newName) := by
  rw [listEdits, listMentions, List.map_filterMap]
  refine List.filterMap_congr fun label labelled => ?_
  rw [editInList?_eq, Option.map_map]
  cases place : placeInList? line label name with
  | none => rfl
  | some n =>
    obtain ⟨after, -, size⟩ := placeInList?_cut (plain label labelled) place
    simp [Mention.edit, renameEdit, size]

theorem places_listMentions_iff (inLine : before <+: line) : Mention.places (listMentions line labels name) before ↔
    ∃ label ∈ labels, placeInList? line label name = some (byteLength before) := by
  constructor
  · rintro ⟨x, member, rfl⟩
    exact (listMentions_on plain member).2
  · rintro ⟨label, labelled, found⟩
    refine ⟨⟨takeBytes (byteLength before) line, [], []⟩,
      List.mem_filterMap.mpr ⟨label, labelled, by rw [found, Option.map_some]⟩, ?_⟩
    obtain ⟨after, rfl⟩ := inLine
    simp [Mention.place, takeBytes_byteLength]

end Mentions

def fieldMentions (block : Block) (name line : Text) (row : Nat) : List Mention :=
  listMentions line (searchedLabels block name line row) name

theorem fieldMentions_on {x : Mention} (member : x ∈ fieldMentions block name line row) : x.On name line :=
  (listMentions_on (fun _ searched => searchedLabels_plain searched) member).1

theorem filter_row_fieldReferences (there : doc.line? row = some line) :
    ((fieldReferences name newName doc block).filter fun e => e.range.start.line = row) =
      (fieldMentions block name line row).map (Mention.edit row line name newName) := by
  rw [fieldMentions, ← listEdits_eq fun label searched => searchedLabels_plain searched,
    ← filter_onRow_fieldReferences there]
  refine List.filter_congr fun e member => ?_
  obtain ⟨row', line', there', listed⟩ := mem_fieldReferences_iff.mp member
  have onRow := listEdits_onRow listed
  simp only [Edit.OnRow, onRow.1, onRow.2, and_self]

theorem fieldReferences_within (solid : Word newName) {e : Edit}
    (member : e ∈ fieldReferences name newName doc block) : e.Within doc := by
  obtain ⟨row, line, there, listed⟩ := mem_fieldReferences_iff.mp member
  obtain ⟨label, -, n, -, rfl⟩ := mem_listEdits_iff.mp listed
  exact onRow_ofSpan.within (Document.lt_lineCount there) solid.1 solid.unbroken

/-! ## Default values -/

def defaultLead : Text := "@default(".toList

def enumValueEdit? (name newName enumName : Text) (x : Text × Nat) : Option Edit := do
  let (before, _) ← splitAtFirst? (defaultCall name) x.1
  let _ ← findIdentifier x.1 enumName 0
  return ⟨.ofSpan x.2 x.1 (byteLength before) (byteLength before + byteLength (defaultCall name)), defaultCall newName⟩

variable {enumName : Text}

theorem enumValueReferences_eq (name newName : Text) (doc : Document) (enumName : Text) :
    enumValueReferences name newName doc enumName =
      doc.rows.flatMap fun x => (enumValueEdit? name newName enumName x).toList :=
  List.filterMap_eq_flatMap_toList _ _

theorem defaultCall_eq (value : Text) : defaultCall value = defaultLead ++ value ++ [')'] := rfl

theorem enumValueEdit?_eq_some {e : Edit} (edit : enumValueEdit? name newName enumName (line, row) = some e) :
    ∃ before after, line = before ++ defaultCall name ++ after ∧
      (∀ front back, line = front ++ defaultCall name ++ back → before.length ≤ front.length) ∧
      e = ⟨.ofSpan row line (byteLength before) (byteLength before + byteLength (defaultCall name)),
        defaultCall newName⟩ := by
  simp only [enumValueEdit?, Option.bind_eq_bind, Option.pure_def, Option.bind_eq_some_iff, Prod.exists,
    Option.some.injEq] at edit
  obtain ⟨before, found, split, n, -, rfl⟩ := edit
  obtain ⟨parts, ⟨after, rfl⟩, first⟩ := splitAtFirst?_eq_some_iff.mp split
  exact ⟨before, after, by rw [← parts, List.append_assoc], first, rfl⟩

theorem enumValueEdit?_mention {e : Edit} (edit : enumValueEdit? name newName enumName (line, row) = some e) :
    ∃ x : Mention, e = x.edit row line name newName ∧ x.On name line ∧ x.lead = defaultLead := by
  obtain ⟨before, after, parts, -, rfl⟩ := enumValueEdit?_eq_some edit
  rw [defaultCall_eq, defaultCall_eq]
  refine ⟨⟨before, defaultLead, [')']⟩, rfl, ⟨after, ?_, ?_, not_identifier_of_punctuation (by decide)⟩, rfl⟩
  · rw [parts, defaultCall_eq]
    simp [Mention.place]
  · have opening : isIdentifierChar '(' = false := not_identifier_of_punctuation (by decide)
    have last : (Mention.place ⟨before, defaultLead, [')']⟩).getLast? = some '(' := by
      rw [Mention.place, List.getLast?_append]
      rfl
    rw [last, Option.any_some, opening]

theorem filter_row_enumValueReferences (there : doc.line? row = some line) :
    ((enumValueReferences name newName doc enumName).filter fun e => e.range.start.line = row) =
      (enumValueEdit? name newName enumName (line, row)).toList := by
  have onRow : ∀ x ∈ doc.rows, ∀ e ∈ (enumValueEdit? name newName enumName x).toList, e.OnRow x.2 := by
    intro x _ e edit
    obtain ⟨y, rfl, -⟩ := enumValueEdit?_mention (Option.mem_toList.mp edit)
    exact onRow_ofSpan
  rw [enumValueReferences_eq, ← filter_onRow_flatMap onRow there]
  refine List.filter_congr fun e member => ?_
  obtain ⟨x, inRows, edit⟩ := List.mem_flatMap.mp member
  have onRow := onRow x inRows e edit
  simp only [Edit.OnRow, onRow.1, onRow.2, and_self]

/-! ## Fields and enum values -/

theorem filter_row_references (noName : symbol.kind.isBlockName = false) (there : doc.line? row = some line)
    (newName : Text) : ∃ mentions : List Mention,
    ((symbol.references newName doc).filter fun e => e.range.start.line = row) =
        mentions.map (Mention.edit row line symbol.name newName) ∧
      ∀ x ∈ mentions, x.On symbol.name line ∧ (x.lead = [] ∨ x.lead = defaultLead) := by
  unfold Symbol.references
  cases kind : symbol.kind with
  | model | enum =>
    rw [kind] at noName
    contradiction
  | field =>
    exact ⟨_, filter_row_fieldReferences there, fun x member =>
      ⟨fieldMentions_on member, .inl (listMentions_bare member).1⟩⟩
  | enumValue =>
    dsimp only
    rw [filter_row_enumValueReferences there]
    cases edit : enumValueEdit? symbol.name newName symbol.block.name (line, row) with
    | none => exact ⟨[], rfl, nofun⟩
    | some e =>
      obtain ⟨x, rfl, on, lead⟩ := enumValueEdit?_mention edit
      exact ⟨[x], rfl, by simpa using ⟨on, .inr lead⟩⟩

/-- The references of a field or an enum value lie within lines of the document. -/
theorem references_within (noName : symbol.kind.isBlockName = false) (solid : Word newName) {e : Edit}
    (member : e ∈ symbol.references newName doc) : e.Within doc := by
  unfold Symbol.references at member
  cases kind : symbol.kind with
  | model | enum =>
    rw [kind] at noName
    contradiction
  | field =>
    rw [kind] at member
    exact fieldReferences_within solid member
  | enumValue =>
    rw [kind] at member
    dsimp only at member
    rw [enumValueReferences_eq] at member
    obtain ⟨⟨line, row⟩, inRows, edit⟩ := List.mem_flatMap.mp member
    have there := Document.mem_rows_iff.mp inRows
    obtain ⟨before, after, -, -, rfl⟩ := enumValueEdit?_eq_some (Option.mem_toList.mp edit)
    have word : Word (defaultCall newName) := solid.enclosed (solid_of_all (by decide)) (solid_of_all (by decide))
    exact onRow_ofSpan.within (Document.lt_lineCount there) word.1 word.unbroken

end SchemaServer
