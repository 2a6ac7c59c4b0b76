import SchemaServer.Proofs.Field
import SchemaServer.Proofs.Rename.Lists

/-! Which elements of a `references:` list a field rename edits. The scan never looks at the type of the
relation: it is enough that the line mentions the model somewhere, even inside a longer name. -/
namespace SchemaServer

open Text

variable {doc : Document} {block : Block} {field : Field} {name newName line : Text} {row n : Nat}
variable {lead between items rest before after : Text}

/-- `name` is an element of a list whose elements commas set apart. -/
structure Element (name before after items : Text) : Prop where
  parts : items = before ++ name ++ after
  opens : ∃ front gap, before = front ++ gap ∧ Blank gap ∧ (front = [] ∨ front.getLast? = some ',')
  closes : ∃ gap back, after = gap ++ back ∧ Blank gap ∧ (back = [] ∨ back.head? = some ',')

/-- `name` is an element of the `references:` list of a relation on the line of a model field. -/
structure RelationElement (doc : Document) (field : Field) (name line lead between items rest before after : Text) :
    Prop where
  owned : ∃ b ∈ doc.blocks, b.kind = .model ∧ field ∈ b.fields doc
  there : doc.line? field.line = some line
  relation : mentions line relationAttribute = true
  list : Bracketed foreignFieldsLabel line lead between items rest
  element : Element name before after items

/-- A field rename of `block` comes upon the element behind `before`: in the `references:` list of a line that
mentions the model, where no earlier text of the list is the name, or in a list of the model's own fields. -/
def Reached (block : Block) (name line : Text) (row : Nat) (lead between items before : Text) : Prop :=
  (block.name <:+: line ∧ ∀ front back, Stands name front back items → before.length ≤ front.length) ∨
    ∃ label ∈ ownLabels block name line row,
      placeInList? line label name = some (byteLength (lead ++ between ++ '[' :: before))

theorem Element.stands (element : Element name before after items) : Stands name before after items := by
  have comma : isIdentifierChar ',' = false := not_identifier_of_punctuation (by decide)
  obtain ⟨front, gap, rfl, blank, ends⟩ := element.opens
  obtain ⟨gap', back, rfl, blank', starts⟩ := element.closes
  refine ⟨element.parts, blank.free_behind fun _ => ?_, blank'.free_before fun _ => ?_⟩
  · rcases ends with rfl | separated
    · rfl
    · rw [separated]
      exact comma
  · rcases starts with rfl | separated
    · rfl
    · rw [separated]
      exact comma

section List

variable (identifying : Identifying name) (nonempty : name ≠ [])

include identifying nonempty

/-- Where the name stands behind the opening bracket, it stands in the list. -/
theorem stands_in_list_iff {front back : Text} (reach : lead ++ between <+: front) :
    Stands name front back (lead ++ between ++ '[' :: items) ↔
      ∃ inner, front = lead ++ between ++ '[' :: inner ∧ Stands name inner back items := by
  have bracket : isIdentifierChar '[' = false := not_identifier_of_punctuation (by decide)
  constructor
  · intro stands
    obtain ⟨more, rfl⟩ := reach
    have parts := stands.parts
    rw [List.append_assoc (lead ++ between), List.append_assoc (lead ++ between),
      List.append_cancel_left_eq] at parts
    cases more with
    | nil =>
      obtain ⟨c, r, rfl⟩ := List.exists_cons_of_ne_nil nonempty
      obtain ⟨rfl, -⟩ := List.cons.inj parts
      rw [identifying _ List.mem_cons_self] at bracket
      contradiction
    | cons c inner =>
      obtain ⟨rfl, tail⟩ := List.cons.inj parts
      refine ⟨inner, rfl, tail, ?_, stands.free_after⟩
      have free := stands.free_before
      cases last : inner.getLast? with
      | none => rfl
      | some d =>
        rw [List.append_cons, List.getLast?_append, last] at free
        exact free
  · rintro ⟨inner, rfl, stands⟩
    refine ⟨by rw [stands.parts]; simp, ?_, stands.free_after⟩
    have free := stands.free_before
    rw [List.append_cons, List.getLast?_append]
    cases last : inner.getLast? with
    | none => simp [bracket]
    | some d =>
      rw [last] at free
      exact free

theorem placeInList?_eq_some_iff {label : Text} (list : Bracketed label line lead between items rest)
    (stands : Stands name before after items) :
    placeInList? line label name = some (byteLength (lead ++ between ++ '[' :: before)) ↔
      ∀ front back, Stands name front back items → before.length ≤ front.length := by
  have prefixed : ∀ {front back}, Stands name front back items → front <+: items := fun {front back} h =>
    ⟨name ++ back, by rw [h.parts, List.append_assoc]⟩
  obtain ⟨size, bytes⟩ : ∃ size, ∀ front : Text,
      byteLength (lead ++ between ++ '[' :: front) = size + byteLength front :=
    ⟨byteLength (lead ++ between ++ ['[']), fun front => by rw [← byteLength_append, ← List.append_cons]⟩
  have search : ∀ {front back}, Stands name front back items → ∃ m,
      placeInList? line label name = some m ∧ m ≤ byteLength (lead ++ between ++ '[' :: front) := by
    intro front back h
    have lifted : Stands name (lead ++ between ++ '[' :: front) back (lead ++ between ++ '[' :: items) :=
      (stands_in_list_iff identifying nonempty ⟨'[' :: front, rfl⟩).mpr ⟨front, rfl, h⟩
    rw [list.placeInList?]
    exact findIdentifier_least identifying nonempty lifted ⟨'[' :: front, rfl⟩
  constructor
  · intro found front back h
    obtain ⟨m, found', le⟩ := search h
    obtain rfl := Option.some.inj (found.symm.trans found')
    rw [bytes, bytes] at le
    exact (byteLength_le_iff (prefixed stands) (prefixed h)).mp (Nat.le_of_add_le_add_left le)
  · intro first
    obtain ⟨m, found, le⟩ := search stands
    have sound := found
    rw [list.placeInList?] at sound
    obtain ⟨start, front, back, reach, startEq, rfl, h⟩ := findIdentifier_sound sound
    have behind : lead ++ between <+: front := by
      have inList : front <+: lead ++ between ++ '[' :: items :=
        ⟨name ++ back, by rw [h.parts, List.append_assoc]⟩
      refine prefix_of_total_le Char.utf8Size_pos (List.prefix_append _ _) inList ?_
      change byteLength (lead ++ between) ≤ byteLength front
      rw [← startEq]
      exact total_le_of_prefix _ reach
    obtain ⟨inner, rfl, inList⟩ := (stands_in_list_iff identifying nonempty behind).mp h
    have above := (byteLength_le_iff (prefixed stands) (prefixed inList)).mpr (first inner back inList)
    rw [found]
    rw [bytes, bytes] at le ⊢
    congr 1
    omega

end List

theorem renameEdit_inj {front back before after : Text} (here : line = front ++ name ++ back)
    (there : line = before ++ name ++ after)
    (same : renameEdit row line (byteLength front) name newName =
      renameEdit row line (byteLength before) name newName) : byteLength front = byteLength before := by
  have columns : columnAt line (byteLength front) = columnAt line (byteLength before) :=
    congrArg (fun e => e.range.start.character) same
  have near : columnAt line (byteLength front) = unitLength front := by
    rw [here, List.append_assoc, columnAt_append]
  have far : columnAt line (byteLength before) = unitLength before := by
    rw [there, List.append_assoc, columnAt_append]
  rw [near, far] at columns
  have frontIn : front <+: line := ⟨name ++ back, by rw [here, List.append_assoc]⟩
  have beforeIn : before <+: line := ⟨name ++ after, by rw [there, List.append_assoc]⟩
  exact Nat.le_antisymm ((units_le_iff frontIn beforeIn).mp (Nat.le_of_eq columns))
    ((units_le_iff beforeIn frontIn).mp (Nat.le_of_eq columns.symm))

theorem renameEdit_mem_fieldReferences_iff {front back : Text} (there : doc.line? row = some line)
    (here : line = front ++ name ++ back) :
    renameEdit row line (byteLength front) name newName ∈ fieldReferences name newName doc block ↔
      ∃ label ∈ searchedLabels block name line row, placeInList? line label name = some (byteLength front) := by
  rw [mem_fieldReferences_iff]
  constructor
  · rintro ⟨row', line', there', listed⟩
    obtain ⟨label, labelled, n, found, same⟩ := mem_listEdits_iff.mp listed
    obtain rfl : row = row' := congrArg (fun e => e.range.start.line) same
    obtain rfl := Option.some.inj (there.symm.trans there')
    obtain ⟨solid, plain⟩ := searchedLabels_plain labelled
    obtain ⟨front', back', stands, rfl, -⟩ := placeInList?_stands solid plain found
    exact ⟨label, labelled, by rw [found, renameEdit_inj here stands.parts same]⟩
  · rintro ⟨label, labelled, found⟩
    exact ⟨row, line, there, mem_listEdits_iff.mpr ⟨label, labelled, _, found, rfl⟩⟩

theorem mem_foreignLabels_iff {label : Text} (mentioned : mentions line name = true)
    (relation : mentions line relationAttribute = true) :
    label ∈ foreignLabels block name line ↔ block.name <:+: line ∧ label = foreignFieldsLabel := by
  rw [foreignLabels, mentioned, relation, Bool.and_true, Bool.and_true, ← mentions_iff]
  split <;> simp_all

/-- The rename edits just the elements that it reaches. -/
theorem mem_fieldReferences_iff_reached (identifier : isIdentifier name = true)
    (relation : RelationElement doc field name line lead between items rest before after) :
    renameEdit field.line line (byteLength (lead ++ between ++ '[' :: before)) name newName ∈
        fieldReferences name newName doc block ↔
      Reached block name line field.line lead between items before := by
  obtain ⟨nonempty, identifying⟩ := isIdentifier_parts identifier
  have stands := relation.element.stands
  have list := relation.list
  have here : line = lead ++ between ++ '[' :: before ++ name ++ (after ++ ']' :: rest) := by
    rw [list.parts, relation.element.parts]
    simp
  have mentioned : mentions line name = true := mentions_iff.mpr ⟨_, _, here.symm⟩
  have foreign : ∀ label, label ∈ foreignLabels block name line ↔
      block.name <:+: line ∧ label = foreignFieldsLabel := fun label =>
    mem_foreignLabels_iff mentioned relation.relation
  rw [renameEdit_mem_fieldReferences_iff relation.there here]
  simp only [searchedLabels, List.mem_append, foreign, Reached,
    ← placeInList?_eq_some_iff identifying nonempty list stands]
  constructor
  · rintro ⟨label, own | ⟨model, rfl⟩, found⟩
    · exact .inr ⟨label, own, found⟩
    · exact .inl ⟨model, found⟩
  · rintro (⟨model, found⟩ | ⟨label, own, found⟩)
    · exact ⟨_, .inr ⟨model, rfl⟩, found⟩
    · exact ⟨label, .inl own, found⟩

theorem reached_of_type (relation : RelationElement doc field name line lead between items rest before after)
    (typed : field.typeName = block.name) (spelled : doc.SpellsType block.name)
    (first : ∀ front back, Stands name front back items → before.length ≤ front.length) :
    Reached block name line field.line lead between items before := by
  obtain ⟨b, member, model, owned⟩ := relation.owned
  obtain ⟨line', front, gap, markers, rest, there, token⟩ := spelled.exists_token member model owned typed
  obtain rfl := Option.some.inj (relation.there.symm.trans there)
  exact .inl ⟨⟨front ++ field.name ++ gap, markers ++ rest, token.parts.symm⟩, first⟩

/-- When a field rename follows the types of relations: the elements that it reaches are those in lists of
relations to the model. -/
theorem relation_renamed_iff (identifier : isIdentifier name = true)
    (relation : RelationElement doc field name line lead between items rest before after) (newName : Text) :
    (renameEdit field.line line (byteLength (lead ++ between ++ '[' :: before)) name newName ∈
        fieldReferences name newName doc block ↔ field.typeName = block.name) ↔
      (Reached block name line field.line lead between items before ↔ field.typeName = block.name) := by
  rw [mem_fieldReferences_iff_reached identifier relation]

/-- A relation to the model, with the element first in its list. -/
theorem relation_renamed_iff_user :
    let doc := Document.ofText ("model User \x7b\n  id Int @id\n\x7d\nmodel Post \x7b\n".toList ++
      "  author User @relation(fields: [authorId], references: [id])\n\x7d".toList) 0
    let user : Block := ⟨.model, "User".toList, ⟨0, 0⟩, ⟨2, 1⟩, true⟩
    let author : Field := ⟨"author".toList, "User".toList, 4⟩
    let lead := "  author User @relation(fields: [authorId], ".toList
    let between := "references: ".toList
    let line := lead ++ between ++ '[' :: "id".toList ++ ']' :: [')']
    RelationElement doc author "id".toList line lead between "id".toList [')'] [] [] ∧
      (renameEdit author.line line (byteLength (lead ++ between ++ ['['])) "id".toList "userId".toList ∈
          fieldReferences "id".toList "userId".toList doc user ↔ author.typeName = user.name) := by
  intro doc user author lead between line
  have list : Bracketed foreignFieldsLabel line lead between "id".toList [')'] :=
    .of_split (by decide +kernel) (by decide +kernel) (by decide +kernel)
  have element : Element "id".toList [] [] "id".toList :=
    ⟨rfl, ⟨[], [], rfl, by simp [Blank], .inl rfl⟩, ⟨[], [], rfl, by simp [Blank], .inl rfl⟩⟩
  have owned : ∃ b ∈ doc.blocks, b.kind = .model ∧ author ∈ b.fields doc := by decide +kernel
  have relation : RelationElement doc author "id".toList line lead between "id".toList [')'] [] [] :=
    ⟨owned, by decide +kernel, by decide +kernel, list, element⟩
  have spelled : doc.SpellsType user.name := by decide +kernel
  have reached : Reached user "id".toList line author.line lead between "id".toList [] :=
    reached_of_type relation rfl spelled fun _ _ _ => Nat.zero_le _
  have identifier : isIdentifier "id".toList = true := by decide +kernel
  exact ⟨relation, (relation_renamed_iff identifier relation _).mpr (iff_of_true reached rfl)⟩

/-- A relation to another model whose name contains the name of the model is edited too. -/
theorem relation_renamed_other_model :
    let doc := Document.ofText ("model User \x7b\n  id Int @id\n\x7d\nmodel UserProfile \x7b\n  id Int @id\n\x7d\n".toList ++
      "model Account \x7b\n  profile UserProfile @relation(fields: [profileId], references: [id])\n\x7d\n".toList) 0
    let user : Block := ⟨.model, "User".toList, ⟨0, 0⟩, ⟨2, 1⟩, true⟩
    let profile : Field := ⟨"profile".toList, "UserProfile".toList, 7⟩
    let lead := "  profile UserProfile @relation(fields: [profileId], ".toList
    let between := "references: ".toList
    let line := lead ++ between ++ '[' :: "id".toList ++ ']' :: [')']
    doc.symbolAt? ⟨1, 3⟩ = some ⟨.field, "id".toList, user, 1⟩ ∧ isIdentifier user.name = true ∧
      checkNewName "key".toList = .ok () ∧
      RelationElement doc profile "id".toList line lead between "id".toList [')'] [] [] ∧
      ¬ (renameEdit profile.line line (byteLength (lead ++ between ++ ['['])) "id".toList "key".toList ∈
          fieldReferences "id".toList "key".toList doc user ↔ profile.typeName = user.name) := by
  intro doc user profile lead between line
  have list : Bracketed foreignFieldsLabel line lead between "id".toList [')'] :=
    .of_split (by decide +kernel) (by decide +kernel) (by decide +kernel)
  have element : Element "id".toList [] [] "id".toList :=
    ⟨rfl, ⟨[], [], rfl, by simp [Blank], .inl rfl⟩, ⟨[], [], rfl, by simp [Blank], .inl rfl⟩⟩
  have owned : ∃ b ∈ doc.blocks, b.kind = .model ∧ profile ∈ b.fields doc := by decide +kernel
  exact ⟨by decide +kernel, by decide +kernel, by decide +kernel,
    ⟨owned, by decide +kernel, by decide +kernel, list, element⟩, by decide +kernel⟩

end SchemaServer
