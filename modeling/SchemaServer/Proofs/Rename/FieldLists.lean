import SchemaServer.Proofs.Rename.ForeignLists
import SchemaServer.Proofs.Rename.Mentions
import SchemaServer.Proofs.Text.Elements

/-! What a field rename makes of the field lists of its model. The search takes the first place of a list where the
name stands, whatever stands there: the elements come out renamed one by one where that place opens an element and
the name opens no other. -/
namespace SchemaServer

open Text

variable {doc : Document} {block : Block} {label name newName line : Text} {row : Nat}
variable {lead between items head tail rest before after : Text}

/-- A list of the model's own fields on a line of its body: what follows the bracket behind the label, up to a closing
bracket. -/
structure OwnList (doc : Document) (block : Block) (row : Nat) (line label lead between items rest : Text) : Prop where
  there : doc.line? row = some line
  inside : block.bodyContains row = true
  labelled : label = ownFieldsLabel ∧ mentions line relationAttribute = true ∨
    fieldListAttributes.find? (mentions line ·) = some label
  parts : line = lead ++ between ++ '[' :: items ++ ']' :: rest
  starts : label <+: between
  first : ∀ front back, line = front ++ label ++ back → lead.length ≤ front.length
  opening : '[' ∉ between

/-- A search ends at the name behind `before`: in its own list at the first place of the name, if no closing bracket
comes before it, or in a list of another label that leads here. -/
def Found (block : Block) (name line : Text) (row : Nat) (label lead between items before : Text) : Prop :=
  (']' ∉ before ∧ ∀ front back, Stands name front back items → before.length ≤ front.length) ∨
    ∃ other ∈ searchedLabels block name line row, other ≠ label ∧
      placeInList? line other name = some (byteLength (lead ++ between ++ '[' :: before))

/-- The rename of a field changes each line on its own. -/
theorem line?_fieldReferences (there : doc.line? row = some line) (name newName : Text) (filled : newName ≠ [])
    (plain : Identifying newName) (block : Block) (version : Int) :
    (Document.ofText (doc.apply (fieldReferences name newName doc block)) version).line? row =
      some (Edit.applyOn ((fieldReferences name newName doc block).filter fun e => e.range.start.line = row) line) := by
  exact Document.line?_apply (fun e member => fieldReferences_within (plain.word filled) member) there version

/-! ## Where the search in a list ends -/

section Names

variable (identifying : Identifying name) (nonempty : name ≠ [])

include identifying

theorem Text.Stands.not_across {a b : Text} {c : Char} (other : isIdentifierChar c = false)
    (stands : Stands name before after (a ++ c :: b)) (starts : before.length ≤ a.length) :
    (before ++ name).length ≤ a.length := by
  obtain ⟨m, rfl⟩ : before <+: a := List.prefix_of_prefix_length_le
    ⟨name ++ after, by rw [stands.parts, List.append_assoc]⟩ (List.prefix_append a (c :: b)) starts
  have behind : name ++ after = m ++ c :: b := by
    have parts := stands.parts
    simp only [List.append_assoc, List.append_cancel_left_eq] at parts
    exact parts.symm
  rcases List.append_eq_append_iff.mp behind with ⟨k, rfl, -⟩ | ⟨k, rfl, later⟩
  · simp
  · cases k with
    | nil => simp
    | cons d k =>
      obtain ⟨rfl, -⟩ := List.cons.inj later
      rw [identifying c (by simp)] at other
      contradiction

/-- Up to its first closing bracket a list has the same places as all of it. -/
theorem stands_up_to_iff (whole : items = head ++ tail) (open' : ']' ∉ head)
    (closes : tail = [] ∨ tail.head? = some ']') :
    (∃ back, Stands name before back head) ↔ ']' ∉ before ∧ ∃ back, Stands name before back items := by
  have bracket : isIdentifierChar ']' = false := not_identifier_of_punctuation (by decide)
  have free : tail.head?.any isIdentifierChar = false := by
    rcases closes with rfl | closing
    · rfl
    · rw [closing]
      exact bracket
  constructor
  · rintro ⟨back, stands⟩
    have inside : before <+: head := ⟨name ++ back, by rw [stands.parts, List.append_assoc]⟩
    refine ⟨fun member => open' (inside.subset member), back ++ tail, ?_, stands.free_before, ?_⟩
    · rw [whole, stands.parts, List.append_assoc]
    · cases back with
      | nil => exact free
      | cons c r => exact stands.free_after
  · rintro ⟨clear, back, stands⟩
    obtain ⟨back', rfl⟩ : before ++ name <+: head := by
      rcases closes with rfl | closing
      · exact ⟨back, by rw [← stands.parts, whole, List.append_nil]⟩
      · obtain ⟨more, rfl⟩ := List.head?_eq_some_iff.mp closing
        have reach := stands.parts
        rw [whole] at reach stands
        have starts : before.length ≤ head.length := by
          by_contra longer
          have beyond : head ++ [']'] <+: before := by
            refine List.prefix_of_prefix_length_le (List.append_cons head ']' more ▸ List.prefix_append _ more)
              ⟨name ++ back, by rw [reach, List.append_assoc]⟩ ?_
            rw [List.length_append, List.length_singleton]
            omega
          exact clear (beyond.subset (by simp))
        exact List.prefix_of_prefix_length_le ⟨back, reach.symm⟩ (List.prefix_append _ _)
          (stands.not_across identifying bracket starts)
    have parts : back = back' ++ tail := by
      have parts := stands.parts
      rw [whole, List.append_assoc, List.append_cancel_left_eq] at parts
      exact parts.symm
    refine ⟨back', rfl, stands.free_before, ?_⟩
    have freeAfter := stands.free_after
    rw [parts] at freeAfter
    cases back' with
    | nil => rfl
    | cons c r => exact freeAfter

end Names

namespace OwnList

variable (list : OwnList doc block row line label lead between items rest)

include list

theorem searched (mentioned : mentions line name = true) : label ∈ searchedLabels block name line row := by
  refine List.mem_append_left _ ?_
  rw [ownLabels, list.inside, mentioned, Bool.and_self, if_pos rfl]
  rcases list.labelled with ⟨rfl, relation⟩ | found
  · simp [relation]
  · simp [found]

theorem bracketed : ∃ head tail rest', items = head ++ tail ∧ ']' ∉ head ∧ (tail = [] ∨ tail.head? = some ']') ∧
    Bracketed label line lead between head rest' := by
  have clear : ']' ∉ items.takeWhile (· ≠ ']') := by
    intro member
    have := List.mem_takeWhile_imp member
    contradiction
  have split := List.takeWhile_append_dropWhile (p := (· ≠ ']')) (l := items)
  have stop := List.head?_dropWhile_not (· ≠ ']') items
  generalize items.takeWhile (· ≠ ']') = head at split clear
  generalize items.dropWhile (· ≠ ']') = tail at split stop
  obtain ⟨closes, rest', behind⟩ : (tail = [] ∨ tail.head? = some ']') ∧
      ∃ rest', tail ++ ']' :: rest = ']' :: rest' := by
    cases tail with
    | nil => exact ⟨.inl rfl, rest, rfl⟩
    | cons c r =>
      obtain rfl : c = ']' := by simpa using stop
      exact ⟨.inr rfl, r ++ ']' :: rest, rfl⟩
  have parts : line = lead ++ between ++ '[' :: head ++ ']' :: rest' := by
    rw [list.parts, ← split, ← behind]
    simp
  have labelled : label <+: between ++ '[' :: head ++ ']' :: rest' := by
    rw [List.append_assoc]
    exact list.starts.trans (List.prefix_append _ _)
  exact ⟨head, tail, rest', split.symm, clear, closes, parts, labelled, list.first, list.opening, clear⟩

theorem inLine (stands : Stands name before after items) : lead ++ between ++ '[' :: before <+: line :=
  ⟨name ++ after ++ ']' :: rest, by rw [list.parts, stands.parts]; simp⟩

section Names

variable (identifying : Identifying name) (nonempty : name ≠ [])

include identifying nonempty

/-- The search in the list ends at the first place of the name in front of all closing brackets. -/
theorem placeInList?_iff (stands : Stands name before after items) :
    placeInList? line label name = some (byteLength (lead ++ between ++ '[' :: before)) ↔
      ']' ∉ before ∧ ∀ front back, Stands name front back items → before.length ≤ front.length := by
  obtain ⟨head, tail, rest', whole, clear, closes, bracketed⟩ := list.bracketed
  have upTo : ∀ {front : Text}, (∃ back, Stands name front back head) ↔
      ']' ∉ front ∧ ∃ back, Stands name front back items := stands_up_to_iff identifying whole clear closes
  constructor
  · intro found
    have sound := found
    rw [bracketed.placeInList?] at sound
    obtain ⟨-, front, back, -, -, size, inner⟩ := findIdentifier_sound sound
    have reach : front <+: line := by
      rw [bracketed.parts]
      exact List.IsPrefix.trans ⟨name ++ back, by rw [inner.parts, List.append_assoc]⟩ (List.prefix_append _ _)
    obtain rfl := byteLength_inj reach (list.inLine stands) size
    obtain ⟨inner, same, inHead⟩ := (stands_in_list_iff identifying nonempty ⟨'[' :: before, rfl⟩).mp inner
    obtain rfl : before = inner := by simpa using same
    refine ⟨(upTo.mp ⟨back, inHead⟩).1, fun front back' stands' => ?_⟩
    by_cases early : ']' ∈ front
    · -- a place behind the first closing bracket is behind the whole list that was read
      have inItems : front <+: head ++ tail := ⟨name ++ back', by rw [← whole, stands'.parts, List.append_assoc]⟩
      rcases List.prefix_or_prefix_of_prefix inItems (List.prefix_append head tail) with inside | beyond
      · exact absurd (inside.subset early) clear
      · refine Nat.le_trans ?_ beyond.length_le
        rw [inHead.parts]
        simp
    · obtain ⟨back'', stands''⟩ := upTo.mpr ⟨early, back', stands'⟩
      exact (placeInList?_eq_some_iff identifying nonempty bracketed inHead).mp found front back'' stands''
  · rintro ⟨early, first⟩
    obtain ⟨back, inHead⟩ := upTo.mpr ⟨early, after, stands⟩
    refine (placeInList?_eq_some_iff identifying nonempty bracketed inHead).mpr fun front back' stands' => ?_
    obtain ⟨-, back'', stands''⟩ := upTo.mp ⟨back', stands'⟩
    exact first front back'' stands''

/-- A place of the list is a mention that the rename edits where a search ends at it. -/
theorem found_iff (stands : Stands name before after items) :
    Mention.places (fieldMentions block name line row) (lead ++ between ++ '[' :: before) ↔
      Found block name line row label lead between items before := by
  have mentioned : mentions line name = true := by
    obtain ⟨more, parts⟩ := list.inLine stands
    refine mentions_iff.mpr ⟨lead ++ between ++ '[' :: before, after ++ ']' :: rest, ?_⟩
    rw [list.parts, stands.parts]
    simp
  rw [fieldMentions, places_listMentions_iff (fun label searched => searchedLabels_plain searched)
    (list.inLine stands), Found, ← list.placeInList?_iff identifying nonempty stands]
  constructor
  · rintro ⟨other, searched, found⟩
    by_cases same : other = label
    · exact .inl (same ▸ found)
    · exact .inr ⟨other, searched, same, found⟩
  · rintro (found | ⟨other, searched, -, found⟩)
    · exact ⟨label, list.searched mentioned, found⟩
    · exact ⟨other, searched, found⟩

/-- What the edits of the line make of the list, as a swap of the name at the mentions in it. -/
theorem swapped (apart : ((fieldReferences name newName doc block).filter fun e =>
      e.range.start.line = row).Pairwise Edit.Apart) :
    Swapped (fun before => Mention.places (fieldMentions block name line row)
        (lead ++ between ++ '[' :: before)) name newName [] items
      (Edit.stretchOn ((fieldReferences name newName doc block).filter fun e => e.range.start.line = row) line
        (lead ++ between ++ ['[']) items) := by
  have on := fun x (member : x ∈ fieldMentions block name line row) => fieldMentions_on member
  rw [filter_row_fieldReferences list.there] at apart ⊢
  rw [Edit.stretchOn, Mention.map_changeOn on]
  have clear := Mention.clear_of_apart on apart
  have across : ∀ {a b : Text} {c : Char}, isIdentifierChar c = false → line = a ++ c :: b →
      ∀ x ∈ fieldMentions block name line row, x.front.length ≤ a.length →
        (x.place ++ name ++ x.trail).length ≤ a.length := by
    intro a b c other parts x member starts
    obtain ⟨back, stands⟩ := on x member
    obtain ⟨lead, trail⟩ := listMentions_bare member
    rw [parts] at stands
    rw [trail, List.append_nil]
    exact stands.not_across identifying other (by simpa [Mention.place, lead] using starts)
  have parts : line = (lead ++ between ++ ['[']) ++ (items ++ ']' :: rest) := by
    rw [list.parts]
    simp
  have swapped : Swapped (Mention.places (fieldMentions block name line row)) name newName
      (lead ++ between ++ ['[']) items (Change.rewrite
        ((fieldMentions block name line row).map (Mention.change name newName))
        (lead ++ between ++ ['[']).length items) := by
    refine Mention.rewrite_swapped nonempty clear on parts (fun x member below => ?_) fun x member below => ?_
    · have before := across (a := lead ++ between) (b := items ++ ']' :: rest)
        (not_identifier_of_punctuation (c := '[') (by decide)) (parts.trans (by simp)) x member
        (by rw [List.length_append, List.length_singleton] at below; exact Nat.le_of_lt_succ below)
      exact Nat.le_trans before (List.prefix_append _ ['[']).length_le
    · exact across (a := lead ++ between ++ ['['] ++ items) (b := rest)
        (not_identifier_of_punctuation (c := ']') (by decide)) (parts.trans (by simp)) x member (Nat.le_of_lt below)
  rw [← List.append_nil (lead ++ between ++ ['['])] at swapped
  simpa using swapped.rebase

end Names

end OwnList

/-- When a field rename rewrites a list element by element: each element that starts with the name is where a search
ends, and no search ends anywhere else in the list. -/
theorem fieldList_renamed_iff (identifier : isIdentifier name = true) (accepted : checkNewName newName = .ok ())
    (list : OwnList doc block row line label lead between items rest)
    (apart : ((fieldReferences name newName doc block).filter fun e => e.range.start.line = row).Pairwise Edit.Apart)
    (version : Int) :
    let edits := (fieldReferences name newName doc block).filter fun e => e.range.start.line = row
    let renamed := Edit.stretchOn edits line (lead ++ between ++ ['[']) items
    (Document.ofText (doc.apply (fieldReferences name newName doc block)) version).line? row =
        some (Edit.stretchOn edits line [] (lead ++ between ++ ['[']) ++ renamed ++
          Edit.stretchOn edits line (lead ++ between ++ ['['] ++ items) (']' :: rest)) ∧
      (renamed = renameElements name newName items ↔ newName = name ∨ ∀ before after, Stands name before after items →
        ((ListReader.start.after before).fresh = true ↔
          Found block name line row label lead between items before)) := by
  obtain ⟨nonempty, identifying⟩ := isIdentifier_parts identifier
  obtain ⟨filled, plain⟩ := checkNewName_ok accepted
  intro edits renamed
  have on := fun x (member : x ∈ fieldMentions block name line row) => fieldMentions_on member
  have made : Swapped _ name newName [] items renamed := list.swapped identifying nonempty apart
  have spec := swapped_renameElements identifying nonempty newName items
  have free : Free fun before => Mention.places (fieldMentions block name line row)
      (lead ++ between ++ '[' :: before) := by
    simpa using (Mention.free_places on).behind (lead ++ between ++ ['['])
  constructor
  · have parts : line = lead ++ between ++ ['['] ++ items ++ ']' :: rest := by
      rw [list.parts]
      simp
    have ending : Change.written (edits.map (Edit.changeOn line)) line.length = [] := by
      dsimp only [edits]
      rw [filter_row_fieldReferences list.there, Mention.map_changeOn on, Mention.written_end nonempty on]
    rw [line?_fieldReferences list.there name newName filled plain, Edit.applyOn_stretches parts, ending,
      List.append_nil]
  · by_cases differ : newName = name
    · rw [differ] at made spec
      rw [differ]
      exact iff_of_true (made.eq_self.trans spec.eq_self.symm) (.inl rfl)
    rw [made.eq_iff_marks identifying nonempty plain filled free (Opens.free items) differ spec, or_iff_right differ]
    refine forall₃_congr fun before after stands => ?_
    rw [opens_iff_fresh stands, list.found_iff identifying nonempty stands]
    exact Iff.comm

/-- An element with an argument, behind another element. -/
theorem fieldList_renamed_iff_index :
    let doc := Document.ofText ("model User \x7b\n  id Int @id\n  name String\n".toList ++
      "  @@index([name, id(sort: Desc)])\n\x7d\n".toList) 0
    let user : Block := ⟨.model, "User".toList, ⟨0, 0⟩, ⟨4, 1⟩, true⟩
    let between := "@@index(".toList
    let items := "name, id(sort: Desc)".toList
    let line := "  @@index([name, id(sort: Desc)])".toList
    OwnList doc user 3 line "@@index".toList "  ".toList between items [')'] ∧
      (Document.ofText (doc.apply (fieldReferences "id".toList "key".toList doc user)) 1).line? 3 =
        some "  @@index([name, key(sort: Desc)])".toList ∧
      ∀ before after, Stands "id".toList before after items → ((ListReader.start.after before).fresh = true ↔
        Found user "id".toList line 3 "@@index".toList "  ".toList between items before) := by
  intro doc user between items line
  have split : splitAtFirst? "@@index".toList line = some ("  ".toList, between ++ '[' :: items ++ ']' :: [')']) := by
    decide +kernel
  have list : OwnList doc user 3 line "@@index".toList "  ".toList between items [')'] :=
    ⟨by decide +kernel, by decide, .inr (by decide +kernel), by decide +kernel, by decide,
      (splitAtFirst?_eq_some_iff.mp split).2.2, by decide⟩
  have identifier : isIdentifier "id".toList = true := by decide +kernel
  have accepted : checkNewName "key".toList = .ok () := by decide +kernel
  obtain ⟨made, agree⟩ := fieldList_renamed_iff identifier accepted list (by decide +kernel) 1
  exact ⟨list, made.trans (by decide +kernel), (agree.mp (by decide +kernel)).resolve_left (by decide)⟩

/-- A label in an element in front is edited in the place of the element. -/
theorem fieldList_renamed_label :
    let doc := Document.ofText ("model User \x7b\n  name String\n  sort Int\n".toList ++
      "  @@index([name(sort: Desc), sort])\n\x7d\n".toList) 0
    let user : Block := ⟨.model, "User".toList, ⟨0, 0⟩, ⟨4, 1⟩, true⟩
    let between := "@@index(".toList
    let items := "name(sort: Desc), sort".toList
    let line := "  @@index([name(sort: Desc), sort])".toList
    let edits := fieldReferences "sort".toList "rank".toList doc user
    doc.symbolAt? ⟨2, 3⟩ = some ⟨.field, "sort".toList, user, 2⟩ ∧ isIdentifier "sort".toList = true ∧
      checkNewName "rank".toList = .ok () ∧
      OwnList doc user 3 line "@@index".toList "  ".toList between items [')'] ∧ edits.Pairwise Edit.Apart ∧
      renameElements "sort".toList "rank".toList items = "name(sort: Desc), rank".toList ∧
      Edit.stretchOn (edits.filter fun e => e.range.start.line = 3) line ("  ".toList ++ between ++ ['[']) items =
        "name(rank: Desc), sort".toList := by
  intro doc user between items line edits
  have split : splitAtFirst? "@@index".toList line = some ("  ".toList, between ++ '[' :: items ++ ']' :: [')']) := by
    decide +kernel
  have list : OwnList doc user 3 line "@@index".toList "  ".toList between items [')'] :=
    ⟨by decide +kernel, by decide, .inr (by decide +kernel), by decide +kernel, by decide,
      (splitAtFirst?_eq_some_iff.mp split).2.2, by decide⟩
  exact ⟨by decide +kernel, by decide +kernel, by decide +kernel, list, by decide +kernel, by decide +kernel,
    by decide +kernel⟩

end SchemaServer
