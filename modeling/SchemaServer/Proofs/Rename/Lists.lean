import Mathlib.Data.List.Basic
import SchemaServer.Rename
import SchemaServer.Proofs.Block.Layout
import SchemaServer.Proofs.Edit.Apart

/-! Lists in brackets behind a label, and the place that a search in such a list finds. A field rename
searches up to three lists on a line, each by its own label. -/
namespace SchemaServer

open Text

variable {s line label name lead between items rest before found : Text} {c : Char} {row n start stop : Nat}

theorem Text.splitAtFirst?_singleton : splitAtFirst? [c] s = some (before, found) ↔
    c ∉ before ∧ ∃ r, found = c :: r ∧ s = before ++ c :: r := by
  rw [splitAtFirst?_eq_some_iff]
  constructor
  · rintro ⟨parts, ⟨r, rfl⟩, first⟩
    refine ⟨fun member => ?_, r, rfl, parts.symm⟩
    obtain ⟨front, back, rfl⟩ := List.append_of_mem member
    have := first front (back ++ [c] ++ r) (by simp [← parts])
    simp only [List.length_append, List.length_cons] at this
    omega
  · rintro ⟨fresh, r, rfl, parts⟩
    refine ⟨parts.symm, ⟨r, rfl⟩, fun front back whole => ?_⟩
    by_contra shorter
    apply fresh
    have early : front ++ [c] <+: before := by
      refine List.prefix_of_prefix_length_le ⟨back, whole.symm⟩ ⟨c :: r, parts.symm⟩ ?_
      simp only [List.length_append, List.length_singleton]
      omega
    exact early.subset (by simp)

/-- The brackets behind the first `label` of a line and the text between them. -/
structure Bracketed (label line lead between items rest : Text) : Prop where
  parts : line = lead ++ between ++ '[' :: items ++ ']' :: rest
  labelled : label <+: between ++ '[' :: items ++ ']' :: rest
  first : ∀ front back, line = front ++ label ++ back → lead.length ≤ front.length
  opening : '[' ∉ between
  closing : ']' ∉ items

theorem Bracketed.of_split
    (split : splitAtFirst? label line = some (lead, between ++ '[' :: items ++ ']' :: rest))
    (opening : '[' ∉ between) (closing : ']' ∉ items) : Bracketed label line lead between items rest := by
  obtain ⟨parts, labelled, first⟩ := splitAtFirst?_eq_some_iff.mp split
  exact ⟨by simp [← parts], labelled, first, opening, closing⟩

theorem argumentList?_eq_some_iff : argumentList? line label = some (start, stop) ↔
    ∃ lead between items rest, Bracketed label line lead between items rest ∧
      start = byteLength (lead ++ between) ∧ stop = byteLength (lead ++ between ++ '[' :: items) := by
  simp only [argumentList?, Option.bind_eq_bind, Option.pure_def, Option.bind_eq_some_iff,
    Option.some.injEq, Prod.mk.injEq, Prod.exists]
  constructor
  · rintro ⟨lead, labelled, label, between, _, opening, items, _, closing, rfl, rfl⟩
    obtain ⟨noOpening, list, rfl, rfl⟩ := splitAtFirst?_singleton.mp opening
    obtain ⟨noClosing, rest, rfl, listEq⟩ := splitAtFirst?_singleton.mp closing
    cases items with
    | nil => simp at listEq
    | cons c items =>
      obtain ⟨rfl, rfl⟩ := List.cons.inj listEq
      refine ⟨lead, between, items, rest, .of_split (by simpa using label) noOpening ?_, ?_, ?_⟩
      · exact fun member => noClosing (List.mem_cons_of_mem _ member)
      · rw [byteLength_append]
      · rw [byteLength_append, byteLength_append]
  · rintro ⟨lead, between, items, rest, list, rfl, rfl⟩
    refine ⟨lead, between ++ '[' :: items ++ ']' :: rest, ?_, between, '[' :: items ++ ']' :: rest, ?_,
      '[' :: items, ']' :: rest, ?_, ?_, ?_⟩
    · exact splitAtFirst?_eq_some_iff.mpr ⟨by simp [list.parts], list.labelled, list.first⟩
    · exact splitAtFirst?_singleton.mpr ⟨list.opening, _, rfl, by simp⟩
    · exact splitAtFirst?_singleton.mpr ⟨by simp [list.closing], _, rfl, by simp⟩
    · rw [byteLength_append]
    · rw [byteLength_append, byteLength_append]

theorem Bracketed.label_prefix (list : Bracketed label line lead between items rest) (plain : '[' ∉ label) :
    label <+: between := by
  rcases List.prefix_or_prefix_of_prefix list.labelled
    ((List.prefix_append between ('[' :: items)).trans (List.prefix_append _ _)) with inside | ⟨more, labelEq⟩
  · exact inside
  · subst labelEq
    have same := list.labelled
    rw [List.append_assoc, List.prefix_append_right_inj] at same
    cases more with
    | nil => simp
    | cons c r =>
      obtain ⟨rfl, -⟩ := List.cons_prefix_cons.mp same
      simp at plain

def placeInList? (line label name : Text) : Option Nat :=
  (argumentList? line label).bind fun (start, stop) => findIdentifier (takeBytes stop line) name start

theorem editInList?_eq (row : Nat) (line label current newName : Text) :
    editInList? row line label current newName =
      (placeInList? line label current).map (renameEdit row line · current newName) := by
  unfold editInList? placeInList?
  cases argumentList? line label with
  | none => rfl
  | some bounds =>
    simp only [Option.bind_eq_bind, Option.bind_some]
    cases findIdentifier (takeBytes bounds.2 line) current bounds.1 <;> rfl

theorem Bracketed.placeInList? (list : Bracketed label line lead between items rest) (name : Text) :
    placeInList? line label name =
      findIdentifier (lead ++ between ++ '[' :: items) name (byteLength (lead ++ between)) := by
  have here := argumentList?_eq_some_iff.mpr ⟨lead, between, items, rest, list, rfl, rfl⟩
  rw [SchemaServer.placeInList?, here, Option.bind_some]
  dsimp only
  rw [list.parts, takeBytes_byteLength]

theorem placeInList?_stands (solid : Word label) (plain : '[' ∉ label)
    (found : placeInList? line label name = some n) :
    ∃ before after, Stands name before after line ∧ byteLength before = n ∧ ¬ Blank before := by
  obtain ⟨⟨start, stop⟩, list, -⟩ := Option.bind_eq_some_iff.mp found
  obtain ⟨lead, between, items, rest, list, -, -⟩ := argumentList?_eq_some_iff.mp list
  rw [list.placeInList?] at found
  obtain ⟨front, before, after, reach, frontEq, place, stands⟩ := findIdentifier_sound found
  have front : lead ++ between <+: before := by
    have inside : before <+: lead ++ between ++ '[' :: items :=
      ⟨name ++ after, by rw [stands.parts, List.append_assoc]⟩
    refine prefix_of_total_le Char.utf8Size_pos (List.prefix_append _ _) inside ?_
    have := total_le_of_prefix Char.utf8Size reach
    unfold byteLength at *
    omega
  refine ⟨before, after ++ ']' :: rest, ⟨?_, stands.free_before, ?_⟩, place, fun blank => ?_⟩
  · rw [list.parts, stands.parts]
    simp
  · have free := stands.free_after
    cases after with
    | nil => exact not_identifier_of_punctuation (by decide)
    | cons c r => exact free
  · obtain ⟨c, r, rfl, head⟩ := solid.head
    have member : c ∈ before :=
      front.subset (List.mem_append_right lead ((list.label_prefix plain).subset List.mem_cons_self))
    simp [blank c member] at head

/-! ## The lists that a field rename searches -/

section Fields

variable {doc : Document} {block : Block} {newName : Text} {e : Edit}

/-- Labels of lists of the model's own fields on a line. -/
def ownLabels (block : Block) (name line : Text) (row : Nat) : List Text :=
  if block.bodyContains row && mentions line name then
    (if mentions line relationAttribute then [ownFieldsLabel] else []) ++
      (fieldListAttributes.find? (mentions line ·)).toList
  else []

/-- Labels of lists of fields of a model that the line mentions. -/
def foreignLabels (block : Block) (name line : Text) : List Text :=
  if mentions line block.name && mentions line name && mentions line relationAttribute then
    [foreignFieldsLabel] else []

/-- The labels whose lists a rename of field `name` searches on a line. -/
def searchedLabels (block : Block) (name line : Text) (row : Nat) : List Text :=
  ownLabels block name line row ++ foreignLabels block name line

def listEdits (row : Nat) (line : Text) (labels : List Text) (name newName : Text) : List Edit :=
  labels.filterMap (editInList? row line · name newName)

theorem ownFieldEdits_eq : (if block.bodyContains row then ownFieldEdits row line name newName else []) =
    listEdits row line (ownLabels block name line row) name newName := by
  unfold ownFieldEdits ownLabels listEdits
  by_cases inside : block.bodyContains row = true
  · rw [if_pos inside, inside, Bool.true_and]
    by_cases mentioned : mentions line name = true
    · rw [if_pos mentioned, if_pos mentioned, List.filterMap_append]
      refine congrArg₂ (· ++ ·) ?_ ?_
      · by_cases relation : mentions line relationAttribute = true
        · rw [if_pos relation, if_pos relation]
          cases edit : editInList? row line ownFieldsLabel name newName <;> simp [edit]
        · rw [if_neg relation, if_neg relation]
          rfl
      · cases fieldListAttributes.find? (mentions line ·) with
        | none => rfl
        | some label => cases edit : editInList? row line label name newName <;> simp [edit]
    · rw [if_neg mentioned, if_neg mentioned]
      rfl
  · rw [if_neg inside, Bool.eq_false_iff.mpr inside]
    rfl

theorem foreignFieldEdit?_eq : (foreignFieldEdit? row line block.name name newName).toList =
    listEdits row line (foreignLabels block name line) name newName := by
  unfold foreignFieldEdit? foreignLabels listEdits
  split
  · cases edit : editInList? row line foreignFieldsLabel name newName <;> simp [edit]
  · rfl

theorem fieldReferences_eq (name newName : Text) (doc : Document) (block : Block) :
    fieldReferences name newName doc block =
      (doc.rows.flatMap fun x => listEdits x.2 x.1 (ownLabels block name x.1 x.2) name newName) ++
        doc.rows.flatMap fun x => listEdits x.2 x.1 (foreignLabels block name x.1) name newName := by
  have own : ((block.body doc).flatMap fun x => ownFieldEdits x.2 x.1 name newName) =
      doc.rows.flatMap fun x =>
        if block.bodyContains x.2 then ownFieldEdits x.2 x.1 name newName else [] := by
    rw [Block.body_eq_filter]
    induction doc.rows with
    | nil => rfl
    | cons x rest ih =>
      rw [List.filter_cons]
      split
      · rename_i inside
        rw [List.flatMap_cons, List.flatMap_cons, if_pos inside, ih]
      · rename_i outside
        rw [List.flatMap_cons, if_neg outside, ih, List.nil_append]
  unfold fieldReferences
  simp only [own, ownFieldEdits_eq, List.filterMap_eq_flatMap_toList, foreignFieldEdit?_eq]

theorem mem_listEdits_iff {labels : List Text} : e ∈ listEdits row line labels name newName ↔
    ∃ label ∈ labels, ∃ n, placeInList? line label name = some n ∧ e = renameEdit row line n name newName := by
  simp only [listEdits, List.mem_filterMap, editInList?_eq, Option.map_eq_some_iff, eq_comm (a := e)]

theorem mem_fieldReferences_iff : e ∈ fieldReferences name newName doc block ↔ ∃ row line,
    doc.line? row = some line ∧ e ∈ listEdits row line (searchedLabels block name line row) name newName := by
  simp only [fieldReferences_eq, List.mem_append, List.mem_flatMap, Prod.exists, Document.mem_rows_iff,
    searchedLabels, listEdits, List.filterMap_append]
  constructor
  · rintro (⟨line, row, there, member⟩ | ⟨line, row, there, member⟩)
    · exact ⟨row, line, there, .inl member⟩
    · exact ⟨row, line, there, .inr member⟩
  · rintro ⟨row, line, there, member | member⟩
    · exact .inl ⟨line, row, there, member⟩
    · exact .inr ⟨line, row, there, member⟩

theorem searchedLabels_plain {label : Text} (searched : label ∈ searchedLabels block name line row) :
    Word label ∧ '[' ∉ label := by
  have known : label ∈ [ownFieldsLabel, foreignFieldsLabel] ++ fieldListAttributes := by
    rcases List.mem_append.mp searched with own | foreign
    · unfold ownLabels at own
      split at own
      · rcases List.mem_append.mp own with relation | listed
        · split at relation
          · obtain rfl := List.mem_singleton.mp relation
            simp
          · contradiction
        · have := List.mem_of_find?_eq_some (Option.mem_toList.mp listed)
          simp [this]
      · contradiction
    · unfold foreignLabels at foreign
      split at foreign
      · obtain rfl := List.mem_singleton.mp foreign
        simp
      · contradiction
  have table : ([ownFieldsLabel, foreignFieldsLabel] ++ fieldListAttributes).all (fun label =>
      !label.isEmpty && label.all (!isBlank ·) && !label.contains '[') = true := by decide +kernel
  have plain := List.all_eq_true.mp table label known
  simp only [Bool.and_eq_true, Bool.not_eq_true', List.isEmpty_eq_false_iff] at plain
  exact ⟨⟨plain.1.1, solid_of_all plain.1.2⟩, by simpa using plain.2⟩

end Fields

end SchemaServer
