import SchemaServer.Proofs.Edit.Covers
import SchemaServer.Proofs.Guarded.Rename

/-! The type references of a document as a table: the fields of all models in order, one edit for each of them
that has the type and none for the others. -/
namespace SchemaServer

open Text

variable {doc : Document} {b : Block} {field : Field} {current newName : Text} {e : Edit}

/-- The fields of all models, from the top to the bottom. -/
def Document.modelFields (doc : Document) : List Field :=
  (doc.blocks.filter (·.kind = .model)).flatMap (·.fields doc)

/-- `e` writes `newName` over `current` at the start of the type token on the line of the field. -/
structure TypeEdited (doc : Document) (current newName : Text) (field : Field) (e : Edit) : Prop where
  text : e.newText = newName
  row : e.range.start.line = field.line
  token : ∃ line lead gap markers rest, TypeToken line lead field.name gap current markers rest ∧
    e.range.Covers doc (lead ++ field.name ++ gap) current (markers ++ rest)

/-! ## The fields of all models -/

namespace Document

theorem mem_modelFields_iff : field ∈ doc.modelFields ↔
    ∃ b ∈ doc.blocks, b.kind = .model ∧ field ∈ b.fields doc := by
  simp only [modelFields, List.mem_flatMap, List.mem_filter, decide_eq_true_eq, and_assoc]

theorem modelFields_sorted (doc : Document) : doc.modelFields.Pairwise fun f g => f.line < g.line := by
  rw [modelFields, List.pairwise_flatMap]
  refine ⟨fun b _ => b.fields_sorted doc, (doc.blocks_sorted.filter _).imp ?_⟩
  intro b c below f ownedF g ownedG
  have inB := Block.containsLine_iff.mp (Block.containsLine_of_mem_fields ownedF)
  have inC := Block.containsLine_iff.mp (Block.containsLine_of_mem_fields ownedG)
  omega

end Document

/-- The models that a line leads to are all that have something to edit, and they come in order. -/
theorem typeReferences_eq_filterMap (current newName : Text) (doc : Document) :
    typeReferences current newName doc = doc.modelFields.filterMap (typeEdit? doc current newName) := by
  have sorted : (doc.modelFields.filterMap (typeEdit? doc current newName)).Pairwise
      fun e f => e.range.start.line < f.range.start.line := by
    rw [List.pairwise_filterMap]
    refine doc.modelFields_sorted.imp ?_
    intro f g below e edit e' edit'
    rw [(typeEdit?_eq_some edit).1.1, (typeEdit?_eq_some edit').1.1]
    exact below
  refine eq_of_sorted_of_mem_iff (fun e => e.range.start.line) (typeReferences_sorted current newName doc) sorted
    fun e => ?_
  rw [mem_typeReferences_iff, List.mem_filterMap]
  constructor
  · rintro ⟨b, member, model, field, inBlock, edit⟩
    exact ⟨field, Document.mem_modelFields_iff.mpr ⟨b, member, model, inBlock⟩, edit⟩
  · rintro ⟨field, listed, edit⟩
    obtain ⟨b, member, model, inBlock⟩ := Document.mem_modelFields_iff.mp listed
    exact ⟨b, member, model, field, inBlock, edit⟩

/-! ## One edit for each field of the type -/

/-- A field whose type token starts with its type has the start of the token edited. -/
theorem typeEdit?_of_field (valid : checkNewName current = .ok ()) (spelled : doc.SpellsType current)
    (listed : field ∈ doc.modelFields) (typed : field.typeName = current) (newName : Text) :
    ∃ e, typeEdit? doc current newName field = some e ∧ TypeEdited doc current newName field e := by
  obtain ⟨nonempty, plain⟩ := checkNewName_ok valid
  obtain ⟨b, member, model, inBlock⟩ := Document.mem_modelFields_iff.mp listed
  obtain ⟨line, lead, gap, markers, rest, there, token⟩ := spelled.exists_token member model inBlock typed
  exact ⟨_, typeEdit?_at_token newName plain nonempty there token typed, rfl, rfl, line, lead, gap, markers, rest,
    token, Range.covers_ofSpan there token.parts⟩

theorem forall₂_filter_filterMap {α β : Type} {R : α → β → Prop} {chosen : α → Bool} {read : α → Option β}
    {entries : List α} (hits : ∀ x ∈ entries, chosen x = true → ∃ y, read x = some y ∧ R x y)
    (misses : ∀ x ∈ entries, chosen x = false → read x = none) :
    List.Forall₂ R (entries.filter chosen) (entries.filterMap read) := by
  induction entries with
  | nil => exact .nil
  | cons x rest ih =>
    have later := ih (fun y member => hits y (List.mem_cons_of_mem x member))
      fun y member => misses y (List.mem_cons_of_mem x member)
    cases choice : chosen x with
    | true =>
      obtain ⟨y, found, related⟩ := hits x List.mem_cons_self choice
      rw [List.filter_cons_of_pos choice, List.filterMap_cons_some found]
      exact .cons related later
    | false =>
      rw [List.filter_cons_of_neg (by simp [choice]), List.filterMap_cons_none (misses x List.mem_cons_self choice)]
      exact later

/-- The pass over the lines, which skips those without the name and remembers the models it has been to, gives
what a pass over the fields of all models gives: in order, one edit for each field of the type, over the start of
its type token. -/
theorem typeReferences_exact (valid : checkNewName current = .ok ()) (spelled : doc.SpellsType current)
    (newName : Text) :
    Guarded.typeReferences current newName doc = .ok (typeReferences current newName doc) ∧
      typeReferences current newName doc = doc.modelFields.filterMap (typeEdit? doc current newName) ∧
      List.Forall₂ (TypeEdited doc current newName) (doc.modelFields.filter (·.typeName = current))
        (typeReferences current newName doc) ∧
      (typeReferences current newName doc).Pairwise fun e f => e.range.start.line < f.range.start.line := by
  refine ⟨Guarded.typeReferences_eq current newName doc, typeReferences_eq_filterMap current newName doc, ?_,
    typeReferences_sorted current newName doc⟩
  rw [typeReferences_eq_filterMap]
  refine forall₂_filter_filterMap (fun field listed typed => ?_) fun field _ other => ?_
  · exact typeEdit?_of_field valid spelled listed (of_decide_eq_true typed) newName
  · cases edit : typeEdit? doc current newName field with
    | none => rfl
    | some e => exact absurd (typeEdit?_eq_some_iff.mp edit).1 (of_decide_eq_false other)

/-- A relation of a model to itself, and a model without an end with a field named like its type. -/
theorem typeReferences_exact_tags :
    let doc := Document.ofText ("model Tag \x7b\n  id Int @id\n  parent Tag? @relation(\"Tag\") // Tag\n\x7d\n".toList ++
      "model Post \x7b\n  Tag  Tag\n  tags Tag[]?\n  misc TagCount\n  note String @default(\"Tag\")\n".toList) 0
    let tag := "Tag".toList
    let label := "Label".toList
    let parent : Field := ⟨"parent".toList, tag, 2⟩
    let single : Field := ⟨tag, tag, 5⟩
    let tags : Field := ⟨"tags".toList, tag, 6⟩
    checkNewName tag = .ok () ∧ doc.SpellsType tag ∧
      typeReferences tag label doc = [⟨⟨⟨2, 9⟩, ⟨2, 12⟩⟩, label⟩, ⟨⟨⟨5, 7⟩, ⟨5, 10⟩⟩, label⟩, ⟨⟨⟨6, 7⟩, ⟨6, 10⟩⟩, label⟩] ∧
      List.Forall₂ (TypeEdited doc tag label) [parent, single, tags] (typeReferences tag label doc) := by
  intro doc tag label parent single tags
  have valid : checkNewName tag = .ok () := by decide +kernel
  have spelled : doc.SpellsType tag := by decide +kernel
  have listed : doc.modelFields.filter (·.typeName = tag) = [parent, single, tags] := by decide +kernel
  refine ⟨valid, spelled, by decide +kernel, ?_⟩
  rw [← listed]
  exact (typeReferences_exact valid spelled label).2.2.1

end SchemaServer
