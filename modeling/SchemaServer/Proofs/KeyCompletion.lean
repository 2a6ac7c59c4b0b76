import SchemaServer.Proofs.FieldTable

/-! Which keys completion offers in datasources and generators. A body line takes the key in front of its first `=` away
from the offer, and a line without any takes away the key that it is: so a key that stands alone on a line counts as
assigned. -/
namespace SchemaServer

open Text

variable {doc : Document} {b : Block} {pos : Position} {line key : Text} {table : List Text}

def BlockKind.keys : BlockKind → List Text
  | .datasource => Completion.datasourceKeys
  | .generator => Completion.generatorKeys
  | _ => []

/-- The line gives the key a value: the key stands alone in front of the first `=`. -/
def Assigns (line key : Text) : Prop := ∃ front value, line = front ++ '=' :: value ∧ '=' ∉ front ∧ trim front = key

/-- The line holds the key alone, without a `=`. -/
def HoldsOnly (line key : Text) : Prop := '=' ∉ line ∧ trim line = key

/-- No word is complete in front of the cursor: there are blanks and behind them at most the start of one word. -/
def AtFirstWord (before : Text) : Prop :=
  ∃ lead token, before = lead ++ token ∧ Blank lead ∧ ∀ c ∈ token, isBlank c = false

def keyItems (keys : List Text) : List Completion := keys.map (⟨·, .field, none⟩)

/-! ## One line -/

theorem assigns_iff : Assigns line key ↔ '=' ∈ line ∧ Completion.assignedKey line = key := by
  constructor
  · rintro ⟨front, value, rfl, first, rfl⟩
    have kept : ∀ c ∈ front, decide (c ≠ '=') = true := fun c member => by
      simpa using ne_of_mem_of_not_mem member first
    refine ⟨by simp, ?_⟩
    rw [Completion.assignedKey, List.takeWhile_append_of_pos kept, List.takeWhile_cons_of_neg (by decide),
      List.append_nil]
  · rintro ⟨equals, rfl⟩
    have whole := List.takeWhile_append_dropWhile (p := fun c => decide (c ≠ '=')) (l := line)
    cases behind : line.dropWhile fun c => decide (c ≠ '=') with
    | nil =>
      have none := List.dropWhile_eq_nil_iff.mp behind '=' equals
      simp at none
    | cons c value =>
      have first : decide (c ≠ '=') = false := dropWhile_stops (by rw [behind]; rfl)
      obtain rfl : c = '=' := by simpa using first
      rw [behind] at whole
      exact ⟨_, value, whole.symm, fun member => by simpa using List.mem_takeWhile_imp member, rfl⟩

instance (line key : Text) : Decidable (Assigns line key) := decidable_of_iff' _ assigns_iff

instance (line key : Text) : Decidable (HoldsOnly line key) := inferInstanceAs (Decidable (_ ∧ _))

theorem assignedKey_eq_iff : Completion.assignedKey line = key ↔ Assigns line key ∨ HoldsOnly line key := by
  by_cases equals : '=' ∈ line
  · simp [assigns_iff, HoldsOnly, equals]
  · have kept : line.takeWhile (fun c => decide (c ≠ '=')) = line :=
      List.takeWhile_eq_self_iff.mpr fun c member => by simpa using ne_of_mem_of_not_mem member equals
    simp only [assigns_iff, HoldsOnly, equals, false_and, false_or, not_false_eq_true, true_and,
      Completion.assignedKey, kept]

/-! ## The body -/

namespace Block

def Assigned (b : Block) (doc : Document) (key : Text) : Prop := ∃ x ∈ b.body doc, Assigns x.1 key

def Begun (b : Block) (doc : Document) (key : Text) : Prop := ∃ x ∈ b.body doc, HoldsOnly x.1 key

instance (b : Block) (doc : Document) (key : Text) : Decidable (b.Assigned doc key) :=
  inferInstanceAs (Decidable (∃ x ∈ _, _))

instance (b : Block) (doc : Document) (key : Text) : Decidable (b.Begun doc key) :=
  inferInstanceAs (Decidable (∃ x ∈ _, _))

end Block

theorem unassigned_eq (doc : Document) (b : Block) (keys : List Text) :
    Completion.unassigned doc b keys =
      keyItems (keys.filter fun key => ¬ (b.Assigned doc key ∨ b.Begun doc key)) := by
  have read : ∀ key, key ∈ (b.body doc).map (fun x => Completion.assignedKey x.1) ↔
      b.Assigned doc key ∨ b.Begun doc key := by
    intro key
    simp only [List.mem_map, assignedKey_eq_iff, and_or_left, exists_or, Block.Assigned, Block.Begun]
  refine congrArg keyItems (List.filter_congr fun key _ => ?_)
  simp only [List.contains_eq_mem, read, decide_not]

theorem AtFirstWord.completionsAt (first : AtFirstWord (takeWithin unitSize pos.character line))
    (member : b ∈ doc.blocks) (keyed : b.kind = .datasource ∨ b.kind = .generator)
    (inside : b.bodyContains pos.line = true) (there : doc.line? pos.line = some line) :
    doc.completionsAt pos = Completion.unassigned doc b b.kind.keys := by
  obtain ⟨lead, token, before, blank, solid⟩ := first
  have noWords : (words lead).length = 0 := by rw [words_of_blank blank, List.length_nil]
  rw [completionsAt_body member inside there before (fun c last => blank c (List.mem_of_getLast? last)) solid, noWords]
  rcases keyed with kind | kind <;> simp [Completion.inBlock, kind, BlockKind.keys]

/-- Two parts of a table are the same just if they take the same keys. -/
theorem keyItems_filter_eq_iff {p q : Text → Bool} :
    keyItems (table.filter p) = keyItems (table.filter q) ↔ ∀ key ∈ table, p key = q key := by
  have injective : Function.Injective fun key : Text => (⟨key, .field, none⟩ : Completion) :=
    fun _ _ same => congrArg Completion.label same
  constructor
  · intro same key member
    have equal := List.map_injective_iff.mpr injective same
    have taken : key ∈ table.filter p ↔ key ∈ table.filter q := by rw [equal]
    rw [Bool.eq_iff_iff]
    simpa [member] using taken
  · exact fun same => congrArg keyItems (List.filter_congr same)

/-- On a body line of a datasource or a generator with no word complete in front of the cursor, completion offers the
supported keys, in the order of their table, that no line of the body assigns and that stand alone on none. So these
are all keys without an assignment just if each key that stands alone on a line is also assigned on another. -/
theorem keys_offered_iff (member : b ∈ doc.blocks) (keyed : b.kind = .datasource ∨ b.kind = .generator)
    (inside : b.bodyContains pos.line = true) (there : doc.line? pos.line = some line)
    (first : AtFirstWord (takeWithin unitSize pos.character line)) :
    doc.completionsAt pos =
        keyItems (b.kind.keys.filter fun key => ¬ (b.Assigned doc key ∨ b.Begun doc key)) ∧
      (doc.completionsAt pos = keyItems (b.kind.keys.filter fun key => ¬ b.Assigned doc key) ↔
        ∀ key ∈ b.kind.keys, b.Begun doc key → b.Assigned doc key) := by
  have offered := first.completionsAt member keyed inside there
  rw [unassigned_eq] at offered
  refine ⟨offered, ?_⟩
  rw [offered, keyItems_filter_eq_iff]
  refine forall₂_congr fun key _ => ?_
  by_cases assigned : b.Assigned doc key <;> simp [assigned]

/-- A generator without a closing line, with the start of a key under the cursor: the block goes on over the lines
below, where the provider is assigned, and a comment assigns nothing. -/
theorem keys_offered_iff_unterminated :
    let doc := Document.ofText ("generator client \x7b\n  ou\n  // output = none\n".toList ++
      "  provider = \"js\"\nmodel A \x7b\n\x7d\n".toList) 0
    let client : Block := ⟨.generator, "client".toList, ⟨0, 0⟩, ⟨3, 17⟩, false⟩
    client ∈ doc.blocks ∧ client.bodyContains 1 = true ∧ doc.line? 1 = some "  ou".toList ∧
      doc.completionsAt ⟨1, 4⟩ = keyItems ["output".toList] := by
  intro doc client
  have member : client ∈ doc.blocks := by decide +kernel
  have there : doc.line? (⟨1, 4⟩ : Position).line = some "  ou".toList := by decide +kernel
  have first : AtFirstWord (takeWithin unitSize (⟨1, 4⟩ : Position).character "  ou".toList) :=
    ⟨"  ".toList, "ou".toList, by decide +kernel, blank_of_all (by decide), solid_of_all (by decide)⟩
  obtain ⟨-, exact⟩ := keys_offered_iff member (.inr rfl) (by decide) there first
  refine ⟨member, by decide, there, (exact.mpr (by decide +kernel)).trans ?_⟩
  decide +kernel

/-- The key that is being typed is not offered any more once it is complete. -/
theorem keys_offered_begun :
    let doc := Document.ofText "datasource db \x7b\n  url\n\x7d\n".toList 0
    let db : Block := ⟨.datasource, "db".toList, ⟨0, 0⟩, ⟨2, 1⟩, true⟩
    db ∈ doc.blocks ∧ db.bodyContains 1 = true ∧ doc.line? 1 = some "  url".toList ∧
      AtFirstWord (takeWithin unitSize 5 "  url".toList) ∧ ¬ db.Assigned doc "url".toList ∧
      doc.completionsAt ⟨1, 5⟩ = keyItems ["provider".toList] ∧
      keyItems (db.kind.keys.filter fun key => ¬ db.Assigned doc key) =
        keyItems ["provider".toList, "url".toList] := by
  intro doc db
  have first : AtFirstWord (takeWithin unitSize 5 "  url".toList) :=
    ⟨"  ".toList, "url".toList, by decide +kernel, blank_of_all (by decide), solid_of_all (by decide)⟩
  exact ⟨by decide +kernel, by decide, by decide +kernel, first, by decide +kernel, by decide +kernel, by decide +kernel⟩

end SchemaServer
