import SchemaServer.Proofs.Block.Layout
import SchemaServer.Proofs.Text.Occurrence

/-! Fields by the words of their lines: the name, the type token and the modifiers in the token. -/
namespace SchemaServer

open Text

variable {doc : Document} {b : Block} {field : Field} {line name token new : Text} {row : Nat}

namespace Field

theorem ofLine?_eq_some_iff : ofLine? line row = some field ↔
    startsAttribute line = false ∧ startsComment line = false ∧ field.line = row ∧
      ∃ token ws, words line = field.name :: token :: ws ∧ field.typeName = stripTypeModifiers token := by
  unfold ofLine?
  split
  · rename_i marked
    simp only [Bool.or_eq_true] at marked
    constructor
    · intro h
      contradiction
    · rintro ⟨noAttribute, noComment, -⟩
      simp [noAttribute, noComment] at marked
  · rename_i plain
    simp only [Bool.or_eq_true, not_or, Bool.not_eq_true] at plain
    split
    · rename_i name token ws found
      simp only [Option.some.injEq, plain, true_and]
      constructor
      · rintro rfl
        exact ⟨rfl, token, ws, found, rfl⟩
      · rintro ⟨rfl, token', ws', words', typed⟩
        rw [found] at words'
        obtain ⟨rfl, rfl, rfl⟩ : name = field.name ∧ token = token' ∧ ws = ws' := by simpa using words'
        rw [← typed]
    · rename_i other
      constructor
      · intro h
        contradiction
      · rintro ⟨-, -, -, token, ws, found, -⟩
        exact absurd found (other _ token ws)

/-- The row of a line plays no part in what it declares. -/
theorem ofLine?_row (line : Text) (m n : Nat) :
    ofLine? line n = (ofLine? line m).map fun field => ⟨field.name, field.typeName, n⟩ := by
  unfold ofLine?
  split
  · rfl
  · split <;> rfl

end Field

namespace Block

theorem mem_fields_iff : field ∈ b.fields doc ↔ ∃ line, doc.line? field.line = some line ∧
    b.bodyContains field.line = true ∧ Field.ofLine? line field.line = some field := by
  simp only [fields, List.mem_filterMap, Prod.exists, mem_body_iff]
  constructor
  · rintro ⟨line, row, ⟨found, inside⟩, read⟩
    obtain rfl := (Field.ofLine?_eq_some_iff.mp read).2.2.1
    exact ⟨line, found, inside, read⟩
  · rintro ⟨line, found, inside, read⟩
    exact ⟨line, field.line, ⟨found, inside⟩, read⟩

theorem containsLine_of_mem_fields (member : field ∈ b.fields doc) : b.containsLine field.line = true := by
  obtain ⟨-, -, inside, -⟩ := mem_fields_iff.mp member
  exact containsLine_of_bodyContains inside

theorem fields_sorted (b : Block) (doc : Document) :
    (b.fields doc).Pairwise fun f g => f.line < g.line := by
  rw [fields, List.pairwise_filterMap, body_eq_filter]
  refine (doc.rows_sorted.filter _).imp ?_
  intro x y below f read g read'
  rw [(Field.ofLine?_eq_some_iff.mp read).2.2.1, (Field.ofLine?_eq_some_iff.mp read').2.2.1]
  exact below

end Block

/-! ## Type tokens -/

theorem stripTypeModifiers_append (plain : Identifying name) (token : Text) :
    stripTypeModifiers (name ++ token) = name ++ stripTypeModifiers token := by
  have kept : name.filter (· ≠ '?') = name := by
    refine List.filter_eq_self.mpr fun c member => ?_
    have known := plain c member
    simp only [decide_eq_true_eq]
    rintro rfl
    exact absurd known (by decide)
  rw [stripTypeModifiers, List.filter_append, kept, stripTypeModifiers]
  clear kept
  induction name with
  | nil => rfl
  | cons c r ih =>
    have rest := ih fun d member => plain d (List.mem_cons_of_mem c member)
    have bracket : c ≠ '[' := by
      rintro rfl
      exact absurd (plain _ List.mem_cons_self) (by decide)
    rw [List.cons_append, removeBrackets, rest, List.cons_append]
    intro more open'
    exact absurd open' bracket

/-- A token that names `name` and starts with it goes on with markers only. -/
theorem modifiers_of_strip {markers : Text} (plain : Identifying name)
    (names : stripTypeModifiers (name ++ markers) = name) :
    stripTypeModifiers markers = [] ∧ markers.head?.any isIdentifierChar = false := by
  rw [stripTypeModifiers_append plain] at names
  have names := List.append_right_eq_self.mp names
  refine ⟨names, ?_⟩
  cases markers with
  | nil => rfl
  | cons c r =>
    by_cases question : c = '?'
    · subst question
      change isIdentifierChar '?' = false
      decide
    · by_cases bracket : c = '['
      · subst bracket
        change isIdentifierChar '[' = false
        decide
      · exfalso
        have kept : (c :: r).filter (· ≠ '?') = c :: r.filter (· ≠ '?') :=
          List.filter_cons_of_pos (by simpa using question)
        rw [stripTypeModifiers, kept, removeBrackets] at names
        · contradiction
        · intro rest opens
          exact absurd opens bracket

def Field.typeToken? (field : Field) (doc : Document) : Option Text :=
  (doc.line? field.line).bind fun line => (words line)[1]?

/-- Every type token of a model field that names `name` starts with it. -/
def Document.SpellsType (doc : Document) (name : Text) : Prop :=
  ∀ b ∈ doc.blocks, b.kind = .model → ∀ field ∈ b.fields doc, field.typeName = name →
    ∀ token ∈ field.typeToken? doc, name <+: token

instance (doc : Document) (name : Text) : Decidable (doc.SpellsType name) :=
  inferInstanceAs (Decidable (∀ b ∈ doc.blocks, _ → ∀ field ∈ b.fields doc, _ → ∀ token ∈ _, name <+: token))

/-- The second word of a line, behind the name of a field, starts with the type that it names. -/
structure TypeToken (line lead name gap typeName markers rest : Text) : Prop where
  first : FirstWord line lead name (gap ++ (typeName ++ markers) ++ rest)
  second : FirstWord (gap ++ (typeName ++ markers) ++ rest) gap (typeName ++ markers) rest
  apart : gap ≠ []
  names : stripTypeModifiers (typeName ++ markers) = typeName

section TypeToken

variable {lead gap typeName markers rest : Text}

theorem Document.SpellsType.exists_token (spelled : doc.SpellsType typeName) (member : b ∈ doc.blocks)
    (model : b.kind = .model) (owned : field ∈ b.fields doc) (typed : field.typeName = typeName) :
    ∃ line lead gap markers rest, doc.line? field.line = some line ∧
      TypeToken line lead field.name gap typeName markers rest := by
  obtain ⟨line, there, -, read⟩ := Block.mem_fields_iff.mp owned
  obtain ⟨-, -, -, token, ws, two, names⟩ := Field.ofLine?_eq_some_iff.mp read
  obtain ⟨markers, rfl⟩ := spelled b member model field owned typed token
    (by simp [Field.typeToken?, there, two])
  obtain ⟨lead, gap, rest, first, second, apart, -⟩ := words_eq_cons_cons two
  exact ⟨line, lead, gap, markers, rest, there, first, second, apart, names.symm.trans typed⟩

theorem TypeToken.parts (token : TypeToken line lead name gap typeName markers rest) :
    line = lead ++ name ++ gap ++ typeName ++ (markers ++ rest) := by
  rw [token.first.parts]
  simp

/-- The type stands alone in its token: blanks come in front of it and markers or a blank behind it. -/
theorem TypeToken.stands (token : TypeToken line lead name gap typeName markers rest)
    (plain : Identifying typeName) : Stands typeName (lead ++ name ++ gap) (markers ++ rest) line := by
  refine ⟨token.parts, token.second.blank.free_behind fun none => absurd none token.apart, ?_⟩
  have marked := (modifiers_of_strip plain token.names).2
  cases markers with
  | cons c r => exact marked
  | nil => exact token.second.parted.free

end TypeToken

end SchemaServer
