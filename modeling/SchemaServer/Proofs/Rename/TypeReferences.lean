import Mathlib.Data.List.Sort
import Mathlib.Data.Option.Basic
import SchemaServer.Rename
import SchemaServer.Proofs.Field
import SchemaServer.Proofs.Symbol
import SchemaServer.Proofs.Edit.Apart

/-! The edits of a model or enum rename: the name on the opening line, type tokens in bodies of models and
the closing line. Each stays on a row of its own. -/
namespace SchemaServer

open Text

variable {doc : Document} {b : Block} {field : Field} {line name current newName : Text} {e : Edit} {row : Nat}

/-- Lists whose entries stand in the order of their keys are known by their members. -/
theorem eq_of_sorted_of_mem_iff {α : Type} (key : α → Nat) {as bs : List α}
    (sorted : as.Pairwise fun x y => key x < key y) (sorted' : bs.Pairwise fun x y => key x < key y)
    (same : ∀ x, x ∈ as ↔ x ∈ bs) : as = bs := by
  have : Std.Irrefl fun x y : α => key x < key y := ⟨fun x => Nat.lt_irrefl (key x)⟩
  have : Std.Antisymm fun x y : α => key x < key y := ⟨fun _ _ below above => absurd below (Nat.lt_asymm above)⟩
  exact sorted.eq_of_mem_iff sorted' same

theorem eraseDups_sublist_nodup {α : Type} [BEq α] [LawfulBEq α] (as : List α) :
    as.eraseDups.Sublist as ∧ as.eraseDups.Nodup := by
  generalize size : as.length = n
  induction n using Nat.strongRecOn generalizing as with
  | _ n ih =>
    cases as with
    | nil => exact ⟨List.Sublist.refl _, List.nodup_nil⟩
    | cons a rest =>
      have shorter := List.length_filter_le (fun b => !b == a) rest
      rw [List.length_cons] at size
      obtain ⟨kept, once⟩ := ih _ (by omega) (rest.filter fun b => !b == a) rfl
      rw [List.eraseDups_cons, List.nodup_cons]
      exact ⟨(kept.trans List.filter_sublist).cons_cons a, by simp, once⟩

def modelAt? (doc : Document) (name : Text) (x : Text × Nat) : Option Block :=
  (if mentions x.1 name then doc.blockAt? x.2 else none).filter (·.kind = .model)

theorem modelAt?_eq_some_iff {x : Text × Nat} : modelAt? doc name x = some b ↔
    mentions x.1 name = true ∧ b ∈ doc.blocks ∧ b.containsLine x.2 = true ∧ b.kind = .model := by
  rw [modelAt?, Option.filter_eq_some_iff, decide_eq_true_eq]
  by_cases mentioned : mentions x.1 name = true
  · rw [if_pos mentioned, Document.blockAt?_eq_some_iff, and_assoc]
    exact ⟨fun found => ⟨mentioned, found⟩, fun found => found.2⟩
  · simp [mentioned]

theorem modelsMentioning_eq (name : Text) (doc : Document) :
    modelsMentioning name doc = (doc.rows.filterMap (modelAt? doc name)).eraseDups := by
  rw [modelsMentioning, List.filter_filterMap]
  rfl

theorem mem_modelsMentioning_iff : b ∈ modelsMentioning name doc ↔ b ∈ doc.blocks ∧ b.kind = .model ∧
    ∃ row line, doc.line? row = some line ∧ b.containsLine row = true ∧ mentions line name = true := by
  simp only [modelsMentioning_eq, List.mem_eraseDups, List.mem_filterMap, Prod.exists, Document.mem_rows_iff,
    modelAt?_eq_some_iff]
  constructor
  · rintro ⟨line, row, there, mentioned, member, inside, model⟩
    exact ⟨member, model, row, line, there, inside, mentioned⟩
  · rintro ⟨member, model, row, line, there, inside, mentioned⟩
    exact ⟨line, row, there, mentioned, member, inside, model⟩

theorem modelsMentioning_sorted (name : Text) (doc : Document) :
    (modelsMentioning name doc).Pairwise fun b c => b.stop.line < c.start.line := by
  obtain ⟨kept, once⟩ := eraseDups_sublist_nodup (doc.rows.filterMap (modelAt? doc name))
  have ordered : (doc.rows.filterMap (modelAt? doc name)).Pairwise
      fun b c => b ≠ c → b.stop.line < c.start.line := by
    rw [List.pairwise_filterMap]
    refine doc.rows_sorted.imp ?_
    intro x y below b leadB c leadC other
    obtain ⟨-, inDocB, inB, -⟩ := modelAt?_eq_some_iff.mp leadB
    obtain ⟨-, inDocC, inC, -⟩ := modelAt?_eq_some_iff.mp leadC
    rw [Block.containsLine_iff] at inB inC
    have := Document.blocks_apart inDocB inDocC other
    omega
  rw [modelsMentioning_eq]
  exact ((ordered.sublist kept).and once).imp fun ⟨apart, other⟩ => apart other

theorem typeEdit?_eq_some_iff : typeEdit? doc current newName field = some e ↔
    field.typeName = current ∧ ∃ line start nameEnd n, doc.line? field.line = some line ∧
      firstWordSpan line = some (start, nameEnd) ∧ findIdentifier line current nameEnd = some n ∧
      e = renameEdit field.line line n current newName := by
  simp only [typeEdit?, Option.bind_eq_bind, Option.pure_def, Option.bind_eq_some_iff,
    Option.guard_eq_some', Option.some.injEq, Prod.exists, exists_const, eq_comm (a := e)]
  constructor
  · rintro ⟨typed, line, there, start, nameEnd, span, n, found, same⟩
    exact ⟨typed, line, start, nameEnd, n, there, span, found, same⟩
  · rintro ⟨typed, line, start, nameEnd, n, there, span, found, same⟩
    exact ⟨typed, line, there, start, nameEnd, span, n, found, same⟩

theorem typeEdit?_eq_some (h : typeEdit? doc current newName field = some e) :
    e.OnRow field.line ∧ ∃ line, doc.line? field.line = some line ∧ mentions line current = true := by
  obtain ⟨-, line, _, _, n, there, -, found, rfl⟩ := typeEdit?_eq_some_iff.mp h
  obtain ⟨_, before, after, -, -, -, stands⟩ := findIdentifier_sound found
  exact ⟨onRow_ofSpan, line, there, mentions_iff.mpr ⟨before, after, stands.parts.symm⟩⟩

theorem typeEdit?_at_token {lead gap markers rest : Text} (newName : Text) (plain : Identifying current)
    (nonempty : current ≠ []) (there : doc.line? field.line = some line)
    (token : TypeToken line lead name gap current markers rest) (typed : field.typeName = current) :
    typeEdit? doc current newName field =
      some (renameEdit field.line line (byteLength (lead ++ name ++ gap)) current newName) := by
  have found := findIdentifier_behind_blanks token.second.blank (plain.word nonempty) (token.stands plain)
  rw [byteLength_append lead name] at found
  exact typeEdit?_eq_some_iff.mpr ⟨typed, line, _, _, _, there, token.first.span, found, rfl⟩

theorem mem_typeReferences_iff : e ∈ typeReferences current newName doc ↔
    ∃ b ∈ doc.blocks, b.kind = .model ∧ ∃ field ∈ b.fields doc, typeEdit? doc current newName field = some e := by
  simp only [typeReferences, List.mem_flatMap, List.mem_filterMap, mem_modelsMentioning_iff]
  constructor
  · rintro ⟨b, ⟨member, model, -⟩, field, inBlock, edit⟩
    exact ⟨b, member, model, field, inBlock, edit⟩
  · rintro ⟨b, member, model, field, inBlock, edit⟩
    obtain ⟨-, line, there, mentioned⟩ := typeEdit?_eq_some edit
    have owner := Block.containsLine_of_mem_fields inBlock
    exact ⟨b, ⟨member, model, field.line, line, there, owner, mentioned⟩, field, inBlock, edit⟩

theorem typeReferences_sorted (current newName : Text) (doc : Document) :
    (typeReferences current newName doc).Pairwise fun e f => e.range.start.line < f.range.start.line := by
  rw [typeReferences, List.pairwise_flatMap]
  constructor
  · intro b member
    rw [List.pairwise_filterMap]
    refine (b.fields_sorted doc).imp ?_
    intro f g below e edit e' edit'
    rw [(typeEdit?_eq_some edit).1.1, (typeEdit?_eq_some edit').1.1]
    exact below
  · refine (modelsMentioning_sorted current doc).imp ?_
    intro b c below e ofB e' ofC
    obtain ⟨f, ownedF, edit⟩ := List.mem_filterMap.mp ofB
    obtain ⟨g, ownedG, edit'⟩ := List.mem_filterMap.mp ofC
    have inB := Block.containsLine_iff.mp (Block.containsLine_of_mem_fields ownedF)
    have inC := Block.containsLine_iff.mp (Block.containsLine_of_mem_fields ownedG)
    rw [(typeEdit?_eq_some edit).1.1, (typeEdit?_eq_some edit').1.1]
    omega

theorem nodup_typeReferences (current newName : Text) (doc : Document) :
    ((typeReferences current newName doc).map fun e => e.range.start.line).Nodup := by
  rw [List.Nodup, List.pairwise_map]
  exact (typeReferences_sorted current newName doc).imp Nat.ne_of_lt

/-- Type edits stay on lines that neither open nor close a block. -/
theorem typeReferences_plain (member : e ∈ typeReferences current newName doc) :
    ∃ row line, e.OnRow row ∧ doc.line? row = some line ∧ isOpening line = false ∧ isClosing line = false := by
  obtain ⟨b, inDoc, -, field, inBlock, edit⟩ := mem_typeReferences_iff.mp member
  obtain ⟨line, there, inside, -⟩ := Block.mem_fields_iff.mp inBlock
  have placed := Document.placed inDoc
  have bounds := Block.bodyContains_bounds inside
  exact ⟨field.line, line, (typeEdit?_eq_some edit).1, there, placed.unopened _ _ bounds.1 bounds.2 there,
    placed.unclosed _ _ inside there⟩

/-! ## The edits of a block name -/

section BlockName

variable {symbol : Symbol}

theorem rename_blockName (doc : Document) (isName : symbol.kind.isBlockName = true)
    (differ : symbol.name ≠ newName) :
    symbol.rename doc newName =
      ((symbol.block.nameRange? doc).map fun range => ⟨range, newName⟩).toList ++
        typeReferences symbol.name newName doc ++
        (if symbol.needsMapping doc then symbol.mapping? doc else none).toList := by
  have references : symbol.references newName doc = typeReferences symbol.name newName doc := by
    unfold Symbol.references
    cases kind : symbol.kind with
    | model | enum => rfl
    | field | enumValue => simp [kind, SymbolKind.isBlockName] at isName
  rw [Symbol.rename, if_neg differ, references, Symbol.declaration?, if_pos isName]

theorem title_mem_rename {range : Range} (isName : symbol.kind.isBlockName = true)
    (differ : symbol.name ≠ newName) (found : symbol.block.nameRange? doc = some range) :
    ⟨range, newName⟩ ∈ symbol.rename doc newName := by
  rw [rename_blockName doc isName differ, found]
  exact List.mem_append_left _ (List.mem_append_left _ List.mem_cons_self)

theorem typeReference_mem_rename (isName : symbol.kind.isBlockName = true) (differ : symbol.name ≠ newName)
    (member : e ∈ typeReferences symbol.name newName doc) : e ∈ symbol.rename doc newName := by
  rw [rename_blockName doc isName differ]
  exact List.mem_append_left _ (List.mem_append_right _ member)

theorem nameRange?_onRow {range : Range} (found : b.nameRange? doc = some range) :
    range.start.line = b.start.line ∧ range.stop.line = b.start.line := by
  simp only [Block.nameRange?, Option.bind_eq_bind, Option.pure_def, Option.bind_eq_some_iff,
    Option.some.injEq] at found
  obtain ⟨line, -, span, -, n, -, rfl⟩ := found
  exact ⟨rfl, rfl⟩

theorem mapping?_blockName (isName : symbol.kind.isBlockName = true) (h : symbol.mapping? doc = some e) :
    symbol.block.terminated = true ∧
      e = ⟨⟨⟨symbol.block.stop.line, 0⟩, symbol.block.stop⟩,
        "\t@@map(\"".toList ++ symbol.name ++ "\")\n\x7d".toList⟩ := by
  rw [Symbol.mapping?, if_pos isName] at h
  dsimp only at h
  split at h
  · rename_i ended
    exact ⟨ended, (Option.some.inj h).symm⟩
  · contradiction

theorem title_onRow (member : e ∈ ((b.nameRange? doc).map fun range => (⟨range, newName⟩ : Edit)).toList) :
    e.OnRow b.start.line := by
  obtain ⟨range, found, rfl⟩ := Option.map_eq_some_iff.mp (Option.mem_toList.mp member)
  exact nameRange?_onRow found

theorem mapping_onRow (isName : symbol.kind.isBlockName = true)
    (member : e ∈ (if symbol.needsMapping doc then symbol.mapping? doc else none).toList) :
    e.OnRow symbol.block.stop.line ∧ symbol.block.terminated = true := by
  split at member
  · obtain ⟨ended, rfl⟩ := mapping?_blockName isName (Option.mem_toList.mp member)
    exact ⟨⟨rfl, rfl⟩, ended⟩
  · simp at member

section Rows

variable (declared : symbol.Declared doc) (isName : symbol.kind.isBlockName = true)
variable (differ : symbol.name ≠ newName)

include declared isName differ

/-- The edits of a block rename lie on the opening line, on plain lines and on the closing line. -/
theorem rename_onRow : ∀ e ∈ symbol.rename doc newName, ∃ row line, doc.line? row = some line ∧ e.OnRow row := by
  have placed := Document.placed declared.member
  intro e member
  rw [rename_blockName doc isName differ] at member
  rcases List.mem_append.mp member with member | last
  · rcases List.mem_append.mp member with first | middle
    · obtain ⟨opening, startLine, -⟩ := placed.opens
      exact ⟨_, opening, startLine, title_onRow first⟩
    · obtain ⟨row, line, onRow, there, -⟩ := typeReferences_plain middle
      exact ⟨row, line, there, onRow⟩
  · obtain ⟨onStop, ended⟩ := mapping_onRow isName last
    obtain ⟨-, closing, stopLine, -⟩ := placed.closes ended
    exact ⟨_, closing, stopLine, onStop⟩

theorem nodup_rename : ((symbol.rename doc newName).map fun e => e.range.start.line).Nodup := by
  have placed := Document.placed declared.member
  have single : ∀ o : Option Edit, (o.toList.map fun e => e.range.start.line).Nodup := by
    intro o
    cases o <;> simp
  rw [rename_blockName doc isName differ, List.map_append, List.map_append, List.nodup_append,
    List.nodup_append]
  refine ⟨⟨single _, nodup_typeReferences _ _ _, ?_⟩, single _, ?_⟩
  · intro row first row' middle same
    obtain ⟨e, member, rfl⟩ := List.mem_map.mp first
    obtain ⟨f, member', rfl⟩ := List.mem_map.mp middle
    obtain ⟨opening, startLine, opens⟩ := placed.opens
    obtain ⟨row, line, onRow, there, plain, -⟩ := typeReferences_plain member'
    rw [(title_onRow member).1, onRow.1] at same
    subst same
    obtain rfl := Option.some.inj (startLine.symm.trans there)
    simp [isOpening, opens] at plain
  · intro row front row' last same
    obtain ⟨f, member', rfl⟩ := List.mem_map.mp last
    obtain ⟨onStop, ended⟩ := mapping_onRow isName member'
    obtain ⟨below, closing, stopLine, closes⟩ := placed.closes ended
    rcases List.mem_append.mp front with first | middle
    · obtain ⟨e, member, rfl⟩ := List.mem_map.mp first
      rw [(title_onRow member).1, onStop.1] at same
      omega
    · obtain ⟨e, member, rfl⟩ := List.mem_map.mp middle
      obtain ⟨row, line, onRow, there, -, plain⟩ := typeReferences_plain member
      rw [onRow.1, onStop.1] at same
      subst same
      obtain rfl := Option.some.inj (stopLine.symm.trans there)
      simp [closes] at plain

end Rows

end BlockName

end SchemaServer
