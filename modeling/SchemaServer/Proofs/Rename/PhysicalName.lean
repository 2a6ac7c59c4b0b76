import SchemaServer.Proofs.PhysicalName
import SchemaServer.Proofs.Rename.Mentions
import SchemaServer.Proofs.Symbol

/-! When a rename of a field or an enum value keeps its name in the database. The mapping goes in at the end of the
line whatever stands there, and any text `@map(` on the line holds it back. -/
namespace SchemaServer

open Text

variable {doc : Document} {pos : Position} {symbol : Symbol} {newName name line lead rest t m : Text}

/-- An edit that starts in the effective part of a line starts in code there, and not directly behind an `@`. -/
def Edit.StartsInCode (line : Text) (e : Edit) : Prop := ∀ front back, line = front ++ back →
  unitLength front = e.range.start.character → front.length < (effectivePart line).length →
    Zone.code.after front = .code ∧ front.getLast? ≠ some '@'

/-- The change of an edit at the end of a line. -/
theorem Edit.changeOn_end (line t : Text) (row : Nat) :
    changeOn line ⟨⟨⟨row, unitLength line⟩, ⟨row, unitLength line⟩⟩, t⟩ = ⟨line.length, line.length, t⟩ := by
  have all := takeWithin_total unitSize_pos line []
  rw [List.append_nil] at all
  rw [changeOn]
  dsimp only [unitLength]
  rw [all]

theorem Text.FirstWord.on (first : FirstWord line lead name rest) : Mention.On ⟨lead, [], []⟩ name line :=
  ⟨rest, by simpa [Mention.place] using first.stands⟩

theorem Text.FirstWord.not_within {mentions : List Mention} (first : FirstWord line lead name rest)
    (known : Identifying name) (nonempty : name ≠ []) (on : ∀ x ∈ mentions, x.On name line) (x : Text)
    (inside : x <+: lead) (other : x ≠ lead) : ¬ Mention.places mentions x := by
  rintro ⟨y, member, rfl⟩
  obtain ⟨back, stands⟩ := on y member
  obtain ⟨more, leadEq⟩ := inside
  have parts := first.parts.symm.trans stands.parts
  obtain ⟨d, o, rfl⟩ := List.exists_cons_of_ne_nil nonempty
  cases more with
  | nil => exact other (by simpa using leadEq)
  | cons c k =>
    rw [← leadEq] at parts
    obtain ⟨rfl, -⟩ : c = d ∧ _ := by simpa using parts
    have blank := first.blank c (by simp [← leadEq])
    rw [known.solid List.mem_cons_self] at blank
    contradiction

/-- A field or an enum value takes another identifier as its name. -/
structure Relabelling (symbol : Symbol) (doc : Document) (newName line : Text) : Prop where
  declared : symbol.Declared doc
  noName : symbol.kind.isBlockName = false
  differ : symbol.name ≠ newName
  known : Identifying symbol.name
  nonempty : symbol.name ≠ []
  plain : Identifying newName
  filled : newName ≠ []
  there : doc.line? symbol.line = some line

/-- The names that the edits of a declaration line replace: its first word, and references on it. -/
structure Replaced (symbol : Symbol) (doc : Document) (newName line lead : Text) (mentions : List Mention) : Prop where
  first : ⟨lead, [], []⟩ ∈ mentions
  on : ∀ x ∈ mentions, x.On symbol.name line
  other : ∀ x ∈ mentions, x = ⟨lead, [], []⟩ ∨ (x.lead = [] ∨ x.lead = defaultLead) ∧
    x.edit symbol.line line symbol.name newName ∈ symbol.references newName doc

/-- The replaced names in the effective part are in code. -/
theorem Replaced.inCode {mentions : List Mention} (replaced : Replaced symbol doc newName line lead mentions)
    (blank : Blank lead)
    (starts : ∀ e ∈ symbol.references newName doc, e.range.start.line = symbol.line → e.StartsInCode line) (b : Text)
    (marked : Mention.places mentions b) (effective : b.length < (effectivePart line).length) :
    Zone.code.after b = .code ∧ b.getLast? ≠ some '@' := by
  obtain ⟨x, member, rfl⟩ := marked
  rcases replaced.other x member with rfl | ⟨leads, referred⟩
  · refine ⟨by simpa [Mention.place] using Zone.after_blank blank, fun last => ?_⟩
    have blank := blank '@' (List.mem_of_getLast? (by simpa [Mention.place] using last))
    revert blank
    decide
  · obtain ⟨back, parts, -⟩ := (replaced.on x member).split
    have column : unitLength x.front = (x.edit symbol.line line symbol.name newName).range.start.character := by
      change _ = columnAt line (byteLength x.front)
      rw [parts, columnAt_append]
    have early : x.front.length < (effectivePart line).length := by
      simp only [Mention.place, List.length_append] at effective
      omega
    obtain ⟨code, behind⟩ := starts _ referred rfl _ _ parts column early
    rcases leads with none | call
    · simpa [Mention.place, none] using ⟨code, behind⟩
    · have last : defaultLead.getLast? = some '(' := rfl
      rw [Mention.place, call, Zone.after_append, code, List.getLast?_append, last]
      exact ⟨rfl, by simp⟩

namespace Relabelling

variable (relabelling : Relabelling symbol doc newName line)

include relabelling

theorem firstWord : ∃ lead rest, FirstWord line lead symbol.name rest := by
  obtain ⟨found, lead, rest, there, first⟩ := relabelling.declared.firstWord relabelling.noName
  obtain rfl := Option.some.inj (relabelling.there.symm.trans there)
  exact ⟨lead, rest, first⟩

theorem declaration?_eq (first : FirstWord line lead symbol.name rest) : symbol.declaration? doc =
    some (.ofSpan symbol.line line (byteLength lead) (byteLength lead + byteLength symbol.name)) :=
  Symbol.declaration?_of_firstWord relabelling.noName relabelling.there first

theorem mapping?_eq : symbol.mapping? doc = some ⟨⟨⟨symbol.line, unitLength line⟩, ⟨symbol.line, unitLength line⟩⟩,
    mappingText symbol.name⟩ :=
  mapping?_of_line relabelling.noName relabelling.there

theorem needsMapping_eq : symbol.needsMapping doc = !mentions line fieldMapAttribute := by
  rw [Symbol.needsMapping, if_neg (by simp [relabelling.noName]), relabelling.there]
  rfl

theorem filter_rename (first : FirstWord line lead symbol.name rest) : ∃ mentions,
    Replaced symbol doc newName line lead mentions ∧
      ((symbol.rename doc newName).filter fun e => e.range.start.line = symbol.line) =
        mentions.map (Mention.edit symbol.line line symbol.name newName) ++
          (if symbol.needsMapping doc then symbol.mapping? doc else none).toList := by
  obtain ⟨references, edits, each⟩ := filter_row_references relabelling.noName relabelling.there newName
  refine ⟨⟨lead, [], []⟩ :: references, ⟨List.mem_cons_self, ?_, ?_⟩, ?_⟩
  · intro x member
    rcases List.mem_cons.mp member with rfl | later
    · exact first.on
    · exact (each x later).1
  · intro x member
    rcases List.mem_cons.mp member with same | later
    · exact .inl same
    · have listed : x.edit symbol.line line symbol.name newName ∈
          (symbol.references newName doc).filter fun e => e.range.start.line = symbol.line := by
        rw [edits]
        exact List.mem_map_of_mem later
      exact .inr ⟨(each x later).2, (List.mem_filter.mp listed).1⟩
  · have declaration : ((symbol.declaration? doc).map fun range => (⟨range, newName⟩ : Edit)) =
        some (Mention.edit symbol.line line symbol.name newName ⟨lead, [], []⟩) := by
      simp [relabelling.declaration?_eq first, Mention.edit]
    have mapping : ∀ e ∈ (if symbol.needsMapping doc then symbol.mapping? doc else none).toList,
        e.range.start.line = symbol.line := by
      intro e member
      split at member
      · rw [relabelling.mapping?_eq] at member
        obtain rfl := List.mem_singleton.mp member
        rfl
      · contradiction
    rw [Symbol.rename, if_neg relabelling.differ]
    dsimp only
    rw [declaration, List.filter_append, List.filter_append, edits,
      List.filter_eq_self.mpr fun e member => decide_eq_true (mapping e member)]
    simp [Mention.edit, Range.ofSpan]

theorem within {e : Edit} (member : e ∈ symbol.rename doc newName) : e.Within doc := by
  have word := relabelling.plain.word relabelling.filled
  have inside := Document.lt_lineCount relabelling.there
  obtain ⟨lead, rest, first⟩ := relabelling.firstWord
  rw [Symbol.rename, if_neg relabelling.differ] at member
  rcases List.mem_append.mp member with member | mapping
  · rcases List.mem_append.mp member with declaration | reference
    · rw [relabelling.declaration?_eq first] at declaration
      obtain rfl := List.mem_singleton.mp declaration
      exact onRow_ofSpan.within inside relabelling.filled word.unbroken
    · exact references_within relabelling.noName word reference
  · split at mapping
    · rw [relabelling.mapping?_eq] at mapping
      obtain rfl := List.mem_singleton.mp mapping
      have front : Unbroken " @map(\"".toList := ⟨by decide, by decide⟩
      have back : Unbroken "\")".toList := ⟨by decide, by decide⟩
      have name := (relabelling.known.word relabelling.nonempty).unbroken
      have filled := List.ne_nil_of_mem (List.mem_of_head? (head?_mappingText symbol.name))
      have onRow : Edit.OnRow symbol.line ⟨⟨⟨symbol.line, unitLength line⟩, ⟨symbol.line, unitLength line⟩⟩,
        mappingText symbol.name⟩ := ⟨rfl, rfl⟩
      exact onRow.within inside filled ((front.append name).append back)
    · contradiction

/-- The declaration line comes out with the name swapped where it is replaced, and the mapping behind it. -/
theorem line?_rename (apart : (symbol.rename doc newName).Pairwise Edit.Apart)
    (first : FirstWord line lead symbol.name rest) (version : Int) : ∃ mentions t,
      Replaced symbol doc newName line lead mentions ∧
      Swapped (Mention.places mentions) symbol.name newName [] line t ∧
      (Document.ofText (doc.apply (symbol.rename doc newName)) version).line? symbol.line =
        some (t ++ if symbol.needsMapping doc then mappingText symbol.name else []) := by
  obtain ⟨mentions, replaced, edits⟩ := relabelling.filter_rename first
  have apartHere := apart.filter fun e => e.range.start.line = symbol.line
  rw [edits] at apartHere
  have clear := Mention.clear_of_apart replaced.on (List.pairwise_append.mp apartHere).1
  have swapped : Swapped (Mention.places mentions) symbol.name newName [] line
      (Change.rewrite (mentions.map (Mention.change symbol.name newName)) 0 line) :=
    Mention.rewrite_swapped relabelling.nonempty clear replaced.on (List.append_nil line).symm
      (fun x _ below => absurd below (Nat.not_lt_zero _)) fun x member _ => (replaced.on x member).stop_le
  refine ⟨mentions, _, replaced, swapped, ?_⟩
  have mapped : ((if symbol.needsMapping doc then symbol.mapping? doc else none).toList.map (Edit.changeOn line)) =
      if symbol.needsMapping doc then [⟨line.length, line.length, mappingText symbol.name⟩] else [] := by
    split
    · rw [relabelling.mapping?_eq, Option.toList_some, List.map_singleton, Edit.changeOn_end]
    · rfl
  rw [Document.line?_apply (fun e member => relabelling.within member) relabelling.there version, edits,
    Edit.applyOn, Change.apply, List.map_append, Mention.map_changeOn replaced.on, mapped, Change.rewrite_behind,
    Change.written_append, Mention.written_end relabelling.nonempty replaced.on, List.nil_append]
  · split <;> simp [Change.written]
  · intro d member
    split at member
    · rw [List.mem_singleton.mp member, Nat.zero_add]
    · contradiction

/-- The first word of the new line is the new name. -/
theorem firstWord_swapped {mentions : List Mention} (replaced : Replaced symbol doc newName line lead mentions)
    (first : FirstWord line lead symbol.name rest)
    (swapped : Swapped (Mention.places mentions) symbol.name newName [] line t) (parted : Parted m) :
    (words (t ++ m)).head? = some newName := by
  have known := relabelling.known
  have nonempty := relabelling.nonempty
  rcases swapped.kept (first.not_within known nonempty replaced.on) with ⟨r, t', parts, rfl, behind⟩ | ⟨missing, -⟩
  · obtain rfl : r = symbol.name ++ rest := by
      have whole := parts.symm.trans first.parts
      simpa using whole
    obtain ⟨c, o, name⟩ := List.exists_cons_of_ne_nil nonempty
    have headed : symbol.name ++ rest = c :: (o ++ rest) := by rw [name, List.cons_append]
    rw [headed] at behind
    rcases behind.cons_inv with ⟨unmarked, -⟩ | ⟨-, r', t'', same, rfl, -, later⟩
    · exact absurd ⟨_, replaced.first, by simp [Mention.place]⟩ unmarked
    · rw [← headed, List.append_cancel_left_eq] at same
      subst same
      have ends : Parted (t'' ++ m) := by
        cases head : rest.head? with
        | none =>
          rw [List.head?_eq_none_iff.mp head] at later
          rwa [later.nil_inv nonempty, List.nil_append]
        | some d =>
          have blank := first.parted d head
          have same := (later.head?_eq_iff known nonempty relabelling.plain relabelling.filled
            (not_identifier_of_blank blank)).mp head
          intro e found
          rw [List.head?_append, same] at found
          rwa [← Option.some.inj found]
      have word := relabelling.plain.word relabelling.filled
      have shape : lead ++ (newName ++ t'') ++ m = lead ++ newName ++ (t'' ++ m) := by simp
      rw [shape, FirstWord.words ⟨rfl, first.blank, word, ends⟩, List.head?_cons]
  · exact absurd ⟨symbol.name ++ rest, by rw [first.parts, List.append_assoc]⟩ missing

end Relabelling

/-- When the database name of a field or an enum value survives its rename: a mapping in the effective part of the
line anchors it already, or the line is free of mappings and ends in code, without a comment. -/
theorem physicalName_kept_iff (found : doc.symbolAt? pos = some symbol) (noName : symbol.kind.isBlockName = false)
    (identifier : isIdentifier symbol.name = true) (accepted : checkNewName newName = .ok ())
    (apart : (doc.renameAt pos newName).Pairwise Edit.Apart) (there : doc.line? symbol.line = some line)
    (starts : ∀ e ∈ symbol.references newName doc, e.range.start.line = symbol.line → e.StartsInCode line)
    (version : Int) : ∃ line',
      (Document.ofText (doc.apply (doc.renameAt pos newName)) version).line? symbol.line = some line' ∧
      (physicalName? line' = physicalName? line ↔ newName = symbol.name ∨
        (mapName? (effectivePart line)).isSome = true ∨
        (mentions line fieldMapAttribute = false ∧ effectivePart line = line ∧ Zone.code.after line = .code)) := by
  have edits : doc.renameAt pos newName = symbol.rename doc newName := by simp [Document.renameAt, found]
  rw [edits] at apart ⊢
  by_cases differ : symbol.name = newName
  · have same : doc.apply (symbol.rename doc newName) = doc.text := by
      rw [Symbol.rename, if_pos differ]
      exact Change.apply_nil doc.text
    refine ⟨line, ?_, by simp [differ]⟩
    rw [same, Document.line?, Document.lines_eq]
    rwa [Document.line?, doc.lines_eq] at there
  obtain ⟨nonempty, known⟩ := isIdentifier_parts identifier
  obtain ⟨filled, plain⟩ := checkNewName_ok accepted
  have relabelling : Relabelling symbol doc newName line :=
    ⟨Document.symbolAt?_declared found, noName, differ, known, nonempty, plain, filled, there⟩
  obtain ⟨lead, rest, first⟩ := relabelling.firstWord
  obtain ⟨names, t, replaced, swapped, made⟩ := relabelling.line?_rename apart first version
  have parted : Parted (if symbol.needsMapping doc then mappingText symbol.name else []) := by
    split
    · intro c head
      rw [head?_mappingText] at head
      rw [← Option.some.inj head]
      rfl
    · intro c head
      contradiction
  have newFirst := relabelling.firstWord_swapped replaced first swapped parted
  have oldFirst : (words line).head? = some symbol.name := by rw [first.words, List.head?_cons]
  obtain ⟨argument, bareAfter⟩ := mapName?_swapped known nonempty plain filled (Mention.free_places replaced.on)
    (replaced.inCode first.blank starts) swapped
  refine ⟨_, made, ?_⟩
  rw [physicalName?, physicalName?, newFirst, oldFirst, relabelling.needsMapping_eq]
  cases mentioned : mentions line fieldMapAttribute with
  | true =>
    simp only [Bool.not_true, Bool.false_eq_true, ↓reduceIte, List.append_nil, ← argument]
    cases mapName? (effectivePart line) with
    | none => simp [Ne.symm differ]
    | some name => simp
  | false =>
    have unmapped : behindMap? .code (effectivePart line) = none := by
      rw [← Option.not_isSome_iff_eq_none, Option.isSome_iff_exists]
      rintro ⟨argument, found⟩
      have opening : fieldMapAttribute <:+: mapOpening := ⟨[], ['"'], rfl⟩
      have inLine := (opening.trans (mentions_of_behindMap? found)).trans (prefix_effectiveFrom .code line).isInfix
      rw [mentions_iff.mpr inLine] at mentioned
      contradiction
    have bare : mapName? (effectivePart line) = none := by rw [mapName?, unmapped, Option.bind_none]
    have uncommented : effectivePart line = line ↔ effectivePart t = t :=
      effectiveFrom_eq_self_iff known nonempty plain filled .code swapped
    have zone : Zone.code.after line = Zone.code.after t := Zone.after_swapped known nonempty plain filled swapped
    rw [Bool.not_false, if_pos rfl, mapName?_append (bareAfter unmapped) known, bare, uncommented, zone]
    split
    · rename_i counts
      simp [counts]
    · rename_i idle
      simp [idle, Ne.symm differ]

/-- A field without a mapping, and an enum value with one in front of a comment. -/
theorem physicalName_kept_iff_mapped :
    let doc := Document.ofText ("model A \x7b\n  id Int @id\n\x7d\n".toList ++
      "enum Role \x7b\n  USER @map(\"user\") // key\n\x7d\n".toList) 0
    let id : Symbol := ⟨.field, "id".toList, ⟨.model, "A".toList, ⟨0, 0⟩, ⟨2, 1⟩, true⟩, 1⟩
    let user : Symbol := ⟨.enumValue, "USER".toList, ⟨.enum, "Role".toList, ⟨3, 0⟩, ⟨5, 1⟩, true⟩, 4⟩
    doc.symbolAt? ⟨1, 3⟩ = some id ∧ doc.symbolAt? ⟨4, 3⟩ = some user ∧
      (∃ line', (Document.ofText (doc.apply (doc.renameAt ⟨1, 3⟩ "key".toList)) 1).line? 1 = some line' ∧
        physicalName? line' = some "id".toList) ∧
      ∃ line', (Document.ofText (doc.apply (doc.renameAt ⟨4, 3⟩ "key".toList)) 1).line? 4 = some line' ∧
        physicalName? line' = some "user".toList := by
  intro doc id user
  have foundId : doc.symbolAt? ⟨1, 3⟩ = some id := by decide +kernel
  have foundUser : doc.symbolAt? ⟨4, 3⟩ = some user := by decide +kernel
  have thereId : doc.line? id.line = some "  id Int @id".toList := by decide +kernel
  have thereUser : doc.line? user.line = some "  USER @map(\"user\") // key".toList := by decide +kernel
  have alone : id.references "key".toList doc = [] ∧ user.references "key".toList doc = [] := by decide +kernel
  have accepted : checkNewName "key".toList = .ok () := by decide +kernel
  obtain ⟨line, made, kept⟩ := physicalName_kept_iff foundId rfl (by decide +kernel) accepted (by decide +kernel)
    thereId (by rw [alone.1]; nofun) 1
  obtain ⟨line', made', kept'⟩ := physicalName_kept_iff foundUser rfl (by decide +kernel) accepted (by decide +kernel)
    thereUser (by rw [alone.2]; nofun) 1
  exact ⟨foundId, foundUser, ⟨line, made, (kept.mpr (by decide +kernel)).trans (by decide +kernel)⟩,
    line', made', (kept'.mpr (by decide +kernel)).trans (by decide +kernel)⟩

/-- Behind a comment the mapping is part of the comment, and the name in the database changes. -/
theorem physicalName_lost :
    let doc := Document.ofText "model A \x7b\n  id Int @id // key\n\x7d\n".toList 0
    let id : Symbol := ⟨.field, "id".toList, ⟨.model, "A".toList, ⟨0, 0⟩, ⟨2, 1⟩, true⟩, 1⟩
    let line := "  id Int @id // key".toList
    let line' := "  key Int @id // key @map(\"id\")".toList
    doc.symbolAt? ⟨1, 3⟩ = some id ∧ isIdentifier id.name = true ∧ checkNewName "key".toList = .ok () ∧
      (doc.renameAt ⟨1, 3⟩ "key".toList).Pairwise Edit.Apart ∧ doc.line? 1 = some line ∧
      (Document.ofText (doc.apply (doc.renameAt ⟨1, 3⟩ "key".toList)) 1).line? 1 = some line' ∧
      physicalName? line = some "id".toList ∧ physicalName? line' = some "key".toList := by
  decide +kernel

end SchemaServer
