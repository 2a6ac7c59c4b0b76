import SchemaServer.Proofs.Rename.Lists
import SchemaServer.Proofs.Rename.TypeReferences

/-! When the edits of a rename are clear of each other. Models, enums and enum values always keep them apart.
A field rename searches up to three lists on a line, each by its own label, and two of them may lead to the
same text. -/
namespace SchemaServer

open Text

variable {doc : Document} {pos : Position} {symbol : Symbol} {block : Block} {e f : Edit} {edits : List Edit}
variable {line name newName newText : Text} {row : Nat}

/-- Searches behind two labels of a line end at occurrences of `name` that overlap. -/
def Clash (line name a b : Text) : Prop := ∃ m n, placeInList? line a name = some m ∧
  placeInList? line b name = some n ∧ m < n + byteLength name ∧ n < m + byteLength name

/-- The edit of a run behind the first word of its line, or of a run longer than a first word `name`. -/
def Trails (doc : Document) (name : Text) (e : Edit) : Prop := ∃ row line before run after newText,
  doc.line? row = some line ∧ line = before ++ run ++ after ∧ Word run ∧
    (¬ Blank before ∨ byteLength name < byteLength run) ∧ byteLength name ≤ byteLength run ∧
    e = ⟨.ofSpan row line (byteLength before) (byteLength before + byteLength run), newText⟩

/-! ## Row by row -/

/-- The edits that a document collects from its rows, on one of them. -/
theorem filter_onRow_flatMap {edit : Text × Nat → List Edit} (own : ∀ x ∈ doc.rows, ∀ e ∈ edit x, e.OnRow x.2)
    (there : doc.line? row = some line) :
    (doc.rows.flatMap edit).filter (Edit.OnRow row ·) = edit (line, row) := by
  obtain ⟨front, back, whole⟩ := List.append_of_mem (Document.mem_rows_iff.mpr there)
  have sorted := doc.rows_sorted
  rw [whole] at sorted own ⊢
  rw [List.pairwise_append, List.pairwise_cons] at sorted
  obtain ⟨-, ⟨later, -⟩, apart⟩ := sorted
  have silent : ∀ rows ⊆ front ++ (line, row) :: back, (∀ x ∈ rows, x.2 ≠ row) →
      (rows.flatMap edit).filter (Edit.OnRow row ·) = [] := by
    intro rows among others
    simp only [List.filter_eq_nil_iff, List.mem_flatMap, decide_eq_true_eq]
    rintro e ⟨x, member, inX⟩ onRow
    exact others x member ((own x (among member) e inX).1.symm.trans onRow.1)
  have here : (edit (line, row)).filter (Edit.OnRow row ·) = edit (line, row) := by
    refine List.filter_eq_self.mpr fun e member => ?_
    simpa using own (line, row) (by simp) e member
  rw [List.flatMap_append, List.flatMap_cons, List.filter_append, List.filter_append, here,
    silent front (by simp), silent back (by simp), List.nil_append, List.append_nil]
  · intro x member
    have := later x member
    dsimp only at this
    omega
  · intro x member
    have := apart x member (line, row) List.mem_cons_self
    dsimp only at this
    omega

theorem listEdits_onRow {labels : List Text} (member : e ∈ listEdits row line labels name newName) :
    e.OnRow row := by
  obtain ⟨label, -, n, -, rfl⟩ := mem_listEdits_iff.mp member
  exact onRow_ofSpan

theorem filter_onRow_fieldReferences (there : doc.line? row = some line) :
    (fieldReferences name newName doc block).filter (Edit.OnRow row ·) =
      listEdits row line (searchedLabels block name line row) name newName := by
  rw [fieldReferences_eq, List.filter_append, filter_onRow_flatMap _ there, filter_onRow_flatMap _ there,
    searchedLabels, listEdits, listEdits, listEdits, List.filterMap_append]
  · exact fun x _ e member => listEdits_onRow member
  · exact fun x _ e member => listEdits_onRow member

/-! ## Searched lists -/

theorem lists_apart_iff :
    (listEdits row line (searchedLabels block name line row) name newName).Pairwise Edit.Apart ↔
      (searchedLabels block name line row).Pairwise (¬ Clash line name · ·) := by
  rw [listEdits, List.pairwise_filterMap]
  refine List.Pairwise.iff_of_mem fun {a b} searchedA searchedB => ?_
  obtain ⟨solidA, plainA⟩ := searchedLabels_plain searchedA
  obtain ⟨solidB, plainB⟩ := searchedLabels_plain searchedB
  have near : ∀ {m n}, placeInList? line a name = some m → placeInList? line b name = some n →
      (Edit.Apart (renameEdit row line m name newName) (renameEdit row line n name newName) ↔
        m + byteLength name ≤ n ∨ n + byteLength name ≤ m) := by
    intro m n foundA foundB
    obtain ⟨before, after, stands, rfl, -⟩ := placeInList?_stands solidA plainA foundA
    obtain ⟨before', after', stands', rfl, -⟩ := placeInList?_stands solidB plainB foundB
    exact apart_ofSpan_iff stands.parts stands'.parts
  simp only [editInList?_eq, Option.map_eq_some_iff]
  constructor
  · rintro apart ⟨m, n, foundA, foundB, below, above⟩
    have := (near foundA foundB).mp (apart _ ⟨m, foundA, rfl⟩ _ ⟨n, foundB, rfl⟩)
    omega
  · rintro clear _ ⟨m, foundA, rfl⟩ _ ⟨n, foundB, rfl⟩
    refine (near foundA foundB).mpr ?_
    by_contra overlap
    exact clear ⟨m, n, foundA, foundB, by omega, by omega⟩

/-! ## Fields and enum values -/

theorem trails_fieldReferences (solid : Word name) (member : e ∈ fieldReferences name newName doc block) :
    Trails doc name e := by
  obtain ⟨row, line, there, listed⟩ := mem_fieldReferences_iff.mp member
  obtain ⟨label, searched, n, found, rfl⟩ := mem_listEdits_iff.mp listed
  obtain ⟨wordy, plain⟩ := searchedLabels_plain searched
  obtain ⟨before, after, stands, rfl, lead⟩ := placeInList?_stands wordy plain found
  exact ⟨row, line, before, name, after, newName, there, stands.parts, solid, .inl lead, Nat.le_refl _, rfl⟩

theorem trails_enumValueReferences {enumName : Text} (solid : Word name)
    (member : e ∈ enumValueReferences name newName doc enumName) : Trails doc name e := by
  simp only [enumValueReferences, List.mem_filterMap, Prod.exists, Document.mem_rows_iff,
    Option.bind_eq_bind, Option.pure_def, Option.bind_eq_some_iff, Option.some.injEq] at member
  obtain ⟨line, row, there, before, found, split, n, -, rfl⟩ := member
  obtain ⟨parts, ⟨after, rfl⟩, -⟩ := splitAtFirst?_eq_some_iff.mp split
  have longer : byteLength name < byteLength (defaultCall name) :=
    byteLength_lt_enclosed (by simp) name [')']
  have run : Word (defaultCall name) := solid.enclosed (solid_of_all (by decide)) (solid_of_all (by decide))
  exact ⟨row, line, before, defaultCall name, after, defaultCall newName, there, by simp [← parts], run,
    .inr longer, Nat.le_of_lt longer, rfl⟩

/-- Enum values stand once on a row, so their references are clear of each other. -/
theorem enumValueReferences_apart (name newName : Text) (doc : Document) (enumName : Text) :
    (enumValueReferences name newName doc enumName).Pairwise Edit.Apart := by
  rw [enumValueReferences, List.pairwise_filterMap]
  refine doc.rows_sorted.imp ?_
  rintro ⟨line, row⟩ ⟨line', row'⟩ below e edit e' edit'
  simp only [Option.bind_eq_bind, Option.pure_def, Option.bind_eq_some_iff, Option.some.injEq] at edit edit'
  obtain ⟨_, -, _, -, rfl⟩ := edit
  obtain ⟨_, -, _, -, rfl⟩ := edit'
  exact Edit.apart_of_rows onRow_ofSpan onRow_ofSpan (Nat.ne_of_lt below)

theorem mapping?_of_line (noName : symbol.kind.isBlockName = false) (there : doc.line? symbol.line = some line) :
    symbol.mapping? doc = some ⟨⟨⟨symbol.line, unitLength line⟩, ⟨symbol.line, unitLength line⟩⟩,
      " @map(\"".toList ++ symbol.name ++ "\")".toList⟩ := by
  have ends : doc.lineEnd symbol.line = ⟨symbol.line, unitLength line⟩ := by
    rw [Document.lineEnd, if_pos (Document.lt_lineCount there), Document.width_eq there]
  rw [Symbol.mapping?, if_neg (by simp [noName]), ends]

section Body

variable (declared : symbol.Declared doc) (noName : symbol.kind.isBlockName = false)

include declared noName

/-- The name at the start of its line is clear of everything that trails it. -/
theorem declaration_apart {range : Range} (here : symbol.declaration? doc = some range)
    (trails : Trails doc symbol.name e) : Edit.Apart ⟨range, newText⟩ e := by
  obtain ⟨line, lead, rest, there, first⟩ := declared.firstWord noName
  rw [Symbol.declaration?_of_firstWord noName there first] at here
  obtain rfl := Option.some.inj here
  obtain ⟨row, line', before, run, after, newText', there', parts, solid, later, size, rfl⟩ := trails
  by_cases same : symbol.line = row
  · subst same
    obtain rfl := Option.some.inj (there.symm.trans there')
    exact (apart_ofSpan_iff first.parts parts).mpr (.inl (first.behind parts solid later size))
  · exact Edit.apart_of_rows onRow_ofSpan onRow_ofSpan same

/-- A mapping at the end of a line is clear of all that its line holds. -/
theorem mapping_apart {mapping : Edit} (here : symbol.mapping? doc = some mapping) {start stop : Nat}
    (there : doc.line? row = some line) (held : e = ⟨.ofSpan row line start stop, newText⟩) :
    Edit.Apart e mapping := by
  obtain ⟨own, -, -, ownLine, -⟩ := declared.firstWord noName
  rw [mapping?_of_line noName ownLine] at here
  obtain rfl := Option.some.inj here
  subst held
  by_cases same : row = symbol.line
  · subst same
    obtain rfl := Option.some.inj (ownLine.symm.trans there)
    exact .inl (.inr ⟨rfl, columnAt_le_unitLength own stop⟩)
  · exact Edit.apart_of_rows onRow_ofSpan ⟨rfl, rfl⟩ same

/-- The references alone decide for a symbol at the start of its line. -/
theorem rename_apart_iff (differ : symbol.name ≠ newName)
    (trails : ∀ e ∈ symbol.references newName doc, Trails doc symbol.name e) :
    (symbol.rename doc newName).Pairwise Edit.Apart ↔
      (symbol.references newName doc).Pairwise Edit.Apart := by
  rw [Symbol.rename, if_neg differ]
  constructor
  · intro all
    exact (List.pairwise_append.mp (List.pairwise_append.mp all).1).2.1
  · intro references
    have single : ∀ o : Option Edit, o.toList.Pairwise Edit.Apart := by
      intro o
      cases o <;> simp
    refine List.pairwise_append.mpr ⟨List.pairwise_append.mpr ⟨single _, references, ?_⟩, single _, ?_⟩
    · intro e first f member
      obtain ⟨range, here, rfl⟩ := Option.map_eq_some_iff.mp (Option.mem_toList.mp first)
      exact declaration_apart declared noName here (trails f member)
    · intro e front mapping last
      split at last
      · have here := Option.mem_toList.mp last
        rcases List.mem_append.mp front with first | member
        · obtain ⟨range, declaration, rfl⟩ := Option.map_eq_some_iff.mp (Option.mem_toList.mp first)
          obtain ⟨line, lead, rest, there, firstWord⟩ := declared.firstWord noName
          rw [Symbol.declaration?_of_firstWord noName there firstWord] at declaration
          obtain rfl := Option.some.inj declaration
          exact mapping_apart declared noName here there rfl
        · obtain ⟨row, line, _, _, _, _, there, -, -, -, -, held⟩ := trails e member
          exact mapping_apart declared noName here there held
      · simp at last

end Body

/-! ## All symbols -/

theorem fieldReferences_apart_iff : (fieldReferences name newName doc block).Pairwise Edit.Apart ↔
    ∀ row line, doc.line? row = some line →
      (searchedLabels block name line row).Pairwise (¬ Clash line name · ·) := by
  have single : ∀ e ∈ fieldReferences name newName doc block, ∃ row line, doc.line? row = some line ∧
      e.OnRow row := by
    intro e member
    obtain ⟨row, line, there, listed⟩ := mem_fieldReferences_iff.mp member
    exact ⟨row, line, there, listEdits_onRow listed⟩
  rw [Edit.pairwise_apart_iff fun e member => (single e member).imp fun row found => found.choose_spec.2]
  constructor
  · intro byRow row line there
    have here := byRow row
    rwa [filter_onRow_fieldReferences there, lists_apart_iff] at here
  · intro clear row
    cases there : doc.line? row with
    | some line =>
      rw [filter_onRow_fieldReferences there, lists_apart_iff]
      exact clear row line there
    | none =>
      have silent : (fieldReferences name newName doc block).filter (Edit.OnRow row ·) = [] := by
        simp only [List.filter_eq_nil_iff, decide_eq_true_eq]
        intro e member onRow
        obtain ⟨row', line, found, onRow'⟩ := single e member
        obtain rfl := onRow'.1.symm.trans onRow.1
        rw [there] at found
        contradiction
      rw [silent]
      exact List.Pairwise.nil

/-- A rename keeps its edits apart but for a field with two searched lists on one line that lead to
overlapping places. -/
theorem renameAt_apart_iff (doc : Document) (pos : Position) (newName : Text) :
    (doc.renameAt pos newName).Pairwise Edit.Apart ↔
      ∀ symbol, doc.symbolAt? pos = some symbol → symbol.kind = .field → symbol.name ≠ newName →
        ∀ row line, doc.line? row = some line →
          (searchedLabels symbol.block symbol.name line row).Pairwise (¬ Clash line symbol.name · ·) := by
  unfold Document.renameAt
  cases found : doc.symbolAt? pos with
  | none => simp
  | some symbol =>
    simp only [Option.some.injEq, forall_eq']
    by_cases same : symbol.name = newName
    · simp [Symbol.rename, same]
    · have declared := Document.symbolAt?_declared found
      by_cases isName : symbol.kind.isBlockName = true
      · have onRows := rename_onRow declared isName same
        have rows := nodup_rename declared isName same
        have apart : (symbol.rename doc newName).Pairwise Edit.Apart := by
          refine (List.pairwise_map.mp rows).imp_of_mem fun {e f} memberE memberF differ => ?_
          obtain ⟨row, -, -, onE⟩ := onRows e memberE
          obtain ⟨row', -, -, onF⟩ := onRows f memberF
          exact Edit.apart_of_rows onE onF (by rwa [onE.1, onF.1] at differ)
        refine iff_of_true apart fun field => ?_
        rw [field] at isName
        contradiction
      · have noName := Bool.eq_false_iff.mpr isName
        obtain ⟨-, line, there, first⟩ := declared.inside noName
        have solid := word_of_mem_words (List.mem_of_head? first)
        cases kind : symbol.kind with
        | model | enum => simp [kind, SymbolKind.isBlockName] at isName
        | field =>
          have references : symbol.references newName doc =
              fieldReferences symbol.name newName doc symbol.block := by
            simp only [Symbol.references, kind]
          rw [rename_apart_iff declared noName same, references, fieldReferences_apart_iff]
          · simp [same]
          · exact fun e member => trails_fieldReferences solid (references ▸ member)
        | enumValue =>
          have references : symbol.references newName doc =
              enumValueReferences symbol.name newName doc symbol.block.name := by
            simp only [Symbol.references, kind]
          rw [rename_apart_iff declared noName same, references]
          · refine iff_of_true (enumValueReferences_apart _ _ _ _) fun field => ?_
            contradiction
          · exact fun e member => trails_enumValueReferences solid (references ▸ member)

/-- A label without a list of its own leads into the list of another label. The two edits coincide, or differ
and overlap where the name overlaps itself. -/
theorem renameAt_overlapping :
    let coinciding := Document.ofText ("model A \x7b\n  id Int @id\n".toList ++
      "  parent A @relation(fields: , references: [id])\n\x7d\n".toList) 0
    let crossing := Document.ofText ("model X \x7b\n".toList ++
      "-[- X @relation(fields: [x, @@id -[-[-])\n\x7d\n".toList) 0
    checkNewName "key".toList = .ok () ∧
      ¬ (coinciding.renameAt ⟨1, 3⟩ "key".toList).Pairwise Edit.Apart ∧
      ∃ e ∈ crossing.renameAt ⟨1, 1⟩ "key".toList, ∃ f ∈ crossing.renameAt ⟨1, 1⟩ "key".toList,
        e ≠ f ∧ ¬ e.Apart f := by
  refine ⟨by decide +kernel, by decide +kernel, ⟨⟨⟨1, 33⟩, ⟨1, 36⟩⟩, "key".toList⟩, by decide +kernel,
    ⟨⟨⟨1, 35⟩, ⟨1, 38⟩⟩, "key".toList⟩, by decide +kernel, by decide +kernel, by decide +kernel⟩

end SchemaServer
