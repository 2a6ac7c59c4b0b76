import SchemaServer.Proofs.Rename.Structure

/-! The mapping lines of a block over a run of renames: the first rename of a block without one writes it, with
the name that the block has then, and every later rename leaves all of them as they are. -/
namespace SchemaServer

open Text

variable {doc : Document} {pos : Position} {symbol : Symbol} {newName line new : Text} {row : Nat}

def mappingLine (name : Text) : Text := "\t@@map(\"".toList ++ name ++ "\")".toList

/-- The lines of a body that map its block, with their rows. -/
def Block.mappings (b : Block) (doc : Document) : List (Text × Nat) :=
  (b.body doc).filter fun x => isBlockMapping x.1

/-- A document after its symbol at one position has taken one name after the other. -/
def Document.renamedAll (doc : Document) (pos : Position) : List Text → Document
  | [] => doc
  | name :: names => renamedAll (.ofText (doc.apply (doc.renameAt pos name)) (doc.version + 1)) pos names

namespace Block

variable {b : Block}

theorem mem_mappings_iff : (line, row) ∈ b.mappings doc ↔
    doc.line? row = some line ∧ b.bodyContains row = true ∧ isBlockMapping line = true := by
  rw [mappings, List.mem_filter, mem_body_iff, and_assoc]

theorem mappings_sorted (b : Block) (doc : Document) : (b.mappings doc).Pairwise fun x y => x.2 < y.2 := by
  rw [mappings, body_eq_filter]
  exact (doc.rows_sorted.filter _).filter _

end Block

theorem isBlockMapping_eq (line : Text) :
    isBlockMapping line = (words line).head?.any blockMapAttribute.isPrefixOf :=
  isPrefixOf_trim ⟨by decide, solid_of_all (by decide)⟩ line

theorem startsAttribute_of_isBlockMapping (maps : isBlockMapping line = true) : startsAttribute line = true := by
  obtain ⟨back, whole⟩ := List.isPrefixOf_iff_prefix.mp maps
  rw [startsAttribute, ← whole]
  rfl

/-- An attribute line in a body holds no edit. -/
theorem Retitled.eq_of_attribute (retitled : Retitled symbol newName row line new)
    (body : row ≠ symbol.block.start.line) (marked : startsAttribute line = true) : new = line := by
  cases retitled with
  | title start => exact absurd start body
  | reference _ _ unmarked =>
    rw [unmarked] at marked
    contradiction
  | kept => rfl

namespace Symbol

theorem rowAfter_inj {m n : Nat} : symbol.rowAfter doc m = symbol.rowAfter doc n ↔ m = n := by
  have shifted : ∀ row, (symbol.rewriting doc []).shift row = symbol.rowAfter doc row := shift_rewriting
  rw [← shifted, ← shifted, Rewriting.shift_inj]

theorem needsMapping_iff (isName : symbol.kind.isBlockName = true) :
    symbol.needsMapping doc = true ↔ symbol.block.mappings doc = [] := by
  rw [needsMapping, if_pos isName, Block.mappings, List.filter_eq_nil_iff]
  simp

/-- A rename writes a mapping for a block that has none and ends in a closing line. -/
theorem mappingEdit?_isSome_iff (isName : symbol.kind.isBlockName = true) :
    (symbol.mappingEdit? doc).isSome ↔ symbol.block.mappings doc = [] ∧ symbol.block.terminated = true := by
  rw [← needsMapping_iff isName, mappingEdit?, mapping?, if_pos isName]
  by_cases needed : symbol.needsMapping doc = true <;> by_cases ended : symbol.block.terminated = true <;>
    simp [needed, ended]

end Symbol

/-- The symbol after its rename; `doc'` is the document with its new lines. -/
def Symbol.after (symbol : Symbol) (newName : Text) (doc doc' : Document) : Symbol :=
  ⟨symbol.kind, newName, symbol.blockAfter newName doc doc' symbol.block, symbol.line⟩

/-! ## One rename -/

theorem classify?_blockName {line line' : Text} {b c : Block} {kind : SymbolKind} (isName : kind.isBlockName = true)
    (sameKind : c.kind = b.kind) (sameStart : c.start.line = b.start.line)
    (classified : SymbolKind.classify? pos line b = some kind) : SymbolKind.classify? pos line' c = some kind := by
  have start := (classify?_eq_some classified).2.1 isName
  unfold SymbolKind.classify? at classified ⊢
  rw [sameKind, sameStart]
  simpa only [start, if_true] using classified

namespace Retitling

variable (retitling : Retitling symbol doc newName)

include retitling

theorem rowAfter_start : symbol.rowAfter doc symbol.block.start.line = symbol.block.start.line := by
  refine if_neg fun ⟨mapped, behind⟩ => ?_
  have ended := ((Symbol.mappingEdit?_isSome_iff retitling.isName).mp mapped).2
  have := ((Document.placed retitling.declared.member).closes ended).1
  omega

theorem rowAfter_eq (mapped : symbol.block.mappings doc ≠ []) (row : Nat) : symbol.rowAfter doc row = row :=
  if_neg fun ⟨written, _⟩ => mapped ((Symbol.mappingEdit?_isSome_iff retitling.isName).mp written).1

/-- The block stands under the cursor again, with its new name. -/
theorem symbolAt?_after (found : doc.symbolAt? pos = some symbol) (version : Int) :
    let doc' := Document.ofText (doc.apply (symbol.rename doc newName)) version
    doc'.symbolAt? pos = some (symbol.after newName doc doc') := by
  intro doc'
  have isName := retitling.isName
  obtain ⟨onLine, owner, line, there, classified, -⟩ := Document.symbolAt?_eq_some_iff.mp found
  have here := (classify?_eq_some classified).2.1 isName
  have sameStart : (symbol.blockAfter newName doc doc' symbol.block).start.line = symbol.block.start.line :=
    retitling.rowAfter_start
  have there' := Rewriting.line?_shift (retitling.rewriting_writtenBy.carries version) there
  rw [Symbol.shift_rewriting, here, retitling.rowAfter_start, ← here] at there'
  have inDoc : symbol.blockAfter newName doc doc' symbol.block ∈ doc'.blocks := by
    rw [retitling.blocks_after version]
    exact List.mem_map_of_mem retitling.declared.member
  have ordered := (Document.placed inDoc).ordered
  have owner' := Document.blockAt?_eq_some_iff.mpr
    ⟨inDoc, Block.containsLine_iff.mpr (show _ ≤ pos.line ∧ pos.line ≤ _ by omega)⟩
  refine Document.symbolAt?_eq_some_iff.mpr ⟨onLine, owner', _, there', ?_, ?_⟩
  · exact classify?_blockName (b := symbol.block) isName rfl sameStart classified
  · have renamed : (symbol.blockAfter newName doc doc' symbol.block).name = newName := if_pos rfl
    exact (if_pos isName).trans (congrArg some renamed)

theorem isBlockMapping_rewriting (there : doc.line? row = some line) (inside : symbol.block.bodyContains row = true) :
    isBlockMapping ((symbol.rewriting doc newName).line row line) = isBlockMapping line ∧
      (isBlockMapping line = true → (symbol.rewriting doc newName).line row line = line) := by
  have unmapped : ¬ ((symbol.mappingEdit? doc).isSome ∧ row = symbol.block.stop.line) := by
    rintro ⟨mapped, rfl⟩
    have ended := ((Symbol.mappingEdit?_isSome_iff retitling.isName).mp mapped).2
    simp [Block.bodyContains_iff, ended] at inside
  have retitled := retitling.retitled_line row line there unmapped
  have below := (Block.bodyContains_bounds inside).1
  refine ⟨?_, fun maps => retitled.eq_of_attribute (by omega) (startsAttribute_of_isBlockMapping maps)⟩
  rw [isBlockMapping_eq, isBlockMapping_eq, retitled.words_head? retitling.word retitling.oldWord]

/-- A rename keeps the mapping lines of a block; where there are none, it writes one. -/
theorem mappings_after (terminated : symbol.block.terminated = true) (version : Int) :
    let doc' := Document.ofText (doc.apply (symbol.rename doc newName)) version
    (symbol.blockAfter newName doc doc' symbol.block).mappings doc' =
      if symbol.block.mappings doc = [] then [(mappingLine symbol.name, symbol.block.stop.line)]
      else symbol.block.mappings doc := by
  intro doc'
  have carries := retitling.rewriting_writtenBy.carries version
  have mapped : (symbol.mappingEdit? doc).isSome ↔ symbol.block.mappings doc = [] ∧ symbol.block.terminated = true :=
    Symbol.mappingEdit?_isSome_iff retitling.isName
  have inBody : ∀ row, (symbol.blockAfter newName doc doc' symbol.block).bodyContains
      ((symbol.rewriting doc newName).shift row) = symbol.block.bodyContains row := by
    intro row
    rw [← retitling.block_rewriting doc' retitling.declared.member, Rewriting.bodyContains_shift]
  refine eq_of_sorted_of_mem_iff Prod.snd (Block.mappings_sorted _ _) ?_ ?_
  · split
    · exact List.pairwise_singleton _ _
    · exact Block.mappings_sorted _ _
  · rintro ⟨line', row'⟩
    rw [Block.mem_mappings_iff, Rewriting.line?_iff carries]
    constructor
    · rintro ⟨⟨row, line, there, ⟨above, rfl, rfl⟩ | ⟨rfl, rfl⟩⟩, inside, maps⟩
      · obtain ⟨written, rfl⟩ := Symbol.above_rewriting.mp above
        rw [if_pos (mapped.mp written).1]
        exact List.mem_singleton_self _
      · rw [inBody] at inside
        obtain ⟨same, kept⟩ := retitling.isBlockMapping_rewriting there inside
        have maps := same.symm.trans maps
        have member := Block.mem_mappings_iff.mpr ⟨there, inside, maps⟩
        have listed : symbol.block.mappings doc ≠ [] := List.ne_nil_of_mem member
        rwa [if_neg listed, kept maps, Symbol.shift_rewriting, retitling.rowAfter_eq listed]
    · intro member
      by_cases bare : symbol.block.mappings doc = []
      · rw [if_pos bare] at member
        obtain ⟨rfl, rfl⟩ := Prod.mk.inj (List.mem_singleton.mp member)
        have written := mapped.mpr ⟨bare, terminated⟩
        obtain ⟨closing, there, -⟩ := retitling.mapped_line written
        refine ⟨⟨_, closing, there, .inl ⟨Symbol.above_rewriting.mpr ⟨written, rfl⟩, rfl, rfl⟩⟩, ?_, ?_⟩
        · have below := ((Document.placed retitling.declared.member).closes terminated).1
          have start := retitling.rowAfter_start
          have stop : symbol.rowAfter doc symbol.block.stop.line = symbol.block.stop.line + 1 :=
            if_pos ⟨written, Nat.le_refl _⟩
          rw [Block.bodyContains_iff]
          simp only [Symbol.blockAfter, start, stop]
          omega
        · rw [isBlockMapping_eq]
          change (words (symbol.rewriting doc newName).inserted).head?.any blockMapAttribute.isPrefixOf = true
          rw [retitling.words_inserted]
          rfl
      · rw [if_neg bare] at member
        obtain ⟨there, inside, maps⟩ := Block.mem_mappings_iff.mp member
        have kept := (retitling.isBlockMapping_rewriting there inside).2 maps
        have same := retitling.rowAfter_eq bare row'
        refine ⟨⟨row', line', there, .inr ⟨?_, kept.symm⟩⟩, ?_, maps⟩
        · rw [Symbol.shift_rewriting, same]
        · rw [← inside, ← inBody, Symbol.shift_rewriting, same]

/-- After its rename a block takes no other mapping: it has one, or no closing line to put it above. -/
theorem mappingEdit?_after (version : Int) :
    let doc' := Document.ofText (doc.apply (symbol.rename doc newName)) version
    (symbol.after newName doc doc').mappingEdit? doc' = none := by
  intro doc'
  refine Option.not_isSome_iff_eq_none.mp fun written => ?_
  have isName : (symbol.after newName doc doc').kind.isBlockName = true := retitling.isName
  obtain ⟨bare, terminated⟩ := (Symbol.mappingEdit?_isSome_iff isName).mp written
  have mappings := (retitling.mappings_after terminated version).symm.trans bare
  split at mappings
  · contradiction
  · contradiction

end Retitling

/-- One rename: the block stays under the cursor with its new name and at least one mapping line. -/
theorem renameAt_mappings (found : doc.symbolAt? pos = some symbol) (isName : symbol.kind.isBlockName = true)
    (terminated : symbol.block.terminated = true) (current : checkNewName symbol.name = .ok ())
    (accepted : checkNewName newName = .ok ()) (differ : newName ≠ symbol.name) (version : Int) :
    let doc' := Document.ofText (doc.apply (doc.renameAt pos newName)) version
    ∃ b, doc'.symbolAt? pos = some ⟨symbol.kind, newName, b, pos.line⟩ ∧ b.terminated = true ∧
      if symbol.block.mappings doc = [] then
        b.stop.line = symbol.block.stop.line + 1 ∧ b.mappings doc' = [(mappingLine symbol.name, symbol.block.stop.line)]
      else b.stop.line = symbol.block.stop.line ∧ b.mappings doc' = symbol.block.mappings doc := by
  have retitling := Retitling.of_checks found isName current accepted differ
  have edits : doc.renameAt pos newName = symbol.rename doc newName := by
    simp only [Document.renameAt, found]
  have mappings := retitling.mappings_after terminated version
  have onLine := (Document.symbolAt?_eq_some_iff.mp found).1
  rw [edits, ← onLine]
  refine ⟨_, retitling.symbolAt?_after found version, terminated, ?_⟩
  by_cases bare : symbol.block.mappings doc = []
  · rw [if_pos bare] at mappings ⊢
    have written := (Symbol.mappingEdit?_isSome_iff retitling.isName).mpr ⟨bare, terminated⟩
    exact ⟨if_pos ⟨written, Nat.le_refl _⟩, mappings⟩
  · rw [if_neg bare] at mappings ⊢
    exact ⟨retitling.rowAfter_eq bare _, mappings⟩

/-! ## A run of renames -/

section Run

variable {names : List Text}

theorem renamedAll_mapped (found : doc.symbolAt? pos = some symbol) (isName : symbol.kind.isBlockName = true)
    (terminated : symbol.block.terminated = true) (mapped : symbol.block.mappings doc ≠ [])
    (current : checkNewName symbol.name = .ok ()) (accepted : ∀ name ∈ names, checkNewName name = .ok ())
    (differ : (symbol.name :: names).IsChain (· ≠ ·)) :
    let last := doc.renamedAll pos names
    ∃ b, last.symbolAt? pos = some ⟨symbol.kind, names.getLastD symbol.name, b, pos.line⟩ ∧
      b.terminated = true ∧ b.stop.line = symbol.block.stop.line ∧ b.mappings last = symbol.block.mappings doc := by
  induction names generalizing doc symbol with
  | nil =>
    obtain ⟨here, -⟩ := Document.symbolAt?_eq_some_iff.mp found
    exact ⟨symbol.block, by rw [← here]; exact found, terminated, rfl, rfl⟩
  | cons name names ih =>
    obtain ⟨other, differ⟩ := List.isChain_cons_cons.mp differ
    have checked := accepted name List.mem_cons_self
    obtain ⟨b, found', ended, kept⟩ :=
      renameAt_mappings found isName terminated current checked other.symm (doc.version + 1)
    rw [if_neg mapped] at kept
    have later := ih found' isName ended (kept.2 ▸ mapped) checked
      (fun name member => accepted name (List.mem_cons_of_mem _ member)) differ
    rw [Document.renamedAll, List.getLastD_cons]
    rwa [kept.1, kept.2] at later

/-- A closed block under the cursor takes one mapping line over any run of renames, with its first name and right
above its closing line, unless it has mapping lines already: those stay as they are. -/
theorem renamedAll_mappings (found : doc.symbolAt? pos = some symbol) (isName : symbol.kind.isBlockName = true)
    (terminated : symbol.block.terminated = true) (current : checkNewName symbol.name = .ok ())
    (nonempty : names ≠ []) (accepted : ∀ name ∈ names, checkNewName name = .ok ())
    (differ : (symbol.name :: names).IsChain (· ≠ ·)) :
    let last := doc.renamedAll pos names
    ∃ b, last.symbolAt? pos = some ⟨symbol.kind, names.getLast nonempty, b, pos.line⟩ ∧
      b ∈ last.blocks ∧ b.name = names.getLast nonempty ∧ b.terminated = true ∧
      (∃ closing, last.line? b.stop.line = some closing ∧ isClosing closing = true) ∧
      (symbol.block.mappings doc = [] →
        ∃ row, row + 1 = b.stop.line ∧ b.mappings last = [(mappingLine symbol.name, row)]) ∧
      (symbol.block.mappings doc ≠ [] → b.mappings last = symbol.block.mappings doc) := by
  obtain ⟨name, names, rfl⟩ := List.exists_cons_of_ne_nil nonempty
  obtain ⟨other, differ⟩ := List.isChain_cons_cons.mp differ
  have checked := accepted name List.mem_cons_self
  obtain ⟨c, found', ended, first⟩ :=
    renameAt_mappings found isName terminated current checked other.symm (doc.version + 1)
  have mapped : c.mappings (.ofText (doc.apply (doc.renameAt pos name)) (doc.version + 1)) ≠ [] := by
    split at first
    · rw [first.2]
      exact List.cons_ne_nil _ _
    · rwa [first.2]
  obtain ⟨b, under, ended, stop, mappings⟩ := renamedAll_mapped found' isName ended mapped checked
    (fun name member => accepted name (List.mem_cons_of_mem _ member)) differ
  rw [List.getLast_eq_getLastD, Document.renamedAll]
  have declared := Document.symbolAt?_declared under
  have named := (declared.opening isName).1
  have closes := (Document.placed declared.member).closes ended
  refine ⟨b, under, declared.member, named.symm, ended, closes.2, fun bare => ?_, fun mapped => ?_⟩
  · rw [if_pos bare] at first
    exact ⟨symbol.block.stop.line, first.1.symm.trans stop.symm, mappings.trans first.2⟩
  · rw [if_neg mapped] at first
    exact mappings.trans first.2

end Run

/-- Two renames of a model without a mapping, and of one with two. -/
theorem renamedAll_mappings_model :
    let doc := Document.ofText ("model A \x7b\n  id Int\n\x7d\n".toList ++
      "model B \x7b\n  @@map(\"b\") // old\n  @@map(x)\n\x7d".toList) 0
    let a : Symbol := ⟨.model, "A".toList, ⟨.model, "A".toList, ⟨0, 0⟩, ⟨2, 1⟩, true⟩, 0⟩
    let b : Symbol := ⟨.model, "B".toList, ⟨.model, "B".toList, ⟨3, 0⟩, ⟨6, 1⟩, true⟩, 3⟩
    let names := ["C".toList, "D".toList]
    let lastA := doc.renamedAll ⟨0, 7⟩ names
    let lastB := doc.renamedAll ⟨3, 7⟩ names
    doc.symbolAt? ⟨0, 7⟩ = some a ∧ doc.symbolAt? ⟨3, 7⟩ = some b ∧
      (∃ c, lastA.symbolAt? ⟨0, 7⟩ = some ⟨.model, "D".toList, c, 0⟩ ∧
        ∃ row, row + 1 = c.stop.line ∧ c.mappings lastA = [("\t@@map(\"A\")".toList, row)]) ∧
      ∃ c, lastB.symbolAt? ⟨3, 7⟩ = some ⟨.model, "D".toList, c, 3⟩ ∧
        c.mappings lastB = [("  @@map(\"b\") // old".toList, 4), ("  @@map(x)".toList, 5)] := by
  intro doc a b names lastA lastB
  have foundA : doc.symbolAt? ⟨0, 7⟩ = some a := by decide +kernel
  have foundB : doc.symbolAt? ⟨3, 7⟩ = some b := by decide +kernel
  have bare : a.block.mappings doc = [] := by decide +kernel
  have listed : b.block.mappings doc = [("  @@map(\"b\") // old".toList, 4), ("  @@map(x)".toList, 5)] := by
    decide +kernel
  have nonempty : names ≠ [] := by decide
  have accepted : ∀ name ∈ names, checkNewName name = .ok () := by decide +kernel
  obtain ⟨c, under, -, -, -, -, written, -⟩ :=
    renamedAll_mappings foundA rfl rfl (by decide +kernel) nonempty accepted (by decide +kernel)
  obtain ⟨c', under', -, -, -, -, -, kept⟩ :=
    renamedAll_mappings foundB rfl rfl (by decide +kernel) nonempty accepted (by decide +kernel)
  have mapped : b.block.mappings doc ≠ [] := by
    rw [listed]
    exact List.cons_ne_nil _ _
  exact ⟨foundA, foundB, ⟨c, under, written bare⟩, c', under', (kept mapped).trans listed⟩

end SchemaServer
