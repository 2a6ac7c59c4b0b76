import SchemaServer.Proofs.Definition
import SchemaServer.Proofs.Rename.Preparation

/-! From a word to the block that it names. The definition, the symbol at its start and what hovering shows belong
together: a word with a definition has hover text of its name, and its definition is where that name can be renamed. -/
namespace SchemaServer

open Text

variable {doc : Document} {pos : Position} {b c : Block} {range : Range} {line name : Text} {kinds : List BlockKind}

namespace Document

/-! ## The first block of a name -/

/-- The first block of a name among the blocks of some kinds. -/
structure FirstNamed (doc : Document) (kinds : List BlockKind) (name : Text) (b : Block) : Prop where
  member : b ∈ doc.blocks
  kind : b.kind ∈ kinds
  named : b.name = name
  first : ∀ c ∈ doc.blocks, c.kind ∈ kinds → c.name = name → b.start.line ≤ c.start.line

/-- The look-up of a name among the blocks of some kinds. -/
def named? (doc : Document) (kinds : List BlockKind) (name : Text) : Option Block :=
  doc.blocks.find? fun b => b.kind ∈ kinds && b.name = name

theorem firstNamed_of_named? (found : doc.named? kinds name = some b) : doc.FirstNamed kinds name b := by
  obtain ⟨matched, front, back, whole, missed⟩ := List.find?_eq_some_iff_append.mp found
  simp only [Bool.and_eq_true, decide_eq_true_eq] at matched
  refine ⟨List.mem_of_find?_eq_some found, matched.1, matched.2, fun c member kind same => ?_⟩
  have sorted := doc.blocks_sorted
  rw [whole, List.pairwise_append, List.pairwise_cons] at sorted
  rw [whole, List.mem_append, List.mem_cons] at member
  rcases member with inFront | rfl | behind
  · simpa [kind, same] using missed c inFront
  · exact Nat.le_refl _
  · have later := sorted.2.1.1 c behind
    have ordered := (placed (List.mem_of_find?_eq_some found)).ordered
    omega

theorem named?_isSome_iff :
    (doc.named? kinds name).isSome = true ↔ ∃ b ∈ doc.blocks, b.kind ∈ kinds ∧ b.name = name := by
  simp [named?, List.find?_isSome]

theorem name_ne_nil (member : b ∈ doc.blocks) : b.name ≠ [] := by
  obtain ⟨_, _, _, _, _, -, written, -⟩ := (placed member).written
  exact written.word.1

theorem named?_nil : doc.named? kinds [] = none := by
  refine List.find?_eq_none.mpr fun b member => ?_
  simp [name_ne_nil member]

/-- No block has an empty name, so a cursor between blanks needs no case of its own. -/
theorem bind_typeNameAt? {α : Type} (there : doc.line? pos.line = some line) (f : Block → Option α) :
    ((doc.typeNameAt? pos).bind fun name => (doc.named? kinds name).bind f) =
      (doc.named? kinds (stripTypeModifiers (wordAt line pos.character))).bind f := by
  simp only [typeNameAt?, there, Option.bind_eq_bind, Option.bind_some, List.isEmpty_iff]
  split
  · rename_i none
    rw [none, named?_nil]
    rfl
  · rfl

theorem definitionAt?_eq_named? (there : doc.line? pos.line = some line) : doc.definitionAt? pos =
    (doc.named? [.model, .enum] (stripTypeModifiers (wordAt line pos.character))).bind (·.nameRange? doc) := by
  rw [← bind_typeNameAt? there]
  simp [definitionAt?, named?]

theorem hoverAt?_eq_named? (there : doc.line? pos.line = some line) : doc.hoverAt? pos =
    (doc.named? [.model, .enum, .typeAlias] (stripTypeModifiers (wordAt line pos.character))).map (·.markdown doc) := by
  rw [Option.map_eq_bind, ← bind_typeNameAt? there]
  simp [hoverAt?, named?, Bool.or_assoc]

end Document

/-! ## The name on the opening line -/

namespace Block

/-- The range covers the name of the block on its opening line, behind the keyword. -/
def Titles (b : Block) (doc : Document) (range : Range) : Prop :=
  range.start.line = b.start.line ∧ ∃ line lead keyword gap tail, Header.Written line lead keyword gap b.name tail ∧
    BlockKind.ofKeyword? keyword = some b.kind ∧ range.Covers doc (lead ++ keyword ++ gap) b.name tail

theorem exists_title (member : b ∈ doc.blocks) : ∃ range, b.nameRange? doc = some range ∧ b.Titles doc range := by
  obtain ⟨line, lead, keyword, gap, tail, there, written, known⟩ := (Document.placed member).written
  refine ⟨_, nameRange?_of_written there written, rfl, line, lead, keyword, gap, tail, written, known, ?_⟩
  exact Range.covers_ofSpan there written.stands.parts

theorem Titles.symbolAt? {kind : SymbolKind} (titles : b.Titles doc range) (member : b ∈ doc.blocks)
    (isName : kind.isBlockName = true) (owned : b.kind = kind.owner) :
    doc.symbolAt? range.start = some ⟨kind, b.name, b, b.start.line⟩ := by
  obtain ⟨onStart, line, lead, keyword, gap, tail, written, known, covers⟩ := titles
  have inside : b.containsLine b.start.line = true :=
    containsLine_iff.mpr ⟨Nat.le_refl _, (Document.placed member).ordered⟩
  have there : doc.line? range.start.line = some line := by rw [covers.line, written.stands.parts]
  refine Document.symbolAt?_eq_some_iff.mpr ⟨onStart.symm, ?_, line, there, ?_, if_pos isName⟩
  · exact Document.blockAt?_eq_some_iff.mpr ⟨member, onStart ▸ inside⟩
  · exact classify?_behind_keyword written known owned isName onStart (Nat.le_of_eq covers.start.symm)

theorem exists_kind (isType : b.kind ∈ [BlockKind.model, .enum]) :
    ∃ kind : SymbolKind, kind.isBlockName = true ∧ kind.owner = b.kind := by
  simp only [List.mem_cons, List.not_mem_nil, or_false] at isType
  rcases isType with model | enum
  · exact ⟨.model, rfl, model.symm⟩
  · exact ⟨.enum, rfl, enum.symm⟩

/-- What hovering over a block shows first. -/
def heading (b : Block) : Text := "```prisma\n".toList ++ b.kind.keyword ++ [' '] ++ b.name ++ "\n```".toList

theorem heading_prefix_markdown (b : Block) (doc : Document) : b.heading <+: b.markdown doc := by
  unfold markdown
  dsimp only
  split
  · exact List.prefix_rfl
  · rw [List.append_assoc _ "\n___\n".toList]
    exact List.prefix_append _ _

end Block

/-- A word has a definition just if a model or an enum has its name. The definition then covers that name on the opening
line of the first such block, behind the keyword. At its start the cursor is on the symbol of that block, which is
declared there, and hovering over the word shows the heading of a block of its name. -/
theorem Document.definitionAt?_consistent (there : doc.line? pos.line = some line)
    (word : stripTypeModifiers (wordAt line pos.character) = name) :
    ((doc.definitionAt? pos).isSome = true ↔ ∃ b ∈ doc.blocks, b.kind ∈ [BlockKind.model, .enum] ∧ b.name = name) ∧
      ∀ range, doc.definitionAt? pos = some range → ∃ b, doc.FirstNamed [.model, .enum] name b ∧ b.Titles doc range ∧
        (∃ symbol, doc.symbolAt? range.start = some symbol ∧ symbol.kind.isBlockName = true ∧
          symbol.kind.owner = b.kind ∧ symbol.name = name ∧ symbol.block = b ∧ symbol.declaration? doc = some range) ∧
        ∃ c text, doc.FirstNamed [.model, .enum, .typeAlias] name c ∧ doc.hoverAt? pos = some text ∧
          c.heading <+: text := by
  subst word
  rw [definitionAt?_eq_named? there, hoverAt?_eq_named? there]
  constructor
  · rw [← named?_isSome_iff]
    cases found : doc.named? [.model, .enum] (stripTypeModifiers (wordAt line pos.character)) with
    | none => rfl
    | some b =>
      obtain ⟨range, title, -⟩ := Block.exists_title (firstNamed_of_named? found).member
      simp [title]
  · intro range defined
    obtain ⟨b, found, title⟩ := Option.bind_eq_some_iff.mp defined
    have first := firstNamed_of_named? found
    obtain ⟨range', title', titles⟩ := Block.exists_title first.member
    obtain rfl := Option.some.inj (title.symm.trans title')
    obtain ⟨kind, isName, owned⟩ := Block.exists_kind first.kind
    have shown : (doc.named? [.model, .enum, .typeAlias] (stripTypeModifiers (wordAt line pos.character))).isSome := by
      refine named?_isSome_iff.mpr ⟨b, first.member, ?_, first.named⟩
      exact List.subset_append_left [BlockKind.model, .enum] [.typeAlias] first.kind
    obtain ⟨c, hovered⟩ := Option.isSome_iff_exists.mp shown
    refine ⟨b, first, titles, ⟨_, titles.symbolAt? first.member isName owned.symm, isName, owned, first.named, rfl, ?_⟩,
      c, c.markdown doc, firstNamed_of_named? hovered, ?_, c.heading_prefix_markdown doc⟩
    · rw [Symbol.declaration?, if_pos isName]
      exact title
    · rw [hovered, Option.map_some]

/-- A model that is named like its keyword, on an indented line with tabs and without a blank in front of the brace. -/
theorem Document.definitionAt?_consistent_keyword :
    let doc := ofText "model A \x7b\n  m model?\n\x7d\n\tmodel\tmodel\x7b\n\x7d\n".toList 0
    let title : Range := ⟨⟨3, 7⟩, ⟨3, 12⟩⟩
    doc.line? 1 = some "  m model?".toList ∧ stripTypeModifiers (wordAt "  m model?".toList 6) = "model".toList ∧
      doc.definitionAt? ⟨1, 6⟩ = some title ∧
      (∃ symbol, doc.symbolAt? title.start = some symbol ∧ symbol.name = "model".toList ∧
        symbol.declaration? doc = some title) ∧
      ∃ (c : Block) (text : Text), doc.hoverAt? ⟨1, 6⟩ = some text ∧ c.name = "model".toList ∧ c.heading <+: text := by
  intro doc title
  have there : doc.line? (⟨1, 6⟩ : Position).line = some "  m model?".toList := by decide +kernel
  have word : stripTypeModifiers (wordAt "  m model?".toList 6) = "model".toList := by decide +kernel
  have defined : doc.definitionAt? ⟨1, 6⟩ = some title := by decide +kernel
  obtain ⟨-, leads⟩ := definitionAt?_consistent there word
  obtain ⟨b, -, -, ⟨symbol, found, -, -, named, -, declared⟩, c, text, first, hovered, heading⟩ := leads title defined
  exact ⟨there, word, defined, ⟨symbol, found, named, declared⟩, c, text, hovered, first.named, heading⟩

end SchemaServer
