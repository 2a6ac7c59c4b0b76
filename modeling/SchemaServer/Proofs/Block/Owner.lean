import SchemaServer.Proofs.Guarded.Document

/-! The block that owns a row, told by the lines alone: the nearest opening line above, unless a closing line
stands between. Rows in front of the first opening line and behind a closing line have no owner. -/
namespace SchemaServer

variable {doc : Document} {b c : Block} {row start m n : Nat} {line : Text} {t u : Bool}

namespace Block

/-- The block that opens on row `start` is still open in front of `row`, and no later one has opened. -/
structure Owns (doc : Document) (start row : Nat) : Prop where
  opening : ∃ line, doc.line? start = some line ∧ isOpening line = true
  ordered : start ≤ row
  unopened : ∀ n line, start < n → n ≤ row → doc.line? n = some line → isOpening line = false
  unclosed : ∀ n line, start < n → n < row → doc.line? n = some line → isClosing line = false

theorem Spans.opening (spans : Spans doc b) : ∃ line, doc.line? b.start.line = some line ∧
    isOpening line = true := by
  obtain ⟨line, there, header⟩ := spans.opens
  exact ⟨line, there, by simp [isOpening, header]⟩

theorem Placed.owns (placed : Placed doc b) (inside : b.containsLine row = true) :
    Owns doc b.start.line row := by
  obtain ⟨below, above⟩ := containsLine_iff.mp inside
  obtain ⟨line, there, header⟩ := placed.opens
  refine ⟨⟨line, there, by simp [isOpening, header]⟩, below, ?_, ?_⟩
  · exact fun n line after upTo => placed.unopened n line after (by omega)
  · exact fun n line after before =>
      placed.unclosed n line (bodyContains_iff.mpr ⟨after, .inl (by omega)⟩)

theorem Spans.containsLine_iff (spans : Spans doc b) (bound : row < doc.lineCount) :
    b.containsLine row = true ↔ Owns doc b.start.line row := by
  refine ⟨spans.placed.owns, fun owns => Block.containsLine_iff.mpr ⟨owns.ordered, ?_⟩⟩
  by_contra behind
  have extent := spans.extent
  generalize b.stop.line = stop, b.terminated = terminated at extent behind
  cases extent with
  | closed below there closes _ =>
    have closed := owns.unclosed _ _ below (by omega) there
    simp [closes] at closed
  | interrupted below there opens _ =>
    have opened := owns.unopened _ _ below (by omega) there
    simp [opens] at opened
  | unfinished _ => omega

/-- A row starts one block at most. -/
theorem Spans.unique (hb : Spans doc b) (hc : Spans doc c) (same : b.start.line = c.start.line) : b = c := by
  have rows : ∀ row < doc.lineCount, b.containsLine row = true ↔ c.containsLine row = true := by
    intro row bound
    rw [hb.containsLine_iff bound, hc.containsLine_iff bound, same]
  have stop : b.stop.line = c.stop.line := by
    have inC := (rows _ hb.placed.inside).mp (Block.containsLine_iff.mpr ⟨hb.placed.ordered, Nat.le_refl _⟩)
    have inB := (rows _ hc.placed.inside).mpr (Block.containsLine_iff.mpr ⟨hc.placed.ordered, Nat.le_refl _⟩)
    rw [Block.containsLine_iff] at inB inC
    omega
  have closed : ∀ {b c : Block}, Spans doc b → Spans doc c → b.start.line = c.start.line →
      b.stop.line = c.stop.line → b.terminated = true → c.terminated = true := by
    intro b c hb hc same stop ended
    by_contra unended
    obtain ⟨below, line, there, closes⟩ := hb.placed.closes ended
    have unclosed := hc.placed.unclosed b.stop.line line
      (bodyContains_iff.mpr ⟨by omega, .inr ⟨by simpa using unended, stop⟩⟩) there
    simp [closes] at unclosed
  have terminated : b.terminated = c.terminated := Bool.eq_iff_iff.mpr
    ⟨closed hb hc same stop, closed hc hb same.symm stop.symm⟩
  obtain ⟨_, here, header⟩ := hb.opens
  obtain ⟨_, there, header'⟩ := hc.opens
  rw [← same, here, Option.some.injEq] at there
  subst there
  obtain ⟨kind, name⟩ : b.kind = c.kind ∧ b.name = c.name := by simpa using header.symm.trans header'
  have startColumn : b.start.character = c.start.character := hb.column.trans hc.column.symm
  have stopColumn : b.stop.character = c.stop.character := by rw [hb.lineEnd, hc.lineEnd, stop]
  obtain ⟨_, _, ⟨_, _⟩, ⟨_, _⟩, _⟩ := b
  obtain ⟨_, _, ⟨_, _⟩, ⟨_, _⟩, _⟩ := c
  simp_all

/-- The blocks of a run of lines start on its opening lines, each once. -/
theorem inRows_starts (doc : Document) (rows : List (Text × Nat)) :
    (inRows doc rows).map (·.start.line) = (rows.filter fun x => isOpening x.1).map Prod.snd := by
  induction rows with
  | nil => rfl
  | cons x rest ih =>
    obtain ⟨line, row⟩ := x
    unfold inRows
    cases header : Header.ofLine? line with
    | some header' =>
      rw [List.filter_cons_of_pos (by simp [isOpening, header]), List.map_cons, List.map_cons, opened_start, ih]
    | none => rw [List.filter_cons_of_neg (by simp [isOpening, header]), ih]

end Block

namespace Document

open Block

theorem blocks_starts (doc : Document) :
    doc.blocks.map (·.start.line) = (doc.rows.filter fun x => isOpening x.1).map Prod.snd :=
  inRows_starts doc doc.rows

theorem exists_block (there : doc.line? row = some line) (opens : isOpening line = true) :
    ∃ b ∈ doc.blocks, b.start.line = row := by
  have member : row ∈ doc.blocks.map (·.start.line) := by
    rw [blocks_starts]
    exact List.mem_map.mpr ⟨(line, row), List.mem_filter.mpr ⟨mem_rows_iff.mpr there, opens⟩, rfl⟩
  exact List.mem_map.mp member

theorem mem_blocks_iff : b ∈ doc.blocks ↔ Spans doc b := by
  refine ⟨spans, fun described => ?_⟩
  obtain ⟨line, there, opens⟩ := described.opening
  obtain ⟨c, member, same⟩ := exists_block there opens
  rwa [described.unique (spans member) same.symm]

/-- The block at a row is the one that its owner describes, and the blocks of a document are those of its
opening lines, one behind the other, with bodies that neither open nor close a block. One pass over the lines that
remembers the open block finds the same. -/
theorem blockAt?_owner (doc : Document) :
    (∀ row, (doc.blockAt? row).isSome = true ↔ row < doc.lineCount ∧ ∃ start, Owns doc start row) ∧
      (∀ row b, doc.blockAt? row = some b ↔ row < doc.lineCount ∧ Owns doc b.start.line row ∧ Spans doc b) ∧
      (∀ b, b ∈ doc.blocks ↔ Spans doc b) ∧
      doc.blocks.map (·.start.line) = (doc.rows.filter fun x => isOpening x.1).map Prod.snd ∧
      (doc.blocks.map (·.start.line)).Pairwise (· < ·) ∧
      doc.blocks.Pairwise (fun b c => ∀ row, ¬ (b.containsLine row = true ∧ c.containsLine row = true)) ∧
      (∀ b ∈ doc.blocks, b.start.line ≤ b.stop.line ∧ b.stop.line < doc.lineCount ∧
        ∀ row line, b.bodyContains row = true → doc.line? row = some line →
          isOpening line = false ∧ isClosing line = false) ∧
      Guarded.scanBlocks doc none doc.rows = .ok doc.blocks ∧
      ∀ row, Guarded.blockAt? doc row = .ok (doc.blockAt? row) := by
  have owner : ∀ row b, doc.blockAt? row = some b ↔
      row < doc.lineCount ∧ Owns doc b.start.line row ∧ Spans doc b := by
    intro row b
    rw [blockAt?_eq_some_iff, mem_blocks_iff]
    constructor
    · rintro ⟨described, inside⟩
      have bound := (Block.containsLine_iff.mp inside).2
      exact ⟨Nat.lt_of_le_of_lt bound described.placed.inside, described.placed.owns inside, described⟩
    · rintro ⟨bound, owns, described⟩
      exact ⟨described, (described.containsLine_iff bound).mpr owns⟩
  refine ⟨fun row => ?_, owner, fun _ => mem_blocks_iff, doc.blocks_starts, ?_, ?_, ?_, Guarded.blocks_eq doc,
    Guarded.blockAt?_eq doc⟩
  · constructor
    · intro found
      obtain ⟨b, here⟩ := Option.isSome_iff_exists.mp found
      obtain ⟨bound, owns, -⟩ := (owner row b).mp here
      exact ⟨bound, _, owns⟩
    · rintro ⟨bound, start, owns⟩
      obtain ⟨line, there, opens⟩ := owns.opening
      obtain ⟨b, member, rfl⟩ := exists_block there opens
      rw [(owner row b).mpr ⟨bound, owns, spans member⟩]
      rfl
  · rw [List.pairwise_map]
    refine doc.blocks_sorted.imp_of_mem fun {b c} member _ below => ?_
    exact Nat.lt_of_le_of_lt (placed member).ordered below
  · refine doc.blocks_sorted.imp fun {b c} below row shared => ?_
    rw [Block.containsLine_iff, Block.containsLine_iff] at shared
    omega
  · intro b member
    have placed := placed member
    refine ⟨placed.ordered, placed.inside, fun row line inside there => ?_⟩
    obtain ⟨below, above⟩ := bodyContains_bounds inside
    exact ⟨placed.unopened row line below above there, placed.unclosed row line inside there⟩

end Document

end SchemaServer
