import SchemaServer.Proofs.Block.Header
import SchemaServer.Proofs.Document.Pieces

/-! Where blocks stand: each from its opening line to its last line, one behind the other, with bodies
that neither open nor close a block. -/
namespace SchemaServer

variable {doc : Document} {rest before after : List (Text × Nat)} {line : Text} {row : Nat}
variable {header : Header} {b c : Block}

open Text

namespace Block

theorem bodyContains_iff : b.bodyContains row = true ↔
    b.start.line < row ∧ (row < b.stop.line ∨ (b.terminated = false ∧ row = b.stop.line)) := by
  by_cases ended : b.terminated = true
  · simp [bodyContains, bodyRows, ended]
    omega
  · simp [bodyContains, bodyRows, ended]
    omega

theorem containsLine_iff : b.containsLine row = true ↔ b.start.line ≤ row ∧ row ≤ b.stop.line := by
  simp [containsLine]

theorem bodyContains_bounds (inside : b.bodyContains row = true) :
    b.start.line < row ∧ row ≤ b.stop.line := by
  have := bodyContains_iff.mp inside
  omega

theorem containsLine_of_bodyContains (inside : b.bodyContains row = true) : b.containsLine row = true := by
  have bounds := bodyContains_bounds inside
  exact containsLine_iff.mpr ⟨Nat.le_of_lt bounds.1, bounds.2⟩

theorem body_eq_filter (b : Block) (doc : Document) :
    b.body doc = doc.rows.filter fun x => b.bodyContains x.2 :=
  doc.rowsBetween_eq_filter _ _

theorem mem_body_iff : (line, row) ∈ b.body doc ↔ doc.line? row = some line ∧ b.bodyContains row = true := by
  rw [body_eq_filter, List.mem_filter, Document.mem_rows_iff]

/-- No row between two rows opens or closes a block. -/
def Plain (doc : Document) (first stop : Nat) : Prop := ∀ row line, first < row → row < stop →
  doc.line? row = some line → isOpening line = false ∧ isClosing line = false

/-- How far a block goes that opens on row `start`: its last row, and whether that row closes it. -/
inductive Extent (doc : Document) (start : Nat) : Nat → Bool → Prop
  | closed {stop : Nat} {line : Text} : start < stop → doc.line? stop = some line → isClosing line = true →
      Plain doc start stop → Extent doc start stop true
  | interrupted {next : Nat} {line : Text} : start < next → doc.line? next = some line →
      isOpening line = true → Plain doc start next → Extent doc start (next - 1) false
  | unfinished : Plain doc start doc.lineCount → Extent doc start (doc.lineCount - 1) false

/-- The block that its opening line and the rows below it describe. -/
structure Spans (doc : Document) (b : Block) : Prop where
  opens : ∃ line, doc.line? b.start.line = some line ∧ Header.ofLine? line = some ⟨b.kind, b.name⟩
  column : b.start.character = 0
  extent : Extent doc b.start.line b.stop.line b.terminated
  lineEnd : b.stop.character = doc.width b.stop.line

/-- What the lines of a block look like. -/
structure Placed (doc : Document) (b : Block) : Prop where
  opens : ∃ line, doc.line? b.start.line = some line ∧ Header.ofLine? line = some ⟨b.kind, b.name⟩
  column : b.start.character = 0
  ordered : b.start.line ≤ b.stop.line
  inside : b.stop.line < doc.lineCount
  lineEnd : b.stop.character = doc.width b.stop.line
  unopened : ∀ row line, b.start.line < row → row ≤ b.stop.line → doc.line? row = some line →
    isOpening line = false
  unclosed : ∀ row line, b.bodyContains row = true → doc.line? row = some line → isClosing line = false
  closes : b.terminated = true → b.start.line < b.stop.line ∧
    ∃ line, doc.line? b.stop.line = some line ∧ isClosing line = true

section Suffix

theorem mem_rows_suffix (suffix : (line, row) :: rest <:+ doc.rows) : doc.line? row = some line :=
  Document.mem_rows_iff.mp (suffix.subset List.mem_cons_self)

/-- The rows below a row are what follows it. -/
theorem mem_rest_iff {found : Text} {n : Nat} (suffix : (line, row) :: rest <:+ doc.rows) :
    (found, n) ∈ rest ↔ doc.line? n = some found ∧ row < n := by
  obtain ⟨front, whole⟩ := suffix
  have sorted := doc.rows_sorted
  rw [← whole, List.pairwise_append, List.pairwise_cons] at sorted
  obtain ⟨-, ⟨later, -⟩, apart⟩ := sorted
  rw [← Document.mem_rows_iff, ← whole]
  constructor
  · intro member
    exact ⟨by simp [member], later _ member⟩
  · rintro ⟨member, below⟩
    rcases List.mem_append.mp member with inFront | behind
    · have := apart _ inFront (line, row) List.mem_cons_self
      dsimp only at this
      omega
    · rcases List.mem_cons.mp behind with same | member
      · cases same
        omega
      · exact member

/-- In front of the first row with a property that rows can have, no row has it. -/
theorem unmarked_before (mark : Text → Bool) {stopLine found : Text} {stop n : Nat}
    (suffix : (line, row) :: rest <:+ doc.rows) (first : rest.find? (fun x => mark x.1) = some (stopLine, stop))
    (below : row < n) (above : n < stop) (here : doc.line? n = some found) : mark found = false := by
  obtain ⟨-, front, back, whole, unmarked⟩ := List.find?_eq_some_iff_append.mp first
  have member : (found, n) ∈ rest := (mem_rest_iff suffix).mpr ⟨here, below⟩
  have sorted := doc.rows_sorted.sublist suffix.sublist
  rw [List.pairwise_cons, whole, List.pairwise_append, List.pairwise_cons] at sorted
  obtain ⟨-, -, ⟨later, -⟩, -⟩ := sorted
  rw [whole, List.mem_append, List.mem_cons] at member
  rcases member with inFront | same | behind
  · simpa using unmarked _ inFront
  · cases same
    omega
  · have := later _ behind
    dsimp only at this
    omega

theorem opened_start (doc : Document) (header : Header) (row : Nat) (rest : List (Text × Nat)) :
    (opened doc header row rest).start = ⟨row, 0⟩ := by
  unfold opened
  dsimp only
  split
  · split <;> rfl
  · rfl

theorem opened_spans (suffix : (line, row) :: rest <:+ doc.rows) (opens : Header.ofLine? line = some header) :
    Spans doc (opened doc header row rest) := by
  have here := mem_rows_suffix suffix
  unfold opened
  cases found : rest.find? fun x => isOpening x.1 || isClosing x.1 with
  | none =>
    have unmarked := List.find?_eq_none.mp found
    refine ⟨⟨line, here, opens⟩, rfl, .unfinished fun n line below _ there => ?_, rfl⟩
    simpa using unmarked _ ((mem_rest_iff suffix).mpr ⟨there, below⟩)
  | some x =>
    obtain ⟨stopLine, stop⟩ := x
    have plain : Plain doc row stop := by
      intro n line below above there
      simpa using unmarked_before (fun line => isOpening line || isClosing line) suffix found below
        above there
    obtain ⟨there, below⟩ := (mem_rest_iff suffix).mp (List.mem_of_find?_eq_some found)
    have marked : (isOpening stopLine || isClosing stopLine) = true := by
      simpa using List.find?_some found
    dsimp only
    by_cases opening : isOpening stopLine = true
    · rw [if_pos opening]
      exact ⟨⟨line, here, opens⟩, rfl, .interrupted below there opening plain, rfl⟩
    · rw [if_neg opening]
      have closing : isClosing stopLine = true := by simpa [opening] using marked
      exact ⟨⟨line, here, opens⟩, rfl, .closed below there closing plain, rfl⟩

theorem isOpening_of_closing (closing : isClosing line = true) : isOpening line = false := by
  cases opens : Header.ofLine? line with
  | none => simp [isOpening, opens]
  | some header => simp [isClosing_of_header opens] at closing

/-- An unterminated block goes on over lines that neither open nor close one. -/
theorem Spans.placed_of_plain (spans : Spans doc b) (unended : b.terminated = false)
    (ordered : b.start.line ≤ b.stop.line) (inside : b.stop.line < doc.lineCount)
    (plain : Plain doc b.start.line (b.stop.line + 1)) : Placed doc b := by
  refine ⟨spans.opens, spans.column, ordered, inside, spans.lineEnd, ?_, ?_, by simp [unended]⟩
  · exact fun n line below above there => (plain n line below (by omega) there).1
  · intro n line within there
    obtain ⟨below, above⟩ := bodyContains_bounds within
    exact (plain n line below (by omega) there).2

theorem Spans.placed (spans : Spans doc b) : Placed doc b := by
  obtain ⟨first, here, -⟩ := spans.opens
  have bound := Document.lt_lineCount here
  have extent := spans.extent
  generalize stopEq : b.stop.line = stop, ended : b.terminated = terminated at extent
  cases extent with
  | closed below there closes plain =>
    refine ⟨spans.opens, spans.column, by omega, stopEq ▸ Document.lt_lineCount there, spans.lineEnd, ?_, ?_,
      fun _ => ⟨by omega, _, stopEq ▸ there, closes⟩⟩
    · intro n line above under inDoc
      rcases Nat.eq_or_lt_of_le under with last | strict
      · rw [last, stopEq, there] at inDoc
        exact Option.some.inj inDoc ▸ isOpening_of_closing closes
      · exact (plain n line above (by omega) inDoc).1
    · intro n line within inDoc
      have rows := bodyContains_iff.mp within
      simp only [ended, Bool.true_eq_false, false_and, or_false] at rows
      exact (plain n line rows.1 (by omega) inDoc).2
  | @interrupted next _ below there _ plain =>
    have inside := Document.lt_lineCount there
    refine spans.placed_of_plain ended (by omega) (by omega) ?_
    rwa [stopEq, Nat.sub_add_cancel (by omega)]
  | unfinished plain =>
    refine spans.placed_of_plain ended (by omega) (by omega) ?_
    rwa [stopEq, Nat.sub_add_cancel (by omega)]

/-- Each block in a run of lines is what its rows describe, and starts in it. -/
theorem inRows_spans {rows : List (Text × Nat)} (suffix : rows <:+ doc.rows) (member : b ∈ inRows doc rows) :
    Spans doc b ∧ ∃ line, (line, b.start.line) ∈ rows := by
  induction rows with
  | nil => contradiction
  | cons x rest ih =>
    obtain ⟨line, row⟩ := x
    have further := ih ((List.suffix_cons _ _).trans suffix)
    unfold inRows at member
    split at member
    · rename_i header opens
      rcases List.mem_cons.mp member with rfl | later
      · refine ⟨opened_spans suffix opens, line, ?_⟩
        rw [opened_start]
        exact List.mem_cons_self
      · obtain ⟨spans, line, inside⟩ := further later
        exact ⟨spans, line, List.mem_cons_of_mem _ inside⟩
    · obtain ⟨spans, line, inside⟩ := further member
      exact ⟨spans, line, List.mem_cons_of_mem _ inside⟩

theorem inRows_sorted {rows : List (Text × Nat)} (suffix : rows <:+ doc.rows) :
    (inRows doc rows).Pairwise fun b c => b.stop.line < c.start.line := by
  induction rows with
  | nil => exact List.Pairwise.nil
  | cons x rest ih =>
    obtain ⟨line, row⟩ := x
    have behind := (List.suffix_cons _ _).trans suffix
    unfold inRows
    split
    · rename_i header opens
      refine List.pairwise_cons.mpr ⟨?_, ih behind⟩
      intro c member
      obtain ⟨spans, first, inside⟩ := inRows_spans behind member
      obtain ⟨there, below⟩ := (mem_rest_iff suffix).mp inside
      obtain ⟨start, found, starts⟩ := spans.opens
      by_contra reaches
      have closed := (opened_spans suffix opens).placed.unopened c.start.line start
        (by rw [opened_start]; exact below) (by omega) found
      simp [isOpening, starts] at closed
    · exact ih behind

end Suffix

theorem nameRange?_of_written {lead keyword gap tail : Text} (there : doc.line? b.start.line = some line)
    (written : Header.Written line lead keyword gap b.name tail) :
    b.nameRange? doc = some (.ofSpan b.start.line line (byteLength (lead ++ keyword ++ gap))
      (byteLength (lead ++ keyword ++ gap) + byteLength b.name)) := by
  have found := findIdentifier_behind_blanks written.blankGap written.word written.stands
  rw [byteLength_append lead keyword] at found
  simp only [nameRange?, there, written.firstWord.span, found, Option.bind_eq_bind, Option.bind_some,
    Option.pure_def]

theorem Placed.written (placed : Placed doc b) : ∃ line lead keyword gap tail,
    doc.line? b.start.line = some line ∧ Header.Written line lead keyword gap b.name tail ∧
      BlockKind.ofKeyword? keyword = some b.kind := by
  obtain ⟨line, there, opens⟩ := placed.opens
  obtain ⟨lead, keyword, gap, tail, written, kind⟩ := Header.ofLine?_eq_some opens
  exact ⟨line, lead, keyword, gap, tail, there, written, kind⟩

end Block

namespace Document

open Block

theorem spans (member : b ∈ doc.blocks) : Spans doc b := (inRows_spans List.suffix_rfl member).1

theorem placed (member : b ∈ doc.blocks) : Placed doc b := (spans member).placed

theorem blocks_sorted (doc : Document) : doc.blocks.Pairwise fun b c => b.stop.line < c.start.line :=
  inRows_sorted List.suffix_rfl

theorem blocks_apart (hb : b ∈ doc.blocks) (hc : c ∈ doc.blocks) (other : b ≠ c) :
    b.stop.line < c.start.line ∨ c.stop.line < b.start.line :=
  List.Pairwise.forall_of_forall_of_flip
    (R := fun b c => b ≠ c → b.stop.line < c.start.line ∨ c.stop.line < b.start.line)
    (fun _ _ same => absurd rfl same) (doc.blocks_sorted.imp fun below _ => .inl below)
    (doc.blocks_sorted.imp fun below _ => .inr below) hb hc other

theorem block_unique (hb : b ∈ doc.blocks) (hc : c ∈ doc.blocks) (inB : b.containsLine row = true)
    (inC : c.containsLine row = true) : b = c := by
  rw [containsLine_iff] at inB inC
  by_contra other
  have := blocks_apart hb hc other
  omega

theorem block_eq_iff (hb : b ∈ doc.blocks) (hc : c ∈ doc.blocks) : b.start.line = c.start.line ↔ b = c := by
  refine ⟨fun same => ?_, fun same => by rw [same]⟩
  have inB := (placed hb).ordered
  have inC := (placed hc).ordered
  exact block_unique hb hc (containsLine_iff.mpr ⟨Nat.le_refl _, inB⟩) (containsLine_iff.mpr (by omega))

theorem blockAt?_eq_some_iff : doc.blockAt? row = some b ↔ b ∈ doc.blocks ∧ b.containsLine row = true := by
  unfold blockAt?
  constructor
  · exact fun found => ⟨List.mem_of_find?_eq_some found, by simpa using List.find?_some found⟩
  · rintro ⟨member, inside⟩
    cases found : doc.blocks.find? (·.containsLine row) with
    | none => simpa [inside] using List.find?_eq_none.mp found b member
    | some c =>
      have other : c.containsLine row = true := by simpa using List.find?_some found
      rw [block_unique (List.mem_of_find?_eq_some found) member other inside]

end Document

end SchemaServer
