import SchemaServer.Proofs.Block.Layout
import SchemaServer.Proofs.Guarded.Line

/-! Documents and their blocks with checked cuts and differences: a text is cut into lines piece by piece, a byte
offset is turned into a position by the start of its line, and one pass over the lines keeps the block that is
open. -/
namespace SchemaServer.Guarded

open Text

variable {doc : Document} {line s : Text} {pieces : List Piece}

/-! ## Lines -/

def isBreak (c : Char) : Bool := c = '\n' || c = '\r'

def splitLines (text : Text) : Except Fault (List Text) :=
  match charAt? isBreak text with
  | none => .ok [text]
  | some n => do
    let line ← cutFront text n
    let tail ← cutBack text n
    let size := if LineBreak.both.text.isPrefixOf tail then 2 else 1
    match _behind : cutBack text (n + size) with
    | .error fault => .error fault
    | .ok rest => return line :: (← splitLines rest)
termination_by byteLength text
decreasing_by
  have := cutBack_ok ‹_›
  have : 0 < size := by
    simp only [size]
    split <;> omega
  omega

theorem isBreak_of_unbroken (unbroken : line.Unbroken) : ∀ c ∈ line, isBreak c = false := by
  intro c member
  have feed : c ≠ '\n' := fun same => unbroken.1 (same ▸ member)
  have carriage : c ≠ '\r' := fun same => unbroken.2 (same ▸ member)
  simp [isBreak, feed, carriage]

/-- A text is one line or has a first break, which takes in a line feed behind a carriage return. -/
theorem unbroken_or_break (s : Text) : s.Unbroken ∨ ∃ line b rest, s = line ++ LineBreak.text b ++ rest ∧
    line.Unbroken ∧ (b = .carriage → rest.head? ≠ some '\n') := by
  induction s with
  | nil => exact .inl (by simp [Unbroken])
  | cons c r ih =>
    by_cases feed : c = '\n'
    · exact .inr ⟨[], .feed, r, by rw [feed]; rfl, by simp [Unbroken], by simp⟩
    · by_cases carriage : c = '\r'
      · cases r with
        | nil => exact .inr ⟨[], .carriage, [], by rw [carriage]; rfl, by simp [Unbroken], by simp⟩
        | cons d t =>
          by_cases both : d = '\n'
          · exact .inr ⟨[], .both, t, by rw [carriage, both]; rfl, by simp [Unbroken], by simp⟩
          · exact .inr ⟨[], .carriage, d :: t, by rw [carriage]; rfl, by simp [Unbroken], by simpa using both⟩
      · have other : Unbroken [c] := by simp [Unbroken, Ne.symm feed, Ne.symm carriage]
        rcases ih with plain | ⟨line, b, rest, rfl, unbroken, whole⟩
        · exact .inl (other.append plain)
        · exact .inr ⟨c :: line, b, rest, rfl, other.append unbroken, whole⟩

/-- The check for both characters measures the first break. -/
theorem break_size {b : LineBreak} (whole : b = .carriage → s.head? ≠ some '\n') :
    (if LineBreak.both.text.isPrefixOf (b.text ++ s) then 2 else 1) = byteLength b.text := by
  cases b with
  | feed => rfl
  | both => rfl
  | carriage =>
    cases s with
    | nil => rfl
    | cons c r =>
      have other : ¬ '\n' = c := fun same => whole rfl (by rw [same]; rfl)
      simp [LineBreak.text, List.isPrefixOf, other]
      rfl

theorem splitLines_eq (text : Text) : splitLines text = .ok ((Piece.ofText text).map Piece.line) := by
  induction size : text.length using Nat.strong_induction_on generalizing text with
  | _ size ih =>
    subst size
    rcases unbroken_or_break text with unbroken | ⟨line, b, rest, rfl, unbroken, whole⟩
    · rw [splitLines, charAt?_eq_none (isBreak_of_unbroken unbroken), Piece.ofText_unbroken unbroken]
      rfl
    · obtain ⟨c, r, head, breaks⟩ : ∃ c r, b.text = c :: r ∧ isBreak c = true := by
        cases b <;> exact ⟨_, _, rfl, rfl⟩
      have place : charAt? isBreak (line ++ b.text ++ rest) = some (byteLength line) := by
        rw [List.append_assoc, head]
        exact charAt?_append (isBreak_of_unbroken unbroken) breaks
      have front : cutFront (line ++ b.text ++ rest) (byteLength line) = .ok line := by
        rw [List.append_assoc, cutFront_append]
      have back : cutBack (line ++ b.text ++ rest) (byteLength line) = .ok (b.text ++ rest) := by
        rw [List.append_assoc, cutBack_append]
      have behind : cutBack (line ++ b.text ++ rest) (byteLength line + byteLength b.text) = .ok rest := by
        rw [← byteLength_append, cutBack_append]
      have later := ih rest.length (by simp [head]; omega) rest rfl
      rw [splitLines, place]
      dsimp only
      rw [front, ok_bind, back, ok_bind, break_size whole]
      split
      · rename_i failed
        rw [behind] at failed
        contradiction
      · rename_i tail cut
        rw [behind] at cut
        obtain rfl := Except.ok.inj cut
        rw [later, Piece.ofText_break unbroken whole]
        rfl

/-! ## Positions -/

/-- The row of a byte offset. An offset inside a line break is one of the line that it ends. -/
def rowOf : List Piece → Nat → Nat
  | [], _ => 0
  | p :: rest, byte =>
    if rest.isEmpty || byte < byteLength p.text then 0 else rowOf rest (byte - byteLength p.text) + 1

def rowStart (pieces : List Piece) (row : Nat) : Nat := byteLength ((pieces.take row).flatMap Piece.text)

def positionAtByte (doc : Document) (byte : Nat) : Except Fault Position :=
  let byte := min byte (byteLength doc.text)
  let row := rowOf doc.pieces byte
  match doc.line? row with
  | none => .ok ⟨row, 0⟩
  | some line => do
    let offset ← minus byte (rowStart doc.pieces row)
    return ⟨row, columnAt line (min offset (byteLength line))⟩

theorem columnAt_min (line : Text) (byte : Nat) : columnAt line (min byte (byteLength line)) = columnAt line byte := by
  rcases Nat.le_total byte (byteLength line) with inside | past
  · rw [Nat.min_eq_left inside]
  · rw [Nat.min_eq_right past, columnAt_of_le (Nat.le_refl _), columnAt_of_le past]

theorem byteLength_piece (p : Piece) : byteLength p.line ≤ byteLength p.text := by
  rw [Piece.text_eq, byteLength_append]
  omega

/-- Counting bytes down from piece to piece is the same as subtracting the start of the row. -/
theorem positionIn_eq (nonempty : pieces ≠ []) (row byte : Nat) :
    let inText := min byte (byteLength (pieces.flatMap Piece.text))
    let offset := inText - rowStart pieces (rowOf pieces inText)
    rowStart pieces (rowOf pieces inText) ≤ inText ∧ ∃ p, pieces[rowOf pieces inText]? = some p ∧
      Piece.positionIn row pieces byte =
        ⟨row + rowOf pieces inText, columnAt p.line (min offset (byteLength p.line))⟩ := by
  induction pieces generalizing row byte with
  | nil => contradiction
  | cons p rest ih =>
    have fits := byteLength_piece p
    have size : byteLength ((p :: rest).flatMap Piece.text) =
        byteLength p.text + byteLength (rest.flatMap Piece.text) := by
      rw [List.flatMap_cons, byteLength_append]
    rw [size]
    by_cases here : (rest.isEmpty || byte < byteLength p.text) = true
    · have inPiece : (rest.isEmpty ||
          min byte (byteLength p.text + byteLength (rest.flatMap Piece.text)) < byteLength p.text) = true := by
        simp only [Bool.or_eq_true, decide_eq_true_eq] at here ⊢
        exact here.imp_right fun below => Nat.lt_of_le_of_lt (Nat.min_le_left _ _) below
      have column : columnAt p.line (min (min byte (byteLength p.text + byteLength (rest.flatMap Piece.text)))
          (byteLength p.line)) = columnAt p.line byte := by
        rw [← columnAt_min p.line byte]
        congr 1
        omega
      have start : rowStart (p :: rest) 0 = 0 := rfl
      simp only [rowOf, inPiece, if_true, start, Nat.sub_zero]
      exact ⟨Nat.zero_le _, p, rfl, by rw [Piece.positionIn, if_pos here, column, Nat.add_zero]⟩
    · simp only [Bool.or_eq_true, decide_eq_true_eq, not_or, List.isEmpty_iff, Nat.not_lt] at here
      obtain ⟨more, behind⟩ := here
      obtain ⟨below, q, there, same⟩ := ih more (row + 1) (byte - byteLength p.text)
      have shift : min byte (byteLength p.text + byteLength (rest.flatMap Piece.text)) - byteLength p.text =
          min (byte - byteLength p.text) (byteLength (rest.flatMap Piece.text)) := by omega
      have later : ¬ (rest.isEmpty ||
          min byte (byteLength p.text + byteLength (rest.flatMap Piece.text)) < byteLength p.text) = true := by
        simp only [Bool.or_eq_true, decide_eq_true_eq, not_or, List.isEmpty_iff, more, not_false_eq_true, true_and]
        omega
      have start : ∀ k, rowStart (p :: rest) (k + 1) = byteLength p.text + rowStart rest k := by
        intro k
        rw [rowStart, List.take_succ_cons, List.flatMap_cons, byteLength_append]
        rfl
      simp only [rowOf, if_neg later, shift, start]
      refine ⟨by omega, q, by simpa using there, ?_⟩
      rw [Piece.positionIn, if_neg (by simp [more]; omega), same, Nat.add_right_comm, Nat.sub_add_eq, shift,
        Nat.add_assoc]

theorem positionAtByte_eq (doc : Document) (byte : Nat) :
    positionAtByte doc byte = .ok (doc.positionAtByte byte) := by
  have nonempty : doc.pieces ≠ [] := by
    rw [← List.length_pos_iff, Document.length_pieces]
    exact doc.lineCount_pos
  obtain ⟨below, p, there, same⟩ := positionIn_eq nonempty 0 byte
  rw [Document.text_pieces] at below there same
  have inDoc : doc.line? (rowOf doc.pieces (min byte (byteLength doc.text))) = some p.line := by
    rw [Document.line?, Document.lines_eq_pieces, List.getElem?_map, there, Option.map_some]
  rw [positionAtByte, inDoc]
  dsimp only
  rw [minus_of_le below, ok_bind, Document.positionAtByte, ← Document.pieces, same, Nat.zero_add]
  rfl

/-! ## Blocks -/

def close (doc : Document) (header : Header) (start stop : Nat) (terminated : Bool) : Block :=
  ⟨header.kind, header.name, ⟨start, 0⟩, ⟨stop, doc.width stop⟩, terminated⟩

/-- One pass over the lines; `pending` is the block that is open, with the row that opens it. -/
def scanBlocks (doc : Document) (pending : Option (Header × Nat)) :
    List (Text × Nat) → Except Fault (List Block)
  | [] => .ok <| match pending with
    | some (header, start) => [close doc header start (max (doc.lineCount - 1) start) false]
    | none => []
  | (line, row) :: rest =>
    match Header.ofLine? line with
    | some header => do
      let interrupted ← match pending with
        | some (previous, start) => do
          let stop ← minus row 1
          pure [close doc previous start stop false]
        | none => pure []
      return interrupted ++ (← scanBlocks doc (some (header, row)) rest)
    | none =>
      match pending with
      | some (header, start) =>
        if isClosing line then return close doc header start row true :: (← scanBlocks doc none rest)
        else scanBlocks doc (some (header, start)) rest
      | none => scanBlocks doc none rest

def blocks (doc : Document) : Except Fault (List Block) := scanBlocks doc none doc.rows

def blockAt? (doc : Document) (row : Nat) : Except Fault (Option Block) :=
  return (← blocks doc).find? (·.containsLine row)

def blockNames (doc : Document) (kind : BlockKind) : Except Fault (List Text) :=
  return ((← blocks doc).filter (·.kind = kind)).map Block.name

def nameRange? (block : Block) (doc : Document) : Except Fault (Option Range) :=
  whenSome (.ok (doc.line? block.start.line)) fun line =>
    whenSome (firstWordSpan line) fun (_, keywordEnd) =>
      whenSome (findIdentifier line block.name keywordEnd) fun start =>
        .ok (some (.ofSpan block.start.line line start (start + byteLength block.name)))

/-- Whether a line ends the open block decides where it stops. -/
theorem opened_cons (doc : Document) (header : Header) (start row : Nat) (line : Text) (rest : List (Text × Nat)) :
    Block.opened doc header start ((line, row) :: rest) =
      if isOpening line then close doc header start (row - 1) false
      else if isClosing line then close doc header start row true
      else Block.opened doc header start rest := by
  unfold Block.opened
  by_cases opening : isOpening line = true
  · simp [opening, close]
  · by_cases closing : isClosing line = true
    · simp [opening, closing, close]
    · simp [opening, closing]

/-- The block that is open ends where the rows below say, and the others open on those rows. -/
theorem scanBlocks_eq {pending : Option (Header × Nat)} {rows : List (Text × Nat)} (suffix : rows <:+ doc.rows)
    (below : ∀ x ∈ pending, x.2 < doc.lineCount ∧ ∀ y ∈ rows, x.2 < y.2) :
    scanBlocks doc pending rows =
      .ok ((pending.map fun x => Block.opened doc x.1 x.2 rows).toList ++ Block.inRows doc rows) := by
  induction rows generalizing pending with
  | nil =>
    cases pending with
    | none => rfl
    | some x =>
      have inDoc := (below x rfl).1
      have last : max (doc.lineCount - 1) x.2 = doc.lineCount - 1 := by omega
      rw [scanBlocks]
      simp [last, Block.opened, Block.inRows, close]
  | cons y rest ih =>
    obtain ⟨line, row⟩ := y
    have behind := (List.suffix_cons _ _).trans suffix
    have inDoc := Document.lt_lineCount (Block.mem_rows_suffix suffix)
    have stillBelow : ∀ x ∈ pending, x.2 < doc.lineCount ∧ ∀ y ∈ rest, x.2 < y.2 := fun x here =>
      ⟨(below x here).1, fun y member => (below x here).2 y (List.mem_cons_of_mem _ member)⟩
    unfold scanBlocks
    cases opens : Header.ofLine? line with
    | some header =>
      have opening : isOpening line = true := by simp [isOpening, opens]
      have later := @ih (some (header, row)) behind fun x here => by
        obtain rfl := Option.some.inj here
        exact ⟨inDoc, fun y member => ((Block.mem_rest_iff suffix).mp member).2⟩
      cases pending with
      | none => simp [later, Block.inRows, opens, pure, Except.pure]
      | some x =>
        have positive : 1 ≤ row := by
          have := (below x rfl).2 (line, row) List.mem_cons_self
          omega
        simp [later, Block.inRows, opens, opened_cons, opening, minus_of_le positive, pure, Except.pure]
    | none =>
      have opening : isOpening line = false := by simp [isOpening, opens]
      have later := @ih none behind (by simp)
      cases pending with
      | none => simp [later, Block.inRows, opens]
      | some x =>
        cases closing : isClosing line with
        | true => simp [later, Block.inRows, opens, opened_cons, opening, closing, pure, Except.pure]
        | false => simp [ih behind stillBelow, Block.inRows, opens, opened_cons, opening, closing]

@[simp] theorem blocks_eq (doc : Document) : blocks doc = .ok doc.blocks := by
  rw [blocks, scanBlocks_eq List.suffix_rfl (by simp)]
  rfl

@[simp] theorem blockAt?_eq (doc : Document) (row : Nat) : blockAt? doc row = .ok (doc.blockAt? row) := by
  rw [blockAt?, blocks_eq]
  rfl

@[simp] theorem blockNames_eq (doc : Document) (kind : BlockKind) :
    blockNames doc kind = .ok (doc.blockNames kind) := by
  rw [blockNames, blocks_eq]
  rfl

@[simp] theorem nameRange?_eq (block : Block) (doc : Document) :
    nameRange? block doc = .ok (block.nameRange? doc) := by
  simp [nameRange?, Block.nameRange?]

end SchemaServer.Guarded
