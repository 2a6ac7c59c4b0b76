import SchemaServer.Document

/-! A text and its pieces determine each other: the pieces of a text spell it, and a regular list of
pieces is the cut of what it spells. -/
namespace SchemaServer

variable {s line : Text} {ps rest : List Piece} {p q : Piece} {doc : Document} {row : Nat}

def Text.Unbroken (s : Text) : Prop := '\n' ∉ s ∧ '\r' ∉ s

theorem Text.Unbroken.append {t : Text} (hs : s.Unbroken) (ht : t.Unbroken) : (s ++ t).Unbroken := by
  simp only [Unbroken, List.mem_append, not_or] at *
  exact ⟨⟨hs.1, ht.1⟩, hs.2, ht.2⟩

theorem Text.Unbroken.of_append {t : Text} (h : (s ++ t).Unbroken) : s.Unbroken ∧ t.Unbroken := by
  simp only [Unbroken, List.mem_append, not_or] at *
  exact ⟨⟨h.1.1, h.2.1⟩, h.1.2, h.2.2⟩

namespace Piece

def breakText (p : Piece) : Text := p.ending.elim [] LineBreak.text

theorem text_eq (p : Piece) : p.text = p.line ++ p.breakText := rfl

/-- A piece with another one behind it ends in a break, and the two do not share one. -/
def Joins (p q : Piece) : Prop :=
  p.ending ≠ none ∧ ¬ (p.ending = some .carriage ∧ q = ⟨[], some .feed⟩)

/-- The form of a cut text: unbroken lines, each but the last with the longest break behind it. -/
def Regular : List Piece → Prop
  | [] => False
  | [p] => p.line.Unbroken ∧ p.ending = none
  | p :: q :: rest => p.line.Unbroken ∧ Joins p q ∧ Regular (q :: rest)

theorem Joins.breakText_ne_nil (joins : Joins p q) : p.breakText ≠ [] := by
  obtain ⟨b, ending⟩ := Option.ne_none_iff_exists'.mp joins.1
  rw [breakText, ending]
  cases b <;> simp [LineBreak.text]

theorem Regular.of_append {front back : List Piece} (h : Regular (front ++ p :: back)) : Regular (p :: back) := by
  induction front with
  | nil => exact h
  | cons q rest ih =>
    cases rest with
    | nil => exact h.2.2
    | cons r rest => exact ih h.2.2

theorem Regular.unbroken (h : Regular ps) (member : p ∈ ps) : p.line.Unbroken := by
  induction ps with
  | nil => contradiction
  | cons q rest ih =>
    cases rest with
    | nil =>
      obtain rfl := List.mem_singleton.mp member
      exact h.1
    | cons r rest =>
      rcases List.mem_cons.mp member with rfl | later
      · exact h.1
      · exact ih h.2.2 later

theorem Regular.push (h : Regular ps) (c : Char) : Regular (push c ps) := by
  cases ps with
  | nil => exact h.elim
  | cons p rest =>
    unfold Piece.push
    split
    · exact ⟨by simp [Text.Unbroken], ⟨by simp, by simp⟩, h⟩
    · rename_i noFeed
      split
      · split
        · rename_i same
          obtain ⟨rfl, rfl⟩ := List.cons.inj same
          cases rest with
          | nil => simp [Regular] at h
          | cons q rest => exact ⟨by simp [Text.Unbroken], ⟨by simp, by simp⟩, h.2.2⟩
        · rename_i apart
          refine ⟨by simp [Text.Unbroken], ⟨by simp, ?_⟩, h⟩
          rintro ⟨-, rfl⟩
          exact apart rest rfl
      · rename_i noCarriage
        have line : Text.Unbroken (c :: p.line) := by
          have := h.unbroken List.mem_cons_self
          simp only [Text.Unbroken, List.mem_cons, not_or] at *
          exact ⟨⟨Ne.symm noFeed, this.1⟩, Ne.symm noCarriage, this.2⟩
        cases rest with
        | nil => exact ⟨line, h.2⟩
        | cons q rest => exact ⟨line, h.2.1, h.2.2⟩

theorem regular_ofText (s : Text) : Regular (ofText s) := by
  induction s with
  | nil => exact ⟨by simp [Text.Unbroken], rfl⟩
  | cons c r ih => exact ih.push c

theorem text_push (c : Char) (ps : List Piece) : (push c ps).flatMap text = c :: ps.flatMap text := by
  unfold push
  split
  · rename_i same
    rw [same]
    rfl
  · split
    · rename_i same
      rw [same]
      split <;> rfl
    · split
      · rfl
      · rfl

/-- No character is lost: the pieces of a text spell it. -/
theorem text_ofText (s : Text) : (ofText s).flatMap text = s := by
  induction s with
  | nil => rfl
  | cons c r ih =>
    change (push c (ofText r)).flatMap text = c :: r
    rw [text_push, ih]

theorem push_unbroken (unbroken : line.Unbroken) (p : Piece) (rest : List Piece) :
    line.foldr push (p :: rest) = ⟨line ++ p.line, p.ending⟩ :: rest := by
  induction line with
  | nil => rfl
  | cons c r ih =>
    simp only [Text.Unbroken, List.mem_cons, not_or] at unbroken
    obtain ⟨⟨noFeed, feeds⟩, noCarriage, carriages⟩ := unbroken
    rw [List.foldr_cons, ih ⟨feeds, carriages⟩]
    unfold push
    rw [if_neg (Ne.symm noFeed), if_neg (Ne.symm noCarriage)]
    rfl

theorem push_break (joins : Joins p q) :
    p.breakText.foldr push (q :: rest) = ⟨[], p.ending⟩ :: q :: rest := by
  obtain ⟨line, ending⟩ := p
  obtain ⟨ended, apart⟩ := joins
  cases ending with
  | none => exact absurd rfl ended
  | some b =>
    cases b with
    | feed => rfl
    | both => rfl
    | carriage =>
      change push '\r' (q :: rest) = _
      unfold push
      rw [if_neg (by decide), if_pos rfl]
      split
      · rename_i same
        exact absurd ⟨rfl, (List.cons.inj same).1⟩ apart
      · rfl

/-- There is one way to cut a text. -/
theorem ofText_text (regular : Regular ps) : ofText (ps.flatMap text) = ps := by
  induction ps with
  | nil => exact regular.elim
  | cons p rest ih =>
    cases rest with
    | nil =>
      obtain ⟨unbroken, last⟩ := regular
      have plain : text p = p.line := by simp [text, last]
      rw [List.flatMap_cons, List.flatMap_nil, List.append_nil, plain, ofText, push_unbroken unbroken,
        List.append_nil, ← last]
    | cons q rest =>
      obtain ⟨unbroken, joins, following⟩ := regular
      rw [List.flatMap_cons, ofText, List.foldr_append, ← ofText, ih following, text_eq, List.foldr_append,
        push_break joins, push_unbroken unbroken, List.append_nil]

theorem ofText_unbroken (unbroken : line.Unbroken) : ofText line = [⟨line, none⟩] := by
  rw [ofText, push_unbroken unbroken, List.append_nil]

/-- The first break ends the first piece. -/
theorem ofText_break {b : LineBreak} (unbroken : line.Unbroken) (whole : b = .carriage → s.head? ≠ some '\n') :
    ofText (line ++ b.text ++ s) = ⟨line, some b⟩ :: ofText s := by
  have following := regular_ofText s
  have spelled := text_ofText s
  have regular : Regular (⟨line, some b⟩ :: ofText s) := by
    cases cut : ofText s with
    | nil =>
      rw [cut] at following
      exact following.elim
    | cons q rest =>
      rw [cut] at following spelled
      refine ⟨unbroken, ⟨by simp, ?_⟩, following⟩
      rintro ⟨carriage, rfl⟩
      exact whole (Option.some.inj carriage) (by rw [← spelled]; rfl)
  have cut := ofText_text regular
  rwa [List.flatMap_cons, spelled] at cut

/-- Pieces that may take the place of one: line feeds between them, its ending behind them, and no bare line
feed in front that was not there. -/
structure Replaces (p : Piece) (qs : List Piece) : Prop where
  parts : ∃ front line, qs = front ++ [⟨line, p.ending⟩] ∧ ∀ q ∈ front, q.ending = some .feed
  unbroken : ∀ q ∈ qs, q.line.Unbroken
  opens : qs.head? = some ⟨[], some .feed⟩ → p = ⟨[], some .feed⟩

/-- Pieces that end in a line feed go in front of any others. -/
theorem regular_feeds {front : List Piece} (feeds : ∀ q ∈ front, q.ending = some .feed)
    (unbroken : ∀ q ∈ front, q.line.Unbroken) (regular : Regular rest) : Regular (front ++ rest) := by
  induction front with
  | nil => exact regular
  | cons q front ih =>
    have later := ih (fun r member => feeds r (List.mem_cons_of_mem q member))
      fun r member => unbroken r (List.mem_cons_of_mem q member)
    have ending := feeds q List.mem_cons_self
    rw [List.cons_append]
    cases whole : front ++ rest with
    | nil =>
      rw [whole] at later
      exact later.elim
    | cons r more =>
      rw [whole] at later
      exact ⟨unbroken q List.mem_cons_self, ⟨by simp [ending], by simp [ending]⟩, later⟩

theorem Replaces.head (h : Replaces p qs) : ∃ q more, qs = q :: more := by
  obtain ⟨⟨front, line, rfl, -⟩, -, -⟩ := h
  cases front with
  | nil => exact ⟨_, _, rfl⟩
  | cons q more => exact ⟨q, _, rfl⟩

/-- Replacing pieces one by one keeps a text cut as it should be. -/
theorem Regular.flatMap {k : Nat} {replace : Piece × Nat → List Piece} (regular : Regular ps)
    (replaces : ∀ x ∈ ps.zipIdx k, Replaces x.1 (replace x)) : Regular ((ps.zipIdx k).flatMap replace) := by
  induction ps generalizing k with
  | nil => exact regular.elim
  | cons p rest ih =>
    rw [List.zipIdx_cons] at replaces ⊢
    have here := replaces _ List.mem_cons_self
    obtain ⟨front, line, parts, feeds⟩ := here.parts
    have unbroken := here.unbroken
    rw [List.flatMap_cons, parts, List.append_assoc]
    rw [parts] at unbroken
    refine regular_feeds feeds (fun q member => unbroken q (by simp [member])) ?_
    have last : line.Unbroken := unbroken ⟨line, p.ending⟩ (by simp)
    cases rest with
    | nil => exact ⟨last, regular.2⟩
    | cons q rest =>
      obtain ⟨-, ⟨ended, apart⟩, following⟩ := regular
      have later := ih following fun x member => replaces x (List.mem_cons_of_mem _ member)
      have next := replaces (q, k + 1) (by simp [List.zipIdx_cons])
      obtain ⟨r, more, nextParts⟩ := next.head
      rw [List.zipIdx_cons, List.flatMap_cons, nextParts] at later ⊢
      refine ⟨last, ⟨ended, fun ⟨carriage, bare⟩ => apart ⟨carriage, next.opens ?_⟩⟩, later⟩
      rw [nextParts, bare]
      rfl

end Piece

namespace Document

def pieces (doc : Document) : List Piece := Piece.ofText doc.text

theorem lines_eq_pieces (doc : Document) : doc.lines = doc.pieces.map Piece.line := doc.lines_eq

theorem regular_pieces (doc : Document) : Piece.Regular doc.pieces := Piece.regular_ofText doc.text

theorem text_pieces (doc : Document) : doc.pieces.flatMap Piece.text = doc.text := Piece.text_ofText doc.text

theorem length_pieces (doc : Document) : doc.pieces.length = doc.lineCount := by
  rw [lineCount, lines_eq_pieces, List.length_map]

theorem lineCount_pos (doc : Document) : 0 < doc.lineCount := by
  rw [← length_pieces]
  have := doc.regular_pieces
  cases found : doc.pieces with
  | nil => rw [found] at this; exact this.elim
  | cons p rest => simp

theorem unbroken_line (found : doc.line? row = some line) : line.Unbroken := by
  rw [line?, lines_eq_pieces, List.getElem?_map, Option.map_eq_some_iff] at found
  obtain ⟨p, member, rfl⟩ := found
  exact doc.regular_pieces.unbroken (List.mem_of_getElem? member)

theorem mem_rows_iff : (line, row) ∈ doc.rows ↔ doc.line? row = some line :=
  List.mem_zipIdx_iff_getElem?

theorem line?_of_mem_pieces {x : Piece × Nat} (member : x ∈ doc.pieces.zipIdx) :
    doc.line? x.2 = some x.1.line := by
  rw [line?, lines_eq_pieces, List.getElem?_map, List.mem_zipIdx_iff_getElem?.mp member, Option.map_some]

theorem line?_isSome_iff : (doc.line? row).isSome ↔ row < doc.lineCount := by
  simp [line?, lineCount]

theorem lt_lineCount (found : doc.line? row = some line) : row < doc.lineCount :=
  line?_isSome_iff.mp (by rw [found]; rfl)

theorem width_eq (found : doc.line? row = some line) : doc.width row = Text.unitLength line := by
  rw [width, found]
  rfl

theorem rows_sorted (doc : Document) : doc.rows.Pairwise fun x y => x.2 < y.2 := by
  rw [← List.pairwise_map (f := Prod.snd) (R := (· < ·)), rows, List.zipIdx_map_snd]
  exact List.pairwise_lt_range'

theorem drop_zipIdx (lines : List Text) (k m : Nat) :
    (lines.zipIdx k).drop m = (lines.zipIdx k).filter fun x => k + m ≤ x.2 := by
  induction lines generalizing k m with
  | nil => simp
  | cons line rest ih =>
    cases m with
    | zero =>
      symm
      rw [List.drop_zero, List.filter_eq_self]
      intro x member
      simpa using (List.mem_zipIdx member).1
    | succ m =>
      rw [List.zipIdx_cons, List.drop_succ_cons, ih, List.filter_cons_of_neg (by simp)]
      exact List.filter_congr fun x _ => by rw [Nat.add_right_comm, Nat.add_assoc]

theorem take_zipIdx (lines : List Text) (k m : Nat) :
    (lines.zipIdx k).take m = (lines.zipIdx k).filter fun x => x.2 < k + m := by
  induction lines generalizing k m with
  | nil => simp
  | cons line rest ih =>
    cases m with
    | zero =>
      symm
      rw [List.take_zero, List.filter_eq_nil_iff]
      intro x member
      simpa using (List.mem_zipIdx member).1
    | succ m =>
      rw [List.zipIdx_cons, List.take_succ_cons, ih, List.filter_cons_of_pos (by simp)]
      exact congrArg _ (List.filter_congr fun x _ => by rw [Nat.add_right_comm, Nat.add_assoc])

theorem rowsBetween_eq_filter (doc : Document) (first stop : Nat) :
    doc.rowsBetween first stop = doc.rows.filter fun x => first ≤ x.2 && x.2 < stop := by
  have dropped : doc.rows.drop first = (doc.lines.drop first).zipIdx first := by
    refine List.ext_getElem? fun i => ?_
    simp [rows, List.getElem?_drop, List.getElem?_zipIdx]
  rw [rowsBetween, dropped, take_zipIdx, ← dropped, rows, drop_zipIdx, List.filter_filter]
  apply List.filter_congr
  intro x _
  apply Bool.eq_iff_iff.mpr
  simp only [Bool.and_eq_true, decide_eq_true_eq]
  omega

end Document

end SchemaServer
