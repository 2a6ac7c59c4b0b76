import Mathlib.Data.List.Basic
import SchemaServer.Position
import SchemaServer.Proofs.Document.Pieces
import SchemaServer.Proofs.Text.Cut

/-! Applying edits to a text. All edits count in the text before: a character in no range is kept, and a
new text stands where its range starts. Edits that stay on one line are applied line by line. -/
namespace SchemaServer

/-- Characters in front of a position, in a text cut into pieces, the first of which is line `row`. -/
def Piece.offsetIn (row : Nat) : List Piece → Position → Nat
  | [], _ => 0
  | p :: rest, pos =>
    if pos.line ≤ row then (Text.takeWithin Text.unitSize pos.character p.line).length
    else p.text.length + offsetIn (row + 1) rest pos

/-- An edit with its range in characters. -/
structure Change where
  start : Nat
  stop : Nat
  newText : Text

namespace Change

/-- What goes in front of character `n`. -/
def written (changes : List Change) (n : Nat) : Text :=
  (changes.filter fun c => c.start = n).flatMap newText

def removes (changes : List Change) (n : Nat) : Bool := changes.any fun c => c.start ≤ n && n < c.stop

/-- Carries out the changes on a text that starts at character `n`, up to its last character. -/
def rewrite (changes : List Change) (n : Nat) : Text → Text
  | [] => []
  | c :: r => written changes n ++ (if removes changes n then [] else [c]) ++ rewrite changes (n + 1) r

def apply (changes : List Change) (s : Text) : Text := rewrite changes 0 s ++ written changes s.length

end Change

namespace Edit

/-- The change of an edit in a text cut into pieces, the first of which is line `row`. -/
def changeIn (row : Nat) (pieces : List Piece) (e : Edit) : Change :=
  ⟨Piece.offsetIn row pieces e.range.start, Piece.offsetIn row pieces e.range.stop, e.newText⟩

def changeOn (line : Text) (e : Edit) : Change :=
  ⟨(Text.takeWithin Text.unitSize e.range.start.character line).length,
    (Text.takeWithin Text.unitSize e.range.stop.character line).length, e.newText⟩

def applyOn (edits : List Edit) (line : Text) : Text := Change.apply (edits.map (changeOn line)) line

def OnLine (e : Edit) : Prop := e.range.stop.line = e.range.start.line

end Edit

/-- The text after all edits. -/
def Document.apply (doc : Document) (edits : List Edit) : Text :=
  Change.apply (edits.map (Edit.changeIn 0 doc.pieces)) doc.text

namespace Change

variable {cs ds : List Change} {s t : Text} {n k : Nat}

theorem rewrite_append (cs : List Change) (n : Nat) (s t : Text) :
    rewrite cs n (s ++ t) = rewrite cs n s ++ rewrite cs (n + s.length) t := by
  induction s generalizing n with
  | nil => rfl
  | cons c r ih =>
    rw [List.cons_append, rewrite, rewrite, ih, List.append_assoc, List.append_assoc, List.append_assoc,
      List.length_cons, Nat.add_right_comm, Nat.add_assoc]

/-- Only what happens at the characters of a text matters for it. -/
theorem rewrite_congr (same : ∀ m < s.length,
    written cs (n + m) = written ds (k + m) ∧ removes cs (n + m) = removes ds (k + m)) :
    rewrite cs n s = rewrite ds k s := by
  induction s generalizing n k with
  | nil => rfl
  | cons c r ih =>
    have first := same 0 (by simp)
    have rest := ih (n := n + 1) (k := k + 1) fun m bound => by
      simpa [Nat.add_assoc, Nat.add_comm 1] using same (m + 1) (by simpa using bound)
    simp only [Nat.add_zero] at first
    rw [rewrite, rewrite, first.1, first.2, rest]

theorem rewrite_kept (kept : ∀ m < s.length, written cs (n + m) = [] ∧ removes cs (n + m) = false) :
    rewrite cs n s = s := by
  induction s generalizing n with
  | nil => rfl
  | cons c r ih =>
    have first := kept 0 (by simp)
    have rest := ih (n := n + 1) fun m bound => by
      simpa [Nat.add_assoc, Nat.add_comm 1] using kept (m + 1) (by simpa using bound)
    simp only [Nat.add_zero] at first
    rw [rewrite, first.1, first.2, rest]
    rfl

theorem rewrite_removed (removed : ∀ m < s.length, written cs (n + m) = [] ∧ removes cs (n + m) = true) :
    rewrite cs n s = [] := by
  induction s generalizing n with
  | nil => rfl
  | cons c r ih =>
    have first := removed 0 (by simp)
    have rest := ih (n := n + 1) fun m bound => by
      simpa [Nat.add_assoc, Nat.add_comm 1] using removed (m + 1) (by simpa using bound)
    simp only [Nat.add_zero] at first
    rw [rewrite, first.1, first.2, rest]
    rfl

theorem apply_nil (s : Text) : apply [] s = s := by
  rw [apply, rewrite_kept (fun _ _ => ⟨rfl, rfl⟩)]
  exact List.append_nil s

theorem written_single (c : Change) (n : Nat) : written [c] n = if c.start = n then c.newText else [] := by
  by_cases here : c.start = n <;> simp [written, here]

theorem removes_single (c : Change) (n : Nat) : removes [c] n = (c.start ≤ n && n < c.stop) := by
  simp [removes]

theorem mem_rewrite {c : Char} (member : c ∈ rewrite cs n s) : c ∈ s ∨ ∃ d ∈ cs, c ∈ d.newText := by
  induction s generalizing n with
  | nil => contradiction
  | cons e r ih =>
    rw [rewrite, List.mem_append, List.mem_append] at member
    rcases member with (put | own) | later
    · obtain ⟨d, inside, there⟩ := List.mem_flatMap.mp put
      exact .inr ⟨d, (List.mem_filter.mp inside).1, there⟩
    · split at own
      · contradiction
      · exact .inl (List.mem_singleton.mp own ▸ List.mem_cons_self)
    · exact (ih later).imp_left (List.mem_cons_of_mem e)

theorem mem_apply {c : Char} (member : c ∈ apply cs s) : c ∈ s ∨ ∃ d ∈ cs, c ∈ d.newText := by
  rcases List.mem_append.mp member with inside | last
  · exact mem_rewrite inside
  · obtain ⟨d, inside, there⟩ := List.mem_flatMap.mp last
    exact .inr ⟨d, (List.mem_filter.mp inside).1, there⟩

theorem mem_rewrite_of_start {c : Char} {d : Change} (member : d ∈ cs) (text : c ∈ d.newText) (lower : n ≤ d.start)
    (upper : d.start < n + s.length) : c ∈ rewrite cs n s := by
  induction s generalizing n with
  | nil =>
    rw [List.length_nil] at upper
    omega
  | cons e r ih =>
    rw [rewrite, List.mem_append, List.mem_append]
    by_cases here : d.start = n
    · exact .inl (.inl (List.mem_flatMap.mpr ⟨d, List.mem_filter.mpr ⟨member, by simpa using here⟩, text⟩))
    · rw [List.length_cons] at upper
      exact .inr (ih (by omega) (by omega))

theorem mem_apply_of_mem {c : Char} {d : Change} (member : d ∈ cs) (inside : d.start ≤ s.length)
    (text : c ∈ d.newText) : c ∈ apply cs s := by
  rw [apply, List.mem_append]
  rcases Nat.eq_or_lt_of_le inside with last | earlier
  · exact .inr (List.mem_flatMap.mpr ⟨d, List.mem_filter.mpr ⟨member, by simpa using last⟩, text⟩)
  · exact .inl (mem_rewrite_of_start member text (Nat.zero_le _) (by simpa using earlier))

theorem rewrite_single {c : Change} (start : c.start = n) (stop : c.stop = n + s.length) (nonempty : s ≠ []) :
    rewrite [c] n s = c.newText := by
  obtain ⟨d, r, rfl⟩ := List.exists_cons_of_ne_nil nonempty
  rw [List.length_cons] at stop
  rw [rewrite, written_single, removes_single, if_pos start, rewrite_removed]
  · simp [start, stop]
  · intro m bound
    rw [written_single, removes_single, if_neg (by omega)]
    simp only [Bool.and_eq_true, decide_eq_true_eq, true_and]
    omega

theorem apply_single {before old after new : Text} (nonempty : old ≠ []) :
    apply [⟨before.length, before.length + old.length, new⟩] (before ++ old ++ after) =
      before ++ new ++ after := by
  have size := List.length_pos_iff.mpr nonempty
  generalize change : (⟨before.length, before.length + old.length, new⟩ : Change) = c
  have start : c.start = before.length := by rw [← change]
  have stop : c.stop = before.length + old.length := by rw [← change]
  have text : c.newText = new := by rw [← change]
  have front : rewrite [c] 0 before = before := by
    apply rewrite_kept
    intro m bound
    rw [written_single, removes_single, if_neg (by omega)]
    simp only [Bool.and_eq_false_iff, decide_eq_false_iff_not, true_and]
    omega
  have back : rewrite [c] (before.length + old.length) after = after := by
    apply rewrite_kept
    intro m bound
    rw [written_single, removes_single, if_neg (by omega)]
    simp only [Bool.and_eq_false_iff, decide_eq_false_iff_not, true_and]
    omega
  have ending : written [c] (before ++ old ++ after).length = [] := by
    rw [written_single, if_neg]
    simp only [List.length_append]
    omega
  rw [apply, ending, rewrite_append, rewrite_append, List.length_append, Nat.zero_add, front,
    rewrite_single start stop nonempty, Nat.zero_add, back, List.append_nil, text]

end Change

namespace Edit

variable {edits : List Edit} {row : Nat} {p : Piece} {rest : List Piece} {e : Edit}

theorem changeOn_bounds (line : Text) (e : Edit) :
    (changeOn line e).start ≤ line.length ∧ (changeOn line e).stop ≤ line.length := by
  have bound : ∀ n, (Text.takeWithin Text.unitSize n line).length ≤ line.length := by
    intro n
    have parts := congrArg List.length (Text.takeWithin_append_dropWithin Text.unitSize n line)
    rw [List.length_append] at parts
    omega
  exact ⟨bound _, bound _⟩

theorem changeIn_first (onLine : e.OnLine) (here : e.range.start.line = row) :
    changeIn row (p :: rest) e = changeOn p.line e := by
  rw [OnLine] at onLine
  simp [changeIn, changeOn, Piece.offsetIn, onLine, here]

theorem changeIn_later (onLine : e.OnLine) (later : row < e.range.start.line) :
    changeIn row (p :: rest) e =
      ⟨p.text.length + (changeIn (row + 1) rest e).start,
        p.text.length + (changeIn (row + 1) rest e).stop, e.newText⟩ := by
  rw [OnLine] at onLine
  simp [changeIn, Piece.offsetIn, onLine, Nat.not_le.mpr later]

theorem written_map (f : Edit → Change) (texts : ∀ e, (f e).newText = e.newText) (n : Nat) :
    Change.written (edits.map f) n = (edits.filter fun e => (f e).start = n).flatMap newText := by
  simp only [Change.written, List.filter_map, List.flatMap_map, texts]
  rfl

theorem removes_map (f : Edit → Change) (n : Nat) :
    Change.removes (edits.map f) n = edits.any fun e => (f e).start ≤ n && n < (f e).stop := by
  rw [Change.removes, List.any_map]
  rfl

/-- Applies edits to a text cut into pieces, the first of which is line `row`. -/
def applyIn (row : Nat) (pieces : List Piece) (edits : List Edit) : Text :=
  Change.apply (edits.map (changeIn row pieces)) (pieces.flatMap Piece.text)

section Cons

variable {q : Piece} {n : Nat}

/-- In front of the second piece only the edits of the first line count. -/
theorem changes_near (rest : List Piece) (onLine : ∀ e ∈ edits, e.OnLine)
    (inside : ∀ e ∈ edits, row ≤ e.range.start.line) (near : n < p.text.length) :
    Change.written (edits.map (changeIn row (p :: rest))) n =
        Change.written ((edits.filter fun e => e.range.start.line = row).map (changeOn p.line)) n ∧
      Change.removes (edits.map (changeIn row (p :: rest))) n =
        Change.removes ((edits.filter fun e => e.range.start.line = row).map (changeOn p.line)) n := by
  rw [written_map _ fun _ => rfl, written_map _ fun _ => rfl, removes_map, removes_map,
    List.filter_filter, List.any_filter]
  constructor
  · refine congrArg _ (List.filter_congr fun e member => ?_)
    rcases Nat.eq_or_lt_of_le (inside e member) with here | later
    · simp [changeIn_first (onLine e member) here.symm, here.symm]
    · simp only [changeIn_later (onLine e member) later, decide_eq_decide, ← Bool.decide_and]
      omega
  · apply Bool.eq_iff_iff.mpr
    simp only [List.any_eq_true, Bool.and_eq_true, decide_eq_true_eq]
    constructor
    · rintro ⟨e, member, cover⟩
      rcases Nat.eq_or_lt_of_le (inside e member) with here | later
      · rw [changeIn_first (onLine e member) here.symm] at cover
        exact ⟨e, member, here.symm, cover⟩
      · rw [changeIn_later (onLine e member) later] at cover
        dsimp only at cover
        omega
    · rintro ⟨e, member, here, cover⟩
      exact ⟨e, member, by rwa [changeIn_first (onLine e member) here]⟩

/-- Behind the first piece only the edits of later lines count. -/
theorem changes_far (rest : List Piece) (ended : p.line.length < p.text.length) (onLine : ∀ e ∈ edits, e.OnLine)
    (inside : ∀ e ∈ edits, row ≤ e.range.start.line) (n : Nat) :
    Change.written (edits.map (changeIn row (p :: rest))) (p.text.length + n) =
        Change.written ((edits.filter fun e => row < e.range.start.line).map (changeIn (row + 1) rest)) n ∧
      Change.removes (edits.map (changeIn row (p :: rest))) (p.text.length + n) =
        Change.removes ((edits.filter fun e => row < e.range.start.line).map
          (changeIn (row + 1) rest)) n := by
  rw [written_map _ fun _ => rfl, written_map _ fun _ => rfl, removes_map, removes_map,
    List.filter_filter, List.any_filter]
  constructor
  · refine congrArg _ (List.filter_congr fun e member => ?_)
    rcases Nat.eq_or_lt_of_le (inside e member) with here | later
    · have bounds := changeOn_bounds p.line e
      simp only [changeIn_first (onLine e member) here.symm, ← here, ← Bool.decide_and, decide_eq_decide]
      omega
    · simp [changeIn_later (onLine e member) later, later]
  · apply Bool.eq_iff_iff.mpr
    simp only [List.any_eq_true, Bool.and_eq_true, decide_eq_true_eq]
    constructor
    · rintro ⟨e, member, cover⟩
      rcases Nat.eq_or_lt_of_le (inside e member) with here | later
      · have bounds := changeOn_bounds p.line e
        rw [changeIn_first (onLine e member) here.symm] at cover
        omega
      · rw [changeIn_later (onLine e member) later] at cover
        exact ⟨e, member, later, by dsimp only at cover; omega⟩
    · rintro ⟨e, member, later, cover⟩
      refine ⟨e, member, ?_⟩
      rw [changeIn_later (onLine e member) later]
      dsimp only
      omega

theorem length_text (p : Piece) : p.text.length = p.line.length + p.breakText.length := by
  rw [Piece.text_eq, List.length_append]

/-- A line break stays, with what edits of its line write at the end of the line in front of it. -/
theorem rewrite_break {changes : List Change} {stop : Nat} {s : Text} (nonempty : s ≠ [])
    (bounds : ∀ c ∈ changes, c.start ≤ stop ∧ c.stop ≤ stop) :
    Change.rewrite changes stop s = Change.written changes stop ++ s := by
  obtain ⟨b, r, rfl⟩ := List.exists_cons_of_ne_nil nonempty
  have keeps : ∀ m, Change.removes changes (stop + m) = false := by
    intro m
    simp only [Change.removes, List.any_eq_false, Bool.and_eq_true, decide_eq_true_eq]
    intro c member
    have := bounds c member
    omega
  have silent : ∀ m, Change.written changes (stop + 1 + m) = [] := by
    intro m
    have none : (changes.filter fun c => c.start = stop + 1 + m) = [] := by
      simp only [List.filter_eq_nil_iff, decide_eq_true_eq]
      intro c member
      have := bounds c member
      omega
    rw [Change.written, none, List.flatMap_nil]
  rw [Change.rewrite, Change.rewrite_kept fun m _ => ⟨silent m, Nat.add_assoc stop 1 m ▸ keeps (1 + m)⟩,
    ← Nat.add_zero stop, keeps 0]
  simp

theorem applyIn_cons (ended : p.breakText ≠ []) (onLine : ∀ e ∈ edits, e.OnLine)
    (inside : ∀ e ∈ edits, row ≤ e.range.start.line) :
    applyIn row (p :: rest) edits =
      applyOn (edits.filter fun e => e.range.start.line = row) p.line ++ p.breakText ++
        applyIn (row + 1) rest (edits.filter fun e => row < e.range.start.line) := by
  have size := length_text p
  have breakSize := List.length_pos_iff.mpr ended
  let here := (edits.filter fun e => e.range.start.line = row).map (changeOn p.line)
  let later := (edits.filter fun e => row < e.range.start.line).map (changeIn (row + 1) rest)
  have near := fun n => changes_near (p := p) (n := n) rest onLine inside
  have far := changes_far (p := p) rest (by omega) onLine inside
  have line : Change.rewrite (edits.map (changeIn row (p :: rest))) 0 p.line =
      Change.rewrite here 0 p.line := by
    apply Change.rewrite_congr
    intro m bound
    exact near _ (by omega)
  have between : Change.rewrite (edits.map (changeIn row (p :: rest))) p.line.length p.breakText =
      Change.written here p.line.length ++ p.breakText := by
    rw [← rewrite_break ended]
    · apply Change.rewrite_congr
      intro m bound
      exact near _ (by omega)
    · intro c member
      obtain ⟨e, -, rfl⟩ := List.mem_map.mp member
      exact changeOn_bounds p.line e
  have others : Change.rewrite (edits.map (changeIn row (p :: rest))) p.text.length
      (rest.flatMap Piece.text) = Change.rewrite later 0 (rest.flatMap Piece.text) := by
    apply Change.rewrite_congr
    intro m bound
    simpa using far m
  rw [applyIn, applyIn, applyOn, Change.apply, Change.apply, Change.apply, List.flatMap_cons,
    Change.rewrite_append, List.length_append, (far _).1, Nat.zero_add, others, Piece.text_eq,
    Change.rewrite_append, line, Nat.zero_add, between]
  simp only [List.append_assoc, here, later]

theorem applyIn_last (last : p.ending = none) (onLine : ∀ e ∈ edits, e.OnLine)
    (here : ∀ e ∈ edits, e.range.start.line = row) : applyIn row [p] edits = applyOn edits p.line := by
  have plain : p.text = p.line := by simp [Piece.text, last]
  have same : edits.map (changeIn row [p]) = edits.map (changeOn p.line) :=
    List.map_congr_left fun e member => changeIn_first (onLine e member) (here e member)
  rw [applyIn, applyOn, same, List.flatMap_cons, List.flatMap_nil, List.append_nil, plain]

theorem applyIn_eq (regular : Piece.Regular pieces) (onLine : ∀ e ∈ edits, e.OnLine)
    (inside : ∀ e ∈ edits, row ≤ e.range.start.line ∧ e.range.start.line < row + pieces.length) :
    applyIn row pieces edits = (pieces.zipIdx row).flatMap fun x =>
      applyOn (edits.filter fun e => e.range.start.line = x.2) x.1.line ++ x.1.breakText := by
  induction pieces generalizing row edits with
  | nil => exact regular.elim
  | cons p rest ih =>
    cases rest with
    | nil =>
      have here : ∀ e ∈ edits, e.range.start.line = row := by
        intro e member
        have := inside e member
        simp only [List.length_singleton] at this
        omega
      have all : (edits.filter fun e => e.range.start.line = row) = edits :=
        List.filter_eq_self.mpr fun e member => by simp [here e member]
      have plain : p.breakText = [] := by simp [Piece.breakText, regular.2]
      rw [applyIn_last regular.2 onLine here, List.zipIdx_singleton, List.flatMap_cons, List.flatMap_nil,
        all, plain, List.append_nil, List.append_nil]
    | cons q rest =>
      have ended := regular.2.1.breakText_ne_nil
      have following := @ih (edits.filter fun e => row < e.range.start.line) (row + 1)
        regular.2.2 (fun e member => onLine e (List.mem_filter.mp member).1) (by
          intro e member
          obtain ⟨member, later⟩ := List.mem_filter.mp member
          have := inside e member
          simp only [List.length_cons, decide_eq_true_eq] at this later ⊢
          omega)
      have rows : (p :: q :: rest).zipIdx row = (p, row) :: (q :: rest).zipIdx (row + 1) := rfl
      rw [applyIn_cons ended onLine fun e member => (inside e member).1, following, rows, List.flatMap_cons]
      congr 1
      apply List.flatMap_congr
      intro x member
      have := (List.mem_zipIdx member).1
      have same : ((edits.filter fun e => row < e.range.start.line).filter fun e =>
          e.range.start.line = x.2) = edits.filter fun e => e.range.start.line = x.2 := by
        rw [List.filter_filter]
        refine List.filter_congr fun e _ => ?_
        simp only [← Bool.decide_and, decide_eq_decide]
        omega
      rw [same]

end Cons

end Edit

/-- Edits that each stay on one line are applied line by line. -/
theorem Document.apply_eq (doc : Document) {edits : List Edit} (onLine : ∀ e ∈ edits, e.OnLine)
    (inside : ∀ e ∈ edits, e.range.start.line < doc.lineCount) :
    doc.apply edits = doc.pieces.zipIdx.flatMap fun x =>
      Edit.applyOn (edits.filter fun e => e.range.start.line = x.2) x.1.line ++ x.1.breakText := by
  rw [← Edit.applyIn_eq doc.regular_pieces onLine fun e member =>
    ⟨Nat.zero_le _, by simpa [doc.length_pieces] using inside e member⟩, Edit.applyIn, doc.text_pieces]
  rfl

end SchemaServer
