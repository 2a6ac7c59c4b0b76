import Mathlib.Data.List.Pairwise
import SchemaServer.Proofs.Edit.Apart
import SchemaServer.Proofs.Edit.Rewriting
import SchemaServer.Proofs.Text.Swap

/-! Edits that write one name in the place of another swap the name where they stand. -/
namespace SchemaServer

open Text

variable {cs ds : List Change} {line before after s old new : Text} {n : Nat}

namespace Change

/-- One of the two ends at or before the start of the other. -/
def Clear (c d : Change) : Prop := c.stop ≤ d.start ∨ d.stop ≤ c.start

theorem written_append (cs ds : List Change) (n : Nat) : written (cs ++ ds) n = written cs n ++ written ds n := by
  rw [written, List.filter_append, List.flatMap_append]
  rfl

theorem removes_append (cs ds : List Change) (n : Nat) : removes (cs ++ ds) n = (removes cs n || removes ds n) :=
  List.any_append

theorem written_cons (c : Change) (cs : List Change) (n : Nat) :
    written (c :: cs) n = written [c] n ++ written cs n := written_append [c] cs n

theorem removes_cons (c : Change) (cs : List Change) (n : Nat) :
    removes (c :: cs) n = (removes [c] n || removes cs n) := removes_append [c] cs n

/-- Changes behind a stretch have no part in it. -/
theorem rewrite_behind (behind : ∀ d ∈ ds, n + s.length ≤ d.start) : rewrite (cs ++ ds) n s = rewrite cs n s := by
  refine rewrite_congr fun m bound => ?_
  have silent : written ds (n + m) = [] := by
    have none : (ds.filter fun d => d.start = n + m) = [] := by
      simp only [List.filter_eq_nil_iff, decide_eq_true_eq]
      intro d member
      have := behind d member
      omega
    rw [written, none, List.flatMap_nil]
  have keeps : removes ds (n + m) = false := by
    simp only [removes, List.any_eq_false, Bool.and_eq_true, decide_eq_true_eq]
    intro d member
    have := behind d member
    omega
  rw [written_append, silent, List.append_nil, removes_append, keeps, Bool.or_false]
  exact ⟨rfl, rfl⟩

/-- A change clear of all others puts its text in the place of its stretch. -/
theorem rewrite_own {c : Change} (clear : cs.Pairwise Clear) (wide : ∀ d ∈ cs, d.start < d.stop) (member : c ∈ cs)
    (start : c.start = n) (stop : c.stop = n + s.length) : rewrite cs n s = c.newText := by
  have size := wide c member
  obtain ⟨front, back, rfl⟩ := List.append_of_mem member
  rw [List.pairwise_append, List.pairwise_cons] at clear
  obtain ⟨-, ⟨later, -⟩, apart⟩ := clear
  have outside : ∀ d ∈ front ++ back, d.stop ≤ n ∨ n + s.length ≤ d.start := by
    intro d inside
    rcases List.mem_append.mp inside with inFront | inBack
    · have := apart d inFront c List.mem_cons_self
      unfold Clear at this
      omega
    · have := later d inBack
      unfold Clear at this
      omega
  have silent : ∀ es ⊆ front ++ back, es ⊆ front ++ c :: back → ∀ m < s.length,
      written es (n + m) = [] ∧ removes es (n + m) = false := by
    intro es among inAll m bound
    constructor
    · have none : (es.filter fun d => d.start = n + m) = [] := by
        simp only [List.filter_eq_nil_iff, decide_eq_true_eq]
        intro d inside
        have := outside d (among inside)
        have := wide d (inAll inside)
        omega
      rw [written, none, List.flatMap_nil]
    · simp only [removes, List.any_eq_false, Bool.and_eq_true, decide_eq_true_eq]
      intro d inside
      have := outside d (among inside)
      omega
  have alone : rewrite (front ++ c :: back) n s = rewrite [c] n s := by
    refine rewrite_congr fun m bound => ?_
    obtain ⟨writtenFront, removesFront⟩ := silent front (by simp) (by simp) m bound
    obtain ⟨writtenBack, removesBack⟩ := silent back (by simp) (by simp) m bound
    constructor
    · rw [written_append, written_cons, writtenFront, writtenBack, List.nil_append, List.append_nil]
    · rw [removes_append, removes_cons, removesFront, removesBack, Bool.false_or, Bool.or_false]
  have nonempty : s ≠ [] := by
    rintro rfl
    simp only [List.length_nil] at stop
    omega
  rw [alone, rewrite_single start stop nonempty]

end Change

namespace Edit

variable {edits : List Edit} {e f : Edit} {row : Nat}

/-- What edits of a line make of its stretch `s` behind `before`. -/
def stretchOn (edits : List Edit) (line before s : Text) : Text :=
  Change.rewrite (edits.map (changeOn line)) before.length s

theorem applyOn_stretches (parts : line = before ++ s ++ after) : applyOn edits line =
    stretchOn edits line [] before ++ stretchOn edits line before s ++ stretchOn edits line (before ++ s) after ++
      Change.written (edits.map (changeOn line)) line.length := by
  subst parts
  rw [applyOn, Change.apply, Change.rewrite_append, Change.rewrite_append, Nat.zero_add, Nat.zero_add]
  rfl

theorem Apart.clear (apart : Apart e f) (onE : e.OnRow row) (onF : f.OnRow row) (line : Text) :
    Change.Clear (changeOn line e) (changeOn line f) := by
  have ordered : ∀ p q : Position, p ≤ q → p.line = q.line →
      (takeWithin unitSize p.character line).length ≤ (takeWithin unitSize q.character line).length := by
    intro p q le same
    rcases Position.le_iff.mp le with above | ⟨-, columns⟩
    · omega
    · exact length_takeWithin_mono unitSize line columns
  rcases apart with behind | ahead
  · exact .inl (ordered _ _ behind (onE.2.trans onF.1.symm))
  · exact .inr (ordered _ _ ahead (onF.2.trans onE.1.symm))

end Edit

/-- A name on a line behind `front ++ lead`. An edit of it replaces the stretch `lead ++ name ++ trail`. -/
structure Mention where
  front : Text
  lead : Text
  trail : Text

namespace Mention

def place (x : Mention) : Text := x.front ++ x.lead

def change (old new : Text) (x : Mention) : Change :=
  ⟨x.front.length, (x.place ++ old ++ x.trail).length, x.lead ++ new ++ x.trail⟩

def edit (row : Nat) (line old new : Text) (x : Mention) : Edit :=
  ⟨.ofSpan row line (byteLength x.front) (byteLength x.front + byteLength (x.lead ++ old ++ x.trail)),
    x.lead ++ new ++ x.trail⟩

def On (x : Mention) (name line : Text) : Prop := ∃ back, Stands name x.place (x.trail ++ back) line

variable {mentions : List Mention} {x y : Mention} {row : Nat}

theorem change_wide (nonempty : old ≠ []) (x : Mention) : (x.change old new).start < (x.change old new).stop := by
  have := List.length_pos_iff.mpr nonempty
  simp only [change, place, List.length_append]
  omega

theorem On.split (on : x.On old line) : ∃ back, line = x.front ++ (x.lead ++ old ++ x.trail ++ back) ∧
    (x.trail ++ back).head?.any isIdentifierChar = false := by
  obtain ⟨back, stands⟩ := on
  exact ⟨back, by rw [stands.parts, place]; simp, stands.free_after⟩

theorem On.changeOn_edit (on : x.On old line) (row : Nat) (new : Text) :
    Edit.changeOn line (x.edit row line old new) = x.change old new := by
  obtain ⟨back, parts, -⟩ := on.split
  have stretch : line = x.front ++ (x.lead ++ old ++ x.trail) ++ back := by simp [parts]
  rw [edit, Edit.changeOn_ofSpan stretch]
  simp [change, place]

theorem On.stop_le (on : x.On old line) : (x.place ++ old ++ x.trail).length ≤ line.length := by
  obtain ⟨back, stands⟩ := on
  rw [stands.parts]
  simp only [List.length_append]
  omega

theorem map_changeOn (on : ∀ x ∈ mentions, x.On old line) (row : Nat) (new : Text) :
    (mentions.map (edit row line old new)).map (Edit.changeOn line) = mentions.map (change old new) := by
  rw [List.map_map]
  exact List.map_congr_left fun x member => (on x member).changeOn_edit row new

theorem clear_of_apart (on : ∀ x ∈ mentions, x.On old line)
    (apart : (mentions.map (edit row line old new)).Pairwise Edit.Apart) :
    (mentions.map (change old new)).Pairwise Change.Clear := by
  rw [← map_changeOn on row new, List.pairwise_map]
  refine apart.imp_of_mem fun memberE memberF apart => ?_
  obtain ⟨x, -, rfl⟩ := List.mem_map.mp memberE
  obtain ⟨y, -, rfl⟩ := List.mem_map.mp memberF
  exact apart.clear onRow_ofSpan onRow_ofSpan line

/-- Nothing is written at the end of the line. -/
theorem written_end (nonempty : old ≠ []) (on : ∀ x ∈ mentions, x.On old line) :
    Change.written (mentions.map (change old new)) line.length = [] := by
  have none : ((mentions.map (change old new)).filter fun c => c.start = line.length) = [] := by
    simp only [List.filter_eq_nil_iff, decide_eq_true_eq]
    intro c inside
    obtain ⟨x, member, rfl⟩ := List.mem_map.mp inside
    have : (x.change old new).start < (x.change old new).stop := change_wide nonempty x
    have := (on x member).stop_le
    simp only [change] at *
    omega
  rw [Change.written, none, List.flatMap_nil]

/-- Of two mentions clear of each other neither stands in the stretch of the other. -/
theorem place_outside (nonempty : old ≠ []) (clear : Change.Clear (x.change old new) (y.change old new)) :
    y.place.length < x.front.length ∨ (x.place ++ old ++ x.trail).length ≤ y.place.length := by
  have := List.length_pos_iff.mpr nonempty
  simp only [Change.Clear, change, place, List.length_append] at *
  omega

/-- Behind each mention of a list the text goes on. -/
def places (mentions : List Mention) (b : Text) : Prop := ∃ x ∈ mentions, b = x.place

theorem free_places (on : ∀ x ∈ mentions, x.On old line) : Free (places mentions) := by
  rintro b ⟨x, member, rfl⟩
  obtain ⟨back, stands⟩ := on x member
  exact stands.free_before

section Stretch

variable (nonempty : old ≠ []) (clear : (mentions.map (change old new)).Pairwise Change.Clear)

include nonempty clear

omit nonempty in
theorem clear_of_ne (memberX : x ∈ mentions) (memberY : y ∈ mentions) (differ : x ≠ y) :
    Change.Clear (x.change old new) (y.change old new) := by
  have : Std.Symm fun x y : Mention => Change.Clear (x.change old new) (y.change old new) := ⟨fun _ _ => Or.symm⟩
  exact (List.pairwise_map.mp clear).forall memberX memberY differ

/-- The stretch of a mention holds no place but its own. -/
theorem place_eq (member : x ∈ mentions) (marked : places mentions before) (behind : x.front.length ≤ before.length)
    (ahead : before.length < (x.place ++ old ++ x.trail).length) : before.length = x.place.length := by
  obtain ⟨y, memberY, rfl⟩ := marked
  by_contra other
  have clear := clear_of_ne clear member memberY fun same => other (by rw [same])
  have := place_outside nonempty clear
  omega

/-- A mention that starts in front of the end of another ends there at the latest. -/
theorem stop_le (memberX : x ∈ mentions) (memberY : y ∈ mentions)
    (below : y.front.length < (x.place ++ old ++ x.trail).length) :
    (y.place ++ old ++ y.trail).length ≤ (x.place ++ old ++ x.trail).length := by
  by_cases same : x = y
  · rw [same]
  · have apart := clear_of_ne clear memberX memberY same
    have size := List.length_pos_iff.mpr nonempty
    simp only [Change.Clear, change, place, List.length_append] at *
    omega

/-- At a mention the name is replaced, with its surroundings kept. -/
theorem swapped_here (member : x ∈ mentions) (free : (x.trail ++ s).head?.any isIdentifierChar = false)
    (rest : Swapped (places mentions) old new (x.place ++ old ++ x.trail) s
      (Change.rewrite (mentions.map (change old new)) (x.place ++ old ++ x.trail).length s)) :
    Swapped (places mentions) old new x.front (x.lead ++ old ++ x.trail ++ s)
      (Change.rewrite (mentions.map (change old new)) x.front.length (x.lead ++ old ++ x.trail ++ s)) := by
  have size := List.length_pos_iff.mpr nonempty
  have wide : ∀ c ∈ mentions.map (change old new), c.start < c.stop := by
    intro c inside
    obtain ⟨x, -, rfl⟩ := List.mem_map.mp inside
    exact change_wide nonempty x
  have stop : (x.place ++ old ++ x.trail).length = x.front.length + (x.lead ++ old ++ x.trail).length := by
    simp [place]
  have own : Change.rewrite (mentions.map (change old new)) x.front.length (x.lead ++ old ++ x.trail) =
      x.lead ++ new ++ x.trail :=
    Change.rewrite_own clear wide (List.mem_map_of_mem member) rfl stop
  rw [stop] at rest
  rw [Change.rewrite_append, own]
  generalize Change.rewrite (mentions.map (change old new)) _ s = t at rest ⊢
  have trailed : Swapped (places mentions) old new (x.place ++ old) (x.trail ++ s) (x.trail ++ t) := by
    refine .run (fun u shorter marked => ?_) rest
    have := place_eq nonempty clear member marked
    simp only [place, List.length_append] at this
    omega
  have led : Swapped (places mentions) old new x.front (x.lead ++ (old ++ (x.trail ++ s)))
      (x.lead ++ (new ++ (x.trail ++ t))) := by
    refine .run (fun u shorter marked => ?_) (.swap ⟨x, member, rfl⟩ free trailed)
    have := place_eq nonempty clear member marked
    simp only [place, List.length_append] at this
    omega
  simpa using led

omit clear in
/-- Between mentions a character is kept. -/
theorem swapped_away {c : Char} (away : ∀ x ∈ mentions, x.front.length ≠ before.length)
    (starts : ∀ x ∈ mentions, x.front.length < before.length → (x.place ++ old ++ x.trail).length ≤ before.length)
    (rest : Swapped (places mentions) old new (before ++ [c]) s
      (Change.rewrite (mentions.map (change old new)) (before ++ [c]).length s)) :
    Swapped (places mentions) old new before (c :: s)
      (Change.rewrite (mentions.map (change old new)) before.length (c :: s)) := by
  have size := List.length_pos_iff.mpr nonempty
  have silent : Change.written (mentions.map (change old new)) before.length = [] := by
    have none : ((mentions.map (change old new)).filter fun c => c.start = before.length) = [] := by
      simpa [List.filter_eq_nil_iff, change] using away
    rw [Change.written, none, List.flatMap_nil]
  have keeps : Change.removes (mentions.map (change old new)) before.length = false := by
    rw [Change.removes, List.any_eq_false]
    intro d inside
    obtain ⟨x, member, rfl⟩ := List.mem_map.mp inside
    have := away x member
    have := starts x member
    rw [Bool.and_eq_true, decide_eq_true_eq, decide_eq_true_eq]
    simp only [change]
    omega
  have unmarked : ¬ places mentions before := by
    rintro ⟨x, member, rfl⟩
    have := away x member
    have := starts x member
    simp only [place, List.length_append] at *
    omega
  rw [Change.rewrite, silent, keeps]
  exact .keep unmarked (by simpa using rest)

/-- Changes of mentions swap the name in a stretch that each of them lies in or outside of. -/
theorem rewrite_swapped (on : ∀ x ∈ mentions, x.On old line) (parts : line = before ++ (s ++ after))
    (starts : ∀ x ∈ mentions, x.front.length < before.length → (x.place ++ old ++ x.trail).length ≤ before.length)
    (ends : ∀ x ∈ mentions, x.front.length < (before ++ s).length →
      (x.place ++ old ++ x.trail).length ≤ (before ++ s).length) :
    Swapped (places mentions) old new before s
      (Change.rewrite (mentions.map (change old new)) before.length s) := by
  generalize measure : s.length = k
  induction k using Nat.strongRecOn generalizing before s with
  | _ k ih =>
    cases s with
    | nil => exact .nil
    | cons c r =>
      by_cases here : ∃ x ∈ mentions, x.front.length = before.length
      · obtain ⟨x, member, start⟩ := here
        obtain ⟨back, whole, free⟩ := (on x member).split
        rw [parts] at whole
        obtain ⟨rfl, tail⟩ := List.append_inj whole start.symm
        have reach := ends x member (by simp)
        have size := List.length_pos_iff.mpr nonempty
        obtain ⟨s, stretch⟩ : x.lead ++ old ++ x.trail <+: c :: r := by
          refine List.prefix_of_prefix_length_le ⟨back, tail.symm⟩ ⟨after, rfl⟩ ?_
          simp only [place, List.length_append] at reach ⊢
          omega
        rw [← stretch] at parts ends measure tail ⊢
        have stops : x.front ++ (x.lead ++ old ++ x.trail ++ s) = x.place ++ old ++ x.trail ++ s := by simp [place]
        have rest := ih s.length (by simp only [← measure, List.length_append]; omega) (by simpa [place] using parts)
          (fun y memberY => stop_le nonempty clear member memberY) (by rwa [stops] at ends) rfl
        refine swapped_here nonempty clear member ?_ rest
        obtain rfl : back = s ++ after := by simpa using tail.symm
        cases trail : x.trail with
        | cons d u => simpa [trail] using free
        | nil =>
          cases s with
          | nil => rfl
          | cons d u => simpa [trail] using free
      · have away : ∀ x ∈ mentions, x.front.length ≠ before.length := fun x member same => here ⟨x, member, same⟩
        have starts' : ∀ x ∈ mentions, x.front.length < (before ++ [c]).length →
            (x.place ++ old ++ x.trail).length ≤ (before ++ [c]).length := by
          intro x member below
          have := away x member
          have := starts x member
          simp only [List.length_append, List.length_singleton] at *
          omega
        have parts' : line = (before ++ [c]) ++ (r ++ after) := by simpa using parts
        rw [List.append_cons] at ends
        exact swapped_away nonempty away starts (ih r.length (by rw [← measure]; simp) parts' starts' ends rfl)

end Stretch

end Mention

end SchemaServer
