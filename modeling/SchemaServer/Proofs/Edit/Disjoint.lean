import Mathlib.Data.List.Pairwise
import SchemaServer.Proofs.Edit.Apart

/-! The check for overlaps compares neighbours in sorted order only. Where no range ends in front of its start this
decides every two edits, in whatever order they come. -/
namespace SchemaServer

variable {edits : List Edit} {ranges : List Range} {r s : Range} {p q t : Position}

/-! ## Order of positions and ranges -/

namespace Position

protected theorem le_refl (p : Position) : p ≤ p := .inr ⟨rfl, Nat.le_refl _⟩

protected theorem le_trans (pq : p ≤ q) (qt : q ≤ t) : p ≤ t := by
  rw [le_iff] at *
  omega

protected theorem le_total (p q : Position) : p ≤ q ∨ q ≤ p := by
  rw [le_iff, le_iff]
  omega

protected theorem le_antisymm (pq : p ≤ q) (qp : q ≤ p) : p = q := by
  rw [le_iff] at pq qp
  obtain ⟨line, character⟩ := p
  obtain ⟨line', character'⟩ := q
  simp only [Position.mk.injEq] at *
  omega

end Position

namespace Range

/-- One of the two ends at or before the start of the other. -/
def Apart (r s : Range) : Prop := r.stop ≤ s.start ∨ s.stop ≤ r.start

theorem le_iff : r ≤ s ↔ if r.start = s.start then r.stop ≤ s.stop else r.start ≤ s.start := Iff.rfl

theorem start_le (le : r ≤ s) : r.start ≤ s.start := by
  rw [le_iff] at le
  split at le
  · rename_i same
    exact same ▸ r.start.le_refl
  · exact le

protected theorem le_trans {a b c : Range} (ab : a ≤ b) (bc : b ≤ c) : a ≤ c := by
  have starts := Position.le_trans (start_le ab) (start_le bc)
  rw [le_iff]
  split
  · rename_i same
    have first : a.start = b.start := Position.le_antisymm (start_le ab) (same ▸ start_le bc)
    rw [le_iff, if_pos first] at ab
    rw [le_iff, if_pos (first.symm.trans same)] at bc
    exact Position.le_trans ab bc
  · exact starts

protected theorem le_total (a b : Range) : a ≤ b ∨ b ≤ a := by
  rw [le_iff, le_iff]
  by_cases same : a.start = b.start
  · rw [if_pos same, if_pos same.symm]
    exact a.stop.le_total b.stop
  · rw [if_neg same, if_neg (Ne.symm same)]
    exact a.start.le_total b.start

/-- Of two ranges in order, the first ends in front of the second if they are apart at all. -/
theorem stop_le_start_iff (le : r ≤ s) (ordered : s.start ≤ s.stop) : r.stop ≤ s.start ↔ Apart r s := by
  refine ⟨.inl, ?_⟩
  rintro (before | behind)
  · exact before
  · have same : r.start = s.start := Position.le_antisymm (start_le le) (Position.le_trans ordered behind)
    rw [le_iff, if_pos same] at le
    exact Position.le_trans le (same ▸ behind)

end Range

/-! ## Neighbours decide -/

theorem neighboursApart_iff (ordered : ∀ r ∈ ranges, r.start ≤ r.stop) :
    neighboursApart ranges = true ↔ ranges.Pairwise fun r s => r.stop ≤ s.start := by
  induction ranges with
  | nil => simp [neighboursApart]
  | cons r rest ih =>
    cases rest with
    | nil => simp [neighboursApart]
    | cons s rest =>
      have tail := ih fun t member => ordered t (List.mem_cons_of_mem r member)
      rw [neighboursApart, Bool.and_eq_true, decide_eq_true_eq, tail, List.pairwise_cons (a := r)]
      refine and_congr_left fun later => ⟨fun first t member => ?_, fun all => all s List.mem_cons_self⟩
      rcases List.mem_cons.mp member with rfl | member
      · exact first
      · have inOrder : s.start ≤ s.stop := ordered s (by simp)
        exact Position.le_trans (Position.le_trans first inOrder) ((List.pairwise_cons.mp later).1 t member)

namespace Edit

theorem Apart.symm {e f : Edit} (apart : Apart e f) : Apart f e := Or.symm apart

instance : Std.Symm Apart := ⟨fun _ _ => Apart.symm⟩

/-- An insertion where an edit starts or ends is clear of all that is clear of this edit. -/
theorem Apart.insertion {e f : Edit} {newText : Text} (apart : Apart e f) (ordered : e.range.start ≤ e.range.stop)
    (bound : p = e.range.start ∨ p = e.range.stop) : Apart ⟨⟨p, p⟩, newText⟩ f := by
  rcases bound with rfl | rfl
  · exact apart.imp_left (Position.le_trans ordered)
  · exact apart.imp_right fun behind => Position.le_trans behind ordered

theorem disjoint_iff_pairwise (ordered : ∀ e ∈ edits, e.range.start ≤ e.range.stop) :
    disjoint edits = true ↔ edits.Pairwise Apart := by
  have sorted : ((edits.map Edit.range).mergeSort fun r s => decide (r ≤ s)).Pairwise fun r s => decide (r ≤ s) :=
    List.pairwise_mergeSort
      (fun a b c ab bc => by simpa using Range.le_trans (of_decide_eq_true ab) (of_decide_eq_true bc))
      (fun a b => by simpa using a.le_total b) _
  have same := List.mergeSort_perm (edits.map Edit.range) fun r s => decide (r ≤ s)
  have inOrder : ∀ r ∈ edits.map Edit.range, r.start ≤ r.stop := by
    simpa using ordered
  have symmetric : ∀ {r s : Range}, Range.Apart r s → Range.Apart s r := Or.symm
  rw [disjoint, neighboursApart_iff fun r member => inOrder r (same.mem_iff.mp member)]
  calc ((edits.map Edit.range).mergeSort fun r s => decide (r ≤ s)).Pairwise (fun r s => r.stop ≤ s.start)
    _ ↔ ((edits.map Edit.range).mergeSort fun r s => decide (r ≤ s)).Pairwise Range.Apart := by
        constructor
        · exact fun all => all.imp .inl
        · intro apart
          refine (sorted.and apart).imp_of_mem fun {r s} _ member both => ?_
          exact (Range.stop_le_start_iff (of_decide_eq_true both.1) (inOrder s (same.mem_iff.mp member))).mpr both.2
    _ ↔ (edits.map Edit.range).Pairwise Range.Apart := same.pairwise_iff symmetric
    _ ↔ edits.Pairwise Apart := List.pairwise_map

theorem pairwise_apart_iff_getElem : edits.Pairwise Apart ↔
    ∀ (i j : Nat) (hi : i < edits.length) (hj : j < edits.length), i ≠ j → Apart edits[i] edits[j] := by
  rw [List.pairwise_iff_getElem]
  constructor
  · intro ascending i j hi hj differ
    rcases Nat.lt_or_gt_of_ne differ with below | above
    · exact ascending i j hi hj below
    · exact (ascending j i hj hi above).symm
  · exact fun all i j hi hj below => all i j hi hj (Nat.ne_of_lt below)

/-- The check for overlaps holds just if every two edits of the list are apart. So it does not depend on the order of
the edits, it refuses a list with the same range twice unless the range is empty, and an insertion where an edit
of the list starts or ends never changes the answer. -/
theorem disjoint_iff_apart (ordered : ∀ e ∈ edits, e.range.start ≤ e.range.stop) :
    (disjoint edits = true ↔
        ∀ (i j : Nat) (hi : i < edits.length) (hj : j < edits.length), i ≠ j → Apart edits[i] edits[j]) ∧
      (∀ others : List Edit, others.Perm edits → disjoint others = disjoint edits) ∧
      (∀ (i j : Nat) (hi : i < edits.length) (hj : j < edits.length), i ≠ j → edits[i].range = edits[j].range →
        edits[i].range.start ≠ edits[i].range.stop → disjoint edits = false) ∧
      ∀ e ∈ edits, ∀ p newText, p = e.range.start ∨ p = e.range.stop →
        disjoint (⟨⟨p, p⟩, newText⟩ :: edits) = disjoint edits := by
  have decides := disjoint_iff_pairwise ordered
  refine ⟨decides.trans pairwise_apart_iff_getElem, fun others same => ?_, fun i j hi hj differ twice wide => ?_,
    fun e member p newText bound => ?_⟩
  · rw [Bool.eq_iff_iff, decides, disjoint_iff_pairwise fun e member => ordered e (same.mem_iff.mp member)]
    exact same.pairwise_iff Apart.symm
  · rw [Bool.eq_false_iff, Ne, decides, pairwise_apart_iff_getElem]
    intro apart
    have inOrder := ordered edits[i] (List.getElem_mem hi)
    rcases apart i j hi hj differ with before | behind
    · exact wide (Position.le_antisymm inOrder (twice ▸ before))
    · exact wide (Position.le_antisymm inOrder (twice ▸ behind))
  · have inOrder := ordered e member
    have longer : ∀ f ∈ (⟨⟨p, p⟩, newText⟩ : Edit) :: edits, f.range.start ≤ f.range.stop := by
      simpa [Position.le_refl] using ordered
    rw [Bool.eq_iff_iff, decides, disjoint_iff_pairwise longer, List.pairwise_cons]
    refine and_iff_right_of_imp fun apart f there => ?_
    by_cases same : e = f
    · subst same
      rcases bound with rfl | rfl
      · exact .inl (Position.le_refl _)
      · exact .inr (Position.le_refl _)
    · exact (apart.forall member there same).insertion inOrder bound

/-- Two insertions at one place, which an edit over a line break touches, in front of an edit that starts there. -/
theorem disjoint_iff_apart_touching :
    let edits : List Edit := [⟨⟨⟨2, 0⟩, ⟨2, 4⟩⟩, "a".toList⟩, ⟨⟨⟨2, 0⟩, ⟨2, 0⟩⟩, "b".toList⟩,
      ⟨⟨⟨0, 7⟩, ⟨2, 0⟩⟩, []⟩, ⟨⟨⟨2, 0⟩, ⟨2, 0⟩⟩, "c".toList⟩]
    (∀ e ∈ edits, e.range.start ≤ e.range.stop) ∧ disjoint edits = true ∧ disjoint edits.reverse = true ∧
      disjoint (⟨⟨⟨2, 0⟩, ⟨2, 4⟩⟩, "d".toList⟩ :: edits) = false := by
  intro edits
  have ordered : ∀ e ∈ edits, e.range.start ≤ e.range.stop := by decide
  have longer : ∀ e ∈ (⟨⟨⟨2, 0⟩, ⟨2, 4⟩⟩, "d".toList⟩ : Edit) :: edits, e.range.start ≤ e.range.stop := by decide
  obtain ⟨decides, anyOrder, -, -⟩ := disjoint_iff_apart ordered
  obtain ⟨-, -, reported, -⟩ := disjoint_iff_apart longer
  have apart : disjoint edits = true := by
    rw [disjoint_iff_pairwise ordered]
    decide
  exact ⟨ordered, apart, (anyOrder _ (List.reverse_perm edits)).trans apart,
    reported 0 1 (by decide) (by decide) (by decide) rfl (by decide)⟩

end Edit

end SchemaServer
