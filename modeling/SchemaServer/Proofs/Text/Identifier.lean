import Mathlib.Data.Nat.Find
import Mathlib.Order.Bounds.Basic
import SchemaServer.Proofs.Text.Occurrence

/-! The search for an identifier. It goes from one occurrence to the first one behind it, up to one that stands alone.
Occurrences that overlap a refused one are not looked at: none of them stands alone, since the character in front of it
belongs to the refused one. -/
namespace SchemaServer.Text

variable {needle haystack before after : Text} {cursor start n p : Nat} {passed : List Nat} {result : Option Nat}

def OccursAt (needle haystack : Text) (n : Nat) : Prop :=
  ∃ before after, haystack = before ++ needle ++ after ∧ byteLength before = n

/-- The needle is at a byte offset, and no identifier character touches it. -/
def StandsAt (needle haystack : Text) (n : Nat) : Prop :=
  ∃ before after, Stands needle before after haystack ∧ byteLength before = n

theorem StandsAt.occursAt (stands : StandsAt needle haystack n) : OccursAt needle haystack n := by
  obtain ⟨before, after, stands, place⟩ := stands
  exact ⟨before, after, stands.parts, place⟩

theorem OccursAt.le (occurs : OccursAt needle haystack n) : n + byteLength needle ≤ byteLength haystack := by
  obtain ⟨before, after, rfl, rfl⟩ := occurs
  rw [byteLength_append, byteLength_append]
  omega

/-- Behind the start of an occurrence, the needle does not stand alone before its end. -/
theorem StandsAt.behind_occurrence (all : Identifying needle) (stands : StandsAt needle haystack n)
    (occurs : OccursAt needle haystack p) (later : p < n) : p + byteLength needle ≤ n := by
  obtain ⟨before, after, whole, rfl⟩ := occurs
  obtain ⟨upTo, rest, stands, rfl⟩ := stands
  have parts : haystack = before ++ (needle ++ after) := by rw [whole, List.append_assoc]
  have inLine : upTo <+: haystack := ⟨needle ++ rest, by rw [stands.parts, List.append_assoc]⟩
  obtain ⟨between, rfl⟩ :=
    prefix_of_total_le Char.utf8Size_pos ⟨needle ++ after, parts.symm⟩ inLine (Nat.le_of_lt later)
  by_contra across
  have inside : before ++ between <+: before ++ needle := by
    refine prefix_of_total_le Char.utf8Size_pos inLine ⟨after, whole.symm⟩ (Nat.le_of_lt ?_)
    change byteLength (before ++ between) < byteLength (before ++ needle)
    rw [byteLength_append before needle]
    omega
  have inNeedle : between <+: needle := (List.prefix_append_right_inj before).mp inside
  rcases List.eq_nil_or_concat between with rfl | ⟨init, c, rfl⟩
  · simp at later
  · have touched : isIdentifierChar c = true := all c (inNeedle.subset (by simp))
    have free := stands.free_before
    simp [touched] at free

/-! ## The rounds of a search -/

/-- A search from a byte offset on, with the occurrences that it passes over and its result. -/
inductive Search (needle haystack : Text) : Nat → List Nat → Option Nat → Prop
  | absent {cursor : Nat} (lacks : ∀ n, cursor ≤ n → ¬ OccursAt needle haystack n) :
      Search needle haystack cursor [] none
  | found {cursor n : Nat} (first : IsLeast {n | cursor ≤ n ∧ OccursAt needle haystack n} n)
      (whole : StandsAt needle haystack n) : Search needle haystack cursor [] (some n)
  | refused {cursor n : Nat} {passed : List Nat} {result : Option Nat}
      (first : IsLeast {n | cursor ≤ n ∧ OccursAt needle haystack n} n) (touched : ¬ StandsAt needle haystack n)
      (behind : Search needle haystack (n + byteLength needle) passed result) :
      Search needle haystack cursor (n :: passed) result

/-- Each round goes on behind the needle, so the search ends. -/
theorem exists_search (nonempty : needle ≠ []) (haystack : Text) (cursor : Nat) :
    ∃ passed result, Search needle haystack cursor passed result := by
  induction left : byteLength haystack + 1 - cursor using Nat.strong_induction_on generalizing cursor with
  | _ left ih =>
    subst left
    by_cases occurs : ∃ n, cursor ≤ n ∧ OccursAt needle haystack n
    · obtain ⟨n, first⟩ : ∃ n, IsLeast {n | cursor ≤ n ∧ OccursAt needle haystack n} n := by
        classical exact ⟨Nat.find occurs, Nat.find_spec occurs, fun _ later => Nat.find_min' occurs later⟩
      by_cases whole : StandsAt needle haystack n
      · exact ⟨[], some n, .found first whole⟩
      · have ahead := first.1.1
        have inside := first.1.2.le
        have size := byteLength_pos nonempty
        obtain ⟨passed, result, behind⟩ := ih _ (by omega) (n + byteLength needle) rfl
        exact ⟨n :: passed, result, .refused first whole behind⟩
    · exact ⟨[], none, .absent fun n ahead here => occurs ⟨n, ahead, here⟩⟩

namespace Search

/-- What is passed over does not stand alone, neither do occurrences that overlap it. -/
theorem passed_free (all : Identifying needle) (search : Search needle haystack cursor passed result)
    (member : p ∈ passed) (stands : StandsAt needle haystack n) : n < p ∨ p + byteLength needle ≤ n := by
  induction search with
  | absent | found => contradiction
  | refused first touched _ ih =>
    rcases List.mem_cons.mp member with rfl | later
    · rcases Nat.lt_trichotomy n p with front | rfl | behind
      · exact .inl front
      · exact absurd stands touched
      · exact .inr (stands.behind_occurrence all first.1.2 behind)
    · exact ih later

/-- A search passes over no place where the needle stands alone. -/
theorem reaches (all : Identifying needle) (search : Search needle haystack cursor passed result) (ahead : cursor ≤ n)
    (stands : StandsAt needle haystack n) : ∃ m, result = some m ∧ m ≤ n := by
  induction search with
  | absent lacks => exact absurd stands.occursAt (lacks n ahead)
  | found first => exact ⟨_, rfl, first.2 ⟨ahead, stands.occursAt⟩⟩
  | refused first touched _ ih =>
    rcases Nat.lt_or_eq_of_le (first.2 ⟨ahead, stands.occursAt⟩) with behind | rfl
    · exact ih (stands.behind_occurrence all first.1.2 behind)
    · exact absurd stands touched

theorem standsAt (search : Search needle haystack cursor passed (some n)) :
    cursor ≤ n ∧ StandsAt needle haystack n := by
  generalize found : some n = result at search
  induction search with
  | absent => contradiction
  | found first whole =>
    obtain rfl := Option.some.inj found
    exact ⟨first.1.1, whole⟩
  | refused first _ _ ih =>
    obtain ⟨ahead, stands⟩ := ih found
    have := first.1.1
    exact ⟨by omega, stands⟩

theorem eq_some_iff (all : Identifying needle) (search : Search needle haystack cursor passed result) :
    result = some n ↔ IsLeast {n | cursor ≤ n ∧ StandsAt needle haystack n} n := by
  constructor
  · rintro rfl
    refine ⟨search.standsAt, fun m ⟨ahead, stands⟩ => ?_⟩
    obtain ⟨k, same, le⟩ := search.reaches all ahead stands
    obtain rfl := Option.some.inj same
    exact le
  · intro least
    obtain ⟨m, rfl, le⟩ := search.reaches all least.1.1 least.1.2
    rw [Option.some.injEq]
    exact Nat.le_antisymm le (least.2 search.standsAt)

end Search

/-! ## The result -/

theorem findIdentifier_eq_some_iff (all : Identifying needle) (nonempty : needle ≠ [])
    (boundary : IsBoundary haystack start) :
    findIdentifier haystack needle start = some n ↔ IsLeast {n | start ≤ n ∧ StandsAt needle haystack n} n := by
  obtain ⟨front, behind, whole, rfl⟩ := boundary.split
  have least : ∀ m, byteLength front ≤ m → StandsAt needle haystack m →
      ∃ k, findIdentifier haystack needle (byteLength front) = some k ∧ k ≤ m := by
    rintro _ ahead ⟨before, after, stands, rfl⟩
    have inLine : before <+: haystack := ⟨needle ++ after, by rw [stands.parts, List.append_assoc]⟩
    exact findIdentifier_least all nonempty stands
      (prefix_of_total_le Char.utf8Size_pos ⟨behind, whole.symm⟩ inLine ahead)
  have stands : ∀ {k}, findIdentifier haystack needle (byteLength front) = some k →
      byteLength front ≤ k ∧ StandsAt needle haystack k := by
    intro k found
    obtain ⟨lead, before, after, reach, size, rfl, stands⟩ := findIdentifier_sound found
    exact ⟨size ▸ total_le_of_prefix _ reach, before, after, stands, rfl⟩
  constructor
  · intro found
    refine ⟨stands found, fun m ⟨ahead, alone⟩ => ?_⟩
    obtain ⟨k, same, le⟩ := least m ahead alone
    obtain rfl := Option.some.inj (found.symm.trans same)
    exact le
  · intro first
    obtain ⟨k, found, le⟩ := least n first.1.1 first.1.2
    rw [found, Option.some.injEq]
    exact Nat.le_antisymm le (first.2 (stands found))

/-- The search for an identifier ends at the first place from the start on where it stands alone, whatever stands in
front of the start, and fails if there is none. That is the result of going on behind each refused occurrence, which
passes over no place where the identifier stands alone. -/
theorem findIdentifier_first (all : Identifying needle) (nonempty : needle ≠ [])
    (boundary : IsBoundary haystack start) :
    (∀ n, findIdentifier haystack needle start = some n ↔ IsLeast {n | start ≤ n ∧ StandsAt needle haystack n} n) ∧
      (findIdentifier haystack needle start = none ↔ ∀ n, start ≤ n → ¬ StandsAt needle haystack n) ∧
      (∃ passed, Search needle haystack start passed (findIdentifier haystack needle start)) ∧
      ∀ passed result, Search needle haystack start passed result → result = findIdentifier haystack needle start ∧
        ∀ p ∈ passed, ∀ n, StandsAt needle haystack n → n < p ∨ p + byteLength needle ≤ n := by
  have decides : ∀ {passed result}, Search needle haystack start passed result →
      result = findIdentifier haystack needle start := by
    intro passed result search
    refine Option.ext fun n => ?_
    rw [search.eq_some_iff all, findIdentifier_eq_some_iff all nonempty boundary]
  obtain ⟨passed, result, search⟩ := exists_search nonempty haystack start
  have run := decides search ▸ search
  refine ⟨fun n => findIdentifier_eq_some_iff all nonempty boundary, ⟨fun none n ahead stands => ?_, fun absent => ?_⟩,
    ⟨passed, run⟩, fun _ _ search => ⟨decides search, fun p member n => search.passed_free all member⟩⟩
  · obtain ⟨m, found, -⟩ := run.reaches all ahead stands
    rw [none] at found
    contradiction
  · refine Option.eq_none_iff_forall_ne_some.mpr fun n found => ?_
    rw [found] at run
    exact absent n run.standsAt.1 run.standsAt.2

/-- In `aaa aa`, the occurrence at 0 is refused, the one at 1 overlaps it, and the one at 4 stands alone. -/
theorem findIdentifier_first_overlapping :
    Identifying "aa".toList ∧ "aa".toList ≠ [] ∧ IsBoundary "aaa aa".toList 0 ∧
      IsLeast {n | 0 ≤ n ∧ StandsAt "aa".toList "aaa aa".toList n} 4 ∧
      ∃ passed, Search "aa".toList "aaa aa".toList 0 passed (some 4) := by
  have all : Identifying "aa".toList := (isIdentifier_parts (by decide +kernel)).2
  have boundary : IsBoundary "aaa aa".toList 0 := by decide
  obtain ⟨least, -, ⟨passed, search⟩, -⟩ := findIdentifier_first all (by decide) boundary
  have found : findIdentifier "aaa aa".toList "aa".toList 0 = some 4 := by decide +kernel
  exact ⟨all, by decide, boundary, (least 4).mp found, passed, found ▸ search⟩

end SchemaServer.Text
