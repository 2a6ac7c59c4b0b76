import Mathlib.Order.Bounds.Basic
import SchemaServer.Proofs.Edit.Covers

/-! Byte offsets and UTF-16 columns of a line. At the places between its characters each leads back to the other; an
offset or a column that is no such place counts as the last one in front of it. -/
namespace SchemaServer.Text

variable {line : Text} {b k row start stop : Nat}

/-- A place between two characters of a line or at one of its ends, by the bytes and by the units in front of it. -/
def Place (line : Text) (byte column : Nat) : Prop :=
  ∃ before, before <+: line ∧ byteLength before = byte ∧ unitLength before = column

theorem place_takeWithin (size : Char → Nat) (n : Nat) (line : Text) :
    Place line (byteLength (takeWithin size n line)) (unitLength (takeWithin size n line)) :=
  ⟨_, ⟨_, takeWithin_append_dropWithin size n line⟩, rfl, rfl⟩

theorem isBoundary_iff_place : IsBoundary line b ↔ ∃ k, Place line b k := by
  constructor
  · intro boundary
    obtain ⟨before, rest, rfl, rfl⟩ := boundary.split
    exact ⟨_, before, List.prefix_append before rest, rfl, rfl⟩
  · rintro ⟨_, before, ⟨rest, rfl⟩, rfl, rfl⟩
    exact isBoundary_byteLength before rest

theorem Place.columnAt_eq (place : Place line b k) : columnAt line b = k := by
  obtain ⟨before, ⟨rest, rfl⟩, rfl, rfl⟩ := place
  exact columnAt_append before rest

theorem Place.byteAt_eq (place : Place line b k) : byteAt line k = b := by
  rw [← place.columnAt_eq, byteAt_columnAt (isBoundary_iff_place.mpr ⟨k, place⟩)]

/-! ## Rounding -/

theorem isGreatest_takeWithin (size : Char → Nat) (n : Nat) (line : Text) :
    IsGreatest {m | m ≤ n ∧ ∃ before, before <+: line ∧ total size before = m}
      (total size (takeWithin size n line)) := by
  refine ⟨⟨total_takeWithin_le size n line, _, ⟨_, takeWithin_append_dropWithin size n line⟩, rfl⟩, ?_⟩
  rintro _ ⟨fits, before, inLine, rfl⟩
  exact total_le_of_prefix size (prefix_takeWithin inLine fits)

theorem isGreatest_boundary (line : Text) (byte : Nat) :
    IsGreatest {b | b ≤ byte ∧ IsBoundary line b} (byteLength (takeBytes byte line)) := by
  have same : ∀ b, IsBoundary line b ↔ ∃ before, before <+: line ∧ total Char.utf8Size before = b := by
    intro b
    rw [isBoundary_iff_place]
    constructor
    · rintro ⟨_, before, inLine, size, -⟩
      exact ⟨before, inLine, size⟩
    · rintro ⟨before, inLine, size⟩
      exact ⟨_, before, inLine, size, rfl⟩
  simp only [same]
  exact isGreatest_takeWithin Char.utf8Size byte line

theorem isGreatest_column (line : Text) (column : Nat) :
    IsGreatest {k | k ≤ column ∧ ∃ b, Place line b k} (unitLength (takeWithin unitSize column line)) := by
  have same : ∀ k, (∃ b, Place line b k) ↔ ∃ before, before <+: line ∧ total unitSize before = k := by
    intro k
    constructor
    · rintro ⟨_, before, inLine, -, size⟩
      exact ⟨before, inLine, size⟩
    · rintro ⟨before, inLine, size⟩
      exact ⟨_, before, inLine, rfl, size⟩
  simp only [same]
  exact isGreatest_takeWithin unitSize column line

theorem byteAt_mono (line : Text) {m n : Nat} (le : m ≤ n) : byteAt line m ≤ byteAt line n := by
  have inLine : takeWithin unitSize m line <+: line := ⟨_, takeWithin_append_dropWithin unitSize m line⟩
  exact total_le_of_prefix _ (prefix_takeWithin inLine ((total_takeWithin_le unitSize m line).trans le))

/-! ## Spans -/

theorem exists_stretch (first : IsBoundary line start) (last : IsBoundary line stop) (ordered : start ≤ stop) :
    ∃ before found after, line = before ++ found ++ after ∧ byteLength before = start ∧
      byteLength (before ++ found) = stop := by
  obtain ⟨before, rest, whole, rfl⟩ := first.split
  obtain ⟨upTo, after, rfl, rfl⟩ := last.split
  obtain ⟨found, rfl⟩ := prefix_of_total_le Char.utf8Size_pos ⟨rest, whole.symm⟩ (List.prefix_append upTo after) ordered
  exact ⟨before, found, after, rfl, rfl, rfl⟩

theorem ofSpan_spans (row : Nat) (first : IsBoundary line start) (last : IsBoundary line stop)
    (ordered : start ≤ stop) :
    ∃ startColumn stopColumn, Range.ofSpan row line start stop = ⟨⟨row, startColumn⟩, ⟨row, stopColumn⟩⟩ ∧
      Place line start startColumn ∧ Place line stop stopColumn ∧
      between line startColumn stopColumn = slice start stop line := by
  obtain ⟨before, found, after, rfl, rfl, rfl⟩ := exists_stretch first last ordered
  refine ⟨unitLength before, unitLength (before ++ found), ?_, ?_, ?_, ?_⟩
  · rw [byteLength_append, ofSpan_append]
  · exact ⟨before, ⟨found ++ after, by simp⟩, rfl, rfl⟩
  · exact ⟨before ++ found, List.prefix_append _ after, rfl, rfl⟩
  · rw [between_append, slice_append]

/-- Byte offsets and columns of a line lead back to each other at the places between its characters. Any other column
leads to the last place that is not behind it, any other offset has the column of the last place that is not behind
it, and so both keep the order. A span between two places has a range that covers just its text. -/
theorem columns_faithful (line : Text) :
    (∀ b, IsBoundary line b ↔ ∃ k, Place line b k) ∧
      (∀ b k, Place line b k → columnAt line b = k ∧ byteAt line k = b) ∧
      (∀ column, byteAt line column ≤ byteLength line ∧
        Place line (byteAt line column) (columnAt line (byteAt line column)) ∧
        IsGreatest {k | k ≤ column ∧ ∃ b, Place line b k} (columnAt line (byteAt line column))) ∧
      (∀ byte, ∃ b, Place line b (columnAt line byte) ∧ IsGreatest {b | b ≤ byte ∧ IsBoundary line b} b) ∧
      Monotone (columnAt line) ∧ Monotone (byteAt line) ∧
      ∀ row start stop, IsBoundary line start → IsBoundary line stop → start ≤ stop →
        ∃ startColumn stopColumn, Range.ofSpan row line start stop = ⟨⟨row, startColumn⟩, ⟨row, stopColumn⟩⟩ ∧
          Place line start startColumn ∧ Place line stop stopColumn ∧
          between line startColumn stopColumn = slice start stop line := by
  refine ⟨fun _ => isBoundary_iff_place, fun b k place => ⟨place.columnAt_eq, place.byteAt_eq⟩, fun column => ?_,
    fun byte => ?_, fun _ _ => columnAt_mono line, fun _ _ => byteAt_mono line, fun row _ _ => ofSpan_spans row⟩
  · have place := place_takeWithin unitSize column line
    have rounded : columnAt line (byteAt line column) = unitLength (takeWithin unitSize column line) :=
      place.columnAt_eq
    rw [rounded]
    refine ⟨?_, place, isGreatest_column line column⟩
    exact total_le_of_prefix _ ⟨_, takeWithin_append_dropWithin unitSize column line⟩
  · exact ⟨_, place_takeWithin Char.utf8Size byte line, isGreatest_boundary line byte⟩

/-- Characters of two, three and four bytes, the last of which has two units: column 3 is in the middle of it. -/
theorem columns_faithful_wide :
    let line := "é名😀a".toList
    (IsBoundary line 2 ∧ IsBoundary line 9 ∧ ∃ startColumn stopColumn,
        Range.ofSpan 7 line 2 9 = ⟨⟨7, startColumn⟩, ⟨7, stopColumn⟩⟩ ∧
          between line startColumn stopColumn = "名😀".toList) ∧
      IsGreatest {k | k ≤ 3 ∧ ∃ b, Place line b k} 2 ∧ byteAt line 4 = 9 := by
  intro line
  obtain ⟨boundary, there, rounded, -, -, -, spans⟩ := columns_faithful line
  have first : IsBoundary line 2 := by decide +kernel
  have last : IsBoundary line 9 := by decide +kernel
  obtain ⟨startColumn, stopColumn, range, -, stopPlace, text⟩ := spans 7 2 9 first last (by decide)
  refine ⟨⟨first, last, startColumn, stopColumn, range, ?_⟩, ?_, ?_⟩
  · rw [text]
    decide +kernel
  · have column : columnAt line (byteAt line 3) = 2 := by decide +kernel
    exact column ▸ (rounded 3).2.2
  · have column : columnAt line 9 = 4 := by decide +kernel
    obtain ⟨k, place⟩ := (boundary 9).mp last
    obtain ⟨forth, back⟩ := there 9 k place
    rwa [← forth, column] at back

end SchemaServer.Text
