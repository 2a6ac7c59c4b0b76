import SchemaServer.Text.Basic

/-! Cutting a text at a size. A cut at the size of a prefix gives that prefix back, so an offset that
stands between two characters can be traded for the two halves of the text. -/
namespace SchemaServer.Text

theorem unitSize_pos (c : Char) : 0 < unitSize c := by
  unfold unitSize
  split <;> omega

section Sizes

variable {size : Char → Nat}

theorem total_cons (c : Char) (r : Text) : total size (c :: r) = size c + total size r := rfl

theorem takeWithin_zero (positive : ∀ c, 0 < size c) (s : Text) : takeWithin size 0 s = [] := by
  cases s with
  | nil => rfl
  | cons c r => rw [takeWithin, if_neg (by have := positive c; omega)]

theorem takeWithin_total (positive : ∀ c, 0 < size c) (before rest : Text) :
    takeWithin size (total size before) (before ++ rest) = before := by
  induction before with
  | nil => exact takeWithin_zero positive rest
  | cons c r ih =>
    rw [List.cons_append, takeWithin, total_cons, if_pos (Nat.le_add_right _ _),
      Nat.add_sub_cancel_left, ih]

theorem dropWithin_total (positive : ∀ c, 0 < size c) (before rest : Text) :
    dropWithin size (total size before) (before ++ rest) = rest := by
  have parts := takeWithin_append_dropWithin size (total size before) (before ++ rest)
  rw [takeWithin_total positive] at parts
  exact List.append_cancel_left parts

/-- Prefixes of one text compare as their sizes do. -/
theorem prefix_of_total_le (positive : ∀ c, 0 < size c) {a b s : Text} (shorter : a <+: s)
    (longer : b <+: s) (le : total size a ≤ total size b) : a <+: b := by
  rcases List.prefix_or_prefix_of_prefix shorter longer with h | ⟨rest, rfl⟩
  · exact h
  · rw [total_append] at le
    cases rest with
    | nil => simp
    | cons c r =>
      have := positive c
      simp only [total_cons] at le
      omega

theorem total_le_of_prefix (size : Char → Nat) {a b : Text} (h : a <+: b) : total size a ≤ total size b := by
  obtain ⟨rest, rfl⟩ := h
  rw [total_append]
  omega

theorem length_takeWithin_mono (size : Char → Nat) (s : Text) {m n : Nat} (le : m ≤ n) :
    (takeWithin size m s).length ≤ (takeWithin size n s).length := by
  induction s generalizing m n with
  | nil => exact Nat.le_refl _
  | cons c r ih =>
    unfold takeWithin
    by_cases fits : size c ≤ m
    · rw [if_pos fits, if_pos (Nat.le_trans fits le)]
      exact Nat.succ_le_succ (ih (by omega))
    · rw [if_neg fits]
      exact Nat.zero_le _

theorem takeWithin_inside {n : Nat} {before after : Text} {c : Char} (lower : total size before ≤ n)
    (upper : n < total size before + size c) : takeWithin size n (before ++ c :: after) = before := by
  induction before generalizing n with
  | nil =>
    rw [total, Nat.zero_add] at upper
    rw [List.nil_append, takeWithin, if_neg (by omega)]
  | cons d r ih =>
    rw [total_cons] at lower upper
    rw [List.cons_append, takeWithin, if_pos (by omega), ih (by omega) (by omega)]

theorem takeWithin_of_le {n : Nat} {s : Text} (le : total size s ≤ n) : takeWithin size n s = s := by
  induction s generalizing n with
  | nil => rfl
  | cons c r ih =>
    rw [total_cons] at le
    rw [takeWithin, if_pos (by omega), ih (by omega)]

theorem prefix_takeWithin {n : Nat} {a s : Text} (shorter : a <+: s) (fits : total size a ≤ n) :
    a <+: takeWithin size n s := by
  obtain ⟨rest, rfl⟩ := shorter
  induction a generalizing n with
  | nil => exact List.nil_prefix
  | cons c r ih =>
    rw [total_cons] at fits
    rw [List.cons_append, takeWithin, if_pos (by omega)]
    exact (List.prefix_cons_inj c).mpr (ih (by omega))

/-- The first character that is not taken does not fit. -/
theorem lt_of_dropWithin {n : Nat} {s r : Text} {c : Char} (left : dropWithin size n s = c :: r) :
    n < total size (takeWithin size n s) + size c := by
  induction s generalizing n with
  | nil => contradiction
  | cons d t ih =>
    unfold dropWithin at left
    unfold takeWithin
    by_cases fits : size d ≤ n
    · rw [if_pos fits] at left
      have := ih left
      rw [if_pos fits, total_cons]
      omega
    · rw [if_neg fits] at left
      obtain ⟨rfl, rfl⟩ := List.cons.inj left
      rw [if_neg fits, total]
      omega

end Sizes

theorem byteLength_append (s t : Text) : byteLength (s ++ t) = byteLength s + byteLength t :=
  total_append _ s t

theorem unitLength_append (s t : Text) : unitLength (s ++ t) = unitLength s + unitLength t :=
  total_append _ s t

theorem byteLength_concat (s : Text) (c : Char) : byteLength (s ++ [c]) = byteLength s + c.utf8Size := by
  rw [byteLength_append]
  rfl

theorem byteLength_pos {s : Text} (nonempty : s ≠ []) : 0 < byteLength s := by
  cases s with
  | nil => contradiction
  | cons c r => exact Nat.lt_of_lt_of_le c.utf8Size_pos (Nat.le_add_right _ _)

theorem byteLength_lt_enclosed {before : Text} (nonempty : before ≠ []) (s after : Text) :
    byteLength s < byteLength (before ++ s ++ after) := by
  have := byteLength_pos nonempty
  rw [byteLength_append, byteLength_append]
  omega

theorem takeBytes_byteLength (before rest : Text) :
    takeBytes (byteLength before) (before ++ rest) = before :=
  takeWithin_total Char.utf8Size_pos before rest

theorem dropBytes_byteLength (before rest : Text) :
    dropBytes (byteLength before) (before ++ rest) = rest :=
  dropWithin_total Char.utf8Size_pos before rest

theorem isBoundary_byteLength (before rest : Text) :
    IsBoundary (before ++ rest) (byteLength before) := by
  rw [IsBoundary, takeBytes_byteLength]

theorem IsBoundary.split {s : Text} {n : Nat} (h : IsBoundary s n) :
    ∃ before rest, s = before ++ rest ∧ byteLength before = n :=
  ⟨takeBytes n s, dropBytes n s, (takeWithin_append_dropWithin _ n s).symm, h⟩

theorem byteLength_le_iff {a b s : Text} (ha : a <+: s) (hb : b <+: s) :
    byteLength a ≤ byteLength b ↔ a.length ≤ b.length := by
  constructor
  · exact fun le => (prefix_of_total_le Char.utf8Size_pos ha hb le).length_le
  · exact fun le => total_le_of_prefix _ (List.prefix_of_prefix_length_le ha hb le)

theorem slice_append (before found after : Text) :
    slice (byteLength before) (byteLength (before ++ found)) (before ++ found ++ after) = found := by
  have size : byteLength (before ++ found) - byteLength before = byteLength found := by
    rw [byteLength_append, Nat.add_sub_cancel_left]
  rw [slice, size, List.append_assoc, dropBytes_byteLength, takeBytes_byteLength]

/-- Prefixes of one text are told apart by their sizes. -/
theorem byteLength_inj {a b s : Text} (ha : a <+: s) (hb : b <+: s) (same : byteLength a = byteLength b) : a = b :=
  (prefix_of_total_le Char.utf8Size_pos ha hb (Nat.le_of_eq same)).eq_of_length_le
    ((byteLength_le_iff hb ha).mp (Nat.le_of_eq same.symm))

theorem columnAt_append (before rest : Text) :
    columnAt (before ++ rest) (byteLength before) = unitLength before := by
  rw [columnAt, takeBytes_byteLength]

theorem columnAt_append_left (before found rest : Text) :
    columnAt (before ++ found ++ rest) (byteLength before + byteLength found) =
      unitLength before + unitLength found := by
  rw [← byteLength_append, columnAt_append, unitLength_append]

theorem columnAt_le_unitLength (line : Text) (byte : Nat) : columnAt line byte ≤ unitLength line :=
  total_le_of_prefix _ ⟨dropBytes byte line, takeWithin_append_dropWithin _ byte line⟩

theorem columnAt_mono (line : Text) {a b : Nat} (le : a ≤ b) : columnAt line a ≤ columnAt line b := by
  have prefixed : ∀ n, takeBytes n line <+: line := fun n => ⟨_, takeWithin_append_dropWithin _ n line⟩
  exact total_le_of_prefix _
    (List.prefix_of_prefix_length_le (prefixed a) (prefixed b) (length_takeWithin_mono _ line le))

theorem columnAt_inside {before after : Text} {c : Char} {n : Nat} (lower : byteLength before ≤ n)
    (upper : n < byteLength before + c.utf8Size) : columnAt (before ++ c :: after) n = unitLength before := by
  rw [columnAt, takeBytes, takeWithin_inside lower upper]

theorem columnAt_of_le {line : Text} {n : Nat} (le : byteLength line ≤ n) : columnAt line n = unitLength line := by
  rw [columnAt, takeBytes, takeWithin_of_le le]

/-- The column of a boundary leads back to it. -/
theorem byteAt_columnAt {line : Text} {n : Nat} (boundary : IsBoundary line n) : byteAt line (columnAt line n) = n := by
  obtain ⟨before, rest, rfl, rfl⟩ := boundary.split
  rw [columnAt_append, byteAt, unitLength, takeWithin_total unitSize_pos]

end SchemaServer.Text
