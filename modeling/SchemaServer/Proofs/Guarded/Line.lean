import SchemaServer.Completion
import SchemaServer.Proofs.Guarded.Text
import SchemaServer.Proofs.Rename.Lists

/-! What is read off a line, once more on byte offsets with every cut checked. It is what the functions on
characters read, so no check fails, wherever the cursor stands and whatever is searched for. -/
namespace SchemaServer.Guarded

open Text

variable {needle before after gap found rest lead line label : Text} {c : Char}

/-! ## Words -/

def firstWordSpan (line : Text) : Except Fault (Option (Nat × Nat)) :=
  match charAt? (!isBlank ·) line with
  | none => .ok none
  | some start => do
    let back ← cutBack line start
    let stop := ((charAt? isBlank back).map (start + ·)).getD (byteLength line)
    return some (start, stop)

def wordAt (line : Text) (column : Nat) : Except Fault Text := do
  let middle := byteAt line column
  let front ← cutFront line middle
  let run := (charIndices 0 front).reverse.takeWhile fun (_, c) => !isBlank c
  let start := (run.getLast?.map Prod.fst).getD middle
  let back ← cutBack line middle
  let stop := ((charAt? isBlank back).map (middle + ·)).getD (byteLength line)
  cutBetween line start stop

@[simp] theorem firstWordSpan_eq (line : Text) : firstWordSpan line = .ok (Text.firstWordSpan line) := by
  rcases blank_or_firstWord line with blank | ⟨lead, word, rest, first⟩
  · have absent : charAt? (!isBlank ·) line = none := charAt?_eq_none fun c member => by simp [blank c member]
    rw [firstWordSpan, absent, firstWordSpan_of_blank blank]
  · obtain ⟨c, r, rfl, solid⟩ := first.solid.head
    have whole : line = lead ++ (c :: r ++ rest) := by rw [first.parts, List.append_assoc]
    have start : charAt? (!isBlank ·) line = some (byteLength lead) := by
      rw [whole]
      exact charAt?_append (fun d member => by simp [first.blank d member]) (by simp [solid])
    have stop := charAt?_getD (n := byteLength lead) first.solid.2 first.parted
    rw [← byteLength_append, ← whole] at stop
    have back : cutBack line (byteLength lead) = .ok (c :: r ++ rest) := whole ▸ cutBack_append lead _
    rw [firstWordSpan, start]
    dsimp only
    rw [back, ok_bind, stop, first.span]
    rfl

theorem takeWhile_charIndices {run : Text} (apart : ∀ c, lead.getLast? = some c → isBlank c = true)
    (solid : ∀ c ∈ run, isBlank c = false) :
    (charIndices 0 (lead ++ run)).reverse.takeWhile (fun (_, c) => !isBlank c) =
      (charIndices (byteLength lead) run).reverse := by
  have inRun : ∀ x ∈ (charIndices (byteLength lead) run).reverse, (fun (_, c) => !isBlank c) x = true := by
    intro x member
    have char : x.2 ∈ run := by
      rw [← map_snd_charIndices (byteLength lead) run]
      exact List.mem_map_of_mem (List.mem_reverse.mp member)
    simp [solid x.2 char]
  rw [charIndices_append, Nat.zero_add, List.reverse_append, List.takeWhile_append_of_pos inRun]
  cases last : (charIndices 0 lead).reverse with
  | nil => simp
  | cons x more =>
    have ending : lead.getLast? = some x.2 := by
      rw [← map_snd_charIndices 0 lead, List.getLast?_map, ← List.head?_reverse, last]
      rfl
    simp [apart x.2 ending]

@[simp] theorem wordAt_eq (line : Text) (column : Nat) : wordAt line column = .ok (Text.wordAt line column) := by
  obtain ⟨lead, front, back, rest, run, cut, behind⟩ := exists_run line column
  obtain ⟨solidFront, solidBack⟩ := List.forall_mem_append.mp run.solid
  have whole : lead ++ front ++ (back ++ rest) = line := by simp [run.parts]
  have middle : byteAt line column = byteLength (lead ++ front) := by rw [byteAt, cut]
  have start : (((charIndices (byteLength lead) front).reverse.getLast?).map Prod.fst).getD
      (byteLength (lead ++ front)) = byteLength lead := by
    cases front with
    | nil => simp [charIndices]
    | cons c r => simp [charIndices]
  have stop := charAt?_getD (n := byteLength (lead ++ front)) solidBack run.parted
  rw [← byteLength_append, whole, ← byteLength_append, List.append_assoc] at stop
  have word : cutBetween line (byteLength lead) (byteLength (lead ++ (front ++ back))) = .ok (front ++ back) := by
    rw [run.parts]
    exact cutBetween_append lead (front ++ back) rest
  rw [wordAt]
  dsimp only
  rw [cutFront_byteAt, ok_bind, cutBack_byteAt, ok_bind, cut, behind, middle,
    takeWhile_charIndices run.apart solidFront, start, stop, word, run.wordAt_cut cut]

/-! ## Whole identifiers -/

/-- Searches from byte `cursor` on; an occurrence that an identifier character touches is passed over as a whole. -/
def searchIdentifier (haystack needle : Text) (nonempty : needle ≠ []) (cursor : Nat) :
    Except Fault (Option Nat) :=
  match _found : tailAt? haystack cursor with
  | none => .ok none
  | some rest =>
    match textAt? needle rest with
    | none => .ok none
    | some n => do
      let start := cursor + n
      let stop := start + byteLength needle
      let before ← cutFront haystack start
      let after ← cutBack haystack stop
      if !before.getLast?.any isIdentifierChar && !after.head?.any isIdentifierChar then return some start
      else searchIdentifier haystack needle nonempty stop
termination_by byteLength haystack + 1 - cursor
decreasing_by
  have := tailAt?_bound ‹_›
  have := byteLength_pos nonempty
  omega

def findIdentifier (haystack needle : Text) (start : Nat) : Except Fault (Option Nat) :=
  if nonempty : needle = [] then .ok none
  else if byteLength haystack < start then .ok none
  else searchIdentifier haystack needle nonempty start

/-- Where the needle does not occur, no identifier is found. -/
theorem scanForIdentifier_of_none {offset : Nat} {previous : Option Char}
    (absent : splitAtFirst? needle rest = none) : scanForIdentifier needle offset previous 0 rest = none := by
  induction rest generalizing offset previous with
  | nil => rfl
  | cons c r ih =>
    unfold splitAtFirst? at absent
    split at absent
    · contradiction
    · rename_i differs
      have later : scanForIdentifier needle (offset + c.utf8Size) (some c) 0 r = none :=
        ih (Option.map_eq_none_iff.mp absent)
      simpa [scanForIdentifier, differs] using later

/-- Characters of a refused occurrence are passed over. -/
theorem scanForIdentifier_skip (needle before passed rest : Text) :
    scanForIdentifier needle (byteLength before) before.getLast? passed.length (passed ++ rest) =
      scanForIdentifier needle (byteLength (before ++ passed)) (before ++ passed).getLast? 0 rest := by
  induction passed generalizing before with
  | nil => simp
  | cons c r ih =>
    have next := ih (before ++ [c])
    simp only [List.append_assoc, List.singleton_append] at next
    simpa [scanForIdentifier, byteLength_concat] using next

/-- The scan decides on the first occurrence, and goes on behind it if it is refused. -/
theorem scanForIdentifier_of_some (nonempty : needle ≠ [])
    (split : splitAtFirst? needle rest = some (gap, needle ++ after)) :
    scanForIdentifier needle (byteLength before) before.getLast? 0 rest =
      if !(before ++ gap).getLast?.any isIdentifierChar && !after.head?.any isIdentifierChar then
        some (byteLength (before ++ gap))
      else scanForIdentifier needle (byteLength (before ++ gap ++ needle)) (before ++ gap ++ needle).getLast? 0
        after := by
  induction rest generalizing before gap with
  | nil => simp [splitAtFirst?, nonempty] at split
  | cons c r ih =>
    unfold splitAtFirst? at split
    split at split
    · rename_i occurs
      obtain ⟨rfl, whole⟩ := Prod.mk.inj (Option.some.inj split)
      obtain ⟨d, t, rfl⟩ := List.exists_cons_of_ne_nil nonempty
      obtain ⟨rfl, rfl⟩ := List.cons.inj whole
      have passed := scanForIdentifier_skip (c :: t) (before ++ [c]) t after
      rw [List.getLast?_concat, List.append_assoc, List.singleton_append] at passed
      rw [scanForIdentifier, ← byteLength_concat, List.append_nil]
      simp only [occurs, decide_true, Bool.and_self, List.length_cons, Nat.add_sub_cancel, if_true]
      rw [List.append_eq, passed]
      simp
    · rename_i differs
      obtain ⟨⟨gap', found⟩, later, same⟩ := Option.map_eq_some_iff.mp split
      obtain ⟨rfl, rfl⟩ := Prod.mk.inj same
      have next := @ih (before ++ [c]) gap' later
      simp only [List.append_assoc, List.singleton_append] at next
      simpa [scanForIdentifier, differs, byteLength_concat] using next

theorem searchIdentifier_eq (before rest : Text) (nonempty : needle ≠ []) :
    searchIdentifier (before ++ rest) needle nonempty (byteLength before) =
      .ok (scanForIdentifier needle (byteLength before) before.getLast? 0 rest) := by
  induction size : rest.length using Nat.strong_induction_on generalizing before rest with
  | _ size ih =>
    subst size
    rw [searchIdentifier]
    split
    · rename_i absent
      simp [tailAt?_append] at absent
    · rename_i tail found
      obtain rfl := Option.some.inj ((tailAt?_append before rest).symm.trans found)
      cases split : splitAtFirst? needle rest with
      | none => rw [textAt?_of_none split, scanForIdentifier_of_none split]
      | some parts =>
        obtain ⟨gap, occurrence⟩ := parts
        obtain ⟨whole, occurs⟩ := append_of_splitAtFirst split
        obtain ⟨after, rfl⟩ := List.isPrefixOf_iff_prefix.mp occurs
        subst whole
        have front : cutFront (before ++ (gap ++ (needle ++ after))) (byteLength (before ++ gap)) =
            .ok (before ++ gap) := by
          rw [← List.append_assoc, cutFront_append]
        have back : cutBack (before ++ (gap ++ (needle ++ after))) (byteLength (before ++ gap ++ needle)) =
            .ok after := by
          rw [show before ++ (gap ++ (needle ++ after)) = before ++ gap ++ needle ++ after by simp, cutBack_append]
        have later := ih after.length (by have := List.length_pos_iff.mpr nonempty; simp; omega)
          (before ++ gap ++ needle) after rfl
        rw [textAt?_of_split split, scanForIdentifier_of_some nonempty split]
        dsimp only
        rw [← byteLength_append, ← byteLength_append, front, ok_bind, back, ok_bind]
        split
        · rfl
        · rw [← later]
          simp

@[simp] theorem findIdentifier_eq (haystack needle : Text) (start : Nat) :
    findIdentifier haystack needle start = .ok (Text.findIdentifier haystack needle start) := by
  unfold findIdentifier Text.findIdentifier
  by_cases nonempty : needle = []
  · simp [nonempty]
  · rw [dif_neg nonempty, if_neg (show ¬ needle.isEmpty = true by simpa using nonempty)]
    by_cases boundary : IsBoundary haystack start
    · obtain ⟨before, rest, rfl, rfl⟩ := boundary.split
      have inside : ¬ byteLength (before ++ rest) < byteLength before := by
        rw [byteLength_append]
        omega
      rw [if_neg inside, if_pos boundary, takeBytes_byteLength, dropBytes_byteLength, searchIdentifier_eq]
    · have absent : tailAt? haystack start = none := if_neg boundary
      rw [if_neg boundary]
      split
      · rfl
      · rw [searchIdentifier]
        split
        · rfl
        · rename_i found
          simp [absent] at found

/-! ## Lists and calls -/

def argumentList? (line label : Text) : Except Fault (Option (Nat × Nat)) :=
  match textAt? label line with
  | none => .ok none
  | some start => do
    match textAt? ['['] (← cutBack line start) with
    | none => return none
    | some between =>
      let opens := start + between
      match textAt? [']'] (← cutBack line opens) with
      | none => return none
      | some items => return some (opens, opens + items)

def editInList? (row : Nat) (line label current newName : Text) : Except Fault (Option Edit) := do
  match ← argumentList? line label with
  | none => return none
  | some (start, stop) =>
    let found ← findIdentifier (← cutFront line stop) current start
    return found.map fun n => renameEdit row line n current newName

def insideRelation (before : Text) : Except Fault Bool :=
  match lastTextAt? "@relation(".toList before with
  | none => .ok false
  | some start => do
    let call ← cutBack before start
    return !call.contains ')'

@[simp] theorem argumentList?_eq (line label : Text) :
    argumentList? line label = .ok (SchemaServer.argumentList? line label) := by
  unfold argumentList? SchemaServer.argumentList?
  cases first : splitAtFirst? label line with
  | none => simp [textAt?_of_none first]
  | some parts =>
    obtain ⟨before, labelled⟩ := parts
    obtain ⟨whole, -⟩ := append_of_splitAtFirst first
    subst whole
    rw [textAt?_of_split first]
    cases second : splitAtFirst? ['['] labelled with
    | none => simp [textAt?_of_none second, second, pure, Except.pure]
    | some parts =>
      obtain ⟨between, list⟩ := parts
      obtain ⟨whole, -⟩ := append_of_splitAtFirst second
      subst whole
      have back : cutBack (before ++ (between ++ list)) (byteLength before + byteLength between) = .ok list := by
        rw [← byteLength_append, ← List.append_assoc, cutBack_append]
      cases third : splitAtFirst? [']'] list with
      | none => simp [textAt?_of_split second, textAt?_of_none third, second, third, back, pure, Except.pure]
      | some parts => simp [textAt?_of_split second, textAt?_of_split third, second, third, back, pure, Except.pure]

theorem cutFront_list {start stop : Nat} (found : SchemaServer.argumentList? line label = some (start, stop)) :
    cutFront line stop = .ok (takeBytes stop line) := by
  obtain ⟨lead, between, items, rest, list, -, rfl⟩ := argumentList?_eq_some_iff.mp found
  rw [list.parts, cutFront_append, takeBytes_byteLength]

@[simp] theorem editInList?_eq (row : Nat) (line label current newName : Text) :
    editInList? row line label current newName =
      .ok (SchemaServer.editInList? row line label current newName) := by
  rw [SchemaServer.editInList?_eq, placeInList?, editInList?, argumentList?_eq, ok_bind]
  cases list : SchemaServer.argumentList? line label with
  | none => rfl
  | some bounds =>
    dsimp only
    rw [cutFront_list list, ok_bind, findIdentifier_eq, ok_bind]
    rfl

@[simp] theorem insideRelation_eq (before : Text) :
    insideRelation before = .ok (Completion.insideRelation before) := by
  unfold insideRelation Completion.insideRelation
  cases last : fromLast? "@relation(".toList before with
  | none => rw [lastTextAt?_of_none last]
  | some call =>
    obtain ⟨front, rfl, place⟩ := lastTextAt?_of_some last
    rw [place]
    dsimp only
    rw [cutBack_append, ok_bind]
    rfl

end SchemaServer.Guarded
