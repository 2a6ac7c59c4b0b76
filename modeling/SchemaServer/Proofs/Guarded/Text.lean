import SchemaServer.Text.Parts
import SchemaServer.Proofs.Text.Cut

/-! Cuts at byte offsets that are checked before they are made, and searches that give byte offsets. -/
namespace SchemaServer.Guarded

open Text

inductive Fault
  /-- A cut inside a character, past the end, or back to an offset in front of its start. -/
  | slice
  /-- A difference below zero. -/
  | underflow
  /-- A field of the table of fields has no line. -/
  | vanishedLine
  deriving DecidableEq

variable {s needle before found rest : Text} {c : Char} {p : Char → Bool} {n : Nat}

/-! ## Checked steps -/

@[simp] theorem ok_bind {α β : Type} (a : α) (f : α → Except Fault β) : (Except.ok a >>= f) = f a := rfl

def whenSome {α β : Type} (x : Except Fault (Option α)) (f : α → Except Fault (Option β)) :
    Except Fault (Option β) := do
  match ← x with
  | some a => f a
  | none => return none

/-- Looks for a value only if a condition holds. -/
def whenTrue {α : Type} (condition : Bool) (x : Except Fault (Option α)) : Except Fault (Option α) :=
  if condition then x else .ok none

def andAlso (first : Bool) (second : Except Fault Bool) : Except Fault Bool :=
  if first then second else .ok false

def concat {α β : Type} (f : α → Except Fault (List β)) : List α → Except Fault (List β)
  | [] => .ok []
  | a :: rest => return (← f a) ++ (← concat f rest)

@[simp] theorem whenSome_ok {α β : Type} (x : Option α) (f : α → Option β) :
    whenSome (.ok x) (fun a => .ok (f a)) = .ok (x.bind f) := by
  cases x <;> rfl

@[simp] theorem whenTrue_ok {α : Type} (condition : Bool) (x : Option α) :
    whenTrue condition (.ok x) = .ok (if condition then x else none) := by
  cases condition <;> rfl

@[simp] theorem andAlso_ok (first second : Bool) : andAlso first (.ok second) = .ok (first && second) := by
  cases first <;> rfl

theorem concat_ok {α β : Type} {f : α → Except Fault (List β)} {g : α → List β} {as : List α}
    (same : ∀ a ∈ as, f a = .ok (g a)) : concat f as = .ok (as.flatMap g) := by
  induction as with
  | nil => rfl
  | cons a rest ih =>
    rw [concat, same a List.mem_cons_self, ok_bind, ih fun b member => same b (List.mem_cons_of_mem a member), ok_bind,
      List.flatMap_cons]
    rfl

def minus (m n : Nat) : Except Fault Nat := if n ≤ m then .ok (m - n) else .error .underflow

def cutFront (s : Text) (n : Nat) : Except Fault Text :=
  if IsBoundary s n then .ok (takeBytes n s) else .error .slice

def cutBack (s : Text) (n : Nat) : Except Fault Text :=
  if IsBoundary s n then .ok (dropBytes n s) else .error .slice

def cutBetween (s : Text) (start stop : Nat) : Except Fault Text :=
  if start ≤ stop ∧ IsBoundary s start ∧ IsBoundary s stop then .ok (slice start stop s) else .error .slice

theorem minus_of_le {m n : Nat} (le : n ≤ m) : minus m n = .ok (m - n) := if_pos le

@[simp] theorem cutFront_append (before rest : Text) :
    cutFront (before ++ rest) (byteLength before) = .ok before := by
  rw [cutFront, if_pos (isBoundary_byteLength before rest), takeBytes_byteLength]

@[simp] theorem cutBack_append (before rest : Text) :
    cutBack (before ++ rest) (byteLength before) = .ok rest := by
  rw [cutBack, if_pos (isBoundary_byteLength before rest), dropBytes_byteLength]

theorem cutFront_byteAt (line : Text) (column : Nat) :
    cutFront line (byteAt line column) = .ok (takeWithin unitSize column line) := by
  have cut := cutFront_append (takeWithin unitSize column line) (dropWithin unitSize column line)
  rwa [takeWithin_append_dropWithin] at cut

theorem cutBack_byteAt (line : Text) (column : Nat) :
    cutBack line (byteAt line column) = .ok (dropWithin unitSize column line) := by
  have cut := cutBack_append (takeWithin unitSize column line) (dropWithin unitSize column line)
  rwa [takeWithin_append_dropWithin] at cut

theorem cutBetween_append (before found after : Text) :
    cutBetween (before ++ found ++ after) (byteLength before) (byteLength (before ++ found)) = .ok found := by
  have start := isBoundary_byteLength before (found ++ after)
  rw [← List.append_assoc] at start
  have stop := isBoundary_byteLength (before ++ found) after
  have ordered : byteLength before ≤ byteLength (before ++ found) :=
    total_le_of_prefix _ (List.prefix_append before found)
  rw [cutBetween, if_pos ⟨ordered, start, stop⟩, slice_append]

theorem cutBack_ok (h : cutBack s n = .ok rest) : byteLength rest + n = byteLength s := by
  unfold cutBack at h
  split at h
  · rename_i boundary
    obtain ⟨before, behind, rfl, rfl⟩ := boundary.split
    rw [dropBytes_byteLength] at h
    obtain rfl := Except.ok.inj h
    rw [byteLength_append, Nat.add_comm]
  · contradiction

example : cutFront "né".toList 2 = .error .slice := by rfl

/-! ## Searches that give byte offsets -/

def charAt? (p : Char → Bool) : Text → Option Nat
  | [] => none
  | c :: r => if p c then some 0 else (charAt? p r).map (c.utf8Size + ·)

def textAt? (needle s : Text) : Option Nat := (splitAtFirst? needle s).map fun (before, _) => byteLength before

def lastTextAt? (needle : Text) : Text → Option Nat
  | [] => if needle.isEmpty then some 0 else none
  | c :: r =>
    match lastTextAt? needle r with
    | some n => some (c.utf8Size + n)
    | none => if needle.isPrefixOf (c :: r) then some 0 else none

def tailAt? (s : Text) (n : Nat) : Option Text := if IsBoundary s n then some (dropBytes n s) else none

/-- Characters with the byte offsets at which they start; `n` bytes stand in front of the text. -/
def charIndices (n : Nat) : Text → List (Nat × Char)
  | [] => []
  | c :: r => (n, c) :: charIndices (n + c.utf8Size) r

theorem charAt?_eq_none (lacks : ∀ c ∈ s, p c = false) : charAt? p s = none := by
  induction s with
  | nil => rfl
  | cons c r ih =>
    rw [charAt?, lacks c List.mem_cons_self, ih fun d member => lacks d (List.mem_cons_of_mem c member)]
    rfl

theorem charAt?_append (lacks : ∀ d ∈ before, p d = false) (has : p c = true) :
    charAt? p (before ++ c :: rest) = some (byteLength before) := by
  induction before with
  | nil => simp [charAt?, has, byteLength, total]
  | cons d r ih =>
    rw [List.cons_append, charAt?, lacks d List.mem_cons_self,
      ih fun e member => lacks e (List.mem_cons_of_mem d member)]
    rfl

theorem charAt?_getD (lacks : ∀ d ∈ before, p d = false) (stops : ∀ c, rest.head? = some c → p c = true) :
    ((charAt? p (before ++ rest)).map (n + ·)).getD (n + byteLength (before ++ rest)) =
      n + byteLength before := by
  cases rest with
  | nil => simp [charAt?_eq_none lacks]
  | cons c r => rw [charAt?_append lacks (stops c rfl), Option.map_some, Option.getD_some]

theorem textAt?_of_split (split : splitAtFirst? needle s = some (before, found)) :
    textAt? needle s = some (byteLength before) := by
  rw [textAt?, split, Option.map_some]

theorem textAt?_of_none (none : splitAtFirst? needle s = none) : textAt? needle s = Option.none := by
  rw [textAt?, none, Option.map_none]

theorem lastTextAt?_of_none (none : fromLast? needle s = none) : lastTextAt? needle s = Option.none := by
  induction s with
  | nil => simpa [fromLast?, lastTextAt?] using none
  | cons c r ih =>
    unfold fromLast? at none
    split at none
    · contradiction
    · rename_i absent
      rw [lastTextAt?, ih absent]
      simpa using none

theorem lastTextAt?_of_some (last : fromLast? needle s = some found) :
    ∃ before, s = before ++ found ∧ lastTextAt? needle s = some (byteLength before) := by
  induction s with
  | nil =>
    simp only [fromLast?, List.isEmpty_iff] at last
    split at last
    · rename_i none
      obtain rfl := Option.some.inj last
      exact ⟨[], rfl, by simp [lastTextAt?, none, byteLength, total]⟩
    · contradiction
  | cons c r ih =>
    unfold fromLast? at last
    split at last
    · rename_i later
      obtain rfl := Option.some.inj last
      obtain ⟨before, parts, place⟩ := ih later
      exact ⟨c :: before, by rw [parts]; rfl, by rw [lastTextAt?, place]; rfl⟩
    · rename_i absent
      split at last
      · rename_i here
        obtain rfl := Option.some.inj last
        exact ⟨[], rfl, by simp [lastTextAt?, lastTextAt?_of_none absent, here, byteLength, total]⟩
      · contradiction

theorem tailAt?_append (before rest : Text) : tailAt? (before ++ rest) (byteLength before) = some rest := by
  rw [tailAt?, if_pos (isBoundary_byteLength before rest), dropBytes_byteLength]

theorem tailAt?_bound (found : tailAt? s n = some rest) : n ≤ byteLength s := by
  unfold tailAt? at found
  split at found
  · rename_i boundary
    obtain ⟨before, behind, rfl, rfl⟩ := boundary.split
    exact total_le_of_prefix _ (List.prefix_append before behind)
  · contradiction

theorem charIndices_append (n : Nat) (s t : Text) :
    charIndices n (s ++ t) = charIndices n s ++ charIndices (n + byteLength s) t := by
  induction s generalizing n with
  | nil => rfl
  | cons c r ih =>
    rw [List.cons_append, charIndices, charIndices, ih, List.cons_append, Nat.add_assoc]
    rfl

theorem map_snd_charIndices (n : Nat) (s : Text) : (charIndices n s).map Prod.snd = s := by
  induction s generalizing n with
  | nil => rfl
  | cons c r ih => rw [charIndices, List.map_cons, ih]

end SchemaServer.Guarded
