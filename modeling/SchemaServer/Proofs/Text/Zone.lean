import SchemaServer.Proofs.Text.Swap

/-! Code and strings of a line, told apart by a reader that goes from its start. Names take no part in this, so a
text with one name in the place of another has its strings in the same places. -/
namespace SchemaServer.Text

/-- Where a reader stands: in code, in a string, or behind a backslash in a string. -/
inductive Zone
  | code
  | quoted
  | escaped
  deriving DecidableEq

namespace Zone

variable {zone : Zone} {marked : Text → Prop} {old new before s t : Text} {c : Char}

def next : Zone → Char → Zone
  | code, c => if c = '"' then quoted else code
  | quoted, c => if c = '"' then code else if c = '\\' then escaped else quoted
  | escaped, _ => quoted

def after (zone : Zone) (s : Text) : Zone := s.foldl next zone

def settled : Zone → Zone
  | code => code
  | quoted | escaped => quoted

@[simp] theorem after_nil (zone : Zone) : zone.after [] = zone := rfl

@[simp] theorem after_cons (zone : Zone) (c : Char) (s : Text) : zone.after (c :: s) = (zone.next c).after s := rfl

@[simp] theorem after_append (zone : Zone) (s t : Text) : zone.after (s ++ t) = (zone.after s).after t :=
  List.foldl_append

theorem next_identifier (h : isIdentifierChar c = true) : zone.next c = zone.settled := by
  have other : ∀ mark ∈ punctuation, c ≠ mark := by
    rintro mark listed rfl
    rw [not_identifier_of_punctuation listed] at h
    contradiction
  have quote := other '"' (by decide)
  have backslash := other '\\' (by decide)
  cases zone <;> simp [next, settled, quote, backslash]

theorem settled_settled (zone : Zone) : zone.settled.settled = zone.settled := by cases zone <;> rfl

theorem after_name (name : Identifying s) (nonempty : s ≠ []) : zone.after s = zone.settled := by
  induction s generalizing zone with
  | nil => contradiction
  | cons c r ih =>
    rw [after_cons, next_identifier (name c List.mem_cons_self)]
    by_cases last : r = []
    · rw [last, after_nil]
    · rw [ih (fun d member => name d (List.mem_cons_of_mem c member)) last, settled_settled]

theorem after_blank (blank : Blank s) : code.after s = code := by
  induction s with
  | nil => rfl
  | cons c r ih =>
    have other : c ≠ '"' := by
      rintro rfl
      have := blank '"' List.mem_cons_self
      revert this
      decide
    rw [after_cons, next, if_neg other, ih fun d member => blank d (List.mem_cons_of_mem c member)]

theorem after_swapped (identifying : Identifying old) (nonempty : old ≠ []) (plain : Identifying new)
    (filled : new ≠ []) (h : Swapped marked old new before s t) : zone.after s = zone.after t := by
  induction h generalizing zone with
  | nil => rfl
  | keep unmarked rest ih => rw [after_cons, after_cons, ih]
  | swap mark free rest ih =>
    rw [after_append, after_append, after_name identifying nonempty, after_name plain filled, ih]

end Zone

end SchemaServer.Text
