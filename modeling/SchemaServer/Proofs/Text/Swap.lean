import SchemaServer.Proofs.Text.Occurrence

/-! A text with one name in the place of another at some of the places where it stands. The marked places and
the swapped text determine each other. -/
namespace SchemaServer.Text

variable {marked marked' : Text → Prop} {old new before front back s r t t' u : Text} {c : Char}

/-- `t` is `s` with `new` in the place of `old` behind every marked text. `before` stands in front of `s`. -/
inductive Swapped (marked : Text → Prop) (old new : Text) : Text → Text → Text → Prop
  | nil {before : Text} : Swapped marked old new before [] []
  | keep {before : Text} {c : Char} {r t : Text} : ¬ marked before → Swapped marked old new (before ++ [c]) r t →
      Swapped marked old new before (c :: r) (c :: t)
  | swap {before r t : Text} : marked before → r.head?.any isIdentifierChar = false →
      Swapped marked old new (before ++ old) r t → Swapped marked old new before (old ++ r) (new ++ t)

def Free (marked : Text → Prop) : Prop := ∀ before, marked before → before.getLast?.any isIdentifierChar = false

theorem Free.behind (free : Free marked) (before : Text) : Free fun x => marked (before ++ x) := by
  intro x mark
  have clear := free _ mark
  rw [List.getLast?_append] at clear
  cases last : x.getLast? with
  | none => rfl
  | some c => rwa [last] at clear

namespace Swapped

theorem cons_inv (h : Swapped marked old new before (c :: r) t) :
    (¬ marked before ∧ ∃ t', t = c :: t' ∧ Swapped marked old new (before ++ [c]) r t') ∨
      (marked before ∧ ∃ r' t', c :: r = old ++ r' ∧ t = new ++ t' ∧ r'.head?.any isIdentifierChar = false ∧
        Swapped marked old new (before ++ old) r' t') := by
  generalize whole : c :: r = s at h
  cases h with
  | nil => contradiction
  | keep unmarked rest =>
    obtain ⟨rfl, rfl⟩ := List.cons.inj whole
    exact .inl ⟨unmarked, _, rfl, rest⟩
  | swap mark free rest => exact .inr ⟨mark, _, _, rfl, rfl, free, rest⟩

theorem nil_inv (nonempty : old ≠ []) (h : Swapped marked old new before [] t) : t = [] := by
  generalize whole : [] = s at h
  cases h with
  | nil => rfl
  | keep => contradiction
  | swap =>
    rw [eq_comm, List.append_eq_nil_iff] at whole
    exact absurd whole.1 nonempty

/-- A text without marks in it is kept. -/
theorem run (unmarked : ∀ x, x.length < u.length → ¬ marked (before ++ x))
    (rest : Swapped marked old new (before ++ u) r t) : Swapped marked old new before (u ++ r) (u ++ t) := by
  induction u generalizing before with
  | nil => simpa using rest
  | cons c u ih =>
    refine .keep (by simpa using unmarked [] (by simp)) (ih (fun x shorter => ?_) (by simpa using rest))
    have := unmarked (c :: x) (by simpa using shorter)
    simpa using this

/-- A stretch of text on its own, with the marks moved to its start. -/
theorem rebase (h : Swapped marked old new (before ++ front) s t) :
    Swapped (fun x => marked (before ++ x)) old new front s t := by
  generalize whole : before ++ front = b at h
  induction h generalizing front with
  | nil => exact .nil
  | keep unmarked rest ih =>
    subst whole
    exact .keep unmarked (ih (by simp))
  | swap mark free rest ih =>
    subst whole
    exact .swap mark free (ih (by simp))

theorem congr (nonempty : old ≠ [])
    (same : ∀ x y, y ≠ [] → s = x ++ y → (marked (before ++ x) ↔ marked' (before ++ x)))
    (h : Swapped marked old new before s t) : Swapped marked' old new before s t := by
  induction h with
  | nil => exact .nil
  | keep unmarked rest ih =>
    rename_i before c r t
    have here := same [] _ (List.cons_ne_nil c r) rfl
    rw [List.append_nil] at here
    refine .keep (by rwa [← here]) (ih fun x y more parts => ?_)
    have := same (c :: x) y more (by rw [parts]; rfl)
    simpa using this
  | swap mark free rest ih =>
    have here := same [] _ (by simp [nonempty]) rfl
    rw [List.append_nil] at here
    refine .swap (here.mp mark) free (ih fun x y more parts => ?_)
    have := same (old ++ x) y more (by rw [parts, List.append_assoc])
    simpa using this

/-- A text without marks in it stands at the start of both texts or of none. -/
theorem kept (unmarked : ∀ x, x <+: u → x ≠ u → ¬ marked (before ++ x)) (h : Swapped marked old new before s t) :
    (∃ r t', s = u ++ r ∧ t = u ++ t' ∧ Swapped marked old new (before ++ u) r t') ∨ (¬ u <+: s ∧ ¬ u <+: t) := by
  induction u generalizing before s t with
  | nil => exact .inl ⟨s, t, rfl, rfl, by simpa using h⟩
  | cons c u ih =>
    have here : ¬ marked before := by simpa using unmarked [] List.nil_prefix (by simp)
    cases h with
    | nil => simp
    | swap mark => exact absurd mark here
    | keep unmarkedHere rest =>
      rename_i d r t
      by_cases same : d = c
      · subst same
        have later := ih (fun x inside other => ?_) rest
        · rcases later with ⟨r', t', rfl, rfl, rest'⟩ | ⟨notS, notT⟩
          · exact .inl ⟨r', t', rfl, rfl, by simpa using rest'⟩
          · exact .inr ⟨by simpa using notS, by simpa using notT⟩
        · have := unmarked (d :: x) (by simpa using inside) (by simpa using other)
          simpa using this
      · simp [List.cons_prefix_cons, Ne.symm same]

theorem eq_self (h : Swapped marked old old before s t) : t = s := by
  induction h with
  | nil => rfl
  | keep _ _ ih => rw [ih]
  | swap _ _ _ ih => rw [ih]

theorem eq_of_marks (nonempty : old ≠ []) (first : Swapped marked old new before s t)
    (second : Swapped marked' old new before s t')
    (same : ∀ front back, s = front ++ old ++ back → back.head?.any isIdentifierChar = false →
      (marked (before ++ front) ↔ marked' (before ++ front))) : t = t' := by
  induction first generalizing t' with
  | nil => exact (second.nil_inv nonempty).symm
  | keep unmarked rest ih =>
    rename_i before c r t
    rcases second.cons_inv with ⟨-, t'', rfl, rest'⟩ | ⟨mark, r', t'', parts, -, free, -⟩
    · refine congrArg _ (ih rest' fun front back parts free => ?_)
      have := same (c :: front) back (by rw [parts]; rfl) free
      simpa using this
    · have here := same [] r' (by simpa using parts) free
      rw [List.append_nil] at here
      exact absurd (here.mpr mark) unmarked
  | swap mark free rest ih =>
    rename_i before r t
    have here := same [] r (by simp) free
    rw [List.append_nil] at here
    obtain ⟨c, o, rfl⟩ := List.exists_cons_of_ne_nil nonempty
    rw [List.cons_append] at second
    rcases second.cons_inv with ⟨unmarked, -⟩ | ⟨-, r', t'', parts, rfl, -, rest'⟩
    · exact absurd (here.mp mark) unmarked
    · rw [← List.cons_append, List.append_cancel_left_eq] at parts
      subst parts
      refine congrArg _ (ih rest' fun front back parts free => ?_)
      have := same (c :: o ++ front) back (by rw [parts]; simp) free
      simpa using this

section Names

variable (identifying : Identifying old) (nonempty : old ≠ []) (plain : Identifying new) (filled : new ≠ [])

include identifying nonempty plain filled

/-- What starts with no identifier still does, and with the same character. -/
theorem head?_eq_iff (other : isIdentifierChar c = false) (h : Swapped marked old new before s t) :
    s.head? = some c ↔ t.head? = some c := by
  cases h with
  | nil => rfl
  | keep => rfl
  | swap =>
    obtain ⟨d, o, rfl⟩ := List.exists_cons_of_ne_nil nonempty
    obtain ⟨e, n, rfl⟩ := List.exists_cons_of_ne_nil filled
    have first := identifying d List.mem_cons_self
    have second := plain e List.mem_cons_self
    constructor
    · rintro ⟨⟩
      rw [first] at other
      contradiction
    · rintro ⟨⟩
      rw [second] at other
      contradiction

theorem head?_free (free : s.head?.any isIdentifierChar = false) (h : Swapped marked old new before s t) :
    t.head?.any isIdentifierChar = false := by
  cases head : s.head? with
  | none =>
    rw [List.head?_eq_none_iff.mp head] at h
    rw [h.nil_inv nonempty]
    rfl
  | some c =>
    rw [head] at free
    rw [(h.head?_eq_iff identifying nonempty plain filled free).mp head]
    exact free

omit nonempty plain filled identifying in
/-- A run of a name goes on unmarked. -/
theorem kept_run (free : Free marked) (touched : before.getLast?.any isIdentifierChar = true)
    (name : Identifying u) (h : Swapped marked old new before (u ++ r) t) :
    ∃ t', t = u ++ t' ∧ Swapped marked old new (before ++ u) r t' := by
  have unmarked : ∀ x, x <+: u → x ≠ u → ¬ marked (before ++ x) := by
    intro x inside _ mark
    have clear := free _ mark
    rw [List.getLast?_append] at clear
    cases last : x.getLast? with
    | none => simp [last, touched] at clear
    | some c => simp [last, name c (inside.subset (List.mem_of_getLast? last))] at clear
  rcases h.kept unmarked with ⟨r', t', parts, rfl, rest⟩ | ⟨missing, -⟩
  · obtain rfl := List.append_cancel_left parts
    exact ⟨t', rfl, rest⟩
  · exact absurd (List.prefix_append u r) missing

/-- The name and its replacement do not stand at one place. -/
theorem not_both (free : Free marked) (differ : new ≠ old) (unmarked : ¬ marked before)
    (clear : r.head?.any isIdentifierChar = false) (first : Swapped marked old new before (old ++ r) (new ++ t))
    (second : Swapped marked' old new (before ++ old) r t) : False := by
  obtain ⟨c, o, rfl⟩ := List.exists_cons_of_ne_nil nonempty
  have later : Identifying o := fun d member => identifying d (List.mem_cons_of_mem c member)
  rcases first.cons_inv with ⟨-, t', whole, rest⟩ | ⟨mark, -⟩
  · obtain ⟨t'', rfl, kept⟩ := rest.kept_run free (by simpa using identifying c List.mem_cons_self) later
    have stop := second.head?_free identifying (by simp) plain filled clear
    have stop' := kept.head?_free identifying (by simp) plain filled clear
    have run : ∀ {name tail : Text}, Identifying name → tail.head?.any isIdentifierChar = false →
        (name ++ tail).takeWhile isIdentifierChar = name := by
      intro name tail all stop
      rw [List.takeWhile_append_of_pos all]
      cases tail with
      | nil => simp
      | cons d r =>
        have : isIdentifierChar d = false := stop
        simp [this]
    have names := congrArg (List.takeWhile isIdentifierChar) whole
    rw [run plain stop, ← List.cons_append, run identifying stop'] at names
    exact differ names
  · exact absurd mark unmarked

theorem marks_of_eq (free : Free marked) (free' : Free marked') (differ : new ≠ old)
    (first : Swapped marked old new before s t) (second : Swapped marked' old new before s t)
    (parts : s = front ++ old ++ back) : marked (before ++ front) ↔ marked' (before ++ front) := by
  induction first generalizing front with
  | nil => simp [nonempty] at parts
  | keep unmarked rest ih =>
    rename_i before c r t
    rcases second.cons_inv with ⟨unmarked', t', same, rest'⟩ | ⟨mark, r', t', whole, same, clear, rest'⟩
    · obtain rfl := (List.cons.inj same).2
      cases front with
      | nil => simp [unmarked, unmarked']
      | cons d front =>
        rw [List.cons_append, List.cons_append, List.cons.injEq] at parts
        obtain ⟨rfl, parts⟩ := parts
        simpa using ih rest' parts
    · have first := Swapped.keep unmarked rest
      rw [whole, same] at first
      exact (first.not_both identifying nonempty plain filled free differ unmarked clear rest').elim
  | swap mark clear rest ih =>
    rename_i before r t
    obtain ⟨c, o, oldEq⟩ := List.exists_cons_of_ne_nil nonempty
    have headed : old ++ r = c :: (o ++ r) := by rw [oldEq]; rfl
    rw [headed] at second
    rcases second.cons_inv with ⟨unmarked, -⟩ | ⟨mark', r', t', whole, same, -, rest'⟩
    · rw [← headed] at second
      exact (second.not_both identifying nonempty plain filled free' differ unmarked clear rest).elim
    · rw [← headed, List.append_cancel_left_eq] at whole
      obtain rfl := whole
      obtain rfl := List.append_cancel_left same
      rcases List.append_eq_append_iff.mp (show old ++ r = front ++ (old ++ back) by simpa using parts)
        with ⟨inner, rfl, later⟩ | ⟨cut, oldParts, -⟩
      · simpa using ih rest' (by simpa using later)
      · rcases List.eq_nil_or_concat front with rfl | ⟨x, d, rfl⟩
        · simp [mark, mark']
        · rw [List.concat_eq_append] at oldParts ⊢
          have touched : (before ++ (x ++ [d])).getLast?.any isIdentifierChar = true := by
            simp [← List.append_assoc, identifying d (by simp [oldParts])]
          have unmarked : ∀ {marks}, Free marks → ¬ marks (before ++ (x ++ [d])) := by
            intro marks free mark
            rw [free _ mark] at touched
            contradiction
          exact iff_of_false (unmarked free) (unmarked free')

/-- Two swaps of a text agree exactly when their marks do, at the places where the name stands. -/
theorem eq_iff_marks (free : Free marked) (free' : Free marked') (differ : new ≠ old)
    (first : Swapped marked old new [] s t) (second : Swapped marked' old new [] s t') :
    t = t' ↔ ∀ front back, Stands old front back s → (marked front ↔ marked' front) := by
  constructor
  · rintro rfl front back stands
    simpa using first.marks_of_eq identifying nonempty plain filled free free' differ second stands.parts
  · refine fun agree => first.eq_of_marks nonempty second fun front back parts clear => ?_
    rw [List.nil_append]
    by_cases touched : front.getLast?.any isIdentifierChar = true
    · exact iff_of_false (fun mark => by simp [free front mark] at touched)
        fun mark => by simp [free' front mark] at touched
    · exact agree front back ⟨parts, by simpa using touched, clear⟩

end Names

end Swapped

end SchemaServer.Text
