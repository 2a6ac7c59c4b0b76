import Mathlib.Data.List.Infix
import SchemaServer.Rename.NewName
import SchemaServer.Proofs.Text.Zone

/-! The name of a field or an enum value in the database, read off its declaration line: the argument of `@map` in
front of any comment, or the first word. A swap of names in code leaves the argument alone. -/
namespace SchemaServer

open Text

variable {zone : Zone} {marked : Text → Prop} {old new before name line s t m rest : Text} {c : Char}

def mapOpening : Text := "@map(\"".toList

/-- The text in front of the first comment, read on from a zone. Two slashes in code start a comment. -/
def effectiveFrom (zone : Zone) : Text → Text
  | [] => []
  | c :: r => if zone = .code ∧ c = '/' ∧ r.head? = some '/' then [] else c :: effectiveFrom (zone.next c) r

def effectivePart (line : Text) : Text := effectiveFrom .code line

/-- What follows the first opening of a mapping in code, read on from a zone. -/
def behindMap? (zone : Zone) : Text → Option Text
  | [] => none
  | c :: r => (if zone = .code then after? mapOpening (c :: r) else none).or (behindMap? (zone.next c) r)

def stringText? (zone : Zone) : Text → Option Text
  | [] => none
  | c :: r => if zone.next c = .code then some [] else (stringText? (zone.next c) r).map (c :: ·)

/-- The argument of the first mapping in a text. -/
def mapName? (s : Text) : Option Text := (behindMap? .code s).bind (stringText? .quoted)

/-- The name in the database that a declaration line gives. -/
def physicalName? (line : Text) : Option Text := (mapName? (effectivePart line)).or (words line).head?

/-! ## Comments -/

theorem prefix_effectiveFrom (zone : Zone) (s : Text) : effectiveFrom zone s <+: s := by
  induction s generalizing zone with
  | nil => exact List.prefix_rfl
  | cons c r ih =>
    unfold effectiveFrom
    split
    · exact List.nil_prefix
    · exact (List.prefix_cons_inj c).mpr (ih _)

theorem effectiveFrom_eq_self (free : '/' ∉ s) (zone : Zone) : effectiveFrom zone s = s := by
  induction s generalizing zone with
  | nil => rfl
  | cons c r ih =>
    rw [List.mem_cons, not_or] at free
    rw [effectiveFrom, if_neg fun comment => free.1 comment.2.1.symm, ih free.2]

theorem effectiveFrom_name (identifying : Identifying name) (zone : Zone) (s : Text) :
    effectiveFrom zone (name ++ s) = name ++ effectiveFrom (zone.after name) s := by
  induction name generalizing zone with
  | nil => rfl
  | cons c r ih =>
    have other : c ≠ '/' := by
      rintro rfl
      have letter := identifying '/' List.mem_cons_self
      rw [not_identifier_of_punctuation (by decide)] at letter
      contradiction
    rw [List.cons_append, effectiveFrom, if_neg fun comment => other comment.2.1,
      ih fun d member => identifying d (List.mem_cons_of_mem c member)]
    rfl

theorem effectiveFrom_append (clear : m.head? ≠ some '/') (zone : Zone) (s : Text) : effectiveFrom zone (s ++ m) =
    if effectiveFrom zone s = s then s ++ effectiveFrom (zone.after s) m else effectiveFrom zone s := by
  induction s generalizing zone with
  | nil => simp [effectiveFrom]
  | cons c r ih =>
    have slash : (r ++ m).head? = some '/' ↔ r.head? = some '/' := by
      cases r with
      | nil => simp [clear]
      | cons d r => rfl
    simp only [List.cons_append, effectiveFrom, slash, ih]
    split
    · simp
    · simp only [List.cons.injEq, true_and, Zone.after_cons]
      split <;> rfl

/-! ## Mappings -/

theorem mentions_of_behindMap? (found : behindMap? zone s = some rest) : mapOpening <:+: s := by
  induction s generalizing zone with
  | nil => contradiction
  | cons c r ih =>
    rw [behindMap?, Option.or_eq_some_iff] at found
    rcases found with here | ⟨-, later⟩
    · split at here
      · exact ⟨[], rest, by simpa using (after?_eq_some_iff.mp here).symm⟩
      · contradiction
    · exact (ih later).trans (List.suffix_cons c r).isInfix

theorem behindMap?_none (free : '@' ∉ s) (zone : Zone) : behindMap? zone s = none := by
  rw [← Option.not_isSome_iff_eq_none, Option.isSome_iff_exists]
  rintro ⟨rest, found⟩
  exact free ((mentions_of_behindMap? found).subset (by decide))

theorem behindMap?_name (identifying : Identifying name) (zone : Zone) (s : Text) :
    behindMap? zone (name ++ s) = behindMap? (zone.after name) s := by
  induction name generalizing zone with
  | nil => rfl
  | cons c r ih =>
    have other : after? mapOpening (c :: (r ++ s)) = none := by
      rw [← Option.not_isSome_iff_eq_none, Option.isSome_iff_exists]
      rintro ⟨rest, found⟩
      have letter := identifying c List.mem_cons_self
      rw [(List.cons.inj (after?_eq_some_iff.mp found)).1, not_identifier_of_punctuation (by decide)] at letter
      contradiction
    rw [List.cons_append, behindMap?, other, ite_self, Option.none_or,
      ih fun d member => identifying d (List.mem_cons_of_mem c member)]
    rfl

theorem behindMap?_append (none : behindMap? zone s = none) (blank : m.head? = some ' ') :
    behindMap? zone (s ++ m) = behindMap? (zone.after s) m := by
  induction s generalizing zone with
  | nil => rfl
  | cons c r ih =>
    rw [behindMap?, Option.or_eq_none_iff] at none
    have other : (if zone = .code then after? mapOpening (c :: (r ++ m)) else Option.none) = Option.none := by
      split
      · rename_i code
        rw [if_pos code] at none
        rw [← Option.not_isSome_iff_eq_none, Option.isSome_iff_exists]
        rintro ⟨rest, found⟩
        have whole : c :: r ++ m = mapOpening ++ rest := after?_eq_some_iff.mp found
        rcases List.append_eq_append_iff.mp whole with ⟨k, opening, rfl⟩ | ⟨k, parts, -⟩
        · cases k with
          | nil =>
            have here : after? mapOpening (c :: r) = some [] := after?_eq_some_iff.mpr (by simpa using opening.symm)
            rw [none.1] at here
            contradiction
          | cons d k =>
            obtain rfl : d = ' ' := Option.some.inj blank
            have : ' ' ∈ mapOpening := by simp [opening]
            revert this
            decide
        · have here := after?_eq_some_iff.mpr parts
          rw [none.1] at here
          contradiction
      · rfl
    rw [List.cons_append, behindMap?, other, Option.none_or, ih none.2]
    rfl

theorem stringText?_name (identifying : Identifying name) (s : Text) :
    stringText? .quoted (name ++ '"' :: s) = some name := by
  induction name with
  | nil => rfl
  | cons c r ih =>
    have next : Zone.quoted.next c = .quoted := Zone.next_identifier (identifying c List.mem_cons_self)
    rw [List.cons_append, stringText?, next, if_neg (by decide),
      ih fun d member => identifying d (List.mem_cons_of_mem c member), Option.map_some]

/-! ## A mapping at the end of a line -/

/-- The attribute that maps to a name, as it goes in behind a line. -/
def mappingText (name : Text) : Text := " @map(\"".toList ++ name ++ "\")".toList

theorem head?_mappingText (name : Text) : (mappingText name).head? = some ' ' := rfl

theorem effectiveFrom_mappingText (identifying : Identifying name) (zone : Zone) :
    effectiveFrom zone (mappingText name) = mappingText name := by
  refine effectiveFrom_eq_self (fun slash => ?_) zone
  rcases List.mem_append.mp slash with front | back
  · rcases List.mem_append.mp front with opening | inName
    · revert opening
      decide
    · have letter := identifying _ inName
      rw [not_identifier_of_punctuation (by decide)] at letter
      contradiction
  · revert back
    decide

theorem behindMap?_mappingText (name : Text) :
    behindMap? .code (mappingText name) = some (name ++ '"' :: [')']) := rfl

/-- The quotes of a mapping in a string end the string and start another one. -/
theorem behindMap?_mappingText_string (identifying : Identifying name) (string : zone ≠ .code) :
    behindMap? zone (mappingText name) = none := by
  have behind : behindMap? zone (mappingText name) = behindMap? .code (name ++ "\")".toList) := by
    cases zone with
    | code => exact absurd rfl string
    | quoted | escaped => rfl
  rw [behind, behindMap?_name identifying]
  exact behindMap?_none (by decide) _

/-- A mapping behind a line without one counts where the line ends in code and has no comment. -/
theorem mapName?_append (none : behindMap? .code (effectivePart s) = none) (identifying : Identifying name) :
    mapName? (effectivePart (s ++ mappingText name)) =
      if effectivePart s = s ∧ Zone.code.after s = .code then some name else Option.none := by
  have append : effectivePart (s ++ mappingText name) =
      if effectivePart s = s then s ++ mappingText name else effectivePart s := by
    have whole := effectiveFrom_append (m := mappingText name) (by rw [head?_mappingText]; decide) .code s
    rwa [effectiveFrom_mappingText identifying] at whole
  rw [append]
  by_cases uncommented : effectivePart s = s
  · rw [uncommented] at none
    rw [if_pos uncommented, mapName?, behindMap?_append none rfl]
    by_cases code : Zone.code.after s = .code
    · rw [if_pos ⟨uncommented, code⟩, code, behindMap?_mappingText]
      exact stringText?_name identifying [')']
    · rw [if_neg fun both => code both.2, behindMap?_mappingText_string identifying code]
      rfl
  · rw [if_neg uncommented, if_neg fun both => uncommented both.1, mapName?, none]
    rfl

/-! ## Swapped names -/

/-- Marks stand in code, and not directly behind an `@`. -/
def InCode (marked : Text → Prop) : Prop :=
  ∀ before, marked before → Zone.code.after before = .code ∧ before.getLast? ≠ some '@'

section Swapped

variable (identifying : Identifying old) (nonempty : old ≠ []) (plain : Identifying new) (filled : new ≠ [])

include identifying nonempty plain filled

theorem effectiveFrom_swapped (zone : Zone) (h : Swapped marked old new before s t) :
    Swapped marked old new before (effectiveFrom zone s) (effectiveFrom zone t) := by
  induction h generalizing zone with
  | nil => exact .nil
  | keep unmarked rest ih =>
    rename_i before c r t
    have slash : isIdentifierChar '/' = false := not_identifier_of_punctuation (by decide)
    simp only [effectiveFrom, ← rest.head?_eq_iff identifying nonempty plain filled slash]
    split
    · exact .nil
    · exact .keep unmarked (ih _)
  | swap mark free rest ih =>
    rename_i before r t
    rw [effectiveFrom_name identifying, effectiveFrom_name plain, Zone.after_name identifying nonempty,
      Zone.after_name plain filled]
    refine .swap mark ?_ (ih _)
    cases r with
    | nil => rfl
    | cons c r =>
      unfold effectiveFrom
      split
      · rfl
      · exact free

theorem effectiveFrom_eq_self_iff (zone : Zone) (h : Swapped marked old new before s t) :
    effectiveFrom zone s = s ↔ effectiveFrom zone t = t := by
  induction h generalizing zone with
  | nil => rfl
  | keep unmarked rest ih =>
    rename_i before c r t
    have slash : isIdentifierChar '/' = false := not_identifier_of_punctuation (by decide)
    simp only [effectiveFrom, ← rest.head?_eq_iff identifying nonempty plain filled slash]
    split
    · simp
    · simpa using ih _
  | swap mark free rest ih =>
    rw [effectiveFrom_name identifying, effectiveFrom_name plain, Zone.after_name identifying nonempty,
      Zone.after_name plain filled, List.append_cancel_left_eq, List.append_cancel_left_eq, ih]

omit identifying nonempty plain filled in
theorem stringText?_swapped (inCode : InCode marked) (inside : Zone.code.after before = zone) (string : zone ≠ .code)
    (h : Swapped marked old new before s t) : stringText? zone s = stringText? zone t := by
  induction h generalizing zone with
  | nil => rfl
  | keep unmarked rest ih =>
    rename_i before c r t
    rw [stringText?, stringText?]
    split
    · rfl
    · rename_i goesOn
      rw [ih (by rw [Zone.after_append, inside]; rfl) goesOn]
  | swap mark => exact absurd (inside.symm.trans (inCode _ mark).1) string

omit nonempty plain filled identifying in
theorem unmarked_opening (inCode : InCode marked) (free : Free marked) (unmarked : ¬ marked before) :
    ∀ x, x <+: fieldMapAttribute → x ≠ fieldMapAttribute → ¬ marked (before ++ x) := by
  have table : ∀ x ∈ fieldMapAttribute.inits, x ≠ fieldMapAttribute →
      x = [] ∨ x.getLast? = some '@' ∨ (x ≠ [] ∧ x.getLast?.all isIdentifierChar) := by decide +kernel
  intro x inside other mark
  rcases table x ((List.mem_inits _ _).mpr inside) other with rfl | last | ⟨some, letter⟩
  · exact unmarked (by simpa using mark)
  · exact (inCode _ mark).2 (by rw [List.getLast?_append, last]; rfl)
  · have clear := free _ mark
    obtain ⟨y, c, rfl⟩ := (List.eq_nil_or_concat x).resolve_left some
    simp_all

/-- A mapping opens in a text exactly where one opens in the swapped text, and the arguments agree. -/
theorem after?_swapped (inCode : InCode marked) (free : Free marked) (here : Zone.code.after before = .code)
    (unmarked : ¬ marked before) (h : Swapped marked old new before s t) :
    (after? mapOpening s).map (stringText? .quoted) = (after? mapOpening t).map (stringText? .quoted) := by
  have opening : mapOpening = fieldMapAttribute ++ ['"'] := rfl
  have quote : isIdentifierChar '"' = false := not_identifier_of_punctuation (by decide)
  have missing : ∀ {u : Text}, ¬ mapOpening <+: u → after? mapOpening u = none := by
    intro u other
    rw [after?, if_neg (by rwa [List.isPrefixOf_iff_prefix])]
  rcases h.kept (unmarked_opening inCode free unmarked) with ⟨r, t', rfl, rfl, rest⟩ | ⟨notS, notT⟩
  · have same := rest.head?_eq_iff identifying nonempty plain filled quote
    by_cases opens : r.head? = some '"'
    · obtain ⟨r, rfl⟩ := List.head?_eq_some_iff.mp opens
      rcases rest.cons_inv with ⟨-, t'', rfl, string⟩ | ⟨-, r', t'', parts, -⟩
      · rw [List.append_cons, ← opening, List.append_cons, ← opening, after?_eq_some_iff.mpr rfl,
          after?_eq_some_iff.mpr rfl, Option.map_some, Option.map_some,
          stringText?_swapped inCode ?_ (by decide) string]
        rw [Zone.after_append, Zone.after_append, here]
        decide
      · obtain ⟨d, o, rfl⟩ := List.exists_cons_of_ne_nil nonempty
        obtain ⟨rfl, -⟩ := List.cons.inj parts
        rw [identifying _ List.mem_cons_self] at quote
        contradiction
    · have other : ∀ {u : Text}, u.head? ≠ some '"' → ¬ mapOpening <+: fieldMapAttribute ++ u := by
        intro u differ starts
        rw [opening, List.prefix_append_right_inj] at starts
        obtain ⟨back, rfl⟩ := starts
        exact differ rfl
      rw [missing (other opens), missing (other (mt same.mpr opens))]
  · have shorter : ∀ {u : Text}, ¬ fieldMapAttribute <+: u → ¬ mapOpening <+: u := fun other starts =>
      other ((List.prefix_append _ ['"']).trans starts)
    rw [missing (shorter notS), missing (shorter notT)]

theorem behindMap?_swapped (inCode : InCode marked) (free : Free marked) (here : Zone.code.after before = zone)
    (h : Swapped marked old new before s t) :
    (behindMap? zone s).map (stringText? .quoted) = (behindMap? zone t).map (stringText? .quoted) := by
  induction h generalizing zone with
  | nil => rfl
  | keep unmarked rest ih =>
    rename_i before c r t
    have later := @ih (zone.next c) (by rw [Zone.after_append, here]; rfl)
    rw [behindMap?, behindMap?, Option.map_or, Option.map_or, later]
    refine congrArg (Option.or · _) ?_
    by_cases code : zone = .code
    · rw [if_pos code, if_pos code]
      exact after?_swapped identifying nonempty plain filled inCode free (here.trans code) unmarked
        (.keep unmarked rest)
    · rw [if_neg code, if_neg code]
  | swap mark clear rest ih =>
    rw [behindMap?_name identifying, behindMap?_name plain, Zone.after_name identifying nonempty,
      Zone.after_name plain filled]
    exact ih (by rw [Zone.after_append, here, Zone.after_name identifying nonempty])

/-- A swap in code and not directly behind an `@` keeps the mapping. -/
theorem mapName?_swapped (free : Free marked)
    (inCode : ∀ b, marked b → b.length < (effectivePart s).length → Zone.code.after b = .code ∧ b.getLast? ≠ some '@')
    (h : Swapped marked old new [] s t) : mapName? (effectivePart s) = mapName? (effectivePart t) ∧
      (behindMap? .code (effectivePart s) = none → behindMap? .code (effectivePart t) = none) := by
  have effective := effectiveFrom_swapped identifying nonempty plain filled .code h
  have within : Swapped (fun b => marked b ∧ b.length < (effectivePart s).length) old new []
      (effectivePart s) (effectivePart t) := by
    refine effective.congr nonempty fun x y more parts => ?_
    have shorter : x.length < (effectivePart s).length := by
      rw [parts, List.length_append]
      have := List.length_pos_iff.mpr more
      omega
    simp [shorter]
  have same := behindMap?_swapped identifying nonempty plain filled (fun b mark => inCode b mark.1 mark.2)
    (fun b mark => free b mark.1) rfl within
  have arguments : ∀ o o' : Option Text, o.map (stringText? .quoted) = o'.map (stringText? .quoted) →
      o.bind (stringText? .quoted) = o'.bind (stringText? .quoted) ∧ (o = none → o' = none) := by
    intro o o' same
    cases o <;> cases o' <;> simp_all
  exact arguments _ _ same

end Swapped

end SchemaServer
