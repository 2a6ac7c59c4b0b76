import SchemaServer.Wire.Encode
import SchemaServer.Proofs.Spelling.Candidates
import SchemaServer.Proofs.Text.Occurrence

/-! The fixes of a list of diagnostics, diagnostic by diagnostic: up to three known names that match the type a
message calls unknown, each in the place of the range of its diagnostic, and the first of them preferred. -/
namespace SchemaServer

open Text Spelling

variable {report : Report} {message name : Text} {fixes : List QuickFix}

def unknownTypeLead : Text := "Type \"".toList

def unknownTypeRemark : Text := "\" is neither a built-in type".toList

/-- The message opens as the one on an unknown type does, and the remark on that comes later. -/
def OnUnknownType (message : Text) : Prop :=
  ∃ front rest, message = unknownTypeLead ++ (front ++ unknownTypeRemark ++ rest)

/-- What stands in front of the first remark is the unknown type. -/
structure CallsUnknown (message name : Text) : Prop where
  parts : ∃ rest, message = unknownTypeLead ++ (name ++ unknownTypeRemark ++ rest)
  first : ∀ front rest, message = unknownTypeLead ++ (front ++ unknownTypeRemark ++ rest) → name.length ≤ front.length

theorem unknownType?_reads : unknownType? message = some name ↔ ∃ rest found, message = unknownTypeLead ++ rest ∧
    splitAtFirst? unknownTypeRemark rest = some (name, found) := by
  have steps : unknownType? message = (after? unknownTypeLead message).bind fun rest =>
      (splitAtFirst? unknownTypeRemark rest).bind fun x => some x.1 := rfl
  simp only [steps, Option.bind_eq_some_iff, after?_eq_some_iff, Prod.exists, Option.some.injEq]
  constructor
  · rintro ⟨rest, parts, _, found, split, rfl⟩
    exact ⟨rest, found, parts, split⟩
  · rintro ⟨rest, found, parts, split⟩
    exact ⟨rest, parts, name, found, split, rfl⟩

theorem unknownType?_eq_some_iff : unknownType? message = some name ↔ CallsUnknown message name := by
  rw [unknownType?_reads]
  constructor
  · rintro ⟨rest, found, rfl, split⟩
    obtain ⟨rfl, ⟨back, rfl⟩, first⟩ := splitAtFirst?_eq_some_iff.mp split
    refine ⟨⟨back, by simp⟩, fun front rest whole => ?_⟩
    exact first front rest (List.append_cancel_left whole)
  · rintro ⟨⟨back, rfl⟩, first⟩
    refine ⟨_, unknownTypeRemark ++ back, rfl, splitAtFirst?_eq_some_iff.mpr ⟨by simp, ⟨back, rfl⟩, ?_⟩⟩
    exact fun front rest whole => first front rest (by rw [whole])

theorem unknownType?_isSome_iff : (unknownType? message).isSome = true ↔ OnUnknownType message := by
  rw [Option.isSome_iff_exists]
  constructor
  · rintro ⟨name, read⟩
    obtain ⟨rest, parts⟩ := (unknownType?_eq_some_iff.mp read).parts
    exact ⟨name, rest, parts⟩
  · rintro ⟨front, rest, rfl⟩
    have occurs : unknownTypeRemark <:+: front ++ unknownTypeRemark ++ rest := ⟨front, rest, rfl⟩
    obtain ⟨⟨name, found⟩, split⟩ := Option.isSome_iff_exists.mp (mentions_iff.mpr occurs)
    exact ⟨name, unknownType?_reads.mpr ⟨_, found, rfl, split⟩⟩

/-! ## The names of types -/

def builtInTypes : List Text :=
  ["String".toList, "Boolean".toList, "Int".toList, "BigInt".toList, "Float".toList, "Decimal".toList,
    "DateTime".toList, "Json".toList, "Bytes".toList]

def BlockKind.declaresType : BlockKind → Bool
  | .model | .enum | .typeAlias => true
  | .datasource | .generator => false

def declaredType? (line : Text) : Option Text := ((Header.ofLine? line).filter (·.kind.declaresType)).map Header.name

/-- The names of types, each as often as it is built in or declared by a line. -/
def Document.typeNames (doc : Document) : List Text := builtInTypes ++ doc.lines.filterMap declaredType?

theorem Block.inRows_headers (doc : Document) (rows : List (Text × Nat)) :
    (inRows doc rows).map (fun b => (⟨b.kind, b.name⟩ : Header)) = (rows.map Prod.fst).filterMap Header.ofLine? := by
  induction rows with
  | nil => rfl
  | cons x rest ih =>
    obtain ⟨line, row⟩ := x
    unfold inRows
    cases opens : Header.ofLine? line with
    | none => simpa [opens] using ih
    | some header =>
      have declares : (⟨(opened doc header row rest).kind, (opened doc header row rest).name⟩ : Header) = header := by
        unfold opened
        dsimp only
        split
        · split <;> rfl
        · rfl
      simp [opens, ih, declares]

theorem Document.blockNames_eq (doc : Document) (kind : BlockKind) : doc.blockNames kind =
    ((doc.lines.filterMap Header.ofLine?).filter (·.kind = kind)).map Header.name := by
  have lines : doc.rows.map Prod.fst = doc.lines := List.zipIdx_map_fst ..
  rw [← lines, ← Block.inRows_headers doc, ← blocks, List.filter_map, List.map_map, blockNames]
  rfl

/-- Taking the kinds of types one by one takes them all. -/
theorem types_perm (headers : List Header) :
    (headers.filter (·.kind = .model) ++ headers.filter (·.kind = .enum) ++ headers.filter (·.kind = .typeAlias)).Perm
      (headers.filter (·.kind.declaresType)) := by
  induction headers with
  | nil => exact .nil
  | cons header rest ih =>
    cases kind : header.kind with
    | datasource | generator => simpa [kind, BlockKind.declaresType] using ih
    | model => simpa [kind, BlockKind.declaresType] using ih
    | enum =>
      simp only [kind, BlockKind.declaresType, List.filter_cons, decide_true, if_true, reduceCtorEq, decide_false,
        Bool.false_eq_true, if_false, List.append_assoc, List.cons_append]
      exact List.perm_middle.trans ((List.append_assoc .. ▸ ih).cons header)
    | typeAlias =>
      simp only [kind, BlockKind.declaresType, List.filter_cons, decide_true, if_true, reduceCtorEq, decide_false,
        Bool.false_eq_true, if_false]
      exact List.perm_middle.trans (ih.cons header)

theorem Document.knownTypes_perm (doc : Document) : doc.knownTypes.Perm doc.typeNames := by
  have declared : doc.lines.filterMap declaredType? =
      ((doc.lines.filterMap Header.ofLine?).filter (·.kind.declaresType)).map Header.name := by
    rw [← List.filterMap_eq_map, ← List.filterMap_eq_filter, List.filterMap_filterMap, List.filterMap_filterMap]
    refine List.filterMap_congr fun line _ => ?_
    cases opens : Header.ofLine? line with
    | none => simp [declaredType?, opens]
    | some header =>
      simp only [declaredType?, opens, Option.filter_some, Option.bind_some, Option.guard]
      split <;> rfl
  rw [knownTypes, typeNames, declared, blockNames_eq, blockNames_eq, blockNames_eq, List.append_assoc,
    List.append_assoc, ← List.map_append, ← List.map_append, ← List.append_assoc]
  exact ((types_perm _).map Header.name).append_left builtInTypes

/-! ## The fixes of a diagnostic -/

/-- The names that can correct an unknown one, each as often as it is built in or declared. -/
def Document.corrections (doc : Document) (unknown : Text) : List Text := doc.typeNames.filter (Candidate unknown ·)

/-- The fixes of a diagnostic that calls `unknown` unknown. -/
structure Corrects (doc : Document) (report : Report) (unknown : Text) (fixes : List QuickFix) : Prop where
  count : fixes.length = min 3 (doc.corrections unknown).length
  known : (fixes.map QuickFix.name).Subperm (doc.corrections unknown)
  replaces : ∀ fix ∈ fixes, fix.report = report ∧ fix.edit = ⟨report.range, fix.name⟩
  prefers : ∀ (rank : Nat) (h : rank < fixes.length), fixes[rank].preferred = true ↔ rank = 0

/-- The fixes of a diagnostic: none if its message is not on an unknown type. -/
structure Fixes (doc : Document) (report : Report) (fixes : List QuickFix) : Prop where
  silent : ¬ OnUnknownType report.message → fixes = []
  corrects : ∀ unknown, CallsUnknown report.message unknown → Corrects doc report unknown fixes

theorem Document.fixesFor_eq (doc : Document) (called : CallsUnknown report.message name) :
    doc.fixesFor report = (suggestions name doc.knownTypes).zipIdx.map fun x => ⟨report, x.1, x.2 = 0⟩ := by
  rw [fixesFor, unknownType?_eq_some_iff.mpr called]

theorem Document.map_name_fixesFor (doc : Document) (called : CallsUnknown report.message name) :
    (doc.fixesFor report).map QuickFix.name = suggestions name doc.knownTypes := by
  rw [doc.fixesFor_eq called, List.map_map]
  exact List.zipIdx_map_fst ..

theorem Document.fixesFor_corrects (doc : Document) (called : CallsUnknown report.message name) :
    Corrects doc report name (doc.fixesFor report) := by
  have fixes := doc.fixesFor_eq called
  have names := doc.map_name_fixesFor called
  have candidates : (doc.knownTypes.filter (Candidate name ·)).Perm (doc.corrections name) :=
    doc.knownTypes_perm.filter _
  have known := (suggestions_subperm name doc.knownTypes).trans candidates.subperm
  refine ⟨?_, names ▸ known, fun fix member => ?_, fun rank h => ?_⟩
  · rw [← List.length_map QuickFix.name, names, length_suggestions, suggestionLimit, candidates.length_eq]
  · rw [fixes] at member
    obtain ⟨⟨n, rank⟩, -, rfl⟩ := List.mem_map.mp member
    exact ⟨rfl, rfl⟩
  · simp [fixes]

theorem Document.fixes_fixesFor (doc : Document) (report : Report) : Fixes doc report (doc.fixesFor report) := by
  refine ⟨fun other => ?_, fun unknown called => doc.fixesFor_corrects called⟩
  have none : unknownType? report.message = none := by
    rw [← Option.not_isSome_iff_eq_none, unknownType?_isSome_iff]
    exact other
  rw [fixesFor, none]

/-- The fixes of a list of diagnostics are the fixes of each in turn, and in every document a fix is written as one edit
of that document. -/
theorem Document.quickFixes_exact (doc : Document) (reports : List Report) :
    (∃ groups, doc.quickFixes reports = groups.flatten ∧ List.Forall₂ (Fixes doc) reports groups) ∧
      ∀ fix ∈ doc.quickFixes reports, ∀ uri,
        (fix.toJson uri).member? "edit" = some (changesJson uri [fix.edit]) := by
  refine ⟨⟨reports.map doc.fixesFor, ?_, ?_⟩, fun fix _ uri => rfl⟩
  · rw [quickFixes, List.flatMap_def]
  · rw [List.forall₂_map_right_iff, List.forall₂_same]
    exact fun report _ => doc.fixes_fixesFor report

/-- Four names match, one of which is declared twice, and a generator declares no type. Another diagnostic has no
fix. -/
theorem Document.quickFixes_exact_misspelt :
    let doc := ofText ("model Post \x7b\n  title Strng\n\x7d\nenum Strang \x7b\n\x7d\nmodel Strang \x7b\n\x7d\n".toList ++
      "type Strong \x7b\n\x7d\ngenerator Strung \x7b\n\x7d\n".toList) 0
    let other : Report := ⟨⟨⟨0, 6⟩, ⟨0, 10⟩⟩, "Field \"id\" is already defined on model \"Post\".".toList, .null⟩
    let report : Report := ⟨⟨⟨1, 8⟩, ⟨1, 13⟩⟩, "Type \"Strng\" is neither a built-in type, nor an enum.".toList, .null⟩
    ¬ OnUnknownType other.message ∧ CallsUnknown report.message "Strng".toList ∧
      doc.corrections "Strng".toList = ["String".toList, "Strang".toList, "Strang".toList, "Strong".toList] ∧
      ∃ fixes, doc.quickFixes [other, report] = fixes ∧ Corrects doc report "Strng".toList fixes ∧
        fixes.map QuickFix.name = ["String".toList, "Strang".toList, "Strang".toList] ∧
        ∀ fix ∈ fixes, ∀ uri, (fix.toJson uri).member? "edit" = some (changesJson uri [⟨report.range, fix.name⟩]) := by
  intro doc other report
  have silent : ¬ OnUnknownType other.message := by
    rw [← unknownType?_isSome_iff]
    decide +kernel
  have called : CallsUnknown report.message "Strng".toList := unknownType?_eq_some_iff.mp (by decide +kernel)
  have scores : scored "Strng".toList #[] (doc.knownTypes.filter (· ≠ "Strng".toList)) =
      [(103, "String".toList), (103, "Strang".toList), (103, "Strang".toList), (103, "Strong".toList)] := by
    decide +kernel
  have names : (doc.quickFixes [other, report]).map QuickFix.name =
      ["String".toList, "Strang".toList, "Strang".toList] := by
    rw [quickFixes, List.flatMap_cons, (doc.fixes_fixesFor other).silent silent, List.flatMap_singleton,
      List.nil_append, doc.map_name_fixesFor called, suggestions, scores, List.mergeSort_of_pairwise (by decide)]
    rfl
  obtain ⟨⟨groups, whole, groupwise⟩, written⟩ := doc.quickFixes_exact [other, report]
  cases groupwise with
  | cons first later =>
    cases later with
    | cons second none =>
      cases none
      obtain rfl := first.silent silent
      rw [List.flatten_cons, List.flatten_singleton, List.nil_append] at whole
      have corrects := second.corrects _ called
      refine ⟨silent, called, by decide +kernel, _, whole, corrects, whole ▸ names, fun fix member uri => ?_⟩
      rw [written fix (whole ▸ member) uri, (corrects.replaces fix member).2]

end SchemaServer
