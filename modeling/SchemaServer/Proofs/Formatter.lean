import Mathlib.Data.List.Forall2
import SchemaServer.Formatter
import SchemaServer.Proofs.Text.Word

/-! How the runs of the formatter end. A run that does not start or exits with another status than zero fails, and so
does a lint that writes neither blanks nor a list of problems. -/
namespace SchemaServer

namespace Lint

variable {lint : Lint} {lints : List Lint} {item value start stop text : WrittenJson} {fallback : Option WrittenJson}
  {items : List WrittenJson} {members : List (Option Text × WrittenJson)} {named : List (Text × WrittenJson)}
  {key : String} {output : Text}

/-- One member of an object has the name, with this value. -/
def Sole (named : List (Text × WrittenJson)) (key : String) (value : WrittenJson) : Prop :=
  named.filter (·.1 = key.toList) = [(key.toList, value)]

def Absent (named : List (Text × WrittenJson)) (key : String) : Prop := ∀ member ∈ named, member.1 ≠ key.toList

def Carries (lint : Lint) (start stop text : WrittenJson) : Prop :=
  offset? start = some lint.start ∧ offset? stop = some lint.stop ∧ message? text = some lint.text

/-- A problem is an object with each of its members once, or the list of their values. A warning is told by a last
member that may be missing. -/
inductive Spells : WrittenJson → Lint → Prop
  | object {lint : Lint} {named : List (Text × WrittenJson)} {start stop text : WrittenJson}
      (starts : Sole named "start" start) (stops : Sole named "end" stop) (holds : Sole named "text" text)
      (carries : lint.Carries start stop text)
      (flagged : Sole named "is_warning" (.bool lint.isWarning) ∨ Absent named "is_warning" ∧ lint.isWarning = false) :
      Spells (.object (named.map fun member => (some member.1, member.2))) lint
  | list {lint : Lint} {start stop text : WrittenJson} (carries : lint.Carries start stop text)
      (plain : lint.isWarning = false) : Spells (.array [start, stop, text]) lint
  | flaggedList {lint : Lint} {start stop text : WrittenJson} (carries : lint.Carries start stop text) :
      Spells (.array [start, stop, text, .bool lint.isWarning]) lint

/-- The problems that an output lists: none if it is blank. -/
inductive Lists (output : Text) : List Lint → Prop
  | blank (empty : Text.Blank output) : Lists output []
  | items {items : List WrittenJson} {lints : List Lint} (filled : ¬ Text.Blank output)
      (list : WrittenJson.ofText? output = some (.array items)) (spelled : List.Forall₂ Spells items lints) :
      Lists output lints

theorem mapM_eq_some_iff {α β : Type} {f : α → Option β} {as : List α} {bs : List β} :
    as.mapM f = some bs ↔ List.Forall₂ (fun a b => f a = some b) as bs := by
  induction as generalizing bs with
  | nil =>
    rw [List.mapM_nil, List.forall₂_nil_left_iff, Option.pure_def, Option.some.injEq]
    exact eq_comm
  | cons a as ih =>
    simp only [List.mapM_cons, Option.bind_eq_bind, Option.bind_eq_some_iff, ih, Option.pure_def, Option.some.injEq,
      List.forall₂_cons_left_iff]
    constructor
    · rintro ⟨b, read, bs, later, rfl⟩
      exact ⟨b, bs, read, later, rfl⟩
    · rintro ⟨b, bs, read, later, rfl⟩
      exact ⟨b, read, bs, later, rfl⟩

theorem only?_eq_some_iff :
    only? named key fallback = some value ↔ Sole named key value ∨ Absent named key ∧ fallback = some value := by
  have absent : Absent named key ↔ named.filter (·.1 = key.toList) = [] := by simp [Absent, List.filter_eq_nil_iff]
  have own : ∀ member ∈ named.filter (·.1 = key.toList), member.1 = key.toList := fun member kept => by
    simpa using (List.mem_filter.mp kept).2
  rw [absent, only?, Sole]
  generalize named.filter (·.1 = key.toList) = found at own
  match found with
  | [] => simp
  | [(name, _)] =>
    obtain rfl : name = key.toList := own _ List.mem_cons_self
    simp
  | _ :: _ :: _ => simp

theorem flag?_eq_some_iff {flag : Bool} : flag? value = some flag ↔ value = .bool flag := by
  cases value <;> simp [flag?]

theorem named_iff : (members.mapM fun (key, value) => key.map (·, value)) = some named ↔
    members = named.map fun member => (some member.1, member.2) := by
  rw [mapM_eq_some_iff, ← List.forall₂_eq_eq_eq, List.forall₂_map_right_iff]
  have same : (fun (member : Option Text × WrittenJson) (x : Text × WrittenJson) =>
      (member.1.map fun key => (key, member.2)) = some x) = fun member x => member = (some x.1, x.2) := by
    funext ⟨key, value⟩ ⟨name, value'⟩
    cases key <;> simp
  exact Iff.of_eq (congrArg (List.Forall₂ · members named) same)

theorem ofWritten?_eq_some_iff : ofWritten? item = some lint ↔ Spells item lint := by
  constructor
  · intro read
    unfold ofWritten? at read
    split at read
    · simp only [Option.bind_eq_bind, Option.bind_eq_some_iff, named_iff, only?_eq_some_iff, reduceCtorEq, and_false,
        or_false, flag?_eq_some_iff, Option.pure_def, Option.some.injEq] at read
      obtain ⟨named, rfl, _, starts, n, start, _, stops, m, stop, _, holds, said, text, _, warns, w, rfl, rfl⟩ := read
      refine .object starts stops holds ⟨start, stop, text⟩ (warns.imp_right fun ⟨absent, plain⟩ => ⟨absent, ?_⟩)
      exact (WrittenJson.bool.inj plain).symm
    · simp only [Option.bind_eq_bind, Option.bind_eq_some_iff, Option.pure_def, Option.some.injEq] at read
      obtain ⟨n, start, m, stop, said, text, rfl⟩ := read
      exact .list ⟨start, stop, text⟩ rfl
    · simp only [Option.bind_eq_bind, Option.bind_eq_some_iff, flag?_eq_some_iff, Option.pure_def,
        Option.some.injEq] at read
      obtain ⟨n, start, m, stop, said, text, w, rfl, rfl⟩ := read
      have carries : (⟨n, m, said, w⟩ : Lint).Carries _ _ _ := ⟨start, stop, text⟩
      exact .flaggedList carries
    · contradiction
  · intro spells
    cases spells with
    | @object _ named _ _ _ starts stops holds carries flagged =>
      obtain ⟨start, stop, text⟩ := carries
      have warns : only? named "is_warning" (some (.bool false)) = some (.bool lint.isWarning) :=
        only?_eq_some_iff.mpr (flagged.imp_right fun ⟨absent, plain⟩ => ⟨absent, by rw [plain]⟩)
      simp [ofWritten?, named_iff.mpr rfl, only?_eq_some_iff.mpr (.inl starts), only?_eq_some_iff.mpr (.inl stops),
        only?_eq_some_iff.mpr (.inl holds), warns, start, stop, text, flag?]
    | list carries plain =>
      obtain ⟨start, stop, text⟩ := carries
      simp [ofWritten?, start, stop, text, ← plain]
    | flaggedList carries =>
      obtain ⟨start, stop, text⟩ := carries
      simp [ofWritten?, start, stop, text, flag?]

theorem ofOutput?_eq_some_iff : ofOutput? output = some lints ↔ Lists output lints := by
  have blank : output.all Text.isBlank = true ↔ Text.Blank output := List.all_eq_true
  constructor
  · intro read
    unfold ofOutput? at read
    split at read
    · obtain rfl := Option.some.inj read
      exact .blank (blank.mp ‹_›)
    · split at read
      · refine .items (mt blank.mpr ‹_›) ‹_› ?_
        simpa only [mapM_eq_some_iff, ofWritten?_eq_some_iff] using read
      · contradiction
  · intro lists
    cases lists with
    | blank empty => rw [ofOutput?, if_pos (blank.mpr empty)]
    | items filled list spelled =>
      rw [ofOutput?, if_neg (mt blank.mp filled), list]
      simpa only [mapM_eq_some_iff, ofWritten?_eq_some_iff] using spelled

end Lint

namespace Formatter

variable {formatter : Formatter} {sys : System} {arguments : List Text} {input text : Text}

def lintArguments : List Text := ["lint".toList, "--no-env-errors".toList]

def formatArguments (tabSize : Nat) : List Text := ["format".toList, "-s".toList, (toString tabSize).toList]

/-- How a run ends. -/
inductive Ends (formatter : Formatter) (sys : System) (arguments : List Text) (input : Text) :
    Except FormatterError Text → Prop
  | notStarted {cause : SystemError} (fails : sys.run formatter.path arguments input = .error cause) :
      Ends formatter sys arguments input (.error (.notStarted formatter.path cause))
  | failed {output : ProgramOutput} (ran : sys.run formatter.path arguments input = .ok output)
      (status : output.status ≠ .code 0) :
      Ends formatter sys arguments input (.error (.failed output.status (Text.trim (Text.ofUtf8 output.stderr))))
  | done {output : ProgramOutput} (ran : sys.run formatter.path arguments input = .ok output)
      (status : output.status = .code 0) : Ends formatter sys arguments input (.ok (Text.ofUtf8 output.stdout))

/-- How a lint ends: its run fails, or what it writes is unreadable or lists problems. -/
inductive LintEnds (formatter : Formatter) (sys : System) (text : Text) : Except FormatterError (List Lint) → Prop
  | stopped {error : FormatterError} (ends : formatter.Ends sys lintArguments text (.error error)) :
      LintEnds formatter sys text (.error error)
  | unreadable {output : Text} (ends : formatter.Ends sys lintArguments text (.ok output))
      (unlisted : ∀ lints, ¬ Lint.Lists output lints) : LintEnds formatter sys text (.error .unreadableOutput)
  | read {output : Text} {lints : List Lint} (ends : formatter.Ends sys lintArguments text (.ok output))
      (lists : Lint.Lists output lints) : LintEnds formatter sys text (.ok lints)

theorem run_eq_iff {result : Except FormatterError Text} :
    formatter.run sys arguments input = result ↔ formatter.Ends sys arguments input result := by
  constructor
  · rintro rfl
    unfold run
    split
    · exact .notStarted ‹_›
    · split
      · exact .done ‹_› ‹_›
      · exact .failed ‹_› ‹_›
  · intro ends
    cases ends with
    | notStarted fails => simp only [run, fails]
    | failed ran status => simp only [run, ran, if_neg status]
    | done ran status => simp only [run, ran, if_pos status]

theorem lint_eq (formatter : Formatter) (sys : System) (text : Text) : formatter.lint sys text =
    (formatter.run sys lintArguments text).bind fun output =>
      (Lint.ofOutput? output).elim (.error .unreadableOutput) .ok := by
  unfold lint lintArguments
  cases formatter.run sys _ text with
  | error e => rfl
  | ok output =>
    dsimp only [Except.bind]
    cases Lint.ofOutput? output <;> rfl

theorem lint_eq_iff {result : Except FormatterError (List Lint)} :
    formatter.lint sys text = result ↔ formatter.LintEnds sys text result := by
  rw [lint_eq]
  constructor
  · rintro rfl
    cases ran : formatter.run sys lintArguments text with
    | error e => exact .stopped (run_eq_iff.mp ran)
    | ok output =>
      have ends := run_eq_iff.mp ran
      dsimp only [Except.bind]
      cases read : Lint.ofOutput? output with
      | some lints => exact .read ends (Lint.ofOutput?_eq_some_iff.mp read)
      | none =>
        refine .unreadable ends fun lints lists => ?_
        rw [Lint.ofOutput?_eq_some_iff.mpr lists] at read
        contradiction
  · intro ends
    cases ends with
    | stopped ends =>
      rw [run_eq_iff.mpr ends]
      rfl
    | @unreadable output ends unlisted =>
      have unread : Lint.ofOutput? output = none := Option.eq_none_iff_forall_ne_some.mpr fun lints read =>
        unlisted lints (Lint.ofOutput?_eq_some_iff.mp read)
      simp only [run_eq_iff.mpr ends, Except.bind, unread, Option.elim_none]
    | read ends lists =>
      simp only [run_eq_iff.mpr ends, Except.bind, Lint.ofOutput?_eq_some_iff.mpr lists, Option.elim_some]

/-- What the formatter gives depends on one run of its program. -/
theorem run_congr {sys' : System} (same : sys.run formatter.path arguments input =
    sys'.run formatter.path arguments input) :
    formatter.run sys arguments input = formatter.run sys' arguments input := by
  rw [run, run, same]

end Formatter

end SchemaServer
