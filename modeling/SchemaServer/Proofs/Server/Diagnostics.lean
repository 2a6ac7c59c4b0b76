import Mathlib.Data.List.Induction
import SchemaServer.Proofs.Document.Offsets
import SchemaServer.Proofs.Formatter
import SchemaServer.Proofs.Server.Effects

/-! What is published and what is stored, with messages handled one after another. Diagnostics with a version are
those of the stored document, each check of all documents ends in one outcome for each, and a document that goes
takes its diagnostics along. -/
namespace SchemaServer

variable {env : Surroundings} {ws : Workspace} {settings : Settings} {uri target : Uri} {doc : Document}
  {message : Message} {items : List Diagnostic} {version : Option Int} {notice : Notice}

namespace Notice

def published? (uri : Uri) : Notice → Option (List Diagnostic × Option Int)
  | .diagnostics target items version => if target = uri then some (items, version) else none
  | _ => none

/-- What a check of a document ends in: diagnostics with a version, or the report that the check failed. -/
def isOutcome : Notice → Bool
  | .diagnostics _ _ version => version.isSome
  | .alert text => "prisma-fmt error: ".toList.isPrefixOf text
  | .log _ => false

/-- An outcome of the check of one document. -/
inductive Judges (uri : Uri) (doc : Document) : Notice → Prop
  | published (items : List Diagnostic) : Judges uri doc (.diagnostics uri items (some doc.version))
  | failed (error : FormatterError) : Judges uri doc (.alert ("prisma-fmt error: ".toList ++ error.message))

theorem published?_eq_some_iff : notice.published? uri = some (items, version) ↔
    notice = .diagnostics uri items version := by
  cases notice with
  | diagnostics target items version =>
    by_cases same : target = uri
    · simp [published?, same]
    · simp [published?, same]
  | log text => simp [published?]
  | alert text => simp [published?]

theorem Judges.isOutcome (judges : notice.Judges uri doc) : notice.isOutcome = true := by
  cases judges with
  | published items => rfl
  | failed error => exact List.isPrefixOf_iff_prefix.mpr ⟨error.message, rfl⟩

end Notice

/-! ## The check of a document -/

namespace Surroundings

/-- The problems that the formatter finds in a document. -/
def lints (env : Surroundings) (settings : Settings) (doc : Document) : Except FormatterError (List Lint) :=
  (env.formatter settings).1.lint env.system doc.text

/-- How the check of a document ends. -/
def outcome (env : Surroundings) (settings : Settings) (uri : Uri) (doc : Document) : Notice :=
  match env.lints settings doc with
  | .ok lints => .diagnostics uri (lints.map (·.toDiagnostic doc)) (some doc.version)
  | .error e => formatterAlert e

theorem validate_eq (env : Surroundings) (settings : Settings) (uri : Uri) (doc : Document) :
    env.validate settings uri doc = (env.formatter settings).2 ++ [env.outcome settings uri doc] := by
  unfold validate outcome lints
  obtain ⟨formatter, warnings⟩ := env.formatter settings
  dsimp only
  cases formatter.lint env.system doc.text <;> rfl

theorem outcome_judges (env : Surroundings) (settings : Settings) (uri : Uri) (doc : Document) :
    (env.outcome settings uri doc).Judges uri doc := by
  unfold outcome
  split
  · exact .published _
  · exact .failed _

/-- The warning before a run is a text about the path. -/
theorem eq_of_mem_warnings (member : notice ∈ (env.formatter settings).2) :
    ∃ path, notice = .alert ("Path to prisma-fmt binary (".toList ++ path ++
      ") does not exist. Using default prisma-fmt binary path instead.".toList) := by
  obtain ⟨text, chosen, rfl⟩ := List.mem_map.mp member
  rw [Option.mem_toList] at chosen
  dsimp only [FormatterChoice.make] at chosen
  split at chosen
  · contradiction
  · split at chosen
    · contradiction
    · exact ⟨_, congrArg _ (Option.some.inj chosen).symm⟩

theorem filter_validate (env : Surroundings) (settings : Settings) (uri : Uri) (doc : Document) :
    (env.validate settings uri doc).filter Notice.isOutcome = [env.outcome settings uri doc] := by
  have warnings : (env.formatter settings).2.filter Notice.isOutcome = [] := by
    refine List.filter_eq_nil_iff.mpr fun notice member => ?_
    obtain ⟨path, rfl⟩ := eq_of_mem_warnings member
    exact Bool.false_ne_true
  rw [validate_eq, List.filter_append, warnings, List.nil_append,
    List.filter_cons_of_pos (outcome_judges env settings uri doc).isOutcome, List.filter_nil]

/-- A check publishes what a successful run finds in the document, under its version. -/
theorem mem_validate_iff : .diagnostics target items version ∈ env.validate settings uri doc ↔
    ∃ lints, env.lints settings doc = .ok lints ∧ target = uri ∧ items = lints.map (·.toDiagnostic doc) ∧
      version = some doc.version := by
  have warnings : .diagnostics target items version ∉ (env.formatter settings).2 := by
    intro member
    obtain ⟨path, same⟩ := eq_of_mem_warnings member
    contradiction
  rw [validate_eq, List.mem_append, or_iff_right warnings, List.mem_singleton, outcome]
  cases env.lints settings doc with
  | ok lints => simp
  | error e => simp [formatterAlert]

end Surroundings

namespace Workspace

/-! ## One message -/

/-- Diagnostics are published for a document that goes, and then there are none, or for a stored document that the
formatter has just read. -/
theorem published_handle (distinct : ws.documents.Distinct)
    (published : .diagnostics uri items version ∈ (ws.handle env message).2.1) :
    (items = [] ∧ version = none ∧ (ws.handle env message).1.documents.find? uri = none) ∨
      ∃ doc lints, (ws.handle env message).1.documents.find? uri = some doc ∧ version = some doc.version ∧
        env.lints (ws.handle env message).1.settings doc = .ok lints ∧ items = lints.map (·.toDiagnostic doc) := by
  have effect := handle_effect env ws message
  generalize (ws.handle env message).1 = next, (ws.handle env message).2.1 = notices at effect published ⊢
  cases effect with
  | written =>
    obtain ⟨lints, read, rfl, shows, current⟩ := Surroundings.mem_validate_iff.mp published
    exact .inr ⟨_, lints, by rw [DocumentStore.find?_insert, if_pos rfl], current, read, shows⟩
  | closed target =>
    obtain ⟨rfl, rfl, rfl⟩ := by simpa using published
    exact .inl ⟨rfl, rfl, by rw [DocumentStore.find?_erase, if_pos rfl]⟩
  | configured payload =>
    obtain ⟨entry, member, published⟩ := List.mem_flatMap.mp (List.mem_of_ne_of_mem (by simp) published)
    obtain ⟨lints, read, rfl, shows, current⟩ := Surroundings.mem_validate_iff.mp published
    refine .inr ⟨entry.2, lints, ?_, current, read, shows⟩
    rw [documents_acceptSettings]
    exact distinct.find?_eq_some_iff.mpr member
  | unchanged reads opens plain quiet => exact absurd (quiet _ published) (by simp [Notice.isDiagnostics])

/-- A document that goes takes its diagnostics along. -/
theorem published_close (stored : (ws.documents.find? uri).isSome)
    (gone : (ws.handle env message).1.documents.find? uri = none) :
    (ws.handle env message).2.1.filterMap (Notice.published? uri) ≠ [] := by
  have effect := handle_effect env ws message
  generalize (ws.handle env message).1 = next, (ws.handle env message).2.1 = notices at effect gone ⊢
  cases effect with
  | written =>
    rw [DocumentStore.find?_insert] at gone
    split at gone
    · contradiction
    · simp [gone] at stored
  | closed target =>
    rw [DocumentStore.find?_erase] at gone
    split at gone
    · simp [Notice.published?, *]
    · simp [gone] at stored
  | configured payload =>
    rw [documents_acceptSettings] at gone
    simp [gone] at stored
  | unchanged => simp [gone] at stored

/-- After a change of the configuration, each document is checked once, in the order of the store. -/
theorem filter_configured (env : Surroundings) (ws : Workspace) (payload : Json) :
    let next := (ws.handle env (.didChangeConfiguration payload)).1
    (ws.handle env (.didChangeConfiguration payload)).2.1.filter Notice.isOutcome =
      next.documents.map fun entry => env.outcome next.settings entry.1 entry.2 := by
  intro next
  change List.filter _ (.log _ :: next.documents.flatMap fun entry => env.validate next.settings entry.1 entry.2) = _
  rw [List.filter_cons_of_neg (by simp [Notice.isOutcome]), List.filter_flatMap]
  simp only [Surroundings.filter_validate]
  exact List.map_eq_flatMap.symm

/-- What is stored is the same in any surroundings, so no run of the formatter has a part in it. -/
theorem handle_surroundings (env env' : Surroundings) (ws : Workspace) (message : Message) :
    (ws.handle env message).1 = (ws.handle env' message).1 := by
  cases message with
  | didChange uri version changes =>
    simp only [handle]
    cases changes.getLast? <;> rfl
  | formatting uri tabSize =>
    simp only [handle]
    cases ws.documents.find? uri <;> rfl
  | _ => rfl

/-! ## Runs -/

/-- Over a run, what is published last at an address without a document is empty. -/
theorem published_told (empty : ws.documents = []) (steps : List (Surroundings × Message)) (uri : Uri)
    (gone : (ws.after steps).documents.find? uri = none) :
    ∀ items version,
      ((ws.told steps).filterMap (Notice.published? uri)).getLast? = some (items, version) → items = [] := by
  induction steps using List.reverseRecOn with
  | nil => nofun
  | append_singleton steps step ih =>
    obtain ⟨env, message⟩ := step
    have start : ws.documents.Distinct := by simp [empty, DocumentStore.Distinct]
    rw [after_concat] at gone
    intro items version last
    rw [told_concat, List.filterMap_append, List.getLast?_append] at last
    cases now : (((ws.after steps).handle env message).2.1.filterMap (Notice.published? uri)).getLast? with
    | some shown =>
      rw [now, Option.some_or, Option.some.injEq] at last
      subst last
      obtain ⟨notice, member, publishes⟩ := List.mem_filterMap.mp (List.mem_of_getLast? now)
      obtain rfl := Notice.published?_eq_some_iff.mp publishes
      rcases published_handle (distinct_after start steps) member with ⟨none, -, -⟩ | ⟨doc, lints, stored, -⟩
      · exact none
      · rw [gone] at stored
        contradiction
    | none =>
      rw [now, Option.none_or] at last
      refine ih ?_ items version last
      cases before : (ws.after steps).documents.find? uri with
      | none => rfl
      | some doc => exact absurd (List.getLast?_eq_none_iff.mp now) (published_close (by rw [before]; rfl) gone)

/-- Messages of any kind come one after another to a server without documents, and its formatter may answer each
run as it likes. Diagnostics with a version are those of the document that is stored then, under its version, and
they are all inside it. A change of the configuration ends in one outcome for each stored document, in the order of
the store. A run that fails or is unreadable publishes nothing, and no run has a part in what is stored. At an address
without a document nothing is shown. -/
theorem diagnostics_follow_documents (settings : Settings) (steps : List (Surroundings × Message))
    (env : Surroundings) (message : Message) :
    let start : Workspace := { settings }
    let ws := start.after steps
    let next := (ws.handle env message).1
    let notices := (ws.handle env message).2.1
    next.documents.Distinct ∧
      (∀ uri items version, .diagnostics uri items (some version) ∈ notices →
        ∃ doc, next.documents.find? uri = some doc ∧ version = doc.version ∧
          ∀ item ∈ items, item.range.start.Inside doc ∧ item.range.stop.Inside doc) ∧
      (∀ payload, message = .didChangeConfiguration payload →
        ∃ outcome : Uri × Document → Notice, (∀ entry, (outcome entry).Judges entry.1 entry.2) ∧
          notices.filter Notice.isOutcome = next.documents.map outcome) ∧
      (∀ uri doc error, next.documents.find? uri = some doc → env.lints next.settings doc = .error error →
        ∀ items version, .diagnostics uri items version ∉ notices) ∧
      (∀ doc result, env.lints next.settings doc = result ↔
        (env.formatter next.settings).1.LintEnds env.system doc.text result) ∧
      (∀ env', (ws.handle env' message).1 = next) ∧
      ∀ uri, next.documents.find? uri = none →
        ∀ items version, ((start.told (steps ++ [(env, message)])).filterMap (Notice.published? uri)).getLast? =
          some (items, version) → items = [] := by
  intro start ws next notices
  have distinct : ws.documents.Distinct := distinct_after (by simp [start, DocumentStore.Distinct]) steps
  refine ⟨distinct_handle distinct env message, ?_, ?_, ?_, fun _ _ => Formatter.lint_eq_iff, ?_, ?_⟩
  · intro uri items version published
    rcases published_handle distinct published with ⟨-, none, -⟩ | ⟨doc, lints, stored, current, -, rfl⟩
    · contradiction
    · refine ⟨doc, stored, Option.some.inj current, fun item member => ?_⟩
      obtain ⟨lint, -, rfl⟩ := List.mem_map.mp member
      exact lint.toDiagnostic_inside doc
  · rintro payload rfl
    exact ⟨_, fun entry => env.outcome_judges next.settings entry.1 entry.2, filter_configured env ws payload⟩
  · intro uri doc error stored fails items version published
    rcases published_handle distinct published with ⟨-, -, gone⟩ | ⟨same, lints, found, -, read, -⟩
    · exact absurd (stored.symm.trans gone) (by simp)
    · obtain rfl := Option.some.inj (stored.symm.trans found)
      exact absurd (fails.symm.trans read) (by simp)
  · exact fun env' => handle_surroundings env' env ws message
  · intro uri gone
    exact published_told rfl (steps ++ [(env, message)]) uri (by rw [after_concat]; exact gone)

end Workspace

end SchemaServer
