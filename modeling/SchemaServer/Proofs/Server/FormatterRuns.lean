import Mathlib.Data.List.Basic
import SchemaServer.Proofs.Server.Diagnostics
import SchemaServer.Proofs.Server.Settings

/-! The runs of the formatter among what a server tells. An input is handled by deeds, which are notices and runs.
The runs decide the rest, and each starts the program that the settings of that moment choose, right behind a
warning if their path had to be ignored. -/
namespace SchemaServer

variable {env env' : Surroundings} {ws : Workspace} {settings : Settings} {uri : Uri} {doc : Document}
  {message : Message} {input : Input} {program content : Text} {arguments : List Text}

namespace Formatter

variable {formatter : Formatter} {sys sys' : System} {cause : SystemError} {text : Text} {tabSize : Nat}

theorem lint_notStarted (fails : sys.run formatter.path lintArguments text = .error cause) :
    formatter.lint sys text = .error (.notStarted formatter.path cause) :=
  lint_eq_iff.mpr (.stopped (.notStarted fails))

theorem format_notStarted (fails : sys.run formatter.path (formatArguments tabSize) text = .error cause) :
    formatter.format sys text tabSize = .error (.notStarted formatter.path cause) :=
  run_eq_iff.mpr (.notStarted fails)

theorem lint_congr (same : sys.run formatter.path lintArguments text = sys'.run formatter.path lintArguments text) :
    formatter.lint sys text = formatter.lint sys' text := by
  rw [lint_eq, lint_eq, run_congr same]

theorem format_congr (same : sys.run formatter.path (formatArguments tabSize) text =
    sys'.run formatter.path (formatArguments tabSize) text) :
    formatter.format sys text tabSize = formatter.format sys' text tabSize :=
  run_congr same

end Formatter

/-- A step of handling an input that can be seen from outside. -/
inductive Deed
  | told (notice : Notice)
  | ran (program : Text) (arguments : List Text) (content : Text)
  deriving DecidableEq

def Deed.notice? : Deed → Option Notice
  | .told notice => some notice
  | .ran .. => none

theorem Deed.filterMap_told (notices : List Notice) : (notices.map Deed.told).filterMap Deed.notice? = notices := by
  rw [List.filterMap_map]
  exact List.filterMap_some

namespace Surroundings

/-! ## The choice of a program -/

/-- The path of the settings, without blanks around it. -/
def configured (settings : Settings) : Text := Text.trim settings.formatterPath

/-- The path of the settings has to be ignored: it is there, and nothing is found at it. -/
def Ignores (env : Surroundings) (settings : Settings) : Prop :=
  configured settings ≠ [] ∧ env.system.pathExists (configured settings) = false

/-- The program that the settings choose: theirs if it exists, else that of the configuration, else the default. -/
inductive Chooses (env : Surroundings) (settings : Settings) : Text → Prop
  | setting (given : configured settings ≠ []) (present : env.system.pathExists (configured settings) = true) :
      Chooses env settings (configured settings)
  | config {path : Text} (unusable : configured settings = [] ∨ env.Ignores settings)
      (given : env.config.formatterPath = some path) : Chooses env settings path
  | default (unusable : configured settings = [] ∨ env.Ignores settings)
      (absent : env.config.formatterPath = none) : Chooses env settings "prisma-fmt".toList

def warning (settings : Settings) : Notice :=
  .alert ("Path to prisma-fmt binary (".toList ++ configured settings ++
    ") does not exist. Using default prisma-fmt binary path instead.".toList)

theorem formatter_chooses (env : Surroundings) (settings : Settings) :
    env.Chooses settings (env.formatter settings).1.path ∧
      ((env.Ignores settings ∧ (env.formatter settings).2 = [warning settings]) ∨
        (¬ env.Ignores settings ∧ (env.formatter settings).2 = [])) := by
  have fallback : (configured settings = [] ∨ env.Ignores settings) →
      env.Chooses settings (env.config.formatterPath.getD FormatterChoice.defaultPath) := by
    intro unusable
    cases given : env.config.formatterPath with
    | none => exact .default unusable given
    | some path => exact .config unusable given
  by_cases given : configured settings = []
  · have empty : (Text.trim settings.formatterPath).isEmpty = true := List.isEmpty_iff.mpr given
    simp only [formatter, FormatterChoice.make, empty, if_true]
    exact ⟨fallback (.inl given), .inr ⟨fun ignores => ignores.1 given, rfl⟩⟩
  · have filled : (Text.trim settings.formatterPath).isEmpty ≠ true := mt List.isEmpty_iff.mp given
    cases present : env.system.pathExists (configured settings) with
    | true =>
      have found : env.system.pathExists (Text.trim settings.formatterPath) = true := present
      simp only [formatter, FormatterChoice.make, if_neg filled, found, if_true]
      exact ⟨.setting given present, .inr ⟨fun ignores => Bool.noConfusion (ignores.2.symm.trans present), rfl⟩⟩
    | false =>
      have missing : env.system.pathExists (Text.trim settings.formatterPath) ≠ true := by
        rw [← configured, present]
        exact Bool.false_ne_true
      simp only [formatter, FormatterChoice.make, if_neg filled, if_neg missing]
      exact ⟨fallback (.inr ⟨given, present⟩), .inl ⟨⟨given, present⟩, rfl⟩⟩

theorem formatterAlert_ne_warning (error : FormatterError) (settings : Settings) :
    formatterAlert error ≠ warning settings := by
  intro same
  have heads := congrArg List.head? (Notice.alert.inj same)
  simp at heads

theorem outcome_ne_warning (env : Surroundings) (settings : Settings) (uri : Uri) (doc : Document)
    (ignored : Settings) : env.outcome settings uri doc ≠ warning ignored := by
  unfold outcome
  split
  · nofun
  · exact formatterAlert_ne_warning _ ignored

end Surroundings

/-! ## Runs and deeds -/

/-- A run of the formatter that is asked for, with what is told when it has ended. -/
structure Job where
  arguments : List Text
  content : Text
  result : List Notice

namespace Surroundings

def lintJob (env : Surroundings) (settings : Settings) (uri : Uri) (doc : Document) : Job :=
  ⟨Formatter.lintArguments, doc.text, [env.outcome settings uri doc]⟩

def formatJob (env : Surroundings) (settings : Settings) (doc : Document) (tabSize : Nat) : Job :=
  ⟨Formatter.formatArguments tabSize, doc.text,
    match (env.formatter settings).1.format env.system doc.text tabSize with
    | .ok _ => []
    | .error e => [formatterAlert e]⟩

/-- A job warns if it must, runs and tells its result. -/
def jobDeeds (env : Surroundings) (settings : Settings) (job : Job) : List Deed :=
  (env.formatter settings).2.map .told ++
    .ran (env.formatter settings).1.path job.arguments job.content :: job.result.map .told

/-- What is told of a job says if its program could not be started. -/
def Reports (env : Surroundings) (settings : Settings) (job : Job) : Prop :=
  ∀ cause, env.system.run (env.formatter settings).1.path job.arguments job.content = .error cause →
    job.result = [formatterAlert (.notStarted (env.formatter settings).1.path cause)]

theorem lintJob_reports (env : Surroundings) (settings : Settings) (uri : Uri) (doc : Document) :
    env.Reports settings (env.lintJob settings uri doc) := by
  intro cause fails
  have failed : env.lints settings doc = .error (.notStarted (env.formatter settings).1.path cause) :=
    Formatter.lint_notStarted fails
  simp only [lintJob, outcome, failed]

theorem formatJob_reports (env : Surroundings) (settings : Settings) (doc : Document) (tabSize : Nat) :
    env.Reports settings (env.formatJob settings doc tabSize) := by
  intro cause fails
  have failed : (env.formatter settings).1.format env.system doc.text tabSize =
      .error (.notStarted (env.formatter settings).1.path cause) := Formatter.format_notStarted fails
  simp only [formatJob, failed]

theorem filterMap_jobDeeds (env : Surroundings) (settings : Settings) (job : Job) :
    (env.jobDeeds settings job).filterMap Deed.notice? = (env.formatter settings).2 ++ job.result := by
  rw [jobDeeds, List.filterMap_append, Deed.filterMap_told, List.filterMap_cons_none rfl, Deed.filterMap_told]

end Surroundings

namespace Workspace

/-- The documents that a message has checked. -/
def checked (ws : Workspace) : Message → DocumentStore
  | .didChangeConfiguration _ => ws.documents
  | message => message.write?.toList

def formatted (ws : Workspace) : Message → List (Document × Nat)
  | .formatting uri tabSize => (ws.documents.find? uri).toList.map (·, tabSize)
  | _ => []

/-- The runs that a message asks for, with the settings that it leaves. -/
def jobs (env : Surroundings) (ws : Workspace) (message : Message) : List Job :=
  let settings := (ws.handle env message).1.settings
  (ws.checked message).map (fun entry => env.lintJob settings entry.1 entry.2) ++
    (ws.formatted message).map fun entry => env.formatJob settings entry.1 entry.2

def opening : Message → List Notice
  | .initialized => [.log "prisma-lsp server initialized!".toList]
  | .didClose uri => [.diagnostics uri [] none]
  | .didChangeConfiguration _ => [.log "Configuration changed.".toList]
  | _ => []

/-- The deeds of an input: what is told first, then its runs one after another. -/
def deeds (env : Surroundings) (ws : Workspace) : Input → List Deed
  | .start _ => []
  | .message content =>
    (opening content).map .told ++
      (ws.jobs env content).flatMap (env.jobDeeds (ws.handle env content).1.settings)

theorem opening_ne_warning (message : Message) (settings : Settings) :
    (opening message).getLast? ≠ some (Surroundings.warning settings) := by
  cases message <;> nofun

/-- The jobs of a message report on their runs, and never with a warning about a path. -/
theorem jobs_report {job : Job} (asked : job ∈ ws.jobs env message) :
    env.Reports (ws.handle env message).1.settings job ∧
      ∀ settings, job.result.getLast? ≠ some (Surroundings.warning settings) := by
  rcases List.mem_append.mp asked with lints | formats
  · obtain ⟨entry, -, rfl⟩ := List.mem_map.mp lints
    exact ⟨Surroundings.lintJob_reports env _ _ _, fun settings same =>
      Surroundings.outcome_ne_warning _ _ _ _ settings (Option.some.inj same)⟩
  · obtain ⟨entry, -, rfl⟩ := List.mem_map.mp formats
    refine ⟨Surroundings.formatJob_reports env _ _ _, fun settings => ?_⟩
    unfold Surroundings.formatJob
    split
    · nofun
    · exact fun same => Surroundings.formatterAlert_ne_warning _ settings (Option.some.inj same)

theorem filterMap_deeds (env : Surroundings) (ws : Workspace) (input : Input) :
    (ws.deeds env input).filterMap Deed.notice? = (ws.meet env input).2.1 := by
  cases input with
  | start options => rfl
  | message content =>
    simp only [deeds, List.filterMap_append, Deed.filterMap_told, List.filterMap_flatMap,
      Surroundings.filterMap_jobDeeds, meet]
    cases content with
    | didOpen uri version text =>
      simp [opening, jobs, checked, formatted, Message.write?, Surroundings.lintJob, handle, store,
        Surroundings.validate_eq]
    | didChange uri version changes =>
      cases last : changes.getLast? <;> simp [opening, jobs, checked, formatted, Message.write?, last,
        Surroundings.lintJob, handle, store, Surroundings.validate_eq]
    | didChangeConfiguration payload =>
      simp [opening, jobs, checked, formatted, Surroundings.lintJob, handle, Surroundings.validate_eq,
        List.flatMap_map, documents_acceptSettings]
    | formatting uri tabSize =>
      cases found : ws.documents.find? uri with
      | none => simp [opening, jobs, checked, formatted, Message.write?, found, handle]
      | some doc =>
        simp only [opening, jobs, checked, formatted, Message.write?, found, Surroundings.formatJob, handle, formatting]
        cases result : (env.formatter ws.settings).1.format env.system doc.text tabSize <;> simp [result]
    | rename uri pos newName =>
      simp only [handle]
      split <;> rfl
    | _ => rfl

theorem ran_mem {job : Job} (asked : job ∈ ws.jobs env message) :
    .ran (env.formatter (ws.handle env message).1.settings).1.path job.arguments job.content ∈
      ws.deeds env (.message message) :=
  List.mem_append_right _ (List.mem_flatMap.mpr ⟨job, asked, by simp [Surroundings.jobDeeds]⟩)

/-- Handling a message depends on no runs but those that its deeds list. -/
theorem handle_congr (config : env'.config = env.config)
    (exist : env'.system.pathExists = env.system.pathExists)
    (agree : ∀ program arguments content, .ran program arguments content ∈ ws.deeds env (.message message) →
      env'.system.run program arguments content = env.system.run program arguments content) :
    ws.handle env' message = ws.handle env message := by
  have chosen : ∀ settings, env'.formatter settings = env.formatter settings := fun settings => by
    simp only [Surroundings.formatter, FormatterChoice.make, config, exist]
  have checks : ∀ entry ∈ ws.checked message, env'.validate (ws.handle env message).1.settings entry.1 entry.2 =
      env.validate (ws.handle env message).1.settings entry.1 entry.2 := fun entry member => by
    have lints : (env.formatter (ws.handle env message).1.settings).1.lint env'.system entry.2.text =
        (env.formatter (ws.handle env message).1.settings).1.lint env.system entry.2.text :=
      Formatter.lint_congr (agree _ _ _ (ran_mem (List.mem_append_left _ (List.mem_map_of_mem member))))
    simp only [Surroundings.validate, chosen, lints]
  have formats : ∀ entry ∈ ws.formatted message,
      (env.formatter (ws.handle env message).1.settings).1.format env'.system entry.1.text entry.2 =
        (env.formatter (ws.handle env message).1.settings).1.format env.system entry.1.text entry.2 :=
    fun entry member => Formatter.format_congr
      (agree _ _ _ (ran_mem (List.mem_append_right _ (List.mem_map_of_mem member))))
  cases message with
  | didOpen uri version text =>
    have check := checks (uri, .ofText text version) List.mem_cons_self
    simp only [handle, store] at check ⊢
    rw [check]
  | didChange uri version changes =>
    cases last : changes.getLast? with
    | none => simp only [handle, last]
    | some text =>
      have check := checks (uri, .ofText text version) (by simp [checked, Message.write?, last])
      simp only [handle, store, last] at check ⊢
      rw [check]
  | didChangeConfiguration payload =>
    simp only [handle] at checks ⊢
    rw [documents_acceptSettings]
    simp only [Prod.mk.injEq, List.cons.injEq, true_and, and_true]
    exact List.flatMap_congr checks
  | formatting uri tabSize =>
    cases found : ws.documents.find? uri with
    | none => simp only [handle, found]
    | some doc =>
      have format := formats (doc, tabSize) (by simp [formatted, found])
      simp only [handle, found, formatting, chosen] at format ⊢
      rw [format]
  | _ => rfl

/-- A run that is listed takes place: if its program cannot be started, this is reported. -/
theorem report_mem {cause : SystemError} (ran : .ran program arguments content ∈ ws.deeds env (.message message))
    (fails : env.system.run program arguments content = .error cause) :
    .told (Surroundings.formatterAlert (.notStarted program cause)) ∈ ws.deeds env (.message message) := by
  rcases List.mem_append.mp ran with opens | runs
  · simp at opens
  · obtain ⟨job, asked, listed⟩ := List.mem_flatMap.mp runs
    obtain ⟨rfl, rfl, rfl⟩ : program = (env.formatter (ws.handle env message).1.settings).1.path ∧
        arguments = job.arguments ∧ content = job.content := by simpa [Surroundings.jobDeeds] using listed
    have result := (jobs_report asked).1 cause fails
    exact List.mem_append_right _ (List.mem_flatMap.mpr ⟨job, asked, by simp [Surroundings.jobDeeds, result]⟩)

/-! ## Runs and warnings -/

theorem warned_iff {front : List Notice} (plain : front.getLast? ≠ some (Surroundings.warning settings)) :
    ((front ++ (env.formatter settings).2).map Deed.told).getLast? = some (.told (Surroundings.warning settings)) ↔
      env.Ignores settings := by
  rw [List.getLast?_map, Option.map_eq_some_iff]
  simp only [Deed.told.injEq, exists_eq_right]
  rcases (env.formatter_chooses settings).2 with ⟨ignores, warned⟩ | ⟨usable, silent⟩
  · simp [warned, ignores]
  · simp [silent, usable, plain]

/-- Behind notices, each run of some jobs starts the chosen program, right behind a warning exactly if the path of
the settings is ignored. -/
theorem ran_jobs {front : List Notice} {jobs : List Job} {before later : List Deed}
    (plain : front.getLast? ≠ some (Surroundings.warning settings))
    (plainResults : ∀ job ∈ jobs, job.result.getLast? ≠ some (Surroundings.warning settings))
    (here : front.map .told ++ jobs.flatMap (env.jobDeeds settings) =
      before ++ .ran program arguments content :: later) :
    env.Chooses settings program ∧
      (before.getLast? = some (.told (Surroundings.warning settings)) ↔ env.Ignores settings) := by
  induction jobs generalizing front before with
  | nil =>
    have ran : Deed.ran program arguments content ∈ front.map .told := by
      rw [List.flatMap_nil, List.append_nil] at here
      simp [here]
    simp at ran
  | cons job rest ih =>
    have shape : (front ++ (env.formatter settings).2).map .told ++
        .ran (env.formatter settings).1.path job.arguments job.content ::
          (job.result.map .told ++ rest.flatMap (env.jobDeeds settings)) =
        before ++ .ran program arguments content :: later := by
      rw [← here, List.flatMap_cons, Surroundings.jobDeeds]
      simp
    rcases List.append_eq_append_iff.mp shape with ⟨between, rfl, tail⟩ | ⟨behind, parts, tail⟩
    · cases between with
      | nil =>
        obtain ⟨rfl, -, -⟩ := Deed.ran.inj (List.cons.inj tail).1
        rw [List.append_nil]
        exact ⟨(env.formatter_chooses settings).1, warned_iff plain⟩
      | cons first between =>
        obtain ⟨rfl, further⟩ := List.cons.inj tail
        obtain ⟨chooses, warned⟩ := ih (plainResults job List.mem_cons_self)
          (fun other member => plainResults other (List.mem_cons_of_mem job member)) further
        refine ⟨chooses, ?_⟩
        rw [← warned, List.getLast?_append, List.getLast?_cons]
        cases between.getLast? <;> simp
    · cases behind with
      | nil =>
        obtain ⟨rfl, -, -⟩ := Deed.ran.inj (List.cons.inj tail).1
        rw [← List.append_nil before, ← parts]
        exact ⟨(env.formatter_chooses settings).1, warned_iff plain⟩
      | cons first behind =>
        obtain ⟨rfl, -⟩ := List.cons.inj tail
        have ran : Deed.ran program arguments content ∈
            (front ++ (env.formatter settings).2).map Deed.told := by simp [parts]
        simp at ran

/-- A server that starts with the default settings, and inputs with payloads of any form. The last payload that
holds settings decides about them, and one that holds none leaves them. Each run of the formatter starts the
program that the settings of that moment choose: their path, without blanks around it, if it is there and exists,
else the path of the configuration, else the default. A warning that names the path stands right before the run
exactly if the path is there and does not exist. The runs are those of the program: nothing else is told, an input
depends on no other run, and a run that cannot start is reported. Over any calls, a server handles such inputs. -/
theorem formatter_follows_settings (inputs : List (Surroundings × Input)) (env : Surroundings) (input : Input) :
    let ws := ({} : Workspace).afterInputs inputs
    let next := (ws.meet env input).1
    let deeds := ws.deeds env input
    (∀ payload settings, Settings.ofJson? payload = some settings ↔ Settings.Accepted payload settings) ∧
      ws.settings = ((inputs.filterMap (·.2.payload?)).filterMap Settings.ofJson?).getLast?.getD {} ∧
      (∀ payload, input.payload? = some payload → (∀ settings, ¬ Settings.Accepted payload settings) →
        next.settings = ws.settings) ∧
      (∀ before program arguments content later, deeds = before ++ .ran program arguments content :: later →
        env.Chooses next.settings program ∧
          (before.getLast? = some (.told (Surroundings.warning next.settings)) ↔ env.Ignores next.settings)) ∧
      deeds.filterMap Deed.notice? = (ws.meet env input).2.1 ∧
      (∀ env', env'.config = env.config → env'.system.pathExists = env.system.pathExists →
        (∀ program arguments content, .ran program arguments content ∈ deeds →
          env'.system.run program arguments content = env.system.run program arguments content) →
        ws.meet env' input = ws.meet env input) ∧
      (∀ program arguments content cause, .ran program arguments content ∈ deeds →
        env.system.run program arguments content = .error cause →
        .told (Surroundings.formatterAlert (.notStarted program cause)) ∈ deeds) ∧
      ∀ steps, (({} : Session).after steps).workspace = ({} : Workspace).afterInputs (({} : Session).inputs steps) := by
  intro ws next deeds
  refine ⟨fun _ _ => Settings.ofJson?_eq_some_iff, settings_afterInputs {} inputs, ?_, ?_,
    filterMap_deeds env ws input, ?_, ?_, Session.workspace_after {}⟩
  · intro payload carried rejected
    have unread : Settings.ofJson? payload = none :=
      Option.eq_none_iff_forall_ne_some.mpr fun settings read =>
        rejected settings (Settings.ofJson?_eq_some_iff.mp read)
    rw [settings_meet, carried, Option.bind_some, unread, Option.getD_none]
  · intro before program arguments content later here
    cases input with
    | start options => simp [deeds, Workspace.deeds] at here
    | message message =>
      exact ran_jobs (opening_ne_warning message _) (fun job asked => (jobs_report asked).2 _) here
  · intro env' config exist agree
    cases input with
    | start options => rfl
    | message message => exact handle_congr config exist agree
  · intro program arguments content cause ran fails
    cases input with
    | start options => simp [deeds, Workspace.deeds] at ran
    | message message => exact report_mem ran fails

end Workspace

end SchemaServer
