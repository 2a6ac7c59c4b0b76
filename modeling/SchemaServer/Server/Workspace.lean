import SchemaServer.Document
import SchemaServer.Uri
import SchemaServer.Config
import SchemaServer.Formatter
import SchemaServer.Rename
import SchemaServer.Rename.NewName
import SchemaServer.Hover
import SchemaServer.QuickFix

/-! The open documents by their addresses, at most one for each, and what a ready server does with a message: it
answers from them, keeps them and the settings up to date, and tells the client what the formatter reports. -/
namespace SchemaServer

abbrev DocumentStore := List (Uri × Document)

namespace DocumentStore

def find? (store : DocumentStore) (uri : Uri) : Option Document := store.lookup uri

def erase (store : DocumentStore) (uri : Uri) : DocumentStore := store.filter (·.1 ≠ uri)

def insert (store : DocumentStore) (uri : Uri) (doc : Document) : DocumentStore :=
  erase store uri ++ [(uri, doc)]

theorem find?_erase (store : DocumentStore) (uri other : Uri) :
    find? (erase store uri) other = if other = uri then none else find? store other := by
  induction store with
  | nil => simp [erase, find?]
  | cons entry rest ih =>
    obtain ⟨key, doc⟩ := entry
    simp only [erase, find?] at ih ⊢
    by_cases same : key = uri
    · subst same
      by_cases asked : other = key
      · simp [asked] at ih ⊢
        exact ih
      · simpa [asked, List.lookup_cons, beq_eq_false_iff_ne.mpr asked] using ih
    · by_cases asked : other = key
      · subst asked
        simp [same]
      · simpa [same, List.lookup_cons, beq_eq_false_iff_ne.mpr asked] using ih

theorem find?_insert (store : DocumentStore) (uri other : Uri) (doc : Document) :
    find? (insert store uri doc) other = if other = uri then some doc else find? store other := by
  have kept := find?_erase store uri other
  simp only [find?] at kept
  by_cases same : other = uri
  · simp only [same, if_true] at kept
    simp [same, insert, find?, List.lookup_append, kept]
  · simp only [same, if_false] at kept
    simp [same, insert, find?, List.lookup_append, kept, List.lookup_cons, beq_eq_false_iff_ne.mpr same]

end DocumentStore

inductive Message
  | initialized
  | didOpen (uri : Uri) (version : Int) (text : Text)
  /-- Each change is a whole new text. -/
  | didChange (uri : Uri) (version : Int) (changes : List Text)
  | didClose (uri : Uri)
  | didChangeConfiguration (payload : Json)
  | prepareRename (uri : Uri) (pos : Position)
  | rename (uri : Uri) (pos : Position) (newName : Text)
  | definition (uri : Uri) (pos : Position)
  | completion (uri : Uri) (pos : Position)
  | resolveCompletion (item : Json)
  | hover (uri : Uri) (pos : Position)
  | codeAction (uri : Uri) (reports : List Report)
  | formatting (uri : Uri) (tabSize : Nat)

inductive Notice
  | log (text : Text)
  | alert (text : Text)
  | diagnostics (uri : Uri) (items : List Diagnostic) (version : Option Int)
  deriving DecidableEq

inductive Answer
  | nothing
  | prepared (range : Range) (placeholder : Text)
  | changes (uri : Uri) (edits : List Edit)
  | location (uri : Uri) (range : Range)
  | completions (items : List Completion)
  | item (value : Json)
  | markdown (text : Text)
  | fixes (uri : Uri) (fixes : List QuickFix)
  | formatted (edit : Edit)
  /-- The new name of a rename cannot be declared. -/
  | refused (error : NewNameError)

structure Workspace where
  documents : DocumentStore := []
  settings : Settings := {}

/-- What is fixed while a server runs. -/
structure Surroundings where
  config : Config
  system : System

namespace Surroundings

/-- The formatter for these settings, with the warning that comes before its run. -/
def formatter (env : Surroundings) (settings : Settings) : Formatter × List Notice :=
  let choice := FormatterChoice.make settings env.config env.system
  (⟨choice.path⟩, choice.warning.toList.map .alert)

def formatterAlert (error : FormatterError) : Notice :=
  .alert ("prisma-fmt error: ".toList ++ error.message)

/-- Lints a document. A failure is shown and publishes nothing. -/
def validate (env : Surroundings) (settings : Settings) (uri : Uri) (doc : Document) : List Notice :=
  let (formatter, warnings) := env.formatter settings
  warnings ++ match formatter.lint env.system doc.text with
    | .ok lints => [.diagnostics uri (lints.map (·.toDiagnostic doc)) (some doc.version)]
    | .error e => [formatterAlert e]

end Surroundings

namespace Workspace

/-- Settings of a payload replace the ones before; any other payload leaves them. -/
def acceptSettings (ws : Workspace) (payload : Json) : Workspace :=
  match Settings.ofJson? payload with
  | some settings => { ws with settings }
  | none => ws

def store (env : Surroundings) (ws : Workspace) (uri : Uri) (version : Int) (text : Text) :
    Workspace × List Notice :=
  let doc := Document.ofText text version
  ({ ws with documents := ws.documents.insert uri doc }, env.validate ws.settings uri doc)

/-- An answer about an open document; no answer about any other. -/
def about (ws : Workspace) (uri : Uri) (f : Document → Option Answer) : Answer :=
  ((ws.documents.find? uri).bind f).getD .nothing

def prepareRename (doc : Document) (pos : Position) : Option Answer := do
  let symbol ← doc.symbolAt? pos
  let range ← symbol.declaration? doc
  return .prepared range symbol.name

def rename (uri : Uri) (doc : Document) (pos : Position) (newName : Text) : Option Answer :=
  match doc.renameAt pos newName with
  | [] => none
  | edits => some (.changes uri edits)

def completion (doc : Document) (pos : Position) : Option Answer :=
  match doc.completionsAt pos with
  | [] => none
  | items => some (.completions items)

def codeAction (uri : Uri) (doc : Document) (reports : List Report) : Option Answer :=
  match doc.quickFixes reports with
  | [] => none
  | fixes => some (.fixes uri fixes)

def formatting (env : Surroundings) (settings : Settings) (doc : Document) (tabSize : Nat) :
    List Notice × Answer :=
  let (formatter, warnings) := env.formatter settings
  match formatter.format env.system doc.text tabSize with
  | .ok text => (warnings, .formatted ⟨doc.fullRange, text⟩)
  | .error e => (warnings ++ [Surroundings.formatterAlert e], .nothing)

def handle (env : Surroundings) (ws : Workspace) : Message → Workspace × List Notice × Answer
  | .initialized => (ws, [.log "prisma-lsp server initialized!".toList], .nothing)
  | .didOpen uri version text =>
    let (ws, notices) := ws.store env uri version text
    (ws, notices, .nothing)
  | .didChange uri version changes =>
    match changes.getLast? with
    | none => (ws, [], .nothing)
    | some text =>
      let (ws, notices) := ws.store env uri version text
      (ws, notices, .nothing)
  | .didClose uri =>
    ({ ws with documents := ws.documents.erase uri }, [.diagnostics uri [] none], .nothing)
  | .didChangeConfiguration payload =>
    let ws := ws.acceptSettings payload
    (ws, .log "Configuration changed.".toList
      :: ws.documents.flatMap (fun (uri, doc) => env.validate ws.settings uri doc), .nothing)
  | .prepareRename uri pos => (ws, [], ws.about uri (prepareRename · pos))
  | .rename uri pos newName =>
    match checkNewName newName with
    | .error e => (ws, [], .refused e)
    | .ok () => (ws, [], ws.about uri (rename uri · pos newName))
  | .definition uri pos => (ws, [], ws.about uri fun doc => (doc.definitionAt? pos).map (.location uri))
  | .completion uri pos => (ws, [], ws.about uri (completion · pos))
  | .resolveCompletion item => (ws, [], .item (documentItem item))
  | .hover uri pos => (ws, [], ws.about uri fun doc => (doc.hoverAt? pos).map .markdown)
  | .codeAction uri reports => (ws, [], ws.about uri (codeAction uri · reports))
  | .formatting uri tabSize =>
    match ws.documents.find? uri with
    | none => (ws, [], .nothing)
    | some doc =>
      let (notices, answer) := formatting env ws.settings doc tabSize
      (ws, notices, answer)

end Workspace

end SchemaServer
