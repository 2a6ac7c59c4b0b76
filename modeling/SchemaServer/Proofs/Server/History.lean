import SchemaServer.Proofs.Server.Calls

/-! Answers about a document and the messages before them. The last message that concerns an address decides what
is stored there, and an answer about it is the engine's answer on that snapshot. -/
namespace SchemaServer

variable {ws : Workspace} {uri : Uri} {doc : Document} {message request : Message} {history : List Message}

namespace Message

theorem write?_of_concerns (concerned : message.concerns uri = true) :
    message.write?.map Prod.snd = some doc ↔ message.write? = some (uri, doc) := by
  cases message with
  | didOpen target version text =>
    have same : target = uri := by simpa [concerns, write?, close?] using concerned
    simp [write?, same]
  | didChange target version changes =>
    cases last : changes.getLast? with
    | none => simp [write?, last]
    | some text =>
      have same : target = uri := by simpa [concerns, write?, close?, last] using concerned
      simp [write?, last, same]
  | _ => simp [write?]

/-- The last of the messages that concern an address writes this document there. -/
def LastWrites (uri : Uri) (doc : Document) (history : List Message) : Prop :=
  ∃ before message later, history = before ++ message :: later ∧ message.write? = some (uri, doc) ∧
    ∀ other ∈ later, other.concerns uri = false

theorem lastWrites_iff : LastWrites uri doc history ↔
    ((history.filter (·.concerns uri)).getLast?.bind write?).map Prod.snd = some doc := by
  constructor
  · rintro ⟨before, message, later, rfl, writes, quiet⟩
    have none : later.filter (·.concerns uri) = [] := List.filter_eq_nil_iff.mpr (by simpa using quiet)
    rw [List.filter_append, List.filter_cons_of_pos (concerns_of_write? writes), none, List.getLast?_concat,
      Option.bind_some, writes]
    rfl
  · intro found
    cases last : (history.filter (·.concerns uri)).getLast? with
    | none => simp [last] at found
    | some message =>
      rw [last, Option.bind_some] at found
      obtain ⟨front, parts⟩ := List.getLast?_eq_some_iff.mp last
      obtain ⟨before, rest, rfl, -, tail⟩ := List.filter_eq_append_iff.mp parts
      obtain ⟨idle, later, rfl, -, concerned, quiet⟩ := List.filter_eq_cons_iff.mp tail
      refine ⟨before ++ idle, message, later, (List.append_assoc ..).symm, ?_, ?_⟩
      · exact (write?_of_concerns concerned).mp found
      · simpa using List.filter_eq_nil_iff.mp quiet

/-- A request for an answer about the document at an address. A rename counts if its new name is acceptable. -/
inductive Asks (uri : Uri) : Message → Prop
  | prepareRename (pos : Position) : Asks uri (.prepareRename uri pos)
  | rename (pos : Position) {newName : Text} (accepted : checkNewName newName = .ok ()) :
      Asks uri (.rename uri pos newName)
  | definition (pos : Position) : Asks uri (.definition uri pos)
  | completion (pos : Position) : Asks uri (.completion uri pos)
  | hover (pos : Position) : Asks uri (.hover uri pos)
  | codeAction (reports : List Report) : Asks uri (.codeAction uri reports)

end Message

/-- The engine's answer on one snapshot to a request about it. -/
def Document.answer (doc : Document) : Message → Answer
  | .prepareRename _ pos =>
    match doc.symbolAt? pos with
    | some symbol => (symbol.declaration? doc).elim .nothing (.prepared · symbol.name)
    | none => .nothing
  | .rename uri pos newName =>
    if doc.renameAt pos newName = [] then .nothing else .changes uri (doc.renameAt pos newName)
  | .definition uri pos => (doc.definitionAt? pos).elim .nothing (.location uri)
  | .completion _ pos => if (doc.completionsAt pos).isEmpty then .nothing else .completions (doc.completionsAt pos)
  | .hover _ pos => (doc.hoverAt? pos).elim .nothing .markdown
  | .codeAction uri reports =>
    if (doc.quickFixes reports).isEmpty then .nothing else .fixes uri (doc.quickFixes reports)
  | _ => .nothing

namespace Workspace

theorem about_eq {f : Document → Option Answer} {answer : Document → Answer}
    (same : ∀ doc, (f doc).getD .nothing = answer doc) (ws : Workspace) (uri : Uri) :
    ws.about uri f = (ws.documents.find? uri).elim .nothing answer := by
  unfold about
  cases ws.documents.find? uri with
  | none => rfl
  | some doc => exact same doc

theorem handle_asks (asks : request.Asks uri) (env : Surroundings) (ws : Workspace) :
    ws.handle env request = (ws, [], (ws.documents.find? uri).elim .nothing (·.answer request)) := by
  cases asks with
  | prepareRename pos =>
    refine congrArg (ws, [], ·) (about_eq (fun doc => ?_) ws uri)
    simp only [prepareRename, Document.answer]
    cases doc.symbolAt? pos with
    | none => rfl
    | some symbol => cases found : symbol.declaration? doc <;> simp [found]
  | rename pos accepted =>
    simp only [handle, accepted]
    refine congrArg (ws, [], ·) (about_eq (fun doc => ?_) ws uri)
    simp only [rename, Document.answer]
    cases doc.renameAt pos _ <;> rfl
  | definition pos =>
    refine congrArg (ws, [], ·) (about_eq (fun doc => ?_) ws uri)
    simp only [Document.answer]
    cases doc.definitionAt? pos <;> rfl
  | completion pos =>
    refine congrArg (ws, [], ·) (about_eq (fun doc => ?_) ws uri)
    simp only [completion, Document.answer]
    cases doc.completionsAt pos <;> rfl
  | hover pos =>
    refine congrArg (ws, [], ·) (about_eq (fun doc => ?_) ws uri)
    simp only [Document.answer]
    cases doc.hoverAt? pos <;> rfl
  | codeAction reports =>
    refine congrArg (ws, [], ·) (about_eq (fun doc => ?_) ws uri)
    simp only [codeAction, Document.answer]
    cases doc.quickFixes reports <;> rfl

/-- Over a run, the last message that concerns an address decides what is stored there. -/
theorem find?_after (ws : Workspace) (steps : List (Surroundings × Message)) (uri : Uri) :
    (ws.after steps).documents.find? uri =
      ((steps.map Prod.snd).filter (·.concerns uri)).getLast?.elim (ws.documents.find? uri)
        fun message => message.write?.map Prod.snd := by
  induction steps generalizing ws with
  | nil => rfl
  | cons step rest ih =>
    rw [after, List.foldl_cons, ← after, ih, find?_handle, List.map_cons]
    by_cases concerned : step.2.concerns uri = true
    · rw [if_pos concerned, List.filter_cons_of_pos concerned, List.getLast?_cons]
      cases ((rest.map Prod.snd).filter (·.concerns uri)).getLast? <;> rfl
    · rw [if_neg concerned, List.filter_cons_of_neg concerned]

theorem stored_iff (empty : ws.documents = []) (steps : List (Surroundings × Message)) :
    (ws.after steps).documents.find? uri = some doc ↔ Message.LastWrites uri doc (steps.map Prod.snd) := by
  rw [find?_after, empty, Message.lastWrites_iff]
  cases ((steps.map Prod.snd).filter (·.concerns uri)).getLast? with
  | none => simp [DocumentStore.find?]
  | some message => rfl

end Workspace

def Message.same : Message → Message → Bool
  | .didOpen uri version text, .didOpen uri' version' text' => uri = uri' && version = version' && text = text'
  | .didChange uri version texts, .didChange uri' version' texts' =>
    uri = uri' && version = version' && texts = texts'
  | .prepareRename uri pos, .prepareRename uri' pos' => uri = uri' && pos = pos'
  | _, _ => false

theorem Call.brings_of_same {call : Call} (read : call.message?.any (·.same message) = true) :
    call.message? = some message := by
  obtain ⟨found, brings, same⟩ := (Option.any_eq_true _ _).mp read
  rw [brings]
  unfold Message.same at same
  split at same <;> simp_all

namespace Session

variable {session : Session} {steps : List (Surroundings × Call)}

/-- After any calls that do not end its work, a ready server answers a call about an address from what it has
stored there, and does nothing else. -/
theorem receive_asks (ready : session.phase = .initialized) (continues : ∀ step ∈ steps, step.2.Continues)
    (env : Surroundings) {call : Call} (brings : call.message? = some request) (asks : request.Asks uri) :
    (session.after steps).receive env call = (session.after steps, [], call.respond
      (((session.after steps).workspace.documents.find? uri).elim .nothing (·.answer request)).toJson) := by
  rw [after_ready ready continues, (receive_ready rfl env call).1 request brings, perform, Workspace.handle_asks asks]

/-- A ready server that starts without documents. After any calls that do not end its work, an address is stored
exactly if the last message that concerns it writes there, as that snapshot. A request about the address is
answered with the engine's answer on the snapshot, or null without one. So two servers whose messages about the
address are the same give the same answers about it, whatever else has come in and whatever their formatters do. -/
theorem answers_follow_messages (ready : session.phase = .initialized) (empty : session.workspace.documents = [])
    (continues : ∀ step ∈ steps, step.2.Continues) (uri : Uri) :
    let history := (messages steps).map Prod.snd
    let last := session.after steps
    (∀ doc, last.workspace.documents.find? uri = some doc ↔ Message.LastWrites uri doc history) ∧
      (∀ (env : Surroundings) (call : Call) (id : Json) (request : Message),
        call.id = some id → call.message? = some request → request.Asks uri →
        (∀ doc, Message.LastWrites uri doc history →
          last.receive env call = (last, [], .response ⟨id, (doc.answer request).toJson⟩)) ∧
        ((∀ doc, ¬ Message.LastWrites uri doc history) →
          last.receive env call = (last, [], .response ⟨id, .ok .null⟩))) ∧
      ∀ (session' : Session) (steps' : List (Surroundings × Call)), session'.phase = .initialized →
        session'.workspace.documents = [] → (∀ step ∈ steps', step.2.Continues) →
        history.filter (·.concerns uri) = ((messages steps').map Prod.snd).filter (·.concerns uri) →
        ∀ (env env' : Surroundings) (call : Call) (request : Message),
          call.message? = some request → request.Asks uri →
          (last.receive env call).2 = ((session'.after steps').receive env' call).2 := by
  intro history last
  have same : last = ⟨.initialized, session.workspace.after (messages steps)⟩ := after_ready ready continues
  have stored : ∀ doc, last.workspace.documents.find? uri = some doc ↔ Message.LastWrites uri doc history := by
    intro doc
    rw [same]
    exact Workspace.stored_iff empty (messages steps)
  refine ⟨stored, ?_, ?_⟩
  · intro env call id request hasId brings asks
    rw [receive_asks ready continues env brings asks, Call.respond, hasId]
    refine ⟨fun doc writes => ?_, fun never => ?_⟩
    · rw [(stored doc).mpr writes]
      rfl
    · have absent : last.workspace.documents.find? uri = none := by
        cases found : last.workspace.documents.find? uri with
        | none => rfl
        | some doc => exact absurd ((stored doc).mp found) (never doc)
      rw [absent]
      rfl
  · intro session' steps' ready' empty' continues' agree env env' call request brings asks
    have agree : last.workspace.documents.find? uri = (session'.after steps').workspace.documents.find? uri := by
      rw [same, after_ready ready' continues', Workspace.find?_after, Workspace.find?_after, ← agree, empty, empty']
    rw [receive_asks ready continues env brings asks, receive_asks ready' continues' env' brings asks, ← agree]

/-- A model is opened, and renamed by the second of two changes that come together. Its name is asked for behind
them. All parameters are given as lists. -/
theorem answers_follow_messages_changed :
    let uri := "file:///a.prisma".toList
    let env : Surroundings := ⟨{}, ⟨fun _ => false, fun _ => .error .notFound, fun _ _ _ => .error .notFound⟩⟩
    let opened : Call := ⟨"textDocument/didOpen".toList, none, some (.array [.array
      [.string uri, .ofString "prisma", .int 1, .ofString "model A \x7b\n\x7d\n"]])⟩
    let changed : Call := ⟨"textDocument/didChange".toList, none, some (.array [.array [.string uri, .int 2],
      .array [.array [.null, .null, .ofString ""], .array [.null, .null, .ofString "model B \x7b\n\x7d\n"]]])⟩
    let asked : Call := ⟨"textDocument/prepareRename".toList, some (.int 7),
      some (.array [.array [.string uri], .array [.int 0, .int 6]])⟩
    let steps := [(env, opened), (env, changed)]
    let last := (⟨.initialized, {}⟩ : Session).after steps
    (∀ step ∈ steps, step.2.Continues) ∧ last.receive env asked =
      (last, [], .response ⟨.int 7, (Answer.prepared ⟨⟨0, 6⟩, ⟨0, 7⟩⟩ "B".toList).toJson⟩) := by
  intro uri env opened changed asked steps last
  have opens : opened.message? = some (.didOpen uri 1 "model A \x7b\n\x7d\n".toList) :=
    Call.brings_of_same (by decide +kernel)
  have changes : changed.message? = some (.didChange uri 2 [[], "model B \x7b\n\x7d\n".toList]) :=
    Call.brings_of_same (by decide +kernel)
  have asks : asked.message? = some (.prepareRename uri ⟨0, 6⟩) := Call.brings_of_same (by decide +kernel)
  have continues : ∀ step ∈ steps, step.2.Continues := by
    simp only [steps, List.forall_mem_cons]
    exact ⟨⟨by decide, by decide⟩, ⟨by decide, by decide⟩, by simp⟩
  have history : (messages steps).map Prod.snd = [.didOpen uri 1 "model A \x7b\n\x7d\n".toList,
      .didChange uri 2 [[], "model B \x7b\n\x7d\n".toList]] := by
    simp [messages, steps, opens, changes]
  have ready : (⟨.initialized, {}⟩ : Session).phase = .initialized := rfl
  obtain ⟨-, answers, -⟩ := answers_follow_messages ready rfl continues uri
  let doc := Document.ofText "model B \x7b\n\x7d\n".toList 2
  have answered := (answers env asked (.int 7) _ rfl asks (.prepareRename ⟨0, 6⟩)).1 doc
    ⟨[_], _, [], history, rfl, by simp⟩
  have declared : (doc.symbolAt? ⟨0, 6⟩).bind (fun symbol => (symbol.declaration? doc).map (·, symbol.name)) =
      some (⟨⟨0, 6⟩, ⟨0, 7⟩⟩, "B".toList) := by decide +kernel
  obtain ⟨symbol, found, declared⟩ := Option.bind_eq_some_iff.mp declared
  obtain ⟨range, spans, same⟩ := Option.map_eq_some_iff.mp declared
  obtain ⟨rfl, named⟩ := Prod.mk.inj same
  have answer : doc.answer (.prepareRename uri ⟨0, 6⟩) = .prepared ⟨⟨0, 6⟩, ⟨0, 7⟩⟩ "B".toList := by
    simp [Document.answer, found, spans, named]
  exact ⟨continues, by rw [answered, answer]⟩

end Session

end SchemaServer
