import SchemaServer.Proofs.Server.Calls

/-! The settings of a server over time. Options at its start and changes of its configuration are payloads of any
form; the last one that holds settings decides, and no other message has a part in it. -/
namespace SchemaServer

variable {env : Surroundings} {ws : Workspace} {payload value : Json} {settings : Settings}

/-! ## Payloads -/

namespace Settings

/-- The settings that a value spells: an object with a path, which is a text, or without one, or a list of at most
the path. -/
inductive Spelled : Json → Settings → Prop
  | object {members : List (Text × Json)} {path : Text}
      (given : (Json.object members).member? "prismaFmtBinPath" = some (.string path)) :
      Spelled (.object members) ⟨path⟩
  | objectWithout {members : List (Text × Json)}
      (absent : (Json.object members).member? "prismaFmtBinPath" = none) : Spelled (.object members) {}
  | list (path : Text) : Spelled (.array [.string path]) ⟨path⟩
  | listWithout : Spelled (.array []) {}

/-- The settings of a payload stand under the name of the server, whatever else it holds. Without that name, a
payload with a path spells settings itself. -/
inductive Accepted (payload : Json) (settings : Settings) : Prop
  | nested {section_ : Json} (named : payload.member? "prismaLanguageServer" = some section_)
      (spelled : Spelled section_ settings)
  | bare (unnamed : payload.member? "prismaLanguageServer" = none)
      (path : (payload.member? "prismaFmtBinPath").isSome) (spelled : Spelled payload settings)

theorem ofSection?_eq_some_iff : ofSection? value = some settings ↔ Spelled value settings := by
  constructor
  · intro read
    unfold ofSection? at read
    split at read
    · split at read
      · rename_i absent
        obtain rfl := Option.some.inj read
        exact .objectWithout absent
      · rename_i member given
        cases member with
        | string path =>
          obtain rfl := Option.some.inj read
          exact .object given
        | _ => contradiction
    · obtain rfl := Option.some.inj read
      exact .listWithout
    · rename_i member
      cases member with
      | string path =>
        obtain rfl := Option.some.inj read
        exact .list path
      | _ => contradiction
    · contradiction
  · intro spelled
    cases spelled with
    | object given => simp [ofSection?, given, Json.text?]
    | objectWithout absent => simp [ofSection?, absent]
    | list path => rfl
    | listWithout => rfl

theorem ofJson?_eq_some_iff : ofJson? payload = some settings ↔ Accepted payload settings := by
  rw [ofJson?, Option.bind_eq_some_iff]
  constructor
  · rintro ⟨inner, found, read⟩
    have spelled := ofSection?_eq_some_iff.mp read
    unfold section? at found
    split at found
    · rename_i named
      obtain rfl := Option.some.inj found
      exact .nested named spelled
    · rename_i unnamed
      split at found
      · rename_i path
        obtain rfl := Option.some.inj found
        exact .bare unnamed path spelled
      · contradiction
  · rintro (⟨named, spelled⟩ | ⟨unnamed, path, spelled⟩)
    · exact ⟨_, by simp [section?, named], ofSection?_eq_some_iff.mpr spelled⟩
    · exact ⟨payload, by simp [section?, unnamed, path], ofSection?_eq_some_iff.mpr spelled⟩

end Settings

/-! ## Handlers -/

/-- What a server is asked to handle: its start, with the options of the client, or a message. -/
inductive Input
  | start (options : Option Json)
  | message (message : Message)

def Input.payload? : Input → Option Json
  | .start options => options
  | .message content => content.payload?

namespace Workspace

/-- Handles an input. The answer to a start, which tells what the server can do, is left out. -/
def meet (env : Surroundings) (ws : Workspace) : Input → Workspace × List Notice × Answer
  | .start options => ((options.map ws.acceptSettings).getD ws, [], .nothing)
  | .message message => ws.handle env message

def afterInputs (ws : Workspace) (inputs : List (Surroundings × Input)) : Workspace :=
  inputs.foldl (fun ws step => (ws.meet step.1 step.2).1) ws

theorem settings_acceptSettings (ws : Workspace) (payload : Json) :
    (ws.acceptSettings payload).settings = (Settings.ofJson? payload).getD ws.settings := by
  unfold acceptSettings
  split <;> rename_i read <;> rw [read] <;> rfl

theorem settings_handle (env : Surroundings) (ws : Workspace) (message : Message) :
    (ws.handle env message).1.settings = (message.payload?.bind Settings.ofJson?).getD ws.settings := by
  have effect := handle_effect env ws message
  generalize (ws.handle env message).1 = next, (ws.handle env message).2.1 = notices at effect ⊢
  cases effect with
  | written _ _ plain => rw [plain]; rfl
  | closed => rfl
  | configured payload => exact settings_acceptSettings ws payload
  | unchanged _ _ plain => rw [plain]; rfl

/-- The settings of the payload replace the ones before, if it holds any. -/
theorem settings_meet (env : Surroundings) (ws : Workspace) (input : Input) :
    (ws.meet env input).1.settings = (input.payload?.bind Settings.ofJson?).getD ws.settings := by
  cases input with
  | message message => exact settings_handle env ws message
  | start options =>
    cases options with
    | none => rfl
    | some payload => exact settings_acceptSettings ws payload

/-- Over a run, the last payload that holds settings decides. -/
theorem settings_afterInputs (ws : Workspace) (inputs : List (Surroundings × Input)) :
    (ws.afterInputs inputs).settings =
      ((inputs.filterMap (·.2.payload?)).filterMap Settings.ofJson?).getLast?.getD ws.settings := by
  induction inputs generalizing ws with
  | nil => rfl
  | cons step rest ih =>
    rw [afterInputs, List.foldl_cons, ← afterInputs, ih, settings_meet]
    cases carried : step.2.payload? with
    | none => rw [List.filterMap_cons_none (by exact carried)]; rfl
    | some payload =>
      rw [List.filterMap_cons_some (by exact carried)]
      cases read : Settings.ofJson? payload with
      | none => rw [List.filterMap_cons_none read, Option.bind_some, read]; rfl
      | some settings =>
        rw [List.filterMap_cons_some read, List.getLast?_cons, Option.bind_some, read]
        rfl

end Workspace

/-! ## Calls -/

def Call.start? (call : Call) : Option ClientFacts :=
  match Method.ofName? call.method with
  | some .start => if call.id.isNone then none else (readParams ClientFacts.ofJson call.params).toOption
  | _ => none

namespace Session

variable {session : Session}

def input? (session : Session) (call : Call) : Option Input :=
  match session.phase with
  | .uninitialized => call.start?.map (.start ·.options)
  | .initialized => call.message?.map .message
  | _ => none

theorem receive_start (fresh : session.phase = .uninitialized) {call : Call} {facts : ClientFacts}
    (starts : call.start? = some facts) (env : Surroundings) : session.receive env call =
      (session.start facts, [], call.respond (.ok (capabilitiesJson facts.codeActionLiterals))) := by
  unfold Call.start? at starts
  split at starts
  · rename_i known
    split at starts
    · contradiction
    · rename_i hasId
      unfold receive
      rw [fresh, known]
      cases read : readParams ClientFacts.ofJson call.params with
      | error e => simp [read, Except.toOption] at starts
      | ok found =>
        obtain rfl : found = facts := by simpa [read, Except.toOption] using starts
        simp [hasId]
  · contradiction

/-- A server that is not ready and is not started keeps its workspace and tells nothing. -/
theorem receive_unready (unready : session.phase ≠ .initialized) {call : Call} (idle : session.input? call = none)
    (env : Surroundings) :
    (session.receive env call).1.workspace = session.workspace ∧ (session.receive env call).2.1 = [] := by
  unfold receive
  split
  · exact ⟨rfl, rfl⟩
  · cases known : Method.ofName? call.method with
    | none =>
      dsimp only
      split <;> exact ⟨rfl, rfl⟩
    | some method =>
      cases method with
      | exit | cancel | shutdown | request | notification | missingRequest | missingNotification =>
        exact ⟨rfl, rfl⟩
      | start =>
        dsimp only
        split
        · exact ⟨rfl, rfl⟩
        · rename_i fresh
          split
          · exact ⟨rfl, rfl⟩
          · rename_i hasId
            cases read : readParams ClientFacts.ofJson call.params with
            | error e => exact ⟨rfl, rfl⟩
            | ok facts =>
              simp [input?, Decidable.not_not.mp fresh, Call.start?, known, hasId, read, Except.toOption] at idle

theorem receive_idle {call : Call} (idle : session.input? call = none) (env : Surroundings) :
    (session.receive env call).1.workspace = session.workspace ∧ (session.receive env call).2.1 = [] := by
  by_cases ready : session.phase = .initialized
  · have silent : call.message? = none := by simpa [input?, ready] using idle
    by_cases stops : call.method = "shutdown".toList
    · unfold receive
      rw [ready, stops, show Method.ofName? "shutdown".toList = some .shutdown from rfl]
      exact ⟨rfl, rfl⟩
    · by_cases ends : call.method = "exit".toList
      · unfold receive
        rw [ready, ends, show Method.ofName? "exit".toList = some .exit from rfl]
        exact ⟨rfl, rfl⟩
      · obtain ⟨reply, same⟩ := (receive_ready ready env call).2 silent ⟨stops, ends⟩
        rw [same]
        exact ⟨rfl, rfl⟩
  · exact receive_unready ready idle env

/-- A call does to the workspace what handling its input does, and nothing without one. -/
theorem receive_input (env : Surroundings) (session : Session) (call : Call) :
    (∀ input, session.input? call = some input →
      (session.receive env call).1.workspace = (session.workspace.meet env input).1 ∧
        (session.receive env call).2.1 = (session.workspace.meet env input).2.1) ∧
      (session.input? call = none →
        (session.receive env call).1.workspace = session.workspace ∧ (session.receive env call).2.1 = []) := by
  refine ⟨fun input asks => ?_, fun idle => receive_idle idle env⟩
  unfold input? at asks
  split at asks
  · rename_i fresh
    obtain ⟨facts, starts, rfl⟩ := Option.map_eq_some_iff.mp asks
    rw [receive_start fresh starts]
    exact ⟨rfl, rfl⟩
  · rename_i ready
    obtain ⟨message, brings, rfl⟩ := Option.map_eq_some_iff.mp asks
    rw [(receive_ready ready env call).1 message brings]
    exact ⟨rfl, rfl⟩
  · contradiction

def inputs (session : Session) : List (Surroundings × Call) → List (Surroundings × Input)
  | [] => []
  | (env, call) :: rest =>
    ((session.input? call).map (env, ·)).toList ++ inputs (session.receive env call).1 rest

/-- Over any calls, the workspace of a server is what handling their inputs makes of it. -/
theorem workspace_after (session : Session) (steps : List (Surroundings × Call)) :
    (session.after steps).workspace = session.workspace.afterInputs (session.inputs steps) := by
  induction steps generalizing session with
  | nil => rfl
  | cons step rest ih =>
    obtain ⟨env, call⟩ := step
    obtain ⟨handles, idles⟩ := receive_input env session call
    rw [after, List.foldl_cons, ← after, ih, inputs]
    cases asks : session.input? call with
    | none => rw [(idles asks).1]; rfl
    | some input => rw [(handles input asks).1]; rfl

end Session

end SchemaServer
