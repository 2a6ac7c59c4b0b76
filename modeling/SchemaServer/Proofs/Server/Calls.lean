import SchemaServer.Server.Session
import SchemaServer.Proofs.Server.Effects

/-! A ready server and its calls. Until it is told to end, it does with a call what its workspace does with the
message in it, and nothing with a call that brings none. -/
namespace SchemaServer

variable {env : Surroundings} {session : Session} {call : Call} {message : Message} {name : Text} {method : Method}

namespace Method

theorem name_eq_of_ofName? {written : String} (known : ofName? name = some method)
    (noRequest : ∀ params, method ≠ .missingRequest params) (noNotification : method ≠ .missingNotification)
    (only : ∀ entry ∈ table, entry.2 = method → entry.1 = written) : name = written.toList := by
  unfold ofName? at known
  split at known
  · rename_i entry other found
    have named : entry.toList = name := by simpa using List.find?_some found
    have written : entry = written := only _ (List.mem_of_find?_eq_some found) (Option.some.inj known)
    rw [← named, written]
  · exact absurd (Option.some.inj known).symm (noRequest _)
  · split at known
    · exact absurd (Option.some.inj known).symm noNotification
    · contradiction

theorem name_of_shutdown (known : ofName? name = some .shutdown) : name = "shutdown".toList :=
  name_eq_of_ofName? known nofun nofun (by simp [table])

theorem name_of_exit (known : ofName? name = some .exit) : name = "exit".toList :=
  name_eq_of_ofName? known nofun nofun (by simp [table])

end Method

namespace Call

/-- The message that a call brings to a ready server: one of the server's own methods, with an identifier exactly
if it is a request, and with parameters that can be read. -/
def message? (call : Call) : Option Message :=
  match Method.ofName? call.method with
  | some (.request read) => if call.id.isNone then none else (readParams read call.params).toOption
  | some (.notification read) => if call.id.isSome then none else (readParams read call.params).toOption
  | _ => none

/-- The call does not end the work of a ready server. -/
structure Continues (call : Call) : Prop where
  notShutdown : call.method ≠ "shutdown".toList
  notExit : call.method ≠ "exit".toList

end Call

namespace Session

def after (session : Session) (steps : List (Surroundings × Call)) : Session :=
  steps.foldl (fun session step => (session.receive step.1 step.2).1) session

/-- A ready server hands the message of a call to its workspace, and leaves a call alone that brings none. -/
theorem receive_ready (ready : session.phase = .initialized) (env : Surroundings) (call : Call) :
    (∀ message, call.message? = some message → session.receive env call = session.perform env call message) ∧
      (call.message? = none → call.Continues → ∃ reply, session.receive env call = (session, [], reply)) := by
  unfold receive Call.message?
  rw [ready, if_neg (by decide)]
  cases known : Method.ofName? call.method with
  | none =>
    refine ⟨nofun, fun _ _ => ?_⟩
    dsimp only
    split
    · exact ⟨_, rfl⟩
    · exact ⟨_, rfl⟩
  | some method =>
    cases method with
    | shutdown => exact ⟨nofun, fun _ continues => absurd (Method.name_of_shutdown known) continues.notShutdown⟩
    | exit => exact ⟨nofun, fun _ continues => absurd (Method.name_of_exit known) continues.notExit⟩
    | start | cancel | missingNotification => exact ⟨nofun, fun _ _ => ⟨_, rfl⟩⟩
    | missingRequest params =>
      refine ⟨nofun, fun _ _ => ?_⟩
      simp only [if_true, dispatch]
      split
      · exact ⟨_, rfl⟩
      · exact ⟨_, rfl⟩
    | request read =>
      simp only [if_true, dispatch]
      cases call.id.isNone with
      | true => exact ⟨nofun, fun _ _ => ⟨_, rfl⟩⟩
      | false =>
        cases readParams read call.params with
        | error e => exact ⟨nofun, fun _ _ => ⟨_, rfl⟩⟩
        | ok found => exact ⟨fun message brings => by rw [← Option.some.inj brings]; rfl, nofun⟩
    | notification read =>
      simp only [if_true, dispatch]
      cases call.id.isSome with
      | true => exact ⟨nofun, fun _ _ => ⟨_, rfl⟩⟩
      | false =>
        cases readParams read call.params with
        | error e => exact ⟨nofun, fun _ _ => ⟨_, rfl⟩⟩
        | ok found => exact ⟨fun message brings => by rw [← Option.some.inj brings]; rfl, nofun⟩

def messages (steps : List (Surroundings × Call)) : List (Surroundings × Message) :=
  steps.filterMap fun step => step.2.message?.map (step.1, ·)

/-- Over a run of calls a ready server stays ready, and its workspace handles the messages that they bring. -/
theorem after_ready (ready : session.phase = .initialized) {steps : List (Surroundings × Call)}
    (continues : ∀ step ∈ steps, step.2.Continues) :
    session.after steps = ⟨.initialized, session.workspace.after (messages steps)⟩ := by
  induction steps generalizing session with
  | nil =>
    cases session
    exact congrArg (Session.mk · _) ready
  | cons step rest ih =>
    have later := fun other member => continues other (List.mem_cons_of_mem step member)
    obtain ⟨performs, ignores⟩ := receive_ready ready step.1 step.2
    rw [after, List.foldl_cons, ← after]
    cases brings : step.2.message? with
    | none =>
      obtain ⟨reply, same⟩ := ignores brings (continues step List.mem_cons_self)
      rw [same, ih ready later, messages, messages, List.filterMap_cons_none (by simp [brings])]
    | some message =>
      have phase : (session.perform step.1 step.2 message).1.phase = .initialized := ready
      rw [performs message brings, ih phase later, messages, messages,
        List.filterMap_cons_some (b := (step.1, message)) (by simp [brings])]
      rfl

end Session

end SchemaServer
