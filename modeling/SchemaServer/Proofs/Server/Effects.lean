import SchemaServer.Server.Workspace

/-! What a message does to a workspace, and what a run of messages leaves behind. A message writes one document,
closes one, brings settings or changes nothing, and what the client is told goes with it. -/
namespace SchemaServer

variable {env env' : Surroundings} {ws : Workspace} {uri target : Uri} {doc : Document} {message : Message}

namespace DocumentStore

variable {store : DocumentStore}

def Distinct (store : DocumentStore) : Prop := (store.map Prod.fst).Nodup

theorem Distinct.erase (distinct : store.Distinct) (uri : Uri) : (store.erase uri).Distinct :=
  distinct.sublist (List.filter_sublist.map Prod.fst)

theorem Distinct.insert (distinct : store.Distinct) (uri : Uri) (doc : Document) :
    (store.insert uri doc).Distinct := by
  have others : uri ∉ (store.erase uri).map Prod.fst := by simp [DocumentStore.erase]
  rw [Distinct, DocumentStore.insert, List.map_append, List.nodup_append]
  refine ⟨distinct.erase uri, by simp, ?_⟩
  rintro other member same here rfl
  obtain rfl := List.mem_singleton.mp here
  exact others member

theorem Distinct.find?_eq_some_iff (distinct : store.Distinct) :
    store.find? uri = some doc ↔ (uri, doc) ∈ store := by
  induction store with
  | nil => simp [find?]
  | cons entry rest ih =>
    obtain ⟨key, stored⟩ := entry
    obtain ⟨fresh, distinct⟩ := List.nodup_cons.mp distinct
    by_cases same : uri = key
    · subst same
      have absent : (uri, doc) ∉ rest := fun member => fresh (List.mem_map.mpr ⟨_, member, rfl⟩)
      simp [find?, absent, eq_comm]
    · rw [List.mem_cons, ← ih distinct]
      simp [find?, List.lookup_cons, beq_eq_false_iff_ne.mpr same, same]

end DocumentStore

/-! ## What a message carries -/

namespace Message

/-- The document that a message puts into the store, with its address. Of several changes the last one counts. -/
def write? : Message → Option (Uri × Document)
  | .didOpen uri version text => some (uri, .ofText text version)
  | .didChange uri version changes => changes.getLast?.map fun text => (uri, .ofText text version)
  | _ => none

def close? : Message → Option Uri
  | .didClose uri => some uri
  | _ => none

def payload? : Message → Option Json
  | .didChangeConfiguration payload => some payload
  | _ => none

/-- The message decides what the store has at an address. -/
def concerns (uri : Uri) (message : Message) : Bool :=
  message.write?.any (·.1 = uri) || message.close? = some uri

theorem concerns_of_write? (writes : message.write? = some (uri, doc)) : message.concerns uri = true := by
  simp [concerns, writes]

end Message

/-! ## What a message does -/

def Notice.isDiagnostics : Notice → Bool
  | .diagnostics .. => true
  | _ => false

namespace Workspace

/-- What becomes of a workspace by a message, and what the client is told. -/
inductive Effect (env : Surroundings) (ws : Workspace) : Message → Workspace → List Notice → Prop
  | written {message : Message} {uri : Uri} {doc : Document} (writes : message.write? = some (uri, doc))
      (opens : message.close? = none) (plain : message.payload? = none) :
      Effect env ws message { ws with documents := ws.documents.insert uri doc }
        (env.validate ws.settings uri doc)
  | closed (uri : Uri) :
      Effect env ws (.didClose uri) { ws with documents := ws.documents.erase uri } [.diagnostics uri [] none]
  | configured (payload : Json) :
      Effect env ws (.didChangeConfiguration payload) (ws.acceptSettings payload)
        (.log "Configuration changed.".toList :: ws.documents.flatMap fun (uri, doc) =>
          env.validate (ws.acceptSettings payload).settings uri doc)
  | unchanged {message : Message} {notices : List Notice} (reads : message.write? = none)
      (opens : message.close? = none) (plain : message.payload? = none)
      (quiet : ∀ notice ∈ notices, notice.isDiagnostics = false) : Effect env ws message ws notices

theorem documents_acceptSettings (ws : Workspace) (payload : Json) :
    (ws.acceptSettings payload).documents = ws.documents := by
  unfold acceptSettings
  split <;> rfl

theorem formatting_quiet (env : Surroundings) (settings : Settings) (doc : Document) (tabSize : Nat) :
    ∀ notice ∈ (formatting env settings doc tabSize).1, notice.isDiagnostics = false := by
  have warnings : ∀ notice ∈ (env.formatter settings).2, notice.isDiagnostics = false := by
    intro notice member
    obtain ⟨text, -, rfl⟩ := List.mem_map.mp member
    rfl
  intro notice member
  unfold formatting at member
  dsimp only at member
  split at member
  · exact warnings notice member
  · rcases List.mem_append.mp member with warned | failed
    · exact warnings notice warned
    · rw [List.mem_singleton.mp failed]
      rfl

theorem handle_effect (env : Surroundings) (ws : Workspace) (message : Message) :
    Effect env ws message (ws.handle env message).1 (ws.handle env message).2.1 := by
  cases message with
  | didOpen uri version text => exact .written rfl rfl rfl
  | didChange uri version changes =>
    cases last : changes.getLast? with
    | none =>
      simp only [handle, last]
      exact .unchanged (by simp [Message.write?, last]) rfl rfl (by simp)
    | some text =>
      simp only [handle, last]
      exact .written (by simp [Message.write?, last]) rfl rfl
  | didClose uri => exact .closed uri
  | didChangeConfiguration payload =>
    simp only [handle, documents_acceptSettings]
    exact .configured payload
  | rename uri pos newName =>
    simp only [handle]
    split <;> exact .unchanged rfl rfl rfl (by simp)
  | formatting uri tabSize =>
    simp only [handle]
    split
    · exact .unchanged rfl rfl rfl (by simp)
    · exact .unchanged rfl rfl rfl (formatting_quiet env ws.settings _ tabSize)
  | initialized => exact .unchanged rfl rfl rfl (by simp [handle, Notice.isDiagnostics])
  | prepareRename | definition | completion | resolveCompletion | hover | codeAction =>
    exact .unchanged rfl rfl rfl (by simp [handle])

/-- A message that writes a document stores it and has it checked. -/
theorem handle_of_write? (writes : message.write? = some (uri, doc)) (env : Surroundings) (ws : Workspace) :
    (ws.handle env message).1 = { ws with documents := ws.documents.insert uri doc } ∧
      (ws.handle env message).2.1 = env.validate ws.settings uri doc := by
  have effect := handle_effect env ws message
  generalize (ws.handle env message).1 = next, (ws.handle env message).2.1 = notices at effect ⊢
  cases effect with
  | written stored =>
    obtain ⟨rfl, rfl⟩ := Prod.mk.inj (Option.some.inj (stored.symm.trans writes))
    exact ⟨rfl, rfl⟩
  | closed => contradiction
  | configured => contradiction
  | unchanged reads => exact absurd (reads.symm.trans writes) nofun

theorem find?_handle (env : Surroundings) (ws : Workspace) (message : Message) (uri : Uri) :
    (ws.handle env message).1.documents.find? uri =
      if message.concerns uri then message.write?.map Prod.snd else ws.documents.find? uri := by
  have effect := handle_effect env ws message
  generalize (ws.handle env message).1 = next, (ws.handle env message).2.1 = notices at effect ⊢
  cases effect with
  | written writes opens =>
    rw [DocumentStore.find?_insert]
    simp [Message.concerns, writes, opens, eq_comm]
  | closed target =>
    rw [DocumentStore.find?_erase]
    simp [Message.concerns, Message.write?, Message.close?, eq_comm]
  | configured payload =>
    rw [documents_acceptSettings]
    simp [Message.concerns, Message.write?, Message.close?]
  | unchanged reads opens => simp [Message.concerns, reads, opens]

theorem distinct_handle (distinct : ws.documents.Distinct) (env : Surroundings) (message : Message) :
    (ws.handle env message).1.documents.Distinct := by
  have effect := handle_effect env ws message
  generalize (ws.handle env message).1 = next, (ws.handle env message).2.1 = notices at effect ⊢
  cases effect with
  | written => exact distinct.insert _ _
  | closed => exact distinct.erase _
  | configured => rwa [documents_acceptSettings]
  | unchanged => exact distinct

/-! ## Runs -/

def after (ws : Workspace) (steps : List (Surroundings × Message)) : Workspace :=
  steps.foldl (fun ws step => (ws.handle step.1 step.2).1) ws

def told (ws : Workspace) : List (Surroundings × Message) → List Notice
  | [] => []
  | (env, message) :: rest => (ws.handle env message).2.1 ++ told (ws.handle env message).1 rest

theorem after_concat (ws : Workspace) (steps : List (Surroundings × Message)) (env : Surroundings)
    (message : Message) : ws.after (steps ++ [(env, message)]) = ((ws.after steps).handle env message).1 :=
  List.foldl_append

theorem told_concat (ws : Workspace) (steps : List (Surroundings × Message)) (env : Surroundings)
    (message : Message) : ws.told (steps ++ [(env, message)]) =
      ws.told steps ++ ((ws.after steps).handle env message).2.1 := by
  induction steps generalizing ws with
  | nil => exact List.append_nil _
  | cons step rest ih =>
    rw [List.cons_append, told, ih, told, List.append_assoc]
    rfl

theorem distinct_after (distinct : ws.documents.Distinct) (steps : List (Surroundings × Message)) :
    (ws.after steps).documents.Distinct := by
  induction steps generalizing ws with
  | nil => exact distinct
  | cons step rest ih => exact ih (distinct_handle distinct step.1 step.2)

end Workspace

end SchemaServer
