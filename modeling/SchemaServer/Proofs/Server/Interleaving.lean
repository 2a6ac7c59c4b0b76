import Mathlib.Data.List.Perm.Basic
import SchemaServer.Proofs.Server.Diagnostics

/-! Messages that overlap. A message that writes a document is handled in two steps: the first stores the snapshot
and sends it to the formatter, the second tells how that run ended, at any later time and whatever is stored by
then. Once all runs have ended, what is published last belongs to the run that ended last, which need not be the
run of what is stored. -/
namespace SchemaServer

variable {uri target : Uri} {doc : Document} {message : Message} {notice : Notice} {env : Surroundings}
  {ws : Workspace}

/-- The outcome of a check is published for the document that was checked. -/
theorem Notice.Judges.published?_of_ne (judges : notice.Judges target doc) (other : target ≠ uri) :
    notice.published? uri = none := by
  cases judges with
  | published items => simp [published?, other]
  | failed error => rfl

theorem Workspace.not_published (plain : message.payload? = none) (unconcerned : message.concerns uri = false) :
    (ws.handle env message).2.1.filterMap (Notice.published? uri) = [] := by
  refine List.filterMap_eq_nil_iff.mpr fun notice member => ?_
  cases publishes : notice.published? uri with
  | none => rfl
  | some shown =>
    obtain rfl := Notice.published?_eq_some_iff.mp publishes
    have effect := handle_effect env ws message
    generalize (ws.handle env message).1 = next, (ws.handle env message).2.1 = notices at effect member
    cases effect with
    | written writes =>
      obtain ⟨lints, -, rfl, -⟩ := Surroundings.mem_validate_iff.mp member
      simp [Message.concerns_of_write? writes] at unconcerned
    | closed target =>
      obtain ⟨rfl, -⟩ := by simpa using member
      simp [Message.concerns, Message.close?] at unconcerned
    | configured => contradiction
    | unchanged _ _ _ quiet => exact absurd (quiet _ member) (by simp [Notice.isDiagnostics])

/-- A server with runs of the formatter under way. -/
structure Concurrent where
  workspace : Workspace
  /-- How each of the runs will end, in the order in which they began. -/
  running : List Notice := []
  told : List Notice := []

namespace Concurrent

inductive Event
  /-- The first step of a message, or the whole of one that writes no document. Configuration is left out. -/
  | first (env : Surroundings) (message : Message) (plain : message.payload? = none)
  /-- The run at this place among those under way ends. -/
  | second (place : Nat)

def step (s : Concurrent) : Event → Concurrent
  | .first env message _ =>
    match message.write? with
    | some (uri, doc) =>
      ⟨(s.workspace.handle env message).1, s.running ++ [env.outcome s.workspace.settings uri doc],
        s.told ++ (env.formatter s.workspace.settings).2⟩
    | none => ⟨(s.workspace.handle env message).1, s.running, s.told ++ (s.workspace.handle env message).2.1⟩
  | .second place => { s with running := s.running.eraseIdx place, told := s.told ++ s.running[place]?.toList }

def run (s : Concurrent) (events : List Event) : Concurrent := events.foldl step s

variable {s : Concurrent}

/-- What has been published for an address. -/
def published (s : Concurrent) (uri : Uri) : List (List Diagnostic × Option Int) :=
  s.told.filterMap (Notice.published? uri)

/-- What the runs under way will publish for an address. -/
def awaited (s : Concurrent) (uri : Uri) : List (List Diagnostic × Option Int) :=
  s.running.filterMap (Notice.published? uri)

/-- What is shown suits what is stored: with a document it has the version of the document, and without one it is
empty if there is anything. -/
def Suits : Option Document → Option (List Diagnostic × Option Int) → Prop
  | some doc, some shown => shown.2 = some doc.version
  | some _, none => False
  | none, some shown => shown.1 = []
  | none, none => True

instance : ∀ stored shown, Decidable (Suits stored shown)
  | some doc, some shown => inferInstanceAs (Decidable (shown.2 = some doc.version))
  | some _, none => inferInstanceAs (Decidable False)
  | none, some shown => inferInstanceAs (Decidable (shown.1 = []))
  | none, none => inferInstanceAs (Decidable True)

/-- What is published last at an address suits what is stored there. -/
def Settled (s : Concurrent) (uri : Uri) : Prop :=
  Suits (s.workspace.documents.find? uri) (s.published uri).getLast?

instance (s : Concurrent) (uri : Uri) : Decidable (s.Settled uri) := inferInstanceAs (Decidable (Suits _ _))

theorem mem_awaited_iff {items : List Diagnostic} {version : Option Int} :
    (items, version) ∈ s.awaited uri ↔ .diagnostics uri items version ∈ s.running := by
  simp [awaited, List.mem_filterMap, Notice.published?_eq_some_iff]

/-- The event is no message that decides what is stored at an address. -/
def Event.Quiet (uri : Uri) : Event → Prop
  | .first _ message _ => message.concerns uri = false
  | .second _ => True

/-! ## One step -/

/-- A message whose run ends at once is handled as if messages came one after another. -/
theorem step_second_first (s : Concurrent) (env : Surroundings) (plain : message.payload? = none)
    (writes : message.write? = some (uri, doc)) :
    (s.step (.first env message plain)).step (.second s.running.length) =
      ⟨(s.workspace.handle env message).1, s.running, s.told ++ (s.workspace.handle env message).2.1⟩ := by
  rw [(Workspace.handle_of_write? writes env s.workspace).2, Surroundings.validate_eq]
  simp [step, writes, List.eraseIdx_append_of_length_le]

theorem filterMap_warnings (env : Surroundings) (settings : Settings) (uri : Uri) :
    (env.formatter settings).2.filterMap (Notice.published? uri) = [] := by
  refine List.filterMap_eq_nil_iff.mpr fun notice member => ?_
  obtain ⟨path, rfl⟩ := Surroundings.eq_of_mem_warnings member
  rfl

theorem step_first_write (s : Concurrent) (env : Surroundings) (plain : message.payload? = none)
    (writes : message.write? = some (target, doc)) (uri : Uri) :
    (s.step (.first env message plain)).workspace = (s.workspace.handle env message).1 ∧
      (s.step (.first env message plain)).published uri = s.published uri ∧
      (s.step (.first env message plain)).awaited uri = s.awaited uri ++
        ((env.outcome s.workspace.settings target doc).published? uri).toList := by
  simp only [step, writes, published, awaited, List.filterMap_append, filterMap_warnings, List.append_nil, true_and]
  cases found : (env.outcome s.workspace.settings target doc).published? uri <;> simp [found]

/-- A message that writes no document is handled in one step. -/
theorem step_first_other (s : Concurrent) (env : Surroundings) (plain : message.payload? = none)
    (reads : message.write? = none) (uri : Uri) :
    (s.step (.first env message plain)).workspace = (s.workspace.handle env message).1 ∧
      (s.step (.first env message plain)).published uri =
        s.published uri ++ (s.workspace.handle env message).2.1.filterMap (Notice.published? uri) ∧
      (s.step (.first env message plain)).awaited uri = s.awaited uri := by
  simp only [step, reads, published, awaited, List.filterMap_append, true_and]

theorem step_second (s : Concurrent) (place : Nat) (uri : Uri) :
    ∃ shown, (s.step (.second place)).published uri = s.published uri ++ shown ∧
      (s.awaited uri).Perm (shown ++ (s.step (.second place)).awaited uri) := by
  refine ⟨s.running[place]?.toList.filterMap (Notice.published? uri), List.filterMap_append, ?_⟩
  rw [awaited, awaited, ← List.filterMap_append]
  refine List.Perm.filterMap _ ?_
  by_cases inside : place < s.running.length
  · rw [List.getElem?_eq_getElem inside]
    exact (List.getElem_cons_eraseIdx_perm inside).symm
  · have past := Nat.le_of_not_lt inside
    simp [step, List.getElem?_eq_none past, List.eraseIdx_of_length_le past]

/-- A quiet step leaves what is stored at the address, and publishes there at most what was awaited. -/
theorem step_quiet {event : Event} (quiet : event.Quiet uri) :
    (s.step event).workspace.documents.find? uri = s.workspace.documents.find? uri ∧
      ∃ shown, (s.step event).published uri = s.published uri ++ shown ∧
        (s.awaited uri).Perm (shown ++ (s.step event).awaited uri) := by
  cases event with
  | second place => exact ⟨rfl, step_second s place uri⟩
  | first env message plain =>
    have unconcerned : message.concerns uri = false := quiet
    have kept := Workspace.find?_handle env s.workspace message uri
    rw [if_neg (by simp [unconcerned])] at kept
    cases writes : message.write? with
    | some entry =>
      obtain ⟨target, doc⟩ := entry
      have elsewhere : target ≠ uri := by
        rintro rfl
        simp [Message.concerns_of_write? writes] at unconcerned
      obtain ⟨stored, published, awaited⟩ := step_first_write s env plain writes uri
      rw [stored, published, awaited, (Surroundings.outcome_judges ..).published?_of_ne elsewhere]
      exact ⟨kept, [], by simp⟩
    | none =>
      obtain ⟨stored, published, awaited⟩ := step_first_other s env plain writes uri
      rw [stored, published, awaited, Workspace.not_published plain unconcerned]
      exact ⟨kept, [], by simp⟩

/-! ## Runs -/

/-- Over quiet events, what is published at the address was awaited, and so it is in whatever order when all runs
have ended. -/
theorem run_quiet {events : List Event} (quiet : ∀ event ∈ events, event.Quiet uri) :
    (s.run events).workspace.documents.find? uri = s.workspace.documents.find? uri ∧
      ∃ shown, (s.run events).published uri = s.published uri ++ shown ∧
        (s.awaited uri).Perm (shown ++ (s.run events).awaited uri) := by
  induction events generalizing s with
  | nil => exact ⟨rfl, [], (List.append_nil _).symm, .refl _⟩
  | cons event rest ih =>
    obtain ⟨first, now, publishedNow, awaitedNow⟩ := step_quiet (s := s) (quiet event List.mem_cons_self)
    obtain ⟨later, then_, publishedThen, awaitedThen⟩ :=
      ih (s := s.step event) fun other member => quiet other (List.mem_cons_of_mem event member)
    refine ⟨later.trans first, now ++ then_, ?_, ?_⟩
    · change ((s.step event).run rest).published uri = _
      rw [publishedThen, publishedNow, List.append_assoc]
    · rw [List.append_assoc]
      exact awaitedNow.trans (awaitedThen.append_left now)

/-- The runs under way can end one after another. -/
theorem run_front (ws : Workspace) (front rest told : List Notice) :
    run ⟨ws, front ++ rest, told⟩ (List.replicate front.length (.second 0)) = ⟨ws, rest, told ++ front⟩ := by
  induction front generalizing told with
  | nil => simp [run]
  | cons notice front ih =>
    change run ⟨ws, front ++ rest, told ++ [notice]⟩ _ = _
    rw [ih, List.append_assoc]
    rfl

theorem run_back (ws : Workspace) (notice : Notice) (back told : List Notice) :
    run ⟨ws, notice :: back, told⟩ (List.replicate back.length (.second 1)) = ⟨ws, [notice], told ++ back⟩ := by
  induction back generalizing told with
  | nil => simp [run]
  | cons next back ih =>
    change run ⟨ws, notice :: back, told ++ [next]⟩ _ = _
    rw [ih, List.append_assoc]
    rfl

/-- Each of the runs under way can be the last one to end. -/
theorem exists_run_last (member : notice ∈ s.running) : ∃ events others,
    (∀ event ∈ events, ∀ uri, event.Quiet uri) ∧
      s.run events = ⟨s.workspace, [], s.told ++ others ++ [notice]⟩ := by
  obtain ⟨ws, running, told⟩ := s
  obtain ⟨front, back, rfl⟩ := List.append_of_mem member
  refine ⟨.replicate front.length (.second 0) ++ .replicate back.length (.second 1) ++ [.second 0], front ++ back,
    ?_, ?_⟩
  · intro event placed uri
    simp only [List.mem_append, List.mem_replicate, List.mem_singleton] at placed
    rcases placed with (⟨-, rfl⟩ | ⟨-, rfl⟩) | rfl <;> trivial
  · have split : ∀ (s : Concurrent) (first later : List Event), s.run (first ++ later) = (s.run first).run later :=
      fun _ _ _ => List.foldl_append
    rw [split, split, run_front, run_back, ← List.append_assoc]
    rfl

/-- From any state, the address settles in whatever order the runs end exactly if all that is awaited suits what
is stored, and if nothing is awaited, what was published before. -/
theorem settles_iff (s : Concurrent) (uri : Uri) :
    (∀ later, (∀ event ∈ later, event.Quiet uri) → (s.run later).running = [] → (s.run later).Settled uri) ↔
      (∀ shown ∈ s.awaited uri, Suits (s.workspace.documents.find? uri) (some shown)) ∧
        (s.awaited uri = [] → s.Settled uri) := by
  constructor
  · intro settles
    refine ⟨fun shown awaited => ?_, fun idle => ?_⟩
    · obtain ⟨notice, member, publishes⟩ := List.mem_filterMap.mp awaited
      obtain ⟨events, others, quiet, ends⟩ := exists_run_last member
      have settled := settles events (fun event placed => quiet event placed uri) (by rw [ends])
      have last : ((s.run events).published uri).getLast? = some shown := by
        rw [ends, published, List.filterMap_append]
        simp [publishes]
      rw [Settled, last, ends] at settled
      exact settled
    · have ends := run_front s.workspace s.running [] s.told
      rw [List.append_nil] at ends
      have settled := settles _ (by simp [Event.Quiet]) (congrArg running ends)
      have same : (s.run (.replicate s.running.length (.second 0))).published uri = s.published uri := by
        rw [show s.run _ = _ from ends, published, List.filterMap_append, ← awaited, idle, List.append_nil,
          ← published]
      rw [Settled, same, show s.run _ = _ from ends] at settled
      exact settled
  · rintro ⟨suits, idle⟩ later quiet done
    obtain ⟨stored, shown, published, order⟩ := run_quiet (s := s) quiet
    have none : (s.run later).awaited uri = [] := by rw [awaited, done, List.filterMap_nil]
    rw [none, List.append_nil] at order
    rw [Settled, published, stored, List.getLast?_append]
    cases last : shown.getLast? with
    | some final => exact suits final (order.mem_iff.mpr (List.mem_of_getLast? last))
    | none =>
      rw [List.getLast?_eq_none_iff] at last
      rw [last] at order
      exact idle order.eq_nil

/-! ## The last message of an address -/

theorem close_step (s : Concurrent) (env : Surroundings) (uri : Uri) :
    (s.step (.first env (.didClose uri) rfl)).workspace.documents.find? uri = none ∧
      ((s.step (.first env (.didClose uri) rfl)).published uri).getLast? = some ([], none) ∧
      (s.step (.first env (.didClose uri) rfl)).awaited uri = s.awaited uri := by
  have reads : (Message.didClose uri).write? = none := rfl
  obtain ⟨stored, published, awaited⟩ := step_first_other s env rfl reads uri
  refine ⟨?_, ?_, awaited⟩
  · rw [stored, Workspace.find?_handle]
    simp [Message.concerns, Message.write?, Message.close?]
  · have notices : (s.workspace.handle env (.didClose uri)).2.1 = [.diagnostics uri [] none] := rfl
    rw [published, notices]
    simp [Notice.published?]

/-- Behind the first step of a message that writes there, an address is settled exactly if the stored version was
published before. -/
theorem settled_first_write (s : Concurrent) (env : Surroundings) (plain : message.payload? = none)
    (writes : message.write? = some (uri, doc)) :
    (s.step (.first env message plain)).workspace.documents.find? uri = some doc ∧
      ((s.step (.first env message plain)).Settled uri ↔
        ∃ items, (s.published uri).getLast? = some (items, some doc.version)) := by
  obtain ⟨stored, published, -⟩ := step_first_write s env plain writes uri
  have found : (s.step (.first env message plain)).workspace.documents.find? uri = some doc := by
    rw [stored, Workspace.find?_handle, if_pos (Message.concerns_of_write? writes), writes]
    rfl
  refine ⟨found, ?_⟩
  rw [Settled, published, found]
  cases (s.published uri).getLast? with
  | none => simp [Suits]
  | some shown => simp [Suits, Prod.ext_iff]

/-- Messages that overlap, up to the last one that concerns an address, come to a server without documents. Each of
them does in its two steps what the program does with it. After a close, the address settles in whatever order the
runs end exactly if no run under way has found a problem there. After a message that writes there, it does exactly
if all runs under way that succeed have read the version that is stored, and if none of them does, that version was
published before. An address that no message concerns is settled. -/
theorem settles_after_iff (settings : Settings) (events : List Event) (env : Surroundings) (message : Message)
    (plain : message.payload? = none) (uri : Uri) :
    let s := run { workspace := { settings } } events
    let next := s.step (.first env message plain)
    let settles := ∀ later, (∀ event ∈ later, event.Quiet uri) → (next.run later).running = [] →
      (next.run later).Settled uri
    (∀ doc, message.write? = some (uri, doc) → next.step (.second s.running.length) =
      ⟨(s.workspace.handle env message).1, s.running, s.told ++ (s.workspace.handle env message).2.1⟩) ∧
    (message = .didClose uri →
      (settles ↔ ∀ items version, .diagnostics uri items version ∈ s.running → items = [])) ∧
    (∀ doc, message.write? = some (uri, doc) →
      (settles ↔
        (∀ items version, .diagnostics uri items version ∈ next.running → version = some doc.version) ∧
        ((∃ items version, .diagnostics uri items version ∈ next.running) ∨
          ∃ items, (s.published uri).getLast? = some (items, some doc.version)))) ∧
    ((∀ event ∈ events, event.Quiet uri) → s.Settled uri) := by
  intro s next settles
  refine ⟨fun doc writes => step_second_first s env plain writes, ?_, ?_, ?_⟩
  · rintro rfl
    obtain ⟨gone, last, awaited⟩ := close_step s env uri
    have done : next.Settled uri := by
      rw [Settled, last, gone]
      rfl
    simp only [settles, settles_iff, done, implies_true, and_true]
    rw [awaited, gone, Prod.forall]
    simp only [mem_awaited_iff]
    rfl
  · intro doc writes
    obtain ⟨found, settled⟩ := settled_first_write s env plain writes
    have idle : next.awaited uri = [] ↔ ¬ ∃ items version, .diagnostics uri items version ∈ next.running := by
      rw [List.eq_nil_iff_forall_not_mem, Prod.forall]
      simp only [mem_awaited_iff, not_exists]
    simp only [settles, settles_iff, next, found, settled, Prod.forall, Suits]
    rw [idle, or_iff_not_imp_left]
    simp only [mem_awaited_iff, next]
  · intro quiet
    obtain ⟨stored, shown, published, order⟩ := run_quiet (s := { workspace := { settings } }) quiet
    have none : shown = [] := (List.append_eq_nil_iff.mp order.symm.eq_nil).1
    rw [Settled, published, none, stored]
    trivial

def echo : Surroundings :=
  ⟨{}, ⟨fun _ => false, fun _ => .error .notFound,
    fun _ _ input => .ok ⟨.code 0, input.map fun c => c.toNat.toUInt8, []⟩⟩⟩

/-- A run that has found a problem is under way when its document is closed. -/
theorem settles_after_iff_closed :
    let uri := "file:///a.prisma".toList
    let text := "[[0, 1, \"stale\"]]".toList
    let opened : Event := .first echo (.didOpen uri 1 text) rfl
    let closed : Event := .first echo (.didClose uri) rfl
    let s := run { workspace := {} } [opened]
    s.running = [.diagnostics uri [⟨⟨⟨0, 0⟩, ⟨0, 1⟩⟩, .error, "stale".toList⟩] (some 1)] ∧
      ¬ ∀ later, (∀ event ∈ later, event.Quiet uri) → ((s.step closed).run later).running = [] →
        ((s.step closed).run later).Settled uri := by
  intro uri text opened closed s
  have under : s.running = [.diagnostics uri [⟨⟨⟨0, 0⟩, ⟨0, 1⟩⟩, .error, "stale".toList⟩] (some 1)] := by
    decide +kernel
  refine ⟨under, fun settles => ?_⟩
  have clean := ((settles_after_iff {} [opened] echo (.didClose uri) rfl uri).2.1 rfl).mp settles
  have none := clean [⟨⟨⟨0, 0⟩, ⟨0, 1⟩⟩, .error, "stale".toList⟩] (some 1)
    (by rw [under]; exact List.mem_singleton_self _)
  exact List.cons_ne_nil _ _ none

/-- Three ways to end unsettled, all with problems on the input as the formatter's output. A run ends behind the
close of its document. A run ends behind the run of the next version. The run of the next version fails, even
with one message after another. -/
theorem unsettled :
    let uri := "file:///a.prisma".toList
    let text := "[[0, 1, \"stale\"]]".toList
    let opened : Event := .first echo (.didOpen uri 1 text) rfl
    let closed : Event := .first echo (.didClose uri) rfl
    let emptied : Event := .first echo (.didChange uri 2 [[]]) rfl
    let broken : Event := .first echo (.didChange uri 2 ["model".toList]) rfl
    ∀ events ∈ [[opened, closed, .second 0], [opened, emptied, .second 1, .second 0],
        [opened, .second 0, broken, .second 0]],
      (run { workspace := {} } events).running = [] ∧ ¬ (run { workspace := {} } events).Settled uri := by
  decide +kernel

end Concurrent

end SchemaServer
