import SchemaServer.Proofs.Document.Lines
import SchemaServer.Proofs.Server.History

/-! Formatting. The text of a client goes into the server without loss, and the one edit that answers a formatting
request turns it into what the formatter wrote. -/
namespace SchemaServer

variable {ws : Workspace} {uri : Uri} {doc : Document} {env : Surroundings} {tabSize : Nat} {output : Text}

namespace Workspace

/-- A request to format a stored document is answered with an edit of all of it exactly if the formatter succeeds. -/
theorem handle_formatting (stored : ws.documents.find? uri = some doc) (edit : Edit) :
    (ws.handle env (.formatting uri tabSize)).2.2 = .formatted edit ↔
      ∃ output, (env.formatter ws.settings).1.format env.system doc.text tabSize = .ok output ∧
        edit = ⟨doc.fullRange, output⟩ := by
  simp only [handle, stored, formatting]
  cases run : (env.formatter ws.settings).1.format env.system doc.text tabSize with
  | error e => simp
  | ok text => simp [eq_comm]

theorem formatted_iff (stored : ws.documents.find? uri = some doc) :
    (∃ edit, (ws.handle env (.formatting uri tabSize)).2.2 = .formatted edit ∧ doc.apply [edit] = output) ↔
      (env.formatter ws.settings).1.format env.system doc.text tabSize = .ok output := by
  simp only [handle_formatting stored]
  constructor
  · rintro ⟨edit, ⟨written, succeeds, rfl⟩, rfl⟩
    rw [doc.apply_fullRange, succeeds]
  · intro succeeds
    exact ⟨_, ⟨output, succeeds, rfl⟩, doc.apply_fullRange output⟩

end Workspace

namespace Document

/-- A document cuts its text into lines without line breaks, and there is one way to do so: a text is its lines with
breaks between them, where a carriage return with a line feed behind it is one break. Going over the text from break
to break ends and gives these lines. The text is kept, and an edit of the whole range puts another text in the place
of all of it. So once a client has sent the text last, the edit that answers a request to format it turns it into what
the formatter wrote, and there is one exactly if the formatter succeeds. -/
theorem lossless (text : Text) (version : Int) :
    let doc := ofText text version
    (∀ line ∈ doc.lines, line.Unbroken) ∧
      (∃ breaks, Text.Cut text doc.lines breaks ∧
        ∀ lines' breaks', Text.Cut text lines' breaks' → lines' = doc.lines ∧ breaks' = breaks) ∧
      Guarded.splitLines text = .ok doc.lines ∧ doc.text = text ∧
      (∀ newText, doc.apply [⟨doc.fullRange, newText⟩] = newText) ∧
      ∀ (ws : Workspace) (steps : List (Surroundings × Message)) (uri : Uri), ws.documents = [] →
        Message.LastWrites uri doc (steps.map Prod.snd) →
        ∀ (env : Surroundings) (tabSize : Nat) (output : Text),
          (∃ edit, ((ws.after steps).handle env (.formatting uri tabSize)).2.2 = .formatted edit ∧
              doc.apply [edit] = output) ↔
            (env.formatter (ws.after steps).settings).1.format env.system text tabSize = .ok output := by
  intro doc
  have cut : Text.Cut text doc.lines (doc.pieces.filterMap Piece.ending) := Text.Cut.cut_ofText text
  refine ⟨cut.unbroken, ⟨_, cut, ?_⟩, Guarded.splitLines_eq text, rfl, doc.apply_fullRange, ?_⟩
  · intro lines' breaks' other
    exact ⟨other.ofText_eq.1.symm, other.ofText_eq.2.symm⟩
  · intro ws steps uri empty sent env tabSize output
    exact Workspace.formatted_iff ((Workspace.stored_iff empty steps).mpr sent)

/-- A text with breaks of all kinds, and with a separator that is none, is opened and then formatted. -/
theorem lossless_mixed_breaks :
    let uri := "file:///a.prisma".toList
    let text := "a\r\r\n\n\u2028b".toList
    let written := "enum A \x7b\n\x7d\n".toList
    let env : Surroundings := ⟨{}, ⟨fun _ => false, fun _ => .error .notFound,
      fun _ _ _ => .ok ⟨.code 0, written.map fun c => c.toNat.toUInt8, []⟩⟩⟩
    let doc := ofText text 1
    let ws := ({} : Workspace).after [(env, .didOpen uri 1 text)]
    doc.lines = ["a".toList, [], [], "\u2028b".toList] ∧
      ∃ edit, (ws.handle env (.formatting uri 2)).2.2 = .formatted edit ∧ doc.apply [edit] = written := by
  intro uri text written env doc ws
  obtain ⟨-, -, -, -, -, formats⟩ := lossless text 1
  have sent : Message.LastWrites uri doc [.didOpen uri 1 text] := ⟨[], _, [], rfl, rfl, by simp⟩
  exact ⟨by decide +kernel, (formats {} [(env, .didOpen uri 1 text)] uri rfl sent env 2 written).mpr (by decide +kernel)⟩

end Document

end SchemaServer
