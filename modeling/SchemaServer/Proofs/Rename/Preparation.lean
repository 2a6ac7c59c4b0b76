import SchemaServer.Server.Workspace
import SchemaServer.Proofs.Rename.ExactSpans

/-! Preparing a rename and carrying it out agree: both start from the symbol under the cursor, and a cursor
anywhere on the prepared range is on the same symbol. -/
namespace SchemaServer

open Text

variable {doc : Document} {pos q : Position} {symbol : Symbol} {range : Range} {line lead name rest newName : Text}

/-! ## The symbol all along its name -/

theorem keyword_wide {keyword : Text} {kind : BlockKind} (known : BlockKind.ofKeyword? keyword = some kind) :
    (kind = .model → unitLength keyword = modelKeywordWidth) ∧ (kind = .enum → unitLength keyword = enumKeywordWidth) := by
  unfold BlockKind.ofKeyword? at known
  split at known
  · obtain rfl := Option.some.inj known
    exact ⟨nofun, nofun⟩
  · have same : kind.keyword = keyword := by simpa using List.find?_some known
    subst same
    exact ⟨by rintro rfl; rfl, by rintro rfl; rfl⟩

/-- Behind the keyword and a blank, the cursor is on the name of the block. -/
theorem classify?_behind_keyword {keyword gap tail : Text} {b : Block} {kind : SymbolKind}
    (written : Header.Written line lead keyword gap b.name tail) (known : BlockKind.ofKeyword? keyword = some b.kind)
    (owned : b.kind = kind.owner) (isName : kind.isBlockName = true) (onStart : q.line = b.start.line)
    (behind : unitLength (lead ++ keyword ++ gap) ≤ q.character) :
    SymbolKind.classify? q line b = some kind := by
  have wide : 0 < unitLength gap := by
    obtain ⟨c, r, rfl⟩ := List.exists_cons_of_ne_nil written.apart
    exact Nat.lt_of_lt_of_le (unitSize_pos c) (Nat.le_add_right _ _)
  rw [unitLength_append, unitLength_append] at behind
  obtain ⟨model, enum⟩ := keyword_wide known
  unfold SymbolKind.classify?
  cases kind with
  | model =>
    have width := model owned
    simp only [owned, SymbolKind.owner, onStart, if_true]
    rw [if_pos (by omega)]
  | enum =>
    have width := enum owned
    simp only [owned, SymbolKind.owner, onStart, if_true]
    rw [if_pos (by omega)]
  | field | enumValue => contradiction

/-- On the first word of the line, the cursor stays on the field or the enum value. -/
theorem classify?_first_word {b : Block} {kind : SymbolKind} (first : FirstWord line lead name rest)
    (noName : kind.isBlockName = false) (plain : name.head? ≠ some '@') (sameRow : q.line = pos.line)
    (lower : unitLength lead ≤ q.character) (upper : q.character ≤ unitLength (lead ++ name))
    (classified : SymbolKind.classify? pos line b = some kind) : SymbolKind.classify? q line b = some kind := by
  have onWord : onFirstWord line q.character = true := first.onFirstWord_iff.mpr ⟨lower, upper⟩
  have word := first.run.wordAt lower upper
  unfold SymbolKind.classify? at classified ⊢
  rw [sameRow]
  dsimp only at classified ⊢
  split at classified
  · split at classified
    · split at classified
      · obtain rfl := Option.some.inj classified
        contradiction
      · contradiction
    · split at classified
      · rename_i onOther body
        simp only [Bool.and_eq_true] at body
        simp only [onOther, if_false, body.1, onWord, Bool.and_self, if_true, classified]
      · contradiction
  · split at classified
    · split at classified
      · obtain rfl := Option.some.inj classified
        contradiction
      · contradiction
    · split at classified
      · rename_i onOther body
        simp only [Bool.and_eq_true] at body
        have other : decide (name.head? ≠ some '@') = true := by simpa using plain
        simp only [onOther, if_false, body.1, word, other, Bool.and_self, if_true, classified]
      · contradiction
  · contradiction

/-- Anywhere on the declaration of a symbol, both ends included, the cursor is on that symbol. -/
theorem symbolAt?_on_declaration (found : doc.symbolAt? pos = some symbol)
    (declared : symbol.declaration? doc = some range) (plain : symbol.name.head? ≠ some '@')
    (lower : range.start ≤ q) (upper : q ≤ range.stop) : doc.symbolAt? q = some symbol := by
  have declares := Document.symbolAt?_declared found
  obtain ⟨onLine, owner, line, there, classified, named⟩ := Document.symbolAt?_eq_some_iff.mp found
  obtain ⟨range', same, startLine, before, after, covers, -⟩ := declares.declaration
  obtain rfl := Option.some.inj (same.symm.trans declared)
  rw [Position.le_iff] at lower upper
  have stopLine := covers.row
  have row : q.line = pos.line := by omega
  have start := covers.start
  have stop := covers.stop
  refine Document.symbolAt?_eq_some_iff.mpr ⟨onLine.trans row.symm, row ▸ owner, line, row ▸ there, ?_, named⟩
  by_cases isName : symbol.kind.isBlockName = true
  · obtain ⟨line', lead, keyword, gap, tail, there', written, known⟩ := (Document.placed declares.member).written
    obtain ⟨-, opening⟩ := declares.opening isName
    have sameLine : line' = line := by
      rw [← opening, onLine, there] at there'
      exact (Option.some.inj there').symm
    subst sameLine
    rw [Symbol.declaration?, if_pos isName, Block.nameRange?_of_written there' written] at declared
    have column : unitLength (lead ++ keyword ++ gap) = range'.start.character := by
      rw [← Option.some.inj declared, written.stands.parts, ofSpan_append]
    exact classify?_behind_keyword written known declares.owned isName (by omega) (by omega)
  · have noName := Bool.eq_false_iff.mpr isName
    obtain ⟨line', lead, rest, there', first⟩ := declares.firstWord noName
    have sameLine : line' = line := by
      rw [onLine, there] at there'
      exact (Option.some.inj there').symm
    subst sameLine
    rw [Symbol.declaration?_of_firstWord noName there' first] at declared
    have columns : range' = ⟨⟨symbol.line, unitLength lead⟩, ⟨symbol.line, unitLength (lead ++ symbol.name)⟩⟩ := by
      rw [← Option.some.inj declared, first.parts, ofSpan_append]
    subst columns
    dsimp only at lower upper
    exact classify?_first_word first noName plain row (by omega) (by omega) classified

/-! ## The two requests -/

namespace Workspace

variable {env : Surroundings} {ws : Workspace} {uri : Uri}

def answer (env : Surroundings) (ws : Workspace) (message : Message) : Answer :=
  (ws.handle env message).2.2

theorem about_of_stored (stored : ws.documents.find? uri = some doc) (f : Document → Option Answer) :
    ws.about uri f = (f doc).getD .nothing := by
  rw [about, stored, Option.bind_some]

theorem answer_prepareRename (stored : ws.documents.find? uri = some doc) :
    ws.answer env (.prepareRename uri pos) = (prepareRename doc pos).getD .nothing :=
  about_of_stored stored (prepareRename · pos)

theorem answer_rename (stored : ws.documents.find? uri = some doc) (accepted : checkNewName newName = .ok ()) :
    ws.answer env (.rename uri pos newName) = (rename uri doc pos newName).getD .nothing := by
  simp only [answer, handle, accepted, about_of_stored stored]

theorem answer_rename_of_symbolAt?_eq (stored : ws.documents.find? uri = some doc)
    (same : doc.symbolAt? q = doc.symbolAt? pos) :
    ws.answer env (.rename uri q newName) = ws.answer env (.rename uri pos newName) := by
  cases accepted : checkNewName newName with
  | error e => simp only [answer, handle, accepted]
  | ok => rw [answer_rename stored accepted, answer_rename stored accepted, rename, rename, Document.renameAt,
      Document.renameAt, same]

theorem prepareRename_of_declaration (found : doc.symbolAt? pos = some symbol)
    (declared : symbol.declaration? doc = some range) :
    prepareRename doc pos = some (.prepared range symbol.name) := by
  simp [prepareRename, found, declared]

theorem prepareRename_of_none (off : doc.symbolAt? pos = none) : prepareRename doc pos = none := by
  simp [prepareRename, off]

theorem rename_of_declaration (uri : Uri) (found : doc.symbolAt? pos = some symbol)
    (declared : symbol.declaration? doc = some range) (differ : symbol.name ≠ newName) :
    ∃ others, rename uri doc pos newName = some (.changes uri (⟨range, newName⟩ :: others)) := by
  obtain ⟨first, mapping, edits, covers⟩ := (Document.symbolAt?_declared found).editsCover differ
  obtain ⟨declares, text⟩ := covers.declares
  have start : first = ⟨range, newName⟩ := by
    rw [← text, ← Option.some.inj (declares.symm.trans declared)]
  refine ⟨symbol.references newName doc ++ mapping.toList, ?_⟩
  rw [rename, Document.renameAt, found]
  dsimp only
  rw [edits, start]
  rfl

theorem rename_of_same (found : doc.symbolAt? pos = some symbol) :
    rename uri doc pos symbol.name = none := by
  have idle : symbol.rename doc symbol.name = [] := if_pos rfl
  rw [rename, Document.renameAt, found]
  dsimp only
  rw [idle]

theorem rename_of_none (off : doc.symbolAt? pos = none) : rename uri doc pos newName = none := by
  rw [rename, Document.renameAt, off]

/-- Preparing a rename answers exactly on a symbol, with a range that reads its name. A rename to an acceptable
name answers edits exactly where preparing it offers another name, and the first edit replaces the prepared range.
If the name does not start like an attribute, both answer the same all along the range. -/
theorem prepareRename_agrees (env : Surroundings) (stored : ws.documents.find? uri = some doc) (pos : Position) :
    ((∃ range placeholder, ws.answer env (.prepareRename uri pos) = .prepared range placeholder) ↔
        (doc.symbolAt? pos).isSome) ∧
      (∀ newName, checkNewName newName = .ok () →
        ((∃ edits, ws.answer env (.rename uri pos newName) = .changes uri edits) ↔
          ∃ range placeholder, ws.answer env (.prepareRename uri pos) = .prepared range placeholder ∧
            placeholder ≠ newName) ∧
        ((∀ edits, ws.answer env (.rename uri pos newName) ≠ .changes uri edits) →
          ws.answer env (.rename uri pos newName) = .nothing)) ∧
      ∀ range placeholder, ws.answer env (.prepareRename uri pos) = .prepared range placeholder →
        doc.textIn? range = some placeholder ∧ placeholder ≠ [] ∧
        (∀ newName, checkNewName newName = .ok () → placeholder ≠ newName → ∃ others,
          ws.answer env (.rename uri pos newName) = .changes uri (⟨range, newName⟩ :: others)) ∧
        (placeholder.head? ≠ some '@' → ∀ q, range.start ≤ q → q ≤ range.stop →
          ws.answer env (.prepareRename uri q) = .prepared range placeholder ∧
          ∀ newName, ws.answer env (.rename uri q newName) = ws.answer env (.rename uri pos newName)) := by
  cases found : doc.symbolAt? pos with
  | none =>
    have prepared : ws.answer env (.prepareRename uri pos) = .nothing := by
      rw [answer_prepareRename stored, prepareRename_of_none found, Option.getD_none]
    rw [prepared]
    refine ⟨by simp, fun newName accepted => ?_, nofun⟩
    rw [answer_rename stored accepted, rename_of_none found]
    simp
  | some symbol =>
    have declares := Document.symbolAt?_declared found
    obtain ⟨range, declared, -, before, after, covers, -⟩ := declares.declaration
    have prepared : ws.answer env (.prepareRename uri pos) = .prepared range symbol.name := by
      rw [answer_prepareRename stored, prepareRename_of_declaration found declared, Option.getD_some]
    rw [prepared]
    refine ⟨by simp, fun newName accepted => ?_, ?_⟩
    · rw [answer_rename stored accepted]
      by_cases same : symbol.name = newName
      · subst same
        rw [rename_of_same found]
        simp
      · obtain ⟨others, edits⟩ := rename_of_declaration uri found declared same
        rw [edits]
        simp [same]
    · rintro range' placeholder ⟨⟩
      refine ⟨covers.textIn?, declares.name_ne_nil, fun newName accepted differ => ?_, ?_⟩
      · obtain ⟨others, edits⟩ := rename_of_declaration uri found declared differ
        exact ⟨others, by rw [answer_rename stored accepted, edits, Option.getD_some]⟩
      · intro plain q lower upper
        have onName := symbolAt?_on_declaration found declared plain lower upper
        refine ⟨?_, fun newName => answer_rename_of_symbolAt?_eq stored (onName.trans found.symm)⟩
        rw [answer_prepareRename stored, prepareRename_of_declaration onName declared, Option.getD_some]

/-- The field `id`, prepared with the cursor inside of its name. -/
theorem prepareRename_agrees_field :
    let doc := Document.ofText "model A \x7b\n  id Int @id\n\x7d\n".toList 0
    let uri := "file:///a.prisma".toList
    let ws : Workspace := { documents := [(uri, doc)] }
    let env : Surroundings := ⟨{}, ⟨fun _ => false, fun _ => .error .notFound, fun _ _ _ => .error .notFound⟩⟩
    let name : Range := ⟨⟨1, 2⟩, ⟨1, 4⟩⟩
    ws.documents.find? uri = some doc ∧ ws.answer env (.prepareRename uri ⟨1, 3⟩) = .prepared name "id".toList ∧
      doc.textIn? name = some "id".toList ∧
      (∃ others, ws.answer env (.rename uri ⟨1, 3⟩ "key".toList) = .changes uri (⟨name, "key".toList⟩ :: others)) ∧
      ws.answer env (.prepareRename uri ⟨1, 4⟩) = .prepared name "id".toList := by
  intro doc uri ws env name
  have stored : ws.documents.find? uri = some doc := by simp [ws, DocumentStore.find?]
  have prepared : ws.answer env (.prepareRename uri ⟨1, 3⟩) = .prepared name "id".toList := by
    let id : Symbol := ⟨.field, "id".toList, ⟨.model, "A".toList, ⟨0, 0⟩, ⟨2, 1⟩, true⟩, 1⟩
    have found : doc.symbolAt? ⟨1, 3⟩ = some id := by decide +kernel
    have declared : id.declaration? doc = some name := by decide +kernel
    rw [answer_prepareRename stored, prepareRename_of_declaration found declared, Option.getD_some]
  obtain ⟨-, -, all⟩ := prepareRename_agrees env stored ⟨1, 3⟩
  obtain ⟨reads, -, first, along⟩ := all name _ prepared
  exact ⟨stored, prepared, reads, first _ (by decide +kernel) (by decide +kernel),
    (along (by decide +kernel) ⟨1, 4⟩ (by decide +kernel) (by decide +kernel)).1⟩

end Workspace

end SchemaServer
