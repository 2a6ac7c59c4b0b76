import SchemaServer.Symbol
import SchemaServer.Proofs.Block.Layout

/-! What stands behind a symbol: the block that declares it and the line with its name. -/
namespace SchemaServer

variable {doc : Document} {pos : Position} {symbol : Symbol}

open Text

def SymbolKind.owner : SymbolKind → BlockKind
  | .model | .field => .model
  | .enum | .enumValue => .enum

/-- A symbol as a document declares it. -/
structure Symbol.Declared (symbol : Symbol) (doc : Document) : Prop where
  member : symbol.block ∈ doc.blocks
  owned : symbol.block.kind = symbol.kind.owner
  opening : symbol.kind.isBlockName = true →
    symbol.name = symbol.block.name ∧ symbol.line = symbol.block.start.line
  inside : symbol.kind.isBlockName = false → symbol.block.bodyContains symbol.line = true ∧
    ∃ line, doc.line? symbol.line = some line ∧ (words line).head? = some symbol.name

theorem Text.FirstWord.onFirstWord_iff {line lead word rest : Text} {column : Nat}
    (first : FirstWord line lead word rest) :
    onFirstWord line column = true ↔ unitLength lead ≤ column ∧ column ≤ unitLength (lead ++ word) := by
  have start : columnAt line (byteLength lead) = unitLength lead := by
    rw [first.parts, List.append_assoc, columnAt_append]
  have stop : columnAt line (byteLength lead + byteLength word) = unitLength (lead ++ word) := by
    rw [first.parts, columnAt_append_left, unitLength_append]
  simp [onFirstWord, first.span, start, stop]

theorem classify?_eq_some {line : Text} {block : Block} {kind : SymbolKind}
    (h : SymbolKind.classify? pos line block = some kind) : block.kind = kind.owner ∧
      (kind.isBlockName = true → pos.line = block.start.line) ∧
      (kind.isBlockName = false → block.bodyContains pos.line = true) := by
  unfold SymbolKind.classify? at h
  dsimp only at h
  split at h
  · rename_i model
    split at h
    · rename_i start
      split at h
      · cases h
        exact ⟨model, fun _ => by simpa using start, nofun⟩
      · contradiction
    · split at h
      · rename_i body
        cases h
        simp only [Bool.and_eq_true] at body
        exact ⟨model, nofun, fun _ => body.1.1.1⟩
      · contradiction
  · rename_i enum
    split at h
    · rename_i start
      split at h
      · cases h
        exact ⟨enum, fun _ => by simpa using start, nofun⟩
      · contradiction
    · split at h
      · rename_i body
        cases h
        simp only [Bool.and_eq_true] at body
        exact ⟨enum, nofun, fun _ => body.1.1.1.1⟩
      · contradiction
  · contradiction

theorem Document.symbolAt?_eq_some_iff : doc.symbolAt? pos = some symbol ↔
    symbol.line = pos.line ∧ doc.blockAt? pos.line = some symbol.block ∧
      ∃ line, doc.line? pos.line = some line ∧
        SymbolKind.classify? pos line symbol.block = some symbol.kind ∧
        symbol.kind.currentName? symbol.block line = some symbol.name := by
  simp only [symbolAt?, Option.bind_eq_bind, Option.pure_def, Option.bind_eq_some_iff, Option.some.injEq]
  constructor
  · rintro ⟨line, there, block, owner, kind, classified, name, named, rfl⟩
    exact ⟨rfl, owner, line, there, classified, named⟩
  · rintro ⟨here, owner, line, there, classified, named⟩
    exact ⟨line, there, symbol.block, owner, symbol.kind, classified, symbol.name, named, by rw [← here]⟩

theorem Document.symbolAt?_declared (found : doc.symbolAt? pos = some symbol) : symbol.Declared doc := by
  obtain ⟨here, owner, line, there, classified, named⟩ := symbolAt?_eq_some_iff.mp found
  obtain ⟨member, -⟩ := blockAt?_eq_some_iff.mp owner
  obtain ⟨owned, opening, inside⟩ := classify?_eq_some classified
  unfold SymbolKind.currentName? at named
  refine ⟨member, owned, ?_, ?_⟩
  · intro isName
    rw [if_pos isName] at named
    exact ⟨(Option.some.inj named).symm, here.trans (opening isName)⟩
  · intro noName
    rw [if_neg (by simp [noName])] at named
    rw [here]
    exact ⟨inside noName, line, there, named⟩

namespace Symbol

theorem Declared.firstWord (declared : symbol.Declared doc) (noName : symbol.kind.isBlockName = false) :
    ∃ line lead rest, doc.line? symbol.line = some line ∧ FirstWord line lead symbol.name rest := by
  obtain ⟨-, line, there, first⟩ := declared.inside noName
  obtain ⟨ws, whole⟩ := List.head?_eq_some_iff.mp first
  obtain ⟨lead, rest, firstWord, -⟩ := words_eq_cons whole
  exact ⟨line, lead, rest, there, firstWord⟩

theorem declaration?_of_firstWord {line lead rest : Text} (noName : symbol.kind.isBlockName = false)
    (there : doc.line? symbol.line = some line) (first : FirstWord line lead symbol.name rest) :
    symbol.declaration? doc =
      some (.ofSpan symbol.line line (byteLength lead) (byteLength lead + byteLength symbol.name)) := by
  simp [declaration?, noName, there, first.span]

theorem Declared.name_ne_nil (declared : symbol.Declared doc) : symbol.name ≠ [] := by
  by_cases isName : symbol.kind.isBlockName = true
  · obtain ⟨line, lead, keyword, gap, tail, -, written, -⟩ := (Document.placed declared.member).written
    rw [(declared.opening isName).1]
    exact written.word.1
  · obtain ⟨line, lead, rest, -, first⟩ := declared.firstWord (Bool.eq_false_iff.mpr isName)
    exact first.solid.1

end Symbol

end SchemaServer
