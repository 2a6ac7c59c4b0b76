import SchemaServer.Position

/-! A document is a text with its lines. Lines end at a line feed, a carriage return or the two
together, and nowhere else; a text that ends in a line break has an empty last line. -/
namespace SchemaServer

inductive LineBreak
  | feed
  | carriage
  | both
  deriving DecidableEq

namespace LineBreak

def text : LineBreak → Text
  | feed => ['\n']
  | carriage => ['\r']
  | both => ['\r', '\n']

end LineBreak

/-- A line with the break that ends it; only the last line of a text has none. -/
structure Piece where
  line : Text
  ending : Option LineBreak
  deriving DecidableEq

namespace Piece

def text (p : Piece) : Text := p.line ++ p.ending.elim [] LineBreak.text

/-- Puts a character in front of a cut text. -/
def push (c : Char) (pieces : List Piece) : List Piece :=
  if c = '\n' then ⟨[], some .feed⟩ :: pieces
  else if c = '\r' then
    match pieces with
    | ⟨[], some .feed⟩ :: rest => ⟨[], some .both⟩ :: rest
    | _ => ⟨[], some .carriage⟩ :: pieces
  else
    match pieces with
    | p :: rest => ⟨c :: p.line, p.ending⟩ :: rest
    | [] => [⟨[c], none⟩]

def ofText (s : Text) : List Piece := s.foldr push [⟨[], none⟩]

/-- Position of a byte offset in a text cut into pieces, the first of which is line `row`. An offset
inside a line break counts as the end of its line, one past the end as the end of the text. -/
def positionIn (row : Nat) : List Piece → Nat → Position
  | [], _ => ⟨row, 0⟩
  | p :: rest, byte =>
    let size := Text.byteLength p.text
    if rest.isEmpty || byte < size then ⟨row, Text.columnAt p.line byte⟩
    else positionIn (row + 1) rest (byte - size)

end Piece

/-- One version of a text; its lines are kept beside it. -/
structure Document where
  text : Text
  version : Int
  lines : List Text := (Piece.ofText text).map Piece.line
  lines_eq : lines = (Piece.ofText text).map Piece.line := by rfl

namespace Document

variable (doc : Document)

def ofText (text : Text) (version : Int) : Document := { text, version }

def line? (row : Nat) : Option Text := doc.lines[row]?

def lineCount : Nat := doc.lines.length

/-- UTF-16 length of a line; zero for a line that does not exist. -/
def width (row : Nat) : Nat := (doc.line? row).elim 0 Text.unitLength

def fullRange : Range :=
  let last := doc.lineCount - 1
  ⟨⟨0, 0⟩, ⟨last, doc.width last⟩⟩

def rows : List (Text × Nat) := doc.lines.zipIdx

def rowsBetween (first stop : Nat) : List (Text × Nat) := (doc.rows.drop first).take (stop - first)

def positionAtByte (byte : Nat) : Position := Piece.positionIn 0 (Piece.ofText doc.text) byte

end Document

end SchemaServer
