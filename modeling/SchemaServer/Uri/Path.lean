import SchemaServer.Uri.Encoding
import SchemaServer.Text.Parts

/-! Paths as lists of segments. One dot stands for the same place and two dots for the place above it; a dot
may be encoded. -/
namespace SchemaServer.Uri

def isDot (segment : Text) : Bool :=
  ["." , "%2e"].any (·.toList = segment.map Char.toLower)

def isDoubleDot (segment : Text) : Bool :=
  ["..", ".%2e", "%2e.", "%2e%2e"].any (·.toList = segment.map Char.toLower)

/-- A letter with a colon or a bar. -/
def isDrive (segment : Text) : Bool :=
  match segment with
  | [letter, mark] => letter.isAlpha && (mark = ':' || mark = '|')
  | _ => false

/-- The place above; there is none above a drive or above the root. -/
def placeAbove (segments : List Text) : List Text :=
  if segments.getLast?.any isDrive then segments else segments.dropLast

/-- Follows segments from a place on. Behind dots at the end the path ends with a slash. -/
def follow (place : List Text) : List Text → List Text
  | [] => place
  | segment :: rest =>
    let last := if rest.isEmpty then [[]] else []
    if isDoubleDot segment then follow (placeAbove place ++ last) rest
    else if isDot segment then follow (place ++ last) rest
    else follow (place ++ [segment]) rest

/-- The segments of a path behind its first slash. A known scheme takes a backslash for a slash. -/
def segments (isKnown : Bool) (s : Text) : List Text :=
  let isSeparator (c : Char) : Bool := c = '/' || (isKnown && c = '\\')
  follow [] ((Text.parts isSeparator s).map (encode pathSet))

def pathText (segments : List Text) : Text := segments.flatMap ('/' :: ·)

/-- Leaves out empty segments at the start, but not the last one. -/
def dropEmptyStart : List Text → List Text
  | [] :: next :: rest => dropEmptyStart (next :: rest)
  | segments => segments

end SchemaServer.Uri
