import SchemaServer.Text.Basic

/-! The tables of a TOML document while it is read. A table is closed to new members in each way in which
it was not begun: by a header, by dotted keys, or as a value. -/
namespace SchemaServer.Toml

inductive Item
  /-- A value; only the text of a string is kept. -/
  | value (text : Option Text)
  /-- A table; it is implicit until a header names it, and dotted if a dotted key began it. -/
  | table (isImplicit isDotted : Bool) (members : List (Text × Item))
  /-- A list of tables, of which only the last can still grow. -/
  | tables (last : List (Text × Item))
  deriving Inhabited

abbrev Members := List (Text × Item)

namespace Members

def find? (members : Members) (key : Text) : Option Item := members.lookup key

/-- Puts an item in the place of the one with that key, or at the end. -/
def put (members : Members) (key : Text) (item : Item) : Members :=
  if (find? members key).isSome then
    members.map fun (k, old) => (k, if k = key then item else old)
  else members ++ [(key, item)]

/-- Adds a value under a dotted key. Each table on the way must be implicit, the last of them dotted. -/
def insert (members : Members) : List Text → Text → Option Text → Option Members
  | [], key, text =>
    if (find? members key).isSome then none else some (members ++ [(key, .value text)])
  | first :: path, key, text =>
    match find? members first with
    | none => (insert [] path key text).map fun inner => members ++ [(first, .table true true inner)]
    | some (.table true isDotted inner) =>
      if path.isEmpty && !isDotted then none
      else (insert inner path key text).map fun inner => put members first (.table true isDotted inner)
    | some (.tables inner) =>
      if path.isEmpty then none
      else (insert inner path key text).map fun inner => put members first (.tables inner)
    | _ => none

/-- Changes the table that a path of a header leads to; missing tables on the way become implicit. -/
def change (members : Members) : List Text → (Members → Option Members) → Option Members
  | [], f => f members
  | first :: path, f =>
    match find? members first with
    | none => (change [] path f).map fun inner => members ++ [(first, .table true false inner)]
    | some (.table isImplicit isDotted inner) =>
      (change inner path f).map fun inner => put members first (.table isImplicit isDotted inner)
    | some (.tables inner) => (change inner path f).map fun inner => put members first (.tables inner)
    | some (.value _) => none

def openTable (members : Members) (path : List Text) (key : Text) : Option Members :=
  change members path fun inner =>
    match find? inner key with
    | none => some (put inner key (.table false false []))
    | some (.table true false old) => some (put inner key (.table false false old))
    | _ => none

def openListed (members : Members) (path : List Text) (key : Text) : Option Members :=
  change members path fun inner =>
    match find? inner key with
    | none | some (.tables _) => some (put inner key (.tables []))
    | _ => none

end Members

end SchemaServer.Toml
