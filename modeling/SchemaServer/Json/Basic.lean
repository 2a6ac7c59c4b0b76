import SchemaServer.Binary64
import SchemaServer.Text.Basic

/-! JSON values. Members keep their order. Integers of 64 bits are exact, and every other number is a
binary64 value, whose zero has a sign. -/
namespace SchemaServer

inductive Json
  | null
  | bool (value : Bool)
  | int (value : Int)
  | float (isNegative : Bool) (magnitude : Binary64)
  | string (value : Text)
  | array (items : List Json)
  | object (members : List (Text × Json))
  deriving Inhabited

namespace Json

def nat (n : Nat) : Json := .int n

def ofString (s : String) : Json := .string s.toList

def ofMembers (members : List (String × Json)) : Json :=
  .object (members.map fun (key, value) => (key.toList, value))

/-- The last member of that name. -/
def member? (value : Json) (key : String) : Option Json :=
  match value with
  | .object members => (members.reverse.find? (·.1 = key.toList)).map Prod.snd
  | _ => none

def text? : Json → Option Text
  | .string s => some s
  | _ => none

def int? : Json → Option Int
  | .int n => some n
  | _ => none

def nat? (value : Json) : Option Nat :=
  match value.int? with
  | some (.ofNat n) => some n
  | _ => none

def items? : Json → Option (List Json)
  | .array items => some items
  | _ => none

def isNull : Json → Bool
  | .null => true
  | _ => false

/-- A member that is there and not null. -/
def given? (value : Json) (key : String) : Option Json :=
  (value.member? key).filter (!·.isNull)

def putMember (member : Text × Json) : List (Text × Json) → List (Text × Json)
  | [] => [member]
  | next :: rest =>
    if member.1 = next.1 then next :: rest
    else if member.1 < next.1 then member :: next :: rest
    else next :: putMember member rest

mutual

/-- The value with the members of each object in ascending order; of repeated ones the last counts. -/
def sorted : Json → Json
  | .array items => .array (sortedItems items)
  | .object members => .object (sortedMembers members)
  | other => other

def sortedItems : List Json → List Json
  | [] => []
  | item :: rest => sorted item :: sortedItems rest

def sortedMembers : List (Text × Json) → List (Text × Json)
  | [] => []
  | (key, value) :: rest => putMember (key, sorted value) (sortedMembers rest)

end

def set (value : Json) (key : String) (new : Json) : Json :=
  match value with
  | .object members => .object (members.filter (·.1 ≠ key.toList) ++ [(key.toList, new)])
  | other => other

end Json

end SchemaServer
