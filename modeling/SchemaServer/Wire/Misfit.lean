import SchemaServer.Json.Print
import SchemaServer.Text.Quoted
import SchemaServer.Uri.Host

/-! Why a value does not have the shape that is expected of it. -/
namespace SchemaServer

inductive Misfit
  | kind (found : Json) (expected : Text)
  | range (found : Int) (expected : Text)
  | missing (name : String)
  /-- A list of another length than a record has members. -/
  | length (found : Nat) (expected : Text)
  /-- A word that is none of some. -/
  | word (found : Text) (choices : List String)
  /-- A value that has none of the shapes of a union. -/
  | union (name : String)
  | address (found : Text) (fault : Uri.Fault)

namespace Misfit

def inTicks (s : Text) : Text := '\x60' :: s ++ ['\x60']

/-- The kind of a value, with the value itself if it has no parts. -/
def kindText : Json → Text
  | .null => "null".toList
  | .bool b => "boolean ".toList ++ inTicks (Json.bool b).print
  | .int n => "integer ".toList ++ inTicks (Json.intText n)
  | .float isNegative magnitude => "floating point ".toList ++ inTicks (Json.floatText isNegative magnitude)
  | .string s => "string ".toList ++ Text.quoted s
  | .array _ => "sequence".toList
  | .object _ => "map".toList

def choicesText (choices : List String) : Text :=
  match choices.map fun choice => inTicks choice.toList with
  | [one] => one
  | [one, other] => one ++ " or ".toList ++ other
  | several => "one of ".toList ++ ", ".toList.intercalate several

def message : Misfit → Text
  | kind found expected => "invalid type: ".toList ++ kindText found ++ ", expected ".toList ++ expected
  | range found expected =>
    "invalid value: ".toList ++ kindText (.int found) ++ ", expected ".toList ++ expected
  | missing name => "missing field ".toList ++ inTicks name.toList
  | length found expected =>
    "invalid length ".toList ++ Nat.toDigits 10 found ++ ", expected ".toList ++ expected
  | word found choices =>
    "unknown variant ".toList ++ inTicks found ++ ", expected ".toList ++ choicesText choices
  | union name => "data did not match any variant of untagged enum ".toList ++ name.toList
  | address found fault => fault.message ++ ": ".toList ++ Text.quoted found

end Misfit

end SchemaServer
