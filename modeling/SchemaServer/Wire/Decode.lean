import SchemaServer.QuickFix
import SchemaServer.Wire.Shape

/-! Positions, ranges, edits and diagnostics of values. A value in normal form has all the members that are
looked for; where one is missing, null and its likes stand in. -/
namespace SchemaServer

namespace Json

def get (value : Json) (key : String) : Json := (value.member? key).getD .null

def getText (value : Json) (key : String) : Text := (value.get key).text?.getD []

def getInt (value : Json) (key : String) : Int := (value.get key).int?.getD 0

def getNat (value : Json) (key : String) : Nat := (value.getInt key).toNat

def getItems (value : Json) (key : String) : List Json := (value.get key).items?.getD []

end Json

def Position.ofJson (value : Json) : Position := ⟨value.getNat "line", value.getNat "character"⟩

def Range.ofJson (value : Json) : Range :=
  ⟨.ofJson (value.get "start"), .ofJson (value.get "end")⟩

def Edit.ofJson (value : Json) : Edit := ⟨.ofJson (value.get "range"), value.getText "newText"⟩

def Edit.ofJson? (value : Json) : Option Edit := (Shape.edit.read? value).map Edit.ofJson

def Report.ofJson (value : Json) : Report :=
  ⟨.ofJson (value.get "range"), value.getText "message", value⟩

def Report.ofJson? (value : Json) : Option Report := (Shape.diagnostic.read? value).map Report.ofJson

end SchemaServer
