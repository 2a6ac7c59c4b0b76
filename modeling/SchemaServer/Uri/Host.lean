import SchemaServer.Text.Basic
import SchemaServer.Uri.Address
import SchemaServer.Uri.Folding
import SchemaServer.Uri.Encoding
import SchemaServer.Text.Quoted
import SchemaServer.Text.Encoding

/-! Hosts. A host of a known scheme is a name or an address, and its name is written in small ASCII letters.
The host of any other scheme stays as it is. -/
namespace SchemaServer.Uri

inductive Fault
  /-- No scheme starts the text, which could only be read from another address. -/
  | isRelative
  | emptyHost
  | badHostName
  | badShortAddress
  | badLongAddress
  /-- A character that no host of a scheme with rules of its own has. -/
  | badHostCharacter
  | badPort
  deriving DecidableEq

def Fault.message : Fault → Text
  | isRelative => "relative URL without a base".toList
  | emptyHost => "empty host".toList
  | badHostName => "invalid international domain name".toList
  | badShortAddress => "invalid IPv4 address".toList
  | badLongAddress => "invalid IPv6 address".toList
  | badHostCharacter => "invalid domain character".toList
  | badPort => "invalid port number".toList

def orFault {α : Type} (fault : Fault) (found : Option α) : Except Fault α :=
  found.elim (.error fault) .ok

def encodedLabelMark : Text := "xn--".toList

/-- Whether a label may hold characters beyond ASCII as it does. It starts with none that merges. -/
def isProperLabel (label : Text) : Bool :=
  label.all (fun c => c.toNat < 0x80 || !Text.isShapeless c) && !label.head?.any Text.isMerging

/-- A label in ASCII. An encoded label must stand for one that needs the encoding. -/
def asciiLabel? (label : Text) : Option Text :=
  match Text.after? encodedLabelMark label with
  | some code => do
    let plain ← Punycode.decode? code
    let isNeeded := plain.any (0x80 ≤ ·.toNat) && fold plain = plain
    if isNeeded && isProperLabel plain && label.all (·.toNat < 0x80) then some label else none
  | none =>
    if label.all (·.toNat < 0x80) then some label
    else if isProperLabel label then some (encodedLabelMark ++ Punycode.encode label)
    else none

/-- Characters that no host name has. -/
def isForbiddenInName (c : Char) : Bool :=
  c.toNat ≤ 0x20 || c.toNat = 0x7F || "%#/:<>?@[\\]^|".toList.contains c

def asciiName (s : Text) : Except Fault Text := do
  let labels ← orFault .badHostName ((Text.parts (· = '.') (fold s)).mapM asciiLabel?)
  let name := ['.'].intercalate labels
  if name.any isForbiddenInName then .error .badHostName
  else if name.isEmpty then .error .emptyHost
  else .ok name

/-- What stands between brackets, if a host starts with one. -/
def bracketed? (s : Text) : Option (Option Text) :=
  match s with
  | '[' :: rest => some (if rest.getLast? = some ']' then some rest.dropLast else none)
  | _ => none

def bracketedAddress (inner : Option Text) : Except Fault Text := do
  let address ← orFault .badLongAddress (inner.bind longAddress?)
  return ['['] ++ address ++ [']']

def knownHost (s : Text) : Except Fault Text :=
  match bracketed? s with
  | some inner => bracketedAddress inner
  | none => do
    let name ← asciiName (← orFault .badHostName (Text.ofUtf8? (decode s)))
    if endsInNumber name then orFault .badShortAddress (shortAddress? name) else return name

/-- Characters that no host of another scheme has. -/
def isForbiddenInHost (c : Char) : Bool := c = '\x00' || " #/:<>?@[\\]^|".toList.contains c

def otherHost (s : Text) : Except Fault Text :=
  match bracketed? s with
  | some inner => bracketedAddress inner
  | none => if s.any isForbiddenInHost then .error .badHostCharacter else .ok (encode [] s)

end SchemaServer.Uri
