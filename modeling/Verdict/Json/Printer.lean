import Verdict.Json.Basic
import Verdict.Binary64.Notation

/-!
The compact JSON text of a value: no blanks, members in the order of their names.
-/
namespace Verdict.Json

/-- Reals are plain from `0.00001` up to sixteen digits before the point; an exponent carries
    its sign, and a tie goes to the even digit. -/
def realNotation : Binary64.Notation where
  plainFrom := -5
  plainBelow := 16
  signedExponent := true
  pointedExponent := false
  tie := .even

def hexDigit (n : Nat) : Char := Nat.digitChar n

def escaped (c : Char) : Text :=
  if c = '"' then ['\\', '"']
  else if c = '\\' then ['\\', '\\']
  else if c = '\x08' then ['\\', 'b']
  else if c = '\x0c' then ['\\', 'f']
  else if c = '\n' then ['\\', 'n']
  else if c = '\r' then ['\\', 'r']
  else if c = '\t' then ['\\', 't']
  else if c < ' ' then
    ['\\', 'u', '0', '0', hexDigit (c.toNat / 16), hexDigit (c.toNat % 16)]
  else [c]

def quoted (content : Text) : Text := '"' :: (content.flatMap escaped ++ ['"'])

def numeral : Number → Text
  | .int i => Text.ofInt i
  | .real x => realNotation.write x

mutual
def write : Json → Text
  | .null => "null".toList
  | .bool true => "true".toList
  | .bool false => "false".toList
  | .number n => numeral n
  | .str content => quoted content
  | .array items => '[' :: (Text.joined [','] (writeItems items) ++ [']'])
  | .object members => '\x7b' :: (Text.joined [','] (writeMembers members) ++ ['\x7d'])

def writeItems : List Json → List Text
  | [] => []
  | item :: rest => write item :: writeItems rest

def writeMembers : List (Text × Json) → List Text
  | [] => []
  | (name, value) :: rest => (quoted name ++ ':' :: write value) :: writeMembers rest
end

end Verdict.Json
