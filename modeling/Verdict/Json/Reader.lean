import Verdict.Json.Basic
import Verdict.Json.Tree

/-!
The value of a JSON text. A tree has a value when its escapes spell characters, its numbers are
in range and it is nested less than 128 deep; of members with one name the last one counts.
-/
namespace Verdict.Json

def isHighSurrogate (code : Nat) : Bool := 0xD800 ≤ code && code < 0xDC00

def isLowSurrogate (code : Nat) : Bool := 0xDC00 ≤ code && code < 0xE000

def textOfPieces? : List Piece → Option Text
  | [] => some []
  | .char c :: rest => (textOfPieces? rest).map (c :: ·)
  | .unit high :: .unit low :: rest =>
    if isHighSurrogate high ∧ isLowSurrogate low then
      (textOfPieces? rest).map
        (Char.ofNat (0x10000 + (high - 0xD800) * 0x400 + (low - 0xDC00)) :: ·)
    else if isHighSurrogate high ∨ isLowSurrogate high then none
    else (textOfPieces? (.unit low :: rest)).map (Char.ofNat high :: ·)
  | .unit code :: rest =>
    if isHighSurrogate code ∨ isLowSurrogate code then none
    else (textOfPieces? rest).map (Char.ofNat code :: ·)

def maxDepth : Nat := 127

mutual
def ofTree? (depth : Nat) : Tree → Option Json
  | .null => some .null
  | .bool b => some (.bool b)
  | .number literal => (Literal.value? literal).map .number
  | .str pieces => (textOfPieces? pieces).map .str
  | .array items =>
    if depth = 0 then none else (ofItems? (depth - 1) items).map .array
  | .object members =>
    if depth = 0 then none
    else (ofMembers? (depth - 1) members).map fun entries => .object (Table.ofList entries)

def ofItems? (depth : Nat) : List Tree → Option (List Json)
  | [] => some []
  | item :: rest => do return (← ofTree? depth item) :: (← ofItems? depth rest)

def ofMembers? (depth : Nat) : List (List Piece × Tree) → Option (List (Text × Json))
  | [] => some []
  | (name, value) :: rest => do
    return (← textOfPieces? name, ← ofTree? depth value) :: (← ofMembers? depth rest)
end

def ofText? (t : Text) : Option Json := do ofTree? maxDepth (← Tree.ofText? t)

end Verdict.Json
