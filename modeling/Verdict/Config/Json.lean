import Verdict.Config.Basic
import Verdict.Json.Reader

/-!
Settings in JSON: an object with any of them, or an array of the first of them in order. Values
are taken as they are, without conversion. Other members of an object are skipped, so it does not
matter whether their values make sense; a setting that is given twice is refused.
-/
namespace Verdict.Config
open Json (Tree Piece)

def boolOfTree? : Tree → Option Bool
  | .bool b => some b
  | _ => none

def depthOfTree? : Tree → Option Nat
  | .number literal =>
    match Json.Literal.value? literal with
    | some (.int (.ofNat n)) => some n
    | _ => none
  | _ => none

def Found.ofMembers? (found : Found) : List (List Piece × Tree) → Option Found
  | [] => some found
  | (name, value) :: rest => do
    let name ← Json.textOfPieces? name
    let found ← found.addMember? boolOfTree? depthOfTree? name value
    found.ofMembers? rest

def ofItems? : List Tree → Option Config
  | [] => some standard
  | [lazy] => do return { standard with lazy := ← boolOfTree? lazy }
  | [lazy, depth] => do
    return { standard with
      lazy := ← boolOfTree? lazy
      maxNestingDepth := ← depthOfTree? depth }
  | [lazy, depth, trace] => do
    return ⟨← boolOfTree? lazy, ← depthOfTree? depth, ← boolOfTree? trace⟩
  | _ => none

def ofTree? : Tree → Option Config
  | .object members => (Found.nothing.ofMembers? members).map Found.complete
  | .array items => ofItems? items
  | _ => none

def ofJsonText? (t : Text) : Option Config := do ofTree? (← Tree.ofText? t)

end Verdict.Config
