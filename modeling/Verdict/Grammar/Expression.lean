import Verdict.Sequence
import Verdict.Grammar.Reader
import Verdict.Grammar.Token

/-!
The grammar of rules. What a part spells is known only once its numerals are: the first numeral
that is out of range stands for the whole, but it does not stop the reading.

The grammar is built level by level over a budget of parentheses that may be open at once. Lists
of values and groups both take one from it.
-/
namespace Verdict.Grammar

abbrev Spelled (α : Type) := Except NumeralError α

def Spelled.all {α : Type} : List (Spelled α) → Spelled (List α)
  | [] => .ok []
  | first :: rest => do return (← first) :: (← Spelled.all rest)

open Reader

def value : Reader (Spelled Operand) :=
  choice [
    part .real (token realOperand?),
    part .integer (token integerOperand?),
    part .string (do return .ok (.str (← token string?))),
    part .boolean (do return .ok (.bool (← token boolean?))),
    part .nothing (do token nothing?; return .ok .nothing),
    part .propertyPath (do return .ok (.path (← token path?)))]

def valueList (allowed : Bool) : Reader (Spelled Operand) :=
  part .valueList do
    opening allowed
    let first ← value
    let more ← many (do symbol ','; value)
    symbol ')'
    return (Spelled.all (first :: more)).map .list

def operand (allowed : Bool) : Reader (Spelled Operand) := orElse (valueList allowed) value

def condition (allowed : Bool) : Reader (Spelled Node) :=
  part .condition do
    let left ← operand allowed
    let op ← part .operator (token operator?)
    let right ← operand allowed
    return do return .condition ⟨← left, op, ← right⟩

def connective : Reader Connective :=
  orElse
    (part .and (token fun t => (afterWord? "and".toList t).map (.and, ·)))
    (part .or (token fun t => (afterWord? "or".toList t).map (.or, ·)))

def group (inner : Option (Reader (Spelled Sequence))) : Reader (Spelled Node) :=
  part .group do
    opening inner.isSome
    let body ← inner.getD fail
    symbol ')'
    return body.map .group

/-- A parenthesis first counts as the start of a list of values. -/
def term (inner : Option (Reader (Spelled Sequence))) : Reader (Spelled Node) :=
  orElse (condition inner.isSome) (group inner)

def joinedTerm (inner : Option (Reader (Spelled Sequence))) :
    Reader (Connective × Spelled Node) := do
  let joint ← connective
  return (joint, ← term inner)

def Spelled.sequence (first : Spelled Node) : List (Connective × Spelled Node) → Spelled Sequence
  | [] => do return [← first]
  | (joint, next) :: more => do
    return (← first) :: .connective joint :: (← Spelled.sequence next more)

def level (inner : Option (Reader (Spelled Sequence))) : Reader (Spelled Sequence) :=
  part .expression do
    let first ← term inner
    let more ← many (joinedTerm inner)
    return Spelled.sequence first more

def expression : (budget : Nat) → Reader (Spelled Sequence)
  | 0 => level none
  | budget + 1 => level (some fun t => expression budget t)

def endOfInput : Reader Unit :=
  part .endOfInput fun t => if t = [] then ⟨.matched () [], id⟩ else ⟨.failed, id⟩

def main (budget : Nat) : Reader (Spelled Sequence) := do
  let spelled ← expression budget
  endOfInput
  return spelled

end Verdict.Grammar
