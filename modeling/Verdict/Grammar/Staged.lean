import Verdict.Error
import Verdict.Text.Case

/-!
Reading the text of a rule in two stages: the grammar takes the text of each operator, and the table
of operators says which one that is, by its small letters in all scripts.
-/
namespace Verdict

/-- The operator of a token in small letters, with a rule for the sigma that ends a word. -/
def Operator.lookUp (final : Text → Text → Bool) (token : Text) : Except Error Operator :=
  match all.find? fun op => op.tokens.contains (Text.lowered final [] token) with
  | some op => .ok op
  | none => .error (.unknownOperator token)

namespace Grammar

def operatorText? (t : Text) : Option (Text × Text) :=
  (operator? t).map fun (_, rest) => (consumed t rest, rest)

def raised {α : Type} (spelled : Spelled α) : Except Error α :=
  spelled.mapError fun e => .parse (.numeral e)

namespace Staged
open Reader

def build (left : Except Error Operand) (op : Except Error Operator)
    (right : Except Error Operand) : Except Error Node := do
  return .condition ⟨← left, ← op, ← right⟩

def condition (final : Text → Text → Bool) (allowed : Bool) : Reader (Except Error Node) :=
  part .condition do
    let left ← operand allowed
    let token ← part .operator (token operatorText?)
    let right ← operand allowed
    return build (raised left) (Operator.lookUp final token) (raised right)

def group (inner : Option (Reader (Except Error Sequence))) : Reader (Except Error Node) :=
  part .group do
    opening inner.isSome
    let body ← inner.getD fail
    symbol ')'
    return body.map .group

def term (final : Text → Text → Bool) (inner : Option (Reader (Except Error Sequence))) :
    Reader (Except Error Node) :=
  orElse (condition final inner.isSome) (group inner)

def joinedTerm (final : Text → Text → Bool) (inner : Option (Reader (Except Error Sequence))) :
    Reader (Connective × Except Error Node) := do
  let joint ← connective
  return (joint, ← term final inner)

def sequence (first : Except Error Node) :
    List (Connective × Except Error Node) → Except Error Sequence
  | [] => do return [← first]
  | (joint, next) :: more => do
    return (← first) :: .connective joint :: (← sequence next more)

def level (final : Text → Text → Bool) (inner : Option (Reader (Except Error Sequence))) :
    Reader (Except Error Sequence) :=
  part .expression do
    let first ← term final inner
    let more ← many (joinedTerm final inner)
    return sequence first more

def expression (final : Text → Text → Bool) : (budget : Nat) → Reader (Except Error Sequence)
  | 0 => level final none
  | budget + 1 => level final (some (expression final budget))

def main (final : Text → Text → Bool) (budget : Nat) : Reader (Except Error Sequence) := do
  let built ← expression final budget
  endOfInput
  return built

end Staged
end Grammar

/-- Reads a rule by its grammar first and the table of operators then. -/
def Query.parseByTable (final : Text → Text → Bool) (limit : Nat) (query : Text) :
    Except Error Sequence :=
  if nestsBeyond limit 0 none query then .error (.parse (.nestingTooDeep limit))
  else
    let reading := Grammar.Reader.part .main (Grammar.Staged.main final limit) query
    match reading.outcome with
    | .matched built _ => built
    | .failed => .error (.parse (unexpected query (reading.attempts (.start query))))
    | .exhausted => .error (.parse (.nestingTooDeep limit))

end Verdict
