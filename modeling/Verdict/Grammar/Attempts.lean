import Verdict.Text

/-!
What the grammar remembers of its failures: the furthest place where a part of a rule could not
be read, and the parts that were tried there. A part that fails after a single attempt inside it
leaves that attempt in its place; otherwise it stands for all that was tried inside it.
-/
namespace Verdict.Grammar

/-- The parts that an error can name, in the order in which it names them. -/
inductive Part where
  | endOfInput
  | main
  | expression
  | group
  | condition
  | valueList
  | and
  | or
  | operator
  | real
  | integer
  | string
  | boolean
  | nothing
  | propertyPath
deriving DecidableEq

namespace Part

def all : List Part :=
  [.endOfInput, .main, .expression, .group, .condition, .valueList, .and, .or, .operator, .real,
    .integer, .string, .boolean, .nothing, .propertyPath]

def name : Part → Text
  | .endOfInput => "EOI".toList
  | .main => "main".toList
  | .expression => "expression".toList
  | .group => "group".toList
  | .condition => "condition".toList
  | .valueList => "value_list".toList
  | .and => "and".toList
  | .or => "or".toList
  | .operator => "operator".toList
  | .real => "real".toList
  | .integer => "integer".toList
  | .string => "string".toList
  | .boolean => "boolean".toList
  | .nothing => "none".toList
  | .propertyPath => "property_path".toList

end Part

structure Attempts where
  remaining : Nat
  parts : List Part
deriving DecidableEq

namespace Attempts

def start (t : Text) : Attempts := ⟨t.length, []⟩

def countAt (attempts : Attempts) (remaining : Nat) : Nat :=
  if remaining = attempts.remaining then attempts.parts.length else 0

/-- Adds a part that failed, given what was known before and after its reading. -/
def note (part : Part) (remaining : Nat) (before after : Attempts) : Attempts :=
  let known := before.countAt remaining
  if after.countAt remaining = known + 1 then after
  else if remaining = after.remaining then ⟨remaining, after.parts.take known ++ [part]⟩
  else if remaining < after.remaining then ⟨remaining, [part]⟩
  else after

def expected (attempts : Attempts) : List Part := Part.all.filter (· ∈ attempts.parts)

end Attempts
end Verdict.Grammar
