import Verdict.Text

/-!
The operators of a condition, the tokens that spell them and the one token that writes them.
-/
namespace Verdict

inductive Operator where
  | equal
  | unequal
  | greater
  | greaterOrEqual
  | less
  | lessOrEqual
  | member
  | notMember
  | identical
  | notIdentical
  | subset
  | superset
  | intersects
deriving DecidableEq

namespace Operator

def all : List Operator :=
  [.equal, .unequal, .greater, .greaterOrEqual, .less, .lessOrEqual, .member, .notMember,
    .identical, .notIdentical, .subset, .superset, .intersects]

theorem mem_all (op : Operator) : op ∈ all := by cases op <;> decide

def tokens : Operator → List Text
  | .equal => ["=".toList, "==".toList, "eq".toList]
  | .unequal => ["!=".toList, "ne".toList, "≠".toList]
  | .greater => [">".toList, "gt".toList]
  | .greaterOrEqual => [">=".toList, "ge".toList, "≥".toList]
  | .less => ["<".toList, "lt".toList]
  | .lessOrEqual => ["<=".toList, "le".toList, "≤".toList]
  | .member => ["in".toList, "∈".toList]
  | .notMember => ["notin".toList, "∉".toList]
  | .identical => ["is".toList]
  | .notIdentical => ["isnot".toList]
  | .subset => ["⊆".toList]
  | .superset => ["⊇".toList]
  | .intersects => ["∩".toList]

def ofToken? (token : Text) : Option Operator :=
  all.find? fun op => op.tokens.contains (Text.folded token)

def write : Operator → Text
  | .equal => "==".toList
  | .unequal => "!=".toList
  | .greater => ">".toList
  | .greaterOrEqual => ">=".toList
  | .less => "<".toList
  | .lessOrEqual => "<=".toList
  | .member => "in".toList
  | .notMember => "notin".toList
  | .identical => "is".toList
  | .notIdentical => "isnot".toList
  | .subset => "⊆".toList
  | .superset => "⊇".toList
  | .intersects => "∩".toList

end Operator

inductive Connective where
  | and
  | or
deriving DecidableEq

def Connective.write : Connective → Text
  | .and => "and".toList
  | .or => "or".toList

end Verdict
