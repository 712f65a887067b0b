import Verdict.Grammar.Expression

/-!
Reading the text of a rule. Parentheses are counted before the grammar runs, so that the grammar
never nests deeper than the limit; numerals out of range are reported last.
-/
namespace Verdict

inductive ParseError where
  | nestingTooDeep (limit : Nat)
  | unexpected (line column : Nat) (expected : List Grammar.Part)
  | numeral (error : Grammar.NumeralError)
  | shape (fault : Sequence.Fault)
deriving DecidableEq

namespace ParseError

def enumeration : List Text → Text
  | [] => []
  | [a] => a
  | [a, b] => a ++ " or ".toList ++ b
  | names =>
    Text.joined ", ".toList names.dropLast ++ ", or ".toList ++ names.getLast?.getD []

def message : ParseError → Text
  | .nestingTooDeep limit => "括号嵌套层数超过上限 ".toList ++ Text.ofNat limit
  | .unexpected line column expected =>
    "第 ".toList ++ Text.ofNat line ++ " 行第 ".toList ++ Text.ofNat column ++
      " 列: expected ".toList ++ enumeration (expected.map Grammar.Part.name)
  | .numeral (.integerOutOfRange literal) => "整数超出范围: '".toList ++ literal ++ ['\'']
  | .numeral (.realOutOfRange literal) => "实数超出范围: '".toList ++ literal ++ ['\'']
  | .shape fault => fault.message

end ParseError

namespace Query

/-- Whether parentheses outside of strings open more than `limit` deep. A string starts with
    either quote and ends with the same one; a backslash in it takes the next character along. -/
def nestsBeyond (limit : Nat) : (depth : Nat) → (quote : Option Char) → Text → Bool
  | _, _, [] => false
  | depth, some q, '\\' :: _ :: rest => nestsBeyond limit depth (some q) rest
  | depth, some q, c :: rest => nestsBeyond limit depth (if c = q then none else some q) rest
  | depth, none, c :: rest =>
    if c = '"' ∨ c = '\'' then nestsBeyond limit depth (some c) rest
    else if c = '(' then limit < depth + 1 || nestsBeyond limit (depth + 1) none rest
    else if c = ')' then nestsBeyond limit (depth - 1) none rest
    else nestsBeyond limit depth none rest

/-- Line and column, from 1, of the place after a text. A line ends with a line feed. -/
def position (before : Text) : Nat × Nat :=
  (before.count '\n' + 1, (before.reverse.takeWhile (· ≠ '\n')).length + 1)

def unexpected (query : Text) (attempts : Grammar.Attempts) : ParseError :=
  let (line, column) := position (query.take (query.length - attempts.remaining))
  .unexpected line column attempts.expected

def parse (limit : Nat) (query : Text) : Except ParseError Sequence :=
  if nestsBeyond limit 0 none query then .error (.nestingTooDeep limit)
  else
    let reading := Grammar.Reader.part .main (Grammar.main limit) query
    match reading.outcome with
    | .matched spelled _ => spelled.mapError .numeral
    | .failed => .error (unexpected query (reading.attempts (.start query)))
    | .exhausted => .error (.nestingTooDeep limit)

end Query
end Verdict
