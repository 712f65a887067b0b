import Verdict.Binary64.Numeral
import Verdict.Operand
import Verdict.Operator
import Verdict.Number

/-!
The tokens of a rule. Each is recognised at the start of a text and gives what it spells with the
rest of the text. A word or a number ends where no letter, digit or underscore follows.
-/
namespace Verdict.Grammar

def isWordChar (c : Char) : Bool := c.isAlphanum || c == '_'

def wordEnds (t : Text) : Bool :=
  match t with
  | [] => true
  | c :: _ => !isWordChar c

def afterWord? (word : Text) (t : Text) : Option Text :=
  if Text.folded (t.take word.length) = word ∧ wordEnds (t.drop word.length) then
    some (t.drop word.length)
  else none

/-- No symbol follows a shorter one that it starts with. -/
def symbolTable : List (Text × Operator) :=
  [("==".toList, .equal), ("!=".toList, .unequal), (">=".toList, .greaterOrEqual),
    ("<=".toList, .lessOrEqual), ("=".toList, .equal), ("<".toList, .less), (">".toList, .greater),
    ("≠".toList, .unequal), ("≤".toList, .lessOrEqual), ("≥".toList, .greaterOrEqual),
    ("∈".toList, .member), ("∉".toList, .notMember), ("⊆".toList, .subset), ("⊇".toList, .superset),
    ("∩".toList, .intersects)]

def wordTable : List (Text × Operator) :=
  [("notin".toList, .notMember), ("isnot".toList, .notIdentical), ("eq".toList, .equal),
    ("ne".toList, .unequal), ("lt".toList, .less), ("le".toList, .lessOrEqual),
    ("gt".toList, .greater), ("ge".toList, .greaterOrEqual), ("in".toList, .member),
    ("is".toList, .identical)]

/-- The first word of the table that the text starts with decides, also if it does not end there. -/
def operator? (t : Text) : Option (Operator × Text) :=
  match symbolTable.find? fun entry => entry.1.isPrefixOf t with
  | some (symbol, op) => some (op, t.drop symbol.length)
  | none =>
    match wordTable.find? fun entry => Text.folded (t.take entry.1.length) = entry.1 with
    | some (word, op) =>
      if wordEnds (t.drop word.length) then some (op, t.drop word.length) else none
    | none => none

structure IntegerLiteral where
  negative : Bool
  digits : Text
  exponent : Option Text

def integer? (t : Text) : Option (IntegerLiteral × Text) := do
  let (negative, rest) := Text.spanSign t
  let (digits, rest) := Text.spanDigits rest
  guard (digits ≠ [])
  let (exponent, rest) := Numeral.spanExponent ['+'] rest
  guard (wordEnds rest)
  return (⟨negative, digits, exponent.map Prod.snd⟩, rest)

def real? (t : Text) : Option (Numeral × Text) := do
  let (negative, rest) := Text.spanSign t
  let (whole, rest) := Text.spanDigits rest
  let rest ← match rest with
    | '.' :: rest => some rest
    | _ => none
  let (fraction, rest) := Text.spanDigits rest
  guard (whole ≠ [] ∨ fraction ≠ [])
  let (exponent, rest) := Numeral.spanExponent ['+', '-'] rest
  guard (wordEnds rest)
  return (⟨negative, whole, fraction, exponent⟩, rest)

inductive NumeralError where
  | integerOutOfRange (literal : Text)
  | realOutOfRange (literal : Text)
deriving DecidableEq

/-- An exponent above 18 leaves the range of 64-bit integers by itself, whatever it multiplies. -/
def IntegerLiteral.value? (l : IntegerLiteral) : Option Int64 :=
  let n := Text.natOfDigits l.digits
  let mantissa : Int := if l.negative then -n else n
  let exponent := (l.exponent.map Text.natOfDigits).getD 0
  if 18 < exponent then none
  else
    let value := mantissa * (Nat.pow 10 exponent : Nat)
    if Number.fitsInt64 value then some (.ofInt value) else none

def consumed (t rest : Text) : Text := t.take (t.length - rest.length)

def integerOperand? (t : Text) : Option (Except NumeralError Operand × Text) := do
  let (literal, rest) ← integer? t
  match literal.value? with
  | some i => return (.ok (.int i), rest)
  | none => return (.error (.integerOutOfRange (consumed t rest)), rest)

def realOperand? (t : Text) : Option (Except NumeralError Operand × Text) := do
  let (literal, rest) ← real? t
  match literal.toBinary64 with
  | .finite x => return (.ok (.real (.finite x)), rest)
  | _ => return (.error (.realOutOfRange (consumed t rest)), rest)

/-- The content up to the given quote, as it stands. A backslash takes the next character along,
    whatever it is; otherwise a line does not end inside a string. -/
def contentUpTo? (quote : Char) : Text → Option (Text × Text)
  | [] => none
  | '\\' :: c :: rest =>
    (contentUpTo? quote rest).map fun (content, rest) => ('\\' :: c :: content, rest)
  | c :: rest =>
    if c = quote then some ([], rest)
    else if c = '\\' ∨ c = '\n' ∨ c = '\r' then none
    else (contentUpTo? quote rest).map fun (content, rest) => (c :: content, rest)

def string? : Text → Option (Text × Text)
  | '"' :: rest => contentUpTo? '"' rest
  | '\'' :: rest => contentUpTo? '\'' rest
  | _ => none

def boolean? (t : Text) : Option (Bool × Text) :=
  match afterWord? "true".toList t with
  | some rest => some (true, rest)
  | none => (afterWord? "false".toList t).map (false, ·)

def nothing? (t : Text) : Option (Unit × Text) := (afterWord? "none".toList t).map ((), ·)

def spanPath : Text → Text × Text
  | [] => ([], [])
  | '.' :: c :: rest =>
    if c.isAlpha then
      let (path, rest) := spanPath rest
      ('.' :: c :: path, rest)
    else ([], '.' :: c :: rest)
  | c :: rest =>
    if isWordChar c then
      let (path, rest) := spanPath rest
      (c :: path, rest)
    else ([], c :: rest)

def path? : Text → Option (Text × Text)
  | [] => none
  | c :: rest =>
    if c.isAlpha then
      let (path, rest) := spanPath rest
      some (c :: path, rest)
    else none

end Verdict.Grammar
