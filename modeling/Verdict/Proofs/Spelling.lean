import Mathlib
import Verdict.Query

/-!
Which texts spell which sequence. The rules have no order and nothing is tried before anything
else: a phrase is spelled wherever its parts are, side by side or with blanks between them.
-/
namespace Verdict.Grammar

-- What holds of every character of a text is decided along the text, not for all characters.
instance (priority := high) decidableAlong (p : Char → Prop) [DecidablePred p] (t : Text) :
    Decidable (∀ c ∈ t, p c) := List.decidableBAll p t

instance (priority := high) decidableAt (p : Char → Prop) [DecidablePred p] (c : Option Char) :
    Decidable (∀ d ∈ c, p d) := Option.decidableForallMem c

def Blank (t : Text) : Prop := ∀ c ∈ t, Text.isBlank c

/-- Of all tokens only words and numbers end with a word character or, as `1.` does, a point. -/
def endsOpen (t : Text) : Bool := t.getLast?.any fun c => isWordChar c || c == '.'

/-- A word or a number does not run into a letter, a digit or an underscore. -/
def Seam (a b : Text) : Prop := endsOpen a → wordEnds b

/-- `Joins a b t`: the text `t` is `a`, then any run of blanks, then `b`. -/
inductive Joins (a b : Text) : Text → Prop where
  | intro (blanks : Text) (blank : Blank blanks) (seam : Seam a (blanks ++ b)) :
      Joins a b (a ++ (blanks ++ b))

def Digits (t : Text) : Prop := ∀ c ∈ t, c.isDigit

inductive SpellsSign : Text → Bool → Prop where
  | absent : SpellsSign [] false
  | plus : SpellsSign ['+'] false
  | minus : SpellsSign ['-'] true

inductive SpellsExponent (signs : List Char) : Text → Option (Bool × Text) → Prop where
  | absent : SpellsExponent signs [] none
  | unsigned {e : Char} {digits : Text} (letter : e = 'e' ∨ e = 'E')
      (valid : Digits digits) (nonempty : digits ≠ []) :
      SpellsExponent signs (e :: digits) (some (false, digits))
  | signed {e sign : Char} {digits : Text} (letter : e = 'e' ∨ e = 'E') (allowed : sign ∈ signs)
      (valid : Digits digits) (nonempty : digits ≠ []) :
      SpellsExponent signs (e :: sign :: digits) (some (sign == '-', digits))

inductive SpellsInteger : Text → IntegerLiteral → Prop where
  | intro {sign digits tail : Text} {negative : Bool} {exponent : Option (Bool × Text)}
      (signed : SpellsSign sign negative) (valid : Digits digits) (nonempty : digits ≠ [])
      (scaled : SpellsExponent ['+'] tail exponent) :
      SpellsInteger (sign ++ (digits ++ tail)) ⟨negative, digits, exponent.map Prod.snd⟩

inductive SpellsReal : Text → Numeral → Prop where
  | intro {sign whole fraction tail : Text} {negative : Bool} {exponent : Option (Bool × Text)}
      (signed : SpellsSign sign negative) (validWhole : Digits whole)
      (validFraction : Digits fraction) (nonempty : whole ≠ [] ∨ fraction ≠ [])
      (scaled : SpellsExponent ['+', '-'] tail exponent) :
      SpellsReal (sign ++ (whole ++ '.' :: (fraction ++ tail)))
        ⟨negative, whole, fraction, exponent⟩

/-- The content may stand between two of the given quotes. A backslash takes the next character
    along, and must find one. -/
def Fits (quote : Char) : Text → Prop
  | [] => True
  | '\\' :: _ :: rest => Fits quote rest
  | c :: rest => c ≠ quote ∧ c ≠ '\\' ∧ c ≠ '\n' ∧ c ≠ '\r' ∧ Fits quote rest

def Identifier (t : Text) : Prop :=
  ∃ c rest, t = c :: rest ∧ c.isAlpha ∧ ∀ d ∈ rest, isWordChar d

def valueWords : List Text := ["true".toList, "false".toList, "none".toList]

inductive IsPath : Text → Prop where
  | intro {first : Text} {more : List Text} (start : Identifier first)
      (parts : ∀ part ∈ more, Identifier part) (free : Text.folded first ∉ valueWords) :
      IsPath (Text.joined ['.'] (first :: more))

inductive SpellsScalar : Text → Operand → Prop where
  | int {t : Text} {literal : IntegerLiteral} {i : Int64} (spelled : SpellsInteger t literal)
      (value : literal.value? = some i) : SpellsScalar t (.int i)
  | real {t : Text} {numeral : Numeral} {x : Binary64.Finite} (spelled : SpellsReal t numeral)
      (value : numeral.toBinary64 = .finite x) : SpellsScalar t (.real (.finite x))
  | str {quote : Char} {content : Text} (isQuote : quote = '"' ∨ quote = '\'')
      (fits : Fits quote content) : SpellsScalar (quote :: (content ++ [quote])) (.str content)
  | yes {t : Text} (word : Text.folded t = "true".toList) : SpellsScalar t (.bool true)
  | no {t : Text} (word : Text.folded t = "false".toList) : SpellsScalar t (.bool false)
  | nothing {t : Text} (word : Text.folded t = "none".toList) : SpellsScalar t .nothing
  | path {p : Text} (isPath : IsPath p) : SpellsScalar p (.path p)

inductive Parenthesized (inner : Text) : Text → Prop where
  | intro {front t : Text} (opening : Joins ['('] inner front) (closing : Joins front [')'] t) :
      Parenthesized inner t

inductive SpellsItems : Text → List Operand → Prop where
  | last {t : Text} {item : Operand} (scalar : SpellsScalar t item) : SpellsItems t [item]
  | more {first front rest t : Text} {item : Operand} {items : List Operand}
      (scalar : SpellsScalar first item) (comma : Joins first [','] front)
      (others : SpellsItems rest items) (joins : Joins front rest t) :
      SpellsItems t (item :: items)

inductive SpellsOperand : Text → Operand → Prop where
  | scalar {t : Text} {v : Operand} (spelled : SpellsScalar t v) : SpellsOperand t v
  | list {inner t : Text} {items : List Operand} (spelled : SpellsItems inner items)
      (around : Parenthesized inner t) : SpellsOperand t (.list items)

def SpellsOperator (t : Text) (op : Operator) : Prop := Text.folded t ∈ op.tokens

inductive SpellsConnective : Text → Connective → Prop where
  | and {t : Text} (word : Text.folded t = "and".toList) : SpellsConnective t .and
  | or {t : Text} (word : Text.folded t = "or".toList) : SpellsConnective t .or

inductive SpellsCondition : Text → Condition → Prop where
  | intro {l o r front t : Text} {left right : Operand} {op : Operator}
      (leftSpelled : SpellsOperand l left) (operator : SpellsOperator o op)
      (rightSpelled : SpellsOperand r right) (joinsLeft : Joins l o front)
      (joinsRight : Joins front r t) : SpellsCondition t ⟨left, op, right⟩

/-- A term is a condition or a group, and by itself a sequence of one node. -/
inductive SpellsTerms : Text → Sequence → Prop where
  | condition {t : Text} {c : Condition} (spelled : SpellsCondition t c) :
      SpellsTerms t [.condition c]
  | group {inner t : Text} {body : Sequence} (spelled : SpellsTerms inner body)
      (around : Parenthesized inner t) : SpellsTerms t [.group body]
  | joined {first joint front rest t : Text} {node : Node} {c : Connective} {nodes : Sequence}
      (term : SpellsTerms first [node]) (connective : SpellsConnective joint c)
      (others : SpellsTerms rest nodes) (joinsJoint : Joins first joint front)
      (joinsRest : Joins front rest t) : SpellsTerms t (node :: .connective c :: nodes)

inductive Spells : Text → Sequence → Prop where
  | intro {before t after : Text} {nodes : Sequence} (blankBefore : Blank before)
      (spelled : SpellsTerms t nodes) (blankAfter : Blank after) :
      Spells (before ++ (t ++ after)) nodes

end Verdict.Grammar

namespace Verdict

mutual
/-- How many parentheses of a list are open at once in its text. -/
def Operand.nesting : Operand → Nat
  | .list items => Operand.maxNesting items + 1
  | _ => 0

def Operand.maxNesting : List Operand → Nat
  | [] => 0
  | item :: rest => max item.nesting (Operand.maxNesting rest)
end

def Condition.nesting (c : Condition) : Nat := max c.left.nesting c.right.nesting

mutual
/-- How many parentheses, of groups or lists, are open at once in the text of a node. -/
def Node.nesting : Node → Nat
  | .condition c => c.nesting
  | .connective _ => 0
  | .group body => Node.maxNesting body + 1

def Node.maxNesting : List Node → Nat
  | [] => 0
  | node :: rest => max node.nesting (Node.maxNesting rest)
end

def Sequence.nesting (nodes : Sequence) : Nat := Node.maxNesting nodes

end Verdict
