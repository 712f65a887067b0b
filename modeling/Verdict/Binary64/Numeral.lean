import Verdict.Binary64.Decimal

/-!
Numbers as they are written in decimal, with a point and an exponent where there is one.
-/
namespace Verdict

structure Numeral where
  negative : Bool
  whole : Text
  fraction : Text
  exponent : Option (Bool × Text)

namespace Numeral

def spanExponent (signs : List Char) (t : Text) : Option (Bool × Text) × Text :=
  match t with
  | [] => (none, [])
  | c :: rest =>
    if c = 'e' ∨ c = 'E' then
      let signed := rest.head?.any (· ∈ signs)
      let negative := signed && rest.head? == some '-'
      match Text.spanDigits (if signed then rest.drop 1 else rest) with
      | ([], _) => (none, t)
      | (digits, rest) => (some (negative, digits), rest)
    else (none, t)

def power (n : Numeral) : Int :=
  match n.exponent with
  | none => 0
  | some (true, digits) => -Text.natOfDigits digits
  | some (false, digits) => Text.natOfDigits digits

def decimal (n : Numeral) : Binary64.Decimal :=
  ⟨Text.natOfDigits (n.whole ++ n.fraction), n.power - n.fraction.length⟩

def toBinary64 (n : Numeral) : Binary64 := n.decimal.toBinary64 n.negative

end Numeral
end Verdict
