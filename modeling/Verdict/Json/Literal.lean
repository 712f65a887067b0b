import Verdict.Number
import Verdict.Binary64.Numeral

/-!
Number literals of JSON and the numbers that they denote. A literal with neither fraction nor
exponent is an integer as long as it fits a 64-bit word. Any other is a real, read in two
roundings: first its leading digits, as many as fit a word, then their product with a power
of ten. A real beyond the range has no value.
-/
namespace Verdict.Json

namespace Literal

def spanFraction? : Text → Option (Text × Text)
  | '.' :: rest =>
    match Text.spanDigits rest with
    | ([], _) => none
    | (digits, rest) => some (digits, rest)
  | t => some ([], t)

/-- A zero at the start is the whole of its integer part. -/
def read (t : Text) : Option (Numeral × Text) := do
  let (negative, rest) := match t with
    | '-' :: rest => (true, rest)
    | _ => (false, t)
  let (whole, rest) := Text.spanDigits rest
  guard (whole.length = 1 ∨ (whole ≠ [] ∧ whole.head? ≠ some '0'))
  let (fraction, rest) ← spanFraction? rest
  let (exponent, rest) := Numeral.spanExponent ['+', '-'] rest
  return (⟨negative, whole, fraction, exponent⟩, rest)

def fill (significand : Nat) : Text → Nat × Text
  | [] => (significand, [])
  | c :: rest =>
    let next := 10 * significand + (c.toNat - '0'.toNat)
    if next ≤ Number.maxWord then fill next rest else (significand, c :: rest)

/-- The significand that fits a word and the power of ten that belongs to it. Digits of the
    integer part that do not fit still count as places, those of the fraction do not. -/
def parts (n : Numeral) : Nat × Int :=
  let (significand, left) := fill 0 n.whole
  let (significand, dropped) := fill significand n.fraction
  (significand, left.length - (n.fraction.length - dropped.length) + n.power)

def tenTo (exponent : Nat) : Option Binary64.Finite :=
  (Binary64.nearest false (Nat.pow 10 exponent) 1).finite?

/-- The significand times a power of ten. Below `10 ^ -308` the division takes two steps, and
    two steps of any word end at zero. -/
def scale (significand : Nat) (power : Int) : Option Binary64.Finite := do
  let x ← (Binary64.nearest false significand 1).finite?
  if x.isZero then return x
  else if 308 < power then none
  else if 0 ≤ power then (x.mul (← tenTo power.toNat)).finite?
  else if -308 ≤ power then (x.div (← tenTo (-power).toNat)).finite?
  else if -616 ≤ power then
    let y ← (x.div (← tenTo 308)).finite?
    (y.div (← tenTo (-power - 308).toNat)).finite?
  else return .zero false

def real? (n : Numeral) : Option Binary64.Finite := do
  let (significand, power) := parts n
  let x ← scale significand power
  return { x with negative := n.negative }

def value? (n : Numeral) : Option Number :=
  let integer := Text.natOfDigits n.whole
  let plain := n.fraction = [] ∧ n.exponent = none
  if plain ∧ !n.negative ∧ integer ≤ Number.maxWord then some (.int integer)
  else if plain ∧ n.negative ∧ 0 < integer ∧ Number.fitsInt64 (-integer) then some (.int (-integer))
  else (real? n).map .real

end Literal
end Verdict.Json
