import Verdict.Text
import Verdict.Binary64.Rounding

/-!
Decimal numbers `digits * 10 ^ scale` and binary64: the exact reading, and the shortest decimal
that reads back as a given number.
-/
namespace Verdict.Binary64

structure Decimal where
  digits : Nat
  scale : Int
deriving DecidableEq

namespace Decimal

def quotient (d : Decimal) : Nat × Nat :=
  (d.digits * Nat.pow 10 d.scale.toNat, Nat.pow 10 (-d.scale).toNat)

/-- The nearest binary64 number. A scale far outside the range decides by itself, so that no
    power of ten larger than the range is ever formed. -/
def toBinary64 (negative : Bool) (d : Decimal) : Binary64 :=
  if d.digits = 0 then .finite (.zero negative)
  else if 400 < d.scale then .infinity negative
  else if d.scale + d.digits.log2 < -400 then .finite (.zero negative)
  else nearest negative d.quotient.1 d.quotient.2

def trimmed : Nat → Decimal → Decimal
  | 0, d => d
  | fuel + 1, d =>
    if d.digits ≠ 0 ∧ d.digits % 10 = 0 then trimmed fuel ⟨d.digits / 10, d.scale + 1⟩ else d

end Decimal

inductive Tie where
  | even
  | away
deriving DecidableEq

namespace Finite

def exactDecimal (x : Finite) : Decimal :=
  if 0 ≤ x.exponent then ⟨x.mantissa <<< x.exponent.toNat, 0⟩
  else ⟨x.mantissa * Nat.pow 5 (-x.exponent).toNat, x.exponent⟩

def reads (x : Finite) (d : Decimal) : Bool := d.toBinary64 x.negative == .finite x

def wholeDigits (x : Finite) : Int :=
  let (num, den) := x.quotient
  let guess := binaryExponent num den * 30103 / 100000 + 1
  if num * Nat.pow 10 (-guess).toNat < den * Nat.pow 10 guess.toNat then guess else guess + 1

/-- The neighbour of the magnitude on the grid of step `10 ^ scale` that reads back as the
    number; of two such neighbours the nearer, and at an equal distance as `tie` says. -/
def onGrid? (x : Finite) (tie : Tie) (scale : Int) : Option Decimal :=
  let num := x.quotient.1 * Nat.pow 10 (-scale).toNat
  let den := x.quotient.2 * Nat.pow 10 scale.toNat
  let low : Decimal := ⟨num / den, scale⟩
  let high : Decimal := ⟨num / den + 1, scale⟩
  let lowIsNearer :=
    if 2 * (num % den) = den then tie = .even ∧ low.digits % 2 = 0 else 2 * (num % den) < den
  match x.reads low, x.reads high with
  | true, true => some (if lowIsNearer then low else high)
  | true, false => some low
  | false, true => some high
  | false, false => none

/-- Tries ever finer grids; the exact expansion stands behind the last of them. -/
def shortestFrom (x : Finite) (tie : Tie) (scale : Int) : Nat → Decimal
  | 0 => x.exactDecimal
  | more + 1 => (x.onGrid? tie scale).getD (shortestFrom x tie (scale - 1) more)

def shortest (x : Finite) (tie : Tie) : Decimal :=
  if x.isZero then ⟨0, 0⟩
  else (x.shortestFrom tie (x.wholeDigits - 1) 17).trimmed 20

end Finite
end Verdict.Binary64
