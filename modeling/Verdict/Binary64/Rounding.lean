import Verdict.Binary64.Basic

/-!
Rounding of a quotient of natural numbers to binary64: the nearest number, and of two equally
near ones the number whose mantissa is even. A quotient beyond the range rounds to infinity.
-/
namespace Verdict.Binary64

/-- The nearest natural number to `num / den`; a half goes to the even neighbour. -/
def nearestNat (num den : Nat) : Nat :=
  let low := num / den
  let twice := 2 * (num % den)
  if twice < den then low
  else if den < twice then low + 1
  else low + low % 2

def shifted (num den : Nat) (exponent : Int) : Nat × Nat :=
  (num <<< (-exponent).toNat, den <<< exponent.toNat)

def binaryExponent (num den : Nat) : Int :=
  let guess : Int := (num.log2 : Int) - den.log2
  let (top, bottom) := shifted num den guess
  if top < bottom then guess - 1 else guess

def nearest (negative : Bool) (num den : Nat) : Binary64 :=
  if num = 0 then .finite (.zero negative)
  else
    let exponent := max (-1074) (binaryExponent num den - 52)
    let (top, bottom) := shifted num den exponent
    let mantissa := nearestNat top bottom
    let (mantissa, exponent) :=
      if mantissa = 9007199254740992 then (4503599627370496, exponent + 1) else (mantissa, exponent)
    if h : Canonical mantissa exponent then .finite ⟨negative, mantissa, exponent, h⟩
    else .infinity negative

namespace Finite

def quotient (x : Finite) : Nat × Nat :=
  (x.mantissa <<< x.exponent.toNat, 1 <<< (-x.exponent).toNat)

def mul (x y : Finite) : Binary64 :=
  let (a, b) := x.quotient
  let (c, d) := y.quotient
  nearest (x.negative != y.negative) (a * c) (b * d)

def div (x y : Finite) : Binary64 :=
  let (a, b) := x.quotient
  let (c, d) := y.quotient
  nearest (x.negative != y.negative) (a * d) (b * c)

end Finite
end Verdict.Binary64
