import Verdict.Binary64.Basic

/-!
Numbers as values carry them: integers of a 64-bit word and finite binary64 numbers. A real is an
integer times a power of two, so reals are compared on the finer of two powers; an integer meets a
real through the real's floor. Nothing is rounded.
-/
namespace Verdict

inductive Number where
  | int (i : Int)
  | real (x : Binary64.Finite)
deriving DecidableEq

namespace Number

def maxWord : Nat := UInt64.size - 1

def fitsInt64 (i : Int) : Bool := Int64.minValue.toInt ≤ i && i ≤ Int64.maxValue.toInt

/-- An integer fits a word of 64 bits, signed or unsigned. -/
def InRange : Number → Prop
  | .int i => Int64.minValue.toInt ≤ i ∧ i ≤ maxWord
  | .real _ => True

instance : DecidablePred InRange
  | .int i => inferInstanceAs (Decidable (Int64.minValue.toInt ≤ i ∧ i ≤ maxWord))
  | .real _ => inferInstanceAs (Decidable True)

structure Dyadic where
  coefficient : Int
  power : Int

def Dyadic.ofReal (x : Binary64.Finite) : Dyadic := ⟨x.signed, x.exponent⟩

def Dyadic.at (d : Dyadic) (power : Int) : Int :=
  d.coefficient * (1 <<< (d.power - power).toNat : Nat)

def Dyadic.order (a b : Dyadic) : Ordering :=
  let low := min a.power b.power
  compare (a.at low) (b.at low)

def Dyadic.floor (d : Dyadic) : Int :=
  if 0 ≤ d.power then d.at 0 else d.coefficient >>> (-d.power).toNat

/-- An integer of 128 bits against a real. Those integers end at `2 ^ 127` on both sides of zero,
    so a real out there decides by itself; the floor of any other is one of them. -/
def orderIntReal (i : Int) (x : Dyadic) : Ordering :=
  if x.order ⟨1, 127⟩ ≠ .lt then .lt
  else if x.order ⟨-1, 127⟩ = .lt then .gt
  else
    match compare i x.floor with
    | .eq => if Dyadic.order ⟨x.floor, 0⟩ x = .lt then .lt else .eq
    | other => other

def order : Number → Number → Ordering
  | .int a, .int b => compare a b
  | .int a, .real b => orderIntReal a (.ofReal b)
  | .real a, .int b => (orderIntReal b (.ofReal a)).swap
  | .real a, .real b => (Dyadic.ofReal a).order (.ofReal b)

def isReal : Number → Bool
  | .int _ => false
  | .real _ => true

end Number
end Verdict
