import Verdict.Binary64.Decimal

/-!
How the shortest decimal of a number is written. A notation says which numbers are written
plainly, how an exponent looks and where a tie between two shortest decimals goes.
-/
namespace Verdict.Binary64

structure Notation where
  /-- Numbers `d.ddd * 10 ^ e` are written plainly for `plainFrom ≤ e < plainBelow`. -/
  plainFrom : Int
  plainBelow : Int
  signedExponent : Bool
  pointedExponent : Bool
  tie : Tie

namespace Notation

def plain (digits : Text) (scale : Int) : Text :=
  if 0 ≤ scale then digits ++ List.replicate scale.toNat '0' ++ ['.', '0']
  else
    let places := (-scale).toNat
    let whole := digits.take (digits.length - places)
    let fraction := digits.drop (digits.length - places)
    (if whole.isEmpty then ['0'] else whole) ++
      '.' :: (List.replicate (places - fraction.length) '0' ++ fraction)

def scientific (form : Notation) (digits : Text) (exponent : Int) : Text :=
  let fraction :=
    match digits.drop 1 with
    | [] => if form.pointedExponent then ['.', '0'] else []
    | more => '.' :: more
  let sign := if form.signedExponent ∧ 0 ≤ exponent then ['+'] else []
  digits.take 1 ++ fraction ++ 'e' :: (sign ++ Text.ofInt exponent)

def magnitude (form : Notation) (d : Decimal) : Text :=
  let digits := Text.ofNat d.digits
  let exponent := d.scale + digits.length - 1
  if form.plainFrom ≤ exponent ∧ exponent < form.plainBelow then plain digits d.scale
  else form.scientific digits exponent

def write (form : Notation) (x : Finite) : Text :=
  (if x.negative then ['-'] else []) ++ form.magnitude (x.shortest form.tie)

end Notation
end Verdict.Binary64
