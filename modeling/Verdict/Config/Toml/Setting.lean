import Verdict.Binary64.Numeral
import Verdict.Number

/-!
Raw values of settings, as a file in TOML or a variable gives them, and what they convert to. Only
the value that is left in the end is converted; until then it may be of any form.
-/
namespace Verdict

inductive Setting where
  | truth (b : Bool)
  | int (i : Int)
  | real (x : Binary64)
  | text (t : Text)
  | compound
  /-- A table without members. It is laid over what stands below, member by member, so it leaves
      that as it is. -/
  | hollow
deriving DecidableEq

namespace Setting

def trueWords : List Text := ["true".toList, "on".toList, "yes".toList]

def falseWords : List Text := ["false".toList, "off".toList, "no".toList]

def wordOfText? (t : Text) : Option Nat :=
  let digits := match t with
    | '+' :: rest => rest
    | _ => t
  if digits ≠ [] ∧ digits.all Char.isDigit ∧ Text.natOfDigits digits ≤ Number.maxWord then
    some (Text.natOfDigits digits)
  else none

/-- Whatever is not zero counts as true. -/
def toBool? : Setting → Option Bool
  | .truth b => some b
  | .int i => some (i ≠ 0)
  | .real (.finite x) => some (!x.isZero)
  | .real _ => some true
  | .text t =>
    if Text.folded t = ['1'] ∨ Text.folded t ∈ trueWords then some true
    else if Text.folded t = ['0'] ∨ Text.folded t ∈ falseWords then some false
    else none
  | .compound | .hollow => none

def rounded (x : Binary64.Finite) : Nat :=
  let (num, den) := x.quotient
  (2 * num + den) / (2 * den)

/-- A real is rounded, a half away from zero, and brought into the range of a word. -/
def wordOfReal : Binary64 → Nat
  | .finite x => if x.negative then 0 else min (rounded x) Number.maxWord
  | .infinity negative => if negative then 0 else Number.maxWord
  | .nan => 0

def toDepth? : Setting → Option Nat
  | .truth b => some (if b then 1 else 0)
  | .int i => if 0 ≤ i then some i.toNat else none
  | .real x => some (wordOfReal x)
  | .text t =>
    if Text.folded t ∈ trueWords then some 1
    else if Text.folded t ∈ falseWords then some 0
    else wordOfText? t
  | .compound | .hollow => none

def integerOfText? (t : Text) : Option Int :=
  let (negative, digits) := Text.spanSign t
  let i : Int := if negative then -Text.natOfDigits digits else Text.natOfDigits digits
  if digits ≠ [] ∧ digits.all Char.isDigit ∧ Number.fitsInt64 i then some i else none

def realOfText? (t : Text) : Option Binary64 :=
  let (negative, rest) := Text.spanSign t
  if Text.folded rest = "nan".toList then some .nan
  else if Text.folded rest = "inf".toList ∨ Text.folded rest = "infinity".toList then
    some (.infinity negative)
  else
    let (whole, rest) := Text.spanDigits rest
    let (fraction, rest) := match rest with
      | '.' :: rest => Text.spanDigits rest
      | _ => ([], rest)
    match Numeral.spanExponent ['+', '-'] rest with
    | (exponent, []) =>
      if whole = [] ∧ fraction = [] then none
      else some (Numeral.toBinary64 ⟨negative, whole, fraction, exponent⟩)
    | _ => none

/-- The setting that the text of a variable gives: a truth value, else an integer, else a real,
    and else the text itself. -/
def ofVariable (t : Text) : Setting :=
  if Text.folded t = "true".toList then .truth true
  else if Text.folded t = "false".toList then .truth false
  else
    match integerOfText? t with
    | some i => .int i
    | none =>
      match realOfText? t with
      | some x => .real x
      | none => .text t

end Setting
end Verdict
