/-!
Numbers in the binary64 format: a sign, a mantissa below `2 ^ 53` and a power of two. A finite
number has one representation: either its mantissa has the full width or its power is the least.
-/
namespace Verdict

namespace Binary64

def Canonical (mantissa : Nat) (exponent : Int) : Prop :=
  (4503599627370496 ≤ mantissa ∧ mantissa < 9007199254740992 ∧
      -1074 ≤ exponent ∧ exponent ≤ 971) ∨
    (mantissa < 4503599627370496 ∧ exponent = -1074)

instance (mantissa : Nat) (exponent : Int) : Decidable (Canonical mantissa exponent) :=
  inferInstanceAs (Decidable (_ ∨ _))

structure Finite where
  negative : Bool
  mantissa : Nat
  exponent : Int
  canonical : Canonical mantissa exponent
deriving DecidableEq

namespace Finite

def zero (negative : Bool) : Finite := ⟨negative, 0, -1074, by decide⟩

def isZero (x : Finite) : Bool := x.mantissa == 0

def signed (x : Finite) : Int := if x.negative then -x.mantissa else x.mantissa

end Finite
end Binary64

inductive Binary64 where
  | finite (x : Binary64.Finite)
  | infinity (negative : Bool)
  | nan
deriving DecidableEq

namespace Binary64

def finite? : Binary64 → Option Finite
  | .finite x => some x
  | _ => none

def ofBits (bits : UInt64) : Binary64 :=
  let negative := bits.toNat >>> 63 == 1
  let field := (bits.toNat >>> 52) % 2048
  let low := bits.toNat % 4503599627370496
  have below : low < 4503599627370496 := Nat.mod_lt _ (by decide)
  if field = 0 then .finite ⟨negative, low, -1074, .inr ⟨below, rfl⟩⟩
  else if h : 0 < field ∧ field < 2047 then
    .finite ⟨negative, 4503599627370496 + low, (field : Int) - 1075, .inl (by omega)⟩
  else if low = 0 then .infinity negative
  else .nan

def signBit (negative : Bool) : Nat := if negative then 1 <<< 63 else 0

def toBits : Binary64 → UInt64
  | .finite x =>
    if x.mantissa < 4503599627370496 then .ofNat (signBit x.negative + x.mantissa)
    else .ofNat (signBit x.negative + ((x.exponent + 1074).toNat <<< 52) + x.mantissa)
  | .infinity negative => .ofNat (signBit negative + (2047 <<< 52))
  | .nan => .ofNat (4095 <<< 51)

end Binary64
end Verdict
