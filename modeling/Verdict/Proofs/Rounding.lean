import Mathlib
import Verdict.Binary64.Rounding

/-!
Rounding depends on a quotient only, not on how it is written, and it keeps every number that the
format has.
-/
namespace Verdict.Binary64

/-- The quotient `num / den` is at least `2 ^ e`. -/
def Reaches (num den : Nat) (e : Int) : Prop := den <<< e.toNat ≤ num <<< (-e).toNat

theorem reaches_iff {num den p q : Nat} {e : Int} (power : (p : Int) = e + q) :
    Reaches num den e ↔ den * 2 ^ p ≤ num * 2 ^ q := by
  unfold Reaches
  rw [Nat.shiftLeft_eq, Nat.shiftLeft_eq]
  have bottom : den * 2 ^ e.toNat * 2 ^ q = den * 2 ^ p * 2 ^ (-e).toNat := by
    rw [Nat.mul_assoc, Nat.mul_assoc, ← Nat.pow_add, ← Nat.pow_add]
    congr 2
    omega
  have top : num * 2 ^ (-e).toNat * 2 ^ q = num * 2 ^ q * 2 ^ (-e).toNat := Nat.mul_right_comm _ _ _
  constructor
  · intro reaches
    have wider := Nat.mul_le_mul_right (2 ^ q) reaches
    rw [bottom, top] at wider
    exact Nat.le_of_mul_le_mul_right wider (Nat.two_pow_pos _)
  · intro reaches
    have wider := Nat.mul_le_mul_right (2 ^ (-e).toNat) reaches
    rw [← bottom, ← top] at wider
    exact Nat.le_of_mul_le_mul_right wider (Nat.two_pow_pos _)

theorem reaches_mono {num den : Nat} {e f : Int} (below : e ≤ f) (reaches : Reaches num den f) :
    Reaches num den e := by
  have scaled := (reaches_iff (p := (f + e.natAbs + f.natAbs).toNat) (q := e.natAbs + f.natAbs)
    (by omega)).mp reaches
  refine (reaches_iff (p := (e + e.natAbs + f.natAbs).toNat) (q := e.natAbs + f.natAbs)
    (by omega)).mpr (Nat.le_trans (Nat.mul_le_mul_left den ?_) scaled)
  exact Nat.pow_le_pow_right (by omega) (by omega)

theorem reaches_scaled {num den c : Nat} (positive : 0 < c) (e : Int) :
    Reaches (num * c) (den * c) e ↔ Reaches num den e := by
  unfold Reaches
  rw [Nat.shiftLeft_eq, Nat.shiftLeft_eq, Nat.shiftLeft_eq, Nat.shiftLeft_eq,
    Nat.mul_right_comm den, Nat.mul_right_comm num]
  exact Nat.mul_le_mul_right_iff positive

theorem binaryExponent_spec {num den : Nat} (numPositive : 0 < num) (denPositive : 0 < den) :
    Reaches num den (binaryExponent num den) ∧ ¬ Reaches num den (binaryExponent num den + 1) := by
  have numLow := Nat.log2_self_le (Nat.ne_of_gt numPositive)
  have denLow := Nat.log2_self_le (Nat.ne_of_gt denPositive)
  have numHigh := Nat.lt_log2_self (n := num)
  have denHigh := Nat.lt_log2_self (n := den)
  have belowGuess : Reaches num den ((num.log2 : Int) - den.log2 - 1) := by
    rw [reaches_iff (p := num.log2) (q := den.log2 + 1) (by omega)]
    calc den * 2 ^ num.log2 ≤ 2 ^ (den.log2 + 1) * num :=
          Nat.mul_le_mul (Nat.le_of_lt denHigh) numLow
      _ = num * 2 ^ (den.log2 + 1) := Nat.mul_comm _ _
  have aboveGuess : ¬ Reaches num den ((num.log2 : Int) - den.log2 + 1) := by
    rw [reaches_iff (p := num.log2 + 1) (q := den.log2) (by omega), Nat.not_le]
    calc num * 2 ^ den.log2 < 2 ^ (num.log2 + 1) * 2 ^ den.log2 :=
          Nat.mul_lt_mul_of_pos_right numHigh (Nat.two_pow_pos _)
      _ ≤ 2 ^ (num.log2 + 1) * den := Nat.mul_le_mul_left _ denLow
      _ = den * 2 ^ (num.log2 + 1) := Nat.mul_comm _ _
  have guessed : binaryExponent num den =
      if num <<< (-((num.log2 : Int) - den.log2)).toNat <
        den <<< ((num.log2 : Int) - den.log2).toNat
      then (num.log2 : Int) - den.log2 - 1 else (num.log2 : Int) - den.log2 := rfl
  rw [guessed]
  by_cases reached : Reaches num den ((num.log2 : Int) - den.log2)
  · rw [if_neg (Nat.not_lt_of_le reached)]
    exact ⟨reached, aboveGuess⟩
  · rw [if_pos (Nat.lt_of_not_le reached), Int.sub_add_cancel]
    exact ⟨belowGuess, reached⟩

theorem binaryExponent_unique {num den : Nat} {e : Int} (numPositive : 0 < num)
    (denPositive : 0 < den) (reached : Reaches num den e) (next : ¬ Reaches num den (e + 1)) :
    binaryExponent num den = e := by
  obtain ⟨below, above⟩ := binaryExponent_spec numPositive denPositive
  rcases Int.lt_trichotomy (binaryExponent num den) e with less | same | more
  · exact absurd (reaches_mono (by omega) reached) above
  · exact same
  · exact absurd (reaches_mono (by omega) below) next

theorem binaryExponent_scaled {num den c : Nat} (numPositive : 0 < num) (denPositive : 0 < den)
    (positive : 0 < c) : binaryExponent (num * c) (den * c) = binaryExponent num den := by
  obtain ⟨reached, next⟩ := binaryExponent_spec numPositive denPositive
  refine binaryExponent_unique (Nat.mul_pos numPositive positive)
    (Nat.mul_pos denPositive positive) ?_ ?_
  · rwa [reaches_scaled positive]
  · rwa [reaches_scaled positive]

theorem nearestNat_scaled (num den : Nat) {c : Nat} (positive : 0 < c) :
    nearestNat (num * c) (den * c) = nearestNat num den := by
  have less : ∀ a b : Nat, a * c < b * c ↔ a < b := fun a b => Nat.mul_lt_mul_right positive
  simp only [nearestNat, Nat.mul_div_mul_right _ _ positive, Nat.mul_mod_mul_right,
    ← Nat.mul_assoc, less]

theorem shifted_scaled (num den c : Nat) (e : Int) :
    shifted (num * c) (den * c) e = ((shifted num den e).1 * c, (shifted num den e).2 * c) := by
  simp only [shifted, Nat.shiftLeft_eq, Nat.mul_right_comm]

theorem nearest_scaled (negative : Bool) {num den c : Nat} (numPositive : 0 < num)
    (denPositive : 0 < den) (positive : 0 < c) :
    nearest negative (num * c) (den * c) = nearest negative num den := by
  have nonzero : num ≠ 0 := Nat.ne_of_gt numPositive
  have scaledNonzero : num * c ≠ 0 := Nat.ne_of_gt (Nat.mul_pos numPositive positive)
  simp only [nearest, nonzero, scaledNonzero, if_false,
    binaryExponent_scaled numPositive denPositive positive, shifted_scaled,
    nearestNat_scaled _ _ positive]

theorem nearestNat_exact (n : Nat) {den : Nat} (positive : 0 < den) :
    nearestNat (n * den) den = n := by
  simp [nearestNat, Nat.mul_div_cancel _ positive, positive]

namespace Finite

theorem quotient_positive (x : Finite) (nonzero : x.mantissa ≠ 0) :
    0 < x.quotient.1 ∧ 0 < x.quotient.2 := by
  simp only [quotient, Nat.shiftLeft_eq]
  exact ⟨Nat.mul_pos (Nat.pos_of_ne_zero nonzero) (Nat.two_pow_pos _),
    Nat.mul_pos Nat.one_pos (Nat.two_pow_pos _)⟩

theorem binaryExponent_quotient (x : Finite) (nonzero : x.mantissa ≠ 0) :
    binaryExponent x.quotient.1 x.quotient.2 = x.exponent + x.mantissa.log2 := by
  obtain ⟨numPositive, denPositive⟩ := x.quotient_positive nonzero
  have scaled : ∀ k : Nat, Reaches x.quotient.1 x.quotient.2 (x.exponent + k) ↔
      2 ^ k ≤ x.mantissa := by
    intro k
    rw [reaches_iff (p := x.exponent.toNat + k) (q := (-x.exponent).toNat) (by omega)]
    simp only [quotient, Nat.shiftLeft_eq, Nat.one_mul]
    rw [Nat.pow_add, Nat.mul_comm (2 ^ x.exponent.toNat), ← Nat.mul_assoc,
      Nat.mul_comm _ (2 ^ k), Nat.mul_assoc, Nat.mul_assoc,
      Nat.mul_comm (2 ^ (-x.exponent).toNat)]
    exact Nat.mul_le_mul_right_iff (Nat.mul_pos (Nat.two_pow_pos _) (Nat.two_pow_pos _))
  refine binaryExponent_unique numPositive denPositive ?_ ?_
  · exact (scaled _).mpr (Nat.log2_self_le nonzero)
  · rw [Int.add_assoc]
    exact fun reached => Nat.not_lt_of_le ((scaled (x.mantissa.log2 + 1)).mp reached)
      Nat.lt_log2_self

theorem exponent_eq (x : Finite) (nonzero : x.mantissa ≠ 0) :
    max (-1074) (binaryExponent x.quotient.1 x.quotient.2 - 52) = x.exponent := by
  rw [x.binaryExponent_quotient nonzero]
  -- either the mantissa has its full width, or the exponent is already the least
  rcases x.canonical with ⟨full, below, least, -⟩ | ⟨short, atLeast⟩
  · have width : x.mantissa.log2 = 52 := (Nat.log2_eq_iff nonzero).mpr ⟨full, below⟩
    omega
  · have width : x.mantissa.log2 < 52 := (Nat.log2_lt nonzero).mpr short
    omega

theorem nearest_quotient (x : Finite) (nonzero : x.mantissa ≠ 0) :
    nearest x.negative x.quotient.1 x.quotient.2 = .finite x := by
  obtain ⟨numPositive, -⟩ := x.quotient_positive nonzero
  have below : x.mantissa ≠ 9007199254740992 := by
    rcases x.canonical with ⟨-, below, -, -⟩ | ⟨short, -⟩ <;> omega
  have exact : nearestNat (shifted x.quotient.1 x.quotient.2 x.exponent).1
      (shifted x.quotient.1 x.quotient.2 x.exponent).2 = x.mantissa := by
    simp only [shifted, quotient, Nat.shiftLeft_eq, Nat.one_mul, Nat.mul_assoc]
    rw [Nat.mul_comm (2 ^ (-x.exponent).toNat)]
    exact nearestNat_exact _ (Nat.mul_pos (Nat.two_pow_pos _) (Nat.two_pow_pos _))
  simp only [nearest, Nat.ne_of_gt numPositive, if_false, x.exponent_eq nonzero, exact, below,
    x.canonical, dite_true]

end Finite
end Verdict.Binary64
