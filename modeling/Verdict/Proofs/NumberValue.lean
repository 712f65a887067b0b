import Mathlib
import Verdict.Json.Equality

/-!
Numbers as rational numbers. Comparing two numbers compares the rational numbers that they stand
for: nothing is rounded, also between an integer and a real.
-/
namespace Verdict.Number

namespace Dyadic

def value (d : Dyadic) : ℚ := d.coefficient * 2 ^ d.power

theorem at_value (d : Dyadic) {power : Int} (finer : power ≤ d.power) :
    (d.at power : ℚ) * 2 ^ power = d.value := by
  obtain ⟨shift, split⟩ : ∃ shift : Nat, d.power = shift + power :=
    ⟨(d.power - power).toNat, by omega⟩
  have coefficient : (d.at power : ℚ) = d.coefficient * 2 ^ shift := by
    have width : (d.power - power).toNat = shift := by omega
    simp [Dyadic.at, width, Nat.shiftLeft_eq]
  rw [coefficient, value, split, zpow_add₀ two_ne_zero, zpow_natCast]
  ring

theorem order_eq_compare (a b : Dyadic) : a.order b = compare a.value b.value := by
  let low := min a.power b.power
  have left : (a.at low : ℚ) * 2 ^ low = a.value := a.at_value (min_le_left _ _)
  have right : (b.at low : ℚ) * 2 ^ low = b.value := b.at_value (min_le_right _ _)
  have scaled : StrictMono fun i : Int => (i : ℚ) * 2 ^ low := by
    intro i j less
    exact mul_lt_mul_of_pos_right (Int.cast_lt.mpr less) (by positivity)
  have compared := scaled.cmp_map_eq (a.at low) (b.at low)
  simp only [left, right] at compared
  rw [cmp_eq_compare, cmp_eq_compare] at compared
  exact compared.symm

theorem order_eq_lt (a b : Dyadic) : a.order b = .lt ↔ a.value < b.value := by
  rw [order_eq_compare, compare_lt_iff_lt]

theorem floor_eq (d : Dyadic) : d.floor = ⌊d.value⌋ := by
  rw [floor]
  split
  case isTrue whole =>
    have exact : (d.at 0 : ℚ) = d.value := by simpa using d.at_value whole
    rw [← exact, Int.floor_intCast]
  case isFalse fraction =>
    obtain ⟨shift, split⟩ : ∃ shift : Nat, d.power = -shift :=
      ⟨(-d.power).toNat, by omega⟩
    have quotient : d.value = (d.coefficient : ℚ) / ((2 ^ shift : Nat) : ℚ) := by
      rw [value, split, zpow_neg, zpow_natCast, div_eq_mul_inv]
      norm_cast
    have width : (-d.power).toNat = shift := by omega
    rw [width, quotient, Rat.floor_intCast_div_natCast, Int.shiftRight_eq_div_pow]

end Dyadic

def value : Number → ℚ
  | .int i => i
  | .real x => (Dyadic.ofReal x).value

/-- Integers of 128 bits are compared exactly: between their bounds the floor decides, and a real
    that is not its floor lies above the integer that is. -/
theorem orderIntReal_eq_compare (i : Int) (x : Dyadic) (above : -2 ^ 127 ≤ i) (below : i < 2 ^ 127) :
    orderIntReal i x = compare (i : ℚ) x.value := by
  have top : Dyadic.value ⟨1, 127⟩ = ((2 ^ 127 : Int) : ℚ) := by norm_num [Dyadic.value]
  have bottom : Dyadic.value ⟨-1, 127⟩ = ((-2 ^ 127 : Int) : ℚ) := by norm_num [Dyadic.value]
  have lower : ((-2 ^ 127 : Int) : ℚ) ≤ i := Int.cast_le.mpr above
  have upper : (i : ℚ) < ((2 ^ 127 : Int) : ℚ) := Int.cast_lt.mpr below
  have floored : Dyadic.value ⟨x.floor, 0⟩ = (x.floor : ℚ) := by simp [Dyadic.value]
  simp only [orderIntReal, Ne, Dyadic.order_eq_lt, top, bottom, floored]
  split
  case isTrue large =>
    exact (compare_lt_iff_lt.mpr (upper.trans_le (not_lt.mp large))).symm
  case isFalse =>
    split
    case isTrue small =>
      exact (compare_gt_iff_gt.mpr (small.trans_le lower)).symm
    case isFalse =>
      have under : (x.floor : ℚ) ≤ x.value := x.floor_eq ▸ Int.floor_le x.value
      cases compared : compare i x.floor with
      | lt =>
        have less : (i : ℚ) < x.floor := Int.cast_lt.mpr (compare_lt_iff_lt.mp compared)
        exact (compare_lt_iff_lt.mpr (less.trans_le under)).symm
      | gt =>
        have greater : ⌊x.value⌋ < i := x.floor_eq ▸ compare_gt_iff_gt.mp compared
        exact (compare_gt_iff_gt.mpr (Int.floor_lt.mp greater)).symm
      | eq =>
        have same : i = x.floor := compare_eq_iff_eq.mp compared
        simp only [same]
        split
        case isTrue less => exact (compare_lt_iff_lt.mpr less).symm
        case isFalse notLess =>
          exact (compare_eq_iff_eq.mpr (under.antisymm (not_lt.mp notLess))).symm

theorem InRange.within {i : Int} (range : (Number.int i).InRange) : -2 ^ 127 ≤ i ∧ i < 2 ^ 127 := by
  have least : Int64.minValue.toInt = -2 ^ 63 := by decide
  have largest : maxWord = 2 ^ 64 - 1 := by decide
  simp only [InRange, least, largest] at range
  omega

theorem order_eq_compare {a b : Number} (first : a.InRange) (second : b.InRange) :
    a.order b = compare a.value b.value := by
  match a, b with
  | .int i, .int j =>
    have casted := (Int.cast_strictMono (R := ℚ)).cmp_map_eq i j
    rw [cmp_eq_compare, cmp_eq_compare] at casted
    exact casted.symm
  | .int i, .real y => exact orderIntReal_eq_compare i _ first.within.1 first.within.2
  | .real x, .int j =>
    rw [order, orderIntReal_eq_compare j _ second.within.1 second.within.2]
    exact (Std.OrientedCmp.eq_swap).symm
  | .real x, .real y => exact Dyadic.order_eq_compare _ _

theorem sameNumber_iff {a b : Number} (first : a.InRange) (second : b.InRange) :
    Json.sameNumber a b ↔ a.value = b.value := by
  rw [Json.sameNumber, order_eq_compare first second, beq_iff_eq, compare_eq_iff_eq]

end Verdict.Number
