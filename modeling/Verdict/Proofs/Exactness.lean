import Verdict.Proofs.Order

/-!
Comparison of numbers is exact. A truth value counts as 0 or 1, an integer as itself and a real as
its signed mantissa times its power of two. The operators of equality and order say of two such
values what holds of the two rational numbers, and none of them ever refuses.
-/
namespace Verdict

namespace Json

/-- The rational number that a value counts as, if it counts as a number. -/
def rational? : Json → Option ℚ
  | .bool b => some (if b then 1 else 0)
  | .number (.int i) => some i
  | .number (.real x) => some (x.signed * 2 ^ x.exponent)
  | _ => none

theorem rational?_eq (v : Json) : v.rational? = v.number?.map Number.value := by
  cases v with
  | bool b => cases b <;> simp [rational?, number?, Number.value]
  | number n => cases n <;> rfl
  | _ => rfl

theorem number_of_rational {v : Json} {q : ℚ} (counts : v.rational? = some q) :
    ∃ n, v.number? = some n ∧ n.value = q := by
  rw [rational?_eq] at counts
  exact Option.map_eq_some_iff.mp counts

end Json

namespace Operator
open Json

theorem equal_rational {l r : Json} {m n : Number} (canonical : l.Canonical ∧ r.Canonical)
    (left : l.number? = some m) (right : r.number? = some n) :
    l.equal r = decide (m.value = n.value) := by
  rw [Bool.eq_iff_iff, decide_eq_true_iff, equal_iff l r canonical.1 canonical.2,
    essence_of_number left, essence_of_number right, Essence.number.injEq]

/-- Two values that count as numbers compare as the rational numbers that they count as, whichever
    of them is an integer, a real or a truth value: nothing is rounded and nothing is refused. -/
theorem comparison_exact {l r : Json} {p q : ℚ} (canonical : l.Canonical ∧ r.Canonical)
    (left : l.rational? = some p) (right : r.rational? = some q) :
    (∃ m n, l.number? = some m ∧ r.number? = some n ∧ m.order n = compare p q) ∧
      apply .equal l r = .ok (decide (p = q)) ∧ apply .unequal l r = .ok (decide (p ≠ q)) ∧
      apply .less l r = .ok (decide (p < q)) ∧ apply .lessOrEqual l r = .ok (decide (p ≤ q)) ∧
      apply .greater l r = .ok (decide (p > q)) ∧
      apply .greaterOrEqual l r = .ok (decide (p ≥ q)) := by
  obtain ⟨m, countsLeft, rfl⟩ := number_of_rational left
  obtain ⟨n, countsRight, rfl⟩ := number_of_rational right
  have exact := Number.order_eq_compare (canonical.1.inRange countsLeft)
    (canonical.2.inRange countsRight)
  have ordered (op : Operator) : op.order l r = .ok (compare m.value n.value) := by
    rw [order_numbers op countsLeft countsRight, exact]
  have equality := equal_rational canonical countsLeft countsRight
  have told {answer : Bool} {P : Prop} [Decidable P] (same : answer ↔ P) :
      (Except.ok answer : Except Mismatch Bool) = .ok (decide P) :=
    congrArg Except.ok (Bool.eq_iff_iff.mpr (same.trans decide_eq_true_iff.symm))
  refine ⟨⟨m, n, countsLeft, countsRight, exact⟩, ?_, ?_, ?_, ?_, ?_, ?_⟩
  · rw [apply, equality]
  · rw [apply, equality, decide_not]
  · rw [apply, ordered]
    exact told (beq_iff_eq.trans compare_lt_iff_lt)
  · rw [apply, ordered]
    exact told (bne_iff_ne.trans compare_le_iff_le)
  · rw [apply, ordered]
    exact told (beq_iff_eq.trans compare_gt_iff_gt)
  · rw [apply, ordered]
    exact told (bne_iff_ne.trans compare_ge_iff_ge)

def largestInt : Json := .number (.int Number.maxWord)

/-- The real that the largest integer of a word would round to, which is greater by 1. -/
def nextPower : Json := .number (.real ⟨false, 4503599627370496, 12, by decide⟩)

def minusHalf : Json := .number (.real ⟨true, 5066549580791808, -50, by decide⟩)

def leastReal : Json := .number (.real ⟨false, 1, -1074, by decide⟩)

theorem neighbours_told_apart :
    (largestInt.rational? = some (2 ^ 64 - 1) ∧ nextPower.rational? = some (2 ^ 64) ∧
        apply .less largestInt nextPower = .ok true ∧
        apply .equal largestInt nextPower = .ok false) ∧
      (minusHalf.rational? = some (-9 / 2) ∧ apply .less minusHalf (.number (.int (-4))) = .ok true ∧
        apply .greater minusHalf (.number (.int (-5))) = .ok true) ∧
      (apply .greater leastReal (.bool false) = .ok true ∧
        apply .equal (.number (.real (.zero true))) (.bool false) = .ok true) := by
  have largest : largestInt.rational? = some (2 ^ 64 - 1) := by
    norm_num [largestInt, rational?, Number.maxWord]
  have power : nextPower.rational? = some (2 ^ 64) := by
    norm_num [nextPower, rational?, Binary64.Finite.signed]
  have half : minusHalf.rational? = some (-9 / 2) := by
    norm_num [minusHalf, rational?, Binary64.Finite.signed]
  have least : leastReal.rational? = some (2 ^ (-1074 : Int)) := by
    simp [leastReal, rational?, Binary64.Finite.signed]
  have zero : Json.rational? (.number (.real (.zero true))) = some 0 := by
    simp [rational?, Binary64.Finite.signed, Binary64.Finite.zero]
  obtain ⟨-, equal, -, less, -⟩ := comparison_exact (by decide) largest power
  obtain ⟨-, -, -, below, -⟩ := comparison_exact (by decide) half
    (r := .number (.int (-4))) (q := -4) (by simp [rational?])
  obtain ⟨-, -, -, -, -, above, -⟩ := comparison_exact (by decide) half
    (r := .number (.int (-5))) (q := -5) (by simp [rational?])
  obtain ⟨-, -, -, -, -, positive, -⟩ := comparison_exact (by decide) least
    (r := .bool false) (q := 0) (by simp [rational?])
  obtain ⟨-, same, -⟩ := comparison_exact (by decide) zero
    (r := .bool false) (q := 0) (by simp [rational?])
  refine ⟨⟨largest, power, ?_, ?_⟩, ⟨half, ?_, ?_⟩, ?_, ?_⟩
  · rw [less]; norm_num
  · rw [equal]; norm_num
  · rw [below]; norm_num
  · rw [above]; norm_num
  · rw [positive]; simp
  · rw [same]; simp

end Operator
end Verdict
