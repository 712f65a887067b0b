import Verdict.Binary64.Decimal
import Verdict.Proofs.Rounding

/-!
The shortest decimal of a number reads back as the number. Zeros at the end of a decimal change
nothing, as long as its scale does not decide by itself.
-/
namespace Verdict.Binary64

namespace Decimal

/-- The scale leaves it to rounding what the decimal reads as. -/
structure InRange (d : Decimal) : Prop where
  nonzero : d.digits ≠ 0
  high : d.scale ≤ 400
  low : -400 ≤ d.scale + d.digits.log2

theorem toBinary64_inRange {d : Decimal} (inRange : d.InRange) (negative : Bool) :
    d.toBinary64 negative = nearest negative d.quotient.1 d.quotient.2 := by
  rw [toBinary64, if_neg inRange.nonzero, if_neg (Int.not_lt.mpr inRange.high),
    if_neg (Int.not_lt.mpr inRange.low)]

def padded (d : Decimal) (zeros : Nat) : Decimal := ⟨d.digits * 10 ^ zeros, d.scale - zeros⟩

theorem inRange_padded {d : Decimal} (inRange : d.InRange) (zeros : Nat) :
    (d.padded zeros).InRange := by
  obtain ⟨nonzero, high, low⟩ := inRange
  have padNonzero : d.digits * 10 ^ zeros ≠ 0 :=
    Nat.mul_ne_zero nonzero (Nat.ne_of_gt (Nat.pow_pos (by decide)))
  have longer : d.digits.log2 + zeros ≤ (d.digits * 10 ^ zeros).log2 := by
    rw [Nat.le_log2 padNonzero, Nat.pow_add]
    exact Nat.mul_le_mul (Nat.log2_self_le nonzero) (Nat.pow_le_pow_left (by decide) zeros)
  constructor
  · exact padNonzero
  · simp only [padded]
    omega
  · simp only [padded]
    omega

theorem quotient_padded (d : Decimal) (zeros : Nat) : ∃ c, 0 < c ∧
    (d.padded zeros).quotient = (d.quotient.1 * c, d.quotient.2 * c) := by
  refine ⟨10 ^ (zeros - d.scale.toNat), Nat.pow_pos (by decide), ?_⟩
  simp only [quotient, padded, Nat.pow_eq, Nat.mul_assoc, ← Nat.pow_add]
  congr 3 <;> omega

theorem toBinary64_padded {d : Decimal} (inRange : d.InRange) (negative : Bool) (zeros : Nat) :
    (d.padded zeros).toBinary64 negative = d.toBinary64 negative := by
  obtain ⟨c, positive, same⟩ := d.quotient_padded zeros
  rw [toBinary64_inRange (inRange_padded inRange zeros), toBinary64_inRange inRange, same]
  refine nearest_scaled negative ?_ ?_ positive
  · exact Nat.mul_pos (Nat.pos_of_ne_zero inRange.nonzero) (Nat.pow_pos (by decide))
  · exact Nat.pow_pos (by decide)

/-- So many zeros can be dropped without the scale coming to decide by itself. -/
structure Spare (d : Decimal) (zeros : Nat) : Prop where
  nonzero : d.digits ≠ 0
  high : d.scale + zeros ≤ 400
  low : -400 + 3 * zeros ≤ d.scale + d.digits.log2

theorem inRange_of_spare {d : Decimal} {zeros : Nat} (spare : d.Spare zeros) : d.InRange := by
  obtain ⟨nonzero, high, low⟩ := spare
  exact ⟨nonzero, by omega, by omega⟩

theorem trimmed_spec {d : Decimal} {fuel : Nat} (spare : d.Spare fuel) (negative : Bool) :
    (trimmed fuel d).InRange ∧
      (trimmed fuel d).toBinary64 negative = d.toBinary64 negative := by
  induction fuel generalizing d with
  | zero => exact ⟨inRange_of_spare spare, rfl⟩
  | succ fuel ih =>
    unfold trimmed
    by_cases zero : d.digits ≠ 0 ∧ d.digits % 10 = 0
    · rw [if_pos zero]
      obtain ⟨nonzero, high, low⟩ := spare
      -- `log2` loses at most four where a zero is dropped, and the scale gains one
      have whole : d.digits = d.digits / 10 * 10 := by omega
      have shortNonzero : d.digits / 10 ≠ 0 := by omega
      have shorter : d.digits.log2 < (d.digits / 10).log2 + 5 := by
        rw [Nat.log2_lt nonzero, Nat.pow_add]
        have bound := Nat.lt_log2_self (n := d.digits / 10)
        rw [Nat.pow_add] at bound
        omega
      have less : Spare ⟨d.digits / 10, d.scale + 1⟩ fuel :=
        ⟨shortNonzero, by simp only; omega, by simp only; omega⟩
      have restored : padded ⟨d.digits / 10, d.scale + 1⟩ 1 = d := by
        simp only [padded, Nat.pow_one, ← whole]
        congr 1
        omega
      obtain ⟨inRange, same⟩ := ih less
      refine ⟨inRange, ?_⟩
      rw [same, ← toBinary64_padded (inRange_of_spare less) negative 1, restored]
    · rw [if_neg zero]
      exact ⟨inRange_of_spare spare, rfl⟩

end Decimal

namespace Finite

theorem exactDecimal_quotient (x : Finite) : ∃ c, 0 < c ∧
    x.exactDecimal.quotient = (x.quotient.1 * c, x.quotient.2 * c) := by
  by_cases whole : 0 ≤ x.exponent
  · refine ⟨1, Nat.one_pos, ?_⟩
    have noFraction : (-x.exponent).toNat = 0 := by omega
    simp [exactDecimal, whole, Decimal.quotient, quotient, noFraction]
  · refine ⟨5 ^ (-x.exponent).toNat, Nat.pow_pos (by decide), ?_⟩
    have noZeros : x.exponent.toNat = 0 := by omega
    simp only [exactDecimal, whole, if_false, Decimal.quotient, quotient, noZeros, Nat.pow_eq,
      Nat.shiftLeft_eq, Nat.pow_zero, Nat.mul_one, Nat.one_mul, ← Nat.mul_pow]

theorem exactDecimal_spare (x : Finite) (nonzero : x.mantissa ≠ 0) : x.exactDecimal.Spare 20 := by
  by_cases whole : 0 ≤ x.exponent
  · have positive : x.mantissa <<< x.exponent.toNat ≠ 0 := by
      rw [Nat.shiftLeft_eq]
      exact Nat.mul_ne_zero nonzero (Nat.ne_of_gt (Nat.two_pow_pos _))
    simp only [exactDecimal, whole, if_true]
    exact ⟨positive, by simp, by simp only; omega⟩
  · have positive : x.mantissa * 5 ^ (-x.exponent).toNat ≠ 0 :=
      Nat.mul_ne_zero nonzero (Nat.ne_of_gt (Nat.pow_pos (by decide)))
    have long : 2 * (-x.exponent).toNat ≤ (x.mantissa * 5 ^ (-x.exponent).toNat).log2 := by
      rw [Nat.le_log2 positive, Nat.pow_mul]
      calc (2 ^ 2) ^ (-x.exponent).toNat ≤ 5 ^ (-x.exponent).toNat :=
            Nat.pow_le_pow_left (by decide) _
        _ ≤ x.mantissa * 5 ^ (-x.exponent).toNat :=
            Nat.le_mul_of_pos_left _ (Nat.pos_of_ne_zero nonzero)
    simp only [exactDecimal, whole, if_false, Nat.pow_eq]
    exact ⟨positive, by simp only; omega, by simp only; omega⟩

theorem exactDecimal_reads (x : Finite) (nonzero : x.mantissa ≠ 0) :
    x.exactDecimal.toBinary64 x.negative = .finite x := by
  obtain ⟨numPositive, denPositive⟩ := x.quotient_positive nonzero
  obtain ⟨c, positive, same⟩ := x.exactDecimal_quotient
  rw [Decimal.toBinary64_inRange (Decimal.inRange_of_spare (x.exactDecimal_spare nonzero)), same,
    nearest_scaled x.negative numPositive denPositive positive, x.nearest_quotient nonzero]

theorem eq_of_picked {nearer : Prop} [Decidable nearer] {low high d : Decimal}
    (picked : (if nearer then low else high) = d) : d = low ∨ d = high := by
  by_cases isLow : nearer
  · rw [if_pos isLow] at picked
    exact .inl picked.symm
  · rw [if_neg isLow] at picked
    exact .inr picked.symm

theorem onGrid_reads {x : Finite} {tie : Tie} {scale : Int} {d : Decimal}
    (found : x.onGrid? tie scale = some d) :
    d.toBinary64 x.negative = .finite x ∧ d.scale = scale := by
  unfold onGrid? at found
  simp only at found
  split at found
  · rename_i low high
    rcases eq_of_picked (Option.some.inj found) with rfl | rfl
    · exact ⟨beq_iff_eq.mp low, rfl⟩
    · exact ⟨beq_iff_eq.mp high, rfl⟩
  · rename_i low _
    cases found
    exact ⟨beq_iff_eq.mp low, rfl⟩
  · rename_i _ high
    cases found
    exact ⟨beq_iff_eq.mp high, rfl⟩
  · cases found

theorem digits_of_reads {x : Finite} (nonzero : x.mantissa ≠ 0) {d : Decimal}
    (reads : d.toBinary64 x.negative = .finite x) : d.digits ≠ 0 := by
  intro none
  rw [Decimal.toBinary64, if_pos none, Binary64.finite.injEq] at reads
  exact nonzero (congrArg mantissa reads).symm

theorem shortestFrom_spec {x : Finite} (nonzero : x.mantissa ≠ 0) (tie : Tie) {scale : Int}
    {tries : Nat} (high : scale ≤ 380) (low : -340 + tries ≤ scale + 1) :
    (x.shortestFrom tie scale tries).toBinary64 x.negative = .finite x ∧
      (x.shortestFrom tie scale tries).Spare 20 := by
  induction tries generalizing scale with
  | zero => exact ⟨x.exactDecimal_reads nonzero, x.exactDecimal_spare nonzero⟩
  | succ tries ih =>
    unfold shortestFrom
    cases found : x.onGrid? tie scale with
    | none => exact ih (by omega) (by omega)
    | some d =>
      obtain ⟨reads, atScale⟩ := onGrid_reads found
      refine ⟨reads, digits_of_reads nonzero reads, ?_, ?_⟩
      · simp only [Option.getD_some]
        omega
      · simp only [Option.getD_some]
        omega

theorem wholeDigits_bounds (x : Finite) (nonzero : x.mantissa ≠ 0) :
    -323 ≤ x.wholeDigits ∧ x.wholeDigits ≤ 310 := by
  have width : x.mantissa.log2 < 53 := by
    rw [Nat.log2_lt nonzero]
    rcases x.canonical with ⟨-, below, -, -⟩ | ⟨short, -⟩ <;> omega
  have bounds : -1074 ≤ x.exponent ∧ x.exponent ≤ 971 := by
    rcases x.canonical with ⟨-, -, least, most⟩ | ⟨-, least⟩ <;> omega
  have guess := x.binaryExponent_quotient nonzero
  simp only [wholeDigits]
  rw [guess]
  split <;> omega

theorem shortest_zero (x : Finite) (zero : x.mantissa = 0) (tie : Tie) :
    x.shortest tie = ⟨0, 0⟩ := by
  simp [shortest, isZero, zero]

/-- The shortest decimal reads back as the number. -/
theorem shortest_reads (x : Finite) (nonzero : x.mantissa ≠ 0) (tie : Tie) :
    (x.shortest tie).InRange ∧ (x.shortest tie).toBinary64 x.negative = .finite x := by
  obtain ⟨least, most⟩ := x.wholeDigits_bounds nonzero
  have found : (x.shortestFrom tie (x.wholeDigits - 1) 17).toBinary64 x.negative = .finite x ∧
      (x.shortestFrom tie (x.wholeDigits - 1) 17).Spare 20 :=
    shortestFrom_spec nonzero tie (by omega) (by omega)
  have notZero : x.isZero = false := by simp [isZero, nonzero]
  obtain ⟨inRange, same⟩ := Decimal.trimmed_spec found.2 x.negative
  simp only [shortest, notZero, Bool.false_eq_true, if_false]
  exact ⟨inRange, same.trans found.1⟩

end Finite
end Verdict.Binary64
