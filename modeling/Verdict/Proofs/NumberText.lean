import Verdict.Proofs.Shortest
import Verdict.Proofs.Spelling

/-!
The texts of numbers spell the numbers: integers by their digits, reals by their shortest decimal,
plainly or with an exponent.
-/
namespace Verdict.Grammar

theorem digits_ofNat (n : Nat) : Digits (Text.ofNat n) := fun _ member =>
  Nat.isDigit_of_mem_toDigits (by decide) (by decide) member

theorem ofNat_nonempty (n : Nat) : Text.ofNat n ≠ [] := Nat.toDigits_ne_nil

theorem digits_zeros (count : Nat) : Digits (List.replicate count '0') := by
  intro c member
  rw [List.eq_of_mem_replicate member]
  rfl

theorem Digits.append {a b : Text} (first : Digits a) (second : Digits b) : Digits (a ++ b) := by
  intro c member
  rcases List.mem_append.mp member with inFirst | inSecond
  · exact first c inFirst
  · exact second c inSecond

theorem natOfDigits_zeros_behind (digits : Text) (count : Nat) :
    Text.natOfDigits (digits ++ List.replicate count '0') =
      Text.natOfDigits digits * 10 ^ count := by
  rw [Text.natOfDigits, Nat.ofDigitChars_append, Nat.ofDigitChars_replicate_zero, Nat.mul_comm]
  rfl

theorem natOfDigits_zeros_before (digits : Text) (count : Nat) :
    Text.natOfDigits (List.replicate count '0' ++ digits) = Text.natOfDigits digits := by
  rw [Text.natOfDigits, Nat.ofDigitChars_append, Nat.ofDigitChars_replicate_zero, Nat.mul_zero]
  rfl

theorem value_of_ofNat {i : Int64} {negative : Bool} {n : Nat}
    (value : (if negative then -(n : Int) else n) = i.toInt) :
    IntegerLiteral.value? ⟨negative, Text.ofNat n, none⟩ = some i := by
  have fits : Number.fitsInt64 i.toInt := by
    simp only [Number.fitsInt64, Bool.and_eq_true, decide_eq_true_eq]
    exact ⟨i.minValue_le_toInt, i.toInt_le⟩
  simp [IntegerLiteral.value?, Text.natOfDigits_ofNat, value, fits]

theorem spells_int (i : Int64) : SpellsScalar (Text.ofInt i.toInt) (.int i) := by
  cases number : i.toInt with
  | ofNat n =>
    have spelled : SpellsInteger ([] ++ (Text.ofNat n ++ [])) ⟨false, Text.ofNat n, none⟩ :=
      .intro .absent (digits_ofNat n) (ofNat_nonempty n) .absent
    rw [List.nil_append, List.append_nil] at spelled
    exact .int spelled (value_of_ofNat number.symm)
  | negSucc n =>
    have spelled : SpellsInteger (['-'] ++ (Text.ofNat (n + 1) ++ []))
        ⟨true, Text.ofNat (n + 1), none⟩ :=
      .intro .minus (digits_ofNat (n + 1)) (ofNat_nonempty (n + 1)) .absent
    rw [List.append_nil] at spelled
    exact .int spelled (value_of_ofNat number.symm)

theorem exponent_spelled (e : Int) : ∃ exponent,
    SpellsExponent ['+', '-'] ('e' :: Text.ofInt e) exponent ∧
      ∀ negative whole fraction, (Numeral.mk negative whole fraction exponent).power = e := by
  cases e with
  | ofNat n =>
    refine ⟨some (false, Text.ofNat n),
      .unsigned (.inl rfl) (digits_ofNat n) (ofNat_nonempty n), fun _ _ _ => ?_⟩
    simp [Numeral.power, Text.natOfDigits_ofNat]
  | negSucc n =>
    refine ⟨some (true, Text.ofNat (n + 1)),
      .signed (.inl rfl) (by simp) (digits_ofNat (n + 1)) (ofNat_nonempty _), fun _ _ _ => ?_⟩
    simp only [Numeral.power, Text.natOfDigits_ofNat]
    omega

/-- A text with a point that spells a decimal, apart from zeros at its end. -/
inductive Pointed (d : Binary64.Decimal) : Text → Prop where
  | intro {whole fraction tail : Text} {exponent : Option (Bool × Text)} (zeros : Nat)
      (validWhole : Digits whole) (validFraction : Digits fraction) (nonempty : whole ≠ [])
      (scaled : SpellsExponent ['+', '-'] tail exponent)
      (value : ∀ negative, (Numeral.mk negative whole fraction exponent).decimal = d.padded zeros) :
      Pointed d (whole ++ '.' :: (fraction ++ tail))

theorem pointed_fraction {d : Binary64.Decimal} {whole fraction : Text} (zeros : Nat)
    (validWhole : Digits whole) (validFraction : Digits fraction) (nonempty : whole ≠ [])
    (value : ∀ negative, (Numeral.mk negative whole fraction none).decimal = d.padded zeros) :
    Pointed d (whole ++ '.' :: fraction) := by
  have pointed := Pointed.intro zeros validWhole validFraction nonempty .absent value
  rwa [List.append_nil] at pointed

theorem pointed_plain (d : Binary64.Decimal) :
    Pointed d (Binary64.Notation.plain (Text.ofNat d.digits) d.scale) := by
  have valid := digits_ofNat d.digits
  have nonempty := ofNat_nonempty d.digits
  have number := Text.natOfDigits_ofNat d.digits
  generalize Text.ofNat d.digits = digits at valid nonempty number
  simp only [Binary64.Notation.plain]
  by_cases whole : 0 ≤ d.scale
  · rw [if_pos whole]
    refine pointed_fraction (d.scale.toNat + 1) (valid.append (digits_zeros _)) (digits_zeros 1)
      (List.append_ne_nil_of_left_ne_nil nonempty _) fun negative => ?_
    have zeros : List.replicate d.scale.toNat '0' ++ ['0'] =
        List.replicate (d.scale.toNat + 1) '0' := (List.replicate_succ' ..).symm
    simp only [Numeral.decimal, Numeral.power, Binary64.Decimal.padded, List.append_assoc,
      zeros, natOfDigits_zeros_behind, number, List.length_singleton]
    congr 1
    omega
  · rw [if_neg whole]
    by_cases short : digits.length ≤ (-d.scale).toNat
    · -- all digits stand behind the point
      have noWhole : digits.length - (-d.scale).toNat = 0 := by omega
      simp only [noWhole, List.take_zero, List.drop_zero, List.isEmpty_nil, if_true]
      show Pointed d (List.replicate 1 '0' ++ _)
      refine pointed_fraction 0 (digits_zeros 1) ((digits_zeros _).append valid) (by simp)
        fun negative => ?_
      have same : Text.natOfDigits (List.replicate 1 '0' ++
          (List.replicate ((-d.scale).toNat - digits.length) '0' ++ digits)) = d.digits := by
        rw [natOfDigits_zeros_before, natOfDigits_zeros_before, number]
      simp only [Numeral.decimal, Numeral.power, Binary64.Decimal.padded, same,
        List.length_append, List.length_replicate]
      congr 1
      · omega
      · omega
    · have places : (digits.drop (digits.length - (-d.scale).toNat)).length = (-d.scale).toNat := by
        rw [List.length_drop]
        omega
      have front : digits.take (digits.length - (-d.scale).toNat) ≠ [] := by
        rw [← List.length_pos_iff, List.length_take]
        omega
      simp only [List.isEmpty_iff, front, if_false, places, Nat.sub_self, List.replicate_zero,
        List.nil_append]
      refine pointed_fraction 0 (fun c member => valid c (List.mem_of_mem_take member))
        (fun c member => valid c (List.mem_of_mem_drop member)) front fun negative => ?_
      simp only [Numeral.decimal, Numeral.power, Binary64.Decimal.padded, List.take_append_drop,
        number, places]
      congr 1
      · omega
      · omega

theorem pointed_scientific {form : Binary64.Notation} (unsigned : form.signedExponent = false)
    (point : form.pointedExponent) (d : Binary64.Decimal) :
    Pointed d (form.scientific (Text.ofNat d.digits)
      (d.scale + (Text.ofNat d.digits).length - 1)) := by
  have valid := digits_ofNat d.digits
  have number := Text.natOfDigits_ofNat d.digits
  obtain ⟨first, more, split⟩ := List.exists_cons_of_ne_nil (ofNat_nonempty d.digits)
  rw [split] at valid number ⊢
  obtain ⟨exponent, scaled, power⟩ := exponent_spelled (d.scale + (first :: more).length - 1)
  have validFirst : Digits [first] := fun c member => valid c (by simp_all)
  simp only [Binary64.Notation.scientific, unsigned, point, Bool.false_eq_true, false_and, if_false,
    if_true, List.nil_append, List.take_succ_cons, List.take_zero, List.drop_succ_cons,
    List.drop_zero]
  cases more with
  | nil =>
    have value : Text.natOfDigits ([first] ++ ['0']) = d.digits * 10 ^ 1 :=
      (natOfDigits_zeros_behind [first] 1).trans (by rw [number])
    refine Pointed.intro 1 validFirst (digits_zeros 1) (by simp) scaled fun negative => ?_
    simp only [Numeral.decimal, power, Binary64.Decimal.padded, value]
    simp
  | cons second others =>
    refine Pointed.intro 0 validFirst (fun c member => valid c (by simp_all)) (by simp) scaled
      fun negative => ?_
    simp only [Numeral.decimal, power, Binary64.Decimal.padded, List.singleton_append, number]
    congr 1
    · omega
    · simp
      omega

theorem pointed_magnitude {form : Binary64.Notation} (unsigned : form.signedExponent = false)
    (point : form.pointedExponent) (d : Binary64.Decimal) : Pointed d (form.magnitude d) := by
  simp only [Binary64.Notation.magnitude]
  split
  · exact pointed_plain d
  · exact pointed_scientific unsigned point d

theorem shortest_padded_reads (x : Binary64.Finite) (tie : Binary64.Tie) (zeros : Nat) :
    ((x.shortest tie).padded zeros).toBinary64 x.negative = .finite x := by
  by_cases zero : x.mantissa = 0
  · have least : x.exponent = -1074 := by
      have canonical := x.canonical
      simp only [Binary64.Canonical] at canonical
      omega
    obtain ⟨negative, mantissa, exponent, canonical⟩ := x
    subst zero
    subst least
    rw [Binary64.Finite.shortest_zero _ rfl]
    simp [Binary64.Decimal.padded, Binary64.Decimal.toBinary64, Binary64.Finite.zero]
  · obtain ⟨inRange, reads⟩ := x.shortest_reads zero tie
    rw [Binary64.Decimal.toBinary64_padded inRange, reads]

theorem spells_real (x : Binary64.Finite) :
    SpellsScalar (Operand.writeReal (.finite x)) (.real (.finite x)) := by
  simp only [Operand.writeReal, Binary64.Notation.write]
  have pointed : Pointed _ (Operand.realNotation.magnitude _) :=
    pointed_magnitude rfl rfl (x.shortest Operand.realNotation.tie)
  generalize Operand.realNotation.magnitude (x.shortest Operand.realNotation.tie) = text at pointed
  cases pointed with
  | intro zeros validWhole validFraction nonempty scaled value =>
    have sign : SpellsSign (if x.negative then ['-'] else []) x.negative := by
      cases x.negative with
      | true => exact .minus
      | false => exact .absent
    refine .real (.intro sign validWhole validFraction (.inl nonempty) scaled) ?_
    rw [Numeral.toBinary64, value]
    exact shortest_padded_reads x Operand.realNotation.tie zeros

end Verdict.Grammar
