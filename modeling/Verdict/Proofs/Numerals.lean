import Verdict.Proofs.Words

/-!
Integers and reals at the start of a text. A numeral takes all the digits there are, and no letter
may follow it.
-/
namespace Verdict.Grammar

theorem spanDigits_digits {digits : Text} (valid : Digits digits) (rest : Text)
    (ends : ∀ c ∈ rest.head?, ¬ c.isDigit) : Text.spanDigits (digits ++ rest) = (digits, rest) := by
  have stops : rest.takeWhile Char.isDigit = [] ∧ rest.dropWhile Char.isDigit = rest := by
    cases rest with
    | nil => simp
    | cons c more => simp [ends c rfl]
  simp [Text.spanDigits, List.takeWhile_append_of_pos valid, List.dropWhile_append_of_pos valid,
    stops]

theorem digits_of_spanDigits (t : Text) : Digits (Text.spanDigits t).1 :=
  fun c member => List.all_eq_true.mp List.all_takeWhile c member

theorem spanSign_sign {sign : Text} {negative : Bool} (spelled : SpellsSign sign negative)
    (rest : Text) (unsigned : ∀ c ∈ rest.head?, c ≠ '+' ∧ c ≠ '-') :
    Text.spanSign (sign ++ rest) = (negative, rest) := by
  cases spelled with
  | plus => rfl
  | minus => rfl
  | absent =>
    simp only [List.nil_append]
    unfold Text.spanSign
    split
    · exact absurd rfl (unsigned '-' rfl).2
    · exact absurd rfl (unsigned '+' rfl).1
    · rfl

theorem sign_of_spanSign (t : Text) :
    ∃ sign, SpellsSign sign (Text.spanSign t).1 ∧ t = sign ++ (Text.spanSign t).2 := by
  unfold Text.spanSign
  split
  · exact ⟨_, .minus, rfl⟩
  · exact ⟨_, .plus, rfl⟩
  · exact ⟨_, .absent, rfl⟩

theorem exponent_of_spanExponent (signs : List Char) (t : Text) :
    ∃ tail, SpellsExponent signs tail (Numeral.spanExponent signs t).1 ∧
      t = tail ++ (Numeral.spanExponent signs t).2 := by
  unfold Numeral.spanExponent
  split
  · exact ⟨[], .absent, rfl⟩
  · rename_i e rest
    by_cases letter : e = 'e' ∨ e = 'E'
    · simp only [letter, ↓reduceIte]
      split
      · exact ⟨[], .absent, rfl⟩
      · rename_i digits more nonempty spanned
        have valid := digits_of_spanDigits
          (if rest.head?.any (· ∈ signs) then rest.drop 1 else rest)
        have whole := Text.spanDigits_append
          (if rest.head?.any (· ∈ signs) then rest.drop 1 else rest)
        rw [spanned] at valid whole
        cases rest with
        | nil => exact absurd (List.append_eq_nil_iff.mp whole).1 nonempty
        | cons sign rest =>
          by_cases signed : sign ∈ signs
          · simp only [signed, List.head?_cons, Option.any_some, decide_true, Bool.true_and,
              ↓reduceIte, List.drop_one, List.tail_cons] at whole ⊢
            exact ⟨_, .signed letter signed valid nonempty, by simp [← whole]⟩
          · simp only [signed, List.head?_cons, Option.any_some, decide_false, Bool.false_and,
              Bool.false_eq_true, ↓reduceIte] at whole ⊢
            exact ⟨_, .unsigned letter valid nonempty, by simp [← whole]⟩
    · simp only [letter, ↓reduceIte]
      exact ⟨[], .absent, rfl⟩

theorem not_digit_of_wordEnds {rest : Text} (ends : wordEnds rest) :
    ∀ c ∈ rest.head?, ¬ c.isDigit := by
  cases rest with
  | nil => simp
  | cons c more =>
    intro d member digit
    obtain rfl : c = d := by simpa using member
    simp [wordEnds, (isWordChar_iff c).mpr (.inr (.inl digit))] at ends

theorem spanExponent_tail {signs : List Char} {tail rest : Text} {exponent : Option (Bool × Text)}
    (spelled : SpellsExponent signs tail exponent) (noDigit : ∀ c ∈ signs, ¬ c.isDigit)
    (ends : wordEnds rest) : Numeral.spanExponent signs (tail ++ rest) = (exponent, rest) := by
  have stop := not_digit_of_wordEnds ends
  cases spelled with
  | absent =>
    cases rest with
    | nil => rfl
    | cons c more =>
      have noLetter : ¬ (c = 'e' ∨ c = 'E') := by
        rintro (rfl | rfl) <;> exact absurd ends Bool.false_ne_true
      simp [Numeral.spanExponent, noLetter]
  | @unsigned e digits letter valid nonempty =>
    obtain ⟨d, more, rfl⟩ := List.exists_cons_of_ne_nil nonempty
    have unsigned : d ∉ signs := fun member => noDigit d member (valid d (by simp))
    have spanned := spanDigits_digits valid _ stop
    simp only [List.cons_append] at spanned ⊢
    simp [Numeral.spanExponent, letter, unsigned, spanned]
  | @signed e sign digits letter allowed valid nonempty =>
    have spanned := spanDigits_digits valid _ stop
    simp only [List.cons_append]
    simp [Numeral.spanExponent, letter, allowed, spanned]

theorem integer_eq (t : Text) :
    integer? t =
      if (Text.spanDigits (Text.spanSign t).2).1 ≠ [] ∧
          wordEnds (Numeral.spanExponent ['+'] (Text.spanDigits (Text.spanSign t).2).2).2 then
        some (⟨(Text.spanSign t).1, (Text.spanDigits (Text.spanSign t).2).1,
            (Numeral.spanExponent ['+'] (Text.spanDigits (Text.spanSign t).2).2).1.map Prod.snd⟩,
          (Numeral.spanExponent ['+'] (Text.spanDigits (Text.spanSign t).2).2).2)
      else none := by
  simp only [integer?]
  by_cases nonempty : (Text.spanDigits (Text.spanSign t).2).1 ≠ []
  · by_cases ends : wordEnds (Numeral.spanExponent ['+'] (Text.spanDigits (Text.spanSign t).2).2).2
    · simp [guard, nonempty, ends]
    · simp [guard, nonempty, ends]
  · simp only [guard, nonempty, false_and, ↓reduceIte]
    rfl

theorem integer_sound {t rest : Text} {literal : IntegerLiteral}
    (read : integer? t = some (literal, rest)) :
    ∃ text, t = text ++ rest ∧ SpellsInteger text literal ∧ wordEnds rest := by
  rw [integer_eq] at read
  split at read
  · rename_i found
    obtain ⟨rfl, rfl⟩ := Prod.mk.inj (Option.some.inj read)
    obtain ⟨sign, signed, whole⟩ := sign_of_spanSign t
    obtain ⟨tail, scaled, after⟩ :=
      exponent_of_spanExponent ['+'] (Text.spanDigits (Text.spanSign t).2).2
    have digits := Text.spanDigits_append (Text.spanSign t).2
    refine ⟨_, ?_, .intro signed (digits_of_spanDigits _) found.1 scaled, found.2⟩
    simp only [List.append_assoc]
    rw [← after, digits, ← whole]
  · cases read

theorem spelled_head {c : Char} (digit : c.isDigit) : c ≠ '+' ∧ c ≠ '-' := by
  constructor <;> rintro rfl <;> exact absurd digit Bool.false_ne_true

theorem tail_stops {signs : List Char} {tail rest : Text} {exponent : Option (Bool × Text)}
    (spelled : SpellsExponent signs tail exponent) (ends : wordEnds rest) :
    ∀ c ∈ (tail ++ rest).head?, ¬ c.isDigit := by
  cases spelled with
  | absent => exact not_digit_of_wordEnds ends
  | unsigned letter =>
    rcases letter with rfl | rfl <;> simp
  | signed letter =>
    rcases letter with rfl | rfl <;> simp

theorem integer_complete {text rest : Text} {literal : IntegerLiteral}
    (spelled : SpellsInteger text literal) (ends : wordEnds rest) :
    integer? (text ++ rest) = some (literal, rest) := by
  cases spelled with
  | @intro sign digits tail negative exponent signed valid nonempty scaled =>
    obtain ⟨d, more, rfl⟩ := List.exists_cons_of_ne_nil nonempty
    have signRead := spanSign_sign signed (d :: more ++ (tail ++ rest))
      (by simpa using spelled_head (valid d (by simp)))
    have digitsRead := spanDigits_digits valid _ (tail_stops scaled ends)
    have exponentRead := spanExponent_tail scaled (by decide) ends
    simp only [List.append_assoc]
    rw [integer_eq, signRead]
    simp only
    rw [digitsRead]
    simp only
    rw [exponentRead]
    simp [ends]

def afterPoint? (negative : Bool) (whole t : Text) : Option (Numeral × Text) :=
  let fraction := (Text.spanDigits t).1
  let (exponent, rest) := Numeral.spanExponent ['+', '-'] (Text.spanDigits t).2
  if (whole ≠ [] ∨ fraction ≠ []) ∧ wordEnds rest then
    some (⟨negative, whole, fraction, exponent⟩, rest)
  else none

theorem real_point (t more : Text) (point : (Text.spanDigits (Text.spanSign t).2).2 = '.' :: more) :
    real? t = afterPoint? (Text.spanSign t).1 (Text.spanDigits (Text.spanSign t).2).1 more := by
  simp only [real?, point, afterPoint?, Option.pure_def, Option.bind_eq_bind, Option.bind_some]
  by_cases nonempty : (Text.spanDigits (Text.spanSign t).2).1 ≠ [] ∨ (Text.spanDigits more).1 ≠ []
  · by_cases ends : wordEnds (Numeral.spanExponent ['+', '-'] (Text.spanDigits more).2).2
    · simp [guard, nonempty, ends]
    · simp [guard, nonempty, ends]
  · simp only [guard, nonempty, false_and, ↓reduceIte]
    rfl

theorem real_no_point (t : Text)
    (noPoint : ∀ c ∈ (Text.spanDigits (Text.spanSign t).2).2.head?, c ≠ '.') : real? t = none := by
  simp only [real?]
  split
  · rename_i point
    rw [point] at noPoint
    exact absurd rfl (noPoint '.' rfl)
  · rfl

theorem real_sound {t rest : Text} {numeral : Numeral} (read : real? t = some (numeral, rest)) :
    ∃ text, t = text ++ rest ∧ SpellsReal text numeral ∧ wordEnds rest := by
  obtain ⟨sign, signed, whole⟩ := sign_of_spanSign t
  have digits := Text.spanDigits_append (Text.spanSign t).2
  by_cases point : ∃ more, (Text.spanDigits (Text.spanSign t).2).2 = '.' :: more
  · obtain ⟨more, point⟩ := point
    rw [real_point t more point] at read
    simp only [afterPoint?] at read
    split at read
    · rename_i found
      obtain ⟨rfl, rfl⟩ := Prod.mk.inj (Option.some.inj read)
      obtain ⟨tail, scaled, after⟩ :=
        exponent_of_spanExponent ['+', '-'] (Text.spanDigits more).2
      refine ⟨_, ?_, .intro signed (digits_of_spanDigits _) (digits_of_spanDigits _) found.1 scaled,
        found.2⟩
      have fraction := Text.spanDigits_append more
      simp only [List.append_assoc, List.cons_append]
      rw [← after, fraction, ← point, digits, ← whole]
    · cases read
  · have noPoint : ∀ c ∈ (Text.spanDigits (Text.spanSign t).2).2.head?, c ≠ '.' := by
      rintro _ member rfl
      obtain ⟨more, cons⟩ := List.head?_eq_some_iff.mp member
      exact point ⟨more, cons⟩
    rw [real_no_point t noPoint] at read
    cases read

theorem real_complete {text rest : Text} {numeral : Numeral} (spelled : SpellsReal text numeral)
    (ends : wordEnds rest) : real? (text ++ rest) = some (numeral, rest) := by
  cases spelled with
  | @intro sign whole fraction tail negative exponent signed validWhole validFraction nonempty
      scaled =>
    have unsigned : ∀ c ∈ (whole ++ '.' :: (fraction ++ (tail ++ rest))).head?,
        c ≠ '+' ∧ c ≠ '-' := by
      cases whole with
      | nil => simp
      | cons d more => simpa using spelled_head (validWhole d (by simp))
    have signRead := spanSign_sign signed _ unsigned
    have wholeRead := spanDigits_digits validWhole ('.' :: (fraction ++ (tail ++ rest)))
      (by simp)
    have fractionRead := spanDigits_digits validFraction _ (tail_stops scaled ends)
    have exponentRead := spanExponent_tail scaled (by decide) ends
    simp only [List.append_assoc, List.cons_append]
    rw [real_point _ (fraction ++ (tail ++ rest))]
    · rw [signRead, wholeRead, afterPoint?, fractionRead]
      simp only
      rw [exponentRead]
      simp [ends, nonempty]
    · rw [signRead, wholeRead]

theorem real_none_of_integer {text rest : Text} {literal : IntegerLiteral}
    (spelled : SpellsInteger text literal) (ends : wordEnds rest)
    (noPoint : ∀ c ∈ rest.head?, c ≠ '.') : real? (text ++ rest) = none := by
  cases spelled with
  | @intro sign digits tail negative exponent signed valid nonempty scaled =>
    obtain ⟨d, more, rfl⟩ := List.exists_cons_of_ne_nil nonempty
    have signRead := spanSign_sign signed (d :: more ++ (tail ++ rest))
      (by simpa using spelled_head (valid d (by simp)))
    have digitsRead := spanDigits_digits valid _ (tail_stops scaled ends)
    apply real_no_point
    simp only [List.append_assoc]
    rw [signRead]
    simp only
    rw [digitsRead]
    cases scaled with
    | absent => exact noPoint
    | unsigned letter => rcases letter with rfl | rfl <;> simp
    | signed letter => rcases letter with rfl | rfl <;> simp

theorem number_none {t : Text}
    (head : ∀ c ∈ t.head?, ¬ c.isDigit ∧ c ≠ '+' ∧ c ≠ '-' ∧ c ≠ '.') :
    realOperand? t = none ∧ integerOperand? t = none := by
  have sign : Text.spanSign t = (false, t) :=
    spanSign_sign .absent _ fun c member => ⟨(head c member).2.1, (head c member).2.2.1⟩
  have digits : Text.spanDigits t = ([], t) :=
    spanDigits_digits (show Digits [] by simp [Digits]) t fun c member => (head c member).1
  constructor
  · have real : real? t = none := by
      apply real_no_point
      rw [sign, digits]
      exact fun c member => (head c member).2.2.2
    simp [realOperand?, real]
  · have integer : integer? t = none := by
      rw [integer_eq, sign, digits]
      simp
    simp [integerOperand?, integer]

theorem integerOperand_sound {t rest : Text} {v : Operand}
    (read : integerOperand? t = some (.ok v, rest)) :
    ∃ text, t = text ++ rest ∧ SpellsScalar text v ∧ wordEnds rest := by
  simp only [integerOperand?, Option.pure_def, Option.bind_eq_bind, Option.bind_eq_some_iff] at read
  obtain ⟨⟨literal, after⟩, literalRead, value⟩ := read
  obtain ⟨text, whole, spelled, ends⟩ := integer_sound literalRead
  cases found : literal.value? with
  | none => simp [found] at value
  | some i =>
    simp only [found, Option.some.injEq, Prod.mk.injEq, Except.ok.injEq] at value
    obtain ⟨rfl, rfl⟩ := value
    exact ⟨text, whole, .int spelled found, ends⟩

theorem realOperand_sound {t rest : Text} {v : Operand}
    (read : realOperand? t = some (.ok v, rest)) :
    ∃ text, t = text ++ rest ∧ SpellsScalar text v ∧ wordEnds rest := by
  simp only [realOperand?, Option.pure_def, Option.bind_eq_bind, Option.bind_eq_some_iff] at read
  obtain ⟨⟨numeral, after⟩, numeralRead, value⟩ := read
  obtain ⟨text, whole, spelled, ends⟩ := real_sound numeralRead
  cases found : numeral.toBinary64 with
  | finite x =>
    simp only [found, Option.some.injEq, Prod.mk.injEq, Except.ok.injEq] at value
    obtain ⟨rfl, rfl⟩ := value
    exact ⟨text, whole, .real spelled found, ends⟩
  | infinity => simp [found] at value
  | nan => simp [found] at value

theorem endsOpen_digits {digits : Text} (valid : Digits digits) (nonempty : digits ≠ []) :
    endsOpen digits :=
  endsOpen_of_word (fun c member => (isWordChar_iff c).mpr (.inr (.inl (valid c member)))) nonempty

theorem endsOpen_tail {signs : List Char} {front tail : Text} {exponent : Option (Bool × Text)}
    (spelled : SpellsExponent signs tail exponent) (opens : endsOpen front) :
    endsOpen (front ++ tail) := by
  cases spelled with
  | absent => simpa using opens
  | @unsigned e digits letter valid nonempty =>
    rw [← List.singleton_append, ← List.append_assoc, endsOpen_append _ _ nonempty]
    exact endsOpen_digits valid nonempty
  | @signed e sign digits letter allowed valid nonempty =>
    rw [show e :: sign :: digits = [e, sign] ++ digits from rfl, ← List.append_assoc,
      endsOpen_append _ _ nonempty]
    exact endsOpen_digits valid nonempty

theorem endsOpen_integer {text : Text} {literal : IntegerLiteral}
    (spelled : SpellsInteger text literal) : endsOpen text := by
  cases spelled with
  | intro signed valid nonempty scaled =>
    rw [← List.append_assoc]
    apply endsOpen_tail scaled
    rw [endsOpen_append _ _ nonempty]
    exact endsOpen_digits valid nonempty

theorem endsOpen_real {text : Text} {numeral : Numeral} (spelled : SpellsReal text numeral) :
    endsOpen text := by
  cases spelled with
  | @intro sign whole fraction tail negative exponent signed validWhole validFraction nonempty
      scaled =>
    have point : endsOpen ('.' :: fraction) := by
      cases fraction with
      | nil => rfl
      | cons d more =>
        rw [← List.singleton_append, endsOpen_append _ _ (by simp)]
        exact endsOpen_digits validFraction (by simp)
    rw [← List.cons_append, ← List.append_assoc, ← List.append_assoc]
    apply endsOpen_tail scaled
    rwa [endsOpen_append _ _ (by simp)]

end Verdict.Grammar
