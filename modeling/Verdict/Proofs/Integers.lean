import Verdict.Proofs.Language

/-!
Integer literals and the numbers that they denote. A literal of any length is read as its number
wherever that number fits a signed word of 64 bits, and refused where it does not; only a zero with
an exponent whose power of ten does not fit by itself is refused too.
-/
namespace Verdict

def Text.placeValue (digits : Text) : Nat :=
  Nat.ofDigits 10 (digits.reverse.map fun d => d.toNat - '0'.toNat)

theorem Text.natOfDigits_eq (digits : Text) : natOfDigits digits = placeValue digits := by
  induction digits using List.reverseRecOn with
  | nil => rfl
  | append_singleton front d ih =>
    have last : natOfDigits (front ++ [d]) = 10 * natOfDigits front + (d.toNat - '0'.toNat) := by
      rw [natOfDigits, Nat.ofDigitChars_append]
      rfl
    rw [last, ih, placeValue, placeValue, List.reverse_append, List.reverse_singleton,
      List.singleton_append, List.map_cons, Nat.ofDigits_cons, Nat.add_comm]

/-- The integers that a signed word of 64 bits holds. -/
def InWord (n : Int) : Prop := -2 ^ 63 ≤ n ∧ n < 2 ^ 63

instance (n : Int) : Decidable (InWord n) := inferInstanceAs (Decidable (_ ∧ _))

theorem inWord_iff (n : Int) : Number.fitsInt64 n ↔ InWord n := by
  have least : Int64.minValue.toInt = -2 ^ 63 := rfl
  have largest : Int64.maxValue.toInt = 2 ^ 63 - 1 := rfl
  simp only [Number.fitsInt64, InWord, least, largest, Bool.and_eq_true, decide_eq_true_eq]
  omega

theorem inWord_toInt (i : Int64) : InWord i.toInt :=
  ⟨i.minValue_le_toInt, Int.lt_of_le_of_lt i.toInt_le (by decide)⟩

namespace Grammar.IntegerLiteral

def mantissa (l : IntegerLiteral) : Int :=
  if l.negative then -Text.placeValue l.digits else Text.placeValue l.digits

def power (l : IntegerLiteral) : Nat := Text.placeValue (l.exponent.getD [])

def number (l : IntegerLiteral) : Int := l.mantissa * 10 ^ l.power

/-- A zero whose power of ten alone does not fit. -/
def ScaledZero (l : IntegerLiteral) : Prop := l.mantissa = 0 ∧ ¬ InWord (10 ^ l.power)

instance (l : IntegerLiteral) : Decidable l.ScaledZero := inferInstanceAs (Decidable (_ ∧ _))

theorem value_eq (l : IntegerLiteral) : l.value? =
    if 18 < l.power then none
    else if Number.fitsInt64 l.number then some (.ofInt l.number) else none := by
  have power : (l.exponent.map Text.natOfDigits).getD 0 = l.power := by
    unfold IntegerLiteral.power
    cases l.exponent with
    | none => rfl
    | some digits => exact Text.natOfDigits_eq digits
  have number : (if l.negative then -(Text.natOfDigits l.digits : Int)
      else Text.natOfDigits l.digits) * (Nat.pow 10 l.power : Nat) = l.number := by
    rw [Text.natOfDigits_eq]
    simp [IntegerLiteral.number, mantissa]
  simp only [value?, power, number]

theorem inWord_power_iff (power : Nat) : InWord (10 ^ power) ↔ power ≤ 18 := by
  constructor
  · intro fits
    by_contra large
    have grows : (10 : Int) ^ 19 ≤ 10 ^ power := pow_le_pow_right₀ (by norm_num) (by omega)
    have bound := fits.2
    norm_num at grows bound
    omega
  · intro small
    have bounded : (10 : Int) ^ power ≤ 10 ^ 18 := pow_le_pow_right₀ (by norm_num) small
    have positive : (0 : Int) < 10 ^ power := by positivity
    norm_num at bounded
    exact ⟨by omega, by norm_num; omega⟩

theorem not_inWord_of_power {l : IntegerLiteral} (large : 18 < l.power) (nonzero : l.mantissa ≠ 0) :
    ¬ InWord l.number := by
  have grows : (10 : Int) ^ 19 ≤ 10 ^ l.power := pow_le_pow_right₀ (by norm_num) large
  rintro ⟨lower, upper⟩
  rw [number] at lower upper
  rcases lt_or_gt_of_ne nonzero with below | above
  · nlinarith
  · nlinarith

theorem value_eq_some_iff {l : IntegerLiteral} {i : Int64} :
    l.value? = some i ↔ i.toInt = l.number ∧ ¬ l.ScaledZero := by
  rw [value_eq, ScaledZero, inWord_power_iff]
  by_cases large : 18 < l.power
  · rw [if_pos large]
    refine ⟨nofun, fun ⟨same, unscaled⟩ => ?_⟩
    have nonzero : l.mantissa ≠ 0 := fun zero => unscaled ⟨zero, by omega⟩
    exact absurd (same ▸ inWord_toInt i) (not_inWord_of_power large nonzero)
  · rw [if_neg large]
    by_cases fits : InWord l.number
    · rw [if_pos ((inWord_iff _).mpr fits), Option.some.injEq]
      constructor
      · rintro rfl
        exact ⟨Int64.toInt_ofInt_of_le fits.1 fits.2, by omega⟩
      · rintro ⟨same, -⟩
        rw [← same, Int64.ofInt_toInt]
    · rw [if_neg ((not_congr (inWord_iff _)).mpr fits)]
      exact ⟨nofun, fun found => absurd (found.1 ▸ inWord_toInt i) fits⟩

theorem value_eq_none_iff {l : IntegerLiteral} :
    l.value? = none ↔ ¬ InWord l.number ∨ l.ScaledZero := by
  constructor
  · intro none
    by_contra fits
    obtain ⟨fits, unscaled⟩ : InWord l.number ∧ ¬ l.ScaledZero := by simpa using fits
    have some := value_eq_some_iff.mpr ⟨Int64.toInt_ofInt_of_le fits.1 fits.2, unscaled⟩
    rw [none] at some
    cases some
  · intro refused
    rw [Option.eq_none_iff_forall_ne_some]
    intro i some
    obtain ⟨same, unscaled⟩ := value_eq_some_iff.mp some
    rcases refused with beyond | scaled
    · exact beyond (same ▸ inWord_toInt i)
    · exact unscaled scaled

/-- What a literal gives as an operand: its number, or an error that quotes its text. -/
def operand (l : IntegerLiteral) (text : Text) : Spelled Operand :=
  match l.value? with
  | some i => .ok (.int i)
  | none => .error (.integerOutOfRange text)

theorem operand_ok_iff {l : IntegerLiteral} {text : Text} {i : Int64} :
    l.operand text = .ok (.int i) ↔ i.toInt = l.number ∧ ¬ l.ScaledZero := by
  rw [← value_eq_some_iff, operand]
  cases l.value? with
  | some j => simp
  | none => simp

theorem operand_error_iff {l : IntegerLiteral} {text : Text} :
    l.operand text = .error (.integerOutOfRange text) ↔ ¬ InWord l.number ∨ l.ScaledZero := by
  rw [← value_eq_none_iff, operand]
  cases l.value? with
  | some j => simp
  | none => simp

end Grammar.IntegerLiteral

namespace Grammar
open Reader

theorem consumed_append (text rest : Text) : consumed (text ++ rest) rest = text := by
  rw [consumed, List.length_append, Nat.add_sub_cancel]
  exact List.take_left

theorem starts_integer {t : Text} {l : IntegerLiteral} (spelled : SpellsInteger t l) :
    Starts opensScalar t := by
  cases spelled with
  | intro signed valid nonempty => exact starts_sign signed (starts_digits valid nonempty _)

theorem operand_integer {allowed : Bool} {text t rest : Text} {l : IntegerLiteral}
    (spelled : SpellsInteger text l) (taken : Taken (· = text) t rest)
    (noPoint : ∀ c ∈ rest.head?, c ≠ '.') :
    (operand allowed t).outcome = .matched (l.operand text) rest := by
  obtain ⟨text, split, rfl, seam⟩ := taken
  have ends := seam (endsOpen_integer spelled)
  have noReal := real_none_of_integer spelled ends noPoint
  have read := integer_complete spelled ends
  have noList : ∀ d ∈ (Text.skipBlanks t).head?, d ≠ '(' := by
    rw [split]
    exact (starts_integer spelled).other rest rfl
  have scalar : scalar? (text ++ rest) = some (l.operand text, rest) := by
    simp only [scalar?, realOperand?, noReal, integerOperand?, read, consumed_append,
      IntegerLiteral.operand, Option.bind_eq_bind, Option.bind_some, Option.bind_none,
      Option.none_or]
    cases l.value? <;> rfl
  rw [operand, orElse_of_failed (valueList_failed noList), value_outcome, token_outcome, split,
    scalar]

end Grammar

namespace Query
open Grammar Reader

def compared (left operator right : Text) : Text := left ++ ' ' :: (operator ++ ' ' :: right)

theorem flat_compared {left operator right : Text} {v : Operand} {op : Operator}
    {l : IntegerLiteral} (leftSpelled : SpellsScalar left v)
    (operatorSpelled : SpellsOperator operator op) (rightSpelled : SpellsInteger right l)
    (limit : Nat) : nestsBeyond limit 0 none (compared left operator right) = false := by
  have space : Nests 0 [' '] := nests_plain (by decide)
  have flat := (nests_scalar leftSpelled).append (space.append
    ((nests_operator operatorSpelled).append (space.append (nests_integer rightSpelled))))
  simpa [nestsBeyond, compared] using flat limit 0 [] (Nat.zero_le limit)

theorem parse_compared {left operator right : Text} {v : Operand} {op : Operator}
    {l : IntegerLiteral} (leftSpelled : SpellsScalar left v)
    (operatorSpelled : SpellsOperator operator op) (rightSpelled : SpellsInteger right l)
    (limit : Nat) :
    parse limit (compared left operator right) =
      ((l.operand right).mapError .numeral).map fun n => [.condition ⟨v, op, n⟩] := by
  have skip : Text.skipBlanks (compared left operator right) = compared left operator right :=
    (starts_scalar leftSpelled).skip (by decide) _
  have leftTaken : Taken (· = left) (compared left operator right)
      (' ' :: (operator ++ ' ' :: right)) := ⟨left, skip, rfl, fun _ => rfl⟩
  have operatorTaken : Taken (· = operator) (' ' :: (operator ++ ' ' :: right)) (' ' :: right) :=
    ⟨operator, (starts_operator operatorSpelled).skip (by decide) _, rfl, fun _ => rfl⟩
  have rightTaken : Taken (· = right) (' ' :: right) [] := by
    have solid := (starts_integer rightSpelled).skip (by decide) []
    exact ⟨right, (congrArg Text.skipBlanks (List.append_nil right)).symm.trans solid, rfl,
      fun _ => rfl⟩
  have conditionRead (allowed : Bool) :
      (condition allowed (compared left operator right)).outcome =
        .matched ((l.operand right).map fun n => .condition ⟨v, op, n⟩) [] := by
    have leftRead : (operand allowed (compared left operator right)).outcome = _ :=
      operand_complete (.scalar leftSpelled) (.inl (nesting_scalar leftSpelled)) leftTaken (by simp)
    have operatorRead := operatorPart_complete operatorSpelled operatorTaken (by simp)
    have rightRead : (operand allowed (' ' :: right)).outcome = _ :=
      operand_integer rightSpelled rightTaken (by simp)
    rw [condition, part_outcome, skip, bind_of_matched leftRead, bind_of_matched operatorRead,
      bind_of_matched rightRead, pure_outcome]
    cases l.operand right <;> rfl
  have levelRead (inner : Option (Reader (Spelled Sequence))) :
      (level inner (compared left operator right)).outcome =
        .matched ((l.operand right).map fun n => [.condition ⟨v, op, n⟩]) [] := by
    have termRead := orElse_of_matched (conditionRead inner.isSome) (group inner)
    have noMore : (many (joinedTerm inner) []).outcome = .matched [] [] :=
      many_of_chain (.nil []) (joinedTerm_failed (by simp [Text.skipBlanks])) (Nat.zero_le _)
    rw [level, part_outcome, skip, term, bind_of_matched termRead, bind_of_matched noMore,
      pure_outcome]
    cases l.operand right <;> rfl
  have whole : (part .main (main limit) (compared left operator right)).outcome =
      .matched ((l.operand right).map fun n => [.condition ⟨v, op, n⟩]) [] := by
    rw [part_outcome, skip, main, expression_eq_level, bind_of_matched (levelRead _)]
    rfl
  unfold parse
  simp only [flat_compared leftSpelled operatorSpelled rightSpelled, whole, Bool.false_eq_true,
    ↓reduceIte]
  cases l.operand right <;> rfl

/-- An integer literal of any length, with any sign, zeros and exponent, is read as its number
    wherever an operand may stand. It gives that number if a signed word of 64 bits holds it and is
    refused if not, as an operand and in the answer to a whole query; only a zero is refused as well
    where the power of ten that scales it does not fit. -/
theorem integer_literals_exact {t : Text} {l : IntegerLiteral}
    (literal : integer? t = some (l, [])) :
    (∃ v, (∀ allowed u rest, Taken (· = t) u rest → (∀ c ∈ rest.head?, c ≠ '.') →
        (operand allowed u).outcome = .matched v rest) ∧
      (∀ i, v = .ok (.int i) ↔ i.toInt = l.number ∧ ¬ l.ScaledZero) ∧
      (v = .error (.integerOutOfRange t) ↔ ¬ InWord l.number ∨ l.ScaledZero)) ∧
    ∀ limit left operator v op, SpellsScalar left v → SpellsOperator operator op →
      (∀ i, parse limit (compared left operator t) = .ok [.condition ⟨v, op, .int i⟩] ↔
        i.toInt = l.number ∧ ¬ l.ScaledZero) ∧
      (parse limit (compared left operator t) = .error (.numeral (.integerOutOfRange t)) ↔
        ¬ InWord l.number ∨ l.ScaledZero) := by
  obtain ⟨text, whole, spelled, -⟩ := integer_sound literal
  rw [List.append_nil] at whole
  subst whole
  refine ⟨⟨l.operand t, fun allowed u rest => operand_integer spelled,
    fun i => IntegerLiteral.operand_ok_iff, IntegerLiteral.operand_error_iff⟩,
    fun limit left operator v op leftSpelled operatorSpelled => ?_⟩
  rw [parse_compared leftSpelled operatorSpelled spelled]
  constructor
  · intro i
    rw [← @IntegerLiteral.operand_ok_iff l t]
    cases l.operand t with
    | ok n => simp [Except.mapError, Except.map]
    | error e => simp [Except.mapError, Except.map]
  · rw [← @IntegerLiteral.operand_error_iff l t]
    cases l.operand t with
    | ok n => simp [Except.mapError, Except.map]
    | error e => simp [Except.mapError, Except.map]

theorem padded_literal_read :
    integer? "-0009223372036854775e+3".toList =
        some (⟨true, "0009223372036854775".toList, some "3".toList⟩, []) ∧
      SpellsScalar "a".toList (.path "a".toList) ∧ SpellsOperator "=".toList .equal ∧
      parse 0 "a = -0009223372036854775e+3".toList =
        .ok [.condition ⟨.path "a".toList, .equal, .int (-9223372036854775000)⟩] := by
  have literal : integer? "-0009223372036854775e+3".toList =
      some (⟨true, "0009223372036854775".toList, some "3".toList⟩, []) := by cbv
  have path : SpellsScalar "a".toList (.path "a".toList) :=
    .path (@IsPath.intro ['a'] [] ⟨'a', [], rfl, rfl, by simp⟩ (by simp) (by decide))
  have equal : SpellsOperator "=".toList .equal := by
    show Text.folded "=".toList ∈ Operator.equal.tokens
    decide
  obtain ⟨-, read⟩ := integer_literals_exact literal
  exact ⟨literal, path, equal, ((read 0 _ _ _ _ path equal).1 _).mpr (by decide)⟩

/-- The number zero fits, but its exponent is refused before it is multiplied. -/
theorem scaledZero_refused :
    integer? "0e19".toList = some (⟨false, ['0'], some ['1', '9']⟩, []) ∧
      IntegerLiteral.number ⟨false, ['0'], some ['1', '9']⟩ = 0 ∧
      parse 64 "a = 0e19".toList = .error (.numeral (.integerOutOfRange "0e19".toList)) := by
  exact ⟨by cbv, by decide, by cbv⟩

end Query
end Verdict
