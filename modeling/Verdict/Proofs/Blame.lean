import Verdict.Proofs.Footprint
import Verdict.Proofs.Integers
import Verdict.Proofs.NumberText
import Verdict.Proofs.Zeroing

/-!
What an error about a numeral blames. Whatever reader gives it, its literal is out of range and
stands in the text that was read, in one piece. Zeros are never out of range.
-/
namespace Verdict.Grammar
open Reader

def Zeros (t : Text) : Prop := ∀ c ∈ t, c.isDigit → c = '0'

def NumeralError.literal : NumeralError → Text
  | .integerOutOfRange literal => literal
  | .realOutOfRange literal => literal

/-- The literal is a numeral, but not of a number that an operand can hold. -/
def NumeralError.Beyond : NumeralError → Prop
  | .integerOutOfRange literal => ∃ l, SpellsInteger literal l ∧ l.value? = none
  | .realOutOfRange literal => ∃ n, SpellsReal literal n ∧ ∀ x, n.toBinary64 ≠ .finite x

/-- The error is about a numeral that stands in the text and is out of range. -/
structure Blames (t : Text) (e : NumeralError) : Prop where
  inside : e.literal <:+: t
  beyond : e.Beyond

theorem zeros_zeroed (t : Text) : Zeros (zeroed t) := by
  intro c member digit
  obtain ⟨d, -, rfl⟩ := List.mem_map.mp member
  rw [isDigit_zero] at digit
  rw [zero, if_pos digit]

theorem Zeros.of_infix {a t : Text} (zeros : Zeros t) (inside : a <:+: t) : Zeros a :=
  fun c member => zeros c (inside.subset member)

theorem zeros_append {a b : Text} : Zeros (a ++ b) ↔ Zeros a ∧ Zeros b := List.forall_mem_append

theorem zeroed_of_zeros {t : Text} (zeros : Zeros t) : zeroed t = t := by
  have same : ∀ c ∈ t, zero c = c := by
    intro c member
    unfold zero
    split
    · exact (zeros c member ‹_›).symm
    · rfl
  exact (List.map_congr_left same).trans (List.map_id t)

theorem Blames.of_suffix {t rest : Text} {e : NumeralError} (blames : Blames rest e)
    (suffix : rest <:+ t) : Blames t e :=
  ⟨blames.inside.trans suffix.isInfix, blames.beyond⟩

theorem natOfDigits_zeros {digits : Text} (valid : Digits digits) (zeros : Zeros digits) :
    Text.natOfDigits digits = 0 := by
  have whole : digits = List.replicate digits.length '0' :=
    List.eq_replicate_of_mem fun c member => zeros c member (valid c member)
  have none := natOfDigits_zeros_before [] digits.length
  rw [List.append_nil, ← whole] at none
  exact none

theorem solid_digits {digits : Text} (valid : Digits digits) :
    ∀ c ∈ digits, Text.isBlank c = false :=
  fun c member => isBlank_of_isDigit (valid c member)

theorem solid_sign {sign : Text} {negative : Bool} (spelled : SpellsSign sign negative) :
    ∀ c ∈ sign, Text.isBlank c = false := by
  cases spelled <;> decide

theorem solid_exponent {signs : List Char} {tail : Text} {exponent : Option (Bool × Text)}
    (spelled : SpellsExponent signs tail exponent)
    (solid : ∀ c ∈ signs, Text.isBlank c = false) : ∀ c ∈ tail, Text.isBlank c = false := by
  have letters {e : Char} (letter : e = 'e' ∨ e = 'E') : Text.isBlank e = false := by
    rcases letter with rfl | rfl <;> rfl
  cases spelled with
  | absent => simp
  | unsigned letter valid =>
    exact List.forall_mem_cons.mpr ⟨letters letter, solid_digits valid⟩
  | signed letter allowed valid =>
    exact List.forall_mem_cons.mpr
      ⟨letters letter, List.forall_mem_cons.mpr ⟨solid _ allowed, solid_digits valid⟩⟩

theorem exponent_of_zeros {signs : List Char} {tail : Text} {exponent : Option (Bool × Text)}
    (spelled : SpellsExponent signs tail exponent) (zeros : Zeros tail) :
    (exponent.map fun read => Text.natOfDigits read.2).getD 0 = 0 := by
  cases spelled with
  | absent => rfl
  | @unsigned e digits letter valid =>
    exact natOfDigits_zeros valid (zeros.of_infix (List.suffix_cons e digits).isInfix)
  | @signed e sign digits letter allowed valid =>
    exact natOfDigits_zeros valid (zeros.of_infix ⟨[e, sign], [], by simp⟩)

theorem value_of_zeros {text : Text} {l : IntegerLiteral} (spelled : SpellsInteger text l)
    (zeros : Zeros text) : l.value? ≠ none := by
  cases spelled with
  | @intro sign digits tail negative exponent signed valid nonempty scaled =>
    rw [zeros_append, zeros_append] at zeros
    have mantissa := natOfDigits_zeros valid zeros.2.1
    have power : ((exponent.map Prod.snd).map Text.natOfDigits).getD 0 = 0 := by
      rw [Option.map_map]
      exact exponent_of_zeros scaled zeros.2.2
    simp only [IntegerLiteral.value?, mantissa, power]
    cases negative <;> decide

theorem finite_of_zeros {text : Text} {n : Numeral} (spelled : SpellsReal text n)
    (zeros : Zeros text) : ∃ x, n.toBinary64 = .finite x := by
  cases spelled with
  | @intro sign whole fraction tail negative exponent signed validWhole validFraction =>
    rw [zeros_append, zeros_append, ← List.singleton_append, zeros_append, zeros_append] at zeros
    have digits := natOfDigits_zeros (validWhole.append validFraction)
      (zeros_append.mpr ⟨zeros.2.1, zeros.2.2.2.1⟩)
    refine ⟨.zero negative, ?_⟩
    rw [Numeral.toBinary64, Binary64.Decimal.toBinary64, Numeral.decimal, if_pos digits]

theorem NumeralError.Beyond.not_zeros {e : NumeralError} (beyond : e.Beyond) :
    ¬ Zeros e.literal := by
  intro zeros
  cases e with
  | integerOutOfRange literal =>
    obtain ⟨l, spelled, none⟩ := beyond
    exact value_of_zeros spelled zeros none
  | realOutOfRange literal =>
    obtain ⟨n, spelled, infinite⟩ := beyond
    obtain ⟨x, finite⟩ := finite_of_zeros spelled zeros
    exact infinite x finite

theorem NumeralError.Beyond.solid {e : NumeralError} (beyond : e.Beyond) :
    ∀ c ∈ e.literal, Text.isBlank c = false := by
  cases e with
  | integerOutOfRange literal =>
    obtain ⟨l, spelled, -⟩ := beyond
    cases spelled with
    | intro signed valid nonempty scaled =>
      exact List.forall_mem_append.mpr ⟨solid_sign signed, List.forall_mem_append.mpr
        ⟨solid_digits valid, solid_exponent scaled (by decide)⟩⟩
  | realOutOfRange literal =>
    obtain ⟨n, spelled, -⟩ := beyond
    cases spelled with
    | intro signed validWhole validFraction nonempty scaled =>
      exact List.forall_mem_append.mpr ⟨solid_sign signed, List.forall_mem_append.mpr
        ⟨solid_digits validWhole, List.forall_mem_cons.mpr ⟨rfl, List.forall_mem_append.mpr
          ⟨solid_digits validFraction, solid_exponent scaled (by decide)⟩⟩⟩⟩

theorem blames_integer {t rest : Text} {e : NumeralError}
    (read : integerOperand? t = some (.error e, rest)) : Blames t e := by
  simp only [integerOperand?, Option.pure_def, Option.bind_eq_bind, Option.bind_eq_some_iff] at read
  obtain ⟨⟨l, after⟩, found, value⟩ := read
  obtain ⟨text, rfl, spelled, -⟩ := integer_sound found
  cases number : l.value? with
  | some i => simp [number] at value
  | none =>
    simp only [number, consumed_append, Option.some.injEq, Prod.mk.injEq, Except.error.injEq]
      at value
    obtain ⟨rfl, rfl⟩ := value
    exact ⟨(List.prefix_append text after).isInfix, l, spelled, number⟩

theorem blames_real {t rest : Text} {e : NumeralError}
    (read : realOperand? t = some (.error e, rest)) : Blames t e := by
  simp only [realOperand?, Option.pure_def, Option.bind_eq_bind, Option.bind_eq_some_iff] at read
  obtain ⟨⟨n, after⟩, found, value⟩ := read
  obtain ⟨text, rfl, spelled, -⟩ := real_sound found
  have inside : text <:+: text ++ after := (List.prefix_append text after).isInfix
  cases number : n.toBinary64 with
  | finite x => simp [number] at value
  | infinity negative =>
    simp only [number, consumed_append, Option.some.injEq, Prod.mk.injEq, Except.error.injEq]
      at value
    obtain ⟨rfl, rfl⟩ := value
    exact ⟨inside, n, spelled, by simp [number]⟩
  | nan =>
    simp only [number, consumed_append, Option.some.injEq, Prod.mk.injEq, Except.error.injEq]
      at value
    obtain ⟨rfl, rfl⟩ := value
    exact ⟨inside, n, spelled, by simp [number]⟩

/-- A reader leaves an end of the text, and the errors of its value are known already or blame what
    it has read. -/
def Accounts {α : Type} (known : NumeralError → Prop) (errors : α → NumeralError → Prop)
    (p : Reader α) : Prop :=
  ∀ t value rest, (p t).outcome = .matched value rest →
    rest <:+ t ∧ ∀ e, errors value e → known e ∨ Blames t e

def Spelled.errors {α : Type} (spelled : Spelled α) (e : NumeralError) : Prop := spelled = .error e

def noErrors {α : Type} (_ : α) (_ : NumeralError) : Prop := False

section
variable {α β : Type} {known : NumeralError → Prop} {errors : α → NumeralError → Prop}
  {others : β → NumeralError → Prop}

theorem accounts_pure {value : α} (explained : ∀ e, errors value e → known e) :
    Accounts known errors (pure value) := by
  intro t v rest read
  cases read
  exact ⟨List.suffix_refl t, fun e inside => .inl (explained e inside)⟩

theorem accounts_fail : Accounts known errors fail := by
  intro t v rest read
  cases read

theorem Accounts.bind {p : Reader α} {f : α → Reader β} (first : Accounts known errors p)
    (next : ∀ value, Accounts (fun e => known e ∨ errors value e) others (f value)) :
    Accounts known others (p >>= f) := by
  intro t v rest read
  obtain ⟨value, middle, firstRead, nextRead⟩ := matched_of_bind read
  obtain ⟨suffix, explained⟩ := first t value middle firstRead
  obtain ⟨suffixNext, explainedNext⟩ := next value middle v rest nextRead
  refine ⟨suffixNext.trans suffix, fun e inside => ?_⟩
  rcases explainedNext e inside with (before | here) | blames
  · exact .inl before
  · exact explained e here
  · exact .inr (blames.of_suffix suffix)

theorem Accounts.orElse {p q : Reader α} (first : Accounts known errors p)
    (second : Accounts known errors q) : Accounts known errors (Reader.orElse p q) := by
  intro t v rest read
  rcases matched_of_orElse read with here | ⟨-, there⟩
  · exact first t v rest here
  · exact second t v rest there

theorem accounts_choice {ps : List (Reader α)} (each : ∀ p ∈ ps, Accounts known errors p) :
    Accounts known errors (choice ps) := by
  induction ps with
  | nil => exact accounts_fail
  | cons p rest ih =>
    exact (each p (by simp)).orElse (ih fun other member => each other (by simp [member]))

theorem Accounts.chain {p : Reader α} (each : Accounts known errors p) {t rest : Text}
    {values : List α} (chain : Chain p t values rest) :
    rest <:+ t ∧ ∀ e, (∃ value ∈ values, errors value e) → known e ∨ Blames t e := by
  induction chain with
  | nil t => exact ⟨List.suffix_refl t, by simp⟩
  | @cons t middle rest value values first more ih =>
    obtain ⟨suffix, explained⟩ := each t value middle first
    refine ⟨ih.1.trans suffix, ?_⟩
    rintro e ⟨other, member, inside⟩
    rcases List.mem_cons.mp member with rfl | later
    · exact explained e inside
    · exact (ih.2 e ⟨other, later, inside⟩).imp_right fun blames => blames.of_suffix suffix

theorem Accounts.many {p : Reader α} (each : Accounts known errors p) :
    Accounts known (fun values e => ∃ value ∈ values, errors value e) (Reader.many p) :=
  fun _ _ _ read => each.chain (chain_of_repeated read)

theorem skipBlanks_suffix (t : Text) : Text.skipBlanks t <:+ t := List.dropWhile_suffix _

theorem Accounts.part {p : Reader α} (inner : Accounts known errors p) (name : Part) :
    Accounts known errors (Reader.part name p) := by
  intro t v rest read
  rw [part_outcome] at read
  obtain ⟨suffix, explained⟩ := inner _ v rest read
  exact ⟨suffix.trans (skipBlanks_suffix t), fun e inside =>
    (explained e inside).imp_right fun blames => blames.of_suffix (skipBlanks_suffix t)⟩

theorem accounts_token {f : Text → Option (α × Text)}
    (found : ∀ t value rest, f t = some (value, rest) →
      rest <:+ t ∧ ∀ e, errors value e → Blames t e) : Accounts known errors (token f) := by
  intro t v rest read
  obtain ⟨suffix, blames⟩ := found t v rest (matched_of_token read)
  exact ⟨suffix, fun e inside => .inr (blames e inside)⟩

theorem accounts_symbol (c : Char) : Accounts known noErrors (symbol c) := by
  intro t v rest read
  have skip := matched_of_symbol read
  have suffix := skipBlanks_suffix t
  rw [skip] at suffix
  exact ⟨(List.suffix_cons c rest).trans suffix, by simp [noErrors]⟩

theorem accounts_opening (allowed : Bool) : Accounts known noErrors (opening allowed) := by
  intro t v rest read
  have suffix := skipBlanks_suffix t
  rw [(matched_of_opening read).2] at suffix
  exact ⟨(List.suffix_cons '(' rest).trans suffix, by simp [noErrors]⟩

end

variable {known : NumeralError → Prop}

theorem all_error {α : Type} {values : List (Spelled α)} {e : NumeralError}
    (failed : Spelled.all values = .error e) : .error e ∈ values := by
  induction values with
  | nil => cases failed
  | cons first rest ih =>
    rcases error_of_bind failed with rfl | ⟨_, -, failed⟩
    · exact List.mem_cons_self
    · rcases error_of_bind failed with behind | ⟨_, -, failed⟩
      · exact List.mem_cons_of_mem _ (ih behind)
      · cases failed

theorem sequence_error {first : Spelled Node} {more : List (Connective × Spelled Node)}
    {e : NumeralError} (failed : Spelled.sequence first more = .error e) :
    first = .error e ∨ ∃ joined ∈ more, joined.2 = .error e := by
  induction more generalizing first with
  | nil =>
    rcases error_of_bind failed with here | ⟨_, -, failed⟩
    · exact .inl here
    · cases failed
  | cons joined rest ih =>
    rcases error_of_bind failed with here | ⟨_, -, failed⟩
    · exact .inl here
    · rcases error_of_bind failed with behind | ⟨_, -, failed⟩
      · rcases ih behind with next | ⟨later, member, there⟩
        · exact .inr ⟨joined, List.mem_cons_self, next⟩
        · exact .inr ⟨later, List.mem_cons_of_mem _ member, there⟩
      · cases failed

theorem accounts_plain {α : Type} {f : Text → Option (α × Text)}
    (splits : ∀ {t value rest}, f t = some (value, rest) → ∃ text, t = text ++ rest) :
    Accounts known noErrors (token f) :=
  accounts_token fun _ value rest found => by
    obtain ⟨text, rfl⟩ := splits found
    exact ⟨List.suffix_append text rest, by simp [noErrors]⟩

theorem accounts_word {α : Type} (word : Text) (value : α) :
    Accounts known noErrors (token fun t => (afterWord? word t).map (value, ·)) :=
  accounts_plain fun found => by
    obtain ⟨rest, read, same⟩ := Option.map_eq_some_iff.mp found
    cases same
    obtain ⟨text, split, -⟩ := (afterWord_iff _ _ _).mp read
    exact ⟨text, split⟩

theorem accounts_value : Accounts known Spelled.errors value := by
  have real : Accounts known Spelled.errors (token realOperand?) :=
    accounts_token fun t v rest found => by
      obtain ⟨text, rfl, -⟩ := flat_real found
      exact ⟨List.suffix_append text rest, fun e failed => blames_real (failed ▸ found)⟩
  have integer : Accounts known Spelled.errors (token integerOperand?) :=
    accounts_token fun t v rest found => by
      obtain ⟨text, rfl, -⟩ := flat_integer found
      exact ⟨List.suffix_append text rest, fun e failed => blames_integer (failed ▸ found)⟩
  have string : Accounts known noErrors (token string?) := accounts_plain fun found =>
    (string_sound found).imp fun _ => And.left
  have boolean : Accounts known noErrors (token boolean?) := accounts_plain fun found =>
    (boolean_sound found).imp fun _ => And.left
  have path : Accounts known noErrors (token path?) := accounts_plain fun found =>
    (flat_path found).imp fun _ => And.left
  apply accounts_choice
  simp only [List.forall_mem_cons]
  exact ⟨real.part _, integer.part _, (string.bind fun _ => accounts_pure nofun).part _,
    (boolean.bind fun _ => accounts_pure nofun).part _,
    ((accounts_word _ ()).bind fun _ => accounts_pure nofun).part _,
    (path.bind fun _ => accounts_pure nofun).part _, by simp⟩

theorem accounts_valueList (allowed : Bool) :
    Accounts known Spelled.errors (valueList allowed) := by
  refine Accounts.part ((accounts_opening allowed).bind fun _ => accounts_value.bind fun first =>
    (Accounts.many ((accounts_symbol ',').bind fun _ => accounts_value)).bind fun more =>
      (accounts_symbol ')').bind fun _ => accounts_pure ?_) _
  intro e failed
  rcases List.mem_cons.mp (all_error (map_eq_error_iff.mp failed)) with here | behind
  · exact .inl (.inl (.inr here.symm))
  · exact .inl (.inr ⟨_, behind, rfl⟩)

theorem accounts_operand (allowed : Bool) : Accounts known Spelled.errors (operand allowed) :=
  (accounts_valueList allowed).orElse accounts_value

theorem accounts_condition (allowed : Bool) :
    Accounts known Spelled.errors (condition allowed) := by
  have operator {known : NumeralError → Prop} : Accounts known noErrors (token operator?) :=
    accounts_plain fun found => (operator_sound found).imp fun _ => And.left
  refine Accounts.part ((accounts_operand allowed).bind fun left => (operator.part _).bind fun op =>
    (accounts_operand allowed).bind fun right => accounts_pure ?_) _
  intro e failed
  rcases error_of_bind failed with here | ⟨_, -, failed⟩
  · exact .inl (.inl (.inr here))
  · rcases error_of_bind failed with there | ⟨_, -, failed⟩
    · exact .inr there
    · cases failed

theorem accounts_connective : Accounts known noErrors connective :=
  ((accounts_word _ _).part _).orElse ((accounts_word _ _).part _)

def AccountsInside (inner : Option (Reader (Spelled Sequence))) : Prop :=
  ∀ p ∈ inner, ∀ known, Accounts known Spelled.errors p

variable {inner : Option (Reader (Spelled Sequence))}

theorem accounts_group (inside : AccountsInside inner) :
    Accounts known Spelled.errors (group inner) := by
  have body {known : NumeralError → Prop} : Accounts known Spelled.errors (inner.getD fail) := by
    cases inner with
    | none => exact accounts_fail
    | some p => exact inside p rfl known
  refine Accounts.part ((accounts_opening _).bind fun _ => body.bind fun spelled =>
    (accounts_symbol ')').bind fun _ => accounts_pure ?_) _
  intro e failed
  exact .inl (.inr (map_eq_error_iff.mp failed))

theorem accounts_term (inside : AccountsInside inner) :
    Accounts known Spelled.errors (term inner) :=
  (accounts_condition _).orElse (accounts_group inside)

theorem accounts_level (inside : AccountsInside inner) :
    Accounts known Spelled.errors (level inner) := by
  have joined {known : NumeralError → Prop} :
      Accounts known (fun joined e => joined.2 = .error e) (joinedTerm inner) :=
    accounts_connective.bind fun _ => (accounts_term inside).bind fun _ =>
      accounts_pure fun _ => .inr
  refine Accounts.part ((accounts_term inside).bind fun first => joined.many.bind fun more =>
    accounts_pure ?_) _
  intro e failed
  rcases sequence_error failed with here | there
  · exact .inl (.inr here)
  · exact .inr there

theorem accounts_expression (budget : Nat) : Accounts known Spelled.errors (expression budget) := by
  induction budget generalizing known with
  | zero => exact accounts_level (by simp [AccountsInside])
  | succ budget ih =>
    refine accounts_level fun p member known => ?_
    cases member
    exact ih

theorem accounts_end : Accounts known noErrors endOfInput := by
  refine Accounts.part (fun t v rest read => ?_) _
  by_cases empty : t = []
  · rw [if_pos empty] at read
    cases read
    exact ⟨List.nil_suffix, by simp [noErrors]⟩
  · rw [if_neg empty] at read
    cases read

theorem accounts_main (budget : Nat) :
    Accounts known Spelled.errors (Reader.part .main (main budget)) :=
  ((accounts_expression budget).bind fun _ => accounts_end.bind fun _ =>
    accounts_pure fun _ failed => .inl (.inr failed)).part _

theorem Accounts.blames {α : Type} {p : Reader (Spelled α)}
    (accounts : Accounts (fun _ => False) Spelled.errors p) {t rest : Text} {e : NumeralError}
    (read : (p t).outcome = .matched (.error e) rest) : Blames t e :=
  ((accounts t _ rest read).2 e rfl).resolve_left id

theorem Accounts.ok_of_zeros {α : Type} {p : Reader (Spelled α)}
    (accounts : Accounts (fun _ => False) Spelled.errors p) {t rest : Text} {spelled : Spelled α}
    (zeros : Zeros t) (read : (p t).outcome = .matched spelled rest) : ∃ v, spelled = .ok v := by
  cases spelled with
  | ok v => exact ⟨v, rfl⟩
  | error e =>
    have blames := accounts.blames read
    exact absurd (zeros.of_infix blames.inside) blames.beyond.not_zeros

theorem infix_around {text front behind : Text} {c : Char} (absent : c ∉ text)
    (inside : text <:+: front ++ c :: behind) : text <:+: front ∨ text <:+: behind := by
  obtain ⟨before, after, whole⟩ := inside
  rcases List.append_eq_append_iff.mp whole with ⟨more, split, -⟩ | ⟨more, split, rest⟩
  · exact .inl ⟨before, more, split.symm⟩
  · rcases List.cons_eq_append_iff.mp rest with ⟨rfl, -⟩ | ⟨others, rfl, behindSplit⟩
    · exact .inl ⟨before, [], by simpa using split⟩
    · rcases List.append_eq_append_iff.mp split with ⟨part, -, textSplit⟩ | ⟨part, -, cut⟩
      · exact absurd (by simp [textSplit]) absent
      · rcases List.cons_eq_append_iff.mp cut with ⟨-, rfl⟩ | ⟨middle, -, rfl⟩
        · exact absurd (by simp) absent
        · exact .inr ⟨middle, after, by rw [behindSplit]⟩

theorem Blames.front {front behind : Text} {c : Char} {e : NumeralError}
    (blames : Blames (front ++ c :: behind) e) (blank : Text.isBlank c) (zeros : Zeros behind) :
    Blames front e := by
  have absent : c ∉ e.literal := fun member => by
    rw [blames.beyond.solid c member] at blank
    cases blank
  rcases infix_around absent blames.inside with inside | inside
  · exact ⟨inside, blames.beyond⟩
  · exact absurd (zeros.of_infix inside) blames.beyond.not_zeros

end Verdict.Grammar
