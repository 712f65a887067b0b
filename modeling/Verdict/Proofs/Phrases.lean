import Verdict.Proofs.Literals

/-!
How phrases start. The first character tells operands, operators and connectives from blanks and
from the characters that may follow them.
-/
namespace Verdict.Grammar

def Starts (p : Char → Bool) (t : Text) : Prop := ∃ c rest, t = c :: rest ∧ p c

theorem Starts.nonempty {p : Char → Bool} {t : Text} (starts : Starts p t) : t ≠ [] := by
  obtain ⟨c, rest, rfl, -⟩ := starts
  simp

theorem starts_char (c : Char) : Starts (· == c) [c] := ⟨c, [], rfl, beq_self_eq_true c⟩

theorem Starts.mono {p q : Char → Bool} {t : Text} (starts : Starts p t)
    (implies : ∀ c, p c → q c) : Starts q t := by
  obtain ⟨c, rest, rfl, isP⟩ := starts
  exact ⟨c, rest, rfl, implies c isP⟩

theorem Starts.joins {p : Char → Bool} {a b t : Text} (starts : Starts p a) (joins : Joins a b t) :
    Starts p t := by
  obtain ⟨c, rest, rfl, isP⟩ := starts
  cases joins with
  | intro blanks => exact ⟨c, rest ++ (blanks ++ b), rfl, isP⟩

theorem Joins.assoc {a b c ab t : Text} (front : Joins a b ab) (joins : Joins ab c t)
    (nonempty : b ≠ []) : ∃ bc, Joins b c bc ∧ Joins a bc t := by
  cases front with
  | intro blanks blank seam =>
    cases joins with
    | intro others blankOthers seamOthers =>
      obtain ⟨d, more, rfl⟩ := List.exists_cons_of_ne_nil nonempty
      refine ⟨d :: more ++ (others ++ c), .intro others blankOthers ?_, ?_⟩
      · rwa [Seam, endsOpen_append _ _ (by simp), endsOpen_append _ _ nonempty] at seamOthers
      · have whole : a ++ (blanks ++ d :: more) ++ (others ++ c) =
            a ++ (blanks ++ (d :: more ++ (others ++ c))) := by simp
        rw [whole]
        refine .intro blanks blank fun isOpen => ?_
        have ends := seam isOpen
        cases blanks with
        | nil => exact ends
        | cons => exact ends

theorem Starts.joinsAfter {p : Char → Bool} {a b c ab t : Text} (starts : Starts p b)
    (front : Joins a b ab) (joins : Joins ab c t) : ∃ bc, Starts p bc ∧ Joins a bc t := by
  obtain ⟨bc, second, whole⟩ := front.assoc joins starts.nonempty
  exact ⟨bc, starts.joins second, whole⟩

theorem Starts.other {p : Char → Bool} {t : Text} (starts : Starts p t) (rest : Text) {c : Char}
    (excluded : p c = false) : ∀ d ∈ (t ++ rest).head?, d ≠ c := by
  obtain ⟨e, more, rfl, isP⟩ := starts
  rintro d member rfl
  obtain rfl : e = d := by simpa using member
  rw [isP] at excluded
  cases excluded

theorem isBlank_cases {c : Char} (blank : Text.isBlank c) : c ∈ [' ', '\t', '\r', '\n'] := by
  simpa [Text.isBlank, or_assoc] using blank

theorem Starts.skip {p : Char → Bool} {t : Text} (starts : Starts p t)
    (solid : ∀ c ∈ [' ', '\t', '\r', '\n'], p c = false) (rest : Text) :
    Text.skipBlanks (t ++ rest) = t ++ rest := by
  obtain ⟨c, more, rfl, isP⟩ := starts
  have notBlank : Text.isBlank c = false := by
    rw [Bool.eq_false_iff]
    intro blank
    have excluded := solid c (isBlank_cases blank)
    rw [isP] at excluded
    cases excluded
  simp [Text.skipBlanks, notBlank]

theorem skipBlanks_blank {blanks : Text} (blank : Blank blanks) (t : Text) :
    Text.skipBlanks (blanks ++ t) = Text.skipBlanks t :=
  List.dropWhile_append_of_pos blank

def opensScalar (c : Char) : Bool := isWordChar c || c ∈ ['+', '-', '.', '"', '\'']

def opensOperand (c : Char) : Bool := opensScalar c || c == '('

def opensOperator (c : Char) : Bool :=
  c.isAlpha || c ∈ ['=', '!', '>', '<', '≠', '≤', '≥', '∈', '∉', '⊆', '⊇', '∩']

theorem starts_word {t word : Text} (folded : Text.folded t = word)
    (letter : ∀ c ∈ word.head?, c.isAlpha) (nonempty : word ≠ []) : Starts Char.isAlpha t := by
  have head : ∀ c ∈ (t ++ []).head?, c.isAlpha := letter_of_folded folded letter nonempty
  cases t with
  | nil => exact absurd folded.symm nonempty
  | cons c rest => exact ⟨c, rest, rfl, head c (by simp)⟩

theorem afterWord_none {t word : Text} (noLetter : ∀ d ∈ t.head?, ¬ d.isAlpha)
    (letter : ∀ c ∈ word.head?, c.isAlpha) (nonempty : word ≠ []) : afterWord? word t = none := by
  rw [Option.eq_none_iff_forall_ne_some]
  intro rest read
  obtain ⟨text, split, folded, -⟩ := (afterWord_iff _ _ _).mp read
  obtain ⟨c, more, rfl, isLetter⟩ := starts_word folded letter nonempty
  exact noLetter c (by simp [split]) isLetter

theorem scalar_none_of_paren (rest : Text) : scalar? ('(' :: rest) = none := by
  have numbers := number_none (t := '(' :: rest) (by simp)
  have noWord : ∀ word : Text, (∀ c ∈ word.head?, c.isAlpha) → word ≠ [] →
      afterWord? word ('(' :: rest) = none := fun _ => afterWord_none (by simp)
  simp only [scalar?, numbers.1, numbers.2, boolean?, nothing?, Option.none_or, Option.map_none,
    noWord "true".toList (by decide) (by decide), noWord "false".toList (by decide) (by decide),
    noWord "none".toList (by decide) (by decide)]
  rfl

theorem opensScalar_of_isAlpha {c : Char} (letter : c.isAlpha) : opensScalar c := by
  simp [opensScalar, isWordChar_of_isAlpha letter]

theorem opensScalar_of_isDigit {c : Char} (digit : c.isDigit) : opensScalar c := by
  simp [opensScalar, (isWordChar_iff c).mpr (.inr (.inl digit))]

theorem starts_sign {sign rest : Text} {negative : Bool} (spelled : SpellsSign sign negative)
    (starts : Starts opensScalar rest) : Starts opensScalar (sign ++ rest) := by
  cases spelled with
  | absent => exact starts
  | plus => exact ⟨'+', rest, rfl, rfl⟩
  | minus => exact ⟨'-', rest, rfl, rfl⟩

theorem starts_digits {digits : Text} (valid : Digits digits) (nonempty : digits ≠ [])
    (rest : Text) : Starts opensScalar (digits ++ rest) := by
  obtain ⟨d, more, rfl⟩ := List.exists_cons_of_ne_nil nonempty
  exact ⟨d, more ++ rest, rfl, opensScalar_of_isDigit (valid d (by simp))⟩

theorem starts_scalar {t : Text} {v : Operand} (spelled : SpellsScalar t v) :
    Starts opensScalar t := by
  cases spelled with
  | int spelled =>
    cases spelled with
    | intro signed valid nonempty => exact starts_sign signed (starts_digits valid nonempty _)
  | real spelled =>
    cases spelled with
    | @intro sign whole fraction tail negative exponent signed validWhole =>
      apply starts_sign signed
      by_cases nonempty : whole = []
      · subst nonempty
        exact ⟨'.', fraction ++ tail, rfl, rfl⟩
      · exact starts_digits validWhole nonempty _
  | @str quote content isQuote =>
    refine ⟨quote, _, rfl, ?_⟩
    rcases isQuote with rfl | rfl <;> rfl
  | yes word =>
    exact (starts_word word (by decide) (by decide)).mono fun _ => opensScalar_of_isAlpha
  | no word =>
    exact (starts_word word (by decide) (by decide)).mono fun _ => opensScalar_of_isAlpha
  | nothing word =>
    exact (starts_word word (by decide) (by decide)).mono fun _ => opensScalar_of_isAlpha
  | path isPath =>
    cases isPath with
    | intro start =>
      obtain ⟨c, others, rfl, letter, -⟩ := start
      exact ⟨c, _, by rw [joined_cons]; rfl, opensScalar_of_isAlpha letter⟩

theorem starts_items {t : Text} {items : List Operand} (spelled : SpellsItems t items) :
    Starts opensScalar t := by
  cases spelled with
  | last scalar => exact starts_scalar scalar
  | more scalar comma _ joins => exact ((starts_scalar scalar).joins comma).joins joins

theorem starts_parenthesized {inner t : Text} (around : Parenthesized inner t) :
    Starts (· == '(') t := by
  cases around with
  | intro opening closing =>
    exact ((starts_char '(').joins opening).joins closing

theorem starts_operand {t : Text} {v : Operand} (spelled : SpellsOperand t v) :
    Starts opensOperand t := by
  cases spelled with
  | scalar spelled =>
    exact (starts_scalar spelled).mono fun c opens => by simp [opensOperand, opens]
  | list _ around =>
    exact (starts_parenthesized around).mono fun c opens => by simp_all [opensOperand]

theorem tokens_start : ∀ op ∈ Operator.all, ∀ token ∈ op.tokens,
    token ≠ [] ∧ ∀ c ∈ token.head?, opensOperator c := by decide

theorem opensOperator_of_toLower {c : Char} (lower : opensOperator c.toLower) :
    opensOperator c := by
  simp only [opensOperator, Bool.or_eq_true, decide_eq_true_eq] at lower ⊢
  rcases lower with letter | symbol
  · exact .inl (isAlpha_of_toLower letter)
  · have same : c = c.toLower := toLower_of_not_lower rfl fun isLower => by
      have symbols : ∀ d ∈ ['=', '!', '>', '<', '≠', '≤', '≥', '∈', '∉', '⊆', '⊇', '∩'],
          ¬ (97 ≤ d.toNat ∧ d.toNat ≤ 122) := by decide
      exact symbols _ symbol isLower
    exact .inr (same ▸ symbol)

theorem starts_operator {t : Text} {op : Operator} (spelled : SpellsOperator t op) :
    Starts opensOperator t := by
  obtain ⟨nonempty, head⟩ := tokens_start op op.mem_all _ spelled
  cases t with
  | nil => exact absurd rfl nonempty
  | cons c rest => exact ⟨c, rest, rfl, opensOperator_of_toLower (head _ rfl)⟩

theorem starts_connective {t : Text} {c : Connective} (spelled : SpellsConnective t c) :
    Starts Char.isAlpha t := by
  cases spelled with
  | and word => exact starts_word word (by decide) (by decide)
  | or word => exact starts_word word (by decide) (by decide)

theorem starts_condition {t : Text} {c : Condition} (spelled : SpellsCondition t c) :
    Starts opensOperand t := by
  cases spelled with
  | intro left _ _ joinsLeft joinsRight =>
    exact ((starts_operand left).joins joinsLeft).joins joinsRight

theorem starts_terms {t : Text} {nodes : Sequence} (spelled : SpellsTerms t nodes) :
    Starts opensOperand t := by
  induction spelled with
  | condition spelled => exact starts_condition spelled
  | group _ around =>
    exact (starts_parenthesized around).mono fun c opens => by simp_all [opensOperand]
  | joined _ _ _ joinsJoint joinsRest first _ => exact (first.joins joinsJoint).joins joinsRest

end Verdict.Grammar
