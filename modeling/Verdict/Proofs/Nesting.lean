import Verdict.Proofs.Phrases

/-!
The count of parentheses and the grammar agree: what the scan finds open at once in the text of a
rule is what its groups and lists open.
-/
namespace Verdict.Grammar

/-- Where parentheses may still be opened, the scan finds `n` open at once in `t`, and none of
    them open after it. -/
def Nests (n : Nat) (t : Text) : Prop :=
  ∀ limit depth rest, depth ≤ limit → Query.nestsBeyond limit depth none (t ++ rest) =
    (decide (limit < depth + n) || Query.nestsBeyond limit depth none rest)

theorem nests_nil : Nests 0 [] := by
  intro limit depth rest below
  simp [Nat.not_lt.mpr below]

theorem Nests.append {m n : Nat} {a b : Text} (first : Nests m a) (second : Nests n b) :
    Nests (max m n) (a ++ b) := by
  intro limit depth rest below
  rw [List.append_assoc, first limit depth _ below, second limit depth rest below, ← Bool.or_assoc]
  congr 1
  rw [Bool.eq_iff_iff]
  simp only [Bool.or_eq_true, decide_eq_true_eq]
  omega

def isPlain (c : Char) : Bool := !(c == '"' || c == '\'' || c == '(' || c == ')')

theorem nests_plain {t : Text} (plain : ∀ c ∈ t, isPlain c) : Nests 0 t := by
  induction t with
  | nil => exact nests_nil
  | cons c more ih =>
    intro limit depth rest below
    have isPlainC : isPlain c := plain c (by simp)
    simp only [isPlain, Bool.not_eq_true', Bool.or_eq_false_iff, beq_eq_false_iff_ne] at isPlainC
    obtain ⟨⟨⟨notDouble, notSingle⟩, notOpen⟩, notClose⟩ := isPlainC
    rw [List.cons_append, Query.nestsBeyond, if_neg (by simp [notDouble, notSingle]),
      if_neg notOpen, if_neg notClose]
    exact ih (fun d member => plain d (by simp [member])) limit depth rest below

theorem Nests.around {n : Nat} {inner : Text} (nests : Nests n inner) :
    Nests (n + 1) ('(' :: (inner ++ [')'])) := by
  intro limit depth rest below
  rw [List.cons_append, Query.nestsBeyond, if_neg (by decide), if_pos rfl, List.append_assoc]
  -- beyond the limit the scan stops at once and what follows does not matter
  by_cases full : limit < depth + 1
  · simp [full, show limit < depth + (n + 1) by omega]
  · rw [nests limit (depth + 1) _ (by omega)]
    have closes : Query.nestsBeyond limit (depth + 1) none ([')'] ++ rest) =
        Query.nestsBeyond limit depth none rest := by
      rw [List.singleton_append, Query.nestsBeyond, if_neg (by decide), if_neg (by decide),
        if_pos rfl]
      rfl
    rw [closes]
    simp [full, Nat.add_assoc, Nat.add_comm 1]

theorem nests_blank {blanks : Text} (blank : Blank blanks) : Nests 0 blanks := by
  have plain : ∀ c ∈ [' ', '\t', '\r', '\n'], isPlain c := by decide
  exact nests_plain fun c member => plain c (isBlank_cases (blank c member))

theorem Nests.joins {m n : Nat} {a b t : Text} (first : Nests m a) (second : Nests n b)
    (joins : Joins a b t) : Nests (max m n) t := by
  cases joins with
  | intro blanks blank =>
    have whole := first.append ((nests_blank blank).append second)
    rwa [Nat.zero_max] at whole

theorem Nests.parenthesized {n : Nat} {inner t : Text} (nests : Nests n inner)
    (around : Parenthesized inner t) : Nests (n + 1) t := by
  cases around with
  | intro opening closing =>
    cases opening with
    | intro blanksBefore blankBefore =>
      cases closing with
      | intro blanksAfter blankAfter =>
        have content := (nests_blank blankBefore).append (nests.append (nests_blank blankAfter))
        rw [Nat.zero_max, Nat.max_zero] at content
        simpa using content.around

theorem nestsBeyond_content {quote : Char} {content : Text} (isQuote : quote ≠ '\\')
    (fits : Fits quote content) (limit depth : Nat) (rest : Text) :
    Query.nestsBeyond limit depth (some quote) (content ++ quote :: rest) =
      Query.nestsBeyond limit depth none rest := by
  have plainStep : ∀ {c : Char} {more : Text}, c ≠ '\\' →
      Query.nestsBeyond limit depth (some quote) (c :: more) =
        Query.nestsBeyond limit depth (if c = quote then none else some quote) more := by
    intro c more plain
    rw [Query.nestsBeyond.eq_3]
    exact fun _ _ backslash => absurd backslash plain
  fun_induction Fits quote content with
  | case1 => rw [List.nil_append, plainStep isQuote, if_pos rfl]
  | case2 c more ih => exact ih fits
  | case3 c more _ ih =>
    obtain ⟨notQuote, plain, -, -, fits⟩ := fits
    rw [List.cons_append, plainStep plain, if_neg notQuote]
    exact ih fits

theorem nests_string {quote : Char} {content : Text} (isQuote : quote = '"' ∨ quote = '\'')
    (fits : Fits quote content) : Nests 0 (quote :: (content ++ [quote])) := by
  intro limit depth rest below
  have plain : quote ≠ '\\' := by rcases isQuote with rfl | rfl <;> decide
  rw [List.cons_append, Query.nestsBeyond, if_pos isQuote, List.append_assoc, List.singleton_append,
    nestsBeyond_content plain fits]
  simp [Nat.not_lt.mpr below]

theorem plain_of_word {c : Char} (isWord : isWordChar c) : isPlain c := by
  have noWord : ∀ d ∈ ['"', '\'', '(', ')'], isWordChar d = false := by decide
  rw [isPlain, Bool.not_eq_true', Bool.eq_false_iff]
  intro special
  have excluded := noWord c (by simpa [or_assoc] using special)
  rw [isWord] at excluded
  cases excluded

theorem plain_of_digits {digits : Text} (valid : Digits digits) : ∀ c ∈ digits, isPlain c :=
  fun c member => plain_of_word ((isWordChar_iff c).mpr (.inr (.inl (valid c member))))

theorem plain_of_folded {t word : Text} (folded : Text.folded t = word)
    (isWord : ∀ c ∈ word, isWordChar c) : ∀ c ∈ t, isPlain c :=
  fun c member => plain_of_word (word_of_folded folded isWord c member)

theorem plain_of_sign {sign : Text} {negative : Bool} (spelled : SpellsSign sign negative) :
    ∀ c ∈ sign, isPlain c := by
  cases spelled <;> decide

theorem plain_of_exponent {signs : List Char} {tail : Text} {exponent : Option (Bool × Text)}
    (spelled : SpellsExponent signs tail exponent) (plainSigns : ∀ c ∈ signs, isPlain c) :
    ∀ c ∈ tail, isPlain c := by
  cases spelled with
  | absent => simp
  | @unsigned e digits letter valid =>
    rw [List.forall_mem_cons]
    exact ⟨by rcases letter with rfl | rfl <;> rfl, plain_of_digits valid⟩
  | signed letter allowed valid =>
    rw [List.forall_mem_cons, List.forall_mem_cons]
    exact ⟨by rcases letter with rfl | rfl <;> rfl, plainSigns _ allowed, plain_of_digits valid⟩

theorem nests_integer {t : Text} {literal : IntegerLiteral} (spelled : SpellsInteger t literal) :
    Nests 0 t := by
  cases spelled with
  | intro signed valid _ scaled =>
    apply nests_plain
    simp only [List.forall_mem_append]
    exact ⟨plain_of_sign signed, plain_of_digits valid, plain_of_exponent scaled (by decide)⟩

theorem nests_real {t : Text} {numeral : Numeral} (spelled : SpellsReal t numeral) : Nests 0 t := by
  cases spelled with
  | intro signed validWhole validFraction _ scaled =>
    apply nests_plain
    simp only [List.forall_mem_append, List.forall_mem_cons]
    exact ⟨plain_of_sign signed, plain_of_digits validWhole, rfl, plain_of_digits validFraction,
      plain_of_exponent scaled (by decide)⟩

theorem nests_scalar {t : Text} {v : Operand} (spelled : SpellsScalar t v) : Nests 0 t := by
  have valueWord : ∀ {word : Text}, Text.folded t = word → word ∈ valueWords → Nests 0 t :=
    fun folded known => nests_plain (plain_of_folded folded (valueWords_word _ known))
  cases spelled with
  | int spelled => exact nests_integer spelled
  | real spelled => exact nests_real spelled
  | str isQuote fits => exact nests_string isQuote fits
  | yes word => exact valueWord word (by decide)
  | no word => exact valueWord word (by decide)
  | nothing word => exact valueWord word (by decide)
  | path isPath =>
    refine nests_plain fun c member => ?_
    rcases path_chars isPath c member with isWord | rfl
    · exact plain_of_word isWord
    · rfl

theorem nesting_scalar {t : Text} {v : Operand} (spelled : SpellsScalar t v) : v.nesting = 0 := by
  cases spelled <;> rfl

theorem nests_items {t : Text} {items : List Operand} (spelled : SpellsItems t items) :
    Nests (Operand.maxNesting items) t := by
  induction spelled with
  | last scalar =>
    simpa [Operand.maxNesting, nesting_scalar scalar] using nests_scalar scalar
  | more scalar comma others joins ih =>
    have nestsComma : Nests 0 [','] := nests_plain (by decide)
    have whole := ((nests_scalar scalar).joins nestsComma comma).joins ih joins
    simpa [Operand.maxNesting, nesting_scalar scalar] using whole

theorem nests_operand {t : Text} {v : Operand} (spelled : SpellsOperand t v) :
    Nests v.nesting t := by
  cases spelled with
  | scalar scalar => simpa [nesting_scalar scalar] using nests_scalar scalar
  | list items around => exact (nests_items items).parenthesized around

theorem nests_operator {t : Text} {op : Operator} (spelled : SpellsOperator t op) : Nests 0 t := by
  have plain : ∀ entry ∈ symbolTable, ∀ c ∈ entry.1, isPlain c := by decide
  rcases tokens_tables op op.mem_all _ spelled with ⟨known, notLower⟩ | known
  · have same := eq_of_folded rfl notLower
    exact nests_plain (same ▸ plain _ known)
  · exact nests_plain (plain_of_folded rfl (wordTable_tokens _ known).2)

theorem nests_connective {t : Text} {c : Connective} (spelled : SpellsConnective t c) :
    Nests 0 t :=
  nests_plain (plain_of_folded (connective_word spelled) (by cases c <;> decide))

theorem nests_condition {t : Text} {c : Condition} (spelled : SpellsCondition t c) :
    Nests c.nesting t := by
  cases spelled with
  | intro left operator right joinsLeft joinsRight =>
    have whole := ((nests_operand left).joins (nests_operator operator) joinsLeft).joins
      (nests_operand right) joinsRight
    rwa [Nat.max_zero] at whole

theorem nests_terms {t : Text} {nodes : Sequence} (spelled : SpellsTerms t nodes) :
    Nests nodes.nesting t := by
  induction spelled with
  | condition spelled =>
    simpa [Sequence.nesting, Node.maxNesting, Node.nesting] using nests_condition spelled
  | group _ around ih =>
    simpa [Sequence.nesting, Node.maxNesting, Node.nesting] using ih.parenthesized around
  | joined _ connective _ joinsJoint joinsRest first others =>
    have whole := (first.joins (nests_connective connective) joinsJoint).joins others joinsRest
    simpa [Sequence.nesting, Node.maxNesting, Node.nesting] using whole

theorem nestsBeyond_spelled {t : Text} {nodes : Sequence} (spelled : Spells t nodes) (limit : Nat) :
    Query.nestsBeyond limit 0 none t = decide (limit < nodes.nesting) := by
  cases spelled with
  | intro blankBefore terms blankAfter =>
    have nests := (nests_blank blankBefore).append
      ((nests_terms terms).append (nests_blank blankAfter))
    rw [Nat.max_zero, Nat.zero_max] at nests
    have scanned := nests limit 0 [] (Nat.zero_le limit)
    simpa [Query.nestsBeyond] using scanned

end Verdict.Grammar
