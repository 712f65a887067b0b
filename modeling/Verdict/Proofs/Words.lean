import Verdict.Proofs.Spelling

/-!
Words and operators at the start of a text: what is recognised there is spelled, and what is spelled
is recognised as far as it goes.
-/
namespace Verdict.Grammar

theorem isAlpha_iff (c : Char) :
    c.isAlpha ↔ (65 ≤ c.toNat ∧ c.toNat ≤ 90) ∨ (97 ≤ c.toNat ∧ c.toNat ≤ 122) := by
  simp only [Char.isAlpha, Char.isUpper, Char.isLower, Bool.or_eq_true, Bool.and_eq_true,
    decide_eq_true_eq, UInt32.le_iff_toNat_le, ge_iff_le]
  rfl

theorem isDigit_iff (c : Char) : c.isDigit ↔ 48 ≤ c.toNat ∧ c.toNat ≤ 57 := by
  simp only [Char.isDigit, Bool.and_eq_true, decide_eq_true_eq, UInt32.le_iff_toNat_le, ge_iff_le]
  rfl

theorem isWordChar_iff (c : Char) :
    isWordChar c ↔ c.isAlpha ∨ c.isDigit ∨ c.toNat = 95 := by
  have underscore : c = '_' ↔ c.toNat = 95 := Char.toNat_inj.symm
  simp only [isWordChar, Char.isAlphanum, Bool.or_eq_true, beq_iff_eq, underscore, or_assoc]

theorem toNat_toLower (c : Char) :
    c.toLower.toNat = if 65 ≤ c.toNat ∧ c.toNat ≤ 90 then c.toNat + 32 else c.toNat := by
  have upper : (c.val ≥ 'A'.val ∧ c.val ≤ 'Z'.val) ↔ 65 ≤ c.toNat ∧ c.toNat ≤ 90 := by
    simp only [ge_iff_le, UInt32.le_iff_toNat_le]
    rfl
  unfold Char.toLower
  simp only [upper]
  split
  · show (c.val + 32).toNat = _
    rw [UInt32.toNat_add]
    exact Nat.mod_eq_of_lt (by simp; omega)
  · rfl

theorem isWordChar_toLower (c : Char) : isWordChar c.toLower = isWordChar c := by
  rw [Bool.eq_iff_iff, isWordChar_iff, isWordChar_iff, isAlpha_iff, isAlpha_iff, isDigit_iff,
    isDigit_iff, toNat_toLower]
  split <;> omega

theorem endsOpen_append (a b : Text) (nonempty : b ≠ []) : endsOpen (a ++ b) = endsOpen b := by
  simp [endsOpen, List.getLast?_append, List.getLast?_eq_some_getLast nonempty]

theorem endsOpen_of_word {word : Text} (isWord : ∀ c ∈ word, isWordChar c) (nonempty : word ≠ []) :
    endsOpen word := by
  simp [endsOpen, List.getLast?_eq_some_getLast nonempty, isWord _ (List.getLast_mem nonempty)]

theorem seam_of_append {a b c : Text} (seam : Seam a (b ++ c)) : Seam a b := by
  cases b with
  | nil => intro _; rfl
  | cons => exact seam

theorem isAlpha_of_toLower {c : Char} (letter : c.toLower.isAlpha) : c.isAlpha := by
  rw [isAlpha_iff, toNat_toLower] at letter
  rw [isAlpha_iff]
  split at letter <;> omega

theorem isWordChar_of_isAlpha {c : Char} (letter : c.isAlpha) : isWordChar c :=
  (isWordChar_iff c).mpr (.inl letter)

theorem seam_of_closed {a rest : Text} {c : Char} (closed : (isWordChar c || c == '.') = false) :
    Seam (a ++ [c]) rest := by
  simp [Seam, endsOpen, closed]

theorem word_of_folded {t word : Text} (folded : Text.folded t = word)
    (isWord : ∀ c ∈ word, isWordChar c) : ∀ c ∈ t, isWordChar c := by
  intro c member
  have lower : c.toLower ∈ word := folded ▸ List.mem_map_of_mem member
  exact isWordChar_toLower c ▸ isWord _ lower

theorem word_unique {a b x y : Text} (aWord : ∀ c ∈ a, isWordChar c) (bWord : ∀ c ∈ b, isWordChar c)
    (xEnds : wordEnds x) (yEnds : wordEnds y) (same : a ++ x = b ++ y) : a = b := by
  induction a generalizing b with
  | nil =>
    cases b with
    | nil => rfl
    | cons d bs =>
      have ends : isWordChar d = false := by
        simpa [show x = d :: (bs ++ y) from same, wordEnds] using xEnds
      exact absurd (bWord d (by simp)) (by simp [ends])
  | cons c as ih =>
    cases b with
    | nil =>
      have ends : isWordChar c = false := by
        simpa [show y = c :: (as ++ x) from same.symm, wordEnds] using yEnds
      exact absurd (aWord c (by simp)) (by simp [ends])
    | cons d bs =>
      obtain ⟨rfl, tails⟩ := List.cons.inj same
      rw [ih (fun c member => aWord c (by simp [member]))
        (fun c member => bWord c (by simp [member])) tails]

theorem afterWord_iff (word t rest : Text) :
    afterWord? word t = some rest ↔
      ∃ text, t = text ++ rest ∧ Text.folded text = word ∧ wordEnds rest := by
  constructor
  · intro read
    unfold afterWord? at read
    split at read
    · rename_i found
      cases read
      exact ⟨_, (List.take_append_drop _ _).symm, found⟩
    · cases read
  · rintro ⟨text, rfl, rfl, ends⟩
    have length : (Text.folded text).length = text.length := List.length_map _
    simp [afterWord?, length, ends]

theorem afterWord_append {text rest word : Text} (isText : ∀ c ∈ text, isWordChar c)
    (ends : wordEnds rest) (isWord : ∀ c ∈ word, isWordChar c) :
    afterWord? word (text ++ rest) = if Text.folded text = word then some rest else none := by
  by_cases same : Text.folded text = word
  · simp only [same, ↓reduceIte]
    exact (afterWord_iff _ _ _).mpr ⟨text, rfl, same, ends⟩
  · simp only [same, ↓reduceIte]
    rw [Option.eq_none_iff_forall_not_mem]
    intro other read
    obtain ⟨taken, split, folded, otherEnds⟩ := (afterWord_iff _ _ _).mp read
    have equal := word_unique isText (word_of_folded folded isWord) ends otherEnds split
    exact same (equal ▸ folded)

theorem symbolTable_tokens : ∀ entry ∈ symbolTable,
    Text.folded entry.1 ∈ entry.2.tokens ∧ endsOpen entry.1 = false := by decide

theorem wordTable_tokens : ∀ entry ∈ wordTable,
    entry.1 ∈ entry.2.tokens ∧ ∀ c ∈ entry.1, isWordChar c := by decide

theorem operator_sound {t rest : Text} {op : Operator} (read : operator? t = some (op, rest)) :
    ∃ text, t = text ++ rest ∧ SpellsOperator text op ∧ Seam text rest := by
  unfold operator? at read
  split at read
  · rename_i symbol found isFound
    obtain ⟨rfl, rfl⟩ := Prod.mk.inj (Option.some.inj read)
    have known := symbolTable_tokens _ (List.mem_of_find?_eq_some isFound)
    have start := List.find?_some isFound
    obtain ⟨after, rfl⟩ := List.isPrefixOf_iff_prefix.mp start
    exact ⟨symbol, by simp, known.1, by simp [Seam, known.2]⟩
  · split at read
    · rename_i word found isFound
      split at read
      · rename_i ends
        obtain ⟨rfl, rfl⟩ := Prod.mk.inj (Option.some.inj read)
        have known := wordTable_tokens _ (List.mem_of_find?_eq_some isFound)
        have folded : Text.folded (t.take word.length) = word := by
          simpa using List.find?_some isFound
        exact ⟨t.take word.length, (List.take_append_drop _ _).symm,
          by rw [SpellsOperator, folded]; exact known.1, fun _ => ends⟩
      · cases read
    · cases read

theorem prefix_of_stop {v a rest : Text} {p : Char → Bool} (inner : ∀ c ∈ v.tail, p c)
    (nonempty : a ≠ []) (stop : ∀ c ∈ rest.head?, ¬ p c) (start : v <+: a ++ rest) : v <+: a := by
  rcases List.prefix_or_prefix_of_prefix start (List.prefix_append a rest) with within | ⟨z, rfl⟩
  · exact within
  · cases z with
    | nil => simp
    | cons c more =>
      obtain ⟨d, others, rfl⟩ := List.exists_cons_of_ne_nil nonempty
      obtain ⟨after, rfl⟩ := (List.prefix_append_right_inj _).mp start
      exact absurd (inner c (by simp)) (stop c rfl)

theorem symbolTable_first : ∀ entry ∈ symbolTable,
    symbolTable.find? (fun other => other.1.isPrefixOf entry.1) = some entry ∧ entry.1 ≠ [] ∧
      (∀ c ∈ entry.1.tail, (c == '=') = true) ∧ ∀ c ∈ entry.1.head?, ¬ isWordChar c := by
  decide

theorem wordTable_first : ∀ entry ∈ wordTable,
    wordTable.find? (fun other => other.1.isPrefixOf entry.1) = some entry ∧ entry.1 ≠ [] := by
  decide

theorem operator_symbol {symbol rest : Text} {op : Operator} (known : (symbol, op) ∈ symbolTable)
    (stop : ∀ c ∈ rest.head?, c ≠ '=') : operator? (symbol ++ rest) = some (op, rest) := by
  obtain ⟨first, nonempty, -, -⟩ := symbolTable_first _ known
  have found : symbolTable.find? (fun entry => entry.1.isPrefixOf (symbol ++ rest)) =
      some (symbol, op) := by
    rw [← first]
    apply List.find?_congr
    intro other member
    obtain ⟨-, -, inner, -⟩ := symbolTable_first _ member
    rw [Bool.eq_iff_iff, List.isPrefixOf_iff_prefix, List.isPrefixOf_iff_prefix]
    exact ⟨prefix_of_stop inner nonempty (by simpa using stop),
      fun within => within.trans (List.prefix_append _ _)⟩
  simp [operator?, found]

theorem operator_word {text rest : Text} {op : Operator}
    (known : (Text.folded text, op) ∈ wordTable) (ends : wordEnds rest) :
    operator? (text ++ rest) = some (op, rest) := by
  obtain ⟨first, filled⟩ := wordTable_first _ known
  have nonempty : text ≠ [] := fun empty => filled (by rw [empty]; rfl)
  have isWord := (wordTable_tokens _ known).2
  have noSymbol : symbolTable.find? (fun entry => entry.1.isPrefixOf (text ++ rest)) = none := by
    rw [List.find?_eq_none]
    intro entry member start
    obtain ⟨-, filled, -, notWord⟩ := symbolTable_first _ member
    obtain ⟨after, split⟩ := List.isPrefixOf_iff_prefix.mp start
    obtain ⟨c, symbol, cons⟩ := List.exists_cons_of_ne_nil filled
    have head : c ∈ text := by
      cases text with
      | nil => exact absurd rfl nonempty
      | cons d more =>
        rw [cons] at split
        obtain ⟨rfl, -⟩ := List.cons.inj split
        simp
    exact notWord c (by simp [cons]) (word_of_folded rfl isWord c head)
  have found : wordTable.find?
      (fun entry => Text.folded ((text ++ rest).take entry.1.length) = entry.1) =
        some (Text.folded text, op) := by
    rw [← first]
    apply List.find?_congr
    intro other member
    have inner := (wordTable_tokens _ member).2
    have stop : ∀ c ∈ (Text.folded rest).head?, ¬ isWordChar c := by
      cases rest with
      | nil => simp [Text.folded]
      | cons d more => simpa [Text.folded, wordEnds, isWordChar_toLower] using ends
    have taken : Text.folded ((text ++ rest).take other.1.length) = other.1 ↔
        other.1 <+: Text.folded text ++ Text.folded rest := by
      rw [List.prefix_iff_eq_take, eq_comm]
      simp [Text.folded, List.map_take]
    rw [Bool.eq_iff_iff, List.isPrefixOf_iff_prefix, decide_eq_true_iff, taken]
    exact ⟨prefix_of_stop (fun c inTail => inner c (List.mem_of_mem_tail inTail)) filled stop,
      fun within => within.trans (List.prefix_append _ _)⟩
  have length : (Text.folded text).length = text.length := List.length_map _
  simp [operator?, noSymbol, found, length, ends]

theorem toLower_of_not_lower {c d : Char} (lower : c.toLower = d)
    (notLower : ¬ (97 ≤ d.toNat ∧ d.toNat ≤ 122)) : c = d := by
  have code : c.toLower.toNat = d.toNat := congrArg Char.toNat lower
  rw [toNat_toLower] at code
  apply Char.toNat_inj.mp
  split at code <;> omega

theorem eq_of_folded {t symbol : Text} (folded : Text.folded t = symbol)
    (notLower : ∀ d ∈ symbol, ¬ (97 ≤ d.toNat ∧ d.toNat ≤ 122)) : t = symbol := by
  induction t generalizing symbol with
  | nil => exact folded
  | cons c more ih =>
    subst folded
    have head := toLower_of_not_lower rfl (notLower c.toLower (by simp [Text.folded]))
    have tail := ih rfl fun d member => notLower d (by
      simp [Text.folded] at member ⊢
      exact .inr member)
    simp only [Text.folded, List.map_cons] at head tail ⊢
    rw [← head, ← tail]

theorem tokens_tables : ∀ op ∈ Operator.all, ∀ token ∈ op.tokens,
    ((token, op) ∈ symbolTable ∧ ∀ d ∈ token, ¬ (97 ≤ d.toNat ∧ d.toNat ≤ 122)) ∨
      (token, op) ∈ wordTable := by decide

theorem operator_complete {text rest : Text} {op : Operator} (spelled : SpellsOperator text op)
    (seam : Seam text rest) (stop : ∀ c ∈ rest.head?, c ≠ '=') :
    operator? (text ++ rest) = some (op, rest) := by
  rcases tokens_tables op op.mem_all _ spelled with ⟨known, notLower⟩ | known
  · exact operator_symbol (eq_of_folded rfl notLower ▸ known) stop
  · have isWord := word_of_folded rfl (wordTable_tokens _ known).2
    have nonempty : text ≠ [] := by
      rintro rfl
      exact (wordTable_first _ known).2 rfl
    exact operator_word known (seam (endsOpen_of_word isWord nonempty))

theorem connective_word {text : Text} {c : Connective} (spelled : SpellsConnective text c) :
    Text.folded text = c.write := by
  cases spelled with
  | and word => exact word
  | or word => exact word

end Verdict.Grammar
