import Verdict.Proofs.Language

/-!
The scan of parentheses pays for the grammar. Wherever the grammar stands in a text, also in a
choice that it gives up later, the scan stands outside of strings and has counted exactly the
parentheses that the grammar has open. So what the scan allows is never beyond the budget, whether
or not the text is a rule.
-/
namespace Verdict.Grammar
open Reader

/-- With `depth` parentheses open, the scan finds no more than `limit` open in what is left. -/
def Guarded (limit depth : Nat) (t : Text) : Prop :=
  depth ≤ limit ∧ Query.nestsBeyond limit depth none t = false

theorem guarded_rest {limit depth : Nat} {text rest : Text} (flat : Nests 0 text)
    (guarded : Guarded limit depth (text ++ rest)) : Guarded limit depth rest := by
  obtain ⟨within, scanned⟩ := guarded
  rw [flat limit depth rest within, Bool.or_eq_false_iff] at scanned
  exact ⟨within, scanned.2⟩

theorem guarded_skip {limit depth : Nat} {t : Text} (guarded : Guarded limit depth t) :
    Guarded limit depth (Text.skipBlanks t) := by
  obtain ⟨blanks, blank, whole⟩ := skipBlanks_split t
  rw [whole] at guarded
  exact guarded_rest (nests_blank blank) guarded

theorem guarded_open {limit depth : Nat} {rest : Text}
    (guarded : Guarded limit depth ('(' :: rest)) : Guarded limit (depth + 1) rest := by
  obtain ⟨-, scanned⟩ := guarded
  rw [Query.nestsBeyond, if_neg (by decide), if_pos rfl, Bool.or_eq_false_iff,
    decide_eq_false_iff_not] at scanned
  exact ⟨by omega, scanned.2⟩

theorem guarded_close {limit depth : Nat} {rest : Text}
    (guarded : Guarded limit (depth + 1) (')' :: rest)) : Guarded limit depth rest := by
  obtain ⟨within, scanned⟩ := guarded
  rw [Query.nestsBeyond, if_neg (by decide), if_neg (by decide), if_pos rfl] at scanned
  exact ⟨by omega, scanned⟩

def Outcome.Leaves {α : Type} (kind : Text → Prop) : Outcome α → Prop
  | .matched _ rest => kind rest
  | .failed => True
  | .exhausted => False

/-- From a guarded text with `before` parentheses open, two readers do the same, never run out of
    parentheses, and leave a guarded text with `after` of them open. -/
def Keeps {α : Type} (limit before after : Nat) (p q : Reader α) : Prop :=
  ∀ t, Guarded limit before t → q t = p t ∧ (p t).outcome.Leaves (Guarded limit after)

section
variable {α β : Type} {limit before between after : Nat}

theorem keeps_pure (value : α) : Keeps limit before before (pure value) (pure value) :=
  fun _ guarded => ⟨rfl, guarded⟩

theorem keeps_fail : Keeps limit before after (fail : Reader α) fail :=
  fun _ _ => ⟨rfl, trivial⟩

theorem keeps_beyond (beyond : limit < before) (p q : Reader α) : Keeps limit before after p q :=
  fun _ guarded => absurd guarded.1 (by omega)

theorem Keeps.bind {p p' : Reader α} {f f' : α → Reader β} (first : Keeps limit before between p p')
    (next : ∀ value, Keeps limit between after (f value) (f' value)) :
    Keeps limit before after (p >>= f) (p' >>= f') := by
  intro t guarded
  obtain ⟨same, leaves⟩ := first t guarded
  show Reader.bind p' f' t = Reader.bind p f t ∧ (Reader.bind p f t).outcome.Leaves _
  simp only [Reader.bind, same]
  cases read : (p t).outcome with
  | matched value rest =>
    rw [read] at leaves
    obtain ⟨sameNext, leavesNext⟩ := next value rest leaves
    simp only [sameNext]
    exact ⟨trivial, leavesNext⟩
  | failed => exact ⟨rfl, trivial⟩
  | exhausted =>
    rw [read] at leaves
    exact leaves.elim

theorem Keeps.orElse {p p' q q' : Reader α} (first : Keeps limit before after p p')
    (second : Keeps limit before after q q') :
    Keeps limit before after (Reader.orElse p q) (Reader.orElse p' q') := by
  intro t guarded
  obtain ⟨same, leaves⟩ := first t guarded
  obtain ⟨sameSecond, leavesSecond⟩ := second t guarded
  simp only [Reader.orElse, same, sameSecond]
  cases read : (p t).outcome with
  | failed => exact ⟨trivial, leavesSecond⟩
  | matched value rest =>
    rw [read] at leaves
    exact ⟨trivial, leaves⟩
  | exhausted =>
    rw [read] at leaves
    exact leaves.elim

theorem keeps_choice {ps : List (Reader α)} (each : ∀ p ∈ ps, Keeps limit before after p p) :
    Keeps limit before after (choice ps) (choice ps) := by
  induction ps with
  | nil => exact keeps_fail
  | cons p rest ih =>
    exact (each p (by simp)).orElse (ih fun other member => each other (by simp [member]))

theorem Keeps.repeated {p p' : Reader α} (each : Keeps limit before before p p') (count : Nat) :
    Keeps limit before before (Reader.repeated p count) (Reader.repeated p' count) := by
  induction count with
  | zero => exact keeps_pure []
  | succ count ih =>
    intro t guarded
    obtain ⟨same, leaves⟩ := each t guarded
    simp only [Reader.repeated, same]
    cases read : (p t).outcome with
    | failed => exact ⟨rfl, guarded⟩
    | exhausted =>
      rw [read] at leaves
      exact leaves.elim
    | matched value rest =>
      rw [read] at leaves
      obtain ⟨sameMore, leavesMore⟩ := ih rest leaves
      simp only [sameMore]
      refine ⟨trivial, ?_⟩
      cases more : (Reader.repeated p count rest).outcome with
      | matched values last =>
        rw [more] at leavesMore
        exact leavesMore
      | failed => trivial
      | exhausted =>
        rw [more] at leavesMore
        exact leavesMore.elim

theorem Keeps.many {p p' : Reader α} (each : Keeps limit before before p p') :
    Keeps limit before before (Reader.many p) (Reader.many p') :=
  fun t => each.repeated (t.length + 1) t

theorem Keeps.part {p p' : Reader α} (inner : Keeps limit before after p p') (name : Part) :
    Keeps limit before after (Reader.part name p) (Reader.part name p') := by
  intro t guarded
  obtain ⟨same, leaves⟩ := inner _ (guarded_skip guarded)
  rw [part_outcome]
  refine ⟨?_, leaves⟩
  simp only [Reader.part, same]

theorem keeps_token {f : Text → Option (α × Text)}
    (flat : ∀ t value rest, f t = some (value, rest) → ∃ text, t = text ++ rest ∧ Nests 0 text) :
    Keeps limit before before (token f) (token f) := by
  intro t guarded
  refine ⟨rfl, ?_⟩
  rw [token_outcome]
  cases read : f t with
  | none => trivial
  | some found =>
    obtain ⟨text, rfl, nests⟩ := flat t found.1 found.2 read
    exact guarded_rest nests guarded

theorem keeps_symbol {c : Char}
    (step : ∀ rest, Guarded limit before (c :: rest) → Guarded limit after rest) :
    Keeps limit before after (symbol c) (symbol c) := by
  intro t guarded
  refine ⟨rfl, ?_⟩
  cases read : (symbol c t).outcome with
  | matched value rest =>
    have skipped := guarded_skip guarded
    rw [matched_of_symbol read] at skipped
    exact step rest skipped
  | failed => trivial
  | exhausted =>
    unfold symbol at read
    split at read
    · split at read <;> cases read
    · cases read

theorem keeps_opening {allowed allowed' : Bool}
    (enough : before < limit → allowed = true ∧ allowed' = true) :
    Keeps limit before (before + 1) (opening allowed) (opening allowed') := by
  intro t guarded
  by_cases paren : ∃ rest, Text.skipBlanks t = '(' :: rest
  · obtain ⟨rest, skip⟩ := paren
    have opened := guarded_skip guarded
    rw [skip] at opened
    have inside := guarded_open opened
    obtain ⟨rfl, rfl⟩ := enough inside.1
    rw [opening_of_skip skip]
    exact ⟨rfl, inside⟩
  · have other : ∀ d ∈ (Text.skipBlanks t).head?, d ≠ '(' := by
      rintro d member rfl
      exact paren (List.head?_eq_some_iff.mp member)
    have noSymbol := symbol_failed other
    rw [opening_failed other]
    refine ⟨?_, trivial⟩
    simp only [opening, noSymbol]

end

section
variable {limit depth : Nat}

theorem flat_word {word t rest : Text} (isWord : ∀ c ∈ word, isWordChar c)
    (read : afterWord? word t = some rest) : ∃ text, t = text ++ rest ∧ Nests 0 text := by
  obtain ⟨text, split, folded, -⟩ := (afterWord_iff _ _ _).mp read
  exact ⟨text, split, nests_plain (plain_of_folded folded isWord)⟩

theorem flat_real {t rest : Text} {v : Spelled Operand} (read : realOperand? t = some (v, rest)) :
    ∃ text, t = text ++ rest ∧ Nests 0 text := by
  simp only [realOperand?, Option.pure_def, Option.bind_eq_bind, Option.bind_eq_some_iff] at read
  obtain ⟨⟨numeral, after⟩, found, value⟩ := read
  obtain ⟨text, split, spelled, -⟩ := real_sound found
  have same : after = rest := by
    simp only at value
    split at value <;> simp_all
  exact ⟨text, same ▸ split, nests_real spelled⟩

theorem flat_integer {t rest : Text} {v : Spelled Operand}
    (read : integerOperand? t = some (v, rest)) : ∃ text, t = text ++ rest ∧ Nests 0 text := by
  simp only [integerOperand?, Option.pure_def, Option.bind_eq_bind, Option.bind_eq_some_iff] at read
  obtain ⟨⟨literal, after⟩, found, value⟩ := read
  obtain ⟨text, split, spelled, -⟩ := integer_sound found
  have same : after = rest := by
    simp only at value
    split at value <;> simp_all
  exact ⟨text, same ▸ split, nests_integer spelled⟩

theorem flat_path {t p rest : Text} (read : path? t = some (p, rest)) :
    ∃ text, t = text ++ rest ∧ Nests 0 text := by
  cases t with
  | nil => cases read
  | cons c more =>
    simp only [path?] at read
    split at read
    · rename_i letter
      obtain ⟨word, parts, isWord, identifiers, shape, whole, -⟩ := spanPath_sound more
      obtain ⟨rfl, rfl⟩ := Prod.mk.inj (Option.some.inj read)
      refine ⟨c :: (spanPath more).1, congrArg (c :: ·) whole, nests_plain fun d member => ?_⟩
      rw [shape, List.mem_cons, List.mem_append, List.mem_flatMap] at member
      rcases member with rfl | inWord | ⟨part, inParts, inPart⟩
      · exact plain_of_word (isWordChar_of_isAlpha letter)
      · exact plain_of_word (isWord d inWord)
      · rcases List.mem_cons.mp inPart with rfl | inPart
        · rfl
        · exact plain_of_word (identifier_word (identifiers part inParts) d inPart)
    · cases read

theorem keeps_value : Keeps limit depth depth value value := by
  have real : Keeps limit depth depth (token realOperand?) (token realOperand?) :=
    keeps_token fun _ _ _ => flat_real
  have integer : Keeps limit depth depth (token integerOperand?) (token integerOperand?) :=
    keeps_token fun _ _ _ => flat_integer
  have string : Keeps limit depth depth (token string?) (token string?) :=
    keeps_token fun _ _ _ read => by
      obtain ⟨text, split, spelled, -⟩ := string_sound read
      exact ⟨text, split, nests_scalar spelled⟩
  have boolean : Keeps limit depth depth (token boolean?) (token boolean?) :=
    keeps_token fun _ _ _ read => by
      obtain ⟨text, split, spelled, -⟩ := boolean_sound read
      exact ⟨text, split, nests_scalar spelled⟩
  have nothing : Keeps limit depth depth (token nothing?) (token nothing?) :=
    keeps_token fun _ _ _ read => by
      obtain ⟨rest, found, same⟩ := Option.map_eq_some_iff.mp read
      cases same
      exact flat_word (by decide) found
  have path : Keeps limit depth depth (token path?) (token path?) :=
    keeps_token fun _ _ _ => flat_path
  apply keeps_choice
  simp only [List.forall_mem_cons]
  exact ⟨real.part _, integer.part _, (string.bind fun _ => keeps_pure _).part _,
    (boolean.bind fun _ => keeps_pure _).part _, (nothing.bind fun _ => keeps_pure _).part _,
    (path.bind fun _ => keeps_pure _).part _, by simp⟩

theorem keeps_operator :
    Keeps limit depth depth (part .operator (token operator?)) (part .operator (token operator?)) :=
  Keeps.part (keeps_token fun _ _ _ read => by
    obtain ⟨text, split, spelled, -⟩ := operator_sound read
    exact ⟨text, split, nests_operator spelled⟩) _

theorem keeps_connective : Keeps limit depth depth connective connective := by
  have joint : ∀ (word : Text) (c : Connective), (∀ d ∈ word, isWordChar d) →
      Keeps limit depth depth (token fun t => (afterWord? word t).map (c, ·))
        (token fun t => (afterWord? word t).map (c, ·)) := fun word c isWord =>
    keeps_token fun _ _ _ read => by
      obtain ⟨rest, found, same⟩ := Option.map_eq_some_iff.mp read
      cases same
      exact flat_word isWord found
  exact ((joint "and".toList .and (by decide)).part _).orElse
    ((joint "or".toList .or (by decide)).part _)

theorem keeps_close : Keeps limit (depth + 1) depth (symbol ')') (symbol ')') :=
  keeps_symbol fun _ => guarded_close

theorem keeps_valueList {allowed allowed' : Bool}
    (enough : depth < limit → allowed = true ∧ allowed' = true) :
    Keeps limit depth depth (valueList allowed) (valueList allowed') := by
  have flat : Nests 0 [','] := nests_plain (by decide)
  have comma : Keeps limit (depth + 1) (depth + 1) (symbol ',') (symbol ',') :=
    keeps_symbol fun _ => guarded_rest flat
  have more := (comma.bind fun _ => keeps_value).many
  exact ((keeps_opening enough).bind fun _ => keeps_value.bind fun _ => more.bind fun _ =>
    keeps_close.bind fun _ => keeps_pure _).part _

theorem keeps_operand {allowed allowed' : Bool}
    (enough : depth < limit → allowed = true ∧ allowed' = true) :
    Keeps limit depth depth (operand allowed) (operand allowed') :=
  (keeps_valueList enough).orElse keeps_value

theorem keeps_condition {allowed allowed' : Bool}
    (enough : depth < limit → allowed = true ∧ allowed' = true) :
    Keeps limit depth depth (condition allowed) (condition allowed') :=
  ((keeps_operand enough).bind fun _ => keeps_operator.bind fun _ =>
    (keeps_operand enough).bind fun _ => keeps_pure _).part _

def KeepsInside (limit depth : Nat) (inner inner' : Option (Reader (Spelled Sequence))) : Prop :=
  depth < limit → ∃ p p', inner = some p ∧ inner' = some p' ∧
    Keeps limit (depth + 1) (depth + 1) p p'

variable {inner inner' : Option (Reader (Spelled Sequence))}

theorem KeepsInside.allowed (inside : KeepsInside limit depth inner inner') :
    depth < limit → inner.isSome = true ∧ inner'.isSome = true := by
  intro within
  obtain ⟨p, p', rfl, rfl, -⟩ := inside within
  exact ⟨rfl, rfl⟩

theorem KeepsInside.body (inside : KeepsInside limit depth inner inner') :
    Keeps limit (depth + 1) (depth + 1) (inner.getD fail) (inner'.getD fail) := by
  by_cases within : depth < limit
  · obtain ⟨p, p', rfl, rfl, keeps⟩ := inside within
    exact keeps
  · exact keeps_beyond (by omega) _ _

theorem keeps_group (inside : KeepsInside limit depth inner inner') :
    Keeps limit depth depth (group inner) (group inner') :=
  ((keeps_opening inside.allowed).bind fun _ => inside.body.bind fun _ =>
    keeps_close.bind fun _ => keeps_pure _).part _

theorem keeps_term (inside : KeepsInside limit depth inner inner') :
    Keeps limit depth depth (term inner) (term inner') :=
  (keeps_condition inside.allowed).orElse (keeps_group inside)

theorem keeps_level (inside : KeepsInside limit depth inner inner') :
    Keeps limit depth depth (level inner) (level inner') := by
  have joined : Keeps limit depth depth (joinedTerm inner) (joinedTerm inner') :=
    keeps_connective.bind fun _ => (keeps_term inside).bind fun _ => keeps_pure _
  exact ((keeps_term inside).bind fun _ => joined.many.bind fun _ => keeps_pure _).part _

theorem keeps_expression {budget larger : Nat} (enough : budget ≤ larger)
    (paid : depth + budget = limit) :
    Keeps limit depth depth (expression budget) (expression larger) := by
  induction budget generalizing depth larger with
  | zero =>
    rw [expression_eq_level, expression_eq_level]
    exact keeps_level fun within => absurd within (by omega)
  | succ budget ih =>
    obtain ⟨less, rfl⟩ : ∃ less, larger = less + 1 := ⟨larger - 1, by omega⟩
    rw [expression_eq_level, expression_eq_level]
    exact keeps_level fun _ => ⟨_, _, rfl, rfl, ih (by omega) (by omega)⟩

end

theorem keeps_end {limit depth : Nat} : Keeps limit depth depth endOfInput endOfInput := by
  refine Keeps.part (fun t guarded => ⟨rfl, ?_⟩) _
  by_cases empty : t = []
  · rw [if_pos empty]
    exact empty ▸ guarded
  · rw [if_neg empty]
    trivial

theorem keeps_main {limit larger : Nat} (enough : limit ≤ larger) :
    Keeps limit 0 0 (part .main (main limit)) (part .main (main larger)) :=
  ((keeps_expression enough (by omega)).bind fun _ => keeps_end.bind fun _ => keeps_pure _).part _

end Verdict.Grammar

namespace Verdict.Query
open Grammar

theorem nestsBeyond_mono {limit larger depth : Nat} {quote : Option Char} {t : Text}
    (enough : limit ≤ larger) (within : nestsBeyond limit depth quote t = false) :
    nestsBeyond larger depth quote t = false := by
  fun_induction nestsBeyond limit depth quote t with
  | case1 => simp [nestsBeyond]
  | case2 depth q c rest ih =>
    rw [nestsBeyond]
    exact ih within
  | case3 depth q c rest plain ih =>
    rw [nestsBeyond.eq_3 _ _ _ _ _ plain]
    exact ih within
  | case4 depth c rest quote ih =>
    rw [nestsBeyond, if_pos quote]
    exact ih within
  | case5 depth rest notQuote ih =>
    rw [Bool.or_eq_false_iff, decide_eq_false_iff_not] at within
    rw [nestsBeyond, if_neg notQuote, if_pos rfl, ih within.2, Bool.or_false,
      decide_eq_false_iff_not]
    omega
  | case6 depth rest notQuote notOpen ih =>
    rw [nestsBeyond, if_neg notQuote, if_neg notOpen, if_pos rfl]
    exact ih within
  | case7 depth c rest notQuote notOpen notClose ih =>
    rw [nestsBeyond, if_neg notQuote, if_neg notOpen, if_neg notClose]
    exact ih within

/-- A text that passes the scan never takes the grammar beyond the limit, whether or not it is a
    rule: nowhere in the reading, also in a choice given up later, is a parenthesis opened that the
    budget does not allow. A larger budget changes neither what is read nor what is attempted. -/
theorem scan_bounds_grammar {limit : Nat} {query : Text}
    (scanned : nestsBeyond limit 0 none query = false) :
    (Reader.part .main (main limit) query).outcome ≠ .exhausted ∧
      ∀ larger, limit ≤ larger →
        Reader.part .main (main larger) query = Reader.part .main (main limit) query ∧
          parse larger query = parse limit query := by
  have guarded : Guarded limit 0 query := ⟨Nat.zero_le limit, scanned⟩
  have notExhausted : (Reader.part .main (main limit) query).outcome ≠ .exhausted := by
    intro exhausted
    have leaves := (keeps_main (Nat.le_refl limit) query guarded).2
    rw [exhausted] at leaves
    exact leaves
  refine ⟨notExhausted, fun larger enough => ?_⟩
  have same := (keeps_main enough query guarded).1
  refine ⟨same, ?_⟩
  unfold parse
  simp only [scanned, nestsBeyond_mono enough scanned, same, Bool.false_eq_true, ↓reduceIte]
  cases read : (Reader.part .main (main limit) query).outcome with
  | matched spelled rest => rfl
  | failed => rfl
  | exhausted => exact absurd read notExhausted

/-- The scan takes the rest of this text for a string, which for the grammar ends with the line. -/
def brokenString : Text := "(a in (1) or b = 'x\n(((".toList

theorem brokenString_within_two :
    nestsBeyond 2 0 none brokenString = false ∧
      (Reader.part .main (main 2) brokenString).outcome ≠ .exhausted ∧
      parse 64 brokenString = parse 2 brokenString ∧
      parse 2 brokenString = .error (.unexpected 1 18
        [.valueList, .real, .integer, .string, .boolean, .nothing, .propertyPath]) := by
  have scanned : nestsBeyond 2 0 none brokenString = false := by cbv
  obtain ⟨bounded, larger⟩ := scan_bounds_grammar scanned
  exact ⟨scanned, bounded, (larger 64 (by decide)).2, by cbv⟩

end Verdict.Query
