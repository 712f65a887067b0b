import Verdict.Proofs.Blame
import Verdict.Proofs.Composition

/-!
What a place in a rule still awaits. At every place that the grammar comes to, also in a choice that
it gives up later, any phrase of the reader that stands there can be completed to a rule. So each
part that is noted as an attempt there is one that a rule can go on with.
-/
namespace Verdict.Grammar
open Reader

def IsRule (t : Text) : Prop := ∃ nodes, Spells t nodes

/-- A phrase of the first kind, and one of the second after it. -/
def Then (P Q : Text → Prop) (t : Text) : Prop := ∃ a b, P a ∧ Q b ∧ Joins a b t

def Filled (P : Text → Prop) : Prop := ∀ t, P t → t ≠ []

/-- A phrase of this kind can be written without a digit other than zero. -/
def Sampled (P : Text → Prop) : Prop := ∃ t, P t ∧ Zeros t

section
variable {P P' Q Q' R : Text → Prop}

theorem filled_char (c : Char) : Filled (· = [c]) := by
  rintro _ rfl
  simp

theorem sampled_char {c : Char} (noDigit : c.isDigit = false) : Sampled (· = [c]) := by
  refine ⟨[c], rfl, fun d member digit => ?_⟩
  rw [List.mem_singleton.mp member, noDigit] at digit
  cases digit

theorem Filled.andThen (filled : Filled P) : Filled (Then P Q) := by
  rintro t ⟨a, b, isP, -, joins⟩
  cases joins
  exact List.append_ne_nil_of_left_ne_nil (filled a isP) _

theorem blank_nil : Blank [] := by
  simp [Blank]

theorem zeros_nil : Zeros [] := by
  simp [Zeros]

theorem zeros_of_blank {t : Text} (blank : Blank t) : Zeros t := by
  intro c member digit
  have notBlank := isBlank_of_isDigit digit
  rw [blank c member] at notBlank
  cases notBlank

theorem zeros_space : Zeros [' '] := zeros_of_blank blank_space

theorem Sampled.andThen (first : Sampled P) (second : Sampled Q) : Sampled (Then P Q) := by
  obtain ⟨a, isP, zerosFirst⟩ := first
  obtain ⟨b, isQ, zerosSecond⟩ := second
  refine ⟨a ++ ([' '] ++ b), ⟨a, b, isP, isQ, joins_blank blank_space (by simp) a b⟩, ?_⟩
  exact zeros_append.mpr ⟨zerosFirst, zeros_append.mpr ⟨zeros_space, zerosSecond⟩⟩

theorem Then.mono {t : Text} (both : Then P Q t) (first : ∀ a, P a → P' a)
    (second : ∀ b, Q b → Q' b) : Then P' Q' t := by
  obtain ⟨a, b, isP, isQ, joins⟩ := both
  exact ⟨a, b, first a isP, second b isQ, joins⟩

theorem Joins.assocLeft {a b c bc t : Text} (behind : Joins b c bc) (joins : Joins a bc t)
    (nonempty : b ≠ []) : ∃ ab, Joins a b ab ∧ Joins ab c t := by
  cases behind with
  | intro others blankOthers seamOthers =>
    cases joins with
    | intro blanks blank seam =>
      refine ⟨a ++ (blanks ++ b), .intro blanks blank ?_, ?_⟩
      · rw [← List.append_assoc] at seam
        exact seam_of_append seam
      · have whole : a ++ (blanks ++ (b ++ (others ++ c))) =
            a ++ (blanks ++ b) ++ (others ++ c) := by simp
        rw [whole]
        refine .intro others blankOthers ?_
        rwa [Seam, ← List.append_assoc, endsOpen_append _ _ nonempty]

theorem Then.assoc {t : Text} (filled : Filled Q) (all : Then P (Then Q R) t) :
    Then (Then P Q) R t := by
  obtain ⟨a, bc, isP, ⟨b, c, isQ, isR, behind⟩, joins⟩ := all
  obtain ⟨ab, front, whole⟩ := behind.assocLeft joins (filled b isQ)
  exact ⟨ab, c, ⟨a, b, isP, isQ, front⟩, isR, whole⟩

theorem Then.assocRight {t : Text} (filled : Filled Q) (all : Then (Then P Q) R t) :
    Then P (Then Q R) t := by
  obtain ⟨ab, c, ⟨a, b, isP, isQ, front⟩, isR, joins⟩ := all
  obtain ⟨bc, behind, whole⟩ := front.assoc joins (filled b isQ)
  exact ⟨a, bc, isP, ⟨b, c, isQ, isR, behind⟩, whole⟩

end

/-- After `front`, any phrase of this kind can be completed to a rule, after any blanks. -/
def Awaits (front : Text) (P : Text → Prop) : Prop :=
  ∀ blanks x, Blank blanks → P x → Seam front (blanks ++ x) →
    ∃ after, Zeros after ∧ IsRule (front ++ (blanks ++ (x ++ after)))

theorem seam_append_iff {front a b : Text} (nonempty : a ≠ []) :
    Seam front (a ++ b) ↔ Seam front a := by
  obtain ⟨c, more, rfl⟩ := List.exists_cons_of_ne_nil nonempty
  rfl

theorem seam_of_blank {front blanks : Text} (blank : Blank blanks) (nonempty : blanks ≠ [])
    (t : Text) : Seam front (blanks ++ t) :=
  (seam_append_iff nonempty).mpr fun _ => wordEnds_of_blank blank

theorem endsOpen_of_blank {blanks : Text} (blank : Blank blanks) : endsOpen blanks = false := by
  have closed : ∀ c ∈ [' ', '\t', '\r', '\n'], (isWordChar c || c == '.') = false := by decide
  unfold endsOpen
  cases last : blanks.getLast? with
  | none => rfl
  | some c => exact closed c (isBlank_cases (blank c (List.mem_of_getLast? last)))

section
variable {P Q : Text → Prop} {front : Text}

theorem Awaits.mono (awaits : Awaits front P) (narrower : ∀ x, Q x → P x) : Awaits front Q :=
  fun blanks x blank isQ seam => awaits blanks x blank (narrower x isQ) seam

theorem Awaits.first (awaits : Awaits front (Then P Q)) (filled : Filled P) (sampled : Sampled Q) :
    Awaits front P := by
  obtain ⟨b, isQ, zeros⟩ := sampled
  intro blanks x blank isP seam
  have nonempty := filled x isP
  have both : Then P Q (x ++ ([' '] ++ b)) :=
    ⟨x, b, isP, isQ, joins_blank blank_space (by simp) x b⟩
  have seamBoth : Seam front (blanks ++ (x ++ ([' '] ++ b))) := by
    rw [← List.append_assoc, seam_append_iff (List.append_ne_nil_of_right_ne_nil _ nonempty)]
    exact seam
  obtain ⟨after, zerosAfter, rule⟩ := awaits blanks _ blank both seamBoth
  refine ⟨[' '] ++ b ++ after, ?_, ?_⟩
  · exact zeros_append.mpr ⟨zeros_append.mpr ⟨zeros_space, zeros⟩, zerosAfter⟩
  · simpa using rule

theorem Awaits.next (awaits : Awaits front (Then P Q)) {blanks a rest : Text}
    (blank : Blank blanks) (isP : P a) (nonempty : a ≠ [])
    (seam : Seam front (blanks ++ (a ++ rest))) : Awaits (front ++ (blanks ++ a)) Q := by
  intro others b blankOthers isQ seamAfter
  have joins : Joins a b (a ++ (others ++ b)) := by
    refine .intro others blankOthers ?_
    rwa [Seam, ← List.append_assoc, endsOpen_append _ _ nonempty] at seamAfter
  have seamFront : Seam front (blanks ++ (a ++ (others ++ b))) := by
    have before : blanks ++ a ≠ [] := List.append_ne_nil_of_right_ne_nil _ nonempty
    rw [← List.append_assoc, seam_append_iff before] at seam ⊢
    exact seam
  obtain ⟨after, zeros, rule⟩ := awaits blanks _ blank ⟨a, b, isP, isQ, joins⟩ seamFront
  exact ⟨after, zeros, by simpa using rule⟩

theorem Awaits.skip (awaits : Awaits front P) {blanks t : Text} (blank : Blank blanks)
    (seam : Seam front (blanks ++ t)) :
    Awaits (front ++ blanks) P ∧ Seam (front ++ blanks) t := by
  by_cases empty : blanks = []
  · subst empty
    rw [List.append_nil]
    exact ⟨awaits, seam⟩
  · constructor
    · intro others x blankOthers isP _
      have seamAll : Seam front (blanks ++ others ++ x) := by
        rw [List.append_assoc]
        exact seam_of_blank blank empty _
      obtain ⟨after, zeros, rule⟩ :=
        awaits (blanks ++ others) x (blank_append blank blankOthers) isP seamAll
      exact ⟨after, zeros, by simpa using rule⟩
    · intro isOpen
      rw [endsOpen_append _ _ empty, endsOpen_of_blank blank] at isOpen
      cases isOpen

end

/-- The text is one that the part reads, the whole of it. -/
def Part.Matches : Part → Text → Prop
  | .endOfInput, x => x = []
  | .main, x => ∃ limit spelled, (Reader.part .main (Grammar.main limit) x).outcome =
      .matched spelled []
  | .expression, x => ∃ limit spelled, (Grammar.expression limit x).outcome = .matched spelled []
  | .group, x => ∃ limit spelled, (Grammar.group (some (Grammar.expression limit)) x).outcome =
      .matched spelled []
  | .condition, x => ∃ spelled, (Grammar.condition true x).outcome = .matched spelled []
  | .valueList, x => ∃ spelled, (Grammar.valueList true x).outcome = .matched spelled []
  | .and, x => (connective x).outcome = .matched .and []
  | .or, x => (connective x).outcome = .matched .or []
  | .operator, x => ∃ op, operator? x = some (op, [])
  | .real, x => ∃ numeral, real? x = some (numeral, [])
  | .integer, x => ∃ literal, integer? x = some (literal, [])
  | .string, x => ∃ content, string? x = some (content, [])
  | .boolean, x => ∃ b, boolean? x = some (b, [])
  | .nothing, x => ∃ u, nothing? x = some (u, [])
  | .propertyPath, x => ∃ p, path? x = some (p, [])

def Part.sample : Part → Text
  | .endOfInput => []
  | .main | .expression | .condition => "a = a".toList
  | .group => "(a = a)".toList
  | .valueList => "(a)".toList
  | .and => "and".toList
  | .or => "or".toList
  | .operator => "=".toList
  | .real => "0.".toList
  | .integer => "0".toList
  | .string => "''".toList
  | .boolean => "true".toList
  | .nothing => "none".toList
  | .propertyPath => "a".toList

theorem Part.zeros_sample (r : Part) : Zeros r.sample := by
  have zeros : ∀ c ∈ r.sample, c.isDigit = true → c = '0' := by
    cases r <;> decide
  exact zeros

theorem Part.matches_sample (r : Part) : r.Matches r.sample := by
  -- each sample is written out, since looking it up among all parts takes long
  cases r with
  | endOfInput => rfl
  | main =>
    have read : (Reader.part .main (Grammar.main 0) "a = a".toList).outcome =
        .matched (.ok [.condition ⟨.path ['a'], .equal, .path ['a']⟩]) [] := by cbv
    exact ⟨0, _, read⟩
  | expression =>
    have read : (Grammar.expression 0 "a = a".toList).outcome =
        .matched (.ok [.condition ⟨.path ['a'], .equal, .path ['a']⟩]) [] := by cbv
    exact ⟨0, _, read⟩
  | group =>
    have read : (Grammar.group (some (Grammar.expression 0)) "(a = a)".toList).outcome =
        .matched (.ok (.group [.condition ⟨.path ['a'], .equal, .path ['a']⟩])) [] := by cbv
    exact ⟨0, _, read⟩
  | condition =>
    have read : (Grammar.condition true "a = a".toList).outcome =
        .matched (.ok (.condition ⟨.path ['a'], .equal, .path ['a']⟩)) [] := by cbv
    exact ⟨_, read⟩
  | valueList =>
    have read : (Grammar.valueList true "(a)".toList).outcome =
        .matched (.ok (.list [.path ['a']])) [] := by cbv
    exact ⟨_, read⟩
  | and =>
    have read : (connective "and".toList).outcome = .matched .and [] := by cbv
    exact read
  | or =>
    have read : (connective "or".toList).outcome = .matched .or [] := by cbv
    exact read
  | operator =>
    have read : operator? "=".toList = some (.equal, []) := by cbv
    exact ⟨_, read⟩
  | real =>
    have read : real? "0.".toList = some (⟨false, ['0'], [], none⟩, []) := by cbv
    exact ⟨_, read⟩
  | integer =>
    have read : integer? "0".toList = some (⟨false, ['0'], none⟩, []) := by cbv
    exact ⟨_, read⟩
  | string =>
    have read : string? "''".toList = some ([], []) := by cbv
    exact ⟨_, read⟩
  | boolean =>
    have read : boolean? "true".toList = some (true, []) := by cbv
    exact ⟨_, read⟩
  | nothing =>
    have read : nothing? "none".toList = some ((), []) := by cbv
    exact ⟨_, read⟩
  | propertyPath =>
    have read : path? "a".toList = some (['a'], []) := by cbv
    exact ⟨_, read⟩

/-- After `front` a rule goes on with the blanks, then with a text of the part and then with the
    rest, which has no digits but zeros. -/
structure Continues (front : Text) (r : Part) (blanks x after : Text) : Prop where
  blank : Blank blanks
  apart : blanks ≠ []
  isPart : r.Matches x
  last : r = .endOfInput → after = []
  zeros : Zeros (x ++ after)
  rule : IsRule (front ++ (blanks ++ (x ++ after)))

def Completable (front : Text) (r : Part) : Prop :=
  ∃ blanks x after, Continues front r blanks x after

theorem completable_of_awaits {front : Text} {P : Text → Prop} {r : Part}
    (awaits : Awaits front P) (isP : P r.sample) (notEnd : r ≠ .endOfInput) :
    Completable front r := by
  have apart : [' '] ≠ [] := by simp
  obtain ⟨after, zeros, rule⟩ :=
    awaits [' '] r.sample blank_space isP (seam_of_blank blank_space apart _)
  exact ⟨[' '], r.sample, after, blank_space, apart, r.matches_sample,
    fun isEnd => absurd isEnd notEnd, zeros_append.mpr ⟨r.zeros_sample, zeros⟩, rule⟩

theorem completable_of_rule {front : Text} (rule : IsRule front) :
    Completable front .endOfInput := by
  obtain ⟨nodes, spelled⟩ := rule
  cases spelled with
  | @intro before text after _ blankBefore terms blankAfter =>
    have spelled := Spells.intro blankBefore terms (blank_append blankAfter blank_space)
    exact ⟨[' '], [], [], blank_space, by simp, rfl, fun _ => rfl, zeros_nil, nodes,
      by simpa using spelled⟩

def IsScalar (t : Text) : Prop := ∃ v, SpellsScalar t v

def IsItems (t : Text) : Prop := ∃ items, SpellsItems t items

def IsOperand (t : Text) : Prop := ∃ v, SpellsOperand t v

def IsOperator (t : Text) : Prop := ∃ op, SpellsOperator t op

def IsConnective (t : Text) : Prop := ∃ c, SpellsConnective t c

def IsCondition (t : Text) : Prop := ∃ c, SpellsCondition t c

def IsTerm (t : Text) : Prop := ∃ node, SpellsTerms t [node]

def IsTerms (t : Text) : Prop := ∃ nodes, SpellsTerms t nodes

def Enclosed (P : Text → Prop) : Text → Prop := Then (· = ['(']) (Then P (· = [')']))

theorem filled_scalar : Filled IsScalar := fun _ ⟨_, spelled⟩ => (starts_scalar spelled).nonempty

theorem filled_items : Filled IsItems := fun _ ⟨_, spelled⟩ => (starts_items spelled).nonempty

theorem filled_operand : Filled IsOperand := fun _ ⟨_, spelled⟩ =>
  (starts_operand spelled).nonempty

theorem filled_operator : Filled IsOperator := fun _ ⟨_, spelled⟩ =>
  (starts_operator spelled).nonempty

theorem filled_connective : Filled IsConnective := fun _ ⟨_, spelled⟩ =>
  (starts_connective spelled).nonempty

theorem filled_terms : Filled IsTerms := fun _ ⟨_, spelled⟩ => (starts_terms spelled).nonempty

theorem terms_of_term {t : Text} (isTerm : IsTerm t) : IsTerms t := by
  obtain ⟨node, spelled⟩ := isTerm
  exact ⟨[node], spelled⟩

theorem filled_term : Filled IsTerm := fun t isTerm => filled_terms t (terms_of_term isTerm)

theorem items_of_scalar {t : Text} (isScalar : IsScalar t) : IsItems t := by
  obtain ⟨v, spelled⟩ := isScalar
  exact ⟨[v], .last spelled⟩

theorem items_cons {R : Text → Prop} {t : Text}
    (more : Then IsScalar (Then (· = [',']) (Then IsItems R)) t) : Then IsItems R t := by
  have grouped := (more.assoc (filled_char ',')).assoc filled_items
  refine grouped.mono (fun a both => ?_) fun _ => id
  obtain ⟨front, others, ⟨first, comma, ⟨v, scalar⟩, rfl, joinsComma⟩, ⟨items, spelled⟩, joins⟩ :=
    both
  exact ⟨v :: items, .more scalar joinsComma spelled joins⟩

theorem terms_cons {t : Text} (more : Then IsTerm (Then IsConnective IsTerms) t) : IsTerms t := by
  obtain ⟨front, others, ⟨first, joint, ⟨node, term⟩, ⟨c, connective⟩, joinsJoint⟩,
    ⟨nodes, spelled⟩, joins⟩ := more.assoc filled_connective
  exact ⟨node :: .connective c :: nodes, .joined term connective spelled joinsJoint joins⟩

theorem Enclosed.parenthesized {P : Text → Prop} {t : Text} (enclosed : Enclosed P t)
    (filled : Filled P) : ∃ inner, P inner ∧ Parenthesized inner t := by
  obtain ⟨front, _, ⟨_, inner, rfl, isP, opening⟩, rfl, closing⟩ := enclosed.assoc filled
  exact ⟨inner, isP, .intro opening closing⟩

theorem operand_of_scalar {t : Text} (isScalar : IsScalar t) : IsOperand t := by
  obtain ⟨v, spelled⟩ := isScalar
  exact ⟨v, .scalar spelled⟩

theorem operand_of_enclosed {t : Text} (enclosed : Enclosed IsItems t) : IsOperand t := by
  obtain ⟨inner, ⟨items, spelled⟩, around⟩ := enclosed.parenthesized filled_items
  exact ⟨.list items, .list spelled around⟩

theorem condition_of_parts {t : Text} (parts : Then IsOperand (Then IsOperator IsOperand) t) :
    IsCondition t := by
  obtain ⟨front, r, ⟨l, o, ⟨left, leftSpelled⟩, ⟨op, operator⟩, joinsLeft⟩, ⟨right, rightSpelled⟩,
    joinsRight⟩ := parts.assoc filled_operator
  exact ⟨⟨left, op, right⟩, .intro leftSpelled operator rightSpelled joinsLeft joinsRight⟩

theorem term_of_condition {t : Text} (isCondition : IsCondition t) : IsTerm t := by
  obtain ⟨c, spelled⟩ := isCondition
  exact ⟨.condition c, .condition spelled⟩

theorem term_of_enclosed {t : Text} (enclosed : Enclosed IsTerms t) : IsTerm t := by
  obtain ⟨inner, ⟨nodes, spelled⟩, around⟩ := enclosed.parenthesized filled_terms
  exact ⟨.group nodes, .group spelled around⟩

theorem separated_more {Separator Element L : Text → Prop} {t : Text} (filled : Filled Element)
    (grows : ∀ t, Then Element (Then Separator L) t → L t)
    (more : Then (Then Separator Element) (Then Separator L) t) : Then Separator L t :=
  (more.assocRight filled).mono (fun _ => id) grows

theorem phrase_of_taken {P : Text → Prop} {t : Text} (taken : Taken P t [])
    (solid : Text.skipBlanks t = t) : P t := by
  obtain ⟨text, split, isP, -⟩ := taken
  rw [solid, List.append_nil] at split
  exact split ▸ isP

theorem real_sample : IsScalar Part.real.sample := by
  obtain ⟨numeral, read⟩ := Part.matches_sample .real
  obtain ⟨text, split, spelled, -⟩ := real_sound read
  rw [List.append_nil] at split
  rw [split]
  obtain ⟨x, value⟩ := finite_of_zeros spelled (split ▸ Part.zeros_sample .real)
  exact ⟨.real (.finite x), .real spelled value⟩

theorem scalar_sample {r : Part}
    (isScalar : r ∈ [.real, .integer, .string, .boolean, .nothing, .propertyPath]) :
    IsScalar r.sample := by
  have solid : Text.skipBlanks r.sample = r.sample := by cases r <;> rfl
  have scalar {v : Operand} (read : (value r.sample).outcome = .matched (.ok v) []) :
      IsScalar r.sample := ⟨v, phrase_of_taken (value_sound read) solid⟩
  cases r with
  | real => exact real_sample
  | integer =>
    have read : (value "0".toList).outcome = .matched (.ok (.int 0)) [] := by cbv
    exact scalar read
  | string =>
    have read : (value "''".toList).outcome = .matched (.ok (.str [])) [] := by cbv
    exact scalar read
  | boolean =>
    have read : (value "true".toList).outcome = .matched (.ok (.bool true)) [] := by cbv
    exact scalar read
  | nothing =>
    have read : (value "none".toList).outcome = .matched (.ok .nothing) [] := by cbv
    exact scalar read
  | propertyPath =>
    have read : (value "a".toList).outcome = .matched (.ok (.path ['a'])) [] := by cbv
    exact scalar read
  | _ => simp at isScalar

theorem enclosed_parens {P : Text → Prop} {inner : Text} (isP : P inner) :
    Enclosed P (['('] ++ ([] ++ (inner ++ ([] ++ [')'])))) := by
  exact ⟨['('], _, rfl, ⟨inner, [')'], isP, rfl, .intro [] blank_nil fun _ => rfl⟩,
    .intro [] blank_nil (seam_of_closed (a := []) rfl)⟩

theorem list_sample : Enclosed IsItems Part.valueList.sample :=
  enclosed_parens (items_of_scalar (scalar_sample (r := .propertyPath) (by simp)))

theorem operator_sample : IsOperator Part.operator.sample := by
  have known : Text.folded ['='] ∈ Operator.equal.tokens := by decide
  exact ⟨.equal, known⟩

theorem and_sample : IsConnective Part.and.sample := ⟨.and, .and rfl⟩

theorem or_sample : IsConnective Part.or.sample := ⟨.or, .or rfl⟩

theorem condition_sample : IsCondition Part.condition.sample := by
  have operand : IsOperand ['a'] :=
    operand_of_scalar (scalar_sample (r := .propertyPath) (by simp))
  have behind := joins_blank blank_space (by simp) ['='] ['a']
  exact condition_of_parts ⟨['a'], _, operand, ⟨['='], ['a'], operator_sample, operand, behind⟩,
    joins_blank blank_space (by simp) ['a'] _⟩

theorem terms_sample : IsTerms Part.expression.sample :=
  terms_of_term (term_of_condition condition_sample)

theorem Part.sampled {P : Text → Prop} {r : Part} (isP : P r.sample) : Sampled P :=
  ⟨r.sample, isP, r.zeros_sample⟩

theorem group_sample : IsTerm Part.group.sample := term_of_enclosed (enclosed_parens terms_sample)

end Verdict.Grammar
