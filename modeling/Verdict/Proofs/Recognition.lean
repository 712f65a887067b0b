import Verdict.Proofs.Phrases
import Verdict.Proofs.Readers

/-!
What the grammar reads is spelled. Each reader takes from a text, after blanks, a phrase that the
rules of spelling allow for what it gives.
-/
namespace Verdict.Grammar
open Reader

/-- From `t` a phrase is taken, and `rest` is left; blanks may stand before the phrase. -/
def Taken (phrase : Text → Prop) (t rest : Text) : Prop :=
  ∃ text, Text.skipBlanks t = text ++ rest ∧ phrase text ∧ Seam text rest

theorem skipBlanks_idem (t : Text) : Text.skipBlanks (Text.skipBlanks t) = Text.skipBlanks t := by
  induction t with
  | nil => rfl
  | cons c rest ih =>
    by_cases blank : Text.isBlank c
    · simpa [Text.skipBlanks, blank] using ih
    · simp [Text.skipBlanks, blank]

theorem skipBlanks_split (t : Text) : ∃ blanks, Blank blanks ∧ t = blanks ++ Text.skipBlanks t :=
  ⟨t.takeWhile Text.isBlank, fun c member => List.all_eq_true.mp List.all_takeWhile c member,
    (List.takeWhile_append_dropWhile).symm⟩

theorem Taken.join {P Q : Text → Prop} {t middle rest : Text} (first : Taken P t middle)
    (second : Taken Q middle rest) (nonempty : ∀ b, Q b → b ≠ []) :
    Taken (fun text => ∃ a b, P a ∧ Q b ∧ Joins a b text) t rest := by
  obtain ⟨a, split, isP, seam⟩ := first
  obtain ⟨b, after, isQ, seamAfter⟩ := second
  obtain ⟨blanks, blank, whole⟩ := skipBlanks_split middle
  rw [after] at whole
  subst whole
  rw [← List.append_assoc] at seam
  refine ⟨a ++ (blanks ++ b), by simp [split], ⟨a, b, isP, isQ, .intro blanks blank ?_⟩, ?_⟩
  · exact seam_of_append seam
  · rw [Seam, ← List.append_assoc, endsOpen_append _ _ (nonempty b isQ)]
    exact seamAfter

theorem Taken.mono {P Q : Text → Prop} {t rest : Text} (taken : Taken P t rest)
    (implies : ∀ text, P text → Q text) : Taken Q t rest := by
  obtain ⟨text, split, isP, seam⟩ := taken
  exact ⟨text, split, implies text isP, seam⟩

theorem taken_char {c : Char} {t rest : Text} (skip : Text.skipBlanks t = c :: rest)
    (closed : (isWordChar c || c == '.') = false) : Taken (· = [c]) t rest :=
  ⟨[c], skip, rfl, seam_of_closed (a := []) closed⟩

theorem taken_symbol {c : Char} {t rest : Text} {value : Unit}
    (read : (symbol c t).outcome = .matched value rest)
    (closed : (isWordChar c || c == '.') = false) : Taken (· = [c]) t rest :=
  taken_char (matched_of_symbol read) closed

theorem taken_skip {P : Text → Prop} {t rest : Text} :
    Taken P (Text.skipBlanks t) rest ↔ Taken P t rest := by
  simp only [Taken, skipBlanks_idem]

theorem value_outcome (t : Text) :
    (value t).outcome = (token scalar? (Text.skipBlanks t)).outcome := by
  -- from the last alternative to the first, each one a token
  have nothingLeft : ((choice [] : Reader (Spelled Operand)) t).outcome =
      (token (fun _ => none) t).outcome := rfl
  have path := orElse_token
    (part_token .propertyPath (map_token_outcome path? fun p => .ok (.path p)) t) nothingLeft
  have nothing := orElse_token
    (part_token .nothing (map_token_outcome nothing? fun _ => .ok .nothing) t) path
  have boolean := orElse_token
    (part_token .boolean (map_token_outcome boolean? fun b => .ok (.bool b)) t) nothing
  have string := orElse_token
    (part_token .string (map_token_outcome string? fun s => .ok (.str s)) t) boolean
  have integer := orElse_token
    (part_token .integer (p := token integerOperand?) (fun _ => rfl) t) string
  have real := orElse_token (part_token .real (p := token realOperand?) (fun _ => rfl) t) integer
  exact real

theorem value_sound {t rest : Text} {v : Operand}
    (read : (value t).outcome = .matched (.ok v) rest) : Taken (SpellsScalar · v) t rest := by
  rw [value_outcome] at read
  exact scalar_sound (matched_of_token read)

theorem spelled_all_cons {α : Type} {first : Spelled α} {more : List (Spelled α)} {values : List α}
    (spelled : Spelled.all (first :: more) = .ok values) :
    ∃ v vs, first = .ok v ∧ Spelled.all more = .ok vs ∧ values = v :: vs := by
  cases first with
  | error e => cases spelled
  | ok v =>
    rw [Spelled.all] at spelled
    cases rest : Spelled.all more with
    | error e => rw [rest] at spelled; cases spelled
    | ok vs =>
      rw [rest] at spelled
      cases spelled
      exact ⟨v, vs, rfl, rfl, rfl⟩

theorem items_sound {t middle rest : Text} {first : Spelled Operand}
    {more : List (Spelled Operand)} {items : List Operand}
    (read : (value t).outcome = .matched first middle)
    (chain : Chain (do symbol ','; value) middle more rest)
    (spelled : Spelled.all (first :: more) = .ok items) : Taken (SpellsItems · items) t rest := by
  generalize start : middle = m at chain
  induction chain generalizing t first items middle with
  | nil m =>
    subst start
    obtain ⟨v, vs, rfl, others, rfl⟩ := spelled_all_cons spelled
    cases others
    exact (value_sound read).mono fun text scalar => .last scalar
  | @cons m after rest next more nextRead chain ih =>
    subst start
    obtain ⟨v, vs, rfl, others, rfl⟩ := spelled_all_cons spelled
    obtain ⟨_, beyond, comma, nextRead⟩ := matched_of_bind nextRead
    have tail := ih nextRead others rfl
    have front := (value_sound read).join (taken_symbol comma rfl) (by rintro _ rfl; simp)
    refine (front.join tail fun _ items => (starts_items items).nonempty).mono ?_
    rintro text ⟨front, others, ⟨first, comma, scalar, rfl, joinsComma⟩, items, joins⟩
    exact .more scalar joinsComma items joins

theorem taken_parenthesized {P : Text → Prop} {allowed : Bool} {t inside beyond rest : Text}
    {u v : Unit} (opened : (opening allowed t).outcome = .matched u inside)
    (taken : Taken P inside beyond) (nonempty : ∀ a, P a → a ≠ [])
    (closed : (symbol ')' beyond).outcome = .matched v rest) :
    Taken (fun text => ∃ inner, P inner ∧ Parenthesized inner text) t rest := by
  have front := (taken_char (matched_of_opening opened).2 rfl).join taken nonempty
  refine (front.join (taken_symbol closed rfl) (by rintro _ rfl; simp)).mono ?_
  rintro text ⟨front, close, ⟨paren, inner, rfl, isP, opening⟩, rfl, closing⟩
  exact ⟨inner, isP, .intro opening closing⟩

theorem valueList_sound {allowed : Bool} {t rest : Text} {v : Operand}
    (read : (valueList allowed t).outcome = .matched (.ok v) rest) :
    Taken (SpellsOperand · v) t rest := by
  rw [valueList, part_outcome] at read
  obtain ⟨_, inside, opened, read⟩ := matched_of_bind read
  obtain ⟨first, after, firstRead, read⟩ := matched_of_bind read
  obtain ⟨more, beyond, moreRead, read⟩ := matched_of_bind read
  obtain ⟨_, final, closed, read⟩ := matched_of_bind read
  cases all : Spelled.all (first :: more) with
  | error e => simp [all, Except.map] at read
  | ok items =>
    simp only [all, Except.map, pure_outcome, Outcome.matched.injEq, Except.ok.injEq] at read
    obtain ⟨rfl, rfl⟩ := read
    have taken := items_sound firstRead (chain_of_repeated moreRead) all
    refine (taken_skip.mp (taken_parenthesized opened taken ?_ closed)).mono ?_
    · exact fun _ items => (starts_items items).nonempty
    · rintro text ⟨inner, items, around⟩
      exact .list items around

theorem operand_sound {allowed : Bool} {t rest : Text} {v : Operand}
    (read : (operand allowed t).outcome = .matched (.ok v) rest) :
    Taken (SpellsOperand · v) t rest := by
  rcases matched_of_orElse read with list | ⟨-, scalar⟩
  · exact valueList_sound list
  · exact (value_sound scalar).mono fun _ => .scalar

theorem operatorPart_sound {t rest : Text} {op : Operator}
    (read : (part .operator (token operator?) t).outcome = .matched op rest) :
    Taken (SpellsOperator · op) t rest := by
  rw [part_outcome] at read
  exact operator_sound (matched_of_token read)

theorem condition_sound {allowed : Bool} {t rest : Text} {node : Node}
    (read : (condition allowed t).outcome = .matched (.ok node) rest) :
    ∃ c, node = .condition c ∧ Taken (SpellsCondition · c) t rest := by
  rw [condition, part_outcome] at read
  obtain ⟨left, afterLeft, leftRead, read⟩ := matched_of_bind read
  obtain ⟨op, afterOp, opRead, read⟩ := matched_of_bind read
  obtain ⟨right, final, rightRead, read⟩ := matched_of_bind read
  cases left with
  | error e => cases read
  | ok left =>
    cases right with
    | error e => cases read
    | ok right =>
      cases read
      have front := (operand_sound leftRead).join (operatorPart_sound opRead)
        fun _ operator => (starts_operator operator).nonempty
      have whole := front.join (operand_sound rightRead)
        fun _ operand => (starts_operand operand).nonempty
      refine ⟨_, rfl, (taken_skip.mp whole).mono ?_⟩
      rintro text ⟨front, r, ⟨l, o, left, operator, joinsLeft⟩, right, joinsRight⟩
      exact .intro left operator right joinsLeft joinsRight

theorem connective_sound {t rest : Text} {c : Connective}
    (read : (connective t).outcome = .matched c rest) : Taken (SpellsConnective · c) t rest := by
  rcases matched_of_orElse read with isAnd | ⟨-, isOr⟩
  · rw [part_outcome] at isAnd
    obtain ⟨after, found, same⟩ := Option.map_eq_some_iff.mp (matched_of_token isAnd)
    cases same
    obtain ⟨text, split, word, ends⟩ := (afterWord_iff _ _ _).mp found
    exact ⟨text, split, .and word, fun _ => ends⟩
  · rw [part_outcome] at isOr
    obtain ⟨after, found, same⟩ := Option.map_eq_some_iff.mp (matched_of_token isOr)
    cases same
    obtain ⟨text, split, word, ends⟩ := (afterWord_iff _ _ _).mp found
    exact ⟨text, split, .or word, fun _ => ends⟩

def Sound (inner : Option (Reader (Spelled Sequence))) : Prop :=
  ∀ p ∈ inner, ∀ t rest nodes, (p t).outcome = .matched (.ok nodes) rest →
    Taken (SpellsTerms · nodes) t rest

theorem group_sound {inner : Option (Reader (Spelled Sequence))} (sound : Sound inner)
    {t rest : Text} {node : Node} (read : (group inner t).outcome = .matched (.ok node) rest) :
    Taken (SpellsTerms · [node]) t rest := by
  rw [group, part_outcome] at read
  obtain ⟨_, inside, opened, read⟩ := matched_of_bind read
  obtain ⟨body, beyond, bodyRead, read⟩ := matched_of_bind read
  obtain ⟨_, final, closed, read⟩ := matched_of_bind read
  cases inner with
  | none => cases bodyRead
  | some p =>
    cases body with
    | error e => cases read
    | ok nodes =>
      cases read
      have taken := sound p rfl _ _ _ bodyRead
      refine (taken_skip.mp (taken_parenthesized opened taken ?_ closed)).mono ?_
      · exact fun _ terms => (starts_terms terms).nonempty
      · rintro text ⟨inner, terms, around⟩
        exact .group terms around

theorem term_sound {inner : Option (Reader (Spelled Sequence))} (sound : Sound inner)
    {t rest : Text} {node : Node} (read : (term inner t).outcome = .matched (.ok node) rest) :
    Taken (SpellsTerms · [node]) t rest := by
  rcases matched_of_orElse read with isCondition | ⟨-, isGroup⟩
  · obtain ⟨c, rfl, taken⟩ := condition_sound isCondition
    exact taken.mono fun _ => .condition
  · exact group_sound sound isGroup

theorem spelled_sequence_cons {first : Spelled Node} {joint : Connective} {next : Spelled Node}
    {more : List (Connective × Spelled Node)} {nodes : Sequence}
    (spelled : Spelled.sequence first ((joint, next) :: more) = .ok nodes) :
    ∃ node others, first = .ok node ∧ Spelled.sequence next more = .ok others ∧
      nodes = node :: .connective joint :: others := by
  cases first with
  | error e => cases spelled
  | ok node =>
    rw [Spelled.sequence] at spelled
    cases rest : Spelled.sequence next more with
    | error e => rw [rest] at spelled; cases spelled
    | ok others =>
      rw [rest] at spelled
      cases spelled
      exact ⟨node, others, rfl, rfl, rfl⟩

theorem terms_sound {inner : Option (Reader (Spelled Sequence))} (sound : Sound inner)
    {t middle rest : Text} {first : Spelled Node} {more : List (Connective × Spelled Node)}
    {nodes : Sequence} (read : (term inner t).outcome = .matched first middle)
    (chain : Chain (joinedTerm inner) middle more rest)
    (spelled : Spelled.sequence first more = .ok nodes) : Taken (SpellsTerms · nodes) t rest := by
  generalize start : middle = m at chain
  induction chain generalizing t first nodes middle with
  | nil m =>
    subst start
    cases first with
    | error e => cases spelled
    | ok node =>
      cases spelled
      exact term_sound sound read
  | @cons m after rest next more nextRead chain ih =>
    subst start
    obtain ⟨joint, beyond, jointRead, nextRead⟩ := matched_of_bind nextRead
    obtain ⟨spelledNext, _, termRead, same⟩ := matched_of_bind nextRead
    cases same
    obtain ⟨node, others, rfl, rest, rfl⟩ := spelled_sequence_cons spelled
    have tail := ih termRead rest rfl
    have front := (term_sound sound read).join (connective_sound jointRead)
      fun _ connective => (starts_connective connective).nonempty
    refine (front.join tail fun _ terms => (starts_terms terms).nonempty).mono ?_
    rintro text ⟨front, others, ⟨first, joint, term, connective, joinsJoint⟩, terms, joinsRest⟩
    exact .joined term connective terms joinsJoint joinsRest

theorem level_sound {inner : Option (Reader (Spelled Sequence))} (sound : Sound inner)
    {t rest : Text} {nodes : Sequence}
    (read : (level inner t).outcome = .matched (.ok nodes) rest) :
    Taken (SpellsTerms · nodes) t rest := by
  rw [level, part_outcome] at read
  obtain ⟨first, middle, firstRead, read⟩ := matched_of_bind read
  obtain ⟨more, final, moreRead, read⟩ := matched_of_bind read
  simp only [pure_outcome, Outcome.matched.injEq] at read
  obtain ⟨spelled, rfl⟩ := read
  exact taken_skip.mp (terms_sound sound firstRead (chain_of_repeated moreRead) spelled)

theorem expression_sound (budget : Nat) {t rest : Text} {nodes : Sequence}
    (read : (expression budget t).outcome = .matched (.ok nodes) rest) :
    Taken (SpellsTerms · nodes) t rest := by
  induction budget generalizing t rest nodes with
  | zero => exact level_sound (fun p absent => absurd absent (Option.not_mem_none p)) read
  | succ budget ih =>
    refine level_sound (fun p inside => ?_) read
    cases inside
    exact fun _ _ _ => ih

theorem blank_of_end {t rest : Text} {u : Unit}
    (read : (endOfInput t).outcome = .matched u rest) : Blank t := by
  have ended := (part_outcome .endOfInput _ t).symm.trans read
  obtain ⟨blanks, blank, whole⟩ := skipBlanks_split t
  split at ended
  · rename_i empty
    rw [whole, empty, List.append_nil]
    exact blank
  · cases ended

/-- What the grammar reads is a rule that spells what it gives. -/
theorem main_sound {budget : Nat} {t rest : Text} {nodes : Sequence}
    (read : (part .main (main budget) t).outcome = .matched (.ok nodes) rest) : Spells t nodes := by
  rw [part_outcome] at read
  obtain ⟨spelled, after, expressionRead, read⟩ := matched_of_bind read
  obtain ⟨_, final, ended, same⟩ := matched_of_bind read
  cases same
  obtain ⟨text, split, terms, -⟩ := taken_skip.mp (expression_sound budget expressionRead)
  obtain ⟨before, blankBefore, whole⟩ := skipBlanks_split t
  rw [whole, split]
  exact .intro blankBefore terms (blank_of_end ended)

end Verdict.Grammar
