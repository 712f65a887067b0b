import Verdict.Proofs.Recognition

/-!
What is spelled is read. Each reader takes the whole of a phrase that the rules of spelling allow,
given what may follow it, and no choice before the right one matches there.
-/
namespace Verdict.Grammar
open Reader

theorem Taken.split {a b text t rest : Text} {p : Char → Bool} (joins : Joins a b text)
    (taken : Taken (· = text) t rest) (starts : Starts p b)
    (solid : ∀ c ∈ [' ', '\t', '\r', '\n'], p c = false) :
    ∃ middle, Taken (· = a) t middle ∧ Taken (· = b) middle rest ∧
      ∀ c, Text.isBlank c = false → p c = false → ∀ d ∈ middle.head?, d ≠ c := by
  obtain ⟨_, split, rfl, seam⟩ := taken
  cases joins with
  | intro blanks blank seamInside =>
    rw [← List.append_assoc, Seam, endsOpen_append _ _ starts.nonempty] at seam
    refine ⟨blanks ++ (b ++ rest), ⟨a, by simp [split], rfl, ?_⟩, ⟨b, ?_, rfl, seam⟩, ?_⟩
    · intro isOpen
      have ends := seamInside isOpen
      cases blanks with
      | nil =>
        obtain ⟨c, more, rfl, -⟩ := starts
        exact ends
      | cons => exact ends
    · rw [skipBlanks_blank blank, starts.skip solid]
    · intro c notBlank excluded
      cases blanks with
      | nil => exact starts.other rest excluded
      | cons d more =>
        intro e member same
        obtain rfl : d = e := by simpa using member
        rw [← same, blank d (by simp)] at notBlank
        cases notBlank

theorem Taken.length {text t rest : Text} (taken : Taken (· = text) t rest) :
    text.length + rest.length ≤ t.length := by
  obtain ⟨_, split, rfl, -⟩ := taken
  have shorter := (List.dropWhile_suffix Text.isBlank (l := t)).length_le
  change (Text.skipBlanks t).length ≤ t.length at shorter
  rw [split, List.length_append] at shorter
  exact shorter

theorem symbol_of_taken {c : Char} {t rest : Text} (taken : Taken (· = [c]) t rest) :
    (symbol c t).outcome = .matched () rest := by
  obtain ⟨_, split, rfl, -⟩ := taken
  exact symbol_of_skip split

theorem repeated_of_chain {α : Type} {p : Reader α} {t rest : Text} {values : List α}
    (chain : Chain p t values rest) (stops : (p rest).outcome = .failed) {limit : Nat}
    (enough : values.length < limit) : (repeated p limit t).outcome = .matched values rest := by
  induction chain generalizing limit with
  | nil t =>
    cases limit with
    | zero => exact absurd enough (Nat.not_lt_zero _)
    | succ limit => rw [repeated_succ, stops]
  | cons first more ih =>
    cases limit with
    | zero => exact absurd enough (Nat.not_lt_zero _)
    | succ limit =>
      rw [repeated_succ, first]
      simp only
      rw [ih stops (Nat.lt_of_succ_lt_succ enough)]

theorem many_of_chain {α : Type} {p : Reader α} {t rest : Text} {values : List α}
    (chain : Chain p t values rest) (stops : (p rest).outcome = .failed)
    (enough : values.length ≤ t.length) : (many p t).outcome = .matched values rest :=
  repeated_of_chain chain stops (Nat.lt_succ_of_le enough)

theorem value_complete {text t rest : Text} {v : Operand} (spelled : SpellsScalar text v)
    (taken : Taken (· = text) t rest) (noPoint : ∀ c ∈ rest.head?, c ≠ '.') :
    (value t).outcome = .matched (.ok v) rest := by
  obtain ⟨_, split, rfl, seam⟩ := taken
  rw [value_outcome, token_outcome, split, scalar_complete spelled seam noPoint]

theorem items_complete {text t rest : Text} {items : List Operand}
    (spelled : SpellsItems text items) (taken : Taken (· = text) t rest)
    (noPoint : ∀ c ∈ rest.head?, c ≠ '.') :
    ∃ first more middle, (value t).outcome = .matched first middle ∧
      Chain (do symbol ','; value) middle more rest ∧ Spelled.all (first :: more) = .ok items ∧
      more.length + rest.length ≤ middle.length ∧ middle.length ≤ t.length := by
  induction spelled generalizing t with
  | last scalar =>
    have shorter := taken.length
    exact ⟨_, [], rest, value_complete scalar taken noPoint, .nil rest, rfl, by simp, by omega⟩
  | @more first front others text item items scalar comma itemsSpelled joins ih =>
    obtain ⟨afterComma, takenFront, takenOthers, -⟩ :=
      taken.split joins (starts_items itemsSpelled) (by decide)
    obtain ⟨afterFirst, takenFirst, takenComma, stop⟩ :=
      takenFront.split comma (starts_char ',') (by decide)
    obtain ⟨next, more, middle, nextRead, chain, all, count, shorter⟩ := ih takenOthers
    have read := value_complete scalar takenFirst (stop '.' rfl rfl)
    have commaLength := takenComma.length
    have firstLength := takenFirst.length
    refine ⟨_, next :: more, afterFirst, read, .cons ?_ chain, ?_, ?_, by omega⟩
    · rw [bind_of_matched (symbol_of_taken takenComma), nextRead]
    · rw [Spelled.all, all]
      rfl
    · simp only [List.length_cons, List.length_nil] at commaLength ⊢
      omega

theorem comma_failed {t : Text} (other : ∀ d ∈ (Text.skipBlanks t).head?, d ≠ ',') :
    ((do symbol ','; value : Reader (Spelled Operand)) t).outcome = .failed :=
  bind_of_failed (symbol_failed other) _

theorem Taken.inside {inner text t rest : Text} {p : Char → Bool}
    (around : Parenthesized inner text) (taken : Taken (· = text) t rest) (starts : Starts p inner)
    (solid : ∀ c ∈ [' ', '\t', '\r', '\n'], p c = false) :
    ∃ inside beyond, Text.skipBlanks t = '(' :: inside ∧ Taken (· = inner) inside beyond ∧
      Taken (· = [')']) beyond rest ∧ ∀ d ∈ beyond.head?, d ≠ '.' := by
  cases around with
  | intro opening closing =>
    obtain ⟨beyond, takenFront, takenClose, stop⟩ :=
      taken.split closing (starts_char ')') (by decide)
    obtain ⟨inside, takenOpen, takenInner, -⟩ := takenFront.split opening starts solid
    obtain ⟨_, split, rfl, -⟩ := takenOpen
    exact ⟨inside, beyond, split, takenInner, takenClose, stop '.' rfl rfl⟩

theorem valueList_complete {inner text t rest : Text} {items : List Operand}
    (spelled : SpellsItems inner items) (around : Parenthesized inner text)
    (taken : Taken (· = text) t rest) :
    (valueList true t).outcome = .matched (.ok (.list items)) rest := by
  obtain ⟨inside, beyond, opened, takenInner, takenClose, stop⟩ :=
    (taken_skip.mpr taken).inside around (starts_items spelled) (by decide)
  obtain ⟨first, more, middle, firstRead, chain, all, count, -⟩ :=
    items_complete spelled takenInner stop
  have noComma : ∀ d ∈ (Text.skipBlanks beyond).head?, d ≠ ',' := by
    obtain ⟨_, split, rfl, -⟩ := takenClose
    simp [split]
  have moreRead := many_of_chain chain (comma_failed noComma) (by omega)
  rw [valueList, part_outcome, bind_of_matched (opening_of_skip opened), bind_of_matched firstRead,
    bind_of_matched moreRead, bind_of_matched (symbol_of_taken takenClose), pure_outcome, all]
  rfl

theorem valueList_failed {allowed : Bool} {t : Text}
    (other : ∀ d ∈ (Text.skipBlanks t).head?, d ≠ '(') :
    (valueList allowed t).outcome = .failed := by
  rw [valueList, part_outcome]
  refine bind_of_failed (opening_failed ?_) _
  rwa [skipBlanks_idem]

theorem operand_complete {allowed : Bool} {text t rest : Text} {v : Operand}
    (spelled : SpellsOperand text v) (enough : v.nesting = 0 ∨ allowed)
    (taken : Taken (· = text) t rest) (noPoint : ∀ c ∈ rest.head?, c ≠ '.') :
    (operand allowed t).outcome = .matched (.ok v) rest := by
  cases spelled with
  | scalar scalar =>
    have other : ∀ d ∈ (Text.skipBlanks t).head?, d ≠ '(' := by
      obtain ⟨_, split, rfl, -⟩ := taken
      rw [split]
      exact (starts_scalar scalar).other rest rfl
    rw [operand, orElse_of_failed (valueList_failed other), value_complete scalar taken noPoint]
  | list items around =>
    rcases enough with flat | isAllowed
    · simp [Operand.nesting] at flat
    · subst isAllowed
      exact orElse_of_matched (valueList_complete items around taken) _

theorem operatorPart_complete {text t rest : Text} {op : Operator}
    (spelled : SpellsOperator text op) (taken : Taken (· = text) t rest)
    (stop : ∀ c ∈ rest.head?, c ≠ '=') :
    (part .operator (token operator?) t).outcome = .matched op rest := by
  obtain ⟨_, split, rfl, seam⟩ := taken
  rw [part_outcome, token_outcome, split, operator_complete spelled seam stop]

theorem condition_complete {allowed : Bool} {text t rest : Text} {c : Condition}
    (spelled : SpellsCondition text c) (enough : c.nesting = 0 ∨ allowed)
    (taken : Taken (· = text) t rest) (noPoint : ∀ c ∈ rest.head?, c ≠ '.') :
    (condition allowed t).outcome = .matched (.ok (.condition c)) rest := by
  cases spelled with
  | @intro l o r front _ left right op leftSpelled operator rightSpelled joinsLeft joinsRight =>
    have operands : (left.nesting = 0 ∨ allowed) ∧ (right.nesting = 0 ∨ allowed) := by
      rcases enough with flat | isAllowed
      · simp only [Condition.nesting] at flat
        exact ⟨.inl (by omega), .inl (by omega)⟩
      · exact ⟨.inr isAllowed, .inr isAllowed⟩
    obtain ⟨afterOp, takenFront, takenRight, stopOp⟩ :=
      (taken_skip.mpr taken).split joinsRight (starts_operand rightSpelled) (by decide)
    obtain ⟨afterLeft, takenLeft, takenOp, stopLeft⟩ :=
      takenFront.split joinsLeft (starts_operator operator) (by decide)
    have leftRead := operand_complete leftSpelled operands.1 takenLeft (stopLeft '.' rfl rfl)
    have opRead := operatorPart_complete operator takenOp (stopOp '=' rfl rfl)
    have rightRead := operand_complete rightSpelled operands.2 takenRight noPoint
    rw [condition, part_outcome, bind_of_matched leftRead, bind_of_matched opRead,
      bind_of_matched rightRead]
    rfl

theorem connective_complete {text t rest : Text} {c : Connective}
    (spelled : SpellsConnective text c) (taken : Taken (· = text) t rest) :
    (connective t).outcome = .matched c rest := by
  obtain ⟨text, split, rfl, seam⟩ := taken
  have isWord : ∀ d ∈ text, isWordChar d :=
    word_of_folded (connective_word spelled) (by cases c <;> decide)
  have ends := seam (endsOpen_of_word isWord (starts_connective spelled).nonempty)
  have isAnd : afterWord? "and".toList (text ++ rest) = _ :=
    afterWord_append isWord ends (by decide)
  have isOr : afterWord? "or".toList (text ++ rest) = _ := afterWord_append isWord ends (by decide)
  rw [connective_word spelled] at isAnd isOr
  rw [connective, orElse_outcome, part_outcome, part_outcome, token_outcome, token_outcome, split,
    isAnd, isOr]
  cases c <;> rfl

theorem joinedTerm_failed {inner : Option (Reader (Spelled Sequence))} {t : Text}
    (noLetter : ∀ d ∈ (Text.skipBlanks t).head?, ¬ d.isAlpha) :
    (joinedTerm inner t).outcome = .failed := by
  have noAnd : afterWord? "and".toList (Text.skipBlanks t) = none :=
    afterWord_none noLetter (by decide) (by decide)
  have noOr : afterWord? "or".toList (Text.skipBlanks t) = none :=
    afterWord_none noLetter (by decide) (by decide)
  have noConnective : (connective t).outcome = .failed := by
    rw [connective, orElse_outcome, part_outcome, part_outcome, token_outcome, token_outcome,
      noAnd, noOr]
    rfl
  exact bind_of_failed noConnective _

theorem value_failed {t rest : Text} (skip : Text.skipBlanks t = '(' :: rest) :
    (value t).outcome = .failed := by
  simp only [value_outcome, token_outcome, skip, scalar_none_of_paren]

theorem terms_front {text : Text} {nodes : Sequence} (spelled : SpellsTerms text nodes) :
    Starts (· == '(') text ∨ ∃ front v after, SpellsScalar front v ∧ Starts opensOperator after ∧
      Joins front after text := by
  induction spelled with
  | condition spelled =>
    cases spelled with
    | intro left operator _ joinsLeft joinsRight =>
      cases left with
      | list _ around =>
        exact .inl (((starts_parenthesized around).joins joinsLeft).joins joinsRight)
      | scalar scalar =>
        obtain ⟨after, starts, joins⟩ := (starts_operator operator).joinsAfter joinsLeft joinsRight
        exact .inr ⟨_, _, after, scalar, starts, joins⟩
  | group _ around => exact .inl (starts_parenthesized around)
  | joined _ _ _ joinsJoint joinsRest first _ =>
    rcases first with paren | ⟨front, v, after, scalar, starts, joins⟩
    · exact .inl ((paren.joins joinsJoint).joins joinsRest)
    · obtain ⟨wider, startsWider, joinsWider⟩ := starts.joinsAfter joins joinsJoint
      obtain ⟨widest, startsWidest, joinsWidest⟩ := startsWider.joinsAfter joinsWider joinsRest
      exact .inr ⟨_, _, widest, scalar, startsWidest, joinsWidest⟩

theorem valueList_failed_of_terms {inner t inside rest : Text} {body : Sequence}
    (spelled : SpellsTerms inner body) (opened : Text.skipBlanks t = '(' :: inside)
    (taken : Taken (· = inner) inside rest) : (valueList true t).outcome = .failed := by
  rw [valueList, part_outcome,
    bind_of_matched (opening_of_skip (by rw [skipBlanks_idem, opened]))]
  rcases terms_front spelled with paren | ⟨front, v, after, scalar, starts, joins⟩
  · obtain ⟨_, split, rfl, -⟩ := taken
    obtain ⟨c, more, rfl, isParen⟩ := paren
    obtain rfl : c = '(' := by simpa using isParen
    exact bind_of_failed (value_failed split) _
  · obtain ⟨middle, takenFront, takenAfter, stop⟩ := taken.split joins starts (by decide)
    obtain ⟨_, split, rfl, -⟩ := takenAfter
    have noComma : ∀ d ∈ (Text.skipBlanks middle).head?, d ≠ ',' := by
      rw [split]
      exact starts.other rest rfl
    have noClose : ∀ d ∈ (Text.skipBlanks middle).head?, d ≠ ')' := by
      rw [split]
      exact starts.other rest rfl
    have noMore := many_of_chain (.nil middle) (comma_failed noComma) (Nat.zero_le _)
    rw [bind_of_matched (value_complete scalar takenFront (stop '.' rfl rfl)),
      bind_of_matched noMore]
    exact bind_of_failed (symbol_failed noClose) _

theorem condition_failed_of_terms {inner t inside rest : Text} {body : Sequence}
    (spelled : SpellsTerms inner body) (opened : Text.skipBlanks t = '(' :: inside)
    (taken : Taken (· = inner) inside rest) : (condition true t).outcome = .failed := by
  have openedAgain : Text.skipBlanks (Text.skipBlanks t) = '(' :: inside := by
    rw [skipBlanks_idem, opened]
  have noList := valueList_failed_of_terms spelled openedAgain taken
  rw [condition, part_outcome]
  refine bind_of_failed ?_ _
  rw [operand, orElse_of_failed noList, value_failed openedAgain]

def inside : Nat → Option (Reader (Spelled Sequence))
  | 0 => none
  | budget + 1 => some fun t => expression budget t

theorem expression_eq_level (budget : Nat) : expression budget = level (inside budget) := by
  cases budget <;> rfl

theorem group_some (p : Reader (Spelled Sequence)) :
    group (some p) = part .group do
      opening true
      let body ← p
      symbol ')'
      return body.map .group := rfl

/-- The first term of a sequence is at the start of a text, and the chain of the others leads from
    there to the rest. -/
def ReadsTerms (inner : Option (Reader (Spelled Sequence))) (t rest : Text) (nodes : Sequence) :
    Prop :=
  ∃ first more middle, (term inner t).outcome = .matched first middle ∧
    Chain (joinedTerm inner) middle more rest ∧ Spelled.sequence first more = .ok nodes ∧
    more.length + rest.length ≤ middle.length ∧ middle.length ≤ t.length

theorem level_complete {inner : Option (Reader (Spelled Sequence))} {t rest : Text}
    {nodes : Sequence} (reads : ReadsTerms inner (Text.skipBlanks t) rest nodes)
    (stop : ∀ d ∈ (Text.skipBlanks rest).head?, ¬ d.isAlpha) :
    (level inner t).outcome = .matched (.ok nodes) rest := by
  obtain ⟨first, more, middle, firstRead, chain, spelled, count, -⟩ := reads
  have moreRead := many_of_chain chain (joinedTerm_failed stop) (by omega)
  rw [level, part_outcome, bind_of_matched firstRead, bind_of_matched moreRead, pure_outcome,
    spelled]

theorem sequence_single {first : Spelled Node} {more : List (Connective × Spelled Node)}
    {node : Node} (spelled : Spelled.sequence first more = .ok [node]) :
    first = .ok node ∧ more = [] := by
  cases more with
  | nil =>
    cases first with
    | error e => cases spelled
    | ok _ =>
      cases spelled
      exact ⟨rfl, rfl⟩
  | cons next more =>
    obtain ⟨_, _, -, -, same⟩ := spelled_sequence_cons spelled
    simp at same

theorem ReadsTerms.single {inner : Option (Reader (Spelled Sequence))} {t rest : Text} {node : Node}
    (read : (term inner t).outcome = .matched (.ok node) rest) (shorter : rest.length ≤ t.length) :
    ReadsTerms inner t rest [node] :=
  ⟨.ok node, [], rest, read, .nil rest, rfl, by simp, shorter⟩

theorem ReadsTerms.join {inner : Option (Reader (Spelled Sequence))}
    {t afterFirst afterJoint rest : Text} {node : Node} {c : Connective} {nodes : Sequence}
    (single : ReadsTerms inner t afterFirst [node])
    (joint : (connective afterFirst).outcome = .matched c afterJoint)
    (shorter : afterJoint.length < afterFirst.length)
    (others : ReadsTerms inner afterJoint rest nodes) :
    ReadsTerms inner t rest (node :: .connective c :: nodes) := by
  obtain ⟨_, none, _, firstRead, done, spelled, _, firstShorter⟩ := single
  obtain ⟨rfl, rfl⟩ := sequence_single spelled
  cases done
  obtain ⟨next, more, middle, nextRead, chain, sequence, count, nextShorter⟩ := others
  refine ⟨_, (c, next) :: more, afterFirst, firstRead, .cons ?_ chain, ?_, ?_, firstShorter⟩
  · rw [joinedTerm, bind_of_matched joint, bind_of_matched nextRead]
    rfl
  · rw [Spelled.sequence, sequence]
    rfl
  · rw [List.length_cons]
    omega

theorem group_complete {budget : Nat} {inner text t rest : Text} {body : Sequence}
    (spelled : SpellsTerms inner body) (around : Parenthesized inner text)
    (taken : Taken (· = text) t rest)
    (bodyReads : ∀ {t beyond}, Taken (· = inner) t beyond → (∀ c ∈ beyond.head?, c ≠ '.') →
      ReadsTerms (inside budget) t beyond body) :
    (term (inside (budget + 1)) t).outcome = .matched (.ok (.group body)) rest := by
  obtain ⟨inside, beyond, opened, takenInner, takenClose, stop⟩ :=
    (taken_skip.mpr taken).inside around (starts_terms spelled) (by decide)
  rw [skipBlanks_idem] at opened
  have closes : ∀ d ∈ (Text.skipBlanks beyond).head?, ¬ d.isAlpha := by
    obtain ⟨_, split, rfl, -⟩ := takenClose
    simp [split]
  have bodyRead := level_complete (bodyReads (taken_skip.mpr takenInner) stop) closes
  rw [← expression_eq_level] at bodyRead
  -- The condition is tried first, and a list of values at the same parenthesis with it.
  have noCondition := condition_failed_of_terms spelled opened takenInner
  have read : (group (some (expression budget)) t).outcome = .matched (.ok (.group body)) rest := by
    rw [group_some, part_outcome,
      bind_of_matched (opening_of_skip (by rw [skipBlanks_idem, opened])),
      bind_of_matched bodyRead, bind_of_matched (symbol_of_taken takenClose)]
    rfl
  exact (orElse_of_failed noCondition _).trans read

/-- What spells a sequence is read as that sequence, where the budget pays for the parentheses that
    it opens. -/
theorem terms_complete {text : Text} {nodes : Sequence} (spelled : SpellsTerms text nodes)
    {budget : Nat} (enough : Sequence.nesting nodes ≤ budget) {t rest : Text}
    (taken : Taken (· = text) t rest) (noPoint : ∀ c ∈ rest.head?, c ≠ '.') :
    ReadsTerms (inside budget) t rest nodes := by
  induction spelled generalizing budget t rest with
  | @condition text c spelled =>
    have shorter := taken.length
    have allowed : c.nesting = 0 ∨ (inside budget).isSome := by
      cases budget with
      | zero =>
        simp [Sequence.nesting, Node.maxNesting, Node.nesting] at enough
        exact .inl enough
      | succ budget => exact .inr rfl
    have read := condition_complete spelled allowed taken noPoint
    exact .single (orElse_of_matched read _) (by omega)
  | @group inner text body spelled around ih =>
    have shorter := taken.length
    obtain ⟨budget, rfl, bodyFits⟩ :
        ∃ less, budget = less + 1 ∧ Sequence.nesting body ≤ less := by
      simp only [Sequence.nesting, Node.maxNesting, Node.nesting] at enough ⊢
      exact ⟨budget - 1, by omega, by omega⟩
    exact .single (group_complete spelled around taken (ih bodyFits)) (by omega)
  | @joined first joint front others text node c nodes _ connective othersSpelled joinsJoint
      joinsRest ihFirst ihOthers =>
    obtain ⟨firstFits, othersFit⟩ :
        Sequence.nesting [node] ≤ budget ∧ Sequence.nesting nodes ≤ budget := by
      simp only [Sequence.nesting, Node.maxNesting] at enough ⊢
      omega
    obtain ⟨afterJoint, takenFront, takenOthers, -⟩ :=
      taken.split joinsRest (starts_terms othersSpelled) (by decide)
    obtain ⟨afterFirst, takenFirst, takenJoint, stop⟩ :=
      takenFront.split joinsJoint (starts_connective connective) (by decide)
    have jointLength := takenJoint.length
    have jointNonempty := List.length_pos_iff.mpr (starts_connective connective).nonempty
    exact (ihFirst firstFits takenFirst (stop '.' rfl rfl)).join
      (connective_complete connective takenJoint) (by omega)
      (ihOthers othersFit takenOthers noPoint)

theorem wordEnds_of_blank {t : Text} (blank : Blank t) : wordEnds t := by
  cases t with
  | nil => rfl
  | cons c more =>
    have noWord : ∀ c ∈ [' ', '\t', '\r', '\n'], wordEnds (c :: more) := by
      simp [wordEnds, isWordChar]
    exact noWord c (isBlank_cases (blank c (by simp)))

theorem head_of_blank {t : Text} (blank : Blank t) {c : Char} (notBlank : Text.isBlank c = false) :
    ∀ d ∈ t.head?, d ≠ c := by
  rintro d member rfl
  rw [blank d (List.mem_of_mem_head? member)] at notBlank
  cases notBlank

theorem main_complete {t : Text} {nodes : Sequence} (spelled : Spells t nodes) {budget : Nat}
    (enough : Sequence.nesting nodes ≤ budget) :
    (part .main (main budget) t).outcome = .matched (.ok nodes) [] := by
  cases spelled with
  | @intro before text after _ blankBefore terms blankAfter =>
    have ended : Text.skipBlanks after = [] := by
      have skipped := skipBlanks_blank blankAfter []
      rwa [List.append_nil] at skipped
    have seam : Seam text after := fun _ => wordEnds_of_blank blankAfter
    have taken : Taken (· = text) (before ++ (text ++ after)) after :=
      ⟨text, by rw [skipBlanks_blank blankBefore, (starts_terms terms).skip (by decide)], rfl, seam⟩
    have reads := terms_complete terms enough (taken_skip.mpr (taken_skip.mpr taken))
      (head_of_blank blankAfter rfl)
    have read := level_complete reads (by simp [ended])
    rw [← expression_eq_level] at read
    have atEnd : (endOfInput after).outcome = .matched () [] :=
      (part_outcome .endOfInput _ after).trans (by rw [ended]; rfl)
    rw [part_outcome, main, bind_of_matched read, bind_of_matched atEnd]
    rfl

end Verdict.Grammar
