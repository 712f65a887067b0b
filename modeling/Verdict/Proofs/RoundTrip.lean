import Verdict.Proofs.Writing

/-!
The text of a sequence and its reading side by side. Token by token the reading takes what was
written, up to the first string between quotes that it does not fit: there the two part.
-/
namespace Verdict.Grammar

/-- Where a text starts with `w`, a phrase of this kind takes `w` from it and nothing else, and
    that shows `legible`. No character `stop` may follow the phrase. -/
def Retraces (stop : Char) (phrase : Text → Prop) (w : Text) (legible : Prop) : Prop :=
  ∀ t rest after, Text.skipBlanks t = w ++ rest → wordEnds rest → (∀ d ∈ rest.head?, d ≠ stop) →
    Taken phrase t after → (∀ d ∈ after.head?, d ≠ stop) → legible ∧ after = rest

theorem Retraces.mono {stop : Char} {P Q : Text → Prop} {w : Text} {A B : Prop}
    (retraces : Retraces stop Q w A) (phrases : ∀ text, P text → Q text) (implies : A → B) :
    Retraces stop P w B := by
  intro t rest after written ends stops taken stopsAfter
  obtain ⟨isA, same⟩ := retraces t rest after written ends stops (taken.mono phrases) stopsAfter
  exact ⟨implies isA, same⟩

def Solid (w : Text) : Prop := ∀ rest, Text.skipBlanks (w ++ rest) = w ++ rest

theorem Solid.append {a : Text} (solid : Solid a) (b : Text) : Solid (a ++ b) := by
  intro rest
  rw [List.append_assoc]
  exact solid (b ++ rest)

theorem solid_cons {c : Char} (notBlank : Text.isBlank c = false) (more : Text) :
    Solid (c :: more) := by
  intro rest
  simp [Text.skipBlanks, notBlank]

theorem Retraces.join {stop stopAfter : Char} {P Q : Text → Prop} {w v : Text} {A B : Prop}
    {p : Char → Bool} (first : Retraces stop P w A) (second : Retraces stopAfter Q v B)
    (solid : Solid v) (starts : ∀ b, Q b → Starts p b)
    (noBlank : ∀ c ∈ [' ', '\t', '\r', '\n'], p c = false) (stopSolid : Text.isBlank stop = false)
    (excluded : p stop = false) :
    Retraces stopAfter (fun text => ∃ a b, P a ∧ Q b ∧ Joins a b text) (w ++ ' ' :: v)
      (A ∧ B) := by
  intro t rest after written ends stops taken stopsAfter
  obtain ⟨text, split, ⟨a, b, isP, isQ, joins⟩, seam⟩ := taken
  have whole : Taken (· = text) t after := ⟨text, split, rfl, seam⟩
  obtain ⟨middle, takenFirst, takenSecond, stopped⟩ := whole.split joins (starts b isQ) noBlank
  have space : ∀ d ∈ (' ' :: (v ++ rest)).head?, d ≠ stop := by
    rintro d member rfl
    obtain rfl : ' ' = d := by simpa using member
    cases stopSolid
  obtain ⟨isA, rfl⟩ := first t (' ' :: (v ++ rest)) middle (by simp [written]) rfl space
    (takenFirst.mono fun _ same => same ▸ isP) (stopped stop stopSolid excluded)
  have skipped : Text.skipBlanks (' ' :: (v ++ rest)) = v ++ rest := solid rest
  obtain ⟨isB, same⟩ := second _ rest after skipped ends stops
    (takenSecond.mono fun _ same => same ▸ isQ) stopsAfter
  exact ⟨⟨isA, isB⟩, same⟩

theorem Retraces.parenthesized {stop : Char} {P : Text → Prop} {inner : Text} {A : Prop}
    {p : Char → Bool} (retraces : Retraces '.' P inner A) (solid : Solid inner)
    (starts : ∀ a, P a → Starts p a) (noBlank : ∀ c ∈ [' ', '\t', '\r', '\n'], p c = false) :
    Retraces stop (fun text => ∃ a, P a ∧ Parenthesized a text) ('(' :: (inner ++ [')'])) A := by
  intro t rest after written _ _ taken _
  obtain ⟨text, split, ⟨a, isP, around⟩, seam⟩ := taken
  have whole : Taken (· = text) t after := ⟨text, split, rfl, seam⟩
  obtain ⟨inside, beyond, opened, takenInner, takenClose, stopped⟩ :=
    whole.inside around (starts a isP) noBlank
  have same : inside = inner ++ (')' :: rest) := by
    rw [opened] at written
    simpa using written
  subst same
  obtain ⟨isA, rfl⟩ := retraces _ (')' :: rest) beyond (solid _) rfl (by simp)
    (takenInner.mono fun _ same => same ▸ isP) stopped
  obtain ⟨_, closed, rfl, -⟩ := takenClose
  have rests : Text.skipBlanks (')' :: rest) = ')' :: rest := rfl
  rw [rests] at closed
  exact ⟨isA, by simpa using closed.symm⟩

theorem retraces_spelled {w : Text} {v : Operand} (spelled : SpellsScalar w v) :
    Retraces '.' (SpellsScalar · v) w True := by
  intro t rest after written ends stops taken stopsAfter
  obtain ⟨text, split, reading, seam⟩ := taken
  have writing := scalar_complete spelled (fun _ => ends) stops
  have found := scalar_complete reading seam stopsAfter
  rw [← written, split, found] at writing
  cases writing
  exact ⟨trivial, rfl⟩

theorem retraces_illegible {content : Text} (double : '"' ∈ content)
    (single : unescaped '\'' content) :
    Retraces '.' (SpellsScalar · (.str content)) (Operand.quoted content) False := by
  intro t rest after written ends stops taken stopsAfter
  obtain ⟨text, split, reading, -⟩ := taken
  -- the first character settles which quotes the reading has
  rw [Operand.quoted, if_pos double, split] at written
  cases reading with
  | @str quote content isQuote fits =>
    obtain rfl : quote = '\'' := by simpa using congrArg List.head? written
    rw [free_of_fits fits] at single
    cases single

theorem retraces_scalar {v : Operand} (scalar : v.Scalar) :
    Retraces '.' (SpellsScalar · v) v.write (∀ content ∈ v.strings, LegibleString content) := by
  by_cases legible : ∀ content ∈ v.strings, LegibleString content
  · have retraces := retraces_spelled (spells_scalar_write scalar legible)
    exact retraces.mono (fun _ => id) fun _ => legible
  · cases scalar with
    | @str content fits =>
      simp only [Operand.strings, List.mem_singleton, forall_eq, LegibleString, Decidable.not_not]
        at legible
      exact (retraces_illegible legible.1 legible.2).mono (fun _ => id) False.elim
    | _ => exact absurd (by simp [Operand.strings]) legible

theorem solid_of_starts {p : Char → Bool} {w : Text} (starts : Starts p w)
    (noBlank : ∀ c ∈ [' ', '\t', '\r', '\n'], p c = false) : Solid w :=
  starts.skip noBlank

theorem solid_scalar {v : Operand} (scalar : v.Scalar) : Solid v.write := by
  cases scalar with
  | @str content _ =>
    unfold Operand.write Operand.quoted
    split
    · exact solid_cons rfl _
    · exact solid_cons rfl _
  | int i => exact solid_of_starts (starts_scalar (spells_int i)) (by decide)
  | real x => exact solid_of_starts (starts_scalar (spells_real x)) (by decide)
  | path isPath => exact solid_of_starts (starts_scalar (.path isPath)) (by decide)
  | bool b => cases b <;> exact solid_cons rfl _
  | nothing => exact solid_cons rfl _

theorem writeItems_cons (item second : Operand) (more : List Operand) :
    Text.joined ", ".toList (Operand.writeItems (item :: second :: more)) =
      item.write ++
        ',' :: ' ' :: Text.joined ", ".toList (Operand.writeItems (second :: more)) := by
  rw [Operand.writeItems, Operand.writeItems, joined_more]
  rfl

theorem solid_items {items : List Operand} (nonempty : items ≠ [])
    (scalars : ∀ item ∈ items, item.Scalar) :
    Solid (Text.joined ", ".toList (Operand.writeItems items)) := by
  obtain ⟨item, more, rfl⟩ := List.exists_cons_of_ne_nil nonempty
  rw [Operand.writeItems, joined_cons]
  exact (solid_scalar (scalars item (by simp))).append _

theorem retraces_items {items : List Operand} (nonempty : items ≠ [])
    (scalars : ∀ item ∈ items, item.Scalar) :
    Retraces '.' (SpellsItems · items) (Text.joined ", ".toList (Operand.writeItems items))
      (∀ content ∈ Operand.listStrings items, LegibleString content) := by
  induction items with
  | nil => exact absurd rfl nonempty
  | cons item more ih =>
    rw [List.forall_mem_cons] at scalars
    have first := retraces_scalar scalars.1
    simp only [Operand.listStrings, List.forall_mem_append]
    cases more with
    | nil =>
      rw [Operand.writeItems, Operand.writeItems, joined_cons, List.flatMap_nil, List.append_nil]
      refine first.mono (fun text spelled => ?_) fun legible =>
        ⟨legible, by simp [Operand.listStrings]⟩
      cases spelled with
      | last scalar => exact scalar
      | more _ _ others => cases others
    | cons second more =>
      intro t rest after written ends stops taken stopsAfter
      rw [writeItems_cons, List.append_assoc] at written
      obtain ⟨text, split, spelled, seam⟩ := taken
      have whole : Taken (· = text) t after := ⟨text, split, rfl, seam⟩
      cases spelled with
      | @more firstText front others _ _ _ scalar comma spelledOthers joins =>
        obtain ⟨afterComma, takenFront, takenOthers, -⟩ :=
          whole.split joins (starts_items spelledOthers) (by decide)
        obtain ⟨afterFirst, takenFirst, takenComma, stopped⟩ :=
          takenFront.split comma (starts_char ',') (by decide)
        obtain ⟨legible, rfl⟩ := first t _ afterFirst written rfl (by simp)
          (takenFirst.mono fun _ same => same ▸ scalar) (stopped '.' rfl rfl)
        obtain ⟨_, commaSplit, rfl, -⟩ := takenComma
        rw [solid_cons rfl _ rest] at commaSplit
        obtain rfl := (List.cons.inj commaSplit).2
        obtain ⟨legibleOthers, same⟩ := ih (by simp) scalars.2 _ rest after
          (solid_items (by simp) scalars.2 rest) ends stops
          (takenOthers.mono fun _ same => same ▸ spelledOthers) stopsAfter
        exact ⟨⟨legible, legibleOthers⟩, same⟩

theorem retraces_operand {v : Operand} (wellFormed : v.WellFormed) :
    Retraces '.' (SpellsOperand · v) v.write (∀ content ∈ v.strings, LegibleString content) := by
  cases wellFormed with
  | scalar scalar =>
    refine (retraces_scalar scalar).mono (fun text spelled => ?_) id
    cases spelled with
    | scalar spelled => exact spelled
    | list => cases scalar
  | list nonempty scalars =>
    have inside := retraces_items nonempty scalars
    refine (inside.parenthesized (solid_items nonempty scalars) (fun _ => starts_items)
      (by decide)).mono (fun text spelled => ?_) id
    cases spelled with
    | scalar spelled => cases spelled
    | list spelled around => exact ⟨_, spelled, around⟩

theorem solid_operand {v : Operand} (wellFormed : v.WellFormed) : Solid v.write := by
  cases wellFormed with
  | scalar scalar => exact solid_scalar scalar
  | list => exact solid_cons rfl _

theorem retraces_operator (op : Operator) :
    Retraces '=' (SpellsOperator · op) op.write True := by
  intro t rest after written ends stops taken stopsAfter
  obtain ⟨text, split, reading, seam⟩ := taken
  have writing := operator_complete (spells_operator_write op) (fun _ => ends) stops
  have found := operator_complete reading seam stopsAfter
  rw [← written, split, found] at writing
  cases writing
  exact ⟨trivial, rfl⟩

theorem retraces_connective (c : Connective) (stop : Char) :
    Retraces stop (SpellsConnective · c) c.write True := by
  intro t rest after written ends _ taken _
  have reading : (connective t).outcome = .matched c after := by
    obtain ⟨text, split, spelled, seam⟩ := taken
    exact connective_complete spelled ⟨text, split, rfl, seam⟩
  have writing : (connective t).outcome = .matched c rest :=
    connective_complete (spells_connective_write c) ⟨_, written, rfl, fun _ => ends⟩
  rw [reading] at writing
  cases writing
  exact ⟨trivial, rfl⟩

theorem solid_operator (op : Operator) : Solid op.write :=
  solid_of_starts (starts_operator (spells_operator_write op)) (by decide)

theorem solid_connective (c : Connective) : Solid c.write :=
  solid_of_starts (starts_connective (spells_connective_write c)) (by decide)

theorem retraces_condition {c : Condition} (wellFormed : c.WellFormed) :
    Retraces '.' (SpellsCondition · c) c.write
      (∀ content ∈ c.strings, LegibleString content) := by
  have front := (retraces_operand wellFormed.1).join (retraces_operator c.operator)
    (solid_operator c.operator) (fun _ => starts_operator) (by decide) rfl rfl
  have whole := front.join (retraces_operand wellFormed.2) (solid_operand wellFormed.2)
    (fun _ => starts_operand) (by decide) rfl rfl
  rw [List.append_assoc] at whole
  refine whole.mono (fun text spelled => ?_) fun ⟨⟨left, _⟩, right⟩ => ?_
  · cases spelled with
    | intro left operator right joinsLeft joinsRight =>
      exact ⟨_, _, ⟨_, _, left, operator, joinsLeft⟩, right, joinsRight⟩
  · rw [Condition.strings, List.forall_mem_append]
    exact ⟨left, right⟩

theorem solid_terms {nodes : Sequence} (wellFormed : nodes.WellFormed) : Solid nodes.write := by
  induction wellFormed with
  | condition isValid =>
    rw [write_single]
    exact (solid_operand isValid.1).append _
  | group =>
    rw [write_single]
    exact solid_cons rfl _
  | @joined term joint others _ rest ihFirst _ =>
    rw [write_joined term joint (alternating_nonempty rest)]
    rw [write_single] at ihFirst
    exact (ihFirst.append _).append _

theorem retraces_terms {nodes : Sequence} (wellFormed : nodes.WellFormed) :
    Retraces '.' (SpellsTerms · nodes) nodes.write nodes.Legible := by
  induction wellFormed with
  | condition isValid =>
    rw [write_single, Sequence.legible_condition]
    refine (retraces_condition isValid).mono (fun text spelled => ?_) id
    cases spelled with
    | condition spelled => exact spelled
  | @group body inside ih =>
    rw [write_single, Sequence.legible_group]
    refine (ih.parenthesized (solid_terms inside) (fun _ => starts_terms) (by decide)).mono
      (fun text spelled => ?_) id
    cases spelled with
    | group spelled around => exact ⟨_, spelled, around⟩
  | @joined term joint others _ rest ihFirst ihRest =>
    rw [write_single] at ihFirst
    rw [write_joined term joint (alternating_nonempty rest), Sequence.legible_joined]
    have front := ihFirst.join (retraces_connective joint ',') (solid_connective joint)
      (fun _ => starts_connective) (by decide) rfl rfl
    have whole := front.join ihRest (solid_terms rest) (fun _ => starts_terms) (by decide) rfl rfl
    refine whole.mono (fun text spelled => ?_) fun ⟨⟨first, _⟩, others⟩ => ⟨first, others⟩
    cases spelled with
    | joined first connective others joinsJoint joinsRest =>
      exact ⟨_, _, ⟨_, _, first, connective, joinsJoint⟩, others, joinsRest⟩

theorem spells_write_iff {nodes : Sequence} (wellFormed : nodes.WellFormed) :
    Spells nodes.write nodes ↔ nodes.Legible := by
  constructor
  · intro spelled
    have written : Text.skipBlanks nodes.write = nodes.write ++ [] := by
      simpa using solid_terms wellFormed []
    generalize whole : nodes.write = t at spelled
    cases spelled with
    | @intro before text after _ blankBefore terms blankAfter =>
      have skipped : Text.skipBlanks nodes.write = text ++ after := by
        rw [whole, skipBlanks_blank blankBefore, (starts_terms terms).skip (by decide)]
      exact (retraces_terms wellFormed nodes.write [] after written rfl (by simp)
        ⟨text, skipped, terms, fun _ => wordEnds_of_blank blankAfter⟩
        (head_of_blank blankAfter rfl)).1
  · intro legible
    have spelled : Spells ([] ++ (nodes.write ++ [])) nodes :=
      .intro (by simp [Blank]) (spells_terms_write wellFormed legible) (by simp [Blank])
    simpa using spelled

end Verdict.Grammar

namespace Verdict.Query
open Grammar

/-- A well-formed sequence is read back from its own text, if the limit admits its parentheses,
    exactly when no string of it has a double quote and a single quote that nothing escapes. -/
theorem parse_write_iff_legible {limit : Nat} {nodes : Sequence} (wellFormed : nodes.WellFormed)
    (within : nodes.nesting ≤ limit) :
    parse limit nodes.write = .ok nodes ↔ nodes.Legible := by
  rw [parse_iff, spells_write_iff wellFormed]
  exact and_iff_left within

def quotedOnce : Sequence :=
  [.group [.condition ⟨.str ['i', 't', '\'', 's'], .equal, .list [.int 1, .nothing]⟩],
    .connective .or, .condition ⟨.bool true, .equal, .str ['a', ' ', '"', 'b', '"']⟩]

theorem quotedOnce_read_back :
    quotedOnce.WellFormed ∧ quotedOnce.nesting ≤ 2 ∧ quotedOnce.Legible ∧
      parse 2 quotedOnce.write = .ok quotedOnce := by
  have wellFormed : quotedOnce.WellFormed := by
    have doubly : Fits '"' ['i', 't', '\'', 's'] := by simp [Fits]
    have singly : Fits '\'' ['a', ' ', '"', 'b', '"'] := by simp [Fits]
    have items : ∀ item ∈ [Operand.int 1, .nothing], item.Scalar := by
      simp [Operand.Scalar.int, Operand.Scalar.nothing]
    exact .joined (.group (.condition ⟨.scalar (.str (.inl doubly)), .list (by simp) items⟩))
      (.condition ⟨.scalar (.bool true), .scalar (.str (.inr singly))⟩)
  have within : quotedOnce.nesting ≤ 2 := by decide
  have legible : quotedOnce.Legible := by decide
  exact ⟨wellFormed, within, legible, (parse_write_iff_legible wellFormed within).mpr legible⟩

/-- A rule is read back from the text of its sequence under the same condition. -/
theorem reparse_iff_legible {limit : Nat} {query : Text} {nodes : Sequence}
    (read : parse limit query = .ok nodes) :
    parse limit nodes.write = .ok nodes ↔ nodes.Legible := by
  rw [parse_iff, spells_write_iff (wellFormed_of_parse read)]
  exact and_iff_left (parse_iff.mp read).2

theorem ok_of_toOption {ε α : Type} {result : Except ε α} {value : α}
    (found : result.toOption = some value) : result = .ok value := by
  cases result with
  | error e => cases found
  | ok other =>
    cases found
    rfl

def mixedWords : Sequence :=
  [.condition ⟨.path ['A', '.', 'b'], .equal, .str ['x']⟩, .connective .or,
    .group [.condition ⟨.path ['c'], .greaterOrEqual,
      .real (.finite ⟨false, 5629499534213120, -51, by decide⟩)⟩, .connective .and,
      .condition ⟨.path ['d'], .member, .list [.int 1, .int 2]⟩]]

theorem mixedWords_reparse :
    parse 64 "A.b EQ 'x' OR (c ≥ 2.5 and d ∈ (1,2))".toList = .ok mixedWords ∧
      parse 64 mixedWords.write = .ok mixedWords := by
  have read : parse 64 "A.b EQ 'x' OR (c ≥ 2.5 and d ∈ (1,2))".toList = .ok mixedWords :=
    ok_of_toOption (by decide +kernel)
  exact ⟨read, (reparse_iff_legible read).mpr (by decide)⟩

/-- `a == "\"' and b = 'c"` -/
def mixedQuotes : Sequence :=
  [.condition ⟨.path ['a'], .equal, .str "\\\"' and b = 'c".toList⟩]

/-- The string is written between single quotes and ends at the first of its own; what follows
    reads as a second condition. -/
theorem reparse_ends_early :
    parse 64 "a = \"\\\"' and b = 'c\"".toList = .ok mixedQuotes ∧
      parse 64 mixedQuotes.write =
        .ok [.condition ⟨.path ['a'], .equal, .str ['\\', '"']⟩, .connective .and,
          .condition ⟨.path ['b'], .equal, .str ['c']⟩] ∧
      parse 64 mixedQuotes.write ≠ .ok mixedQuotes := by
  have reread : parse 64 mixedQuotes.write =
      .ok [.condition ⟨.path ['a'], .equal, .str ['\\', '"']⟩, .connective .and,
        .condition ⟨.path ['b'], .equal, .str ['c']⟩] := ok_of_toOption (by decide +kernel)
  refine ⟨ok_of_toOption (by decide +kernel), reread, ?_⟩
  rw [reread]
  exact fun same => nomatch same

end Verdict.Query
