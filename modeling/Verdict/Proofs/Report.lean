import Verdict.Proofs.Prospect

/-!
Error reports keep their word. The grammar notes an attempt only where a rule can go on with the
part it has tried, and it never takes a note back; so whatever is expected at the place that an
error names can be written there.
-/
namespace Verdict.Grammar
open Reader

/-- A rule can go on with each part that is noted, at the place where it is noted. Before the first
    note the place is the start. -/
structure Honest (query : Text) (attempts : Attempts) : Prop where
  completable : ∀ r ∈ attempts.parts,
    Completable (query.take (query.length - attempts.remaining)) r
  untouched : attempts.parts = [] → attempts.remaining = query.length

variable {query : Text}

theorem honest_start : Honest query (.start query) :=
  ⟨by simp [Attempts.start], fun _ => rfl⟩

section
variable {r : Part} {remaining : Nat} {before after : Attempts}

theorem Honest.note (honest : Honest query after)
    (completable : Completable (query.take (query.length - remaining)) r) :
    Honest query (.note r remaining before after) := by
  unfold Attempts.note
  simp only
  split
  · exact honest
  · split
    case isTrue same =>
      subst same
      refine ⟨fun other member => ?_, by simp⟩
      rcases List.mem_append.mp member with kept | new
      · exact honest.completable other (List.mem_of_mem_take kept)
      · rwa [List.mem_singleton.mp new]
    case isFalse =>
      split
      · refine ⟨fun other member => ?_, by simp⟩
        rwa [List.mem_singleton.mp member]
      · exact honest

theorem mem_expected {attempts : Attempts} : r ∈ attempts.expected ↔ r ∈ attempts.parts := by
  have known : r ∈ Part.all := by cases r <;> decide
  simp [Attempts.expected, known]

theorem Honest.noted (honest : Honest query after) (inside : remaining ≤ query.length) :
    (Attempts.note r remaining before after).parts ≠ [] := by
  unfold Attempts.note
  simp only
  split
  case isTrue counted =>
    intro none
    simp [Attempts.countAt, none] at counted
  case isFalse =>
    split
    · simp
    · split
      · simp
      case isFalse here behind =>
        intro none
        have start := honest.untouched none
        omega

end

/-- From the places of a kind on, the reader keeps the attempts honest. -/
def Faithful {α : Type} (query : Text) (place : Text → Prop) (p : Reader α) : Prop :=
  ∀ t, place t → ∀ attempts, Honest query attempts → Honest query ((p t).attempts attempts)

def Quiet {α : Type} (p : Reader α) : Prop := ∀ t, (p t).attempts = id

/-- The reader leads from places of the first kind to places of the second. -/
def Leads {α : Type} (place next : Text → Prop) (p : Reader α) : Prop :=
  ∀ t, place t → ∀ v rest, (p t).outcome = .matched v rest → next rest

section
variable {α β : Type} {place next : Text → Prop}

theorem bind_attempts (p : Reader α) (f : α → Reader β) (t : Text) :
    ((p >>= f) t).attempts =
      match (p t).outcome with
      | .matched value rest => (f value rest).attempts ∘ (p t).attempts
      | _ => (p t).attempts := by
  show (Reader.bind p f t).attempts = _
  unfold Reader.bind
  generalize p t = first
  obtain ⟨outcome, attempts⟩ := first
  cases outcome <;> rfl

theorem Quiet.faithful {p : Reader α} (quiet : Quiet p) : Faithful query place p := by
  intro t _ attempts honest
  rw [quiet t]
  exact honest

theorem quiet_pure (value : α) : Quiet (pure value : Reader α) := fun _ => rfl

theorem quiet_fail : Quiet (fail : Reader α) := fun _ => rfl

theorem quiet_token (f : Text → Option (α × Text)) : Quiet (token f) := by
  intro t
  unfold token
  cases f t <;> rfl

theorem quiet_symbol (c : Char) : Quiet (symbol c) := by
  intro t
  unfold symbol
  split
  · split <;> rfl
  · rfl

theorem quiet_opening (allowed : Bool) : Quiet (opening allowed) := by
  intro t
  unfold opening
  simp only
  split
  · split <;> exact quiet_symbol '(' t
  · exact quiet_symbol '(' t

theorem Quiet.bind {p : Reader α} {f : α → Reader β} (first : Quiet p)
    (second : ∀ v, Quiet (f v)) : Quiet (p >>= f) := by
  intro t
  rw [bind_attempts]
  split
  · rw [first t, second _ _]
    rfl
  · exact first t

theorem Faithful.mono {p : Reader α} (faithful : Faithful query place p)
    (narrower : ∀ t, next t → place t) : Faithful query next p :=
  fun t here => faithful t (narrower t here)

theorem Faithful.bind {p : Reader α} {f : α → Reader β} (first : Faithful query place p)
    (leads : Leads place next p) (second : ∀ v, Faithful query next (f v)) :
    Faithful query place (p >>= f) := by
  intro t here attempts honest
  have noted := first t here attempts honest
  rw [bind_attempts]
  split
  case h_1 v rest read => exact second v rest (leads t here v rest read) _ noted
  case h_2 => exact noted

theorem Faithful.bindQuiet {p : Reader α} {f : α → Reader β} (first : Faithful query place p)
    (second : ∀ v, Quiet (f v)) : Faithful query place (p >>= f) := by
  have leads : Leads place (fun _ => True) p := fun _ _ _ _ _ => trivial
  exact first.bind leads fun v => (second v).faithful

theorem Faithful.orElse {p q : Reader α} (first : Faithful query place p)
    (second : Faithful query place q) : Faithful query place (Reader.orElse p q) := by
  intro t here attempts honest
  have noted := first t here attempts honest
  unfold Reader.orElse
  simp only
  split
  · exact second t here _ noted
  · exact noted

theorem faithful_choice {ps : List (Reader α)} (each : ∀ p ∈ ps, Faithful query place p) :
    Faithful query place (choice ps) := by
  induction ps with
  | nil => exact quiet_fail.faithful
  | cons p rest ih =>
    exact (each p (by simp)).orElse (ih fun other member => each other (by simp [member]))

theorem Faithful.repeated {p : Reader α} (each : Faithful query place p)
    (leads : Leads place place p) (count : Nat) :
    Faithful query place (Reader.repeated p count) := by
  induction count with
  | zero => exact (quiet_pure []).faithful
  | succ count ih =>
    intro t here attempts honest
    have noted := each t here attempts honest
    unfold Reader.repeated
    simp only
    split
    case h_1 v rest read =>
      have more := ih rest (leads t here v rest read) _ noted
      split <;> exact more
    case h_2 => exact noted
    case h_3 => exact noted

theorem Faithful.many {p : Reader α} (each : Faithful query place p)
    (leads : Leads place place p) : Faithful query place (Reader.many p) :=
  fun t => each.repeated leads (t.length + 1) t

theorem Faithful.part {p : Reader α} {name : Part} (inner : Faithful query place p)
    (skips : ∀ t, place t → place (Text.skipBlanks t))
    (completable : ∀ t, place t → Completable (query.take (query.length - t.length)) name) :
    Faithful query place (Reader.part name p) := by
  intro t here attempts honest
  have skipped := skips t here
  have noted := inner _ skipped attempts honest
  unfold Reader.part
  simp only
  split
  · exact noted.note (completable _ skipped)
  · exact noted

end

/-- The query is read up to `t`, and such a phrase is awaited there. -/
def Place (query : Text) (P : Text → Prop) (t : Text) : Prop :=
  ∃ front, query = front ++ t ∧ Seam front t ∧ Awaits front P

/-- In the query the reader takes such phrases. -/
def Takes {α : Type} (query : Text) (P : Text → Prop) (p : Reader α) : Prop :=
  ∀ t, t <:+ query → ∀ v rest, (p t).outcome = .matched v rest → Taken P t rest

section
variable {α β : Type} {P Q : Text → Prop} {t : Text}

theorem take_front (front t : Text) :
    (front ++ t).take ((front ++ t).length - t.length) = front := by
  simp

theorem Place.mono (place : Place query P t) (narrower : ∀ x, Q x → P x) : Place query Q t := by
  obtain ⟨front, split, seam, awaits⟩ := place
  exact ⟨front, split, seam, awaits.mono narrower⟩

theorem Place.first (place : Place query (Then P Q) t) (filled : Filled P) (sampled : Sampled Q) :
    Place query P t := by
  obtain ⟨front, split, seam, awaits⟩ := place
  exact ⟨front, split, seam, awaits.first filled sampled⟩

theorem Place.skip (place : Place query P t) : Place query P (Text.skipBlanks t) := by
  obtain ⟨front, split, seam, awaits⟩ := place
  obtain ⟨blanks, blank, whole⟩ := skipBlanks_split t
  obtain ⟨awaits, seam⟩ := awaits.skip (t := Text.skipBlanks t) blank (by rwa [← whole])
  exact ⟨front ++ blanks, by rw [split, List.append_assoc, ← whole], seam, awaits⟩

theorem Place.completable {r : Part} (place : Place query P t) (isP : P r.sample)
    (notEnd : r ≠ .endOfInput) : Completable (query.take (query.length - t.length)) r := by
  obtain ⟨front, rfl, -, awaits⟩ := place
  rw [take_front]
  exact completable_of_awaits awaits isP notEnd

theorem Place.suffix (place : Place query P t) : t <:+ query := by
  obtain ⟨front, split, -⟩ := place
  exact ⟨front, split.symm⟩

theorem Takes.leads {p : Reader α} (takes : Takes query P p) (filled : Filled P) :
    Leads (Place query (Then P Q)) (Place query Q) p := by
  intro t place v rest read
  obtain ⟨a, skip, isP, seamAfter⟩ := takes t place.suffix v rest read
  obtain ⟨front, split, seam, awaits⟩ := place
  obtain ⟨blanks, blank, whole⟩ := skipBlanks_split t
  rw [skip] at whole
  subst whole
  have nonempty := filled a isP
  refine ⟨front ++ (blanks ++ a), by simp [split], ?_, awaits.next blank isP nonempty seam⟩
  rw [Seam, ← List.append_assoc, endsOpen_append _ _ nonempty]
  exact seamAfter

theorem Taken.suffix {rest : Text} (taken : Taken P t rest) : rest <:+ t := by
  obtain ⟨text, split, -⟩ := taken
  have behind : rest <:+ Text.skipBlanks t := ⟨text, split.symm⟩
  exact behind.trans (skipBlanks_suffix t)

theorem Takes.bind {p : Reader α} {f : α → Reader β} (first : Takes query P p)
    (second : ∀ v, Takes query Q (f v)) (filled : Filled Q) :
    Takes query (Then P Q) (p >>= f) := by
  intro t suffix w rest read
  obtain ⟨v, middle, firstRead, secondRead⟩ := matched_of_bind read
  have front := first t suffix v middle firstRead
  exact front.join (second v middle (front.suffix.trans suffix) w rest secondRead) filled

theorem Takes.bindPure {p : Reader α} (takes : Takes query P p) (g : α → β) :
    Takes query P (p >>= fun v => pure (g v)) := by
  intro t suffix w rest read
  obtain ⟨v, middle, firstRead, same⟩ := matched_of_bind read
  cases same
  exact takes t suffix v _ firstRead

theorem takes_symbol {c : Char} (closed : (isWordChar c || c == '.') = false) :
    Takes query (· = [c]) (symbol c) :=
  fun _ _ _ _ read => taken_symbol read closed

theorem takes_opening (allowed : Bool) : Takes query (· = ['(']) (opening allowed) :=
  fun _ _ _ _ read => taken_char (matched_of_opening read).2 rfl

theorem Faithful.partAt {p : Reader α} {name : Part} (inner : Faithful query (Place query P) p)
    (isP : P name.sample) (notEnd : name ≠ .endOfInput) :
    Faithful query (Place query P) (Reader.part name p) :=
  inner.part (fun _ => Place.skip) fun _ place => place.completable isP notEnd

theorem Faithful.widen {p : Reader α} (faithful : Faithful query (Place query P) p)
    (wider : ∀ x, P x → Q x) : Faithful query (Place query Q) p :=
  faithful.mono fun _ place => place.mono wider

theorem Faithful.andThen {p : Reader α} {f : α → Reader β}
    (first : Faithful query (Place query P) p) (takes : Takes query P p) (filled : Filled P)
    (sampled : Sampled Q) (second : ∀ v, Faithful query (Place query Q) (f v)) :
    Faithful query (Place query (Then P Q)) (p >>= f) :=
  (first.mono fun _ place => place.first filled sampled).bind (takes.leads filled) second

theorem faithful_separated {Separator Element L : Text → Prop} {separator : Reader α}
    {f : α → Reader β} (separate : Faithful query (Place query Separator) separator)
    (takesSeparator : Takes query Separator separator)
    (element : ∀ v, Faithful query (Place query L) (f v))
    (takesElement : ∀ v, Takes query Element (f v)) (filledSeparator : Filled Separator)
    (filledElement : Filled Element) (sampled : Sampled L)
    (grows : ∀ t, Then Element (Then Separator L) t → L t) :
    Faithful query (Place query (Then Separator L)) (Reader.many (separator >>= f)) := by
  have takes := takesSeparator.bind takesElement filledElement
  have leads := takes.leads (Q := Then Separator L) filledSeparator.andThen
  exact (separate.andThen takesSeparator filledSeparator sampled element).many fun t place =>
    leads t (place.mono fun _ => separated_more filledElement grows)

end

theorem of_mem_inside {C : Reader (Spelled Sequence) → Prop}
    (each : ∀ budget, C (expression budget)) {budget : Nat} : ∀ p ∈ inside budget, C p := by
  cases budget with
  | zero => exact fun _ absent => absurd absent (Option.not_mem_none _)
  | succ budget =>
    intro p member
    cases member
    exact each budget

section
variable (zeros : Zeros query)
include zeros

theorem takes_spelled {α : Type} {P : Text → Prop} {p : Reader (Spelled α)}
    (accounts : Accounts (fun _ => False) Spelled.errors p)
    (sound : ∀ {t rest v}, (p t).outcome = .matched (.ok v) rest → Taken P t rest) :
    Takes query P p := by
  intro t suffix spelled rest read
  obtain ⟨v, rfl⟩ := accounts.ok_of_zeros (zeros.of_infix suffix.isInfix) read
  exact sound read

theorem takes_value : Takes query IsScalar value :=
  takes_spelled zeros accounts_value fun {_ _ v} read =>
    (value_sound read).mono fun _ spelled => ⟨v, spelled⟩

theorem takes_operand (allowed : Bool) : Takes query IsOperand (operand allowed) :=
  takes_spelled zeros (accounts_operand allowed) fun {_ _ v} read =>
    (operand_sound read).mono fun _ spelled => ⟨v, spelled⟩

theorem takes_term (budget : Nat) : Takes query IsTerm (term (inside budget)) := by
  have accounts : AccountsInside (inside budget) :=
    of_mem_inside fun budget _ => accounts_expression budget
  have sound : Sound (inside budget) := of_mem_inside fun budget _ _ _ => expression_sound budget
  exact takes_spelled zeros (accounts_term accounts) fun {_ _ node} read =>
    (term_sound sound read).mono fun _ spelled => ⟨node, spelled⟩

theorem takes_expression (budget : Nat) : Takes query IsTerms (expression budget) :=
  takes_spelled zeros (accounts_expression budget) fun {_ _ nodes} read =>
    (expression_sound budget read).mono fun _ spelled => ⟨nodes, spelled⟩

end

theorem takes_operator : Takes query IsOperator (part .operator (token operator?)) :=
  fun _ _ op _ read => (operatorPart_sound read).mono fun _ spelled => ⟨op, spelled⟩

theorem takes_connective : Takes query IsConnective connective :=
  fun _ _ c _ read => (connective_sound read).mono fun _ spelled => ⟨c, spelled⟩

theorem sampled_close : Sampled (· = [')']) := sampled_char rfl

theorem sampled_items : Sampled IsItems :=
  Part.sampled (r := .propertyPath) (items_of_scalar (scalar_sample (by simp)))

theorem sampled_operand : Sampled IsOperand :=
  Part.sampled (r := .propertyPath) (operand_of_scalar (scalar_sample (by simp)))

theorem sampled_terms : Sampled IsTerms := Part.sampled terms_sample

theorem faithful_value : Faithful query (Place query IsScalar) value := by
  have scalar {name : Part} {p : Reader (Spelled Operand)} (quiet : Quiet p)
      (isScalar : name ∈ [.real, .integer, .string, .boolean, .nothing, .propertyPath]) :
      Faithful query (Place query IsScalar) (part name p) :=
    quiet.faithful.partAt (scalar_sample isScalar) (by rintro rfl; simp at isScalar)
  apply faithful_choice
  simp only [List.forall_mem_cons]
  exact ⟨scalar (quiet_token _) (by simp), scalar (quiet_token _) (by simp),
    scalar ((quiet_token _).bind fun _ => quiet_pure _) (by simp),
    scalar ((quiet_token _).bind fun _ => quiet_pure _) (by simp),
    scalar ((quiet_token _).bind fun _ => quiet_pure _) (by simp),
    scalar ((quiet_token _).bind fun _ => quiet_pure _) (by simp), by simp⟩

theorem faithful_connective : Faithful query (Place query IsConnective) connective :=
  ((quiet_token _).faithful.partAt and_sample (by decide)).orElse
    ((quiet_token _).faithful.partAt or_sample (by decide))

section
variable (zeros : Zeros query)
include zeros

theorem faithful_valueList (allowed : Bool) :
    Faithful query (Place query (Enclosed IsItems)) (valueList allowed) := by
  have sampled : Sampled (Then IsItems (· = [')'])) := sampled_items.andThen sampled_close
  have comma : Sampled (Then (· = [',']) (Then IsItems (· = [')']))) :=
    (sampled_char rfl).andThen sampled
  have next : Faithful query (Place query (Then IsItems (· = [')']))) value :=
    (faithful_value.widen fun _ => items_of_scalar).mono fun _ place =>
      place.first filled_items sampled_close
  have more := faithful_separated (quiet_symbol ',').faithful (takes_symbol rfl) (fun _ => next)
    (fun _ => takes_value zeros) (filled_char ',') filled_scalar sampled fun _ => items_cons
  have items := (faithful_value.andThen (takes_value zeros) filled_scalar comma fun first =>
    more.bindQuiet fun more => (quiet_symbol ')').bind fun _ =>
      quiet_pure ((Spelled.all (first :: more)).map Operand.list)).widen fun _ => items_cons
  exact ((quiet_opening allowed).faithful.andThen (takes_opening allowed) (filled_char '(') sampled
    fun _ => items).partAt list_sample (by decide)

theorem faithful_operand (allowed : Bool) :
    Faithful query (Place query IsOperand) (operand allowed) :=
  ((faithful_valueList zeros allowed).widen fun _ => operand_of_enclosed).orElse
    (faithful_value.widen fun _ => operand_of_scalar)

theorem faithful_condition (allowed : Bool) :
    Faithful query (Place query IsCondition) (condition allowed) := by
  have operator : Faithful query (Place query IsOperator) (part .operator (token operator?)) :=
    (quiet_token _).faithful.partAt operator_sample (by decide)
  have sampled : Sampled (Then IsOperator IsOperand) :=
    (Part.sampled operator_sample).andThen sampled_operand
  have operand := faithful_operand zeros allowed
  refine Faithful.partAt (Faithful.widen ?_ fun _ => condition_of_parts) condition_sample
    (by decide)
  exact operand.andThen (takes_operand zeros allowed) filled_operand sampled fun left =>
    operator.andThen takes_operator filled_operator sampled_operand fun op =>
      operand.bindQuiet fun right => quiet_pure _

end

def FaithfulInside (query : Text) (inner : Option (Reader (Spelled Sequence))) : Prop :=
  ∀ p ∈ inner, Faithful query (Place query IsTerms) p

theorem faithful_group {inner : Option (Reader (Spelled Sequence))}
    (faithful : FaithfulInside query inner) :
    Faithful query (Place query IsTerm) (group inner) := by
  have body : Faithful query (Place query IsTerms) (inner.getD fail) := by
    cases inner with
    | none => exact quiet_fail.faithful
    | some p => exact faithful p rfl
  have closed : Faithful query (Place query (Then IsTerms (· = [')']))) _ :=
    (body.mono fun _ place => place.first filled_terms sampled_close).bindQuiet fun spelled =>
      (quiet_symbol ')').bind fun _ => quiet_pure (spelled.map Node.group)
  refine Faithful.partAt (Faithful.widen ?_ fun _ => term_of_enclosed) group_sample (by decide)
  exact (quiet_opening _).faithful.andThen (takes_opening _) (filled_char '(')
    (sampled_terms.andThen sampled_close) fun _ => closed

section
variable (zeros : Zeros query)
include zeros

theorem faithful_term {inner : Option (Reader (Spelled Sequence))}
    (faithful : FaithfulInside query inner) :
    Faithful query (Place query IsTerm) (term inner) :=
  ((faithful_condition zeros _).widen fun _ => term_of_condition).orElse (faithful_group faithful)

theorem faithful_level {budget : Nat} (faithful : FaithfulInside query (inside budget)) :
    Faithful query (Place query IsTerms) (level (inside budget)) := by
  have first := faithful_term zeros faithful
  have takesTerm := takes_term zeros budget
  have more : Faithful query (Place query (Then IsConnective IsTerms))
      (many (joinedTerm (inside budget))) :=
    faithful_separated faithful_connective takes_connective
      (fun _ => (first.widen fun _ => terms_of_term).bindQuiet fun _ => quiet_pure _)
      (fun _ => takesTerm.bindPure _) filled_connective filled_term sampled_terms
      fun _ => terms_cons
  have sampled : Sampled (Then IsConnective IsTerms) :=
    (Part.sampled and_sample).andThen sampled_terms
  refine Faithful.partAt (Faithful.widen ?_ fun _ => terms_cons) terms_sample (by decide)
  exact first.andThen takesTerm filled_term sampled fun _ => more.bindQuiet fun _ => quiet_pure _

theorem faithful_expression (budget : Nat) :
    Faithful query (Place query IsTerms) (expression budget) := by
  induction budget with
  | zero =>
    rw [expression_eq_level]
    exact faithful_level zeros fun _ absent => absurd absent (Option.not_mem_none _)
  | succ budget ih =>
    rw [expression_eq_level]
    refine faithful_level zeros fun p member => ?_
    cases member
    exact ih

end

def Begins (query t : Text) : Prop := ∃ front, Blank front ∧ query = front ++ t

def Ends (query t : Text) : Prop := ∃ front, IsRule front ∧ query = front ++ t

theorem awaits_blank {front : Text} (blank : Blank front) : Awaits front IsTerms := by
  rintro blanks x blankAfter ⟨nodes, spelled⟩ -
  exact ⟨[], zeros_nil, nodes,
    by simpa using Spells.intro (blank_append blank blankAfter) spelled blank_nil⟩

theorem Begins.place {t : Text} (begins : Begins query t) : Place query IsTerms t := by
  obtain ⟨front, blank, split⟩ := begins
  refine ⟨front, split, fun isOpen => ?_, awaits_blank blank⟩
  rw [endsOpen_of_blank blank] at isOpen
  cases isOpen

theorem Begins.skip {t : Text} (begins : Begins query t) : Begins query (Text.skipBlanks t) := by
  obtain ⟨front, blank, split⟩ := begins
  obtain ⟨blanks, blankAfter, whole⟩ := skipBlanks_split t
  exact ⟨front ++ blanks, blank_append blank blankAfter,
    by rw [split, List.append_assoc, ← whole]⟩

theorem rule_blank {front blanks : Text} (rule : IsRule front) (blank : Blank blanks) :
    IsRule (front ++ blanks) := by
  obtain ⟨nodes, spelled⟩ := rule
  cases spelled with
  | intro blankBefore terms blankAfter =>
    exact ⟨nodes, by simpa using Spells.intro blankBefore terms (blank_append blankAfter blank)⟩

theorem Ends.skip {t : Text} (ends : Ends query t) : Ends query (Text.skipBlanks t) := by
  obtain ⟨front, rule, split⟩ := ends
  obtain ⟨blanks, blank, whole⟩ := skipBlanks_split t
  exact ⟨front ++ blanks, rule_blank rule blank, by rw [split, List.append_assoc, ← whole]⟩

theorem faithful_end : Faithful query (Ends query) endOfInput := by
  refine Faithful.part (Quiet.faithful fun t => ?_) (fun _ => Ends.skip) fun t ends => ?_
  · split <;> rfl
  · obtain ⟨front, rule, rfl⟩ := ends
    rw [take_front]
    exact completable_of_rule rule

theorem leads_expression (zeros : Zeros query) (budget : Nat) :
    Leads (Begins query) (Ends query) (expression budget) := by
  intro t begins v rest read
  obtain ⟨x, skip, ⟨nodes, spelled⟩, -⟩ :=
    takes_expression zeros budget t begins.place.suffix v rest read
  obtain ⟨front, blank, split⟩ := begins.skip
  exact ⟨front ++ x, ⟨nodes, by simpa using Spells.intro blank spelled blank_nil⟩,
    by rw [split, skip, List.append_assoc]⟩

theorem faithful_whole (zeros : Zeros query) (budget : Nat) :
    Faithful query (Begins query) (main budget) :=
  ((faithful_expression zeros budget).mono fun _ => Begins.place).bind
    (leads_expression zeros budget) fun _ => faithful_end.bindQuiet fun _ => quiet_pure _

theorem faithful_main (zeros : Zeros query) (budget : Nat) :
    Faithful query (Begins query) (part .main (main budget)) :=
  (faithful_whole zeros budget).part (fun _ => Begins.skip) fun _ begins =>
    begins.place.completable terms_sample (by decide)

theorem begins_start : Begins query query := ⟨[], blank_nil, rfl⟩

theorem honest_main (zeros : Zeros query) (budget : Nat) :
    Honest query ((part .main (main budget) query).attempts (.start query)) :=
  faithful_main zeros budget query begins_start _ honest_start

theorem noted_main (zeros : Zeros query) {budget : Nat}
    (failed : (part .main (main budget) query).outcome = .failed) :
    ((part .main (main budget) query).attempts (.start query)).parts ≠ [] := by
  have inner := faithful_whole zeros budget _ begins_start.skip _ honest_start
  rw [part_outcome] at failed
  simp only [Reader.part, failed]
  exact inner.noted (skipBlanks_suffix query).length_le

end Verdict.Grammar

namespace Verdict.Query
open Grammar

theorem eq_nil_of_position {a c : Text} (same : position (a ++ c) = position a) : c = [] := by
  simp only [position, Prod.mk.injEq, List.count_append, List.reverse_append] at same
  obtain ⟨line, column⟩ := same
  have oneLine : '\n' ∉ c := List.count_eq_zero.mp (by omega)
  have all : ∀ d ∈ c.reverse, decide (d ≠ '\n') = true := by
    intro d member
    rw [decide_eq_true_iff]
    rintro rfl
    exact oneLine (List.mem_reverse.mp member)
  rw [List.takeWhile_append_of_pos all, List.length_append, List.length_reverse] at column
  exact List.length_eq_zero_iff.mp (by omega)

theorem position_injective {a b query : Text} (first : a <+: query) (second : b <+: query)
    (same : position a = position b) : a = b := by
  rcases List.prefix_or_prefix_of_prefix first second with ⟨c, rfl⟩ | ⟨c, rfl⟩
  · rw [eq_nil_of_position same.symm, List.append_nil]
  · rw [eq_nil_of_position same, List.append_nil]

/-- Its parentheses are within the limit, and the grammar takes all of it. -/
def Accepts (limit : Nat) (query : Text) : Prop :=
  nestsBeyond limit 0 none query = false ∧
    ∃ spelled, (Reader.part .main (main limit) query).outcome = .matched spelled []

/-- Its parentheses are within the limit, but the grammar does not take it. -/
def Rejects (limit : Nat) (query : Text) : Prop :=
  nestsBeyond limit 0 none query = false ∧
    (Reader.part .main (main limit) query).outcome = .failed

theorem accepts_of_zeroed {query : Text} {nodes : Sequence} (spelled : Spells (zeroed query) nodes)
    {limit : Nat} (enough : nodes.nesting ≤ limit) : Accepts limit query := by
  constructor
  · have scanned := nestsBeyond_spelled spelled limit
    rw [nestsBeyond_zeroed (by simp)] at scanned
    rw [scanned]
    simpa using enough
  · have outcomes := (follows_main limit query).1
    rw [main_complete spelled enough] at outcomes
    generalize (Reader.part .main (main limit) query).outcome = outcome at outcomes
    generalize whole : Outcome.matched (Except.ok nodes : Spelled Sequence) [] = target at outcomes
    cases outcomes with
    | matched value value' rest =>
      have ended : zeroed rest = [] := by
        cases rest with
        | nil => rfl
        | cons => cases whole
      exact ⟨value, by rw [zeroed_eq_nil_iff.mp ended]⟩
    | failed => cases whole
    | exhausted => cases whole

theorem parse_of_accepts {limit : Nat} {query : Text} (accepts : Accepts limit query) :
    (∃ nodes, parse limit query = .ok nodes) ∨
      ∃ e, parse limit query = .error (.numeral e) ∧ Blames query e := by
  obtain ⟨within, spelled, read⟩ := accepts
  have given : parse limit query = spelled.mapError .numeral := by
    unfold parse
    rw [if_neg (by simp [within])]
    simp only [read]
  cases spelled with
  | ok nodes => exact .inl ⟨nodes, given⟩
  | error e => exact .inr ⟨e, given, (accounts_main limit).blames read⟩

theorem parse_of_rejects {limit : Nat} {query : Text} (rejected : Rejects limit query) :
    parse limit query = .error (unexpected query
      ((Reader.part .main (main limit) query).attempts (.start query))) := by
  unfold parse
  rw [if_neg (by simp [rejected.1])]
  simp only [rejected.2]

/-- After `front` the part can be written, with blanks before it and some text after it, so that
    the grammar accepts the whole under every limit that is large enough. Such a text is read too,
    unless a numeral is out of range that `front` has already. -/
def Proceeds (front : Text) (r : Part) : Prop :=
  ∃ blanks x after, Blank blanks ∧ r.Matches x ∧ (r = .endOfInput → after = []) ∧
    ∃ least, ∀ larger, least ≤ larger → ∀ whole, whole = front ++ (blanks ++ (x ++ after)) →
      Accepts larger whole ∧
        ((∃ nodes, parse larger whole = .ok nodes) ∨
          ∃ e, parse larger whole = .error (.numeral e) ∧ Blames front e)

theorem proceeds_of_completable {front : Text} {r : Part}
    (completable : Completable (zeroed front) r) : Proceeds front r := by
  obtain ⟨blanks, x, after, blank, apart, isPart, last, zeros, nodes, spelled⟩ := completable
  have zerosAll : Zeros (blanks ++ (x ++ after)) := zeros_append.mpr ⟨zeros_of_blank blank, zeros⟩
  rw [← zeroed_of_zeros zerosAll, ← zeroed_append] at spelled
  refine ⟨blanks, x, after, blank, isPart, last, nodes.nesting, ?_⟩
  rintro larger enough _ rfl
  have accepts := accepts_of_zeroed spelled enough
  refine ⟨accepts, (parse_of_accepts accepts).imp_right ?_⟩
  rintro ⟨e, failed, blames⟩
  -- the first blank keeps the numeral in `front` from what is written after it
  obtain ⟨c, more, rfl⟩ := List.exists_cons_of_ne_nil apart
  have behind : Zeros (more ++ (x ++ after)) :=
    zerosAll.of_infix (List.suffix_cons c _).isInfix
  exact ⟨e, failed, blames.front (blank c (by simp)) behind⟩

/-- Where the grammar rejects a query, the error names a place in it or at its end, and only that
    place, and it expects something there. Each part that it expects can be written there: what is
    read before the place then goes on to a text that the grammar accepts. -/
theorem error_reports_honest {limit : Nat} {query : Text} (rejected : Rejects limit query) :
    ∃ front expected, front <+: query ∧
      parse limit query =
        .error (.unexpected (position front).1 (position front).2 expected) ∧
      (∀ other, other <+: query → position other = position front → other = front) ∧
      expected ≠ [] ∧ ∀ r ∈ expected, Proceeds front r := by
  obtain ⟨outcomes, attempted⟩ := follows_main limit query
  rw [rejected.2] at outcomes
  have failed : (Reader.part .main (main limit) (zeroed query)).outcome = .failed := by
    generalize (Reader.part .main (main limit) (zeroed query)).outcome = outcome at outcomes
    cases outcomes
    rfl
  have honest := honest_main (zeros_zeroed query) limit
  have noted := noted_main (zeros_zeroed query) failed
  have starts : Attempts.start (zeroed query) = .start query := by simp [Attempts.start]
  rw [attempted, starts] at honest noted
  have reported := parse_of_rejects rejected
  generalize (Reader.part .main (main limit) query).attempts (.start query) = attempts
    at honest noted reported
  refine ⟨query.take (query.length - attempts.remaining), attempts.expected,
    List.take_prefix _ _, reported, fun other before same => ?_, ?_, fun r member => ?_⟩
  · exact position_injective before (List.take_prefix _ _) same
  · obtain ⟨r, member⟩ := List.exists_mem_of_ne_nil _ noted
    exact List.ne_nil_of_mem (mem_expected.mpr member)
  · have completable := honest.completable r (mem_expected.mp member)
    rw [length_zeroed, take_zeroed] at completable
    exact proceeds_of_completable completable

theorem strayParen_reported :
    parse 1 "(a = 1)\n)".toList = .error (.unexpected 2 1 [.endOfInput, .and, .or]) ∧
      ∀ r ∈ [Part.endOfInput, .and, .or], Proceeds "(a = 1)\n".toList r := by
  have rejected : Rejects 1 "(a = 1)\n)".toList := ⟨by cbv, by cbv⟩
  have reported : parse 1 "(a = 1)\n)".toList =
      .error (.unexpected 2 1 [.endOfInput, .and, .or]) := by cbv
  obtain ⟨front, expected, -, named, only, -, proceeds⟩ := error_reports_honest rejected
  rw [reported, Except.error.injEq, ParseError.unexpected.injEq] at named
  obtain ⟨line, column, rfl⟩ := named
  have place : "(a = 1)\n".toList = front := by
    refine only _ (by decide) ?_
    rw [← Prod.mk.eta (p := position front), ← line, ← column]
    rfl
  exact ⟨reported, place ▸ proceeds⟩

end Verdict.Query
