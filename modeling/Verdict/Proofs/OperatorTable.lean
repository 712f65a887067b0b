import Verdict.Grammar.Staged
import Verdict.Proofs.Composition
import Verdict.Proofs.Integers
import Verdict.Proofs.SmallLetters

/-!
The grammar and the table of operators. The grammar finds no text that the table does not know, and
both know the same ones, so a rule that is read in two stages is read as it is in one.
-/
namespace Verdict

namespace Operator

theorem tokens_settled : ∀ op ∈ all, ∀ token ∈ op.tokens, ∀ d ∈ token, Text.Settled d := by
  decide +kernel

theorem tokens_apart : ∀ a ∈ all, ∀ b ∈ all, ∀ token ∈ a.tokens, token ∈ b.tokens → a = b := by
  decide

theorem folded_token {op : Operator} {token : Text} (member : token ∈ op.tokens) :
    Text.folded token = token := by
  have settled := tokens_settled op op.mem_all token member
  exact (List.map_congr_left fun d inside => (settled d inside).1.1).trans (List.map_id' token)

theorem spells_iff {t : Text} {op : Operator} :
    Grammar.SpellsOperator t op ↔ ∃ token ∈ op.tokens, Text.folded t = Text.folded token := by
  constructor
  · intro spelled
    exact ⟨_, spelled, (folded_token spelled).symm⟩
  · rintro ⟨token, member, same⟩
    rw [Grammar.SpellsOperator, same, folded_token member]
    exact member

theorem spells_one {t : Text} {a b : Operator} (first : Grammar.SpellsOperator t a)
    (second : Grammar.SpellsOperator t b) : a = b :=
  tokens_apart a a.mem_all b b.mem_all _ first second

theorem read_iff {t : Text} {op : Operator} : read t = .ok op ↔ Grammar.SpellsOperator t op := by
  unfold read ofToken?
  cases found : all.find? fun op => op.tokens.contains (Text.folded t) with
  | some other =>
    have spelled : Grammar.SpellsOperator t other := by
      simpa [Grammar.SpellsOperator] using List.find?_some found
    simp only [Except.ok.injEq]
    exact ⟨fun same => same ▸ spelled, spells_one spelled⟩
  | none =>
    have unspelled : ¬ Grammar.SpellsOperator t op := by
      simpa [Grammar.SpellsOperator] using List.find?_eq_none.mp found op op.mem_all
    exact iff_of_false (by rintro ⟨⟩) unspelled

theorem lookUp_eq_read (final : Text → Text → Bool) (t : Text) : lookUp final t = read t := by
  have same : (all.find? fun op => op.tokens.contains (Text.lowered final [] t)) = ofToken? t := by
    apply List.find?_congr
    intro op member
    rw [Bool.eq_iff_iff, List.contains_iff_mem, List.contains_iff_mem]
    constructor
    · intro known
      have settled := tokens_settled op member _ known
      rwa [(Text.lowered_eq_iff settled final [] t).mp rfl]
    · intro known
      have settled := tokens_settled op member _ known
      rwa [(Text.lowered_eq_iff settled final [] t).mpr rfl]
  cases known : ofToken? t with
  | none => simp only [lookUp, same, read, known]
  | some op => simp only [lookUp, same, read, known]

end Operator

namespace Grammar

def Outcome.map {α β : Type} (f : α → β) : Outcome α → Outcome β
  | .matched value rest => .matched (f value) rest
  | .failed => .failed
  | .exhausted => .exhausted

namespace Reader
variable {α β : Type}

theorem bind_apply (p : Reader α) (f : α → Reader β) (t : Text) :
    (p >>= f) t =
      match (p t).outcome with
      | .matched value rest =>
        ⟨(f value rest).outcome, (f value rest).attempts ∘ (p t).attempts⟩
      | .failed => ⟨.failed, (p t).attempts⟩
      | .exhausted => ⟨.exhausted, (p t).attempts⟩ := rfl

theorem bind_assoc {γ : Type} (p : Reader α) (f : α → Reader β) (g : β → Reader γ) :
    p >>= f >>= g = p >>= fun value => f value >>= g := by
  funext t
  simp only [bind_apply]
  cases (p t).outcome with
  | matched value rest =>
    simp only
    cases (f value rest).outcome <;> rfl
  | failed => rfl
  | exhausted => rfl

theorem bind_of_pure (p : Reader α) : (p >>= fun value => pure value) = p := by
  funext t
  rw [bind_apply]
  cases read : p t with
  | mk outcome attempts => cases outcome <;> rfl

instance : LawfulMonad Reader := LawfulMonad.mk' Reader bind_of_pure (fun _ _ => rfl) bind_assoc

theorem map_apply (f : α → β) (p : Reader α) (t : Text) :
    (f <$> p) t = ⟨(p t).outcome.map f, (p t).attempts⟩ := by
  rw [map_eq_pure_bind, bind_apply]
  cases (p t).outcome <;> rfl

theorem map_token (f : α → β) (read : Text → Option (α × Text)) :
    f <$> token read = token fun t => (read t).map (Prod.map f id) := by
  funext t
  rw [map_apply, token, token]
  cases read t <;> rfl

theorem map_part (name : Part) (f : α → β) (p : Reader α) :
    f <$> part name p = part name (f <$> p) := by
  funext t
  simp only [map_apply, part]
  cases (p (Text.skipBlanks t)).outcome <;> rfl

theorem map_orElse (f : α → β) (p q : Reader α) :
    f <$> orElse p q = orElse (f <$> p) (f <$> q) := by
  funext t
  simp only [map_apply, orElse]
  cases (p t).outcome <;> rfl

theorem map_repeated (f : α → β) (p : Reader α) (limit : Nat) :
    List.map f <$> repeated p limit = repeated (f <$> p) limit := by
  induction limit with
  | zero => rfl
  | succ limit ih =>
    funext t
    rw [map_apply]
    simp only [repeated, ← ih, map_apply]
    cases (p t).outcome with
    | matched value rest =>
      simp only [Outcome.map]
      cases (repeated p limit rest).outcome <;> rfl
    | failed => rfl
    | exhausted => rfl

theorem map_many (f : α → β) (p : Reader α) : List.map f <$> many p = many (f <$> p) := by
  funext t
  exact congrFun (map_repeated f p (t.length + 1)) t

end Reader

theorem read_operator {t rest : Text} {op : Operator} (found : operator? t = some (op, rest)) :
    Operator.read (consumed t rest) = .ok op := by
  obtain ⟨text, rfl, spelled, -⟩ := operator_sound found
  rw [consumed_append]
  exact Operator.read_iff.mpr spelled

namespace Staged
open Reader
variable (final : Text → Text → Bool)

theorem map_operatorText :
    Operator.lookUp final <$> token operatorText? = Except.ok <$> token operator? := by
  rw [map_token, map_token]
  congr 1
  funext t
  unfold operatorText?
  cases found : operator? t with
  | none => rfl
  | some pair =>
    obtain ⟨op, rest⟩ := pair
    simp only [Option.map_some, Prod.map_apply, Operator.lookUp_eq_read, read_operator found]

theorem bind_operatorText {α : Type} (next : Except Error Operator → Reader α) :
    (part .operator (token operatorText?) >>= fun text => next (Operator.lookUp final text)) =
      part .operator (token operator?) >>= fun op => next (.ok op) := by
  rw [← bind_map_left (Operator.lookUp final), map_part, map_operatorText, ← map_part,
    bind_map_left]

theorem condition_eq (allowed : Bool) :
    condition final allowed = raised <$> Grammar.condition allowed := by
  simp only [condition, Grammar.condition, map_part, map_bind, map_pure]
  congr 1
  refine bind_congr fun left => ?_
  refine (bind_operatorText final fun op => operand allowed >>= fun right =>
    pure (build (raised left) op (raised right))).trans ?_
  refine bind_congr fun op => bind_congr fun right => ?_
  cases left <;> cases right <;> rfl

theorem group_eq (inner : Option (Reader (Spelled Sequence))) :
    group (inner.map (raised <$> ·)) = raised <$> Grammar.group inner := by
  have inside : (inner.map (raised <$> ·)).getD fail = raised <$> inner.getD fail := by
    cases inner <;> rfl
  simp only [group, Grammar.group, map_part, map_bind, map_pure, inside, bind_map_left,
    Option.isSome_map]
  congr 1
  refine bind_congr fun _ => bind_congr fun body => bind_congr fun _ => ?_
  cases body <;> rfl

theorem term_eq (inner : Option (Reader (Spelled Sequence))) :
    term final (inner.map (raised <$> ·)) = raised <$> Grammar.term inner := by
  rw [term, Grammar.term, map_orElse, condition_eq, group_eq, Option.isSome_map]

theorem joinedTerm_eq (inner : Option (Reader (Spelled Sequence))) :
    joinedTerm final (inner.map (raised <$> ·)) =
      Prod.map id raised <$> Grammar.joinedTerm inner := by
  simp only [joinedTerm, Grammar.joinedTerm, term_eq, map_bind, bind_map_left, map_pure]
  rfl

theorem sequence_eq (first : Spelled Node) (more : List (Connective × Spelled Node)) :
    sequence (raised first) (more.map (Prod.map id raised)) =
      raised (Spelled.sequence first more) := by
  induction more generalizing first with
  | nil => cases first <;> rfl
  | cons next more ih =>
    obtain ⟨joint, next⟩ := next
    rw [List.map_cons, Prod.map_apply, sequence, Spelled.sequence, ih]
    cases first with
    | error e => rfl
    | ok node => cases Spelled.sequence next more <;> rfl

theorem level_eq (inner : Option (Reader (Spelled Sequence))) :
    level final (inner.map (raised <$> ·)) = raised <$> Grammar.level inner := by
  simp only [level, Grammar.level, map_part, map_bind, map_pure, term_eq, joinedTerm_eq,
    ← map_many, bind_map_left, sequence_eq]

theorem expression_eq (budget : Nat) :
    expression final budget = raised <$> Grammar.expression budget := by
  induction budget with
  | zero => exact level_eq final none
  | succ budget ih =>
    rw [expression, ih]
    exact level_eq final (some (Grammar.expression budget))

theorem main_eq (budget : Nat) : main final budget = raised <$> Grammar.main budget := by
  simp only [main, Grammar.main, expression_eq, map_bind, bind_map_left, map_pure]

end Staged
end Grammar

theorem Query.parseByTable_eq (final : Text → Text → Bool) (limit : Nat) (query : Text) :
    parseByTable final limit query = (parse limit query).mapError .parse := by
  unfold parseByTable parse
  rw [Grammar.Staged.main_eq, ← Grammar.Reader.map_part, Grammar.Reader.map_apply]
  split
  · rfl
  · simp only
    cases (Grammar.Reader.part .main (Grammar.main limit) query).outcome with
    | matched spelled rest => cases spelled <;> rfl
    | failed => rfl
    | exhausted => rfl

namespace Grammar

theorem operatorText_whole {t : Text} :
    operatorText? t = some (t, []) ↔ ∃ op, SpellsOperator t op := by
  constructor
  · intro read
    obtain ⟨⟨op, rest⟩, found, same⟩ := Option.map_eq_some_iff.mp read
    obtain ⟨-, rfl⟩ := Prod.mk.inj same
    obtain ⟨text, whole, spelled, -⟩ := operator_sound found
    rw [List.append_nil] at whole
    exact ⟨op, whole ▸ spelled⟩
  · rintro ⟨op, spelled⟩
    have found : operator? (t ++ []) = some (op, []) :=
      operator_complete spelled (fun _ => rfl) (by simp)
    have whole := consumed_append t []
    rw [List.append_nil] at found whole
    simp only [operatorText?, found, Option.map_some, whole]

/-- Every condition that is written with the token, between any operands and blanks, is read with
    the operator. -/
def Governs (final : Text → Text → Bool) (t : Text) (op : Operator) : Prop :=
  ∀ l r front whole left right limit, SpellsOperand l left → SpellsOperand r right →
    Joins l t front → Joins front r whole → max left.nesting right.nesting ≤ limit →
      Query.parseByTable final limit whole = .ok [.condition ⟨left, op, right⟩]

theorem governs_of_spells {t : Text} {op : Operator} (final : Text → Text → Bool)
    (spelled : SpellsOperator t op) : Governs final t op := by
  intro l r front whole left right limit leftSpelled rightSpelled joinsLeft joinsRight within
  have condition : SpellsTerms whole [.condition ⟨left, op, right⟩] :=
    .condition (.intro leftSpelled spelled rightSpelled joinsLeft joinsRight)
  have rule : Spells ([] ++ (whole ++ [])) [.condition ⟨left, op, right⟩] :=
    .intro (by simp [Blank]) condition (by simp [Blank])
  rw [List.nil_append, List.append_nil] at rule
  have nesting : Sequence.nesting [.condition ⟨left, op, right⟩] ≤ limit := by
    simpa [Sequence.nesting, Node.maxNesting, Node.nesting, Condition.nesting] using within
  rw [Query.parseByTable_eq, Query.parse_of_spells rule, if_pos nesting]
  rfl

theorem governs_one {t : Text} {a b : Operator} {final : Text → Text → Bool}
    (first : Governs final t a) (second : Governs final t b) : a = b := by
  have isPath : IsPath (Text.joined ['.'] [['x']]) :=
    .intro ⟨'x', [], rfl, rfl, by simp⟩ (by simp) (by decide)
  have letter : SpellsOperand ['x'] (.path ['x']) := .scalar (.path isPath)
  have read := fun op (governs : Governs final t op) => governs _ _ _ _ _ _ 0 letter letter
    (joins_blank blank_space (by simp) _ _) (joins_blank blank_space (by simp) _ _) (by decide)
  have same := (read a first).symm.trans (read b second)
  injection same with same
  simpa using same

/-- The table has an operator for a token exactly where the token is one of the operator's up to
    the case of letters, and exactly where the grammar takes the token for an operator and the
    conditions that are written with it have that one; no token has two. So what can go wrong with
    a rule is its text alone, never an operator that the table does not know. -/
theorem operators_agree (final : Text → Text → Bool) :
    (∀ t op,
      (Operator.lookUp final t = .ok op ↔
        ∃ token ∈ op.tokens, Text.folded t = Text.folded token) ∧
      (Operator.lookUp final t = .ok op ↔
        operatorText? t = some (t, []) ∧ Governs final t op)) ∧
    (∀ t (a b : Operator), (∃ token ∈ a.tokens, Text.folded t = Text.folded token) →
      (∃ token ∈ b.tokens, Text.folded t = Text.folded token) → a = b) ∧
    (∀ t, Operator.lookUp final t = Operator.read t) ∧
    ∀ limit query,
      Query.parseByTable final limit query = (Query.parse limit query).mapError .parse ∧
      ∀ e, Query.parseByTable final limit query = .error e → ∃ cause, e = .parse cause := by
  refine ⟨fun t op => ?_, fun t a b first second => ?_, Operator.lookUp_eq_read final,
    fun limit query => ⟨Query.parseByTable_eq final limit query, fun e failed => ?_⟩⟩
  · rw [Operator.lookUp_eq_read, Operator.read_iff]
    refine ⟨Operator.spells_iff, ?_⟩
    constructor
    · intro spelled
      exact ⟨operatorText_whole.mpr ⟨op, spelled⟩, governs_of_spells final spelled⟩
    · rintro ⟨read, governs⟩
      obtain ⟨other, spelled⟩ := operatorText_whole.mp read
      exact governs_one governs (governs_of_spells final spelled) ▸ spelled
  · exact Operator.spells_one (Operator.spells_iff.mpr first) (Operator.spells_iff.mpr second)
  · rw [Query.parseByTable_eq] at failed
    cases read : Query.parse limit query with
    | ok nodes => rw [read] at failed; cases failed
    | error cause =>
      rw [read] at failed
      cases failed
      exact ⟨cause, rfl⟩

example : Operator.lookUp (fun _ _ => false) "\u0130N".toList =
    .error (.unknownOperator "\u0130N".toList) := by decide +kernel

end Grammar
end Verdict
