import Verdict.Proofs.Account
import Verdict.Proofs.Observation
import Verdict.Proofs.RoundTrip

/-!
Explanations as evidence. The conditions that an explanation reports are rules in their own right:
each text is read back as the condition that was examined, and it holds by itself where the
explanation was given.
-/
namespace Verdict

structure Condition.Readable (c : Condition) : Prop where
  wellFormed : c.WellFormed
  legible : ∀ content ∈ c.strings, LegibleString content

theorem Sequence.WellFormed.readable {nodes : Sequence} (wellFormed : nodes.WellFormed)
    (legible : nodes.Legible) : AlternatingOf Condition.Readable nodes := by
  induction wellFormed with
  | condition isValid => exact .condition ⟨isValid, legible_condition.mp legible⟩
  | group _ ih => exact .group (ih (legible_group.mp legible))
  | joined _ _ ihFirst ihRest =>
    obtain ⟨first, rest⟩ := legible_joined.mp legible
    exact .joined (ihFirst first) (ihRest rest)

theorem Operand.maxNesting_scalars {items : List Operand} (scalars : ∀ item ∈ items, item.Scalar) :
    maxNesting items = 0 := by
  induction items with
  | nil => rfl
  | cons item rest ih =>
    obtain ⟨scalar, others⟩ := List.forall_mem_cons.mp scalars
    have flat : item.nesting = 0 := by cases scalar <;> rfl
    rw [maxNesting, flat, ih others, Nat.max_self]

theorem Operand.WellFormed.nesting_le {v : Operand} (wellFormed : v.WellFormed) :
    v.nesting ≤ 1 := by
  cases wellFormed with
  | scalar scalar => cases scalar <;> exact Nat.zero_le 1
  | list _ scalars => rw [nesting, maxNesting_scalars scalars]

namespace Query

theorem parse_condition {limit : Nat} {c : Condition} (readable : c.Readable) (room : 1 ≤ limit) :
    parse limit c.write = .ok [.condition c] := by
  have wellFormed : Sequence.WellFormed [.condition c] := .condition readable.wellFormed
  have legible : Sequence.Legible [.condition c] :=
    Sequence.legible_condition.mpr readable.legible
  have flat : Sequence.nesting [.condition c] ≤ 1 := by
    simpa [Sequence.nesting, Node.maxNesting, Node.nesting, Condition.nesting] using
      ⟨readable.wellFormed.1.nesting_le, readable.wellFormed.2.nesting_le⟩
  have written : c.write = Sequence.write [.condition c] :=
    (Grammar.write_single (.condition c)).symm
  rw [written]
  exact parse_iff.mpr ⟨(Grammar.spells_write_iff wellFormed).mpr legible, flat.trans room⟩

theorem ne_matchAll {limit : Nat} {query : Text} {nodes : Sequence}
    (read : parse limit query = .ok nodes) : query ≠ Rule.matchAll := by
  rintro rfl
  generalize whole : Rule.matchAll = query at read
  cases spells_of_parse read with
  | @intro before t after _ blankBefore terms _ =>
    have starts := Grammar.starts_terms terms
    have skipped : Text.skipBlanks Rule.matchAll = t ++ after := by
      rw [whole, Grammar.skipBlanks_blank blankBefore, starts.skip (by decide)]
    obtain ⟨c, rest, rfl, opens⟩ := starts
    obtain rfl : '*' = c := (List.cons.inj skipped).1
    cases opens

end Query

namespace Evaluation
variable {ε : Type} {examine : Condition → Except ε Finding}

theorem Account.mem_andThen {first : Account ε} {next : Bool → Account ε} {c : Condition}
    (member : c ∈ (first.andThen next).1) : c ∈ first.1 ∨ ∃ passed, c ∈ (next passed).1 := by
  obtain ⟨conditions, result⟩ := first
  cases result with
  | error e => exact .inl member
  | ok passed => exact (List.mem_append.mp member).imp_right fun later => ⟨passed, later⟩

theorem account_found {valid : Condition → Prop} {nodes : Sequence}
    (alternating : AlternatingOf valid nodes) : ∀ c ∈ (account examine nodes).1,
      valid c ∧ (examine c).map Finding.matched = .ok true := by
  induction alternating with
  | @condition c isValid =>
    intro d member
    rw [account_single, termAccount] at member
    cases examined : examine c with
    | error e => simp [examined] at member
    | ok finding =>
      rw [examined] at member
      cases matched : finding.matched with
      | false => simp [matched] at member
      | true =>
        obtain rfl : d = c := by simpa [matched] using member
        rw [examined]
        exact ⟨isValid, congrArg Except.ok matched⟩
  | group _ ih =>
    rw [account_group]
    exact ih
  | @joined term joint others _ _ ihFirst ihRest =>
    intro c member
    rw [account_single] at ihFirst
    rw [account] at member
    rcases Account.mem_andThen member with here | ⟨passed, later⟩
    · exact ihFirst c here
    · split at later
      · cases later
      · exact ihRest c later

end Evaluation

namespace Sequence
variable {chain : Resolver} {context : Option Context}

theorem evaluate_condition (chain : Resolver) (context : Option Context) (c : Condition) :
    evaluate chain context [.condition c] = c.holds chain context := by
  rw [evaluate, Evaluation.scan_single rfl, Evaluation.outcome]

theorem explain_found {valid : Condition → Prop} {nodes : Sequence}
    (alternating : AlternatingOf valid nodes) {traced : Bool} {e : Evaluation.Explanation}
    (explained : nodes.explain traced chain context = .ok e) :
    ∀ text ∈ e.matchedConditions,
      ∃ c : Condition, c.write = text ∧ valid c ∧ c.holds chain context = .ok true := by
  intro text member
  have accounted := Evaluation.explain_eq_account chain context alternating traced
  rw [explained] at accounted
  obtain ⟨matched, -, same⟩ := map_eq_ok_iff.mp accounted.symm
  have reported : e.matchedConditions =
      (Evaluation.account (Condition.examine chain context) nodes).1.map Condition.write :=
    (congrArg Prod.snd same).symm
  rw [reported] at member
  obtain ⟨c, found, written⟩ := List.mem_map.mp member
  exact ⟨c, written, Evaluation.account_found alternating c found⟩

end Sequence

namespace Rule
variable {config : Config} {query : Text} {chain : Resolver} {rule : Rule} {nodes : Sequence}

theorem afresh_of_parse {α : Type} {limit : Nat} (read : Query.parse limit query = .ok nodes)
    (settled : α) (evaluate : Sequence → Except Error α) :
    afresh limit query settled evaluate = evaluate nodes := by
  rw [afresh, if_neg (Query.ne_matchAll read), read]

theorem create_of_parse (eager : config.lazy = false)
    (read : Query.parse config.maxNestingDepth query = .ok nodes) : (create config query).1 =
      .ok { fresh config query with compiled := some ⟨query, nodes, nodes.paths⟩ } := by
  have notAll : (fresh config query).isMatchAll = false := by
    simpa [isMatchAll, fresh] using Query.ne_matchAll read
  have compiles : Compiled.ofQuery (fresh config query).limit (fresh config query).query =
      .ok ⟨query, nodes, nodes.paths⟩ := Compiled.ofQuery_eq_ok_iff.mpr ⟨nodes, read, rfl⟩
  simp only [create, eager, notAll, Bool.or_self, Bool.false_eq_true, ↓reduceIte, compile, compiles]
  rfl

/-- An explanation can be checked again, condition by condition. Where no string of a rule has both
    kinds of quotes, each text that an explanation of the rule reports makes a rule by itself, with
    the standard settings, which is the condition of that text and nothing else, and which tests
    true in the same context with the same accessors. -/
theorem explanations_recheck (reached : rule.Reached config query chain)
    (read : Query.parse config.maxNestingDepth query = .ok nodes) (legible : nodes.Legible)
    {context : Option Context} {e : Evaluation.Explanation}
    (explained : (rule.explain context).answer = .ok e) :
    ∀ text ∈ e.matchedConditions, ∃ (c : Condition) (made : Rule), c.write = text ∧
      (create Config.standard text).1 = .ok made ∧
      made.compiled = some ⟨text, [.condition c], Sequence.paths [.condition c]⟩ ∧
      ((made.withResolver chain).test context).answer = .ok true := by
  intro text member
  rw [reached.stands.explain_answer, afresh_of_parse read] at explained
  have readable := (Query.wellFormed_of_parse read).readable legible
  obtain ⟨c, rfl, isReadable, holds⟩ := Sequence.explain_found readable explained text member
  have reread : Query.parse Config.standard.maxNestingDepth c.write = .ok [.condition c] :=
    Query.parse_condition isReadable (by decide)
  have created := create_of_parse rfl reread
  refine ⟨c, _, rfl, created, rfl, ?_⟩
  rw [(stands_create created chain).test_answer, afresh_of_parse reread]
  exact (Sequence.evaluate_condition chain context c).trans holds

theorem canonical_two_and_half : Binary64.Canonical 5629499534213120 (-51) := by decide

/-- The compiled form of `(a = 1 or b in ("it's", 'say "hi"')) and 2.50 < c`. -/
def quotedChoice : Compiled where
  query := "(a = 1 or b in (\"it's\", 'say \"hi\"')) and 2.50 < c".toList
  sequence :=
    [.group [.condition ⟨.path ['a'], .equal, .int 1⟩, .connective .or,
      .condition ⟨.path ['b'], .member, .list [.str "it's".toList, .str "say \"hi\"".toList]⟩],
      .connective .and,
      .condition ⟨.real (.finite ⟨false, 5629499534213120, -51, canonical_two_and_half⟩), .less,
        .path ['c']⟩]
  paths := [['a'], ['b'], ['c']]

def quotedContext : Context :=
  ⟨.object [(['a'], .number (.int 0)), (['b'], .str "it's".toList), (['c'], .number (.int 3))]⟩

theorem quoted_choice_rechecks :
    (holding quotedChoice).Reached Config.standard quotedChoice.query .standard ∧
      Query.parse Config.standard.maxNestingDepth quotedChoice.query = .ok quotedChoice.sequence ∧
      quotedChoice.sequence.Legible ∧
      ∃ e, ((holding quotedChoice).explain (some quotedContext)).answer = .ok e ∧
        e.matchedConditions =
          ["b in (\"it's\", 'say \"hi\"')".toList, "2.5 < c".toList] ∧
        ∀ text ∈ e.matchedConditions, ∃ (c : Condition) (made : Rule), c.write = text ∧
          (create Config.standard text).1 = .ok made ∧
          made.compiled = some ⟨text, [.condition c], Sequence.paths [.condition c]⟩ ∧
          ((made.withResolver .standard).test (some quotedContext)).answer = .ok true := by
  have read : Query.parse Config.standard.maxNestingDepth quotedChoice.query =
      .ok quotedChoice.sequence := Query.ok_of_toOption (by decide +kernel)
  have reached : (holding quotedChoice).Reached Config.standard quotedChoice.query .standard :=
    ⟨holding quotedChoice, [], (create_of_parse rfl read).trans (by rfl), rfl⟩
  have legible : quotedChoice.sequence.Legible := by decide
  obtain ⟨e, explained, reported⟩ :
      ∃ e, ((holding quotedChoice).explain (some quotedContext)).answer = .ok e ∧
        e.matchedConditions =
          ["b in (\"it's\", 'say \"hi\"')".toList, "2.5 < c".toList] := by
    exact ⟨_, by rfl, by decide +kernel⟩
  exact ⟨reached, read, legible, e, explained, reported,
    explanations_recheck reached read legible explained⟩

end Rule
end Verdict
