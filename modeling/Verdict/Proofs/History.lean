import Mathlib
import Verdict.Proofs.Shape
import Verdict.Rule

/-!
A rule over its history. A rule compiles itself when it is first asked and keeps the result, but no
answer shows it: every call is answered from the limit, the text and the accessors of the rule, as
if it were the first one.
-/
namespace Verdict

def Turn.map {σ α β : Type} (turn : Turn σ α) (f : α → β) : Turn σ β :=
  ⟨turn.answer.map f, turn.next, turn.events⟩

theorem map_eq_error_iff {ε α β : Type} {result : Except ε α} {f : α → β} {e : ε} :
    result.map f = .error e ↔ result = .error e := by
  cases result <;> simp [Except.map]

namespace Compiled
variable {limit : Nat} {query : Text}

/-- A sequence that is read is always valid, so only reading can fail. -/
theorem ofQuery_eq : ofQuery limit query =
    (Query.parse limit query).map fun nodes => ⟨query, nodes, nodes.paths⟩ := by
  unfold ofQuery
  cases read : Query.parse limit query with
  | error e => rfl
  | ok nodes =>
    have alternating : Alternating nodes :=
      (Query.wellFormed_of_parse read).mono fun _ _ => trivial
    have valid : nodes.validate "root".toList = .ok () :=
      Sequence.validate_eq_ok_iff.mpr alternating
    show (do (nodes.validate "root".toList).mapError ParseError.shape; return _) = _
    rw [valid]
    rfl

theorem ofQuery_eq_ok_iff {form : Compiled} : ofQuery limit query = .ok form ↔
    ∃ nodes : Sequence,
      Query.parse limit query = .ok nodes ∧ ⟨query, nodes, nodes.paths⟩ = form := by
  rw [ofQuery_eq]
  cases Query.parse limit query <;> simp [Except.map]

end Compiled

namespace Rule

inductive Call where
  | compile
  | test (context : Option Context)
  | explain (context : Option Context)

inductive Answer where
  | compiled (form : Compiled)
  | verdict (matched : Bool)
  | explanation (e : Evaluation.Explanation)
deriving DecidableEq

def perform (rule : Rule) : Call → Turn Rule Answer
  | .compile => rule.compile.map .compiled
  | .test context => (rule.test context).map .verdict
  | .explain context => (rule.explain context).map .explanation

def turns (rule : Rule) : List Call → List (Turn Rule Answer)
  | [] => []
  | call :: rest => rule.perform call :: turns (rule.perform call).next rest

def after (rule : Rule) (calls : List Call) : Rule :=
  calls.foldl (fun rule call => (rule.perform call).next) rule

/-- What the text of a rule comes to: the rule `*` is settled, any other is read and evaluated. -/
def afresh {α : Type} (limit : Nat) (query : Text) (settled : α)
    (evaluate : Sequence → Except Error α) : Except Error α :=
  if query = matchAll then .ok settled
  else
    match Query.parse limit query with
    | .error e => .error (.parse e)
    | .ok nodes => evaluate nodes

def answerAfresh (limit : Nat) (query : Text) (chain : Resolver) : Call → Except Error Answer
  | .compile =>
    (afresh limit query matchAllCompiled fun nodes => .ok ⟨query, nodes, nodes.paths⟩).map .compiled
  | .test context =>
    (afresh limit query true (Sequence.evaluate chain context)).map .verdict
  | .explain context =>
    (afresh limit query ⟨true, [], []⟩ (Sequence.explain true chain context)).map .explanation

/-- The rule has this limit, text and chain of accessors, and keeps no compiled form but its own. -/
structure Stands (limit : Nat) (query : Text) (chain : Resolver) (rule : Rule) : Prop where
  ownLimit : rule.limit = limit
  ownQuery : rule.query = query
  ownResolver : rule.resolver = chain
  kept : ∀ form, rule.compiled = some form → Compiled.ofQuery limit query = .ok form

variable {limit : Nat} {query : Text} {chain : Resolver} {rule : Rule}

theorem run_next {α : Type} (rule : Rule) (context : Option Context)
    (evaluate : Sequence → Except Error α) :
    (rule.run context evaluate).next = rule.compile.next := by
  simp only [run]
  split <;> rfl

theorem perform_next (rule : Rule) (call : Call) :
    (rule.perform call).next = rule.compile.next := by
  have idle (all : rule.isMatchAll = true) : rule.compile.next = rule := by
    rw [compile, if_pos all]
  cases call with
  | compile => rfl
  | test context =>
    simp only [perform, Turn.map, test]
    split
    case isTrue all => exact (idle all).symm
    case isFalse => exact run_next rule context _
  | explain context =>
    simp only [perform, Turn.map, explain]
    split
    case isTrue all => exact (idle all).symm
    case isFalse => exact run_next rule context _

theorem Stands.compile (stands : Stands limit query chain rule) :
    Stands limit query chain rule.compile.next := by
  unfold Rule.compile
  split
  · exact stands
  · split
    · exact stands
    · split
      case h_1 form read =>
        refine ⟨stands.ownLimit, stands.ownQuery, stands.ownResolver, fun other kept => ?_⟩
        cases kept
        rw [← stands.ownLimit, ← stands.ownQuery, read]
      case h_2 => exact stands

theorem Stands.after (stands : Stands limit query chain rule) (calls : List Call) :
    Stands limit query chain (rule.after calls) :=
  List.foldlRecOn calls _ stands fun _ stands call _ => by
    rw [perform_next]
    exact stands.compile

theorem Stands.withResolver (stands : Stands limit query chain rule) (chain' : Resolver) :
    Stands limit query chain' (rule.withResolver chain') :=
  ⟨stands.ownLimit, stands.ownQuery, rfl, stands.kept⟩

theorem stands_fresh (config : Config) (query : Text) :
    Stands config.maxNestingDepth query .standard (fresh config query) :=
  ⟨rfl, rfl, rfl, nofun⟩

theorem stands_made {config : Config} (created : (create config query).1 = .ok rule) :
    Stands config.maxNestingDepth query .standard rule := by
  simp only [create] at created
  split at created
  · cases created
    exact stands_fresh config query
  · cases turn : (fresh config query).compile.answer with
    | error e =>
      rw [turn] at created
      cases created
    | ok form =>
      rw [turn] at created
      cases created
      exact (stands_fresh config query).compile

theorem stands_create {config : Config} (created : (create config query).1 = .ok rule)
    (chain : Resolver) : Stands config.maxNestingDepth query chain (rule.withResolver chain) :=
  (stands_made created).withResolver chain

/-- A rule as it was made and then asked, in any way. -/
def Reached (config : Config) (query : Text) (chain : Resolver) (rule : Rule) : Prop :=
  ∃ made calls, (create config query).1 = .ok made ∧ rule = (made.withResolver chain).after calls

theorem Reached.stands {config : Config} (reached : Reached config query chain rule) :
    Stands config.maxNestingDepth query chain rule := by
  obtain ⟨made, calls, created, rfl⟩ := reached
  exact (stands_create created chain).after calls

theorem Stands.isMatchAll_iff (stands : Stands limit query chain rule) :
    rule.isMatchAll ↔ query = matchAll := by
  rw [isMatchAll, stands.ownQuery, beq_iff_eq]

theorem compile_answer (rule : Rule) :
    rule.compile.answer =
      if rule.isMatchAll then .ok matchAllCompiled
      else
        match rule.compiled with
        | some form => .ok form
        | none => (Compiled.ofQuery rule.limit rule.query).mapError .parse := by
  unfold compile
  by_cases all : rule.isMatchAll
  · simp only [if_pos all]
  · simp only [if_neg all]
    cases rule.compiled with
    | some form => rfl
    | none => cases Compiled.ofQuery rule.limit rule.query <;> rfl

theorem Stands.compile_answer (stands : Stands limit query chain rule) : rule.compile.answer =
    afresh limit query matchAllCompiled fun nodes => .ok ⟨query, nodes, nodes.paths⟩ := by
  -- A form kept from an earlier call is the one that this call would make.
  have read : rule.compile.answer =
      if query = matchAll then .ok matchAllCompiled
      else (Compiled.ofQuery limit query).mapError .parse := by
    simp only [Rule.compile_answer, stands.isMatchAll_iff, stands.ownLimit, stands.ownQuery]
    cases kept : rule.compiled with
    | none => rfl
    | some form =>
      rw [stands.kept form kept]
      rfl
  rw [read, afresh, Compiled.ofQuery_eq]
  split
  · rfl
  · cases Query.parse limit query <;> rfl

theorem Stands.run_answer {α : Type} (stands : Stands limit query chain rule) (settled : α)
    (notAll : query ≠ matchAll) (context : Option Context)
    (evaluate : Sequence → Except Error α) :
    (rule.run context evaluate).answer = afresh limit query settled evaluate := by
  simp only [run, stands.compile_answer, afresh, if_neg notAll]
  cases Query.parse limit query <;> rfl

theorem Stands.test_answer (stands : Stands limit query chain rule) (context : Option Context) :
    (rule.test context).answer = afresh limit query true (Sequence.evaluate chain context) := by
  by_cases all : query = matchAll
  · rw [test, if_pos (stands.isMatchAll_iff.mpr all), afresh, if_pos all]
  · rw [test, if_neg ((not_congr stands.isMatchAll_iff).mpr all), stands.run_answer true all,
      stands.ownResolver]

theorem Stands.explain_answer (stands : Stands limit query chain rule) (context : Option Context) :
    (rule.explain context).answer =
      afresh limit query ⟨true, [], []⟩ (Sequence.explain true chain context) := by
  by_cases all : query = matchAll
  · rw [explain, if_pos (stands.isMatchAll_iff.mpr all), afresh, if_pos all]
  · rw [explain, if_neg ((not_congr stands.isMatchAll_iff).mpr all), stands.run_answer _ all,
      stands.ownResolver]

theorem Stands.answer (stands : Stands limit query chain rule) (call : Call) :
    (rule.perform call).answer = answerAfresh limit query chain call := by
  cases call with
  | compile => exact congrArg (Except.map _) stands.compile_answer
  | test context => exact congrArg (Except.map _) (stands.test_answer context)
  | explain context => exact congrArg (Except.map _) (stands.explain_answer context)

theorem Stands.answers (stands : Stands limit query chain rule) (calls : List Call) :
    (rule.turns calls).map Turn.answer = calls.map (answerAfresh limit query chain) := by
  induction calls generalizing rule with
  | nil => rfl
  | cons call rest ih =>
    have next : Stands limit query chain (rule.perform call).next := by
      rw [perform_next]
      exact stands.compile
    rw [turns, List.map_cons, List.map_cons, stands.answer call, ih next]

theorem answerAfresh_error {e : Error}
    (unread : answerAfresh limit query chain .compile = .error e) (call : Call) :
    answerAfresh limit query chain call = .error e := by
  simp only [answerAfresh, afresh] at unread
  by_cases all : query = matchAll
  · rw [if_pos all] at unread
    cases unread
  · rw [if_neg all] at unread
    cases read : Query.parse limit query with
    | error cause =>
      rw [read] at unread
      cases unread
      cases call <;> simp only [answerAfresh, afresh, if_neg all, read] <;> rfl
    | ok nodes =>
      rw [read] at unread
      cases unread

theorem create_error_iff {config : Config} (eager : config.lazy = false) (chain : Resolver)
    {e : Error} :
    (create config query).1 = .error e ↔
      answerAfresh config.maxNestingDepth query chain .compile = .error e := by
  have stands := stands_fresh config query
  have compiles : (fresh config query).compile.answer.map Answer.compiled =
      answerAfresh config.maxNestingDepth query chain .compile :=
    congrArg (Except.map _) stands.compile_answer
  rw [← compiles, create, eager, Bool.false_or]
  by_cases all : query = matchAll
  · have settled := stands.isMatchAll_iff.mpr all
    rw [if_pos settled, compile, if_pos settled]
    exact ⟨nofun, nofun⟩
  · rw [if_neg ((not_congr stands.isMatchAll_iff).mpr all)]
    exact map_eq_error_iff.trans map_eq_error_iff.symm

/-- No answer depends on what a rule was asked before, or on when it was compiled: a rule answers
    every run of calls as its text does afresh. So rules that are compiled when they are made and
    when they are first needed agree, and one that cannot be made has a text that fails every call
    of every run in the same way. -/
theorem history_unobservable (config : Config) (query : Text) (chain : Resolver) :
    (∀ rule, (create config query).1 = .ok rule → ∀ calls,
      ((rule.withResolver chain).turns calls).map Turn.answer =
        calls.map (answerAfresh config.maxNestingDepth query chain)) ∧
    ∃ deferred, (create { config with lazy := true } query).1 = .ok deferred ∧
      (∀ eager, (create { config with lazy := false } query).1 = .ok eager → ∀ calls,
        ((eager.withResolver chain).turns calls).map Turn.answer =
          ((deferred.withResolver chain).turns calls).map Turn.answer) ∧
      ∀ e, (create { config with lazy := false } query).1 = .error e ↔
        ∀ calls call, (((deferred.withResolver chain).after calls).perform call).answer =
          .error e := by
  have stands := (stands_fresh config query).withResolver chain
  refine ⟨fun rule created => (stands_create created chain).answers,
    fresh config query, rfl, fun eager created calls => ?_, fun e => ?_⟩
  · exact ((stands_create created chain).answers calls).trans (stands.answers calls).symm
  · simp only [(stands.after _).answer]
    rw [create_error_iff rfl chain]
    exact ⟨fun unread _ call => answerAfresh_error unread call, fun fails => fails [] .compile⟩

def aboveOne : Compiled :=
  ⟨"a > 1".toList, [.condition ⟨.path ['a'], .greater, .int 1⟩], [['a']]⟩

theorem answers_on_first_need :
    (∀ lazy, ∃ rule, (create { Config.standard with lazy } aboveOne.query).1 = .ok rule ∧
      ((rule.withResolver .standard).turns
          [.test none, .compile, .test (some ⟨.object [(['a'], .number (.int 2))]⟩)]).map
            Turn.answer =
        [.error (.missing (.noContext ['a'])), .ok (.compiled aboveOne), .ok (.verdict true)]) ∧
      ∃ e, (create Config.standard "a or".toList).1 = .error e ∧
        ∀ calls call, (((fresh Config.standard "a or".toList).after calls).perform call).answer =
          .error e := by
  refine ⟨fun lazy => ?_, .parse (.unexpected 1 3 [.operator]), ?_, ?_⟩
  · have made : ∃ rule, (create { Config.standard with lazy } aboveOne.query).1 = .ok rule := by
      cases lazy with
      | true => exact ⟨_, rfl⟩
      | false =>
        exact ⟨{ fresh Config.standard aboveOne.query with compiled := some aboveOne }, by cbv⟩
    obtain ⟨rule, created⟩ := made
    refine ⟨rule, created, ?_⟩
    rw [(history_unobservable _ _ .standard).1 rule created]
    have read : Query.parse Config.standard.maxNestingDepth aboveOne.query =
        .ok aboveOne.sequence := by cbv
    have other : aboveOne.query ≠ matchAll := by decide
    simp only [List.map_cons, List.map_nil, answerAfresh, afresh, if_neg other, read]
    rfl
  · cbv
  · obtain ⟨-, deferred, waits, -, fails⟩ :=
      history_unobservable Config.standard "a or".toList .standard
    cases waits
    exact (fails _).mp (by cbv)

end Rule
end Verdict
