import Verdict.Proofs.Observation

/-!
What the metrics count. A rule is compiled successfully at most once, and that is counted if the
rule is compiled at the end; every call that cannot compile it is counted, and so is every verdict
and every failure of an evaluation, once each. The rule `*` leaves no mark.
-/
namespace Verdict

namespace Journal
variable {metric : Metric} {events : List Event}

@[simp] theorem total_nil : total metric [] = 0 := rfl

@[simp] theorem total_append (front behind : List Event) :
    total metric (front ++ behind) = total metric front + total metric behind := by
  simp [total]

theorem total_durations (ending : Ending) (events : List Event) :
    total (.durations ending) events = total (.evaluations ending) events := by
  induction events with
  | nil => rfl
  | cons event rest ih =>
    have one : total (.durations ending) [event] = total (.evaluations ending) [event] := by
      cases event with
      | evaluated other => cases ending <;> cases other <;> rfl
      | _ => rfl
    rw [← List.singleton_append, total_append, total_append, one, ih]

theorem total_steps (steps : List Evaluation.Step) :
    total metric (steps.filterMap Evaluation.Step.event?) = 0 := by
  induction steps with
  | nil => rfl
  | cons step rest ih =>
    cases step with
    | tested => exact ih
    | stopped => exact ih

end Journal

namespace Rule
open Journal
variable {config : Config} {query : Text} {made rule : Rule} {ending : Ending}

def asked (rule : Rule) : List Call → List (Rule × Call)
  | [] => []
  | call :: rest => (rule, call) :: asked (rule.perform call).next rest

def report (rule : Rule) (calls : List Call) : List Event :=
  (rule.turns calls).flatMap Turn.events

def failsToCompile (rule : Rule) : Bool := !rule.compile.answer.isOk

/-- How the evaluation ends that a call asks for, if the rule can be compiled. -/
def ending? (rule : Rule) (call : Call) : Option Ending :=
  if rule.isMatchAll || rule.failsToCompile then none
  else
    match call with
    | .compile => none
    | .test context => some (.ofAnswer (rule.test context).answer)
    | .explain context =>
      some (.ofAnswer ((rule.explain context).answer.map Evaluation.Explanation.matched))

theorem compile_cases (rule : Rule) :
    (rule.compile.events = [] ∧ rule.compile.next = rule ∧ rule.failsToCompile = false) ∨
    (∃ nodes fields, rule.compile.events = [.compiled rule.query nodes fields] ∧
      rule.isCompiled = false ∧ rule.compile.next.isCompiled ∧ rule.failsToCompile = false) ∨
    ∃ e, rule.compile.events = [.compilationFailed rule.query e] ∧
      rule.compile.next = rule ∧ rule.failsToCompile = true := by
  unfold failsToCompile compile
  split
  case isTrue => exact .inl ⟨rfl, rfl, rfl⟩
  case isFalse =>
    split
    case h_1 form kept => exact .inl ⟨rfl, rfl, rfl⟩
    case h_2 waits =>
      split
      case h_1 form compiles =>
        exact .inr (.inl ⟨_, _, rfl, by rw [isCompiled, waits, Option.isSome_none], rfl, rfl⟩)
      case h_2 e fails => exact .inr (.inr ⟨_, rfl, rfl, rfl⟩)

theorem total_compiled (rule : Rule) :
    total (.compilations true) rule.compile.events + rule.isCompiled.toNat =
      rule.compile.next.isCompiled.toNat := by
  obtain ⟨events, next, -⟩ | ⟨_, _, events, waits, made, -⟩ | ⟨_, events, next, -⟩ :=
    rule.compile_cases
  · rw [events, next, total_nil, Nat.zero_add]
  · rw [events, waits, made]
    rfl
  · rw [events, next]
    exact Nat.zero_add _

theorem total_failed (rule : Rule) :
    total (.compilations false) rule.compile.events = rule.failsToCompile.toNat := by
  obtain ⟨events, -, works⟩ | ⟨_, _, events, -, -, works⟩ | ⟨_, events, -, fails⟩ :=
    rule.compile_cases
  · rw [events, works]
    rfl
  · rw [events, works]
    rfl
  · rw [events, fails]
    rfl

theorem total_compile_evaluations (rule : Rule) (ending : Ending) :
    total (.evaluations ending) rule.compile.events = 0 := by
  obtain ⟨events, -⟩ | ⟨_, _, events, -⟩ | ⟨_, events, -⟩ := rule.compile_cases <;>
    rw [events] <;> rfl

theorem total_evaluation (metric : Metric) (rule : Rule) (context : Option Context)
    (nodes : Sequence) :
    total metric (rule.evaluationEvents context nodes) =
      total metric [.evaluated (.ofAnswer (nodes.evaluate rule.resolver context))] := by
  rw [← Sequence.recorded_outcome, evaluationEvents, total_append, total_steps, Nat.zero_add]

theorem total_run {α : Type} (metric : Metric) (rule : Rule) (context : Option Context)
    (evaluate : Sequence → Except Error α) :
    total metric (rule.run context evaluate).events =
      total metric rule.compile.events +
        match rule.compile.answer with
        | .error _ => 0
        | .ok form =>
          total metric [.evaluated (.ofAnswer (form.sequence.evaluate rule.resolver context))] := by
  cases compiles : rule.compile.answer with
  | error e =>
    simp only [run, compiles]
    rfl
  | ok form => simp only [run, compiles, total_append, total_evaluation]

theorem run_answer_of_compiles {α : Type} {form : Compiled}
    (compiles : rule.compile.answer = .ok form) (context : Option Context)
    (evaluate : Sequence → Except Error α) :
    (rule.run context evaluate).answer = evaluate form.sequence := by
  simp only [run, compiles]

theorem total_perform (metric : Metric) (rule : Rule) (call : Call) :
    total metric (rule.perform call).events =
      total metric rule.compile.events +
        match rule.ending? call with
        | none => 0
        | some ending => total metric [.evaluated ending] := by
  unfold ending?
  by_cases all : rule.isMatchAll
  · have silent : (rule.perform call).events = rule.compile.events := by
      cases call <;> simp [perform, Turn.map, test, explain, compile, all]
    simp [silent, all]
  · cases compiles : rule.compile.answer with
    | error e =>
      have fails : rule.failsToCompile = true := by rw [failsToCompile, compiles]; rfl
      cases call with
      | compile => simp [perform, Turn.map, fails]
      | test context => simp [perform, Turn.map, test, all, total_run, compiles, fails]
      | explain context => simp [perform, Turn.map, explain, all, total_run, compiles, fails]
    | ok form =>
      have works : rule.failsToCompile = false := by rw [failsToCompile, compiles]; rfl
      cases call with
      | compile => simp [perform, Turn.map, works, all]
      | test context =>
        simp [perform, Turn.map, test, all, total_run, compiles, works, run_answer_of_compiles]
      | explain context =>
        simp [perform, Turn.map, explain, all, total_run, compiles, works,
          run_answer_of_compiles, Sequence.explain_matched]

theorem report_cons (rule : Rule) (call : Call) (rest : List Call) :
    rule.report (call :: rest) =
      (rule.perform call).events ++ (rule.perform call).next.report rest := rfl

theorem total_compiled_report (rule : Rule) (calls : List Call) :
    total (.compilations true) (rule.report calls) + rule.isCompiled.toNat =
      (rule.after calls).isCompiled.toNat := by
  induction calls generalizing rule with
  | nil => exact Nat.zero_add _
  | cons call rest ih =>
    have later := ih (rule.perform call).next
    have here := rule.total_compiled
    have unevaluated : total (.compilations true) (rule.perform call).events =
        total (.compilations true) rule.compile.events := by
      rw [total_perform]
      split <;> rfl
    rw [report_cons, total_append, unevaluated]
    rw [perform_next] at later
    show _ = ((rule.perform call).next.after rest).isCompiled.toNat
    rw [perform_next]
    omega

theorem total_failed_report (rule : Rule) (calls : List Call) :
    total (.compilations false) (rule.report calls) =
      (rule.asked calls).countP fun entry => entry.1.failsToCompile := by
  induction calls generalizing rule with
  | nil => rfl
  | cons call rest ih =>
    have unevaluated : total (.compilations false) (rule.perform call).events =
        total (.compilations false) rule.compile.events := by
      rw [total_perform]
      split <;> rfl
    rw [report_cons, total_append, unevaluated, total_failed, ih, asked, List.countP_cons,
      Nat.add_comm]
    cases rule.failsToCompile <;> rfl

theorem total_evaluations_report (rule : Rule) (calls : List Call) (ending : Ending) :
    total (.evaluations ending) (rule.report calls) =
      (rule.asked calls).countP fun entry => entry.1.ending? entry.2 = some ending := by
  induction calls generalizing rule with
  | nil => rfl
  | cons call rest ih =>
    rw [report_cons, total_append, total_perform, total_compile_evaluations, Nat.zero_add, ih,
      asked, List.countP_cons, Nat.add_comm]
    cases rule.ending? call with
    | none => rfl
    | some other => cases ending <;> cases other <;> rfl

theorem perform_matchAll (all : rule.isMatchAll) (call : Call) :
    (rule.perform call).events = [] ∧ (rule.perform call).next = rule := by
  cases call <;> simp [perform, Turn.map, test, explain, compile, all]

theorem report_matchAll (all : rule.isMatchAll) (calls : List Call) : rule.report calls = [] := by
  induction calls with
  | nil => rfl
  | cons call rest ih =>
    obtain ⟨silent, kept⟩ := perform_matchAll all call
    rw [report_cons, silent, kept, ih]
    rfl

theorem total_create (created : (create config query).1 = .ok made) (metric : Metric) :
    total metric (create config query).2 =
      if metric = .compilations true then made.isCompiled.toNat else 0 := by
  rw [create] at created ⊢
  split at created
  case isTrue deferred =>
    cases created
    rw [if_pos deferred]
    exact (ite_self 0).symm
  case isFalse eager =>
    rw [if_neg eager]
    obtain ⟨form, compiles, rfl⟩ := map_eq_ok_iff.mp created
    have works : (fresh config query).failsToCompile = false := by
      rw [failsToCompile, compiles]
      rfl
    obtain ⟨events, next, -⟩ | ⟨_, _, events, -, kept, -⟩ | ⟨_, -, -, fails⟩ :=
      (fresh config query).compile_cases
    · simp only [events, next]
      exact (ite_self 0).symm
    · simp only [events, kept]
      cases metric with
      | compilations succeeded => cases succeeded <;> rfl
      | evaluations | durations => rfl
    · rw [works] at fails
      cases fails

theorem create_matchAll (config : Config) (all : query = matchAll) :
    create config query = (.ok (fresh config query), []) := by
  have isAll : (fresh config query).isMatchAll = true := by rw [isMatchAll, fresh, all]; rfl
  rw [create, isAll, Bool.or_true, if_pos rfl]

/-- The metrics account for every run of calls, from before the rule was made. A successful
    compilation is counted once, if the rule is compiled at the end, and a failed one for every
    call that could not compile the rule. Each evaluation is counted once, as it ended, and its
    duration with it. The rule `*` touches no metric. -/
theorem metrics_account (created : (create config query).1 = .ok made) (chain : Resolver)
    (calls : List Call) :
    let rule := made.withResolver chain
    let events := (create config query).2 ++ rule.report calls
    (total (.compilations true) events = if (rule.after calls).isCompiled then 1 else 0) ∧
    (total (.compilations false) events =
      (rule.asked calls).countP fun entry => entry.1.failsToCompile) ∧
    (∀ ending, total (.evaluations ending) events =
      (rule.asked calls).countP fun entry => entry.1.ending? entry.2 = some ending) ∧
    (∀ ending, total (.durations ending) events = total (.evaluations ending) events) ∧
    (query = matchAll → ∀ metric, total metric events = 0) := by
  intro rule events
  have here (metric : Metric) : total metric events =
      (if metric = .compilations true then rule.isCompiled.toNat else 0) +
        total metric (rule.report calls) := by
    rw [total_append, total_create created]
    rfl
  refine ⟨?_, ?_, fun ending => ?_, fun ending => total_durations ending events, ?_⟩
  · rw [here, if_pos rfl, Nat.add_comm, total_compiled_report]
    cases (rule.after calls).isCompiled <;> rfl
  · rw [here, if_neg nofun, Nat.zero_add, total_failed_report]
  · rw [here, if_neg nofun, Nat.zero_add, total_evaluations_report]
  · intro all metric
    have isAll : rule.isMatchAll := (stands_create created chain).isMatchAll_iff.mpr all
    rw [total_append, create_matchAll config all, report_matchAll isAll]
    rfl

def sampleCalls : List Call :=
  [.test none, .compile, .test (some ⟨.object [(['a'], .number (.int 2))]⟩),
    .explain (some ⟨.object [(['a'], .number (.int 1))]⟩)]

theorem deferred_rule_counted :
    ∃ made, (create { Config.standard with lazy := true } aboveOne.query).1 = .ok made ∧
      let events := (create { Config.standard with lazy := true } aboveOne.query).2 ++
        (made.withResolver .standard).report sampleCalls
      total (.compilations true) events = 1 ∧ total (.compilations false) events = 0 ∧
        ∀ ending, total (.evaluations ending) events = 1 := by
  have created : (create { Config.standard with lazy := true } aboveOne.query).1 =
      .ok (fresh { Config.standard with lazy := true } aboveOne.query) := rfl
  obtain ⟨compiled, failed, evaluated, -, -⟩ := metrics_account created .standard sampleCalls
  set rule := (fresh { Config.standard with lazy := true } aboveOne.query).withResolver .standard
  have read : Compiled.ofQuery rule.limit rule.query = .ok aboveOne := by cbv
  have waits : rule.compiled = none := rfl
  have compiles : rule.compile.answer = .ok aboveOne := by
    simp only [compile, if_neg (show ¬ rule.isMatchAll by decide), waits, read]
  have next : rule.compile.next = { rule with compiled := some aboveOne } := by
    simp only [compile, if_neg (show ¬ rule.isMatchAll by decide), waits, read]
  have works : rule.failsToCompile = false := by rw [failsToCompile, compiles]; rfl
  refine ⟨_, created, ?_, ?_, fun ending => ?_⟩
  · rw [compiled, after, sampleCalls, List.foldl_cons, perform_next, next]
    rfl
  · rw [failed, sampleCalls, asked, perform_next, next, List.countP_cons, works]
    rfl
  · have missed : rule.ending? (.test none) = some .error := by
      rw [ending?, works, if_neg (by decide), test, if_neg (by decide),
        run_answer_of_compiles compiles]
      rfl
    rw [evaluated, sampleCalls, asked, perform_next, next, List.countP_cons, missed]
    cases ending <;> rfl

end Rule
end Verdict
