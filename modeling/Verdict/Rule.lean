import Verdict.Config.Basic
import Verdict.Journal

/-!
Rules. A rule keeps its compiled form once it has one; a failed compilation is not kept. The rule
`*` matches whatever the context is and is never compiled.
-/
namespace Verdict

structure Compiled where
  query : Text
  sequence : Sequence
  paths : List Text
deriving DecidableEq

namespace Compiled

def ofQuery (limit : Nat) (query : Text) : Except ParseError Compiled := do
  let sequence ← Query.parse limit query
  (sequence.validate "root".toList).mapError .shape
  return ⟨query, sequence, sequence.paths⟩

end Compiled

structure Rule where
  query : Text
  limit : Nat
  resolver : Resolver
  compiled : Option Compiled

namespace Rule

def matchAll : Text := ['*']

def isMatchAll (rule : Rule) : Bool := rule.query == matchAll

def matchAllCompiled : Compiled := ⟨matchAll, [], []⟩

def withResolver (rule : Rule) (chain : Resolver) : Rule := { rule with resolver := chain }

def isCompiled (rule : Rule) : Bool := rule.compiled.isSome

def fresh (config : Config) (query : Text) : Rule :=
  ⟨query, config.maxNestingDepth, .standard, none⟩

def compile (rule : Rule) : Turn Rule Compiled :=
  if rule.isMatchAll then ⟨.ok matchAllCompiled, rule, []⟩
  else
    match rule.compiled with
    | some compiled => ⟨.ok compiled, rule, []⟩
    | none =>
      match Compiled.ofQuery rule.limit rule.query with
      | .ok compiled =>
        ⟨.ok compiled, { rule with compiled := some compiled },
          [.compiled rule.query compiled.sequence.length compiled.paths.length]⟩
      | .error e => ⟨.error (.parse e), rule, [.compilationFailed rule.query (.parse e)]⟩

/-- A new rule, compiled at once unless the settings defer it or it is the rule `*`. -/
def create (config : Config) (query : Text) : Except Error Rule × List Event :=
  let rule := fresh config query
  if config.lazy || rule.isMatchAll then (.ok rule, [])
  else
    let turn := rule.compile
    (turn.answer.map fun _ => turn.next, turn.events)

def evaluationEvents (rule : Rule) (context : Option Context) (sequence : Sequence) : List Event :=
  let (steps, result) := sequence.recorded rule.resolver context
  steps.filterMap Evaluation.Step.event? ++ [.evaluated (.ofAnswer result)]

def run {α : Type} (rule : Rule) (context : Option Context)
    (evaluate : Sequence → Except Error α) : Turn Rule α :=
  let turn := rule.compile
  match turn.answer with
  | .error e => ⟨.error e, turn.next, turn.events⟩
  | .ok compiled =>
    ⟨evaluate compiled.sequence, turn.next,
      turn.events ++ rule.evaluationEvents context compiled.sequence⟩

def test (rule : Rule) (context : Option Context) : Turn Rule Bool :=
  if rule.isMatchAll then ⟨.ok true, rule, []⟩
  else rule.run context (Sequence.evaluate rule.resolver context)

def explain (rule : Rule) (context : Option Context) : Turn Rule Evaluation.Explanation :=
  if rule.isMatchAll then ⟨.ok ⟨true, [], []⟩, rule, []⟩
  else rule.run context (Sequence.explain true rule.resolver context)

def shown (rule : Rule) : Text :=
  "BoolRule \x7b query: ".toList ++ Text.quoted rule.query ++ ", compiled: ".toList ++
    (if rule.isCompiled then "true".toList else "false".toList) ++ " \x7d".toList

end Rule
end Verdict
