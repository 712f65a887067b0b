import Verdict.Evaluation
import Verdict.Text.Quoted

/-!
The journal of what rules and stores do. Both accounts are read off it: the log, whose entries
have a level, a message and fields, and the metrics, which count compilations and evaluations.
-/
namespace Verdict

inductive Ending where
  | matched
  | notMatched
  | error
deriving DecidableEq

def Ending.ofAnswer {ε : Type} : Except ε Bool → Ending
  | .ok true => .matched
  | .ok false => .notMatched
  | .error _ => .error

def Ending.name : Ending → Text
  | .matched => "matched".toList
  | .notMatched => "not_matched".toList
  | .error => "error".toList

inductive Event where
  | compiled (query : Text) (nodes fields : Nat)
  | compilationFailed (query : Text) (e : Error)
  | stopped (address : Evaluation.Address) (joint : Connective)
  | evaluated (ending : Ending)
  | loaded (name : Text)
  | replaced (name : Text)
  | deleted (name : Text)
  | deletedAbsent (name : Text)
  | batchFailed (failures : List (Text × Error))
  | batchLoaded (succeeded failed : Nat)
  | variableMissing (name : Text) (e : Error)
  | evaluationFailed (name : Text) (e : Error)
  | cleared (count : Nat)

/-- What an operation answers, what it leaves behind and what the journal gets to know. -/
structure Turn (σ α : Type) where
  answer : Except Error α
  next : σ
  events : List Event

namespace Evaluation.Step

def event? : Step → Option Event
  | .tested _ _ _ => none
  | .stopped address joint => some (.stopped address joint)

end Evaluation.Step

inductive Level where
  | trace
  | debug
  | info
  | warn
deriving DecidableEq

def Level.name : Level → Text
  | .trace => "TRACE".toList
  | .debug => "DEBUG".toList
  | .info => "INFO".toList
  | .warn => "WARN".toList

structure Entry where
  level : Level
  message : Text
  fields : List (Text × Text)

def Error.shown : Error → Text
  | .parse e => "ParseError(".toList ++ Text.quoted e.message ++ [')']
  | .missing m => "MissingVariable(".toList ++ Text.quoted m.message ++ [')']
  | .unknownOperator token => "UnknownOperator(".toList ++ Text.quoted token ++ [')']
  | .mismatch m =>
    "TypeMismatch \x7b operator: ".toList ++ Text.quoted m.operator.write ++ ", left: ".toList ++
      Text.quoted m.left.name ++ ", right: ".toList ++ Text.quoted m.right.name ++ " \x7d".toList
  | .ruleNotFound name => "RuleNotFound(".toList ++ Text.quoted name ++ [')']

def writeFailures (failures : List (Text × Error)) : Text :=
  let failure (f : Text × Error) : Text :=
    '(' :: (Text.quoted f.1 ++ ", ".toList ++ f.2.shown ++ [')'])
  '[' :: (Text.joined ", ".toList (failures.map failure) ++ [']'])

def Event.entry? : Event → Option Entry
  | .compiled query nodes fields =>
    some ⟨.debug, "规则已编译".toList, [("query".toList, query),
      ("nodes".toList, Text.ofNat nodes), ("fields".toList, Text.ofNat fields)]⟩
  | .compilationFailed query e =>
    some ⟨.debug, "规则编译失败".toList, [("query".toList, query), ("error".toList, e.message)]⟩
  | .stopped address .or =>
    some ⟨.trace, "OR 短路".toList, [("path".toList, Evaluation.writeAddress address)]⟩
  | .stopped address .and =>
    some ⟨.trace, "AND 短路".toList, [("path".toList, Evaluation.writeAddress address)]⟩
  | .evaluated _ => none
  | .loaded name => some ⟨.info, "规则已加载: ".toList ++ name, []⟩
  | .replaced name => some ⟨.info, "规则已替换: ".toList ++ name, []⟩
  | .deleted name => some ⟨.info, "规则已删除: ".toList ++ name, []⟩
  | .deletedAbsent name => some ⟨.warn, "删除不存在的规则: ".toList ++ name, []⟩
  | .batchFailed failures =>
    some ⟨.warn, "批量加载部分失败: ".toList ++ writeFailures failures, []⟩
  | .batchLoaded succeeded failed =>
    some ⟨.info, "批量加载完成: ".toList ++ Text.ofNat succeeded ++ " 成功, ".toList ++
      Text.ofNat failed ++ " 失败".toList, []⟩
  | .variableMissing name e =>
    some ⟨.debug, "规则缺少变量，视为不匹配".toList,
      [("rule".toList, name), ("error".toList, e.message)]⟩
  | .evaluationFailed name e =>
    some ⟨.warn, "规则评估失败".toList, [("rule".toList, name), ("error".toList, e.message)]⟩
  | .cleared count =>
    some ⟨.info, "已清空 ".toList ++ Text.ofNat count ++ " 条规则".toList, []⟩

inductive Metric where
  | compilations (succeeded : Bool)
  | evaluations (ending : Ending)
  | durations (ending : Ending)
deriving DecidableEq

namespace Metric

def all : List Metric :=
  [.compilations true, .compilations false] ++
    [Ending.matched, .notMatched, .error].flatMap fun ending =>
      [.evaluations ending, .durations ending]

def name : Metric → Text
  | .compilations true => "rule_compilations_total\x7bstatus=ok\x7d".toList
  | .compilations false => "rule_compilations_total\x7bstatus=error\x7d".toList
  | .evaluations ending => "rule_evaluations_total\x7bresult=".toList ++ ending.name ++ ['\x7d']
  | .durations ending =>
    "rule_evaluation_duration_seconds\x7bresult=".toList ++ ending.name ++ ['\x7d']

def descriptions : List (Text × Text × Text) :=
  [("counter".toList, "rule_compilations_total".toList,
      "Total number of rule compilations".toList),
    ("counter".toList, "rule_evaluations_total".toList,
      "Total number of rule evaluations".toList),
    ("histogram".toList, "rule_evaluation_duration_seconds".toList,
      "Rule evaluation duration in seconds".toList)]

end Metric

def Event.metrics : Event → List Metric
  | .compiled _ _ _ => [.compilations true]
  | .compilationFailed _ _ => [.compilations false]
  | .evaluated ending => [.evaluations ending, .durations ending]
  | _ => []

namespace Journal

def log (events : List Event) : List Entry := events.filterMap Event.entry?

def total (metric : Metric) (events : List Event) : Nat :=
  (events.flatMap Event.metrics).count metric

def touched (events : List Event) : List (Metric × Nat) :=
  (Metric.all.map fun metric => (metric, total metric events)).filter fun entry => entry.2 ≠ 0

end Journal
end Verdict
