import Verdict.Context
import Verdict.Json.Printer

/-!
Evaluation of a sequence. The scan goes from left to right and keeps the outcome of the last
term; a connective that this outcome settles ends the scan with it, any other lets the next term
decide. There is no precedence. The recording scan does the same and writes down what it met.
-/
namespace Verdict

structure Finding where
  left : Json
  right : Json
  matched : Bool

namespace Condition

/-- Both operands are expanded, the left one first, before the operator sees them. -/
def examine (chain : Resolver) (context : Option Context) (c : Condition) :
    Except Error Finding := do
  let left ← chain.expand context c.left
  let right ← chain.expand context c.right
  let matched ← (c.operator.apply left right).mapError .mismatch
  return ⟨left, right, matched⟩

def holds (chain : Resolver) (context : Option Context) (c : Condition) : Except Error Bool :=
  (c.examine chain context).map Finding.matched

end Condition

/-- `or` is settled by a true outcome, `and` by a false one. -/
def Connective.settledBy : Connective → Bool → Bool
  | .or, passed => passed
  | .and, passed => !passed

def Node.settling? : Node → Bool → Option Connective
  | .connective joint, passed => if joint.settledBy passed then some joint else none
  | _, _ => none

namespace Evaluation
variable {ε : Type}

mutual
def outcome (holds : Condition → Except ε Bool) (passed : Bool) : Node → Except ε Bool
  | .condition c => holds c
  | .connective _ => .ok passed
  | .group body => scan holds false body

def scan (holds : Condition → Except ε Bool) (passed : Bool) : List Node → Except ε Bool
  | [] => .ok passed
  | node :: rest =>
    match node.settling? passed with
    | some _ => .ok passed
    | none => do scan holds (← outcome holds passed node) rest
end

abbrev Address := List Nat

inductive Step where
  | tested (address : Address) (condition : Condition) (finding : Finding)
  | stopped (address : Address) (joint : Connective)

mutual
def recordNode (examine : Condition → Except ε Finding) (address : Address) (passed : Bool) :
    Node → List Step × Except ε Bool
  | .condition c =>
    match examine c with
    | .ok finding => ([.tested address c finding], .ok finding.matched)
    | .error e => ([], .error e)
  | .connective _ => ([], .ok passed)
  | .group body => record examine address 0 false body

/-- The steps of a scan, also of one that ends in an error, and its outcome. -/
def record (examine : Condition → Except ε Finding) (address : Address) (index : Nat)
    (passed : Bool) : List Node → List Step × Except ε Bool
  | [] => ([], .ok passed)
  | node :: rest =>
    let here := address ++ [index]
    match node.settling? passed with
    | some joint => ([.stopped here joint], .ok passed)
    | none =>
      match recordNode examine here passed node with
      | (steps, .error e) => (steps, .error e)
      | (steps, .ok passed) =>
        let (more, result) := record examine address (index + 1) passed rest
        (steps ++ more, result)
end

/-- An address counts from the root: `root[0][2]`. -/
def writeAddress (address : Address) : Text :=
  "root".toList ++ address.flatMap fun index => '[' :: (Text.ofNat index ++ [']'])

namespace Step

def line : Step → Text
  | .tested address c finding =>
    writeAddress address ++ ": ".toList ++ c.write ++ " (".toList ++ finding.left.write ++
      ' ' :: (c.operator.write ++ ' ' :: (finding.right.write ++ ") => ".toList ++
        (if finding.matched then "MATCHED".toList else "NOT_MATCHED".toList)))
  | .stopped address .or => writeAddress address ++ ": OR 短路 - 前项为真".toList
  | .stopped address .and => writeAddress address ++ ": AND 短路 - 前项为假".toList

def matched? : Step → Option Condition
  | .tested _ c finding => if finding.matched then some c else none
  | .stopped _ _ => none

end Step

structure Explanation where
  matched : Bool
  matchedConditions : List Text
  trace : List Text
deriving DecidableEq

def Explanation.ofSteps (traced : Bool) (steps : List Step) (matched : Bool) : Explanation where
  matched := matched
  matchedConditions := steps.filterMap fun step => step.matched?.map Condition.write
  trace := if traced then steps.map Step.line else []

end Evaluation

namespace Sequence
open Evaluation

def evaluate (chain : Resolver) (context : Option Context) (nodes : Sequence) :
    Except Error Bool :=
  scan (Condition.holds chain context) false nodes

def recorded (chain : Resolver) (context : Option Context) (nodes : Sequence) :
    List Step × Except Error Bool :=
  record (Condition.examine chain context) [] 0 false nodes

def explain (traced : Bool) (chain : Resolver) (context : Option Context) (nodes : Sequence) :
    Except Error Explanation :=
  let (steps, result) := recorded chain context nodes
  result.map (Explanation.ofSteps traced steps)

end Sequence
end Verdict
