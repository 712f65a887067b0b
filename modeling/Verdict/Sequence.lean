import Verdict.Operand
import Verdict.Operator
import Verdict.Table

/-!
The sequence that a rule spells: conditions and groups joined by connectives, flat, without
precedence. Only a group nests. A sequence that is built by hand may have any shape; the ones that
are valid start and end with a condition or a group.
-/
namespace Verdict

structure Condition where
  left : Operand
  operator : Operator
  right : Operand
deriving DecidableEq

inductive Node where
  | condition (c : Condition)
  | connective (joint : Connective)
  | group (body : List Node)

abbrev Sequence := List Node

namespace Condition

def paths (c : Condition) : List Text := c.left.paths ++ c.right.paths

def write (c : Condition) : Text :=
  c.left.write ++ ' ' :: (c.operator.write ++ ' ' :: c.right.write)

end Condition

namespace Node

mutual
def write : Node → Text
  | .condition c => c.write
  | .connective joint => joint.write
  | .group body => '(' :: (Text.joined [' '] (writeAll body) ++ [')'])

def writeAll : List Node → List Text
  | [] => []
  | node :: rest => write node :: writeAll rest
end

mutual
def paths : Node → List Text
  | .condition c => c.paths
  | .connective _ => []
  | .group body => allPaths body

def allPaths : List Node → List Text
  | [] => []
  | node :: rest => paths node ++ allPaths rest
end

mutual
def depth : Node → Nat
  | .group body => maxDepth body + 1
  | _ => 0

def maxDepth : List Node → Nat
  | [] => 0
  | node :: rest => max (depth node) (maxDepth rest)
end

mutual
def same (a b : Node) : Decidable (a = b) := by
  cases a with
  | group as =>
    cases b with
    | group bs =>
      exact match sameAll as bs with
        | isTrue h => isTrue (congrArg Node.group h)
        | isFalse h => isFalse fun e => h (Node.group.inj e)
    | _ => exact isFalse nofun
  | condition c =>
    cases b with
    | condition d => exact decidable_of_iff (c = d) ⟨congrArg _, Node.condition.inj⟩
    | _ => exact isFalse nofun
  | connective j =>
    cases b with
    | connective k => exact decidable_of_iff (j = k) ⟨congrArg _, Node.connective.inj⟩
    | _ => exact isFalse nofun

def sameAll : (as bs : List Node) → Decidable (as = bs)
  | [], [] => isTrue rfl
  | [], _ :: _ => isFalse nofun
  | _ :: _, [] => isFalse nofun
  | a :: as, b :: bs =>
    match same a b, sameAll as bs with
    | isTrue h, isTrue t => isTrue (by rw [h, t])
    | isFalse h, _ => isFalse fun e => h (List.cons.inj e).1
    | _, isFalse t => isFalse fun e => t (List.cons.inj e).2
end

instance : DecidableEq Node := same

end Node

namespace Sequence

def write (nodes : Sequence) : Text := Text.joined [' '] (Node.writeAll nodes)

def depth (nodes : Sequence) : Nat := Node.maxDepth nodes + 1

/-- The paths that the sequence mentions, each once, ascending. -/
def paths (nodes : Sequence) : List Text :=
  Table.names (Table.ofList ((Node.allPaths nodes).map (·, ())))

/-- What is wrong with the shape of a sequence. The path leads to the sequence through the groups
    around it. -/
inductive Fault where
  | empty (path : Text)
  | operandExpected (path : Text) (i : Nat)
  | connectiveExpected (path : Text) (i : Nat)
  | openEnd (path : Text)
deriving DecidableEq

def Fault.message : Fault → Text
  | .empty path => "表达式 '".toList ++ path ++ "' 不能为空".toList
  | .operandExpected path i =>
    "表达式 '".toList ++ path ++ "' 的第 ".toList ++ Text.ofNat i ++
      " 个节点应为条件或分组".toList
  | .connectiveExpected path i =>
    "表达式 '".toList ++ path ++ "' 的第 ".toList ++ Text.ofNat i ++
      " 个节点应为 and / or".toList
  | .openEnd path => "表达式 '".toList ++ path ++ "' 不能以 and / or 结尾".toList

/-- A sequence is not empty, and its nodes are valid before its end is looked at. -/
def validateAround (path : Text) (nodes : List Node) (inside : Except Fault Unit) :
    Except Fault Unit := do
  if nodes.isEmpty then throw (.empty path)
  inside
  if nodes.length % 2 = 0 then throw (.openEnd path)

mutual
def validateNode (path : Text) (i : Nat) : Node → Except Fault Unit
  | .connective _ => if i % 2 = 0 then throw (.operandExpected path i) else return
  | .condition _ => if i % 2 = 0 then return else throw (.connectiveExpected path i)
  | .group body =>
    let inner := path ++ '[' :: Text.ofNat i ++ [']']
    if i % 2 = 0 then validateAround inner body (validateNodes inner 0 body)
    else throw (.connectiveExpected path i)

def validateNodes (path : Text) (i : Nat) : List Node → Except Fault Unit
  | [] => return
  | node :: rest => do
    validateNode path i node
    validateNodes path (i + 1) rest
end

/-- Conditions and groups alternate with connectives, from the first node to the last. -/
def validate (path : Text) (nodes : Sequence) : Except Fault Unit :=
  validateAround path nodes (validateNodes path 0 nodes)

end Sequence
end Verdict
