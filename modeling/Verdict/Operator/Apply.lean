import Verdict.Json.Equality
import Verdict.Operator

/-!
What an operator says of two values. Ordering, membership and the set operators are partial: a
mismatch names the operator and the kinds it could not handle.
-/
namespace Verdict

inductive Demand where
  | kind (k : Json.Kind)
  | iterable
deriving DecidableEq

def Demand.name : Demand → Text
  | .kind k => k.name
  | .iterable => "iterable".toList

structure Mismatch where
  operator : Operator
  left : Json.Kind
  right : Demand
deriving DecidableEq

namespace Operator

def mismatch (op : Operator) (left right : Json) : Mismatch := ⟨op, left.kind, .kind right.kind⟩

mutual
def order (op : Operator) : Json → Json → Except Mismatch Ordering
  | .str a, .str b => .ok (Text.order a b)
  | .array as, .array bs => orderItems op as bs
  | a, b =>
    match a.number?, b.number? with
    | some m, some n => .ok (m.order n)
    | _, _ => .error (op.mismatch a b)

/-- The first two unequal items decide; without any, the lengths do. -/
def orderItems (op : Operator) : List Json → List Json → Except Mismatch Ordering
  | [], [] => .ok .eq
  | [], _ :: _ => .ok .lt
  | _ :: _, [] => .ok .gt
  | a :: as, b :: bs => if a.equal b then orderItems op as bs else order op a b
end

def contains (op : Operator) (container item : Json) : Except Mismatch Bool :=
  match container, item with
  | .array items, _ => .ok (items.any item.equal)
  | .str content, .str part => .ok (Text.occurs part content)
  | .object members, .str name => .ok (Table.find? name members).isSome
  | .object _, _ => .ok false
  | _, _ => .error (op.mismatch item container)

/-- What a value consists of: the items of a list, the characters of a text, the names in an
    object. -/
def elements (op : Operator) : Json → Except Mismatch (List Json)
  | .array items => .ok items
  | .str content => .ok (content.map fun c => .str [c])
  | .object members => .ok ((Table.names members).map .str)
  | value => .error ⟨op, value.kind, .iterable⟩

/-- Asks item after item and stops at the first that is missing. -/
def containsAll (op : Operator) (container : Json) : List Json → Except Mismatch Bool
  | [] => .ok true
  | item :: rest => do
    if ← op.contains container item then containsAll op container rest else return false

def containsAny (op : Operator) (container : Json) : List Json → Except Mismatch Bool
  | [] => .ok false
  | item :: rest => do
    if ← op.contains container item then return true else containsAny op container rest

def apply (op : Operator) (left right : Json) : Except Mismatch Bool :=
  match op with
  | .equal => .ok (left.equal right)
  | .unequal => .ok (!left.equal right)
  | .greater => (op.order left right).map (· == .gt)
  | .greaterOrEqual => (op.order left right).map (· != .lt)
  | .less => (op.order left right).map (· == .lt)
  | .lessOrEqual => (op.order left right).map (· != .gt)
  | .member => op.contains right left
  | .notMember => (op.contains right left).map (!·)
  | .identical => .ok (left.identical right)
  | .notIdentical => .ok (!left.identical right)
  | .subset => do op.containsAll right (← op.elements left)
  | .superset => do op.containsAll left (← op.elements right)
  | .intersects => do op.containsAny right (← op.elements left)

end Operator
end Verdict
