import Verdict.Table
import Verdict.Number

/-!
Values of JSON. The members of an object are a table: their names strictly ascend, so an object
has one representation. `Json.Canonical` says so at every depth, and that integers fit a word.
-/
namespace Verdict

inductive Json where
  | null
  | bool (b : Bool)
  | number (n : Number)
  | str (content : Text)
  | array (items : List Json)
  | object (members : List (Text × Json))

namespace Json

mutual
def Canonical : Json → Prop
  | .number n => n.InRange
  | .array items => CanonicalItems items
  | .object members => Table.Ascending members ∧ CanonicalMembers members
  | _ => True

def CanonicalItems : List Json → Prop
  | [] => True
  | item :: rest => Canonical item ∧ CanonicalItems rest

def CanonicalMembers : List (Text × Json) → Prop
  | [] => True
  | (_, value) :: rest => Canonical value ∧ CanonicalMembers rest
end

mutual
def decideCanonical : (v : Json) → Decidable v.Canonical
  | .null | .bool _ | .str _ => inferInstanceAs (Decidable True)
  | .number n => inferInstanceAs (Decidable n.InRange)
  | .array items => decideCanonicalItems items
  | .object members =>
    have := decideCanonicalMembers members
    inferInstanceAs (Decidable (_ ∧ _))

def decideCanonicalItems : (items : List Json) → Decidable (CanonicalItems items)
  | [] => inferInstanceAs (Decidable True)
  | item :: rest =>
    have := decideCanonical item
    have := decideCanonicalItems rest
    inferInstanceAs (Decidable (_ ∧ _))

def decideCanonicalMembers : (members : List (Text × Json)) → Decidable (CanonicalMembers members)
  | [] => inferInstanceAs (Decidable True)
  | (_, value) :: rest =>
    have := decideCanonical value
    have := decideCanonicalMembers rest
    inferInstanceAs (Decidable (_ ∧ _))
end

instance : DecidablePred Canonical := decideCanonical

inductive Kind where
  | nothing
  | bool
  | int
  | real
  | text
  | list
  | object
deriving DecidableEq

def Kind.name : Kind → Text
  | .nothing => "none".toList
  | .bool => "bool".toList
  | .int => "int".toList
  | .real => "float".toList
  | .text => "string".toList
  | .list => "list".toList
  | .object => "object".toList

def kind : Json → Kind
  | .null => .nothing
  | .bool _ => .bool
  | .number (.int _) => .int
  | .number (.real _) => .real
  | .str _ => .text
  | .array _ => .list
  | .object _ => .object

def number? : Json → Option Number
  | .bool b => some (.int (if b then 1 else 0))
  | .number n => some n
  | _ => none

def isEmpty : Json → Bool
  | .null => true
  | .bool b => !b
  | .number (.int i) => i == 0
  | .number (.real x) => x.isZero
  | .str content => content.isEmpty
  | .array items => items.isEmpty
  | .object members => members.isEmpty

end Json
end Verdict
