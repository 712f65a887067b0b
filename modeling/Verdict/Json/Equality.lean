import Verdict.Json.Basic

/-!
Two ways in which values are the same. `equal` compares numbers and truth values by what they
count as, `identical` also asks that every part is of one kind.
-/
namespace Verdict.Json

def sameNumber (a b : Number) : Bool := a.order b == .eq

mutual
def equal : Json → Json → Bool
  | .null, .null => true
  | .str a, .str b => a == b
  | .array as, .array bs => as.length == bs.length && equalItems as bs
  | .object as, .object bs => as.length == bs.length && equalMembers as bs
  | a, b =>
    match number? a, number? b with
    | some m, some n => sameNumber m n
    | _, _ => false

/-- Item by item, up to the end of the shorter list. -/
def equalItems : List Json → List Json → Bool
  | a :: as, b :: bs => equal a b && equalItems as bs
  | _, _ => true

/-- Every member on the left has an equal one on the right. -/
def equalMembers : List (Text × Json) → List (Text × Json) → Bool
  | [], _ => true
  | (name, value) :: rest, others =>
    (match Table.find? name others with
      | some other => equal value other
      | none => false) && equalMembers rest others
end

mutual
def identical : Json → Json → Bool
  | .null, .null => true
  | .bool a, .bool b => a == b
  | .number a, .number b => a.isReal == b.isReal && sameNumber a b
  | .str a, .str b => a == b
  | .array as, .array bs => as.length == bs.length && identicalItems as bs
  | .object as, .object bs => as.length == bs.length && identicalMembers as bs
  | _, _ => false

def identicalItems : List Json → List Json → Bool
  | a :: as, b :: bs => identical a b && identicalItems as bs
  | _, _ => true

def identicalMembers : List (Text × Json) → List (Text × Json) → Bool
  | [], _ => true
  | (name, value) :: rest, others =>
    (match Table.find? name others with
      | some other => identical value other
      | none => false) && identicalMembers rest others
end

end Verdict.Json
