import Verdict.Binary64.Notation

/-!
Operands of a condition: literals, paths into the context, and lists of operands. A list that is
read from a rule holds no list; one that is built by hand may.
-/
namespace Verdict

inductive Operand where
  | int (i : Int64)
  | real (x : Binary64)
  | str (content : Text)
  | bool (b : Bool)
  | nothing
  | path (p : Text)
  | list (items : List Operand)

namespace Operand

mutual
def paths : Operand → List Text
  | .path p => [p]
  | .list items => listPaths items
  | _ => []

def listPaths : List Operand → List Text
  | [] => []
  | item :: rest => paths item ++ listPaths rest
end

/-- Reals of a rule always have a point, also before an exponent, which a rule could not read
    otherwise. They are plain from `0.0001` up to sixteen digits before the point. -/
def realNotation : Binary64.Notation where
  plainFrom := -4
  plainBelow := 16
  signedExponent := false
  pointedExponent := true
  tie := .away

def writeReal : Binary64 → Text
  | .finite x => realNotation.write x
  | .infinity negative => if negative then "-inf.0".toList else "inf.0".toList
  | .nan => "NaN.0".toList

/-- Between single quotes if the content has a double quote; the content stands as it is. -/
def quoted (content : Text) : Text :=
  if '"' ∈ content then '\'' :: (content ++ ['\'']) else '"' :: (content ++ ['"'])

mutual
def write : Operand → Text
  | .int i => Text.ofInt i.toInt
  | .real x => writeReal x
  | .str content => quoted content
  | .bool true => "true".toList
  | .bool false => "false".toList
  | .nothing => "none".toList
  | .path p => p
  | .list items => '(' :: (Text.joined ", ".toList (writeItems items) ++ [')'])

def writeItems : List Operand → List Text
  | [] => []
  | item :: rest => write item :: writeItems rest
end

mutual
def same (a b : Operand) : Decidable (a = b) := by
  cases a with
  | list as =>
    cases b with
    | list bs =>
      exact match sameItems as bs with
        | isTrue h => isTrue (congrArg Operand.list h)
        | isFalse h => isFalse fun e => h (Operand.list.inj e)
    | _ => exact isFalse nofun
  | int i =>
    cases b with
    | int j => exact decidable_of_iff (i = j) ⟨congrArg _, Operand.int.inj⟩
    | _ => exact isFalse nofun
  | real x =>
    cases b with
    | real y => exact decidable_of_iff (x = y) ⟨congrArg _, Operand.real.inj⟩
    | _ => exact isFalse nofun
  | str s =>
    cases b with
    | str t => exact decidable_of_iff (s = t) ⟨congrArg _, Operand.str.inj⟩
    | _ => exact isFalse nofun
  | bool p =>
    cases b with
    | bool q => exact decidable_of_iff (p = q) ⟨congrArg _, Operand.bool.inj⟩
    | _ => exact isFalse nofun
  | nothing =>
    cases b with
    | nothing => exact isTrue rfl
    | _ => exact isFalse nofun
  | path p =>
    cases b with
    | path q => exact decidable_of_iff (p = q) ⟨congrArg _, Operand.path.inj⟩
    | _ => exact isFalse nofun

def sameItems : (as bs : List Operand) → Decidable (as = bs)
  | [], [] => isTrue rfl
  | [], _ :: _ => isFalse nofun
  | _ :: _, [] => isFalse nofun
  | a :: as, b :: bs =>
    match same a b, sameItems as bs with
    | isTrue h, isTrue t => isTrue (by rw [h, t])
    | isFalse h, _ => isFalse fun e => h (List.cons.inj e).1
    | _, isFalse t => isFalse fun e => t (List.cons.inj e).2
end

instance : DecidableEq Operand := same

end Operand
end Verdict
