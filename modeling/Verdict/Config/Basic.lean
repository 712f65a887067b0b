import Verdict.Text

/-!
The settings of the engine, and how they are taken from named values: unknown names are skipped, a
setting that is given twice is refused, and one that is not given has its standard value.
-/
namespace Verdict

structure Config where
  /-- Rules are compiled when they are first needed instead of when they are made. -/
  lazy : Bool
  /-- How many parentheses of a rule may be open at once. -/
  maxNestingDepth : Nat
  trace : Bool
deriving DecidableEq

namespace Config

def standard : Config where
  lazy := false
  maxNestingDepth := 64
  trace := false

def lazyKey : Text := "lazy".toList

def depthKey : Text := "max_nesting_depth".toList

def traceKey : Text := "trace".toList

structure Found where
  lazy : Option Bool
  maxNestingDepth : Option Nat
  trace : Option Bool

namespace Found
variable {Value : Type}

def nothing : Found := ⟨none, none, none⟩

def complete (found : Found) : Config where
  lazy := found.lazy.getD standard.lazy
  maxNestingDepth := found.maxNestingDepth.getD standard.maxNestingDepth
  trace := found.trace.getD standard.trace

def addMember? (toBool? : Value → Option Bool) (toWord? : Value → Option Nat) (found : Found)
    (name : Text) (value : Value) : Option Found :=
  if name = lazyKey then do
    guard found.lazy.isNone
    return { found with lazy := ← toBool? value }
  else if name = depthKey then do
    guard found.maxNestingDepth.isNone
    return { found with maxNestingDepth := ← toWord? value }
  else if name = traceKey then do
    guard found.trace.isNone
    return { found with trace := ← toBool? value }
  else some found

def addMembers? (toBool? : Value → Option Bool) (toWord? : Value → Option Nat) (found : Found) :
    List (Text × Value) → Option Found
  | [] => some found
  | (name, value) :: rest => do
    let found ← found.addMember? toBool? toWord? name value
    found.addMembers? toBool? toWord? rest

end Found
end Config
end Verdict
