import Verdict.Config.Basic
import Verdict.Table
import Verdict.Text.Case

/-!
Settings from what is built in, a file above it, and variables of the environment on top. The
sources are read, laid over each other and converted by a gatherer, which is a parameter here: what
is relied on are its laws.
-/
namespace Verdict.Config

def isNameChar (c : Char) : Bool := c.isAlphanum || c == '_' || c == '-'

inductive Form where
  | plain
  /-- A list, or a table with members. -/
  | parts
  /-- A table without members. -/
  | hollow
deriving DecidableEq

/-- What gathers raw values. Those that are gathered are called members. They have names, and their
    order means nothing. -/
structure Gatherer where
  Raw : Type
  form : Raw → Form
  ofBool : Bool → Raw
  ofWord : Nat → Raw
  toBool? : Raw → Option Bool
  toWord? : Raw → Option Nat
  Source : Type
  /-- A file that must be there or may be missing, and its content if it is there. -/
  file : (required : Bool) → (content : Option Text) → Source
  /-- The variables whose names start with a mark and a separator, their texts taken as they are or
      guessed to be values of other types. -/
  environment : (mark separator : Text) → (guessing : Bool) → List (Text × Text) → Source
  collect? : Source → Option (List (Text × Raw))
  /-- The members of defaults and of sources above them, from the lowest to the highest. -/
  build? : (defaults : List (Text × Raw)) → List Source → Option (List (Text × Raw))
  guess : Text → Raw
  /-- Whether a capital sigma ends a word, told from what stands before and behind it. -/
  final : Text → Text → Bool
  /-- The name that a path into a value starts with, for a key that is such a path. -/
  root? : Text → Option Text
  set : List (Text × Raw) → (key : Text) → Raw → List (Text × Raw)

namespace Gatherer

def small (g : Gatherer) (name : Text) : Text := Text.lowered g.final [] name

/-- No two variables differ in the case of their letters only. -/
def Apart (g : Gatherer) (environment : List (Text × Text)) : Prop :=
  environment.Pairwise fun a b => g.small a.1 ≠ g.small b.1

def lay (g : Gatherer) (members source : List (Text × g.Raw)) : List (Text × g.Raw) :=
  source.foldl (fun members entry => g.set members entry.1 entry.2) members

structure Lawful (g : Gatherer) : Prop where
  collected_once {source : g.Source} {members : List (Text × g.Raw)} :
    g.collect? source = some members → (Table.names members).Nodup
  missing_file : g.collect? (g.file false none) = some []
  /-- The key of a variable is what its name in small letters goes on with behind the mark and the
      separator. If no two variables differ in case only, all keys are members. -/
  variables_collected (mark separator : Text) {environment : List (Text × Text)} :
    g.Apart environment →
      ∃ members, g.collect? (g.environment mark separator true environment) = some members ∧
        ∀ key raw, (key, raw) ∈ members ↔ ∃ name text, (name, text) ∈ environment ∧
          g.small name = g.small (mark ++ separator) ++ key ∧ g.guess text = raw
  /-- The defaults are laid over nothing, and each source over what stands before it. -/
  built_in_turn (defaults : List (Text × g.Raw)) (sources : List g.Source) :
    g.build? defaults sources =
      (sources.mapM g.collect?).map fun collected => collected.foldl g.lay (g.lay [] defaults)
  set_once {members : List (Text × g.Raw)} {key : Text} {raw : g.Raw} :
    (Table.names members).Nodup → (Table.names (g.set members key raw)).Nodup
  set_plain {members : List (Text × g.Raw)} {key : Text} {raw : g.Raw} :
    g.root? key = none → g.form raw = .plain → (key, raw) ∈ g.set members key raw
  /-- A table is laid over what stands there, and whatever that was, a table with members or a list
      comes of it. -/
  set_parts {members : List (Text × g.Raw)} {key : Text} {raw : g.Raw} :
    g.root? key = none → g.form raw = .parts →
      ∃ whole, g.form whole = .parts ∧ (key, whole) ∈ g.set members key raw
  /-- A table without members adds nothing to what stands there. -/
  set_hollow {members : List (Text × g.Raw)} {key : Text} {raw old : g.Raw} :
    g.root? key = none → g.form raw = .hollow → (key, old) ∈ members →
      (key, old) ∈ g.set members key raw
  /-- A path makes a table or a list of what stands at its root. -/
  set_path {members : List (Text × g.Raw)} {key root : Text} {raw : g.Raw} :
    g.root? key = some root →
      ∃ whole, g.form whole = .parts ∧ (root, whole) ∈ g.set members key raw
  set_other {members : List (Text × g.Raw)} {key name : Text} {raw old : g.Raw} :
    name ≠ (g.root? key).getD key → (name, old) ∈ members → (name, old) ∈ g.set members key raw
  /-- A name by itself is no path. -/
  root_of_name {name : Text} : (∀ c ∈ name, isNameChar c) → g.root? name = none
  plain_ofBool (b : Bool) : g.form (g.ofBool b) = .plain
  plain_ofWord (n : Nat) : g.form (g.ofWord n) = .plain
  toBool_parts {raw : g.Raw} : g.form raw = .parts → g.toBool? raw = none
  toWord_parts {raw : g.Raw} : g.form raw = .parts → g.toWord? raw = none

def standardMembers (g : Gatherer) : List (Text × g.Raw) :=
  [(lazyKey, g.ofBool standard.lazy), (depthKey, g.ofWord standard.maxNestingDepth),
    (traceKey, g.ofBool standard.trace)]

def variableSource (g : Gatherer) (environment : List (Text × Text)) : g.Source :=
  g.environment "BOOLRULE".toList "_".toList true environment

def load? (g : Gatherer) (file : Option Text) (environment : List (Text × Text)) :
    Option Config := do
  let members ← g.build? g.standardMembers [g.file false file, g.variableSource environment]
  let found ← Found.nothing.addMembers? g.toBool? g.toWord? members
  return found.complete

end Gatherer
end Verdict.Config
