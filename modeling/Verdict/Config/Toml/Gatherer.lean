import Verdict.Config.Toml.File

/-!
A gatherer that can be run, for files in TOML. A key may be a path, such as `lazy.x` or `lazy[0]`,
which reaches into the value of its first name; of lists and tables with members only that they are
there is kept. What is said of settings in general does not depend on it.
-/
namespace Verdict.Config.TomlGatherer

inductive Source where
  | file (required : Bool) (content : Option Text)
  | environment (mark separator : Text) (guessing : Bool) (assignments : List (Text × Text))

def afterIndex? (t : Text) : Option Text := do
  let (negative, rest) := match Text.skipSpaces t with
    | '-' :: rest => (true, rest)
    | rest => (false, rest)
  let (digits, rest) := Text.spanDigits rest
  let i : Int := Text.natOfDigits digits
  guard (digits ≠ [] ∧ Number.fitsInt64 (if negative then -i else i))
  match Text.skipSpaces rest with
  | ']' :: rest => return rest
  | _ => none

def afterStep? : Text → Option Text
  | '.' :: rest => if rest.head?.any isNameChar then some (rest.dropWhile isNameChar) else none
  | '[' :: rest => afterIndex? rest
  | _ => none

def isSteps : (fuel : Nat) → Text → Bool
  | _, [] => true
  | 0, _ => false
  | fuel + 1, t =>
    match afterStep? t with
    | some rest => isSteps fuel rest
    | none => false

def root? (key : Text) : Option Text :=
  let steps := key.dropWhile isNameChar
  if key.head?.any isNameChar ∧ steps ≠ [] ∧ isSteps steps.length steps then
    some (key.takeWhile isNameChar)
  else none

def form : Setting → Form
  | .compound => .parts
  | .hollow => .hollow
  | _ => .plain

def put (members : List (Text × Setting)) (name : Text) (s : Setting) : List (Text × Setting) :=
  (name, s) :: members.filter (·.1 ≠ name)

def set (members : List (Text × Setting)) (key : Text) (s : Setting) : List (Text × Setting) :=
  match root? key with
  | some root => put members root .compound
  | none =>
    if s = .hollow ∧ (Table.find? key members).isSome then members else put members key s

def small (name : Text) : Text := Text.lowered (fun _ _ => false) [] name

/-- What a variable sets if its name in small letters starts with the given text. -/
def assignment? (start : Text) (guessing : Bool) (name value : Text) : Option (Text × Setting) :=
  if start.isPrefixOf (small name) then
    some ((small name).drop start.length,
      if guessing then Setting.ofVariable value else .text value)
  else none

def collect? : Source → Option (List (Text × Setting))
  | .file required none => if required then none else some []
  | .file _ (some t) => Toml.entries? t
  | .environment mark separator guessing assignments =>
    let start := small (mark ++ separator)
    let entries := assignments.filterMap fun entry => assignment? start guessing entry.1 entry.2
    some (entries.foldl (fun members entry => put members entry.1 entry.2) [])

def lay (members source : List (Text × Setting)) : List (Text × Setting) :=
  source.foldl (fun members entry => set members entry.1 entry.2) members

def build? (defaults : List (Text × Setting)) (sources : List Source) :
    Option (List (Text × Setting)) :=
  (sources.mapM collect?).map fun collected => collected.foldl lay (lay [] defaults)

end TomlGatherer

abbrev tomlGatherer : Gatherer where
  Raw := Setting
  form := TomlGatherer.form
  ofBool := .truth
  ofWord n := .int n
  toBool? := Setting.toBool?
  toWord? := Setting.toDepth?
  Source := TomlGatherer.Source
  file := .file
  environment := .environment
  collect? := TomlGatherer.collect?
  build? := TomlGatherer.build?
  guess := Setting.ofVariable
  final _ _ := false
  root? := TomlGatherer.root?
  set := TomlGatherer.set

end Verdict.Config
