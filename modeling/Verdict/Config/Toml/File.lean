import Verdict.Config.Load
import Verdict.Config.Toml.Scalar
import Verdict.Config.Toml.Slots

/-!
Configuration files in TOML: lines `key = value`, comments and headers. A file gives one layer: a
name at the top gives its value, and whatever has parts counts as compound.
-/
namespace Verdict.Toml
open Config (isNameChar)

def afterLine? (t : Text) : Option Text :=
  match Text.skipSpaces t with
  | [] => some []
  | '#' :: comment =>
    match comment.dropWhile fun c => !isControl c with
    | [] => some []
    | rest => afterBreak? rest
  | rest => afterBreak? rest

def skipLines : (fuel : Nat) → Text → Text
  | 0, t => t
  | fuel + 1, t =>
    match Text.skipSpaces t with
    | [] => []
    | c :: rest =>
      match afterLine? (c :: rest) with
      | some rest => skipLines fuel rest
      | none => c :: rest

def skipGap (t : Text) : Text := skipLines (t.length + 1) t

def readName? (t : Text) : Option (Text × Text) :=
  match readString? t with
  | some quoted => some quoted
  | none =>
    let name := t.takeWhile isNameChar
    if name.isEmpty then none else some (name, t.dropWhile isNameChar)

def maxNames : Nat := 81

def readNames? : (limit : Nat) → Text → Option (Key × Text)
  | 0, _ => none
  | limit + 1, t => do
    let (first, rest) ← readName? (Text.skipSpaces t)
    match Text.skipSpaces rest with
    | '.' :: rest =>
      let (key, rest) ← readNames? limit rest
      return (⟨first :: key.path, key.name⟩, rest)
    | rest => return (⟨[], first⟩, rest)

def readKey? (t : Text) : Option (Key × Text) := readNames? maxNames t

def maxDepth : Nat := 80

mutual
/-- A value that may open `depth` more lists and inline tables inside each other. -/
def readValue? : (fuel depth : Nat) → Text → Option (Setting × Text)
  | 0, _, _ => none
  | fuel + 1, depth, t =>
    match t with
    | '"' :: '"' :: '"' :: rest =>
      (readBlock? '"' rest).map fun (content, rest) => (.text content, rest)
    | '\'' :: '\'' :: '\'' :: rest =>
      (readBlock? '\'' rest).map fun (content, rest) => (.text content, rest)
    | '[' :: rest => do
      guard (0 < depth)
      let rest ← readItems? fuel (depth - 1) (skipGap rest)
      return (.compound, rest)
    | '\x7b' :: rest => do
      guard (0 < depth)
      let members := skipGap rest
      let rest ← readMembers? fuel (depth - 1) [] members
      return (if members.head? = some '\x7d' then .hollow else .compound, rest)
    | _ =>
      match readString? t with
      | some (content, rest) => some (.text content, rest)
      | none =>
        let (word, rest) := spanWord t
        (settingOfWord? word).map (·, rest)

def readItems? : (fuel depth : Nat) → Text → Option Text
  | 0, _, _ => none
  | fuel + 1, depth, t =>
    match t with
    | ']' :: rest => some rest
    | _ => do
      let (_, rest) ← readValue? fuel depth t
      match skipGap rest with
      | ',' :: rest => readItems? fuel depth (skipGap rest)
      | ']' :: rest => return rest
      | _ => none

def readMembers? : (fuel depth : Nat) → (before : Slots) → Text → Option Text
  | 0, _, _, _ => none
  | fuel + 1, depth, before, t =>
    match t with
    | '\x7d' :: rest => some rest
    | _ => do
      let (key, rest) ← readKey? t
      let (s, rest) ← readValue? fuel depth (skipGap (← afterChar? '=' (skipGap rest)))
      let slots ← before.assign? key s
      match skipGap rest with
      | ',' :: rest => readMembers? fuel depth slots (skipGap rest)
      | '\x7d' :: rest => return rest
      | _ => none
end

def readLines? : (fuel : Nat) → (scope : List Text) → Slots → Text → Option Slots
  | 0, _, _, _ => none
  | fuel + 1, scope, slots, t =>
    match skipGap t with
    | [] => some slots
    | '[' :: '[' :: rest => do
      let (key, rest) ← readKey? rest
      match rest with
      | ']' :: ']' :: rest =>
        readLines? fuel (key.path ++ [key.name]) (← slots.extend? key) (← afterLine? rest)
      | _ => none
    | '[' :: rest => do
      let (key, rest) ← readKey? rest
      match rest with
      | ']' :: rest =>
        readLines? fuel (key.path ++ [key.name]) (← slots.declare? key) (← afterLine? rest)
      | _ => none
    | rest => do
      let (key, rest) ← readKey? rest
      let rest := Text.skipSpaces (← afterChar? '=' rest)
      let (s, rest) ← readValue? (2 * rest.length + 2) maxDepth rest
      readLines? fuel scope (← slots.assignIn? scope key s) (← afterLine? rest)

def afterMark : Text → Text
  | '\ufeff' :: rest => rest
  | t => t

/-- The names at the top of a file and their values. A mark of byte order may stand before the file
    and before its text. -/
def entries? (t : Text) : Option (List (Text × Setting)) :=
  let t := afterMark (afterMark t)
  (readLines? (t.length + 1) [] [] t).map fun slots =>
    slots.map fun entry => (entry.1, entry.2.setting)

end Verdict.Toml
