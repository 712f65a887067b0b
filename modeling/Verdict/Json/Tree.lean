import Verdict.Json.Literal

/-!
JSON as it is written: members in order with repeats, escapes not yet joined to characters,
numbers as literals. A text has at most one tree; which trees have a value is decided later.
-/
namespace Verdict.Json

inductive Piece where
  | char (c : Char)
  | unit (code : Nat)
deriving DecidableEq

inductive Tree where
  | null
  | bool (b : Bool)
  | number (literal : Numeral)
  | str (pieces : List Piece)
  | array (items : List Tree)
  | object (members : List (List Piece × Tree))

namespace Tree

def hexValue? (c : Char) : Option Nat :=
  if '0' ≤ c ∧ c ≤ '9' then some (c.toNat - '0'.toNat)
  else if 'a' ≤ c ∧ c ≤ 'f' then some (c.toNat - 'a'.toNat + 10)
  else if 'A' ≤ c ∧ c ≤ 'F' then some (c.toNat - 'A'.toNat + 10)
  else none

def hexValues? (digits : Text) : Option Nat :=
  digits.foldlM (fun n c => (hexValue? c).map (16 * n + ·)) 0

def simpleEscape? : Char → Option Char
  | '"' => some '"'
  | '\\' => some '\\'
  | '/' => some '/'
  | 'b' => some '\x08'
  | 'f' => some '\x0c'
  | 'n' => some '\n'
  | 'r' => some '\r'
  | 't' => some '\t'
  | _ => none

def readPieces : Text → Option (List Piece × Text)
  | [] => none
  | '"' :: rest => some ([], rest)
  | '\\' :: 'u' :: a :: b :: c :: d :: rest => do
    let code ← hexValues? [a, b, c, d]
    let (pieces, rest) ← readPieces rest
    return (.unit code :: pieces, rest)
  | '\\' :: c :: rest => do
    let c ← simpleEscape? c
    let (pieces, rest) ← readPieces rest
    return (.char c :: pieces, rest)
  | c :: rest => do
    guard (' ' ≤ c)
    let (pieces, rest) ← readPieces rest
    return (.char c :: pieces, rest)

def afterWord? (word : Text) (t : Text) : Option Text :=
  if word.isPrefixOf t then some (t.drop word.length) else none

mutual
def readValue : Nat → Text → Option (Tree × Text)
  | 0, _ => none
  | fuel + 1, t =>
    match Text.skipBlanks t with
    | [] => none
    | '"' :: rest => do
      let (pieces, rest) ← readPieces rest
      return (.str pieces, rest)
    | '[' :: rest =>
      match Text.skipBlanks rest with
      | ']' :: rest => some (.array [], rest)
      | rest => do
        let (items, rest) ← readItems fuel rest
        return (.array items, rest)
    | '\x7b' :: rest =>
      match Text.skipBlanks rest with
      | '\x7d' :: rest => some (.object [], rest)
      | rest => do
        let (members, rest) ← readMembers fuel rest
        return (.object members, rest)
    | c :: rest =>
      if c = 'n' then (afterWord? "ull".toList rest).map (.null, ·)
      else if c = 't' then (afterWord? "rue".toList rest).map (.bool true, ·)
      else if c = 'f' then (afterWord? "alse".toList rest).map (.bool false, ·)
      else do
        let (literal, rest) ← Literal.read (c :: rest)
        return (.number literal, rest)

def readItems : Nat → Text → Option (List Tree × Text)
  | 0, _ => none
  | fuel + 1, t => do
    let (item, rest) ← readValue fuel t
    match Text.skipBlanks rest with
    | ',' :: rest =>
      let (items, rest) ← readItems fuel rest
      return (item :: items, rest)
    | ']' :: rest => return ([item], rest)
    | _ => none

def readMembers : Nat → Text → Option (List (List Piece × Tree) × Text)
  | 0, _ => none
  | fuel + 1, t =>
    match Text.skipBlanks t with
    | '"' :: rest => do
      let (name, rest) ← readPieces rest
      match Text.skipBlanks rest with
      | ':' :: rest =>
        let (value, rest) ← readValue fuel rest
        match Text.skipBlanks rest with
        | ',' :: rest =>
          let (members, rest) ← readMembers fuel rest
          return ((name, value) :: members, rest)
        | '\x7d' :: rest => return ([(name, value)], rest)
        | _ => none
      | _ => none
    | _ => none
end

/-- A level of nesting takes two steps and at least one character. -/
def ofText? (t : Text) : Option Tree := do
  let (tree, rest) ← readValue (2 * t.length + 2) t
  guard (Text.skipBlanks rest = [])
  return tree

end Tree
end Verdict.Json
