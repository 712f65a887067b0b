import Verdict.Config.Toml.Setting
import Verdict.Json.Tree

/-!
The values of TOML that have no parts: strings, on one line or in a block of lines, and words,
which spell truth values, numbers, dates and times.
-/
namespace Verdict.Toml

def isControl (c : Char) : Bool := (c < ' ' && c != '\t') || c == '\x7f'

def afterBreak? : Text → Option Text
  | '\n' :: rest => some rest
  | '\r' :: '\n' :: rest => some rest
  | _ => none

def simpleEscape? : Char → Option Char
  | 'b' => some '\x08'
  | 't' => some '\t'
  | 'n' => some '\n'
  | 'f' => some '\x0c'
  | 'r' => some '\r'
  | 'e' => some '\x1b'
  | '"' => some '"'
  | '\\' => some '\\'
  | _ => none

def escapeWidth? : Char → Option Nat
  | 'x' => some 2
  | 'u' => some 4
  | 'U' => some 8
  | _ => none

def readEscape? : Text → Option (Char × Text)
  | [] => none
  | c :: rest =>
    match escapeWidth? c with
    | none => (simpleEscape? c).map (·, rest)
    | some width => do
      guard (width ≤ rest.length)
      let code ← Json.Tree.hexValues? (rest.take width)
      guard code.isValidChar
      return (Char.ofNat code, rest.drop width)

def skipBreaks : (fuel : Nat) → Text → Text
  | 0, t => t
  | fuel + 1, t =>
    match afterBreak? (Text.skipSpaces t) with
    | some rest => skipBreaks fuel rest
    | none => Text.skipSpaces t

def afterFold? (t : Text) : Option Text :=
  (afterBreak? (Text.skipSpaces t)).map fun rest => skipBreaks (rest.length + 1) rest

/-- Quotes that end a string: one on a line, three in a block. Up to two more before the three
    belong to the content. -/
def closing? (quote : Char) (block : Bool) (t : Text) : Option (Text × Text) :=
  let run := (t.takeWhile (· == quote)).length
  if block then
    if 3 ≤ run then
      some (List.replicate (min run 5 - 3) quote, t.drop (min run 5))
    else none
  else if 1 ≤ run then some ([], t.drop 1)
  else none

/-- The content up to the closing quotes, and what follows them. Only double quotes know
    escapes. -/
def readContent? (quote : Char) (block : Bool) : (fuel : Nat) → Text → Option (Text × Text)
  | 0, _ => none
  | fuel + 1, t =>
    match closing? quote block t with
    | some closed => some closed
    | none =>
      match t with
      | [] => none
      | c :: rest =>
        if c = '\\' ∧ quote = '"' then
          match if block then afterFold? rest else none with
          | some rest => readContent? quote block fuel rest
          | none => do
            let (c, rest) ← readEscape? rest
            let (content, rest) ← readContent? quote block fuel rest
            return (c :: content, rest)
        else
          match if block then afterBreak? (c :: rest) else none with
          | some rest => do
            let (content, rest) ← readContent? quote block fuel rest
            return ('\n' :: content, rest)
          | none => do
            guard (!isControl c)
            let (content, rest) ← readContent? quote block fuel rest
            return (c :: content, rest)

def readString? : Text → Option (Text × Text)
  | '"' :: rest => readContent? '"' false (rest.length + 1) rest
  | '\'' :: rest => readContent? '\'' false (rest.length + 1) rest
  | _ => none

def readBlock? (quote : Char) (t : Text) : Option (Text × Text) :=
  readContent? quote true (t.length + 1) ((afterBreak? t).getD t)

def readDigits? (isDigit : Char → Bool) (t : Text) : Option (Text × Text) :=
  let run := t.takeWhile fun c => isDigit c || c == '_'
  let rest := t.dropWhile fun c => isDigit c || c == '_'
  let groups := run.splitOn '_'
  if groups.any List.isEmpty then none else some (groups.flatten, rest)

def inWord? (i : Int) : Option Setting :=
  if Number.fitsInt64 i then some (.int i) else none

def isHexDigit (c : Char) : Bool := (Json.Tree.hexValue? c).isSome

def naturalOfWord? (base : Nat) (t : Text) : Option Nat := do
  let (digits, rest) ← readDigits? isHexDigit t
  guard (rest = [])
  digits.foldlM (fun n c => do
    let d ← Json.Tree.hexValue? c
    guard (d < base)
    return base * n + d) 0

def decimalOfWord? (t : Text) : Option Setting := do
  let (negative, rest) := Text.spanSign t
  let (whole, rest) ← readDigits? Char.isDigit rest
  guard (whole.length = 1 ∨ whole.head? ≠ some '0')
  let (fraction, rest) ← match rest with
    | '.' :: rest => readDigits? Char.isDigit rest
    | _ => some ([], rest)
  let (exponent, rest) ← match rest with
    | c :: more =>
      if c = 'e' ∨ c = 'E' then do
        let (down, more) := Text.spanSign more
        let (digits, more) ← readDigits? Char.isDigit more
        pure (some (down, digits), more)
      else some (none, rest)
    | [] => some (none, [])
  guard (rest = [])
  if fraction = [] ∧ exponent = none then
    let i : Int := Text.natOfDigits whole
    inWord? (if negative then -i else i)
  else
    match Numeral.toBinary64 ⟨negative, whole, fraction, exponent⟩ with
    | .finite x => return .real (.finite x)
    | _ => none

def numberOfWord? (t : Text) : Option Setting :=
  let (negative, rest) := Text.spanSign t
  if rest = "inf".toList then some (.real (.infinity negative))
  else if rest = "nan".toList then some (.real .nan)
  else
    match t with
    | '0' :: 'x' :: rest => do inWord? (← naturalOfWord? 16 rest)
    | '0' :: 'o' :: rest => do inWord? (← naturalOfWord? 8 rest)
    | '0' :: 'b' :: rest => do inWord? (← naturalOfWord? 2 rest)
    | _ => decimalOfWord? t

def readField? (width : Nat) (t : Text) : Option (Nat × Text) :=
  let (digits, rest) := Text.spanDigits t
  if digits.length = width then some (Text.natOfDigits digits, rest) else none

def afterChar? (c : Char) : Text → Option Text
  | [] => none
  | first :: rest => if first = c then some rest else none

def daysIn (year month : Nat) : Nat :=
  if month = 2 then
    if (year % 4 = 0 ∧ year % 100 ≠ 0) ∨ year % 400 = 0 then 29 else 28
  else if month = 4 ∨ month = 6 ∨ month = 9 ∨ month = 11 then 30
  else 31

def afterDate? (t : Text) : Option Text := do
  let (year, rest) ← readField? 4 t
  let (month, rest) ← readField? 2 (← afterChar? '-' rest)
  let (day, rest) ← readField? 2 (← afterChar? '-' rest)
  guard (1 ≤ month ∧ month ≤ 12 ∧ 1 ≤ day ∧ day ≤ daysIn year month)
  return rest

def afterHourMinute? (t : Text) : Option Text := do
  let (hour, rest) ← readField? 2 t
  let (minute, rest) ← readField? 2 (← afterChar? ':' rest)
  guard (hour < 24 ∧ minute < 60)
  return rest

def afterTime? (t : Text) : Option Text := do
  match ← afterHourMinute? t with
  | ':' :: rest =>
    let (second, rest) ← readField? 2 rest
    guard (second ≤ 60)
    match rest with
    | '.' :: rest =>
      let (digits, rest) := Text.spanDigits rest
      guard (digits ≠ [])
      return rest
    | rest => return rest
  | rest => return rest

def afterOffset? : Text → Option Text
  | [] => some []
  | c :: rest =>
    if c = 'Z' ∨ c = 'z' then some rest
    else if c = '+' ∨ c = '-' then afterHourMinute? rest
    else none

def isMoment (t : Text) : Bool :=
  match afterDate? t with
  | some [] => true
  | some (mark :: rest) =>
    (mark == 'T' || mark == 't' || mark == ' ') && (afterTime? rest).bind afterOffset? == some []
  | none => afterTime? t == some []

def isWordChar (c : Char) : Bool := c.isAlphanum || c ∈ ['_', '-', '+', '.', ':']

/-- A word; a date takes the time after a blank with it. -/
def spanWord (t : Text) : Text × Text :=
  let word := t.takeWhile isWordChar
  match t.dropWhile isWordChar with
  | ' ' :: c :: rest =>
    if c.isDigit ∧ afterDate? word = some [] then
      (word ++ ' ' :: (c :: rest).takeWhile isWordChar, (c :: rest).dropWhile isWordChar)
    else (word, ' ' :: c :: rest)
  | rest => (word, rest)

/-- Dates and times count as the texts that spell them. -/
def settingOfWord? (word : Text) : Option Setting :=
  if word = "true".toList then some (.truth true)
  else if word = "false".toList then some (.truth false)
  else if isMoment word then some (.text word)
  else numberOfWord? word

end Verdict.Toml
