import Verdict.Grammar.Attempts

/-!
Readers take a text from its start. A reader matches and leaves a rest, or fails, or runs out of
the parentheses it may open. Beside that outcome it says what it does to the attempts, so that
the outcome never depends on them. Choices are ordered and a match is never taken back.
-/
namespace Verdict.Grammar

inductive Outcome (α : Type) where
  | matched (value : α) (rest : Text)
  | failed
  | exhausted
deriving DecidableEq

structure Reading (α : Type) where
  outcome : Outcome α
  attempts : Attempts → Attempts

def Reader (α : Type) : Type := Text → Reading α

namespace Reader
variable {α β : Type}

def bind (p : Reader α) (f : α → Reader β) : Reader β := fun t =>
  let first := p t
  match first.outcome with
  | .matched value rest =>
    let second := f value rest
    ⟨second.outcome, second.attempts ∘ first.attempts⟩
  | .failed => ⟨.failed, first.attempts⟩
  | .exhausted => ⟨.exhausted, first.attempts⟩

instance : Monad Reader where
  pure value t := ⟨.matched value t, id⟩
  bind := bind

def fail : Reader α := fun _ => ⟨.failed, id⟩

def orElse (p q : Reader α) : Reader α := fun t =>
  let first := p t
  match first.outcome with
  | .failed =>
    let second := q t
    ⟨second.outcome, second.attempts ∘ first.attempts⟩
  | outcome => ⟨outcome, first.attempts⟩

def choice (ps : List (Reader α)) : Reader α := ps.foldr orElse fail

def repeated (p : Reader α) : Nat → Reader (List α)
  | 0 => pure []
  | limit + 1 => fun t =>
    let first := p t
    match first.outcome with
    | .matched value rest =>
      let more := repeated p limit rest
      match more.outcome with
      | .matched values rest => ⟨.matched (value :: values) rest, more.attempts ∘ first.attempts⟩
      | .failed => ⟨.failed, more.attempts ∘ first.attempts⟩
      | .exhausted => ⟨.exhausted, more.attempts ∘ first.attempts⟩
    | .failed => ⟨.matched [] t, first.attempts⟩
    | .exhausted => ⟨.exhausted, first.attempts⟩

/-- As many matches in a row as there are. Where each match takes a character, there are no more
    than the text has characters, and one more try finds none. -/
def many (p : Reader α) : Reader (List α) := fun t => repeated p (t.length + 1) t

def token (f : Text → Option (α × Text)) : Reader α := fun t =>
  match f t with
  | some (value, rest) => ⟨.matched value rest, id⟩
  | none => ⟨.failed, id⟩

/-- Skips blanks and reads a part by name: if it fails there, the attempt is noted. -/
def part (name : Part) (p : Reader α) : Reader α := fun t =>
  let t := Text.skipBlanks t
  let reading := p t
  match reading.outcome with
  | .failed =>
    ⟨.failed, fun before => .note name t.length before (reading.attempts before)⟩
  | outcome => ⟨outcome, reading.attempts⟩

def symbol (c : Char) : Reader Unit := fun t =>
  match Text.skipBlanks t with
  | first :: rest => if first = c then ⟨.matched () rest, id⟩ else ⟨.failed, id⟩
  | [] => ⟨.failed, id⟩

/-- An opening parenthesis, which is out of reach unless one may still be opened. -/
def opening (allowed : Bool) : Reader Unit := fun t =>
  let reading := symbol '(' t
  match reading.outcome with
  | .matched _ _ => if allowed then reading else ⟨.exhausted, reading.attempts⟩
  | _ => reading

end Reader
end Verdict.Grammar
