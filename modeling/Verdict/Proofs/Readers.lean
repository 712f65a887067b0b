import Mathlib
import Verdict.Grammar.Reader

/-!
What readers and their combinations come to, their outcomes only: what a match leaves for the
next reader, and where a reader fails.
-/
namespace Verdict.Grammar.Reader
variable {α β : Type}

@[simp] theorem pure_outcome (value : α) (t : Text) :
    ((pure value : Reader α) t).outcome = .matched value t := rfl

theorem bind_outcome (p : Reader α) (f : α → Reader β) (t : Text) :
    ((p >>= f) t).outcome =
      match (p t).outcome with
      | .matched value rest => (f value rest).outcome
      | .failed => .failed
      | .exhausted => .exhausted := by
  show (bind p f t).outcome = _
  unfold bind
  generalize p t = first
  obtain ⟨outcome, attempts⟩ := first
  cases outcome <;> rfl

theorem bind_of_matched {p : Reader α} {t rest : Text} {value : α}
    (read : (p t).outcome = .matched value rest) (f : α → Reader β) :
    ((p >>= f) t).outcome = (f value rest).outcome := by
  rw [bind_outcome, read]

theorem bind_of_failed {p : Reader α} {t : Text} (failed : (p t).outcome = .failed)
    (f : α → Reader β) : ((p >>= f) t).outcome = .failed := by
  rw [bind_outcome, failed]

theorem matched_of_bind {p : Reader α} {f : α → Reader β} {t rest : Text} {value : β}
    (read : ((p >>= f) t).outcome = .matched value rest) :
    ∃ first middle, (p t).outcome = .matched first middle ∧
      (f first middle).outcome = .matched value rest := by
  rw [bind_outcome] at read
  split at read
  · exact ⟨_, _, ‹_›, read⟩
  · cases read
  · cases read

theorem orElse_outcome (p q : Reader α) (t : Text) :
    (orElse p q t).outcome =
      match (p t).outcome with
      | .failed => (q t).outcome
      | outcome => outcome := by
  unfold orElse
  generalize p t = first
  obtain ⟨outcome, attempts⟩ := first
  cases outcome <;> rfl

theorem orElse_of_matched {p : Reader α} {t rest : Text} {value : α}
    (read : (p t).outcome = .matched value rest) (q : Reader α) :
    (orElse p q t).outcome = .matched value rest := by
  rw [orElse_outcome, read]

theorem orElse_of_failed {p : Reader α} {t : Text} (failed : (p t).outcome = .failed)
    (q : Reader α) : (orElse p q t).outcome = (q t).outcome := by
  rw [orElse_outcome, failed]

theorem matched_of_orElse {p q : Reader α} {t rest : Text} {value : α}
    (read : (orElse p q t).outcome = .matched value rest) :
    (p t).outcome = .matched value rest ∨
      (p t).outcome = .failed ∧ (q t).outcome = .matched value rest := by
  rw [orElse_outcome] at read
  split at read
  · exact .inr ⟨‹_›, read⟩
  · exact .inl read

@[simp] theorem token_outcome (f : Text → Option (α × Text)) (t : Text) :
    (token f t).outcome =
      match f t with
      | some (value, rest) => .matched value rest
      | none => .failed := by
  unfold token
  cases f t <;> rfl

theorem map_token_outcome (f : Text → Option (α × Text)) (g : α → β) (t : Text) :
    ((token f >>= fun value => pure (g value)) t).outcome =
      (token (fun t => (f t).map fun (value, rest) => (g value, rest)) t).outcome := by
  rw [bind_outcome, token_outcome, token_outcome]
  cases f t <;> rfl

theorem orElse_token {p q : Reader α} {f g : Text → Option (α × Text)} {t : Text}
    (first : (p t).outcome = (token f t).outcome) (second : (q t).outcome = (token g t).outcome) :
    (orElse p q t).outcome = (token (fun t => (f t).or (g t)) t).outcome := by
  rw [orElse_outcome, first, second, token_outcome, token_outcome, token_outcome]
  cases f t <;> rfl

theorem matched_of_token {f : Text → Option (α × Text)} {t rest : Text} {value : α}
    (read : (token f t).outcome = .matched value rest) : f t = some (value, rest) := by
  rw [token_outcome] at read
  split at read
  · cases read
    assumption
  · cases read

@[simp] theorem part_outcome (name : Part) (p : Reader α) (t : Text) :
    (part name p t).outcome = (p (Text.skipBlanks t)).outcome := by
  simp only [part]
  generalize p (Text.skipBlanks t) = reading
  obtain ⟨outcome, attempts⟩ := reading
  cases outcome <;> rfl

theorem part_token (name : Part) {p : Reader α} {f : Text → Option (α × Text)}
    (same : ∀ t, (p t).outcome = (token f t).outcome) (t : Text) :
    (part name p t).outcome = (token (fun t => f (Text.skipBlanks t)) t).outcome := by
  rw [part_outcome, same, token_outcome, token_outcome]

theorem symbol_of_skip {c : Char} {t rest : Text} (skip : Text.skipBlanks t = c :: rest) :
    (symbol c t).outcome = .matched () rest := by
  simp [symbol, skip]

theorem symbol_failed {c : Char} {t : Text} (other : ∀ d ∈ (Text.skipBlanks t).head?, d ≠ c) :
    (symbol c t).outcome = .failed := by
  unfold symbol
  split
  · rename_i d rest skip
    simp [other d (by simp [skip])]
  · rfl

theorem matched_of_symbol {c : Char} {t rest : Text} {value : Unit}
    (read : (symbol c t).outcome = .matched value rest) : Text.skipBlanks t = c :: rest := by
  unfold symbol at read
  split at read
  · split at read
    · rename_i skip same
      cases read
      rw [skip, same]
    · cases read
  · cases read

theorem matched_of_opening {allowed : Bool} {t rest : Text} {value : Unit}
    (read : (opening allowed t).outcome = .matched value rest) :
    allowed ∧ Text.skipBlanks t = '(' :: rest := by
  unfold opening at read
  simp only at read
  split at read
  · rename_i found
    cases allowed with
    | true => exact ⟨rfl, matched_of_symbol read⟩
    | false => cases read
  · rename_i found
    exact absurd read (found _ _)

theorem opening_of_skip {t rest : Text} (skip : Text.skipBlanks t = '(' :: rest) :
    (opening true t).outcome = .matched () rest := by
  have read := symbol_of_skip skip
  simp [opening, read]

theorem opening_failed {allowed : Bool} {t : Text}
    (other : ∀ d ∈ (Text.skipBlanks t).head?, d ≠ '(') : (opening allowed t).outcome = .failed := by
  have failed := symbol_failed other
  simp [opening, failed]

/-- The matches of a repeated reader, each from where the one before it ended. -/
inductive Chain (p : Reader α) : Text → List α → Text → Prop where
  | nil (t : Text) : Chain p t [] t
  | cons {t middle rest : Text} {value : α} {values : List α}
      (first : (p t).outcome = .matched value middle) (more : Chain p middle values rest) :
      Chain p t (value :: values) rest

theorem repeated_succ (p : Reader α) (limit : Nat) (t : Text) :
    (repeated p (limit + 1) t).outcome =
      match (p t).outcome with
      | .matched value rest =>
        match (repeated p limit rest).outcome with
        | .matched values rest => .matched (value :: values) rest
        | .failed => .failed
        | .exhausted => .exhausted
      | .failed => .matched [] t
      | .exhausted => .exhausted := by
  simp only [repeated]
  generalize p t = first
  obtain ⟨outcome, attempts⟩ := first
  cases outcome with
  | matched value rest =>
    simp only
    generalize repeated p limit rest = more
    obtain ⟨outcome, attempts⟩ := more
    cases outcome <;> rfl
  | failed => rfl
  | exhausted => rfl

theorem chain_of_repeated {p : Reader α} {limit : Nat} {t rest : Text} {values : List α}
    (read : (repeated p limit t).outcome = .matched values rest) : Chain p t values rest := by
  induction limit generalizing t values with
  | zero =>
    cases read
    exact .nil _
  | succ limit ih =>
    rw [repeated_succ] at read
    split at read
    · rename_i value middle first
      split at read
      · cases read
        exact .cons first (ih ‹_›)
      · cases read
      · cases read
    · cases read
      exact .nil _
    · cases read

end Verdict.Grammar.Reader
