import Verdict.Proofs.Acceptance
import Verdict.Proofs.Nesting

/-!
The language of rules: a query is accepted where it spells a sequence whose parentheses are within
the limit, and that sequence is what it gives.
-/
namespace Verdict.Query
open Grammar

theorem spells_of_parse {limit : Nat} {query : Text} {nodes : Sequence}
    (read : parse limit query = .ok nodes) : Spells query nodes := by
  unfold parse at read
  split at read
  · cases read
  · simp only at read
    split at read
    · rename_i spelled rest matched
      cases spelled with
      | error e => cases read
      | ok found =>
        cases read
        exact main_sound matched
    · cases read
    · cases read

theorem parse_of_spells {limit : Nat} {query : Text} {nodes : Sequence}
    (spelled : Spells query nodes) :
    parse limit query =
      if nodes.nesting ≤ limit then .ok nodes else .error (.nestingTooDeep limit) := by
  unfold parse
  rw [nestsBeyond_spelled spelled]
  by_cases within : nodes.nesting ≤ limit
  · simp only [Nat.not_lt.mpr within, within, main_complete spelled within, decide_false,
      Bool.false_eq_true, ↓reduceIte]
    rfl
  · simp only [Nat.lt_of_not_le within, within, decide_true, ↓reduceIte]

theorem parse_iff {limit : Nat} {query : Text} {nodes : Sequence} :
    parse limit query = .ok nodes ↔ Spells query nodes ∧ nodes.nesting ≤ limit := by
  constructor
  · intro read
    have spelled := spells_of_parse read
    rw [parse_of_spells spelled] at read
    split at read
    · exact ⟨spelled, ‹_›⟩
    · cases read
  · rintro ⟨spelled, within⟩
    rw [parse_of_spells spelled, if_pos within]

theorem spells_unique {query : Text} {a b : Sequence} (first : Spells query a)
    (second : Spells query b) : a = b := by
  have readFirst : parse (max a.nesting b.nesting) query = _ := parse_of_spells first
  have readSecond : parse (max a.nesting b.nesting) query = _ := parse_of_spells second
  rw [if_pos (Nat.le_max_left _ _)] at readFirst
  rw [if_pos (Nat.le_max_right _ _), readFirst] at readSecond
  exact Except.ok.inj readSecond

/-- A query is accepted if and only if it spells a sequence within the limit; it spells at most
    one, and beyond the limit that is what the error says. -/
theorem parse_accepts_spelled (limit : Nat) (query : Text) :
    (∀ nodes, parse limit query = .ok nodes ↔ Spells query nodes ∧ nodes.nesting ≤ limit) ∧
      (∀ a b, Spells query a → Spells query b → a = b) ∧
      ∀ nodes, Spells query nodes → limit < nodes.nesting →
        parse limit query = .error (.nestingTooDeep limit) := by
  refine ⟨fun _ => parse_iff, fun _ _ => spells_unique, fun nodes spelled beyond => ?_⟩
  rw [parse_of_spells spelled, if_neg (Nat.not_le_of_lt beyond)]

example : parse 8 "in in in and or = and".toList =
    .ok [.condition ⟨.path ['i', 'n'], .member, .path ['i', 'n']⟩, .connective .and,
      .condition ⟨.path ['o', 'r'], .equal, .path ['a', 'n', 'd']⟩] := by
  cbv

end Verdict.Query
