import Verdict.Evaluation
import Verdict.Proofs.Shape

/-!
The scan as an expression. A sequence means what its connectives say when each takes everything
after it as its right side: the right side counts only where the left one leaves it open.
-/
namespace Verdict.Evaluation
variable {ε : Type}

mutual
def termMeaning (holds : Condition → Except ε Bool) : Node → Except ε Bool
  | .condition c => holds c
  | .group body => meaning holds body
  | .connective _ => .ok false

/-- Connectives group to the right. A sequence that no rule spells means what its first node
    does. -/
def meaning (holds : Condition → Except ε Bool) : List Node → Except ε Bool
  | [] => .ok false
  | term :: .connective .and :: rest =>
    match termMeaning holds term with
    | .ok true => meaning holds rest
    | settled => settled
  | term :: .connective .or :: rest =>
    match termMeaning holds term with
    | .ok false => meaning holds rest
    | settled => settled
  | term :: _ => termMeaning holds term
end

theorem meaning_single (holds : Condition → Except ε Bool) (term : Node) :
    meaning holds [term] = termMeaning holds term := by
  rw [meaning] <;> nofun

theorem meaning_joined (holds : Condition → Except ε Bool) (term : Node) (joint : Connective)
    (rest : List Node) :
    meaning holds (term :: .connective joint :: rest) =
      match termMeaning holds term with
      | .ok passed => if joint.settledBy passed then .ok passed else meaning holds rest
      | .error e => .error e := by
  cases joint with
  | and =>
    rw [meaning]
    rcases termMeaning holds term with e | (_ | _) <;> rfl
  | or =>
    rw [meaning]
    rcases termMeaning holds term with e | (_ | _) <;> rfl

theorem scan_term {holds : Condition → Except ε Bool} {passed : Bool} {term : Node}
    (isTerm : term.settling? passed = none) (rest : List Node) :
    scan holds passed (term :: rest) =
      outcome holds passed term >>= fun found => scan holds found rest := by
  rw [scan, isTerm]

theorem scan_single {holds : Condition → Except ε Bool} {passed : Bool} {term : Node}
    (isTerm : term.settling? passed = none) :
    scan holds passed [term] = outcome holds passed term := by
  rw [scan_term isTerm]
  exact bind_pure (outcome holds passed term)

theorem scan_connective (holds : Condition → Except ε Bool) (passed : Bool) (joint : Connective)
    (rest : List Node) :
    scan holds passed (.connective joint :: rest) =
      if joint.settledBy passed then .ok passed else scan holds passed rest := by
  by_cases settled : joint.settledBy passed
  · simp only [scan, Node.settling?, settled, ↓reduceIte]
  · simp only [scan, Node.settling?, settled, Bool.false_eq_true, ↓reduceIte, outcome]
    rfl

theorem settling_term {valid : Condition → Prop} {term : Node}
    (alternating : AlternatingOf valid [term]) (passed : Bool) : term.settling? passed = none := by
  cases alternating <;> rfl

theorem scan_eq_meaning {valid : Condition → Prop} (holds : Condition → Except ε Bool)
    {nodes : List Node} (alternating : AlternatingOf valid nodes) (passed : Bool) :
    scan holds passed nodes = meaning holds nodes := by
  induction alternating generalizing passed with
  | condition => rw [meaning_single, scan_single rfl, outcome, termMeaning]
  | group _ ih => rw [meaning_single, scan_single rfl, outcome, termMeaning, ih]
  | @joined term joint others first _ ihFirst ihOthers =>
    have isTerm := settling_term first passed
    have decided : outcome holds passed term = termMeaning holds term := by
      rw [← meaning_single, ← ihFirst passed, scan_single isTerm]
    rw [meaning_joined, scan_term isTerm, decided]
    cases termMeaning holds term with
    | error e => rfl
    | ok found =>
      show scan holds found (.connective joint :: others) = _
      rw [scan_connective, ihOthers found]

/-- Evaluation is the right-associative expression: a term that settles the sequence hides every
    error after it, and the first error that is reached is the outcome. -/
theorem evaluate_eq_meaning (chain : Resolver) (context : Option Context) :
    (∀ nodes, Alternating nodes →
      Sequence.evaluate chain context nodes = meaning (Condition.holds chain context) nodes) ∧
    ∀ limit query nodes, Query.parse limit query = .ok nodes → Alternating nodes :=
  ⟨fun _ alternating => scan_eq_meaning _ alternating false,
    fun _ _ _ read => (Query.wellFormed_of_parse read).mono fun _ _ => trivial⟩

def halfReached : Sequence :=
  [.group [.condition ⟨.int 1, .equal, .int 1⟩, .connective .or,
    .condition ⟨.path "a".toList, .equal, .int 1⟩], .connective .and,
    .condition ⟨.path "b".toList, .equal, .int 2⟩]

theorem evaluate_half_reached :
    Query.parse 64 "(1 = 1 or a = 1) and b = 2".toList = .ok halfReached ∧
      Alternating halfReached ∧
      Sequence.evaluate .standard none halfReached =
        meaning (Condition.holds .standard none) halfReached ∧
      Sequence.evaluate .standard none halfReached = .error (.missing (.noContext "b".toList)) := by
  have reached : Sequence.evaluate .standard none halfReached =
      .error (.missing (.noContext "b".toList)) := by cbv
  have read : Query.parse 64 "(1 = 1 or a = 1) and b = 2".toList = .ok halfReached := by cbv
  have alternating := (evaluate_eq_meaning .standard none).2 _ _ _ read
  exact ⟨read, alternating, (evaluate_eq_meaning .standard none).1 _ alternating, reached⟩

end Verdict.Evaluation
