import Verdict.Proofs.Account
import Verdict.Proofs.Footprint

/-!
Recording only observes. The scan that writes down its steps has the verdict and the error of the
plain one, on sequences of any shape; a trace adds its lines and changes nothing else. So a rule
explains what it tests, and keeps and reports the same while it does.
-/
namespace Verdict

theorem map_eq_ok_iff {ε α β : Type} {result : Except ε α} {f : α → β} {b : β} :
    result.map f = .ok b ↔ ∃ a, result = .ok a ∧ f a = b := by
  cases result <;> simp [Except.map]

namespace Sequence
open Evaluation
variable (chain : Resolver) (context : Option Context) (nodes : Sequence)

theorem explain_eq (traced : Bool) :
    nodes.explain traced chain context =
      (nodes.evaluate chain context).map
        (Explanation.ofSteps traced (nodes.recorded chain context).1) := by
  rw [← recorded_outcome, explain]

theorem explain_matched (traced : Bool) :
    (nodes.explain traced chain context).map Explanation.matched =
      nodes.evaluate chain context := by
  rw [explain_eq]
  cases nodes.evaluate chain context <;> rfl

end Sequence

namespace Rule

theorem run_map {α β : Type} (rule : Rule) (context : Option Context)
    (evaluate : Sequence → Except Error α) (f : α → β) :
    (rule.run context evaluate).map f = rule.run context fun nodes => (evaluate nodes).map f := by
  simp only [run]
  split <;> rfl

theorem test_eq_explain (rule : Rule) (context : Option Context) :
    rule.test context = (rule.explain context).map Evaluation.Explanation.matched := by
  unfold test explain
  split
  · rfl
  · rw [run_map]
    congr 1
    funext nodes
    exact (nodes.explain_matched rule.resolver context true).symm

end Rule

namespace Evaluation

/-- Recording changes no answer: with or without a trace it has the verdict and the error of the
    plain scan, and the trace has a say in nothing but its own lines. A rule that is tested and one
    that is explained agree in the same way, and also in what they keep and what they report. -/
theorem recording_only_observes :
    (∀ (chain : Resolver) (context : Option Context) (nodes : Sequence),
      (∀ traced matched, nodes.evaluate chain context = .ok matched ↔
          ∃ e, nodes.explain traced chain context = .ok e ∧ e.matched = matched) ∧
        (∀ traced failure, nodes.evaluate chain context = .error failure ↔
          nodes.explain traced chain context = .error failure) ∧
        (nodes.explain true chain context).map Explanation.answer =
          (nodes.explain false chain context).map Explanation.answer ∧
        (nodes.explain false chain context).map Explanation.trace =
          (nodes.evaluate chain context).map fun _ => []) ∧
      ∀ (rule : Rule) (context : Option Context),
        rule.test context = (rule.explain context).map Explanation.matched := by
  refine ⟨fun chain context nodes => ⟨fun traced matched => ?_, fun traced failure => ?_, ?_, ?_⟩,
    Rule.test_eq_explain⟩
  · rw [← nodes.explain_matched chain context traced]
    exact map_eq_ok_iff
  · rw [← nodes.explain_matched chain context traced]
    exact map_eq_error_iff
  · rw [nodes.explain_eq chain context true, nodes.explain_eq chain context false]
    cases nodes.evaluate chain context <;> rfl
  · rw [nodes.explain_eq chain context false]
    cases nodes.evaluate chain context <;> rfl

end Evaluation
end Verdict
