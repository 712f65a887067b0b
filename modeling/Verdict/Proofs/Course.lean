import Verdict.Proofs.ShortCircuit
import Verdict.Proofs.TraceLine

/-!
The course of a scan that ends without an error: which steps it takes, where they stand and what
comes last. A term takes the steps of its condition or of its group. A connective takes a step only
if it ends the scan, and otherwise hands over to the rest.
-/
namespace Verdict.Evaluation
variable {ε : Type}

/-- The steps of a scan from the given index of a level on, and the verdict at its end. -/
inductive Course (examine : Condition → Except ε Finding) :
    Address → Nat → Sequence → List Step → Bool → Prop where
  | condition {address : Address} {index : Nat} {c : Condition} {finding : Finding}
      (examined : examine c = .ok finding) :
      Course examine address index [.condition c] [.tested (address ++ [index]) c finding]
        finding.matched
  | group {address : Address} {index : Nat} {body : Sequence} {steps : List Step} {verdict : Bool}
      (inside : Course examine (address ++ [index]) 0 body steps verdict) :
      Course examine address index [.group body] steps verdict
  | stopped {address : Address} {index : Nat} {term : Node} {joint : Connective}
      {others : Sequence} {steps : List Step} {found : Bool}
      (first : Course examine address index [term] steps found)
      (settled : joint.settledBy found = true) :
      Course examine address index (term :: .connective joint :: others)
        (steps ++ [.stopped (address ++ [index + 1]) joint]) found
  | joined {address : Address} {index : Nat} {term : Node} {joint : Connective}
      {others : Sequence} {steps more : List Step} {found verdict : Bool}
      (first : Course examine address index [term] steps found)
      (unsettled : joint.settledBy found = false)
      (rest : Course examine address (index + 2) others more verdict) :
      Course examine address index (term :: .connective joint :: others) (steps ++ more) verdict

variable {examine : Condition → Except ε Finding} {address : Address} {index : Nat}
  {nodes others : Sequence} {term : Node} {joint : Connective} {steps : List Step}
  {passed verdict : Bool}

theorem record_term (isTerm : term.settling? passed = none)
    (recorded : record examine address index passed (term :: others) = (steps, .ok verdict)) :
    ∃ first found more, recordNode examine (address ++ [index]) passed term = (first, .ok found) ∧
      record examine address (index + 1) found others = (more, .ok verdict) ∧
      steps = first ++ more := by
  simp only [record, isTerm] at recorded
  split at recorded
  case h_1 => cases recorded
  case h_2 first found here =>
    obtain ⟨rfl, result⟩ := Prod.mk.inj recorded
    refine ⟨first, found, _, here, Prod.ext rfl result, rfl⟩

theorem record_single (isTerm : term.settling? passed = none) {found : Bool}
    (here : recordNode examine (address ++ [index]) passed term = (steps, .ok found)) :
    record examine address index passed [term] = (steps, .ok found) := by
  simp only [record, isTerm, here, List.append_nil]

theorem record_connective (examine : Condition → Except ε Finding) (address : Address)
    (index : Nat) (passed : Bool) (joint : Connective) (others : Sequence) :
    record examine address index passed (.connective joint :: others) =
      if joint.settledBy passed then ([.stopped (address ++ [index]) joint], .ok passed)
      else record examine address (index + 1) passed others := by
  by_cases settled : joint.settledBy passed
  · simp [record, Node.settling?, settled]
  · simp [record, recordNode, Node.settling?, settled]

theorem course_of_record {valid : Condition → Prop} (alternating : AlternatingOf valid nodes)
    (recorded : record examine address index passed nodes = (steps, .ok verdict)) :
    Course examine address index nodes steps verdict := by
  induction alternating generalizing address index passed steps verdict with
  | @condition c _ =>
    obtain ⟨first, found, more, here, rest, rfl⟩ := record_term rfl recorded
    rw [record] at rest
    cases rest
    rw [recordNode] at here
    split at here
    case h_1 finding examined =>
      cases here
      exact .condition examined
    case h_2 => cases here
  | @group body _ ih =>
    obtain ⟨first, found, more, here, rest, rfl⟩ := record_term rfl recorded
    rw [record] at rest
    cases rest
    rw [recordNode] at here
    rw [List.append_nil]
    exact .group (ih here)
  | @joined term joint others first _ ihFirst ihRest =>
    have isTerm := settling_term first passed
    obtain ⟨steps, found, more, here, rest, rfl⟩ := record_term isTerm recorded
    have course := ihFirst (record_single isTerm here)
    rw [record_connective] at rest
    split at rest
    case isTrue settled =>
      cases rest
      exact .stopped course settled
    case isFalse unsettled =>
      exact .joined course (Bool.eq_false_iff.mpr unsettled) (ihRest rest)

theorem before_of_index (address : Address) {i j : Nat} (less : i < j) (a b : Address) :
    address ++ i :: a < address ++ j :: b :=
  List.append_left_lt (List.cons_lt_cons_iff.mpr (.inl less))

namespace Course

theorem isTerm (course : Course examine address index [term] steps verdict) (before : Bool) :
    term.settling? before = none := by
  cases course <;> rfl

theorem outcome (course : Course examine address index nodes steps verdict) (before : Bool) :
    scan (fun c => (examine c).map Finding.matched) before nodes = .ok verdict := by
  induction course generalizing before with
  | condition examined =>
    rw [scan_single rfl, Evaluation.outcome, examined]
    rfl
  | group _ ih => rw [scan_single rfl, Evaluation.outcome, ih]
  | stopped first settled ih =>
    have isTerm := first.isTerm before
    have found := ih before
    rw [scan_single isTerm] at found
    rw [scan_term isTerm, found]
    show scan _ _ (.connective _ :: _) = _
    rw [scan_connective, if_pos settled]
  | joined first unsettled _ ih ihRest =>
    have isTerm := first.isTerm before
    have found := ih before
    rw [scan_single isTerm] at found
    rw [scan_term isTerm, found]
    show scan _ _ (.connective _ :: _) = _
    rw [scan_connective, unsettled, if_neg Bool.false_ne_true, ihRest]

theorem concludes (course : Course examine address index nodes steps verdict) :
    ∃ front place c finding back, steps = front ++ .tested place c finding :: back ∧
      (∀ step ∈ back, step.isTest = false) ∧ examine c = .ok finding ∧
      finding.matched = verdict := by
  induction course with
  | @condition address index c finding examined =>
    exact ⟨[], address ++ [index], c, finding, [], rfl, by simp, examined, rfl⟩
  | group _ ih => exact ih
  | @stopped address index _ joint _ _ _ _ _ ih =>
    obtain ⟨front, place, c, finding, back, rfl, stops, examined, decides⟩ := ih
    refine ⟨front, place, c, finding, back ++ [.stopped (address ++ [index + 1]) joint], by simp,
      ?_, examined, decides⟩
    intro step member
    rcases List.mem_append.mp member with before | last
    · exact stops step before
    · rw [List.mem_singleton.mp last]
      rfl
  | @joined _ _ _ _ _ steps _ _ _ _ _ _ _ ihRest =>
    obtain ⟨front, place, c, finding, back, rfl, stops, examined, decides⟩ := ihRest
    exact ⟨steps ++ front, place, c, finding, back, by simp, stops, examined, decides⟩

theorem within (course : Course examine address index nodes steps verdict) :
    ∀ step ∈ steps, ∃ i below, step.address = address ++ i :: below ∧
      index ≤ i ∧ i < index + nodes.length := by
  induction course with
  | @condition address index =>
    intro step member
    rw [List.mem_singleton.mp member]
    exact ⟨index, [], rfl, le_rfl, by simp⟩
  | @group address index _ _ _ _ ih =>
    intro step member
    obtain ⟨i, below, place, -⟩ := ih step member
    exact ⟨index, i :: below, by simp [place], le_rfl, by simp⟩
  | @stopped address index _ _ _ _ _ _ _ ih =>
    intro step member
    rcases List.mem_append.mp member with before | last
    · obtain ⟨i, below, place, lower, upper⟩ := ih step before
      exact ⟨i, below, place, lower, by simp at upper ⊢; omega⟩
    · rw [List.mem_singleton.mp last]
      exact ⟨index + 1, [], rfl, by omega, by simp⟩
  | joined _ _ _ ih ihRest =>
    intro step member
    rcases List.mem_append.mp member with before | later
    · obtain ⟨i, below, place, lower, upper⟩ := ih step before
      exact ⟨i, below, place, lower, by simp at upper ⊢; omega⟩
    · obtain ⟨i, below, place, lower, upper⟩ := ihRest step later
      exact ⟨i, below, place, by omega, by simp at upper ⊢; omega⟩

theorem within_term (course : Course examine address index [term] steps verdict) :
    ∀ step ∈ steps, ∃ below, step.address = address ++ index :: below := by
  intro step member
  obtain ⟨i, below, place, lower, upper⟩ := course.within step member
  obtain rfl : i = index := by simp at upper; omega
  exact ⟨below, place⟩

theorem ascending (course : Course examine address index nodes steps verdict) :
    (steps.map Step.address).Pairwise (· < ·) := by
  induction course with
  | condition => exact List.pairwise_singleton _ _
  | group _ ih => exact ih
  | stopped first _ ih =>
    rw [List.map_append, List.pairwise_append]
    refine ⟨ih, List.pairwise_singleton _ _, ?_⟩
    intro a memberA b memberB
    obtain ⟨step, member, rfl⟩ := List.mem_map.mp memberA
    obtain ⟨below, place⟩ := first.within_term step member
    rw [List.mem_singleton.mp memberB, place]
    exact before_of_index _ (Nat.lt_succ_self _) below []
  | joined first _ rest ih ihRest =>
    rw [List.map_append, List.pairwise_append]
    refine ⟨ih, ihRest, ?_⟩
    intro a memberA b memberB
    obtain ⟨step, member, rfl⟩ := List.mem_map.mp memberA
    obtain ⟨later, memberLater, rfl⟩ := List.mem_map.mp memberB
    obtain ⟨below, place⟩ := first.within_term step member
    obtain ⟨i, below', place', lower, -⟩ := rest.within later memberLater
    rw [place, place']
    exact before_of_index _ (by omega) below below'

end Course

variable {chain : Resolver} {context : Option Context} {traced : Bool} {e : Explanation}

theorem course_of_explain {valid : Condition → Prop} (alternating : AlternatingOf valid nodes)
    (explained : nodes.explain traced chain context = .ok e) :
    ∃ steps, Course (Condition.examine chain context) [] 0 nodes steps e.matched ∧
      e = .ofSteps traced steps e.matched := by
  unfold Sequence.explain at explained
  cases recorded : nodes.recorded chain context with
  | mk steps result =>
    rw [recorded] at explained
    cases result with
    | error failure => cases explained
    | ok matched =>
      cases explained
      exact ⟨steps, course_of_record alternating recorded, rfl⟩

theorem filter_isTestLine (steps : List Step) :
    (steps.map Step.line).filter isTestLine = (steps.filter Step.isTest).map Step.line := by
  rw [List.filter_map]
  congr 1
  exact List.filter_congr fun step _ => step.isTestLine_line

theorem matchedConditions_ofSteps (steps : List Step) (matched : Bool) :
    (Explanation.ofSteps traced steps matched).matchedConditions =
      (steps.filter Step.isMatch).map fun step => step.node.write := by
  unfold Explanation.ofSteps
  induction steps with
  | nil => rfl
  | cons step rest ih =>
    cases step with
    | tested place c finding =>
      cases found : finding.matched with
      | true => simpa [Step.matched?, Step.isMatch, found, Step.node, Node.write] using ih
      | false => simpa [Step.matched?, Step.isMatch, found] using ih
    | stopped place joint => simpa [Step.matched?, Step.isMatch] using ih

theorem getLast_filter_map {α β : Type} {p : α → Bool} {front back : List α} {x : α}
    (here : p x = true) (behind : ∀ y ∈ back, p y = false) (f : α → β) :
    (((front ++ x :: back).filter p).map f).getLast? = some (f x) := by
  have nothing : back.filter p = [] := by
    rw [List.filter_eq_nil_iff]
    intro y member
    rw [behind y member]
    exact Bool.false_ne_true
  rw [List.filter_append, List.filter_cons_of_pos here, nothing]
  simp

/-- The verdict of a rule is the outcome of the last condition that was evaluated. There is one; its
    line is the last one of a condition in the trace, and says that it was found true exactly when
    the rule matches. Then its text is the last one among the conditions found true. -/
theorem verdict_is_last_outcome (alternating : Alternating nodes)
    (explained : nodes.explain true chain context = .ok e) :
    ∃ place c finding, c.examine chain context = .ok finding ∧
      (e.trace.filter isTestLine).getLast? = some (Step.tested place c finding).line ∧
      (e.matched = true ↔ isMatchLine (Step.tested place c finding).line = true) ∧
      (e.matched = true → e.matchedConditions.getLast? = some c.write) := by
  obtain ⟨steps, course, shown⟩ := course_of_explain alternating explained
  obtain ⟨front, place, c, finding, back, rfl, stops, examined, decides⟩ := course.concludes
  have trace : e.trace = (front ++ .tested place c finding :: back).map Step.line := by
    rw [shown]
    rfl
  refine ⟨place, c, finding, examined, ?_, ?_, ?_⟩
  · rw [trace, filter_isTestLine]
    exact getLast_filter_map rfl stops Step.line
  · rw [Step.isMatchLine_line, ← decides]
    rfl
  · intro matched
    have noMatch : ∀ step ∈ back, step.isMatch = false := by
      intro step member
      cases step with
      | tested => cases stops _ member
      | stopped => rfl
    have isMatch : (Step.tested place c finding).isMatch = true := decides.trans matched
    rw [shown, matchedConditions_ofSteps]
    exact getLast_filter_map isMatch noMatch fun step => step.node.write

/-- `(1 = 2 or 2 = 2) or a = 1` -/
def groupedChoice : Sequence :=
  [.group [.condition ⟨.int 1, .equal, .int 2⟩, .connective .or,
    .condition ⟨.int 2, .equal, .int 2⟩], .connective .or,
    .condition ⟨.path ['a'], .equal, .int 1⟩]

def groupedTrace : List Text :=
  ["root[0][0]: 1 == 2 (1 == 2) => NOT_MATCHED".toList,
    "root[0][2]: 2 == 2 (2 == 2) => MATCHED".toList,
    "root[1]: OR 短路 - 前项为真".toList]

theorem group_decides_choice :
    Alternating groupedChoice ∧
      groupedChoice.explain true .standard none = .ok ⟨true, ["2 == 2".toList], groupedTrace⟩ ∧
      ∃ place c finding, c.examine .standard none = .ok finding ∧
        (groupedTrace.filter isTestLine).getLast? = some (Step.tested place c finding).line ∧
        isMatchLine (Step.tested place c finding).line = true ∧ c.write = "2 == 2".toList := by
  have alternating : Alternating groupedChoice :=
    .joined (.group (.joined (.condition trivial) (.condition trivial))) (.condition trivial)
  have explained : groupedChoice.explain true .standard none =
      .ok ⟨true, ["2 == 2".toList], groupedTrace⟩ := by decide +kernel
  obtain ⟨place, c, finding, examined, last, verdict, text⟩ :=
    verdict_is_last_outcome alternating explained
  exact ⟨alternating, explained, place, c, finding, examined, last, verdict.mp rfl,
    (Option.some.inj (text rfl)).symm⟩

end Verdict.Evaluation
