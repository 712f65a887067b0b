import Verdict.Proofs.ShortCircuit

/-!
What a scan accounts for: its outcome, and the conditions that it found true on the way. Where a
sequence stands in a rule leaves its mark on the steps of a recording scan, but not on this.
-/
namespace Verdict.Evaluation
variable {ε : Type}

/-- The conditions found true, in the order of the scan, and the outcome. -/
abbrev Account (ε : Type) := List Condition × Except ε Bool

namespace Account

def andThen (first : Account ε) (next : Bool → Account ε) : Account ε :=
  match first.2 with
  | .ok passed => (first.1 ++ (next passed).1, (next passed).2)
  | .error e => (first.1, .error e)

def ofRecord (record : List Step × Except ε Bool) : Account ε :=
  (record.1.filterMap Step.matched?, record.2)

theorem andThen_done (first : Account ε) :
    first.andThen (fun passed => ([], .ok passed)) = first := by
  obtain ⟨conditions, result⟩ := first
  cases result <;> simp [andThen]

end Account

mutual
def termAccount (examine : Condition → Except ε Finding) : Node → Account ε
  | .condition c =>
    match examine c with
    | .ok finding => (if finding.matched then [c] else [], .ok finding.matched)
    | .error e => ([], .error e)
  | .group body => account examine body
  | .connective _ => ([], .ok false)

/-- The account of a sequence, whose connectives group to the right. -/
def account (examine : Condition → Except ε Finding) : List Node → Account ε
  | [] => ([], .ok false)
  | term :: .connective joint :: rest =>
    (termAccount examine term).andThen fun passed =>
      if joint.settledBy passed then ([], .ok passed) else account examine rest
  | term :: _ => termAccount examine term
end

variable {examine : Condition → Except ε Finding}

theorem account_single (term : Node) : account examine [term] = termAccount examine term := by
  rw [account]
  nofun

theorem account_group (body : Sequence) : account examine [.group body] = account examine body := by
  rw [account_single, termAccount]

theorem ofRecord_term {passed : Bool} {term : Node} (isTerm : term.settling? passed = none)
    (address : Address) (index : Nat) (rest : List Node) :
    Account.ofRecord (record examine address index passed (term :: rest)) =
      (Account.ofRecord (recordNode examine (address ++ [index]) passed term)).andThen fun found =>
        Account.ofRecord (record examine address (index + 1) found rest) := by
  simp only [record, isTerm]
  obtain ⟨steps, result⟩ := recordNode examine (address ++ [index]) passed term
  cases result with
  | error e => rfl
  | ok found => simp [Account.ofRecord, Account.andThen]

theorem ofRecord_connective (address : Address) (index : Nat) (passed : Bool) (joint : Connective)
    (rest : List Node) :
    Account.ofRecord (record examine address index passed (.connective joint :: rest)) =
      if joint.settledBy passed then ([], .ok passed)
      else Account.ofRecord (record examine address (index + 1) passed rest) := by
  by_cases settled : joint.settledBy passed
  · simp [record, Node.settling?, settled, Account.ofRecord, Step.matched?]
  · simp [record, recordNode, Node.settling?, settled, Account.ofRecord]

theorem ofRecord_eq_account {valid : Condition → Prop} {nodes : List Node}
    (alternating : AlternatingOf valid nodes) (address : Address) (index : Nat) (passed : Bool) :
    Account.ofRecord (record examine address index passed nodes) = account examine nodes := by
  induction alternating generalizing address index passed with
  | @condition c _ =>
    rw [account_single, termAccount, ofRecord_term rfl, recordNode]
    refine (Account.andThen_done _).trans ?_
    cases examine c with
    | error e => rfl
    | ok finding => cases found : finding.matched <;> simp [Account.ofRecord, Step.matched?, found]
  | @group body _ ih =>
    rw [account_group, ofRecord_term rfl, recordNode, ih]
    exact Account.andThen_done _
  | @joined term joint others first _ ihFirst ihOthers =>
    have isTerm := settling_term first passed
    have decided : Account.ofRecord (recordNode examine (address ++ [index]) passed term) =
        termAccount examine term := by
      rw [← account_single, ← ihFirst address index passed, ofRecord_term isTerm]
      exact (Account.andThen_done _).symm
    rw [account, ofRecord_term isTerm, decided]
    congr 1
    funext found
    rw [ofRecord_connective, ihOthers]

theorem account_outcome {valid : Condition → Prop} {nodes : List Node}
    (alternating : AlternatingOf valid nodes) :
    (account examine nodes).2 = meaning (fun c => (examine c).map Finding.matched) nodes := by
  induction alternating with
  | @condition c _ =>
    rw [account_single, meaning_single, termAccount, termMeaning]
    cases examine c <;> rfl
  | @group body _ ih => rw [account_group, meaning_single, termMeaning, ih]
  | @joined term joint others _ _ ihFirst ihOthers =>
    rw [account_single, meaning_single] at ihFirst
    rw [account, meaning_joined, ← ihFirst, ← ihOthers, Account.andThen]
    cases (termAccount examine term).2 with
    | error e => rfl
    | ok found =>
      simp only
      split <;> rfl

theorem account_tail {valid : Condition → Prop} {front tail tail' : List Node}
    (alternating : AlternatingOf valid front) (same : account examine tail = account examine tail')
    (joint : Connective) : account examine (front ++ .connective joint :: tail) =
      account examine (front ++ .connective joint :: tail') := by
  induction alternating with
  | condition => simp only [List.singleton_append, account, same]
  | group => simp only [List.singleton_append, account, same]
  | joined _ _ _ ihRest =>
    simp only [List.cons_append] at ihRest ⊢
    rw [account, account, ihRest]

def Explanation.answer (e : Explanation) : Bool × List Text := (e.matched, e.matchedConditions)

def Account.answer (a : Account ε) : Except ε (Bool × List Text) :=
  a.2.map fun matched => (matched, a.1.map Condition.write)

variable {valid : Condition → Prop} {nodes : Sequence} (chain : Resolver)
  (context : Option Context)

theorem evaluate_eq_account (alternating : AlternatingOf valid nodes) :
    nodes.evaluate chain context = (account (Condition.examine chain context) nodes).2 := by
  rw [account_outcome alternating]
  exact scan_eq_meaning _ alternating false

theorem explain_eq_account (alternating : AlternatingOf valid nodes) (traced : Bool) :
    (nodes.explain traced chain context).map Explanation.answer =
      (account (Condition.examine chain context) nodes).answer := by
  rw [← ofRecord_eq_account alternating [] 0 false]
  unfold Sequence.explain Sequence.recorded
  obtain ⟨steps, result⟩ := record (Condition.examine chain context) [] 0 false nodes
  cases result with
  | error e => rfl
  | ok matched =>
    simp [Account.answer, Account.ofRecord, Explanation.answer, Explanation.ofSteps, Except.map,
      List.map_filterMap]

end Verdict.Evaluation
