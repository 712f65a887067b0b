import Verdict.Proofs.Course

/-!
A trace replays a scan. Each line describes the node at its address, in the order of the document,
and in every level that the scan enters it visits the operands from the first one on, up to the end
of the level or to the one connective that stops it.
-/
namespace Verdict

def Node.isOperand : Node → Bool
  | .connective _ => false
  | _ => true

def Node.body? : Node → Option Sequence
  | .group body => some body
  | _ => none

/-- The level to which an address leads from group to group. The empty address leads to the whole
    sequence. -/
def Sequence.level? (nodes : Sequence) : Evaluation.Address → Option Sequence
  | [] => some nodes
  | index :: below => (nodes[index]?.bind Node.body?).bind fun body => Sequence.level? body below

theorem Sequence.level?_append (nodes : Sequence) (above below : Evaluation.Address) :
    nodes.level? (above ++ below) =
      (nodes.level? above).bind fun level => level.level? below := by
  induction above generalizing nodes with
  | nil => rfl
  | cons index above ih =>
    rw [List.cons_append, level?, level?]
    cases nodes[index]?.bind Node.body? with
    | none => rfl
    | some body => exact ih body

namespace Evaluation
variable {chain : Resolver} {context : Option Context}

/-- The node at the address of the step is the one that the step is about: a condition with what it
    is found to be, or the connective that the outcome of the operand before it settles. -/
inductive Describes (chain : Resolver) (context : Option Context) (whole : Sequence) :
    Step → Prop where
  | tested {above : Address} {level : Sequence} {index : Nat} {c : Condition} {finding : Finding}
      (leads : whole.level? above = some level) (node : level[index]? = some (.condition c))
      (examined : c.examine chain context = .ok finding) :
      Describes chain context whole (.tested (above ++ [index]) c finding)
  | stopped {above : Address} {level : Sequence} {index : Nat} {term : Node} {joint : Connective}
      {found : Bool} (leads : whole.level? above = some level)
      (operand : level[index]? = some term)
      (node : level[index + 1]? = some (.connective joint))
      (outcome : Sequence.evaluate chain context [term] = .ok found)
      (settled : joint.settledBy found = true) :
      Describes chain context whole (.stopped (above ++ [index + 1]) joint)

def Visited (steps : List Step) (address : Address) : Prop :=
  ∃ step ∈ steps, address <+: step.address

/-- The nodes of a level have consecutive indices from the given one on. Its operands were visited
    up to the one at `last`. Then either the level ends, and nothing stopped the scan of it, or the
    next node is the connective that stopped it, the only one of this level that did. -/
structure WalkedTo (steps : List Step) (address : Address) (index : Nat) (level : Sequence)
    (last : Nat) : Prop where
  operand : ∃ term, level[last]? = some term ∧ term.isOperand = true
  visited : ∀ i term, level[i]? = some term → term.isOperand = true →
    (Visited steps (address ++ [index + i]) ↔ i ≤ last)
  ends : level.length = last + 1 ∧ (∀ i joint, .stopped (address ++ [i]) joint ∉ steps) ∨
    ∃ joint, level[last + 1]? = some (.connective joint) ∧
      ∀ i joint', .stopped (address ++ [i]) joint' ∈ steps ↔
        i = index + (last + 1) ∧ joint' = joint

def Walked (steps : List Step) (address : Address) (index : Nat) (level : Sequence) : Prop :=
  ∃ last, WalkedTo steps address index level last

variable {address : Address} {index : Nat} {nodes : Sequence} {term : Node} {joint : Connective}
  {steps more : List Step} {verdict : Bool}

theorem visited_append :
    Visited (steps ++ more) address ↔ Visited steps address ∨ Visited more address := by
  unfold Visited
  simp only [List.mem_append, or_and_right, exists_or]

theorem index_eq_of_inside {i j : Nat} {a b : Address}
    (inside : address ++ i :: a <+: address ++ j :: b) : i = j ∧ a <+: b := by
  rw [List.prefix_append_right_inj, List.cons_prefix_cons] at inside
  exact inside

theorem index_of_stop {i j : Nat} {below : Address}
    (visited : Visited [.stopped (address ++ [j]) joint] (address ++ i :: below)) : i = j := by
  obtain ⟨step, member, inside⟩ := visited
  rw [List.mem_singleton.mp member] at inside
  exact (index_eq_of_inside inside).1

namespace Course
variable {examine : Condition → Except Error Finding}

theorem index_of_visited (course : Course examine address index nodes steps verdict) {i : Nat}
    {below : Address} (visited : Visited steps (address ++ i :: below)) :
    index ≤ i ∧ i < index + nodes.length := by
  obtain ⟨step, member, inside⟩ := visited
  obtain ⟨j, rest, place, range⟩ := course.within step member
  rw [place] at inside
  rw [(index_eq_of_inside inside).1]
  exact range

theorem unvisited_behind (course : Course examine address index [term] steps verdict) (i : Nat)
    (below : Address) : ¬Visited steps (address ++ (index + (i + 2)) :: below) := by
  intro visited
  have range := (course.index_of_visited visited).2
  simp at range

theorem visits_term (course : Course examine address index [term] steps verdict) :
    Visited steps (address ++ [index]) := by
  obtain ⟨front, place, c, finding, back, rfl, -⟩ := course.concludes
  have member : Step.tested place c finding ∈ front ++ .tested place c finding :: back := by simp
  obtain ⟨below, placed⟩ := course.within_term _ member
  refine ⟨_, member, below, ?_⟩
  rw [placed]
  simp

theorem operand_term (course : Course examine address index [term] steps verdict) :
    term.isOperand = true := by
  cases course <;> rfl

theorem unstopped_term (course : Course examine address index [term] steps verdict) (i : Nat)
    (joint : Connective) : .stopped (address ++ [i]) joint ∉ steps := by
  intro member
  cases course with
  | condition => cases List.mem_singleton.mp member
  | group inside =>
    obtain ⟨j, below, place, -⟩ := inside.within _ member
    simp [Step.address] at place

theorem walked_term (course : Course examine address index [term] steps verdict) :
    Walked steps address index [term] := by
  refine ⟨0, ⟨term, rfl, course.operand_term⟩, ?_, .inl ⟨rfl, course.unstopped_term⟩⟩
  intro i node found _
  cases i with
  | zero => exact iff_of_true course.visits_term le_rfl
  | succ i => cases found

-- The first index of a level is a term and the next one a connective, which is no operand. What
-- stands behind them is out of reach of the term and belongs to the rest of the course.
theorem walked (course : Course examine address index nodes steps verdict) :
    Walked steps address index nodes := by
  induction course with
  | condition examined => exact walked_term (.condition examined)
  | group inside => exact walked_term (.group inside)
  | @stopped address index term joint others steps found first settled =>
    have stops (i : Nat) (other : Connective) :
        .stopped (address ++ [i]) other ∈ steps ++ [.stopped (address ++ [index + 1]) joint] ↔
          i = index + 1 ∧ other = joint := by
      simp [first.unstopped_term i other]
    refine ⟨0, ⟨term, rfl, first.operand_term⟩, ?_, .inr ⟨joint, rfl, stops⟩⟩
    intro i node here isOperand
    match i with
    | 0 => exact iff_of_true (visited_append.mpr (.inl first.visits_term)) le_rfl
    | 1 =>
      cases here
      cases isOperand
    | i + 2 =>
      apply iff_of_false _ (by omega)
      intro visited
      rcases visited_append.mp visited with before | last
      · exact first.unvisited_behind i [] before
      · have same := index_of_stop last
        omega
  | @joined address index term joint others steps more found verdict first _ rest _ ihRest =>
    obtain ⟨last, operand, visited, ends⟩ := ihRest
    have stops (i : Nat) (other : Connective) :
        .stopped (address ++ [i]) other ∈ steps ++ more ↔
          .stopped (address ++ [i]) other ∈ more := by
      simp [first.unstopped_term i other]
    refine ⟨last + 2, operand, ?_, ?_⟩
    · intro i node here isOperand
      match i with
      | 0 =>
        exact iff_of_true (visited_append.mpr (.inl first.visits_term)) (Nat.zero_le _)
      | 1 =>
        cases here
        cases isOperand
      | i + 2 =>
        have later := visited i node here isOperand
        rw [show index + 2 + i = index + (i + 2) by omega] at later
        rw [visited_append, or_iff_right (first.unvisited_behind i []), later]
        omega
    · simp only [stops]
      rcases ends with ⟨length, unstopped⟩ | ⟨other, next, stopped⟩
      · left
        exact ⟨by simp [length], unstopped⟩
      · right
        rw [show index + 2 + (last + 1) = index + (last + 2 + 1) by omega] at stopped
        exact ⟨other, next, stopped⟩

end Course

variable {examine : Condition → Except Error Finding} {level : Sequence}

def Scanned (examine : Condition → Except Error Finding) (steps : List Step) (address : Address)
    (level : Sequence) : Prop :=
  ∃ inner found, Course examine address 0 level inner found ∧
    ∀ step, address <+: step.address → (step ∈ steps ↔ step ∈ inner)

namespace Scanned

theorem append_left (scanned : Scanned examine steps address level)
    (elsewhere : ¬Visited more address) : Scanned examine (steps ++ more) address level := by
  obtain ⟨inner, found, course, same⟩ := scanned
  refine ⟨inner, found, course, ?_⟩
  intro step inside
  have outside : step ∉ more := fun member => elsewhere ⟨step, member, inside⟩
  rw [List.mem_append, or_iff_left outside]
  exact same step inside

theorem append_right (scanned : Scanned examine more address level)
    (elsewhere : ¬Visited steps address) : Scanned examine (steps ++ more) address level := by
  obtain ⟨inner, found, course, same⟩ := scanned
  refine ⟨inner, found, course, ?_⟩
  intro step inside
  have outside : step ∉ steps := fun member => elsewhere ⟨step, member, inside⟩
  rw [List.mem_append, or_iff_right outside]
  exact same step inside

theorem walked (scanned : Scanned examine steps address level) : Walked steps address 0 level := by
  obtain ⟨inner, found, course, same⟩ := scanned
  obtain ⟨last, operand, visited, ends⟩ := course.walked
  have visits (i : Nat) : Visited steps (address ++ [i]) ↔ Visited inner (address ++ [i]) := by
    constructor
    · intro ⟨step, member, inside⟩
      have below := (List.prefix_append _ _).trans inside
      exact ⟨step, (same step below).mp member, inside⟩
    · intro ⟨step, member, inside⟩
      have below := (List.prefix_append _ _).trans inside
      exact ⟨step, (same step below).mpr member, inside⟩
  have stops (i : Nat) (joint : Connective) :
      .stopped (address ++ [i]) joint ∈ steps ↔ .stopped (address ++ [i]) joint ∈ inner :=
    same (.stopped (address ++ [i]) joint) (List.prefix_append _ _)
  refine ⟨last, operand, ?_, ?_⟩
  · intro i term here isOperand
    rw [visits]
    exact visited i term here isOperand
  · simp only [stops]
    exact ends

end Scanned

theorem Course.scanned (course : Course examine address index nodes steps verdict) {i : Nat}
    {below : Address} (leads : nodes.level? (i :: below) = some level)
    (visited : Visited steps (address ++ (index + i) :: below)) :
    Scanned examine steps (address ++ (index + i) :: below) level := by
  induction course generalizing i below with
  | condition => cases i <;> cases leads
  | @group address index body steps verdict inside ih =>
    cases i with
    | succ i => cases leads
    | zero =>
      cases below with
      | nil =>
        cases leads
        exact ⟨steps, verdict, inside, fun _ _ => Iff.rfl⟩
      | cons j below =>
        have place : address ++ (index + 0) :: j :: below =
            (address ++ [index]) ++ (0 + j) :: below := by simp
        rw [place] at visited ⊢
        exact ih leads visited
  | @stopped address index term joint others steps found first settled ih =>
    match i with
    | 0 =>
      have elsewhere : ¬Visited [.stopped (address ++ [index + 1]) joint]
          (address ++ (index + 0) :: below) := by
        intro last
        have same := index_of_stop last
        omega
      have before := (visited_append.mp visited).resolve_right elsewhere
      have alone : Sequence.level? [term] (0 :: below) = some level := leads
      exact (ih alone before).append_left elsewhere
    | 1 => cases leads
    | i + 2 =>
      rcases visited_append.mp visited with before | last
      · exact absurd before (first.unvisited_behind i below)
      · have same := index_of_stop last
        omega
  | @joined address index term joint others steps more found verdict first _ rest ih ihRest =>
    match i with
    | 0 =>
      have elsewhere : ¬Visited more (address ++ (index + 0) :: below) := by
        intro later
        have range := (rest.index_of_visited later).1
        omega
      have before := (visited_append.mp visited).resolve_right elsewhere
      have alone : Sequence.level? [term] (0 :: below) = some level := leads
      exact (ih alone before).append_left elsewhere
    | 1 => cases leads
    | i + 2 =>
      have elsewhere := first.unvisited_behind i below
      have later := (visited_append.mp visited).resolve_left elsewhere
      have shift : index + (i + 2) = index + 2 + i := by omega
      rw [shift] at elsewhere later ⊢
      exact (ihRest leads later).append_right elsewhere

theorem node_of_placed (placed : nodes <+: level.drop index) (i : Nat) {node : Node}
    (here : nodes[i]? = some node) : level[index + i]? = some node := by
  obtain ⟨inside, value⟩ := List.getElem?_eq_some_iff.mp here
  rw [← List.getElem?_drop, List.prefix_iff_getElem?.mp placed i inside, value]

theorem Course.describes
    (course : Course (Condition.examine chain context) address index nodes steps verdict)
    {whole : Sequence} (leads : whole.level? address = some level)
    (placed : nodes <+: level.drop index) :
    ∀ step ∈ steps, Describes chain context whole step := by
  induction course generalizing level with
  | condition examined =>
    intro step member
    rw [List.mem_singleton.mp member]
    exact .tested leads (node_of_placed placed 0 rfl) examined
  | @group address index body steps verdict inside ih =>
    have here : level[index]? = some (.group body) := node_of_placed placed 0 rfl
    have inner : whole.level? (address ++ [index]) = some body := by
      rw [Sequence.level?_append, leads, Option.bind_some, Sequence.level?, here]
      rfl
    exact ih inner List.prefix_rfl
  | @stopped address index term joint others steps found first settled ih =>
    have alone := (List.prefix_append [term] _).trans placed
    intro step member
    rcases List.mem_append.mp member with before | last
    · exact ih leads alone step before
    · rw [List.mem_singleton.mp last]
      exact .stopped leads (node_of_placed placed 0 rfl) (node_of_placed placed 1 rfl)
        (first.outcome false) settled
  | @joined address index term joint others steps more found verdict first _ rest ih ihRest =>
    have alone := (List.prefix_append [term] _).trans placed
    have behind : others <+: level.drop (index + 2) := by
      rw [← List.drop_drop]
      exact placed.drop 2
    intro step member
    rcases List.mem_append.mp member with before | later
    · exact ih leads alone step before
    · exact ihRest leads behind step later

theorem Describes.node_at {whole : Sequence} {step : Step}
    (describes : Describes chain context whole step) :
    ∃ above level index, step.address = above ++ [index] ∧ whole.level? above = some level ∧
      level[index]? = some step.node := by
  cases describes with
  | @tested above level index c finding leads node =>
    exact ⟨above, level, index, rfl, leads, node⟩
  | @stopped above level index term joint found leads operand node =>
    exact ⟨above, level, index + 1, rfl, leads, node⟩

theorem Describes.eq_of_address {whole : Sequence} {step other : Step}
    (one : Describes chain context whole step) (two : Describes chain context whole other)
    (same : step.address = other.address) : step = other := by
  obtain ⟨above, level, index, place, leads, here⟩ := one.node_at
  obtain ⟨above', level', index', place', leads', here'⟩ := two.node_at
  rw [place, place'] at same
  obtain ⟨rfl, last⟩ := List.append_inj' same rfl
  cases last
  rw [leads] at leads'
  cases leads'
  rw [here] at here'
  have nodes := Option.some.inj here'
  have places : step.address = other.address := place.trans place'.symm
  cases one with
  | tested _ _ examined =>
    cases two with
    | tested _ _ examined' =>
      cases nodes
      rw [examined] at examined'
      cases examined'
      exact congrArg (Step.tested · _ _) places
    | stopped => cases nodes
  | stopped =>
    cases two with
    | tested => cases nodes
    | stopped =>
      cases nodes
      exact congrArg (Step.stopped · _) places

theorem steps_of_lines {whole : Sequence} {steps others : List Step}
    (described : ∀ step ∈ steps, Describes chain context whole step)
    (describedOthers : ∀ step ∈ others, Describes chain context whole step)
    (same : steps.map Step.line = others.map Step.line) : steps = others := by
  induction steps generalizing others with
  | nil => exact (List.map_eq_nil_iff.mp same.symm).symm
  | cons step steps ih =>
    cases others with
    | nil => cases same
    | cons other others =>
      rw [List.forall_mem_cons] at described describedOthers
      rw [List.map_cons, List.map_cons, List.cons.injEq] at same
      have first := described.1.eq_of_address describedOthers.1 (Step.address_of_line same.1)
      rw [first, ih described.2 describedOthers.2 same.2]

/-- How the steps of a trace follow the sequence. Every step describes its node, no two steps are
    out of order or about the same node, and every level that was entered was walked from its
    first operand on. -/
structure Replay (chain : Resolver) (context : Option Context) (whole : Sequence)
    (steps : List Step) : Prop where
  described : ∀ step ∈ steps, Describes chain context whole step
  ascending : (steps.map Step.address).Pairwise (· < ·)
  top : Walked steps [] 0 whole
  groups : ∀ address level, whole.level? address = some level → Visited steps address →
    Walked steps address 0 level

theorem Course.replay
    (course : Course (Condition.examine chain context) [] 0 nodes steps verdict) :
    Replay chain context nodes steps := by
  refine ⟨course.describes rfl List.prefix_rfl, course.ascending, course.walked, ?_⟩
  intro address level leads visited
  cases address with
  | nil =>
    cases leads
    exact course.walked
  | cons i below =>
    rw [← Nat.zero_add i] at visited ⊢
    exact (course.scanned leads visited).walked

/-- The trace of an evaluation that ends without an error is a replay of it: its lines are those of
    steps that follow the parsed sequence, and the conditions found true are those of the lines that
    say so. No other steps that describe nodes of the sequence have these lines. -/
theorem trace_replays {limit : Nat} {query : Text} {e : Explanation}
    (read : Query.parse limit query = .ok nodes)
    (explained : nodes.explain true chain context = .ok e) :
    ∃ steps, e.trace = steps.map Step.line ∧ Replay chain context nodes steps ∧
      e.matchedConditions =
        (steps.filter fun step => isMatchLine step.line).map (fun step => step.node.write) ∧
      ∀ others, e.trace = others.map Step.line →
        (∀ step ∈ others, Describes chain context nodes step) → others = steps := by
  obtain ⟨steps, course, shown⟩ := course_of_explain (Query.wellFormed_of_parse read) explained
  have trace : e.trace = steps.map Step.line := by
    rw [shown]
    rfl
  have replay := course.replay
  refine ⟨steps, trace, replay, ?_, ?_⟩
  · rw [shown, matchedConditions_ofSteps]
    congr 1
    exact List.filter_congr fun step _ => step.isMatchLine_line.symm
  · intro others lines described
    exact steps_of_lines described replay.described (lines.symm.trans trace)

/-- `(1 = 2 or 2 = 2 or 3 = 3) and 4 = 5 and 6 = 6` -/
def stoppedTwice : Sequence :=
  [.group [.condition ⟨.int 1, .equal, .int 2⟩, .connective .or,
      .condition ⟨.int 2, .equal, .int 2⟩, .connective .or,
      .condition ⟨.int 3, .equal, .int 3⟩],
    .connective .and, .condition ⟨.int 4, .equal, .int 5⟩,
    .connective .and, .condition ⟨.int 6, .equal, .int 6⟩]

def stoppedTwiceTrace : List Text :=
  ["root[0][0]: 1 == 2 (1 == 2) => NOT_MATCHED".toList,
    "root[0][2]: 2 == 2 (2 == 2) => MATCHED".toList,
    "root[0][3]: OR 短路 - 前项为真".toList,
    "root[2]: 4 == 5 (4 == 5) => NOT_MATCHED".toList,
    "root[3]: AND 短路 - 前项为假".toList]

theorem stopped_twice_replayed :
    Query.parse 1 "(1 = 2 or 2 = 2 or 3 = 3) and 4 = 5 and 6 = 6".toList = .ok stoppedTwice ∧
      stoppedTwice.explain true .standard none =
        .ok ⟨false, ["2 == 2".toList], stoppedTwiceTrace⟩ ∧
      ∃ steps, stoppedTwiceTrace = steps.map Step.line ∧ Replay .standard none stoppedTwice steps ∧
        ["2 == 2".toList] =
          (steps.filter fun step => isMatchLine step.line).map (fun step => step.node.write) := by
  have read : Query.parse 1 "(1 = 2 or 2 = 2 or 3 = 3) and 4 = 5 and 6 = 6".toList =
      .ok stoppedTwice := by cbv
  have explained : stoppedTwice.explain true .standard none =
      .ok ⟨false, ["2 == 2".toList], stoppedTwiceTrace⟩ := by decide +kernel
  obtain ⟨steps, trace, replay, found, -⟩ := trace_replays read explained
  exact ⟨read, explained, steps, trace, replay, found⟩

end Evaluation
end Verdict
