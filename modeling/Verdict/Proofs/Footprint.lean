import Verdict.Proofs.History

/-!
What a rule can see of its context. Every reading goes through a path that the rule declares, so
contexts that agree on those paths are the same to it, whatever the accessors do; and the only other
failure is an operator that does not suit its operands.
-/
namespace Verdict

theorem error_of_bind {ε α β : Type} {result : Except ε α} {next : α → Except ε β} {e : ε}
    (failed : result >>= next = .error e) :
    result = .error e ∨ ∃ value, result = .ok value ∧ next value = .error e := by
  cases result with
  | error cause =>
    cases failed
    exact .inl rfl
  | ok value => exact .inr ⟨value, rfl, failed⟩

namespace Table
variable {α : Type}

theorem mem_names_insert {key name : Text} {value : α} {entries : List (Text × α)} :
    key ∈ names (insert name value entries) ↔ key = name ∨ key ∈ names entries := by
  refine ⟨names_insert_subset name value entries key, fun given => ?_⟩
  induction entries with
  | nil => simpa [insert, names] using given
  | cons entry rest ih =>
    rw [insert]
    split
    · simpa [names] using given
    · split
      case isTrue same => simpa [names, same] using given
      case isFalse =>
        simp only [names, List.map_cons, List.mem_cons] at given ih ⊢
        rcases given with same | here | later
        · exact .inr (ih (.inl same))
        · exact .inl here
        · exact .inr (ih (.inr later))

theorem mem_names_ofList {key : Text} {entries : List (Text × α)} :
    key ∈ names (ofList entries) ↔ key ∈ names entries := by
  -- The table grows from the empty one, so the induction has to speak of every table.
  have grown (table : List (Text × α)) :
      key ∈ names (entries.foldl (fun table entry => insert entry.1 entry.2 table) table) ↔
        key ∈ names table ∨ key ∈ names entries := by
    induction entries generalizing table with
    | nil => simp [names]
    | cons entry rest ih =>
      rw [List.foldl_cons, ih, mem_names_insert]
      simp only [names, List.map_cons, List.mem_cons]
      exact or_assoc.trans or_left_comm
  simpa [ofList, names] using grown []

end Table

theorem Sequence.mem_paths {p : Text} {nodes : Sequence} :
    p ∈ nodes.paths ↔ p ∈ Node.allPaths nodes := by
  rw [paths, Table.mem_names_ofList, Table.names, List.map_map]
  simp

namespace Node

mutual
def conditions : Node → List Condition
  | .condition c => [c]
  | .connective _ => []
  | .group body => allConditions body

def allConditions : List Node → List Condition
  | [] => []
  | node :: rest => conditions node ++ allConditions rest
end

mutual
theorem paths_eq (node : Node) : node.paths = node.conditions.flatMap Condition.paths := by
  cases node with
  | condition c => simp [paths, conditions]
  | connective joint => rfl
  | group body => exact allPaths_eq body

theorem allPaths_eq (nodes : List Node) :
    allPaths nodes = (allConditions nodes).flatMap Condition.paths := by
  match nodes with
  | [] => rfl
  | node :: rest =>
    rw [allPaths, allConditions, List.flatMap_append, paths_eq node, allPaths_eq rest]
end

end Node

namespace Evaluation
variable {ε : Type}

-- The recursion is that of `record`: through the nodes of a sequence and into groups.
mutual
theorem recordNode_congr {examine examine' : Condition → Except ε Finding} (node : Node)
    (same : ∀ c ∈ node.conditions, examine c = examine' c) (address : Address) (passed : Bool) :
    recordNode examine address passed node = recordNode examine' address passed node := by
  cases node with
  | condition c => rw [recordNode, recordNode, same c (by simp [Node.conditions])]
  | connective joint => rfl
  | group body => exact record_congr body same address 0 false

theorem record_congr {examine examine' : Condition → Except ε Finding} (nodes : List Node)
    (same : ∀ c ∈ Node.allConditions nodes, examine c = examine' c) (address : Address)
    (index : Nat) (passed : Bool) :
    record examine address index passed nodes = record examine' address index passed nodes := by
  match nodes with
  | [] => rfl
  | node :: rest =>
    rw [Node.allConditions, List.forall_mem_append] at same
    simp only [record, recordNode_congr node same.1, record_congr rest same.2]
end

mutual
theorem recordNode_outcome (examine : Condition → Except ε Finding) (address : Address)
    (passed : Bool) (node : Node) : (recordNode examine address passed node).2 =
      outcome (fun c => (examine c).map Finding.matched) passed node := by
  cases node with
  | condition c =>
    rw [recordNode, outcome]
    cases examine c <;> rfl
  | connective joint => rfl
  | group body => exact record_outcome examine address 0 false body

theorem record_outcome (examine : Condition → Except ε Finding) (address : Address) (index : Nat)
    (passed : Bool) (nodes : List Node) : (record examine address index passed nodes).2 =
      scan (fun c => (examine c).map Finding.matched) passed nodes := by
  match nodes with
  | [] => rfl
  | node :: rest =>
    have here := recordNode_outcome examine (address ++ [index]) passed node
    rw [record, scan]
    cases node.settling? passed with
    | some joint => rfl
    | none =>
      rw [← here]
      cases recordNode examine (address ++ [index]) passed node with
      | mk steps result =>
        cases result with
        | error e => rfl
        | ok found => exact record_outcome examine address (index + 1) found rest
end

mutual
theorem outcome_error {holds : Condition → Except ε Bool} {passed : Bool} {node : Node} {e : ε}
    (failed : outcome holds passed node = .error e) :
    ∃ c ∈ node.conditions, holds c = .error e := by
  cases node with
  | condition c => exact ⟨c, by simp [Node.conditions], failed⟩
  | connective joint => cases failed
  | group body => exact scan_error failed

theorem scan_error {holds : Condition → Except ε Bool} {passed : Bool} {nodes : List Node} {e : ε}
    (failed : scan holds passed nodes = .error e) :
    ∃ c ∈ Node.allConditions nodes, holds c = .error e := by
  match nodes with
  | [] => cases failed
  | node :: rest =>
    rw [scan] at failed
    split at failed
    · cases failed
    · rcases error_of_bind failed with here | ⟨found, -, behind⟩
      · obtain ⟨c, member, fails⟩ := outcome_error here
        exact ⟨c, List.mem_append_left _ member, fails⟩
      · obtain ⟨c, member, fails⟩ := scan_error behind
        exact ⟨c, List.mem_append_right _ member, fails⟩
end

end Evaluation

namespace Resolver
variable {chain : Resolver} {context context' : Option Context}

mutual
theorem expand_congr {operand : Operand}
    (agree : ∀ p ∈ operand.paths, chain.resolve context p = chain.resolve context' p) :
    chain.expand context operand = chain.expand context' operand := by
  cases operand with
  | path p => exact agree p (by simp [Operand.paths])
  | list items => exact congrArg (Except.map _) (expandItems_congr agree)
  | real x => cases x <;> rfl
  | int | str | bool | nothing => rfl

theorem expandItems_congr {items : List Operand}
    (agree : ∀ p ∈ Operand.listPaths items, chain.resolve context p = chain.resolve context' p) :
    chain.expandItems context items = chain.expandItems context' items := by
  match items with
  | [] => rfl
  | item :: rest =>
    rw [Operand.listPaths, List.forall_mem_append] at agree
    rw [expandItems, expandItems, expand_congr agree.1, expandItems_congr agree.2]
end

mutual
theorem expand_error {operand : Operand} {e : Error}
    (failed : chain.expand context operand = .error e) :
    ∃ p ∈ operand.paths, chain.resolve context p = .error e := by
  cases operand with
  | path p => exact ⟨p, by simp [Operand.paths], failed⟩
  | list items => exact expandItems_error (map_eq_error_iff.mp failed)
  | real x => cases x <;> cases failed
  | int | str | bool | nothing => cases failed

theorem expandItems_error {items : List Operand} {e : Error}
    (failed : chain.expandItems context items = .error e) :
    ∃ p ∈ Operand.listPaths items, chain.resolve context p = .error e := by
  match items with
  | [] => cases failed
  | item :: rest =>
    rw [expandItems] at failed
    rcases error_of_bind failed with here | ⟨value, -, failed⟩
    · obtain ⟨p, member, unresolved⟩ := expand_error here
      exact ⟨p, List.mem_append_left _ member, unresolved⟩
    · rcases error_of_bind failed with behind | ⟨values, -, failed⟩
      · obtain ⟨p, member, unresolved⟩ := expandItems_error behind
        exact ⟨p, List.mem_append_right _ member, unresolved⟩
      · cases failed
end

end Resolver

namespace Condition
variable {chain : Resolver} {context context' : Option Context} {c : Condition}

theorem examine_congr (agree : ∀ p ∈ c.paths, chain.resolve context p = chain.resolve context' p) :
    c.examine chain context = c.examine chain context' := by
  rw [paths, List.forall_mem_append] at agree
  rw [examine, examine, Resolver.expand_congr agree.1, Resolver.expand_congr agree.2]

theorem holds_error {e : Error} (failed : c.holds chain context = .error e) :
    (∃ p ∈ c.paths, chain.resolve context p = .error e) ∨ ∃ refusal, e = .mismatch refusal := by
  have failed : c.examine chain context = .error e := map_eq_error_iff.mp failed
  rcases error_of_bind failed with here | ⟨left, -, failed⟩
  · obtain ⟨p, member, unresolved⟩ := Resolver.expand_error here
    exact .inl ⟨p, List.mem_append_left _ member, unresolved⟩
  · rcases error_of_bind failed with behind | ⟨right, -, failed⟩
    · obtain ⟨p, member, unresolved⟩ := Resolver.expand_error behind
      exact .inl ⟨p, List.mem_append_right _ member, unresolved⟩
    · rcases error_of_bind failed with refused | ⟨matched, -, failed⟩
      · cases answer : c.operator.apply left right with
        | error refusal =>
          rw [answer] at refused
          cases refused
          exact .inr ⟨refusal, rfl⟩
        | ok matched =>
          rw [answer] at refused
          cases refused
      · cases failed

end Condition

namespace Sequence
variable {chain : Resolver} {context context' : Option Context} {nodes : Sequence}

theorem mem_paths_of_condition {c : Condition} (member : c ∈ Node.allConditions nodes) {p : Text}
    (inside : p ∈ c.paths) : p ∈ nodes.paths := by
  rw [mem_paths, Node.allPaths_eq]
  exact List.mem_flatMap_of_mem member inside

theorem recorded_congr
    (agree : ∀ p ∈ nodes.paths, chain.resolve context p = chain.resolve context' p) :
    nodes.recorded chain context = nodes.recorded chain context' := by
  refine Evaluation.record_congr nodes (fun c member => Condition.examine_congr fun p inside => ?_)
    [] 0 false
  exact agree p (mem_paths_of_condition member inside)

theorem recorded_outcome (chain : Resolver) (context : Option Context) (nodes : Sequence) :
    (nodes.recorded chain context).2 = nodes.evaluate chain context :=
  Evaluation.record_outcome (Condition.examine chain context) [] 0 false nodes

theorem evaluate_congr
    (agree : ∀ p ∈ nodes.paths, chain.resolve context p = chain.resolve context' p) :
    nodes.evaluate chain context = nodes.evaluate chain context' := by
  rw [← recorded_outcome, ← recorded_outcome, recorded_congr agree]

theorem explain_congr (traced : Bool)
    (agree : ∀ p ∈ nodes.paths, chain.resolve context p = chain.resolve context' p) :
    nodes.explain traced chain context = nodes.explain traced chain context' := by
  rw [explain, explain, recorded_congr agree]

theorem evaluate_error {e : Error} (failed : nodes.evaluate chain context = .error e) :
    (∃ p ∈ nodes.paths, chain.resolve context p = .error e) ∨ ∃ refusal, e = .mismatch refusal := by
  obtain ⟨c, member, fails⟩ := Evaluation.scan_error failed
  refine (Condition.holds_error fails).imp_left fun ⟨p, inside, unresolved⟩ => ?_
  exact ⟨p, mem_paths_of_condition member inside, unresolved⟩

theorem explain_error {traced : Bool} {e : Error}
    (failed : nodes.explain traced chain context = .error e) :
    nodes.evaluate chain context = .error e := by
  rw [← recorded_outcome]
  simp only [explain] at failed
  exact map_eq_error_iff.mp failed

end Sequence

namespace Rule
variable {config : Config} {query : Text} {chain : Resolver} {rule : Rule} {form : Compiled}

theorem Reached.answers_of_compiles (reached : rule.Reached config query chain)
    (compiles : rule.compile.answer = .ok form) :
    (∀ context, (rule.test context).answer = .ok true ∧
        (rule.explain context).answer = .ok ⟨true, [], []⟩) ∨
      ∃ nodes : Sequence, form.paths = nodes.paths ∧ ∀ context,
        (rule.test context).answer = nodes.evaluate chain context ∧
          (rule.explain context).answer = nodes.explain true chain context := by
  simp only [reached.stands.test_answer, reached.stands.explain_answer]
  rw [reached.stands.compile_answer] at compiles
  simp only [afresh] at compiles ⊢
  by_cases all : query = matchAll
  · exact .inl fun _ => by simp only [if_pos all, and_self]
  · simp only [if_neg all] at compiles ⊢
    cases read : Query.parse config.maxNestingDepth query with
    | error cause =>
      rw [read] at compiles
      cases compiles
    | ok nodes =>
      rw [read] at compiles
      cases compiles
      exact .inr ⟨nodes, rfl, fun _ => ⟨rfl, rfl⟩⟩

/-- The declared paths are all that a rule can see of a context: contexts on which they come to the
    same get the same verdict, the same explanation or the same error. Without such paths every
    context gets the same, and no variable is ever missing. -/
theorem declared_paths_suffice (reached : rule.Reached config query chain)
    (compiles : rule.compile.answer = .ok form) :
    (∀ context context' : Option Context,
      (∀ p ∈ form.paths, chain.resolve context p = chain.resolve context' p) →
        (rule.test context).answer = (rule.test context').answer ∧
          (rule.explain context).answer = (rule.explain context').answer) ∧
    (form.paths = [] → ∀ context context' : Option Context,
      (rule.test context).answer = (rule.test context').answer ∧
        (rule.explain context).answer = (rule.explain context').answer ∧
        ∀ m, (rule.test context).answer ≠ .error (.missing m) ∧
          (rule.explain context).answer ≠ .error (.missing m)) := by
  rcases reached.answers_of_compiles compiles with settled | ⟨nodes, declared, answers⟩
  · simp only [settled, ne_eq, reduceCtorEq, not_false_eq_true, and_self, implies_true]
  · have blind {context context' : Option Context}
        (agree : ∀ p ∈ form.paths, chain.resolve context p = chain.resolve context' p) :
        (rule.test context).answer = (rule.test context').answer ∧
          (rule.explain context).answer = (rule.explain context').answer := by
      rw [declared] at agree
      rw [(answers context).1, (answers context').1, (answers context).2, (answers context').2]
      exact ⟨Sequence.evaluate_congr agree, Sequence.explain_congr true agree⟩
    refine ⟨fun context context' agree => blind agree, fun undeclared context context' => ?_⟩
    have agree : ∀ p ∈ form.paths, chain.resolve context p = chain.resolve context' p := by
      simp [undeclared]
    -- An evaluation misses a variable only through a path, and there is none.
    have present (m : Missing) : nodes.evaluate chain context ≠ .error (.missing m) := by
      intro failed
      rcases Sequence.evaluate_error failed with ⟨p, member, -⟩ | ⟨refusal, clash⟩
      · simp [← declared, undeclared] at member
      · cases clash
    refine ⟨(blind agree).1, (blind agree).2, fun m => ?_⟩
    rw [(answers context).1, (answers context).2]
    exact ⟨present m, fun failed => present m (Sequence.explain_error failed)⟩

/-- The compiled form of `a.b = 1 or c in (1, d)`. -/
def choice : Compiled where
  query := "a.b = 1 or c in (1, d)".toList
  sequence :=
    [.condition ⟨.path "a.b".toList, .equal, .int 1⟩, .connective .or,
      .condition ⟨.path ['c'], .member, .list [.int 1, .path ['d']]⟩]
  paths := ["a.b".toList, ['c'], ['d']]

def pathless : Compiled :=
  ⟨"1 < 2".toList, [.condition ⟨.int 1, .less, .int 2⟩], []⟩

def holding (form : Compiled) : Rule :=
  { fresh Config.standard form.query with compiled := some form }

def bare : Context :=
  ⟨.object [(['a'], .object [(['b'], .bool false)]), (['c'], .str ['x']), (['d'], .str ['x'])]⟩

def full : Context :=
  ⟨.object [(['a'], .object [(['b'], .bool false), (['e'], .null)]), (['c'], .str ['x']),
    (['d'], .str ['x']), (['f'], .array [])]⟩

theorem undeclared_members_unseen :
    ((holding choice).Reached Config.standard choice.query .standard ∧
      (holding choice).compile.answer = .ok choice ∧
      (∀ p ∈ choice.paths, Resolver.standard.resolve (some bare) p =
        Resolver.standard.resolve (some full) p) ∧
      ((holding choice).explain (some bare)).answer =
        ((holding choice).explain (some full)).answer) ∧
    ((holding pathless).Reached Config.standard pathless.query .standard ∧
      (holding pathless).compile.answer = .ok pathless ∧ pathless.paths = [] ∧
      ((holding pathless).test none).answer = ((holding pathless).test (some full)).answer) := by
  obtain ⟨reached, reached'⟩ :
      (holding choice).Reached Config.standard choice.query .standard ∧
        (holding pathless).Reached Config.standard pathless.query .standard :=
    ⟨⟨holding choice, [], by cbv, rfl⟩, holding pathless, [], by cbv, rfl⟩
  have agree : ∀ p ∈ choice.paths, Resolver.standard.resolve (some bare) p =
      Resolver.standard.resolve (some full) p :=
    List.forall_mem_cons.mpr ⟨rfl, List.forall_mem_cons.mpr ⟨rfl,
      List.forall_mem_cons.mpr ⟨rfl, List.forall_mem_nil _⟩⟩⟩
  exact ⟨⟨reached, rfl, agree, ((declared_paths_suffice reached rfl).1 _ _ agree).2⟩,
    reached', rfl, rfl, ((declared_paths_suffice reached' rfl).2 rfl _ _).1⟩

end Rule

end Verdict
