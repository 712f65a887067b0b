import Verdict.Proofs.Footprint

/-!
Extensions of what a rule can see. Accessors that are asked after all others, and members that an
object did not have, give values to paths that had none and leave every value that was found as it
was. So of all outcomes only a missing variable can change.
-/
namespace Verdict

/-- The second result is the first one, unless that one misses a variable. -/
def Persists {α : Type} (first second : Except Error α) : Prop :=
  (∀ m, first ≠ .error (.missing m)) → second = first

namespace Persists
variable {α β : Type}

theorem refl (result : Except Error α) : Persists result result := fun _ => rfl

theorem bind {first second : Except Error α} {next next' : α → Except Error β}
    (persists : Persists first second) (behind : ∀ a, Persists (next a) (next' a)) :
    Persists (first >>= next) (second >>= next') := by
  intro present
  have here : ∀ m, first ≠ .error (.missing m) := fun m missing => present m (by rw [missing]; rfl)
  rw [persists here]
  cases first with
  | error e => rfl
  | ok a => exact behind a present

theorem map {first second : Except Error α} (persists : Persists first second) (f : α → β) :
    Persists (first.map f) (second.map f) :=
  persists.bind fun a => refl (.ok (f a))

end Persists

namespace Resolver

theorem step_append {chain : Resolver} {value next : Json} {segment : Text}
    (found : chain.step value segment = some next) (more : Resolver) :
    Resolver.step (chain ++ more) value segment = some next := by
  unfold step at found ⊢
  rw [List.findSome?_append, found, Option.some_or]

theorem follow_append {chain : Resolver} {value last : Json} {segments : List Text}
    (found : chain.follow value segments = some last) (more : Resolver) :
    Resolver.follow (chain ++ more) value segments = some last := by
  induction segments generalizing value with
  | nil => exact found
  | cons segment rest ih =>
    obtain ⟨next, here, behind⟩ := Option.bind_eq_some_iff.mp found
    rw [follow, step_append here more, Option.bind_some, ih behind]

theorem resolve_error {chain : Resolver} {context : Option Context} {p : Text} {e : Error}
    (failed : chain.resolve context p = .error e) : ∃ m, e = .missing m := by
  unfold resolve at failed
  split at failed
  · cases failed
    exact ⟨_, rfl⟩
  · split at failed
    · cases failed
      exact ⟨_, rfl⟩
    · split at failed <;> cases failed
      exact ⟨_, rfl⟩

theorem resolve_ok_iff {chain : Resolver} {context : Context} {p : Text} {value : Json} :
    chain.resolve (some context) p = .ok value ↔
      context.isEmpty = false ∧ chain.follow context.data (p.splitOn '.') = some value := by
  rw [resolve]
  cases context.isEmpty <;> cases chain.follow context.data (p.splitOn '.') <;> simp

theorem persists_resolve {chain chain' : Resolver} {context context' : Option Context} {p : Text}
    (kept : ∀ value, chain.resolve context p = .ok value → chain'.resolve context' p = .ok value) :
    Persists (chain.resolve context p) (chain'.resolve context' p) := by
  intro present
  cases found : chain.resolve context p with
  | ok value => exact kept value found
  | error e =>
    obtain ⟨m, rfl⟩ := resolve_error found
    exact absurd found (present m)

theorem resolve_append (chain more : Resolver) (context : Option Context) (p : Text) :
    Persists (chain.resolve context p) (Resolver.resolve (chain ++ more) context p) := by
  refine persists_resolve fun value found => ?_
  cases context with
  | none => cases found
  | some context =>
    obtain ⟨nonempty, followed⟩ := resolve_ok_iff.mp found
    exact resolve_ok_iff.mpr ⟨nonempty, follow_append followed more⟩

def Within (members larger : List (Text × Json)) : Prop :=
  ∀ name value, Table.find? name members = some value → Table.find? name larger = some value

theorem step_object (members : List (Text × Json)) (name : Text) :
    standard.step (.object members) name = Table.find? name members := by
  have passed : Accessor.length.access (.object members) name = none := by
    unfold Accessor.length
    show (if name = "length".toList then none else none) = none
    exact ite_self none
  rw [step, standard, List.findSome?_cons, passed]
  exact List.findSome?_singleton

theorem resolve_within {members larger : List (Text × Json)} (within : Within members larger)
    (p : Text) :
    Persists (standard.resolve (some ⟨.object members⟩) p)
      (standard.resolve (some ⟨.object larger⟩) p) := by
  refine persists_resolve fun value found => ?_
  obtain ⟨-, followed⟩ := resolve_ok_iff.mp found
  -- A path has a first segment, so the root itself is the value of none.
  obtain ⟨segment, rest, split⟩ := List.exists_cons_of_ne_nil (List.splitOn_ne_nil '.' p)
  rw [split] at followed
  obtain ⟨next, here, behind⟩ := Option.bind_eq_some_iff.mp followed
  have member : Table.find? segment larger = some next := within _ _ (step_object _ _ ▸ here)
  refine resolve_ok_iff.mpr ⟨?_, ?_⟩
  · cases larger with
    | nil => cases member
    | cons entry others => rfl
  · rw [split, follow, step_object, member, Option.bind_some, behind]

variable {chain chain' : Resolver} {context context' : Option Context}

mutual
theorem persists_expand
    (paths : ∀ p, Persists (chain.resolve context p) (chain'.resolve context' p))
    (operand : Operand) :
    Persists (chain.expand context operand) (chain'.expand context' operand) := by
  cases operand with
  | path p => exact paths p
  | list items => exact (persists_expandItems paths items).map Json.array
  | real x => cases x <;> exact .refl _
  | int | str | bool | nothing => exact .refl _

theorem persists_expandItems
    (paths : ∀ p, Persists (chain.resolve context p) (chain'.resolve context' p))
    (items : List Operand) :
    Persists (chain.expandItems context items) (chain'.expandItems context' items) := by
  match items with
  | [] => exact .refl _
  | item :: rest =>
    rw [expandItems, expandItems]
    exact (persists_expand paths item).bind fun value =>
      (persists_expandItems paths rest).bind fun values => .refl _
end

end Resolver

theorem Condition.persists_examine {chain chain' : Resolver} {context context' : Option Context}
    (paths : ∀ p, Persists (chain.resolve context p) (chain'.resolve context' p))
    (c : Condition) : Persists (c.examine chain context) (c.examine chain' context') :=
  (Resolver.persists_expand paths c.left).bind fun _ =>
    (Resolver.persists_expand paths c.right).bind fun _ => .refl _

namespace Evaluation
variable {examine examine' : Condition → Except Error Finding}

-- The recursion is that of `record`. A scan that misses no variable has met none on its way, so
-- both scans take the same steps; what neither reaches may differ.
mutual
theorem recordNode_persists (conditions : ∀ c, Persists (examine c) (examine' c))
    (address : Address) (passed : Bool) (node : Node)
    (present : ∀ m, (recordNode examine address passed node).2 ≠ .error (.missing m)) :
    recordNode examine' address passed node = recordNode examine address passed node := by
  cases node with
  | condition c =>
    have same : examine' c = examine c :=
      conditions c fun m missing => present m (by rw [recordNode, missing])
    rw [recordNode, recordNode, same]
  | connective joint => rfl
  | group body => exact record_persists conditions address 0 false body present

theorem record_persists (conditions : ∀ c, Persists (examine c) (examine' c))
    (address : Address) (index : Nat) (passed : Bool) (nodes : List Node)
    (present : ∀ m, (record examine address index passed nodes).2 ≠ .error (.missing m)) :
    record examine' address index passed nodes = record examine address index passed nodes := by
  match nodes with
  | [] => rfl
  | node :: rest =>
    rw [record] at present
    rw [record, record]
    cases settled : node.settling? passed with
    | some joint => rfl
    | none =>
      simp only [settled] at present ⊢
      have here := recordNode_persists conditions (address ++ [index]) passed node
      cases first : recordNode examine (address ++ [index]) passed node with
      | mk steps result =>
        rw [first] at present here
        cases result with
        | error e => rw [here present]
        | ok found =>
          rw [here nofun]
          simp only
          rw [record_persists conditions address (index + 1) found rest present]
end

end Evaluation

namespace Sequence
variable {chain chain' : Resolver} {context context' : Option Context}

theorem recorded_persists
    (paths : ∀ p, Persists (chain.resolve context p) (chain'.resolve context' p))
    (nodes : Sequence)
    (present : ∀ m, nodes.evaluate chain context ≠ .error (.missing m)) :
    nodes.recorded chain' context' = nodes.recorded chain context := by
  simp only [← recorded_outcome] at present
  exact Evaluation.record_persists (Condition.persists_examine paths) [] 0 false nodes present

theorem evaluate_persists
    (paths : ∀ p, Persists (chain.resolve context p) (chain'.resolve context' p))
    (nodes : Sequence) :
    Persists (nodes.evaluate chain context) (nodes.evaluate chain' context') := by
  intro present
  rw [← recorded_outcome, ← recorded_outcome, recorded_persists paths nodes present]

theorem explain_persists
    (paths : ∀ p, Persists (chain.resolve context p) (chain'.resolve context' p))
    (nodes : Sequence) (traced : Bool)
    (present : ∀ m, nodes.evaluate chain context ≠ .error (.missing m)) :
    nodes.explain traced chain' context' = nodes.explain traced chain context := by
  rw [explain, explain, recorded_persists paths nodes present]

end Sequence

namespace Rule

theorem compile_withResolver (rule : Rule) (chain : Resolver) :
    (rule.withResolver chain).compile.answer = rule.compile.answer := by
  rw [compile_answer, compile_answer]
  rfl

theorem run_answer_bind {α : Type} (rule : Rule) (context : Option Context)
    (evaluate : Sequence → Except Error α) :
    (rule.run context evaluate).answer =
      rule.compile.answer >>= fun form => evaluate form.sequence := by
  simp only [run]
  split
  case h_1 e failed => rw [failed]; rfl
  case h_2 form compiled => rw [compiled]; rfl

variable {chain chain' : Resolver} {context context' : Option Context}

theorem outcomes_persist
    (paths : ∀ p, Persists (chain.resolve context p) (chain'.resolve context' p)) (rule : Rule)
    (present : ∀ m, ((rule.withResolver chain).test context).answer ≠ .error (.missing m)) :
    ((rule.withResolver chain').test context').answer =
        ((rule.withResolver chain).test context).answer ∧
      ((rule.withResolver chain').explain context').answer =
        ((rule.withResolver chain).explain context).answer := by
  have same (other : Resolver) : (rule.withResolver other).isMatchAll = rule.isMatchAll := rfl
  simp only [test, explain, same] at present ⊢
  by_cases all : rule.isMatchAll
  · simp only [if_pos all, and_self]
  · simp only [if_neg all, run_answer_bind, compile_withResolver] at present ⊢
    cases compiled : rule.compile.answer with
    | error e => exact ⟨rfl, rfl⟩
    | ok form =>
      rw [compiled] at present
      exact ⟨form.sequence.evaluate_persists paths present,
        form.sequence.explain_persists paths true present⟩

/-- Seeing more changes nothing that was decided. Whatever a rule comes to, other than a missing
    variable, it comes to as well with accessors behind its own ones, and in an object with members
    beside those it had; its explanation stays the same, line by line. -/
theorem extensions_conserve (rule : Rule) :
    (∀ (context : Option Context) (chain more : Resolver),
      (∀ m, ((rule.withResolver chain).test context).answer ≠ .error (.missing m)) →
        ((rule.withResolver (chain ++ more)).test context).answer =
            ((rule.withResolver chain).test context).answer ∧
          ((rule.withResolver (chain ++ more)).explain context).answer =
            ((rule.withResolver chain).explain context).answer) ∧
    ∀ members larger : List (Text × Json), Resolver.Within members larger →
      (∀ m, ((rule.withResolver .standard).test (some ⟨.object members⟩)).answer ≠
        .error (.missing m)) →
        ((rule.withResolver .standard).test (some ⟨.object larger⟩)).answer =
            ((rule.withResolver .standard).test (some ⟨.object members⟩)).answer ∧
          ((rule.withResolver .standard).explain (some ⟨.object larger⟩)).answer =
            ((rule.withResolver .standard).explain (some ⟨.object members⟩)).answer :=
  ⟨fun context chain more => rule.outcomes_persist (Resolver.resolve_append chain more context),
    fun _ _ within => rule.outcomes_persist (Resolver.resolve_within within)⟩

/-- The compiled form of `a.length > 3 or b.length = 1`. -/
def lengths : Compiled where
  query := "a.length > 3 or b.length = 1".toList
  sequence :=
    [.condition ⟨.path "a.length".toList, .greater, .int 3⟩, .connective .or,
      .condition ⟨.path "b.length".toList, .equal, .int 1⟩]
  paths := ["a.length".toList, "b.length".toList]

def measured : Context :=
  ⟨.object [(['a'], .object [("length".toList, .number (.int 5))]), (['b'], .str ['x'])]⟩

theorem unreached_length_found :
    ((holding lengths).withResolver [.key]).compile.answer = .ok lengths ∧
      (Resolver.resolve [.key] (some measured) "b.length".toList =
          .error (.missing (.noValue "b.length".toList)) ∧
        Resolver.resolve ([.key] ++ [.length]) (some measured) "b.length".toList =
          .ok (.number (.int 1))) ∧
      (((holding lengths).withResolver ([.key] ++ [.length])).test (some measured)).answer =
        .ok true ∧
      (((holding lengths).withResolver .standard).test
        (some ⟨.object [(['a'], .str "word".toList), (['b'], .str ['x'])]⟩)).answer = .ok true := by
  have decided : (((holding lengths).withResolver [.key]).test (some measured)).answer =
      .ok true := by rfl
  have decided' : (((holding lengths).withResolver .standard).test
      (some ⟨.object [(['a'], .str "word".toList)]⟩)).answer = .ok true := by rfl
  refine ⟨rfl, ⟨rfl, rfl⟩, ?_, ?_⟩
  · rw [((extensions_conserve (holding lengths)).1 (some measured) [.key] [.length]
      (by rw [decided]; nofun)).1, decided]
  · rw [((extensions_conserve (holding lengths)).2 [(['a'], .str "word".toList)] _ ?_
      (by rw [decided']; nofun)).1, decided']
    intro name value found
    simp only [Table.find?] at found ⊢
    split at found
    · simpa [*] using found
    · cases found

end Rule
end Verdict
