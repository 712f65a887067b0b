import Verdict.Proofs.Standing

/-!
The test of all rules, in the order of their names. The first error that is no missing variable
ends it; without one, the answer is the names of the rules that match. Each rule up to the end is
left as its own test leaves it, and each one behind it as it was.
-/
namespace Verdict

theorem Text.not_before_of_before {a b : Text} (first : before a b) : before b a = false :=
  Bool.eq_false_iff.mpr fun second =>
    lt_asymm (before_iff_lt.mp first) (before_iff_lt.mp second)

theorem fatal_iff {result : Except Error Bool} {e : Error} :
    fatal? result = some e ↔ result = .error e ∧ e.isMissing = false := by
  cases result with
  | ok matched => simp [fatal?]
  | error cause =>
    cases missing : cause.isMissing with
    | true =>
      simp only [fatal?, missing, ↓reduceIte, reduceCtorEq, Except.error.injEq, false_iff, not_and]
      rintro rfl
      simp [missing]
    | false =>
      simp only [fatal?, missing, Bool.false_eq_true, ↓reduceIte, Option.some.injEq,
        Except.error.injEq]
      exact ⟨fun same => ⟨same, same ▸ missing⟩, And.left⟩

namespace Store
variable {context : Option Context} {rule : Rule} {rules : List (Text × Rule)}

/-- The first rule whose test ends the tests, and the error of that test. -/
def firstFailure? (context : Option Context) (rules : List (Text × Rule)) :
    Option (Text × Error) :=
  rules.findSome? fun entry => (fatal? (entry.2.test context).answer).map (entry.1, ·)

theorem testAll_tolerated (name : Text) (rest : List (Text × Rule))
    (tolerated : fatal? (rule.test context).answer = none) :
    (testAll context ((name, rule) :: rest)).answer =
        (testAll context rest).answer.map (fun names =>
          if passes (rule.test context).answer then name :: names else names) ∧
      (testAll context ((name, rule) :: rest)).next =
        (name, (rule.test context).next) :: (testAll context rest).next ∧
      firstFailure? context ((name, rule) :: rest) = firstFailure? context rest := by
  have skipped : firstFailure? context ((name, rule) :: rest) = firstFailure? context rest := by
    rw [firstFailure?, List.findSome?_cons, tolerated]
    rfl
  rw [testAll]
  cases answer : (rule.test context).answer with
  | ok matched => exact ⟨rfl, rfl, skipped⟩
  | error e =>
    rw [answer] at tolerated
    have missing : e.isMissing = true := by
      by_contra present
      simp [fatal?, present] at tolerated
    refine ⟨?_, by simp [missing], skipped⟩
    cases (testAll context rest).answer <;> simp [missing, passes, Except.map]

theorem testAll_fatal (name : Text) (rest : List (Text × Rule)) {e : Error}
    (failed : fatal? (rule.test context).answer = some e) :
    (testAll context ((name, rule) :: rest)).answer = .error e ∧
      (testAll context ((name, rule) :: rest)).next = (name, (rule.test context).next) :: rest ∧
      firstFailure? context ((name, rule) :: rest) = some (name, e) := by
  obtain ⟨answer, present⟩ := fatal_iff.mp failed
  rw [testAll, firstFailure?, List.findSome?_cons, failed]
  simp [answer, present]

theorem testAll_answer (context : Option Context) (rules : List (Text × Rule)) :
    (testAll context rules).answer =
      match firstFailure? context rules with
      | some (_, e) => .error e
      | none => .ok ((rules.filter fun entry => passes (entry.2.test context).answer).map
          Prod.fst) := by
  induction rules with
  | nil => rfl
  | cons entry rest ih =>
    obtain ⟨name, rule⟩ := entry
    cases result : fatal? (rule.test context).answer with
    | some e =>
      obtain ⟨answer, -, first⟩ := testAll_fatal name rest result
      rw [answer, first]
    | none =>
      obtain ⟨answer, -, first⟩ := testAll_tolerated name rest result
      rw [answer, first, ih]
      cases firstFailure? context rest with
      | some failure => rfl
      | none =>
        simp only [Except.map, List.filter_cons]
        split <;> rfl

theorem firstFailure_mem {failure : Text × Error}
    (first : firstFailure? context rules = some failure) : failure.1 ∈ Table.names rules := by
  obtain ⟨entry, member, found⟩ := List.exists_of_findSome?_eq_some first
  obtain ⟨e, -, rfl⟩ := Option.map_eq_some_iff.mp found
  exact List.mem_map_of_mem member

theorem find_testAll (context : Option Context) (ascending : Table.Ascending rules)
    (name : Text) :
    Table.find? name (testAll context rules).next =
      (Table.find? name rules).map fun rule =>
        if (firstFailure? context rules).any fun failure => Text.before failure.1 name then rule
        else (rule.test context).next := by
  induction rules with
  | nil => rfl
  | cons entry rest ih =>
    obtain ⟨key, rule⟩ := entry
    cases result : fatal? (rule.test context).answer with
    | some e =>
      obtain ⟨-, next, first⟩ := testAll_fatal key rest result
      rw [next, first, Table.find?, Table.find?]
      split
      case isTrue same => simp [← same, Text.not_before_self]
      case isFalse =>
        cases found : Table.find? name rest with
        | none => rfl
        | some other =>
          have behind : Text.before key name :=
            ascending.above (Table.find_isSome_iff.mp (by rw [found]; rfl))
          simp [behind]
    | none =>
      obtain ⟨-, next, first⟩ := testAll_tolerated key rest result
      rw [next, first, Table.find?, Table.find?]
      split
      case isFalse => exact ih ascending.tail
      case isTrue same =>
        -- A failure behind a rule does not come before its name.
        have reached : ((firstFailure? context rest).any fun failure =>
            Text.before failure.1 name) = false := by
          cases failed : firstFailure? context rest with
          | none => rfl
          | some failure =>
            have behind : Text.before key failure.1 := ascending.above (firstFailure_mem failed)
            simp [← same, Text.not_before_of_before behind]
        simp [reached]

variable {config : Config} {d : Directory} {store : Store}

theorem Shows.tested (shows : store.Shows config d) (context : Option Context)
    {entry : Text × Rule} (member : entry ∈ store.rules) :
    d.lookup entry.1 = some entry.2.listing ∧
      entry.2.listing.verdict config.maxNestingDepth context = (entry.2.test context).answer := by
  have found : store.get? entry.1 = some entry.2 := Table.find_of_mem store.ascending member
  refine ⟨?_, ((shows.stands found).test_answer context).symm⟩
  rw [shows.lookup, found, Option.map_some]

theorem Shows.failure (shows : store.Shows config d) (context : Option Context) :
    d.failure? config.maxNestingDepth context = firstFailure? context store.rules := by
  rw [Directory.failure?, ← shows.names, Store.names, Table.names, List.findSome?_map,
    firstFailure?, ← List.head?_filterMap, ← List.head?_filterMap]
  congr 1
  refine List.filterMap_congr fun entry member => ?_
  obtain ⟨listed, verdict⟩ := shows.tested context member
  simp only [Function.comp_apply, listed, Option.bind_some, verdict]

theorem Shows.matching (shows : store.Shows config d) (context : Option Context) :
    d.matching config.maxNestingDepth context =
      (store.rules.filter fun entry => passes (entry.2.test context).answer).map Prod.fst := by
  rw [Directory.matching, ← shows.names, Store.names, Table.names, List.filter_map]
  congr 1
  refine List.filter_congr fun entry member => ?_
  obtain ⟨listed, verdict⟩ := shows.tested context member
  simp only [Function.comp_apply, listed, Option.any_some, verdict]

theorem get_evaluateAll (store : Store) (context : Option Context) (name : Text) :
    (store.evaluateAll context).next.get? name = (store.get? name).map fun rule =>
      if (firstFailure? context store.rules).any fun failure => Text.before failure.1 name then rule
      else (rule.test context).next :=
  find_testAll context store.ascending name

theorem Shows.evaluateAll (shows : store.Shows config d) (context : Option Context) :
    (store.evaluateAll context).answer =
        (match d.failure? config.maxNestingDepth context with
          | some (_, e) => .error e
          | none => .ok (d.matching config.maxNestingDepth context)) ∧
      (store.evaluateAll context).next.Shows config
        (d.evaluated config.maxNestingDepth context) := by
  refine ⟨?_, shows.settings, fun entry member => ?_, Finmap.ext_lookup fun name => ?_⟩
  · rw [shows.failure, shows.matching]
    exact testAll_answer context store.rules
  · have found : (store.evaluateAll context).next.get? entry.1 = some entry.2 :=
      Table.find_of_mem (store.evaluateAll context).next.ascending member
    rw [get_evaluateAll] at found
    obtain ⟨rule, before, after⟩ := Option.map_eq_some_iff.mp found
    have stands := shows.stands before
    rw [← shows.settings] at stands
    rw [← after]
    split
    · exact stands
    · rw [Rule.test_next, stands.compile.ownQuery]
      exact stands.compile
  · rw [lookup_directory, get_evaluateAll, Directory.evaluated, Directory.lookup_mapListings,
      shows.lookup, shows.failure]
    cases found : store.get? name with
    | none => rfl
    | some rule =>
      have tested := (shows.stands found).compile_listing
      rw [← Rule.test_next rule context] at tested
      simp only [Option.map_some, ← Text.before_iff_lt, Bool.decide_eq_true]
      split
      · rfl
      · rw [tested]

end Store
end Verdict
