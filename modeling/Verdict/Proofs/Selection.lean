import Verdict.Proofs.Handles

/-!
Which rules a test of all rules selects. It is decided name by name: the least name whose test fails
ends it with that failure, and without one the names that match are the answer. So the answer is the
same for all stores that hold the same texts under the same names, whatever history they have.
-/
namespace Verdict.Store

/-- The store as it stands, for one of its handles, after some requests. -/
def Reached (config : Config) (store : Store) : Prop :=
  ∃ requests handle session,
    (Machine.after Handles.ask (Handles.start config) requests).session? handle = some session ∧
      session.store = store

def verdict? (store : Store) (context : Option Context) (name : Text) :
    Option (Except Error Bool) :=
  (store.get? name).map fun rule => (rule.test context).answer

/-- The rule of this name fails, and not for a missing variable. -/
def Fails (store : Store) (context : Option Context) (name : Text) (e : Error) : Prop :=
  store.verdict? context name = some (.error e) ∧ e.isMissing = false

variable {config : Config} {store : Store} {context : Option Context} {name : Text} {e : Error}

theorem Reached.shows_after (reached : store.Reached config) : ∃ requests, store.Shows config
    (Machine.after Registry.ask (Registry.start config) requests).directory := by
  obtain ⟨requests, handle, session, there, rfl⟩ := reached
  refine ⟨requests, ?_⟩
  have shows := ((Handles.shows_start config).run requests).2
  have settings := (Registry.start config).after_config requests
  generalize Machine.after Registry.ask (Registry.start config) requests = r at shows settings ⊢
  subst settings
  rw [shows.session] at there
  split at there
  · cases there
    exact shows.store
  · cases there

theorem Reached.shows (reached : store.Reached config) : ∃ d, store.Shows config d := by
  obtain ⟨requests, shows⟩ := reached.shows_after
  exact ⟨_, shows⟩

theorem verdict_of_mem {entry : Text × Rule} (member : entry ∈ store.rules) :
    store.verdict? context entry.1 = some (entry.2.test context).answer := by
  have found : store.get? entry.1 = some entry.2 := Table.find_of_mem store.ascending member
  rw [verdict?, found, Option.map_some]

theorem mem_of_verdict {result : Except Error Bool}
    (tested : store.verdict? context name = some result) :
    ∃ entry ∈ store.rules, entry.1 = name ∧ (entry.2.test context).answer = result := by
  obtain ⟨rule, found, answer⟩ := Option.map_eq_some_iff.mp tested
  exact ⟨(name, rule), Table.mem_of_find found, rfl, answer⟩

theorem fails_of_mem {entry : Text × Rule} (member : entry ∈ store.rules) :
    store.Fails context entry.1 e ↔ fatal? (entry.2.test context).answer = some e := by
  rw [Fails, verdict_of_mem member, Option.some.injEq, fatal_iff]

theorem firstFailure_none_iff :
    firstFailure? context store.rules = none ↔ ∀ name e, ¬ store.Fails context name e := by
  rw [firstFailure?, List.findSome?_eq_none_iff]
  constructor
  · rintro tolerated name e fails
    obtain ⟨entry, member, rfl, -⟩ := mem_of_verdict fails.1
    have none := tolerated entry member
    rw [(fails_of_mem member).mp fails] at none
    cases none
  · intro tolerated entry member
    rw [Option.map_eq_none_iff, Option.eq_none_iff_forall_ne_some]
    exact fun e failed => tolerated entry.1 e ((fails_of_mem member).mpr failed)

theorem fails_of_firstFailure (first : firstFailure? context store.rules = some (name, e)) :
    store.Fails context name e ∧ ∀ other cause, store.Fails context other cause → name ≤ other := by
  rw [firstFailure?, List.findSome?_eq_some_iff] at first
  obtain ⟨front, entry, behind, split, failed, tolerated⟩ := first
  obtain ⟨cause, failed, same⟩ := Option.map_eq_some_iff.mp failed
  cases same
  have member : entry ∈ store.rules := by simp [split]
  refine ⟨(fails_of_mem member).mpr failed, fun other cause fails => ?_⟩
  obtain ⟨second, there, rfl, -⟩ := mem_of_verdict fails.1
  have failed := (fails_of_mem there).mp fails
  have ascending := store.ascending
  rw [split] at there ascending
  rcases List.mem_append.mp there with before | after
  · have none := tolerated second before
    rw [failed] at none
    cases none
  · rcases List.mem_cons.mp after with same | later
    · exact same ▸ le_rfl
    · have ordered := (List.pairwise_append.mp ascending).2.1
      exact (Text.before_iff_lt.mp (List.rel_of_pairwise_cons ordered later)).le

theorem firstFailure_some_iff :
    firstFailure? context store.rules = some (name, e) ↔
      store.Fails context name e ∧
        ∀ other cause, store.Fails context other cause → name ≤ other := by
  refine ⟨fails_of_firstFailure, fun ⟨fails, least⟩ => ?_⟩
  cases first : firstFailure? context store.rules with
  | none => exact absurd fails (firstFailure_none_iff.mp first name e)
  | some failure =>
    obtain ⟨found, lowest⟩ := fails_of_firstFailure first
    have same : failure.1 = name := le_antisymm (lowest _ _ fails) (least _ _ found)
    have cause := fails.1
    rw [← same, found.1] at cause
    cases cause
    rw [← same]

theorem evaluateAll_error_iff : (store.evaluateAll context).answer = .error e ↔
    ∃ name, store.Fails context name e ∧
      ∀ other cause, store.Fails context other cause → name ≤ other := by
  have answer := testAll_answer context store.rules
  simp only [← firstFailure_some_iff]
  rw [evaluateAll]
  rw [answer]
  cases firstFailure? context store.rules with
  | none => simp
  | some failure => simp [Prod.ext_iff]

theorem mem_matching : name ∈
      (store.rules.filter fun entry => passes (entry.2.test context).answer).map Prod.fst ↔
    store.verdict? context name = some (.ok true) := by
  have passes_iff {result : Except Error Bool} : passes result = true ↔ result = .ok true := by
    cases result <;> simp [passes]
  simp only [List.mem_map, List.mem_filter, passes_iff]
  constructor
  · rintro ⟨entry, ⟨member, passed⟩, rfl⟩
    rw [verdict_of_mem member, passed]
  · intro tested
    obtain ⟨entry, member, same, passed⟩ := mem_of_verdict tested
    exact ⟨entry, ⟨member, passed⟩, same⟩

theorem evaluateAll_ok_iff {names : List Text} : (store.evaluateAll context).answer = .ok names ↔
    (∀ name e, ¬ store.Fails context name e) ∧ names.Pairwise (· < ·) ∧
      ∀ name, name ∈ names ↔ store.verdict? context name = some (.ok true) := by
  have answer := testAll_answer context store.rules
  have ascending : ((store.rules.filter fun entry => passes (entry.2.test context).answer).map
      Prod.fst).Pairwise (· < ·) :=
    List.pairwise_map.mpr ((List.Pairwise.filter _ store.ascending).imp Text.before_iff_lt.mp)
  simp only [← firstFailure_none_iff, ← mem_matching]
  rw [evaluateAll]
  rw [answer]
  cases firstFailure? context store.rules with
  | some failure => simp
  | none =>
    simp only [Except.ok.injEq, true_and]
    constructor
    · rintro rfl
      exact ⟨ascending, fun name => Iff.rfl⟩
    · rintro ⟨ordered, members⟩
      exact ascending.eq_of_mem_iff ordered fun name => (members name).symm

theorem evaluateAll_congr {other : Store}
    (same : ∀ name, other.verdict? context name = store.verdict? context name) :
    (other.evaluateAll context).answer = (store.evaluateAll context).answer := by
  cases answer : (store.evaluateAll context).answer with
  | error e =>
    rw [evaluateAll_error_iff] at answer ⊢
    simpa only [Fails, same] using answer
  | ok names =>
    rw [evaluateAll_ok_iff] at answer ⊢
    simpa only [Fails, same] using answer

theorem Reached.verdict (reached : store.Reached config) (context : Option Context) (name : Text) :
    store.verdict? context name = ((store.get? name).map Rule.query).map fun query =>
      Rule.afresh config.maxNestingDepth query true (Sequence.evaluate .standard context) := by
  obtain ⟨d, shows⟩ := reached.shows
  rw [verdict?, Option.map_map]
  refine Option.map_congr fun rule found => ?_
  exact (shows.stands found).test_answer context

theorem Reached.query_evaluateAll (reached : store.Reached config) (context : Option Context)
    (name : Text) :
    ((store.evaluateAll context).next.get? name).map Rule.query =
      (store.get? name).map Rule.query := by
  obtain ⟨d, shows⟩ := reached.shows
  rw [get_evaluateAll, Option.map_map]
  refine Option.map_congr fun rule found => ?_
  rw [Function.comp_apply]
  split
  · rfl
  · rw [Rule.test_next, (shows.stands found).compile.ownQuery]

theorem get_behind_failure (fails : store.Fails context name e) {other : Text}
    (behind : name < other) :
    (store.evaluateAll context).next.get? other = store.get? other := by
  rw [get_evaluateAll]
  cases first : firstFailure? context store.rules with
  | none => exact absurd fails (firstFailure_none_iff.mp first name e)
  | some failure =>
    have reached : failure.1 < other := ((fails_of_firstFailure first).2 _ _ fails).trans_lt behind
    simp [Text.before_iff_lt.mpr reached]

/-- A test of all rules fails exactly if one of them fails, and not for a missing variable; then
    it fails as the least such name does. Otherwise it gives the names that match, ascending. Every
    store that was reached with the same limit and holds the same texts under the same names
    answers alike. The test leaves all names and texts as they are, and the rules behind a failure
    altogether. -/
theorem selection_exact (reached : store.Reached config) (context : Option Context) :
    (∀ e, (store.evaluateAll context).answer = .error e ↔
      ∃ name, store.Fails context name e ∧
        ∀ other cause, store.Fails context other cause → name ≤ other) ∧
    (∀ names, (store.evaluateAll context).answer = .ok names ↔
      (∀ name e, ¬ store.Fails context name e) ∧ names.Pairwise (· < ·) ∧
        ∀ name, name ∈ names ↔ store.verdict? context name = some (.ok true)) ∧
    (∀ (config' : Config) (other : Store), other.Reached config' →
      config'.maxNestingDepth = config.maxNestingDepth →
      (∀ name, (other.get? name).map Rule.query = (store.get? name).map Rule.query) →
      (other.evaluateAll context).answer = (store.evaluateAll context).answer) ∧
    (∀ name, ((store.evaluateAll context).next.get? name).map Rule.query =
      (store.get? name).map Rule.query) ∧
    ∀ name e, store.Fails context name e → ∀ behind, name < behind →
      (store.evaluateAll context).next.get? behind = store.get? behind := by
  refine ⟨fun e => evaluateAll_error_iff, fun names => evaluateAll_ok_iff,
    fun config' other reached' limit texts => ?_, reached.query_evaluateAll context,
    fun name e fails behind beyond => get_behind_failure fails beyond⟩
  refine evaluateAll_congr fun name => ?_
  rw [reached'.verdict, reached.verdict, texts, limit]

def deferring : Config := { Config.standard with lazy := true }

/-- A rule that misses its variable, one that cannot be read, and the rule `*`. -/
def three (compiled : Option Compiled) : Store where
  config := deferring
  rules :=
    [(['a'], { Rule.fresh deferring Rule.aboveOne.query with compiled }),
      (['b'], .fresh deferring "a or".toList), (['c'], .fresh deferring Rule.matchAll)]
  ascending := by simp [Table.Ascending, Text.before]

theorem unreadable_rule_decides :
    (three none).Reached deferring ∧ (three (some Rule.aboveOne)).Reached deferring ∧
      (three none).Fails none ['b'] (.parse (.unexpected 1 3 [.operator])) ∧
      ((three none).evaluateAll none).answer = .error (.parse (.unexpected 1 3 [.operator])) ∧
      ((three (some Rule.aboveOne)).evaluateAll none).answer =
        .error (.parse (.unexpected 1 3 [.operator])) ∧
      ((three none).evaluateAll none).next.get? ['c'] = (three none).get? ['c'] := by
  have unasked : (three none).Reached deferring :=
    ⟨[(0, .command (.load ['c'] Rule.matchAll)), (0, .command .clone),
      (1, .command (.load ['b'] "a or".toList)), (0, .command (.load ['a'] Rule.aboveOne.query))],
      1, ⟨three none, 2⟩, rfl, rfl⟩
  have asked : (three (some Rule.aboveOne)).Reached deferring :=
    ⟨[(0, .command (.load ['a'] Rule.aboveOne.query)), (0, .command (.evaluate ['a'] none)),
      (0, .command (.load ['b'] "a or".toList)), (0, .command (.load ['c'] Rule.matchAll))],
      0, ⟨three (some Rule.aboveOne), 1⟩, by rfl, rfl⟩
  have missing : (three none).verdict? none ['a'] =
      some (.error (.missing (.noContext ['a']))) := by rfl
  have unreadable : (three none).Fails none ['b'] (.parse (.unexpected 1 3 [.operator])) :=
    ⟨by rfl, rfl⟩
  have texts (name : Text) : ((three (some Rule.aboveOne)).get? name).map Rule.query =
      ((three none).get? name).map Rule.query := by
    simp only [get?, three, Table.find?]
    split <;> rfl
  obtain ⟨error, -, alike, -, behind⟩ := selection_exact unasked none
  have answer : ((three none).evaluateAll none).answer =
      .error (.parse (.unexpected 1 3 [.operator])) := by
    refine (error _).mpr ⟨['b'], unreadable, fun other cause fails => ?_⟩
    obtain ⟨entry, member, rfl, -⟩ := mem_of_verdict fails.1
    simp only [three, List.mem_cons, List.not_mem_nil, or_false] at member
    rcases member with rfl | rfl | rfl
    · cases missing.symm.trans fails.1
      cases fails.2
    · exact le_rfl
    · decide
  exact ⟨unasked, asked, unreadable, answer, (alike deferring _ asked rfl texts).trans answer,
    behind _ _ unreadable ['c'] (by decide)⟩

end Verdict.Store
