import Verdict.Proofs.Extension
import Verdict.Proofs.Selection

/-!
Stores that compile their rules as they come in. What such a store holds is compiled, apart from
the rule `*`, and stays so through every operation; so a text that cannot be read is reported when
it comes in and never later.
-/
namespace Verdict

/-- Whether the rule is compiled is settled by its text: it is, unless it is the rule `*`. -/
def Listing.Settled (l : Listing) : Prop := l.compiled = (l.query != Rule.matchAll)

theorem Listing.settled_fresh {config : Config} (eager : config.lazy = false) (query : Text) :
    (fresh config query).Settled := by
  rw [Settled, fresh, eager, Bool.not_false, Bool.true_and]

theorem Listing.Settled.evaluated {l : Listing} (settled : l.Settled) (limit : Nat) :
    l.evaluated limit = l := by
  have kept (readable : Bool) : (l.compiled || l.compiled && readable) = l.compiled := by
    cases l.compiled <;> rfl
  rw [Settled] at settled
  rw [Listing.evaluated, ← settled, kept]

namespace Directory
variable {config : Config} {d : Directory} {l : Listing} {name : Text}

def Settled (d : Directory) : Prop := ∀ name l, d.lookup name = some l → l.Settled

theorem settled_empty : Settled ∅ := by
  intro name l found
  rw [Finmap.lookup_empty] at found
  cases found

theorem Settled.insert (settled : d.Settled) (here : l.Settled) (name : Text) :
    Settled (Finmap.insert name l d) := by
  intro key other found
  by_cases same : key = name
  · rw [same, Finmap.lookup_insert] at found
    cases found
    exact here
  · rw [Finmap.lookup_insert_of_ne _ same] at found
    exact settled key other found

theorem Settled.erase (settled : d.Settled) (name : Text) : Settled (Finmap.erase name d) := by
  intro key other found
  by_cases same : key = name
  · rw [same, Finmap.lookup_erase] at found
    cases found
  · rw [Finmap.lookup_erase_ne same] at found
    exact settled key other found

theorem Settled.load (settled : d.Settled) (eager : config.lazy = false) (rule : Text × Text) :
    (d.load config rule).Settled := by
  rw [Directory.load]
  split
  · exact settled.insert (Listing.settled_fresh eager rule.2) rule.1
  · exact settled

theorem Settled.evaluated (settled : d.Settled) (limit : Nat) (context : Option Context) :
    (d.evaluated limit context).Settled := by
  intro name l found
  rw [Directory.evaluated, lookup_mapListings] at found
  obtain ⟨before, there, rfl⟩ := Option.map_eq_some_iff.mp found
  have here := settled name before there
  split
  · exact here
  · rwa [here.evaluated]

end Directory

namespace Registry
variable {r : Registry}

/-- Nothing is deferred, and nothing is waiting to be compiled. -/
structure Eager (r : Registry) : Prop where
  notLazy : r.config.lazy = false
  settled : r.directory.Settled

theorem Eager.run (eager : r.Eager) (c : Command) : (r.run c).2.Eager := by
  obtain ⟨notLazy, settled⟩ := eager
  refine ⟨(congrArg Config.lazy (r.run_config c)).trans notLazy, ?_⟩
  cases c with
  | load name query => exact settled.load notLazy (name, query)
  | delete name =>
    rw [Registry.run]
    split
    · exact settled.erase name
    · exact settled
  | loadBatch rules =>
    exact List.foldlRecOn rules _ settled fun _ settled rule _ => settled.load notLazy rule
  | evaluate name context =>
    rw [Registry.run]
    split
    case h_1 => exact settled
    case h_2 l found =>
      have here := settled name l found
      exact settled.insert (by rwa [here.evaluated]) name
  | evaluateAll context => exact settled.evaluated r.limit context
  | clear => exact Directory.settled_empty
  | get | contains | list | statistics | clone => exact settled

theorem Eager.ask (eager : r.Eager) (request : Nat × Request) : (r.ask request).2.Eager := by
  unfold Registry.ask
  split
  · split
    case h_1 c _ => exact eager.run c
    all_goals exact eager
  · exact eager

theorem Eager.after (eager : r.Eager) (requests : List (Nat × Request)) :
    (Machine.after Registry.ask r requests).Eager :=
  Machine.after_keeps Eager (fun _ request eager => eager.ask request) eager requests

end Registry

theorem Sequence.evaluate_fails {chain : Resolver} {context : Option Context} {nodes : Sequence}
    {e : Error} (failed : nodes.evaluate chain context = .error e) :
    (∃ m, e = .missing m) ∨ ∃ refusal, e = .mismatch refusal :=
  (evaluate_error failed).imp_left fun ⟨_, _, unresolved⟩ => Resolver.resolve_error unresolved

namespace Rule
variable {limit : Nat} {query : Text} {chain : Resolver} {rule : Rule}

theorem Stands.parse_of_kept (stands : Stands limit query chain rule) {form : Compiled}
    (kept : rule.compiled = some form) : Query.parse limit query = .ok form.sequence := by
  obtain ⟨nodes, read, rfl⟩ := Compiled.ofQuery_eq_ok_iff.mp (stands.kept form kept)
  exact read

end Rule

namespace Store
variable {config : Config} {store : Store} {context : Option Context} {name : Text} {rule : Rule}
  {e : Error}

theorem Reached.isCompiled (reached : store.Reached config) (eager : config.lazy = false)
    (found : store.get? name = some rule) : rule.isCompiled = (rule.query != Rule.matchAll) := by
  obtain ⟨requests, shows⟩ := reached.shows_after
  have start : (Registry.start config).Eager := ⟨eager, Directory.settled_empty⟩
  refine (start.after requests).settled name rule.listing ?_
  rw [shows.lookup, found, Option.map_some]

theorem Reached.ready (reached : store.Reached config) (eager : config.lazy = false)
    (found : store.get? name = some rule) (notAll : rule.query ≠ Rule.matchAll) :
    ∃ form, rule.compiled = some form ∧
      Query.parse config.maxNestingDepth rule.query = .ok form.sequence := by
  obtain ⟨d, shows⟩ := reached.shows
  have compiled : rule.compiled.isSome := by
    rw [← Rule.isCompiled, reached.isCompiled eager found]
    simpa using notAll
  obtain ⟨form, kept⟩ := Option.isSome_iff_exists.mp compiled
  exact ⟨form, kept, (shows.stands found).parse_of_kept kept⟩

theorem Reached.test_fails (reached : store.Reached config) (eager : config.lazy = false)
    (found : store.get? name = some rule) (failed : (rule.test context).answer = .error e) :
    (∃ m, e = .missing m) ∨ ∃ refusal, e = .mismatch refusal := by
  obtain ⟨d, shows⟩ := reached.shows
  rw [(shows.stands found).test_answer, Rule.afresh] at failed
  split at failed
  case isTrue => cases failed
  case isFalse notAll =>
    obtain ⟨form, -, read⟩ := reached.ready eager found notAll
    rw [read] at failed
    exact Sequence.evaluate_fails failed

theorem Reached.statistics_compiled (reached : store.Reached config)
    (eager : config.lazy = false) : store.statistics.compiled =
      store.rules.countP fun entry => entry.2.query != Rule.matchAll := by
  rw [statistics, List.length_filterMap_eq_countP]
  refine List.countP_congr fun entry member => ?_
  rw [← Rule.isCompiled, reached.isCompiled eager (Table.find_of_mem store.ascending member)]

/-- A store that compiles at once never fails late. Whatever was asked of it, through whichever of
    its handles, every rule but the rule `*` is compiled, and what it has kept is its text, read.
    So a test by name fails because there is no such rule, for a missing variable or for operands
    that an operator refuses; the test of all rules fails for refused operands only; and the
    statistics count as compiled all rules but those whose text is `*`. -/
theorem eager_never_fails_late (reached : store.Reached config) (eager : config.lazy = false) :
    (∀ name rule, store.get? name = some rule → rule.query ≠ Rule.matchAll →
      ∃ form, rule.compiled = some form ∧
        Query.parse config.maxNestingDepth rule.query = .ok form.sequence) ∧
    (∀ name context e, (store.evaluate name context).answer = .error e →
      (e = .ruleNotFound name ∧ store.get? name = none) ∨
        (∃ m, e = .missing m) ∨ ∃ refusal, e = .mismatch refusal) ∧
    (∀ context e, (store.evaluateAll context).answer = .error e →
      ∃ refusal, e = .mismatch refusal) ∧
    store.statistics.compiled =
      store.rules.countP fun entry => entry.2.query != Rule.matchAll := by
  refine ⟨fun name rule found notAll => reached.ready eager found notAll,
    fun name context e failed => ?_, fun context e failed => ?_,
    reached.statistics_compiled eager⟩
  · rw [evaluate] at failed
    cases found : store.get? name with
    | none =>
      rw [found] at failed
      cases failed
      exact .inl ⟨rfl, rfl⟩
    | some rule =>
      rw [found] at failed
      exact .inr (reached.test_fails eager found failed)
  · obtain ⟨name, ⟨tested, present⟩, -⟩ := evaluateAll_error_iff.mp failed
    obtain ⟨rule, found, answer⟩ := Option.map_eq_some_iff.mp tested
    rcases reached.test_fails eager found answer with ⟨m, rfl⟩ | refused
    · cases present
    · exact refused

def prepared : Store where
  config := .standard
  rules := [(['a'], .holding Rule.aboveOne), (['c'], .fresh .standard Rule.matchAll)]
  ascending := by simp [Table.Ascending, Text.before]

def wordy : Context := ⟨.object [(['a'], .str ['x'])]⟩

theorem prepared_refuses_operands_only :
    prepared.Reached .standard ∧ Config.standard.lazy = false ∧
      (prepared.evaluateAll (some wordy)).answer =
        .error (.mismatch ⟨.greater, .text, .kind .int⟩) ∧
      (∀ name context cause, (prepared.evaluate name context).answer ≠ .error (.parse cause)) ∧
      prepared.statistics.compiled = 1 := by
  have reached : prepared.Reached .standard :=
    ⟨[(0, .command (.loadBatch [(['a'], Rule.aboveOne.query), (['b'], "a or".toList),
      (['c'], Rule.matchAll)])), (0, .command .clone), (1, .command (.evaluate ['a'] none))],
      1, ⟨prepared, 2⟩, by rfl, rfl⟩
  obtain ⟨-, late, -, counted⟩ := eager_never_fails_late reached rfl
  refine ⟨reached, rfl, by rfl, fun name context cause failed => ?_, counted⟩
  rcases late name context _ failed with ⟨absent, -⟩ | ⟨m, missing⟩ | ⟨refusal, refused⟩
  · cases absent
  · cases missing
  · cases refused

end Store
end Verdict
