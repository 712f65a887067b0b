import Verdict.Proofs.Canonical
import Verdict.Proofs.Directory
import Verdict.Proofs.Footprint
import Verdict.Proofs.Lookup

/-!
Stores and their directories. The rules of a store stand as their texts and the settings make them,
whatever they were asked; so a store shows a directory, and what an operation does to the store is
known from what it does to that directory.
-/
namespace Verdict

theorem Sequence.paths_length (nodes : Sequence) :
    nodes.paths.length = (Node.allPaths nodes).toFinset.card := by
  have distinct : nodes.paths.Nodup :=
    ((Table.ascending_iff _).mp (Table.ascending_ofList _)).nodup
  rw [← List.toFinset_card_of_nodup distinct]
  congr 1
  ext p
  rw [List.mem_toFinset, List.mem_toFinset, mem_paths]

namespace Rule
variable {limit : Nat} {query : Text} {chain : Resolver} {rule : Rule}

def listing (rule : Rule) : Listing := ⟨rule.query, rule.isCompiled⟩

theorem test_next (rule : Rule) (context : Option Context) :
    (rule.test context).next = rule.compile.next :=
  rule.perform_next (.test context)

theorem Stands.compile_listing (stands : Stands limit query chain rule) :
    rule.compile.next.listing = rule.listing.evaluated limit := by
  have other : rule.isMatchAll = false → (rule.query != matchAll) = true := by
    simp [isMatchAll]
  unfold Rule.compile
  split
  case isTrue all => simp_all [listing, Listing.evaluated, isMatchAll]
  case isFalse notAll =>
    split
    case h_1 form kept => simp [listing, Listing.evaluated, isCompiled, kept]
    case h_2 =>
      rw [stands.ownLimit, Compiled.ofQuery_eq]
      cases read : Query.parse limit rule.query <;>
        simp_all [listing, Listing.evaluated, isCompiled, Except.map, Except.isOk, Except.toBool]

theorem Stands.fields (stands : Stands limit query chain rule) {form : Compiled}
    (kept : rule.compiled = some form) : form.paths.length = rule.listing.fields limit := by
  obtain ⟨nodes, read, rfl⟩ := Compiled.ofQuery_eq_ok_iff.mp (stands.kept form kept)
  rw [Listing.fields, listing, stands.ownQuery, read]
  exact nodes.paths_length

theorem create_listing (config : Config) (query : Text) :
    (create config query).1.map listing =
      (Directory.accept config query).map fun _ => Listing.fresh config query := by
  cases deferred : config.lazy with
  | true =>
    simp [create, Directory.accept, Listing.fresh, deferred, listing, fresh, isCompiled,
      Except.map]
  | false =>
    by_cases all : query = matchAll
    · simp [create, Directory.accept, Listing.fresh, deferred, listing, fresh, isCompiled,
        Except.map, isMatchAll, all]
    · have other : (fresh config query).isMatchAll = false := by simpa [isMatchAll, fresh] using all
      have stands := stands_fresh config query
      have kept := stands.compile_listing
      have notAll : (query != matchAll) = true := by simpa using all
      simp only [create, Directory.accept, deferred, other, Bool.or_self, Bool.false_eq_true,
        ↓reduceIte, Bool.false_or, beq_iff_eq, all, stands.compile_answer, afresh]
      cases read : Query.parse config.maxNestingDepth query with
      | error e => rfl
      | ok nodes =>
        have flag : Listing.fresh config query =
            (fresh config query).listing.evaluated config.maxNestingDepth := by
          simp [Listing.fresh, Listing.evaluated, listing, isCompiled, fresh, deferred, notAll,
            read, Except.isOk, Except.toBool]
        rw [flag, ← kept]
        rfl

theorem create_cases (config : Config) (query : Text) :
    (∃ rule, (create config query).1 = .ok rule ∧ Directory.accept config query = .ok () ∧
        rule.listing = Listing.fresh config query) ∨
      ∃ e, (create config query).1 = .error e ∧ Directory.accept config query = .error e := by
  have listed := create_listing config query
  cases made : (create config query).1 with
  | ok rule =>
    rw [made] at listed
    cases accepted : Directory.accept config query with
    | ok _ =>
      rw [accepted] at listed
      exact .inl ⟨rule, rfl, rfl, Except.ok.inj listed⟩
    | error e =>
      rw [accepted] at listed
      cases listed
  | error e =>
    rw [made] at listed
    exact .inr ⟨e, rfl, map_eq_error_iff.mp listed.symm⟩

end Rule

namespace Store

/-- Each rule is as its text and the settings make it, whatever it was asked. -/
def Standing (store : Store) : Prop :=
  ∀ entry ∈ store.rules,
    Rule.Stands store.config.maxNestingDepth entry.2.query .standard entry.2

def directory (store : Store) : Directory :=
  AList.toFinmap
    { entries := store.rules.map fun entry => ⟨entry.1, entry.2.listing⟩
      nodupKeys := by
        have distinct := ((Table.ascending_iff store.rules).mp store.ascending).nodup
        rw [List.NodupKeys, List.keys, List.map_map]
        exact distinct }

theorem lookup_directory (store : Store) (name : Text) :
    store.directory.lookup name = (store.get? name).map Rule.listing := by
  rw [directory, Finmap.lookup_toFinmap, get?]
  show List.dlookup name (store.rules.map _) = _
  induction store.rules with
  | nil => rfl
  | cons entry rest ih =>
    rw [List.map_cons, Table.find?]
    split
    case isTrue same => simp [List.dlookup, same]
    case isFalse differs => rw [List.dlookup_cons_ne _ _ (Ne.symm differs), ih]

/-- The store has these settings and shows this directory, and its rules stand. -/
structure Shows (config : Config) (d : Directory) (store : Store) : Prop where
  settings : store.config = config
  standing : store.Standing
  directory : store.directory = d

variable {config : Config} {d : Directory} {store : Store} {name : Text} {rule : Rule}

theorem shows_empty (config : Config) : (empty config).Shows config ∅ :=
  ⟨rfl, nofun, rfl⟩

theorem Shows.lookup (shows : store.Shows config d) (name : Text) :
    d.lookup name = (store.get? name).map Rule.listing := by
  rw [← shows.directory, lookup_directory]

theorem Shows.stands (shows : store.Shows config d) (found : store.get? name = some rule) :
    Rule.Stands config.maxNestingDepth rule.query .standard rule := by
  rw [← shows.settings]
  exact shows.standing _ (Table.mem_of_find found)

theorem Shows.put (shows : store.Shows config d) {query : Text}
    (stands : Rule.Stands config.maxNestingDepth query .standard rule) (name : Text) :
    (store.put name rule).Shows config (d.insert name rule.listing) := by
  refine ⟨shows.settings, fun entry member => ?_, Finmap.ext_lookup fun key => ?_⟩
  · rcases Table.mem_insert member with rfl | old
    · rw [← shows.settings, ← stands.ownQuery] at stands
      exact stands
    · exact shows.standing entry old
  · rw [lookup_directory, get?, Store.put, Table.find_insert]
    split
    case isTrue same => rw [same, Finmap.lookup_insert, Option.map_some]
    case isFalse differs => rw [Finmap.lookup_insert_of_ne _ differs, shows.lookup, get?]

theorem Shows.remove (shows : store.Shows config d) (name : Text) :
    (store.remove name).Shows config (d.erase name) := by
  refine ⟨shows.settings, fun entry member => shows.standing entry (Table.mem_erase member),
    Finmap.ext_lookup fun key => ?_⟩
  rw [lookup_directory, get?, Store.remove, Table.find_erase store.ascending]
  split
  case isTrue same => rw [same, Finmap.lookup_erase, Option.map_none]
  case isFalse differs => rw [Finmap.lookup_erase_ne differs, shows.lookup, get?]

theorem Shows.restored (shows : store.Shows config d) :
    Store.Shows config d ⟨config, store.rules, store.ascending⟩ := by
  obtain rfl := shows.settings
  exact shows

theorem Shows.contains (shows : store.Shows config d) (name : Text) :
    store.contains name = decide (name ∈ d) := by
  rw [Bool.eq_iff_iff, decide_eq_true_iff, ← Finmap.lookup_isSome, shows.lookup,
    Option.isSome_map, Store.contains]

theorem Shows.names (shows : store.Shows config d) : store.names = d.names := by
  have ordered := (Table.ascending_iff store.rules).mp store.ascending
  have keys : store.names.toFinset = d.keys := by
    ext name
    rw [List.mem_toFinset, Finmap.mem_keys, ← Finmap.lookup_isSome, shows.lookup,
      Option.isSome_map, Store.names, ← Table.find_isSome_iff, get?]
  rw [Directory.names, ← keys]
  exact ((List.toFinset_sort _ ordered.nodup).mpr
    (ordered.imp fun before => (Text.before_iff_lt.mp before).le)).symm

theorem Shows.size (shows : store.Shows config d) : store.size = d.entries.card := by
  rw [← shows.directory]
  exact (List.length_map _).symm

theorem Shows.isEmpty (shows : store.Shows config d) :
    store.rules.isEmpty = decide (d = ∅) := by
  have size : store.rules.length = d.entries.card := shows.size
  rw [Bool.eq_iff_iff, List.isEmpty_iff_length_eq_zero, size, decide_eq_true_iff, Finmap.ext_iff]
  exact Multiset.card_eq_zero

theorem Shows.statistics (shows : store.Shows config d) :
    store.statistics = d.statistics config.maxNestingDepth := by
  have standing := shows.standing
  rw [← shows.directory, ← shows.settings]
  simp only [Store.statistics, Directory.statistics, Store.directory, AList.toFinmap,
    Multiset.filter_coe, Multiset.map_coe, Multiset.sum_coe, Multiset.coe_card, Statistics.mk.injEq,
    List.length_map, Store.size, true_and, ← List.foldl_map, ← List.sum_eq_foldl]
  unfold Standing at standing
  generalize store.rules = rules at standing
  induction rules with
  | nil => simp
  | cons entry rest ih =>
    obtain ⟨stands, others⟩ := List.forall_mem_cons.mp standing
    have behind := ih others
    cases kept : entry.2.compiled with
    | none =>
      have flag : entry.2.listing.compiled = false := by simp [Rule.listing, Rule.isCompiled, kept]
      simpa [kept, flag] using behind
    | some form =>
      have flag : entry.2.listing.compiled = true := by simp [Rule.listing, Rule.isCompiled, kept]
      simpa [kept, flag, stands.fields kept] using behind

theorem Shows.load (shows : store.Shows config d) (name query : Text) :
    (store.load name query).answer = Directory.accept config query ∧
      (store.load name query).next.Shows config (d.load config (name, query)) := by
  have settings := shows.settings
  rw [Store.load, Directory.load, settings]
  rcases made : Rule.create config query with ⟨result, events⟩
  rcases Rule.create_cases config query with ⟨rule, ok, accepted, fresh⟩ | ⟨e, failed, refused⟩
  · rw [made] at ok
    cases ok
    rw [accepted]
    have stands := Rule.stands_made (congrArg Prod.fst made)
    have put := shows.put stands name
    rw [fresh] at put
    exact ⟨rfl, put⟩
  · rw [made] at failed
    cases failed
    rw [refused]
    exact ⟨rfl, shows⟩

theorem Shows.loadAll (shows : store.Shows config d) (rules : List (Text × Text)) :
    (store.loadAll rules).loaded =
        (rules.filter fun rule => (Directory.accept config rule.2).isOk).map Prod.fst ∧
      (store.loadAll rules).store.Shows config (rules.foldl (Directory.load config) d) := by
  induction rules generalizing store d with
  | nil => exact ⟨rfl, shows⟩
  | cons first rest ih =>
    obtain ⟨name, query⟩ := first
    obtain ⟨answer, after⟩ := shows.load name query
    obtain ⟨loaded, behind⟩ := ih after
    rw [Store.loadAll]
    simp only [answer]
    cases accepted : Directory.accept config query with
    | ok _ => exact ⟨by simp [accepted, Except.isOk, Except.toBool, loaded], behind⟩
    | error e => exact ⟨by simp [accepted, Except.isOk, Except.toBool, loaded], behind⟩

theorem Shows.evaluate (shows : store.Shows config d) (found : store.get? name = some rule)
    (context : Option Context) :
    (store.evaluate name context).answer =
        rule.listing.verdict config.maxNestingDepth context ∧
      (store.evaluate name context).next.Shows config
        (d.insert name (rule.listing.evaluated config.maxNestingDepth)) := by
  have stands := shows.stands found
  rw [Store.evaluate, found]
  refine ⟨stands.test_answer context, ?_⟩
  rw [← stands.compile_listing, ← Rule.test_next rule context]
  exact shows.put (rule.test_next context ▸ stands.compile) name

end Store
end Verdict
