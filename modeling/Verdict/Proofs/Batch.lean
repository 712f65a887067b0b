import Verdict.Store
import Verdict.Proofs.History
import Verdict.Proofs.Lookup

/-!
Loading a batch is loading its rules one after the other. Whether a rule is loaded depends on its
text and the settings alone, so a failure disturbs nothing, of several texts for one name the last
one that loads stays, and rules of different names can be loaded in any order.
-/
namespace Verdict

theorem Table.eq_of_find {α : Type} {entries others : List (Text × α)}
    (first : Ascending entries) (second : Ascending others)
    (found : ∀ name, find? name entries = find? name others) : entries = others := by
  have distinct {entries : List (Text × α)} (ascending : Ascending entries) : entries.Nodup :=
    List.Nodup.of_map Prod.fst ((ascending_iff entries).mp ascending).nodup
  have same : entries.Perm others :=
    (List.perm_ext_iff_of_nodup (distinct first) (distinct second)).mpr fun entry => by
      constructor
      · intro member
        exact mem_of_find ((found entry.1).symm.trans (find_of_mem first member))
      · intro member
        exact mem_of_find ((found entry.1).trans (find_of_mem second member))
  refine List.Perm.eq_of_pairwise (fun a b _ _ below above => ?_) first second same
  have loop := Text.before_trans _ _ _ below above
  rw [Text.not_before_self] at loop
  cases loop

namespace Store
variable {store : Store} {name key query : Text} {rule : Rule} {e : Error}

/-- The store after each of the rules was loaded in its turn, or was refused. -/
def loadEach (store : Store) (rules : List (Text × Text)) : Store :=
  rules.foldl (fun store entry => (store.load entry.1 entry.2).next) store

theorem eq_of_get {other : Store} (settings : store.config = other.config)
    (found : ∀ name, store.get? name = other.get? name) : store = other := by
  obtain ⟨config, rules, ascending⟩ := store
  obtain ⟨config', rules', ascending'⟩ := other
  obtain rfl : config = config' := settings
  obtain rfl : rules = rules' := Table.eq_of_find ascending ascending' found
  rfl

theorem get_put :
    (store.put name rule).get? key = if key = name then some rule else store.get? key :=
  Table.find_insert

theorem load_of_made (made : (Rule.create store.config query).1 = .ok rule) :
    (store.load name query).answer = .ok () ∧
      (store.load name query).next = store.put name rule := by
  rw [load]
  rcases create : Rule.create store.config query with ⟨result, events⟩
  rw [create] at made
  cases made
  exact ⟨rfl, rfl⟩

theorem load_of_refused (refused : (Rule.create store.config query).1 = .error e) :
    (store.load name query).answer = .error e ∧ (store.load name query).next = store := by
  rw [load]
  rcases create : Rule.create store.config query with ⟨result, events⟩
  rw [create] at refused
  cases refused
  exact ⟨rfl, rfl⟩

theorem load_answer (store : Store) (name query : Text) :
    (store.load name query).answer = (Rule.create store.config query).1.map fun _ => () := by
  cases made : (Rule.create store.config query).1 with
  | ok rule => exact (load_of_made made).1
  | error e => exact (load_of_refused made).1

@[simp]
theorem load_config (store : Store) (name query : Text) :
    (store.load name query).next.config = store.config := by
  cases made : (Rule.create store.config query).1 with
  | ok rule => rw [(load_of_made made).2, put]
  | error e => rw [(load_of_refused made).2]

@[simp]
theorem load_load_answer (store : Store) (entry : Text × Text) (name query : Text) :
    ((store.load entry.1 entry.2).next.load name query).answer =
      (store.load name query).answer := by
  rw [load_answer, load_answer, load_config]

theorem get_load (store : Store) (name query key : Text) : (store.load name query).next.get? key =
    if key = name then (Rule.create store.config query).1.toOption.or (store.get? key)
    else store.get? key := by
  cases made : (Rule.create store.config query).1 with
  | ok rule => rw [(load_of_made made).2, get_put, Except.toOption, Option.some_or]
  | error e => rw [(load_of_refused made).2, Except.toOption, Option.none_or, ite_self]

theorem load_comm (store : Store) {first second : Text × Text} (differ : first.1 ≠ second.1) :
    ((store.load first.1 first.2).next.load second.1 second.2).next =
      ((store.load second.1 second.2).next.load first.1 first.2).next := by
  refine eq_of_get (by simp only [load_config]) fun key => ?_
  simp only [get_load, load_config]
  by_cases one : key = first.1
  · have other : key ≠ second.1 := one ▸ differ
    simp only [if_pos one, if_neg other]
  · simp only [if_neg one]

@[simp]
theorem loadEach_config (store : Store) (rules : List (Text × Text)) :
    (store.loadEach rules).config = store.config := by
  induction rules generalizing store with
  | nil => rfl
  | cons entry rest ih => rw [loadEach, List.foldl_cons, ← loadEach, ih, load_config]

@[simp]
theorem loadEach_load_answer (store : Store) (front : List (Text × Text)) (name query : Text) :
    ((store.loadEach front).load name query).answer = (store.load name query).answer := by
  rw [load_answer, load_answer, loadEach_config]

theorem get_loadEach_of_refused {rules : List (Text × Text)}
    (refused : ∀ entry ∈ rules, entry.1 = key → (store.load key entry.2).answer ≠ .ok ()) :
    (store.loadEach rules).get? key = store.get? key := by
  induction rules generalizing store with
  | nil => rfl
  | cons entry rest ih =>
    obtain ⟨here, behind⟩ := List.forall_mem_cons.mp refused
    have behind : ∀ later ∈ rest, later.1 = key →
        ((store.load entry.1 entry.2).next.load key later.2).answer ≠ .ok () := by
      simpa only [load_load_answer] using behind
    rw [loadEach, List.foldl_cons, ← loadEach, ih behind, get_load]
    split
    case isTrue same =>
      have here := here same.symm
      rw [load_answer] at here
      cases made : (Rule.create store.config entry.2).1 with
      | ok rule =>
        rw [made] at here
        exact absurd rfl here
      | error e => rfl
    case isFalse => rfl

theorem get_loadEach_of_last {front behind : List (Text × Text)}
    (made : (Rule.create store.config query).1 = .ok rule)
    (refused : ∀ later ∈ behind, later.1 = name → (store.load name later.2).answer ≠ .ok ()) :
    (store.loadEach (front ++ (name, query) :: behind)).get? name = some rule := by
  have refused : ∀ later ∈ behind, later.1 = name →
      (((store.loadEach front).load name query).next.load name later.2).answer ≠ .ok () := by
    have same (later : Text) := load_load_answer (store.loadEach front) (name, query) name later
    simpa only [same, loadEach_load_answer] using refused
  rw [loadEach, List.foldl_append, List.foldl_cons, ← loadEach, ← loadEach,
    get_loadEach_of_refused refused, get_load, if_pos rfl, loadEach_config, made]
  rfl

theorem loadEach_perm {rules other : List (Text × Text)} (distinct : (rules.map Prod.fst).Nodup)
    (perm : rules.Perm other) : store.loadEach other = store.loadEach rules := by
  refine (perm.foldl_eq' (fun first here second there store => ?_) store).symm
  by_cases same : first.1 = second.1
  · rw [List.inj_on_of_nodup_map distinct here there same]
  · exact load_comm store same

theorem loadAll_store (store : Store) (rules : List (Text × Text)) :
    (store.loadAll rules).store = store.loadEach rules := by
  induction rules generalizing store with
  | nil => rfl
  | cons entry rest ih =>
    rw [loadAll, loadEach, List.foldl_cons]
    split <;> exact ih _

theorem loadAll_loaded (store : Store) (rules : List (Text × Text)) :
    (store.loadAll rules).loaded =
      (rules.filter fun entry => (store.load entry.1 entry.2).answer.isOk).map Prod.fst := by
  induction rules generalizing store with
  | nil => rfl
  | cons entry rest ih =>
    have behind := ih (store.load entry.1 entry.2).next
    simp only [load_load_answer] at behind
    rw [loadAll]
    cases answer : (store.load entry.1 entry.2).answer with
    | ok _ =>
      rw [List.filter_cons_of_pos (by rw [answer]; rfl), List.map_cons, ← behind]
    | error e =>
      rw [List.filter_cons_of_neg (by rw [answer]; exact nofun), ← behind]

/-- Loading a batch is loading its rules in turn, whatever becomes of each, and the answer names
    those that were loaded, in order. A name then has the last of its texts that loads, and keeps
    its rule if there is none. Where no name repeats, the order of the batch does not matter. -/
theorem batch_loads_in_turn (store : Store) (rules : List (Text × Text)) :
    (store.loadBatch rules).next = store.loadEach rules ∧
    (∀ front name query, ((store.loadEach front).load name query).answer =
      (store.load name query).answer) ∧
    (store.loadBatch rules).answer =
      .ok ((rules.filter fun entry => (store.load entry.1 entry.2).answer.isOk).map Prod.fst) ∧
    (∀ front name query behind, rules = front ++ (name, query) :: behind →
      (∀ later ∈ behind, later.1 = name → (store.load name later.2).answer ≠ .ok ()) →
      ∀ rule, (Rule.create store.config query).1 = .ok rule →
        (store.loadBatch rules).next.get? name = some rule) ∧
    (∀ name,
      (∀ entry ∈ rules, entry.1 = name → (store.load name entry.2).answer ≠ .ok ()) →
        (store.loadBatch rules).next.get? name = store.get? name) ∧
    ((rules.map Prod.fst).Nodup → ∀ other, rules.Perm other →
      (store.loadBatch other).next = (store.loadBatch rules).next) := by
  have next (rules : List (Text × Text)) : (store.loadBatch rules).next = store.loadEach rules :=
    loadAll_store store rules
  simp only [next]
  refine ⟨trivial, loadEach_load_answer store, congrArg Except.ok (loadAll_loaded store rules), ?_,
    fun name => get_loadEach_of_refused, fun distinct other => loadEach_perm distinct⟩
  rintro front name query behind rfl refused rule made
  exact get_loadEach_of_last made refused

theorem unreadable_text_disturbs_nothing :
    ∃ rule, (Rule.create Config.standard Rule.aboveOne.query).1 = .ok rule ∧
      ((empty Config.standard).loadBatch
        [(['r'], Rule.aboveOne.query), (['r'], "a or".toList)]).answer = .ok [['r']] ∧
      ((empty Config.standard).loadBatch
        [(['r'], Rule.aboveOne.query), (['r'], "a or".toList)]).next.get? ['r'] = some rule := by
  obtain ⟨rule, made⟩ : ∃ rule, (Rule.create Config.standard Rule.aboveOne.query).1 = .ok rule :=
    ⟨{ Rule.fresh Config.standard Rule.aboveOne.query with compiled := some Rule.aboveOne },
      by cbv⟩
  have unread : (Rule.create Config.standard "a or".toList).1 =
      .error (.parse (.unexpected 1 3 [.operator])) := by cbv
  have loads : ((empty Config.standard).load ['r'] Rule.aboveOne.query).answer = .ok () :=
    (load_of_made made).1
  have refused : ((empty Config.standard).load ['r'] "a or".toList).answer =
      .error (.parse (.unexpected 1 3 [.operator])) := (load_of_refused unread).1
  obtain ⟨-, -, answer, last, -, -⟩ := batch_loads_in_turn (empty Config.standard)
    [(['r'], Rule.aboveOne.query), (['r'], "a or".toList)]
  refine ⟨rule, made, ?_, last [] ['r'] _ [(['r'], "a or".toList)] rfl ?_ rule made⟩
  · rw [answer, List.filter_cons_of_pos (by rw [loads]; rfl),
      List.filter_cons_of_neg (by rw [refused]; exact Bool.false_ne_true)]
    rfl
  · intro later member _
    rw [List.mem_singleton.mp member, refused]
    rintro ⟨⟩

end Store
end Verdict
