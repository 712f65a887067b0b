import Verdict.Proofs.Essence
import Verdict.Proofs.History
import Verdict.Session

/-!
The directory that a store amounts to: a finite map from names to the texts of rules, each with a
flag for its compiled form. The commands of a session are answered from the settings and this map
alone, so neither the order in which rules came in nor what was asked of them leaves any other
mark. Names are in the order of lists of characters.
-/
namespace Verdict

theorem Text.before_iff_lt {a b : Text} : before a b ↔ a < b := by
  induction a generalizing b with
  | nil => cases b <;> simp [before]
  | cons c rest ih =>
    cases b with
    | nil => simp [before]
    | cons d others =>
      have below : c < d ↔ c.toNat < d.toNat := Iff.rfl
      rw [List.cons_lt_cons_iff, below, ← ih]
      simp [before]

inductive Operand.Mentions (p : Text) : Operand → Prop where
  | path : Mentions p (.path p)
  | list {items : List Operand} {item : Operand} (member : item ∈ items)
      (inside : Mentions p item) : Mentions p (.list items)

/-- The path occurs in a condition from the node down. -/
inductive Node.Mentions (p : Text) : Node → Prop where
  | left {c : Condition} (inside : c.left.Mentions p) : Mentions p (.condition c)
  | right {c : Condition} (inside : c.right.Mentions p) : Mentions p (.condition c)
  | group {body : List Node} {node : Node} (member : node ∈ body) (inside : Mentions p node) :
      Mentions p (.group body)

namespace Operand
variable {p : Text}

-- The recursion is that of `paths`, through the items of a list.
mutual
theorem mem_paths_iff {operand : Operand} : p ∈ operand.paths ↔ operand.Mentions p := by
  cases operand with
  | path own =>
    rw [paths, List.mem_singleton]
    constructor
    · rintro rfl
      exact .path
    · rintro ⟨⟩
      rfl
  | list items =>
    rw [paths, mem_listPaths_iff]
    constructor
    · rintro ⟨item, member, inside⟩
      exact .list member inside
    · rintro ⟨⟩
      case list item inside member => exact ⟨item, member, inside⟩
  | int | real | str | bool | nothing => exact ⟨nofun, nofun⟩

theorem mem_listPaths_iff {items : List Operand} :
    p ∈ listPaths items ↔ ∃ item ∈ items, item.Mentions p := by
  match items with
  | [] => simp [listPaths]
  | item :: rest =>
    rw [listPaths, List.mem_append, mem_paths_iff, mem_listPaths_iff, List.exists_mem_cons_iff]
end

end Operand

namespace Node
variable {p : Text}

mutual
theorem mem_paths_iff {node : Node} : p ∈ node.paths ↔ node.Mentions p := by
  cases node with
  | condition c =>
    rw [paths, Condition.paths, List.mem_append, Operand.mem_paths_iff, Operand.mem_paths_iff]
    constructor
    · rintro (inside | inside)
      · exact .left inside
      · exact .right inside
    · rintro (inside | inside)
      · exact .inl inside
      · exact .inr inside
  | connective joint => exact ⟨nofun, nofun⟩
  | group body =>
    rw [paths, mem_allPaths_iff]
    constructor
    · rintro ⟨node, member, inside⟩
      exact .group member inside
    · rintro ⟨⟩
      case group node inside member => exact ⟨node, member, inside⟩

theorem mem_allPaths_iff {nodes : List Node} :
    p ∈ allPaths nodes ↔ ∃ node ∈ nodes, node.Mentions p := by
  match nodes with
  | [] => simp [allPaths]
  | node :: rest =>
    rw [allPaths, List.mem_append, mem_paths_iff, mem_allPaths_iff, List.exists_mem_cons_iff]
end

end Node

structure Listing where
  query : Text
  compiled : Bool
deriving DecidableEq

def fatal? : Except Error Bool → Option Error
  | .ok _ => none
  | .error e => if e.isMissing then none else some e

def passes : Except Error Bool → Bool
  | .ok matched => matched
  | .error _ => false

namespace Listing

/-- A rule that was just made is compiled, unless the settings defer it or it is the rule `*`. -/
def fresh (config : Config) (query : Text) : Listing :=
  ⟨query, !config.lazy && query != Rule.matchAll⟩

def verdict (limit : Nat) (context : Option Context) (l : Listing) : Except Error Bool :=
  Rule.afresh limit l.query true (Sequence.evaluate .standard context)

/-- An evaluation compiles whatever can be read, and never the rule `*`. -/
def evaluated (limit : Nat) (l : Listing) : Listing :=
  { l with
    compiled := l.compiled || (l.query != Rule.matchAll && (Query.parse limit l.query).isOk) }

def fields (limit : Nat) (l : Listing) : Nat :=
  match Query.parse limit l.query with
  | .ok nodes => (Node.allPaths nodes).toFinset.card
  | .error _ => 0

end Listing

abbrev Directory := Finmap fun _ : Text => Listing

namespace Directory

def names (d : Directory) : List Text := d.keys.sort

def mapListings (f : Text → Listing → Listing) (d : Directory) : Directory where
  entries := d.entries.map fun entry => ⟨entry.1, f entry.1 entry.2⟩
  nodupKeys := by
    rw [← Multiset.nodup_keys, Multiset.keys, Multiset.map_map]
    exact Multiset.nodup_keys.mpr d.nodupKeys

theorem lookup_mapListings (f : Text → Listing → Listing) (d : Directory) (name : Text) :
    (d.mapListings f).lookup name = (d.lookup name).map (f name) := by
  ext l
  rw [Finmap.lookup_eq_some_iff, Option.map_eq_some_iff, mapListings, Multiset.mem_map]
  simp only [Finmap.lookup_eq_some_iff]
  constructor
  · rintro ⟨⟨key, listing⟩, member, same⟩
    cases same
    exact ⟨listing, member, rfl⟩
  · rintro ⟨listing, member, rfl⟩
    exact ⟨⟨name, listing⟩, member, rfl⟩

/-- The rule is taken in if it is the rule `*`, if reading it is put off, or if it can be read. -/
def accept (config : Config) (query : Text) : Except Error Unit :=
  if config.lazy || query == Rule.matchAll then .ok ()
  else
    match Query.parse config.maxNestingDepth query with
    | .ok _ => .ok ()
    | .error e => .error (.parse e)

def load (config : Config) (d : Directory) (rule : Text × Text) : Directory :=
  if (accept config rule.2).isOk then d.insert rule.1 (.fresh config rule.2) else d

/-- The first name, in their order, whose test ends all tests, and the error of that test. -/
def failure? (limit : Nat) (context : Option Context) (d : Directory) : Option (Text × Error) :=
  d.names.findSome? fun name =>
    ((d.lookup name).bind fun l => fatal? (l.verdict limit context)).map (name, ·)

def matching (limit : Nat) (context : Option Context) (d : Directory) : List Text :=
  d.names.filter fun name => (d.lookup name).any fun l => passes (l.verdict limit context)

/-- The names behind the first failure are not evaluated. -/
def evaluated (limit : Nat) (context : Option Context) (d : Directory) : Directory :=
  d.mapListings fun name l =>
    if (d.failure? limit context).any fun failure => failure.1 < name then l
    else l.evaluated limit

def statistics (limit : Nat) (d : Directory) : Store.Statistics :=
  let compiled := d.entries.filter fun entry => entry.2.compiled
  ⟨d.entries.card, compiled.card, (compiled.map fun entry => entry.2.fields limit).sum⟩

end Directory

structure Registry where
  config : Config
  handles : Nat
  directory : Directory

namespace Registry

def start (config : Config) : Registry := ⟨config, 1, ∅⟩

def limit (r : Registry) : Nat := r.config.maxNestingDepth

def run (r : Registry) : Command → Except Error Reply × Registry
  | .load name query =>
    ((Directory.accept r.config query).map fun _ => .nothing,
      { r with directory := r.directory.load r.config (name, query) })
  | .delete name =>
    if name ∈ r.directory then (.ok .nothing, { r with directory := r.directory.erase name })
    else (.error (.ruleNotFound name), r)
  | .get name => (.ok (.rule ((r.directory.lookup name).map fun l => (l.query, l.compiled))), r)
  | .contains name => (.ok (.truth (name ∈ r.directory)), r)
  | .list => (.ok (.names r.directory.names), r)
  | .loadBatch rules =>
    (.ok (.names ((rules.filter fun rule =>
        (Directory.accept r.config rule.2).isOk).map Prod.fst)),
      { r with directory := rules.foldl (Directory.load r.config) r.directory })
  | .evaluate name context =>
    match r.directory.lookup name with
    | none => (.error (.ruleNotFound name), r)
    | some l =>
      ((l.verdict r.limit context).map .truth,
        { r with directory := r.directory.insert name (l.evaluated r.limit) })
  | .evaluateAll context =>
    (match r.directory.failure? r.limit context with
      | some (_, e) => .error e
      | none => .ok (.names (r.directory.matching r.limit context)),
      { r with directory := r.directory.evaluated r.limit context })
  | .clear => (.ok .nothing, { r with directory := ∅ })
  | .statistics => (.ok (.statistics (r.directory.statistics r.limit)), r)
  | .clone => (.ok (.handle r.handles), { r with handles := r.handles + 1 })

end Registry
end Verdict
