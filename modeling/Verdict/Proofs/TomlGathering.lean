import Verdict.Config.Toml.Gatherer
import Verdict.Proofs.Lookup

/-!
The gatherer for files in TOML keeps the laws of gatherers. A file gives each name once because its
tables only grow in order; the members of the environment are put one over the other.
-/
namespace Verdict

namespace Toml
open Table

/-- A change that keeps the tables of a file ascending. -/
def Keeps (change : Slots → Option Slots) : Prop :=
  ∀ slots after, Ascending slots → change slots = some after → Ascending after

theorem ascending_of_insert {name : Text} {slot : Slot} {slots after : Slots}
    (ascending : Ascending slots) (inserted : some (insert name slot slots) = some after) :
    Ascending after := by
  cases inserted
  exact ascending_insert _ _ _ ascending

theorem keeps_within {made origin : Origin} {change : Origin → Slots → Option Slots}
    {path : List Text} (keeps : ∀ origin, Keeps (change origin)) :
    Keeps (Slots.within made change path origin) := by
  intro slots after ascending changed
  cases path with
  | nil => exact keeps origin slots after ascending changed
  | cons name rest =>
    rw [Slots.within] at changed
    split at changed
    · obtain ⟨inner, -, inserted⟩ := Option.bind_eq_some_iff.mp changed
      exact ascending_of_insert ascending inserted
    · cases changed
    · obtain ⟨inner, -, inserted⟩ := Option.bind_eq_some_iff.mp changed
      exact ascending_of_insert ascending inserted
    · split at changed
      · cases changed
      · obtain ⟨inner, -, inserted⟩ := Option.bind_eq_some_iff.mp changed
        exact ascending_of_insert ascending inserted

theorem keeps_assign (key : Key) (s : Setting) : Keeps (Slots.assign? key s) := by
  refine keeps_within fun origin slots after ascending changed => ?_
  split at changed
  · exact ascending_of_insert ascending changed
  · cases changed

theorem keeps_declare (key : Key) : Keeps (Slots.declare? key) := by
  refine keeps_within fun origin slots after ascending changed => ?_
  split at changed
  · exact ascending_of_insert ascending changed
  · exact ascending_of_insert ascending changed
  · cases changed

theorem keeps_extend (key : Key) : Keeps (Slots.extend? key) := by
  refine keeps_within fun origin slots after ascending changed => ?_
  split at changed
  · exact ascending_of_insert ascending changed
  · exact ascending_of_insert ascending changed
  · cases changed

theorem keeps_assignIn (scope : List Text) (key : Key) (s : Setting) :
    Keeps (Slots.assignIn? scope key s) :=
  keeps_within fun _ => keeps_assign key s

theorem keeps_readLines (fuel : Nat) (scope : List Text) (t : Text) :
    Keeps fun slots => readLines? fuel scope slots t := by
  intro slots after ascending read
  induction fuel generalizing scope slots t with
  | zero => cases read
  | succ fuel ih =>
    simp only [readLines?] at read
    split at read
    · cases read
      exact ascending
    · obtain ⟨⟨key, rest⟩, -, read⟩ := Option.bind_eq_some_iff.mp read
      simp only at read
      split at read
      · obtain ⟨grown, extended, read⟩ := Option.bind_eq_some_iff.mp read
        obtain ⟨line, -, read⟩ := Option.bind_eq_some_iff.mp read
        exact ih _ _ _ (keeps_extend key _ _ ascending extended) read
      · cases read
    · obtain ⟨⟨key, rest⟩, -, read⟩ := Option.bind_eq_some_iff.mp read
      simp only at read
      split at read
      · obtain ⟨grown, declared, read⟩ := Option.bind_eq_some_iff.mp read
        obtain ⟨line, -, read⟩ := Option.bind_eq_some_iff.mp read
        exact ih _ _ _ (keeps_declare key _ _ ascending declared) read
      · cases read
    · obtain ⟨⟨key, rest⟩, -, read⟩ := Option.bind_eq_some_iff.mp read
      obtain ⟨line, -, read⟩ := Option.bind_eq_some_iff.mp read
      obtain ⟨⟨s, rest⟩, -, read⟩ := Option.bind_eq_some_iff.mp read
      obtain ⟨grown, assigned, read⟩ := Option.bind_eq_some_iff.mp read
      obtain ⟨line, -, read⟩ := Option.bind_eq_some_iff.mp read
      exact ih _ _ _ (keeps_assignIn scope key s _ _ ascending assigned) read

theorem entries_nodup {t : Text} {entries : List (Text × Setting)}
    (read : entries? t = some entries) : (names entries).Nodup := by
  obtain ⟨slots, lines, rfl⟩ := Option.map_eq_some_iff.mp read
  have ascending : Ascending slots := keeps_readLines _ _ _ [] slots List.Pairwise.nil lines
  have apart : (names slots).Nodup := ((ascending_iff _).mp ascending).nodup
  rw [names, List.map_map]
  exact apart

end Toml

namespace Config
namespace TomlGatherer
open Table (names)
variable {members : List (Text × Setting)} {name key : Text} {s old : Setting}

@[simp] theorem mem_put {entry : Text × Setting} : entry ∈ put members name s ↔
    entry = (name, s) ∨ entry ∈ members ∧ entry.1 ≠ name := by
  simp [put]

theorem put_once (once : (names members).Nodup) : (names (put members name s)).Nodup := by
  have others : (members.filter (·.1 ≠ name)).map Prod.fst = (names members).filter (· ≠ name) := by
    rw [names, List.filter_map]
    rfl
  show (name :: (members.filter (·.1 ≠ name)).map Prod.fst).Nodup
  rw [others]
  exact List.nodup_cons.mpr ⟨by simp, once.filter _⟩

theorem set_once (once : (names members).Nodup) : (names (set members key s)).Nodup := by
  unfold set
  split
  · exact put_once once
  · split
    · exact once
    · exact put_once once

theorem mem_set_of_path {root : Text} (path : root? key = some root) :
    (root, .compound) ∈ set members key s := by
  simp [set, path]

theorem mem_set_of_filled (plain : root? key = none) (filled : s ≠ .hollow) :
    (key, s) ∈ set members key s := by
  simp [set, plain, filled]

theorem mem_set_of_hollow (plain : root? key = none) (held : (key, old) ∈ members) :
    (key, old) ∈ set members key .hollow := by
  have known : (Table.find? key members).isSome :=
    Table.find_isSome_iff.mpr (List.mem_map.mpr ⟨_, held, rfl⟩)
  simpa [set, plain, known] using held

theorem set_other (apart : name ≠ (root? key).getD key) (held : (name, old) ∈ members) :
    (name, old) ∈ set members key s := by
  unfold set
  split
  · rename_i root path
    rw [path] at apart
    exact mem_put.mpr (.inr ⟨held, apart⟩)
  · rename_i plain
    rw [plain] at apart
    split
    · exact held
    · exact mem_put.mpr (.inr ⟨held, apart⟩)

theorem root_of_name (named : ∀ c ∈ name, isNameChar c) : root? name = none := by
  have whole : name.dropWhile isNameChar = [] := List.dropWhile_eq_nil_iff.mpr named
  simp [root?, whole]

theorem eq_hollow (hollow : form s = .hollow) : s = .hollow := by
  cases s <;> first | rfl | cases hollow

theorem eq_compound (parts : form s = .parts) : s = .compound := by
  cases s <;> first | rfl | cases parts

section
variable {entries : List (Text × Setting)}

theorem puts_once (once : (names members).Nodup) :
    (names (entries.foldl (fun members entry => put members entry.1 entry.2) members)).Nodup := by
  induction entries generalizing members with
  | nil => exact once
  | cons entry rest ih => exact ih (put_once once)

theorem mem_puts (once : (names entries).Nodup) {entry : Text × Setting} :
    entry ∈ entries.foldl (fun members entry => put members entry.1 entry.2) members ↔
      entry ∈ entries ∨ entry ∈ members ∧ entry.1 ∉ names entries := by
  induction entries generalizing members with
  | nil => simp [names]
  | cons first rest ih =>
    obtain ⟨fresh, once⟩ := List.nodup_cons.mp once
    have new : entry = first → entry.1 ∉ names rest := by
      rintro rfl
      exact fresh
    rw [List.foldl_cons, ih once, mem_put]
    simp only [names, List.map_cons, List.mem_cons, not_or] at new ⊢
    tauto

end

theorem assignment_iff {start name value key : Text} {s : Setting} :
    assignment? start true name value = some (key, s) ↔
      small name = start ++ key ∧ Setting.ofVariable value = s := by
  unfold assignment?
  split
  · rename_i marked
    obtain ⟨rest, joined⟩ := List.isPrefixOf_iff_prefix.mp marked
    rw [← joined, List.drop_left]
    simp [eq_comm]
  · rename_i other
    constructor
    · intro assigned
      cases assigned
    · rintro ⟨named, -⟩
      exact absurd (List.isPrefixOf_iff_prefix.mpr ⟨key, named.symm⟩) other

theorem assignments_once {start : Text} {environment : List (Text × Text)}
    (apart : environment.Pairwise fun a b => small a.1 ≠ small b.1) :
    (names (environment.filterMap fun entry => assignment? start true entry.1 entry.2)).Nodup := by
  refine List.Pairwise.map _ (fun _ _ differ => differ) (apart.filterMap _ ?_)
  intro a b differ first assigned second assigned' same
  obtain ⟨key, s⟩ := first
  obtain ⟨key', s'⟩ := second
  cases same
  exact differ ((assignment_iff.mp assigned).1.trans (assignment_iff.mp assigned').1.symm)

theorem collect_once {source : Source} (collected : collect? source = some members) :
    (names members).Nodup := by
  cases source with
  | file required content =>
    cases content with
    | none =>
      cases required with
      | true => cases collected
      | false =>
        cases collected
        exact List.nodup_nil
    | some t => exact Toml.entries_nodup collected
  | environment mark separator guessing assignments =>
    cases collected
    exact puts_once List.nodup_nil

theorem collect_variables (mark separator : Text) {environment : List (Text × Text)}
    (apart : environment.Pairwise fun a b => small a.1 ≠ small b.1) :
    ∃ members, collect? (.environment mark separator true environment) = some members ∧
      ∀ key s, (key, s) ∈ members ↔ ∃ name text, (name, text) ∈ environment ∧
        small name = small (mark ++ separator) ++ key ∧ Setting.ofVariable text = s := by
  refine ⟨_, rfl, fun key s => ?_⟩
  rw [mem_puts (assignments_once apart)]
  simp only [List.not_mem_nil, false_and, or_false, List.mem_filterMap, assignment_iff, Prod.exists]

end TomlGatherer

theorem tomlGatherer_lawful : tomlGatherer.Lawful where
  collected_once := TomlGatherer.collect_once
  missing_file := rfl
  variables_collected := TomlGatherer.collect_variables
  built_in_turn _ _ := rfl
  set_once := TomlGatherer.set_once
  set_plain plain form := TomlGatherer.mem_set_of_filled plain (by rintro rfl; cases form)
  set_parts plain form :=
    ⟨_, form, TomlGatherer.mem_set_of_filled plain (by rintro rfl; cases form)⟩
  set_hollow plain form held := by
    cases TomlGatherer.eq_hollow form
    exact TomlGatherer.mem_set_of_hollow plain held
  set_path path := ⟨.compound, rfl, TomlGatherer.mem_set_of_path path⟩
  set_other := TomlGatherer.set_other
  root_of_name := TomlGatherer.root_of_name
  plain_ofBool _ := rfl
  plain_ofWord _ := rfl
  toBool_parts form := by
    cases TomlGatherer.eq_compound form
    rfl
  toWord_parts form := by
    cases TomlGatherer.eq_compound form
    rfl

end Config
end Verdict
