import Verdict.Config.Toml.Setting
import Verdict.Table

/-!
The tables that a TOML file builds up. A name holds a value, a table, or a series of tables, of
which only the last can still grow. A table is declared by its own header, implied by the header
of a table inside it, or dotted: reached by a key with points. An implied table can still become
either of the others. No name is given twice, values do not grow, a dotted key enters a declared
table only through a series, and a header does not declare a dotted one.
-/
namespace Verdict.Toml

inductive Origin where
  | declared
  | implied
  | dotted
deriving DecidableEq

inductive Slot where
  | value (s : Setting)
  | table (origin : Origin) (slots : List (Text × Slot))
  | series (last : List (Text × Slot))

abbrev Slots := List (Text × Slot)

structure Key where
  path : List Text
  name : Text

namespace Slots

/-- Changes the table at the end of a path. Tables that are missing on the way are made, and those
    on the way of a dotted key become dotted. -/
def within (made : Origin) (change : Origin → Slots → Option Slots) :
    List Text → Origin → Slots → Option Slots
  | [], origin, slots => change origin slots
  | name :: rest, _, slots =>
    match Table.find? name slots with
    | none => do
      let inner ← within made change rest made []
      return Table.insert name (.table made inner) slots
    | some (.value _) => none
    | some (.series last) => do
      let last ← within made change rest .declared last
      return Table.insert name (.series last) slots
    | some (.table origin inner) =>
      if made = .dotted ∧ origin = .declared then none
      else do
        let origin := if made = .dotted then .dotted else origin
        let inner ← within made change rest origin inner
        return Table.insert name (.table origin inner) slots

/-- Gives a name its value. A dotted key ends in a dotted table, any other in one that is not. -/
def assign? (key : Key) (s : Setting) (slots : Slots) : Option Slots :=
  within .dotted (fun origin slots =>
    if (origin = .dotted ↔ key.path ≠ []) ∧ (Table.find? key.name slots).isNone then
      some (Table.insert key.name (.value s) slots)
    else none) key.path .declared slots

/-- Declares the table of a header. One that was only implied keeps what it holds. -/
def declare? (key : Key) (slots : Slots) : Option Slots :=
  within .implied (fun _ slots =>
    match Table.find? key.name slots with
    | none => some (Table.insert key.name (.table .declared []) slots)
    | some (.table .implied inner) => some (Table.insert key.name (.table .declared inner) slots)
    | some _ => none) key.path .declared slots

def extend? (key : Key) (slots : Slots) : Option Slots :=
  within .implied (fun _ slots =>
    match Table.find? key.name slots with
    | none | some (.series _) => some (Table.insert key.name (.series []) slots)
    | some _ => none) key.path .declared slots

def assignIn? (scope : List Text) (key : Key) (s : Setting) (slots : Slots) : Option Slots :=
  within .implied (fun _ slots => assign? key s slots) scope .declared slots

end Slots

def Slot.setting : Slot → Setting
  | .value s => s
  | .table _ slots => if slots.isEmpty then .hollow else .compound
  | .series _ => .compound

end Verdict.Toml
