import Verdict.Text

/-!
Tables from names to values, held as entries whose names strictly ascend. Two tables with the
same entries are the same list, whatever the history that led to them.
-/
namespace Verdict.Table
variable {α β : Type}

def Ascending (entries : List (Text × α)) : Prop :=
  entries.Pairwise fun a b => Text.before a.1 b.1

instance (entries : List (Text × α)) : Decidable (Ascending entries) :=
  inferInstanceAs (Decidable (List.Pairwise _ _))

def find? (name : Text) : List (Text × α) → Option α
  | [] => none
  | (key, value) :: rest => if key = name then some value else find? name rest

/-- A name that is present keeps its place and takes the new value. -/
def insert (name : Text) (value : α) : List (Text × α) → List (Text × α)
  | [] => [(name, value)]
  | (key, old) :: rest =>
    if Text.before name key then (name, value) :: (key, old) :: rest
    else if name = key then (name, value) :: rest
    else (key, old) :: insert name value rest

def erase (name : Text) : List (Text × α) → List (Text × α)
  | [] => []
  | (key, old) :: rest => if key = name then rest else (key, old) :: erase name rest

def names (entries : List (Text × α)) : List Text := entries.map Prod.fst

theorem ascending_iff (entries : List (Text × α)) :
    Ascending entries ↔ (names entries).Pairwise fun a b => Text.before a b := by
  simp [Ascending, names, List.pairwise_map]

theorem names_insert_subset (name : Text) (value : α) (entries : List (Text × α)) :
    ∀ key ∈ names (insert name value entries), key = name ∨ key ∈ names entries := by
  induction entries with
  | nil => simp [insert, names]
  | cons entry rest ih =>
    intro key member
    simp only [insert] at member
    split at member
    · simpa [names] using member
    · split at member
      · rcases List.mem_cons.mp member with same | later
        · exact .inl same
        · exact .inr (List.mem_cons_of_mem _ later)
      · rcases List.mem_cons.mp member with same | later
        · exact .inr (same ▸ List.mem_cons_self)
        · exact (ih key later).imp id (List.mem_cons_of_mem _)

theorem names_erase_subset (name : Text) (entries : List (Text × α)) :
    ∀ key ∈ names (erase name entries), key ∈ names entries := by
  induction entries with
  | nil => simp [erase, names]
  | cons entry rest ih =>
    intro key member
    simp only [erase] at member
    split at member
    · exact List.mem_cons_of_mem _ member
    · rcases List.mem_cons.mp member with same | later
      · exact same ▸ List.mem_cons_self
      · exact List.mem_cons_of_mem _ (ih key later)

theorem ascending_insert (name : Text) (value : α) (entries : List (Text × α))
    (ascending : Ascending entries) : Ascending (insert name value entries) := by
  rw [ascending_iff] at *
  induction entries with
  | nil => simp [insert, names]
  | cons entry rest ih =>
    obtain ⟨above, tail⟩ := List.pairwise_cons.mp ascending
    simp only [insert]
    split
    · rename_i below
      refine List.pairwise_cons.mpr ⟨fun key member => ?_, ascending⟩
      rcases List.mem_cons.mp member with same | later
      · exact same ▸ below
      · exact Text.before_trans _ _ _ below (above key later)
    · rename_i notBelow
      split
      · rename_i same
        exact List.pairwise_cons.mpr ⟨fun key member => same ▸ above key member, tail⟩
      · rename_i differs
        refine List.pairwise_cons.mpr ⟨fun key member => ?_, ih tail⟩
        rcases names_insert_subset name value rest key member with same | later
        · exact same ▸ Text.before_of_not_before _ _ (by simpa using notBelow) (Ne.symm differs)
        · exact above key later

theorem ascending_erase (name : Text) (entries : List (Text × α))
    (ascending : Ascending entries) : Ascending (erase name entries) := by
  rw [ascending_iff] at *
  induction entries with
  | nil => simp [erase, names]
  | cons entry rest ih =>
    obtain ⟨above, tail⟩ := List.pairwise_cons.mp ascending
    simp only [erase]
    split
    · exact tail
    · exact List.pairwise_cons.mpr
        ⟨fun key member => above key (names_erase_subset name rest key member), ih tail⟩

/-- Of two entries with one name the later one stays. -/
def ofList (entries : List (Text × α)) : List (Text × α) :=
  entries.foldl (fun table entry => insert entry.1 entry.2 table) []

end Verdict.Table
