import Verdict.Proofs.Essence

/-!
Lookups in a table. What a change of a table does to them, and how they relate to the entries: an
entry is found by its name, since no two entries share one.
-/
namespace Verdict.Table
variable {α : Type} {key name : Text} {value : α} {entries : List (Text × α)}

theorem find_insert : find? key (insert name value entries) =
    if key = name then some value else find? key entries := by
  induction entries with
  | nil => simp [insert, find?, eq_comm]
  | cons entry rest ih =>
    rw [insert]
    split
    · simp [find?, eq_comm]
    · split
      case isTrue same =>
        by_cases asked : entry.1 = key
        · simp [find?, same, asked]
        · simp [find?, same, asked, Ne.symm asked]
      case isFalse differs =>
        by_cases asked : entry.1 = key
        · subst asked
          simp [find?, Ne.symm differs]
        · simp [find?, asked, ih]

theorem find_eq_none {entries : List (Text × α)} (absent : key ∉ names entries) :
    find? key entries = none := by
  rw [← find_isSome_iff] at absent
  simpa using absent

theorem mem_of_find (found : find? key entries = some value) : (key, value) ∈ entries := by
  induction entries with
  | nil => cases found
  | cons entry rest ih =>
    rw [find?] at found
    split at found
    case isTrue same =>
      cases found
      exact same ▸ List.mem_cons_self
    case isFalse => exact List.mem_cons_of_mem _ (ih found)

theorem Ascending.above {entry : Text × α} {rest : List (Text × α)}
    (ascending : Ascending (entry :: rest)) (member : key ∈ names rest) :
    Text.before entry.1 key := by
  obtain ⟨other, inside, rfl⟩ := List.mem_map.mp member
  exact List.rel_of_pairwise_cons ascending inside

theorem Ascending.tail {entry : Text × α} {rest : List (Text × α)}
    (ascending : Ascending (entry :: rest)) : Ascending rest :=
  List.Pairwise.of_cons ascending

theorem Ascending.fresh {entry : Text × α} {rest : List (Text × α)}
    (ascending : Ascending (entry :: rest)) : entry.1 ∉ names rest := by
  intro member
  have loop := ascending.above member
  rw [Text.not_before_self] at loop
  cases loop

theorem find_of_nodup (once : (names entries).Nodup) (member : (key, value) ∈ entries) :
    find? key entries = some value := by
  induction entries with
  | nil => cases member
  | cons entry rest ih =>
    obtain ⟨fresh, once⟩ := List.nodup_cons.mp once
    rw [find?]
    rcases List.mem_cons.mp member with rfl | later
    · rw [if_pos rfl]
    · have differs : entry.1 ≠ key := by
        rintro rfl
        exact fresh (List.mem_map.mpr ⟨_, later, rfl⟩)
      rw [if_neg differs, ih once later]

theorem find_of_mem (ascending : Ascending entries) (member : (key, value) ∈ entries) :
    find? key entries = some value :=
  find_of_nodup ((ascending_iff _).mp ascending).nodup member

theorem find_erase (ascending : Ascending entries) : find? key (erase name entries) =
    if key = name then none else find? key entries := by
  induction entries with
  | nil => simp [erase, find?]
  | cons entry rest ih =>
    rw [erase]
    split
    case isTrue same =>
      subst same
      by_cases asked : entry.1 = key
      · subst asked
        simp [find_eq_none ascending.fresh]
      · simp [find?, asked, Ne.symm asked]
    case isFalse differs =>
      by_cases asked : entry.1 = key
      · subst asked
        simp [find?, differs]
      · simp [find?, asked, ih ascending.tail]

theorem mem_erase {entry : Text × α} (member : entry ∈ erase name entries) : entry ∈ entries := by
  induction entries with
  | nil => cases member
  | cons first rest ih =>
    rw [erase] at member
    split at member
    · exact List.mem_cons_of_mem _ member
    · rcases List.mem_cons.mp member with same | later
      · exact same ▸ List.mem_cons_self
      · exact List.mem_cons_of_mem _ (ih later)

theorem mem_insert {entry : Text × α} (member : entry ∈ insert name value entries) :
    entry = (name, value) ∨ entry ∈ entries := by
  induction entries with
  | nil => exact .inl (List.mem_singleton.mp member)
  | cons first rest ih =>
    rw [insert] at member
    split at member
    · exact List.mem_cons.mp member
    · split at member
      · exact (List.mem_cons.mp member).imp_right (List.mem_cons_of_mem _)
      · rcases List.mem_cons.mp member with same | later
        · exact .inr (same ▸ List.mem_cons_self)
        · exact (ih later).imp_right (List.mem_cons_of_mem _)

end Verdict.Table
