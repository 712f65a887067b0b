import Verdict.Json.Reader

/-!
What is read is canonical: the value of a text has its members in order at every depth, and a
64-bit word holds each of its integers, however the text repeats names or writes numbers.
-/
namespace Verdict

theorem Table.ascending_ofList {α : Type} (entries : List (Text × α)) :
    Ascending (ofList entries) :=
  List.foldlRecOn entries _ List.Pairwise.nil fun table ascending entry _ =>
    ascending_insert entry.1 entry.2 table ascending

namespace Json

theorem Literal.value_inRange {literal : Numeral} {n : Number}
    (read : Literal.value? literal = some n) : n.InRange := by
  have least : Int64.minValue.toInt = -2 ^ 63 := by decide
  have largest : Int64.maxValue.toInt = 2 ^ 63 - 1 := by decide
  have word : Number.maxWord = 2 ^ 64 - 1 := by decide
  simp only [Literal.value?] at read
  split at read
  case isTrue fits =>
    cases read
    simp only [Number.InRange, least, word] at fits ⊢
    omega
  case isFalse =>
    split at read
    case isTrue fits =>
      cases read
      simp only [Number.fitsInt64, Bool.and_eq_true, decide_eq_true_eq, least, largest] at fits
      simp only [Number.InRange, least, word]
      omega
    case isFalse =>
      obtain ⟨x, -, rfl⟩ := Option.map_eq_some_iff.mp read
      trivial

theorem canonicalItems_iff (items : List Json) :
    CanonicalItems items ↔ ∀ item ∈ items, item.Canonical := by
  induction items with
  | nil => simp [CanonicalItems]
  | cons item rest ih => rw [CanonicalItems, ih, List.forall_mem_cons]

theorem canonicalMembers_iff (members : List (Text × Json)) :
    CanonicalMembers members ↔ ∀ entry ∈ members, entry.2.Canonical := by
  induction members with
  | nil => simp [CanonicalMembers]
  | cons entry rest ih => rw [CanonicalMembers, ih, List.forall_mem_cons]

theorem canonicalMembers_insert {name : Text} {value : Json} (canonical : value.Canonical)
    {members : List (Text × Json)} (others : CanonicalMembers members) :
    CanonicalMembers (Table.insert name value members) := by
  induction members with
  | nil => exact ⟨canonical, trivial⟩
  | cons entry rest ih =>
    rw [Table.insert]
    split
    · exact ⟨canonical, others⟩
    · split
      · exact ⟨canonical, others.2⟩
      · exact ⟨others.1, ih others.2⟩

theorem canonicalMembers_ofList {entries : List (Text × Json)}
    (canonical : CanonicalMembers entries) : CanonicalMembers (Table.ofList entries) :=
  List.foldlRecOn entries _ trivial fun _ others entry member =>
    canonicalMembers_insert ((canonicalMembers_iff entries).mp canonical entry member) others

mutual
theorem ofTree_canonical {depth : Nat} {tree : Tree} {v : Json}
    (read : ofTree? depth tree = some v) : v.Canonical := by
  cases tree with
  | null => cases read; trivial
  | bool b => cases read; trivial
  | number literal =>
    obtain ⟨n, value, rfl⟩ := Option.map_eq_some_iff.mp read
    exact Literal.value_inRange value
  | str pieces =>
    obtain ⟨content, -, rfl⟩ := Option.map_eq_some_iff.mp read
    trivial
  | array items =>
    rw [ofTree?] at read
    split at read
    · cases read
    · obtain ⟨values, inside, rfl⟩ := Option.map_eq_some_iff.mp read
      exact ofItems_canonical inside
  | object members =>
    rw [ofTree?] at read
    split at read
    · cases read
    · obtain ⟨entries, inside, rfl⟩ := Option.map_eq_some_iff.mp read
      exact ⟨Table.ascending_ofList entries, canonicalMembers_ofList (ofMembers_canonical inside)⟩

theorem ofItems_canonical {depth : Nat} {items : List Tree} {values : List Json}
    (read : ofItems? depth items = some values) : CanonicalItems values := by
  cases items with
  | nil => cases read; trivial
  | cons item rest =>
    obtain ⟨value, here, more⟩ := Option.bind_eq_some_iff.mp read
    obtain ⟨others, behind, same⟩ := Option.bind_eq_some_iff.mp more
    cases same
    exact ⟨ofTree_canonical here, ofItems_canonical behind⟩

theorem ofMembers_canonical {depth : Nat} {members : List (List Piece × Tree)}
    {entries : List (Text × Json)} (read : ofMembers? depth members = some entries) :
    CanonicalMembers entries := by
  cases members with
  | nil => cases read; trivial
  | cons member rest =>
    obtain ⟨name, -, more⟩ := Option.bind_eq_some_iff.mp read
    obtain ⟨value, here, more⟩ := Option.bind_eq_some_iff.mp more
    obtain ⟨others, behind, same⟩ := Option.bind_eq_some_iff.mp more
    cases same
    exact ⟨ofTree_canonical here, ofMembers_canonical behind⟩
end

theorem ofText_canonical {t : Text} {v : Json} (read : ofText? t = some v) : v.Canonical := by
  obtain ⟨tree, -, value⟩ := Option.bind_eq_some_iff.mp read
  exact ofTree_canonical value

end Json
end Verdict
