import Verdict.Proofs.NumberValue

/-!
What equality sees of a value: numbers and truth values as rational numbers, texts, and the same of
what a list or an object holds. Two values are equal exactly when they have one essence, so equality
is an equivalence relation, although it crosses the kinds of numbers.
-/
namespace Verdict

inductive Essence where
  | nothing
  | number (q : ℚ)
  | text (content : Text)
  | list (items : List Essence)
  | object (names : List Text) (values : List Essence)

namespace Essence

mutual
def same (a b : Essence) : Decidable (a = b) := by
  cases a with
  | list as =>
    cases b with
    | list bs =>
      exact match sameItems as bs with
        | isTrue h => isTrue (congrArg Essence.list h)
        | isFalse h => isFalse fun e => h (Essence.list.inj e)
    | _ => exact isFalse nofun
  | object names as =>
    cases b with
    | object others bs =>
      exact match decEq names others, sameItems as bs with
        | isTrue h, isTrue t => isTrue (by rw [h, t])
        | isFalse h, _ => isFalse fun e => h (Essence.object.inj e).1
        | _, isFalse t => isFalse fun e => t (Essence.object.inj e).2
    | _ => exact isFalse nofun
  | nothing =>
    cases b with
    | nothing => exact isTrue rfl
    | _ => exact isFalse nofun
  | number p =>
    cases b with
    | number q => exact decidable_of_iff (p = q) ⟨congrArg _, Essence.number.inj⟩
    | _ => exact isFalse nofun
  | text s =>
    cases b with
    | text t => exact decidable_of_iff (s = t) ⟨congrArg _, Essence.text.inj⟩
    | _ => exact isFalse nofun

def sameItems : (as bs : List Essence) → Decidable (as = bs)
  | [], [] => isTrue rfl
  | [], _ :: _ => isFalse nofun
  | _ :: _, [] => isFalse nofun
  | a :: as, b :: bs =>
    match same a b, sameItems as bs with
    | isTrue h, isTrue t => isTrue (by rw [h, t])
    | isFalse h, _ => isFalse fun e => h (List.cons.inj e).1
    | _, isFalse t => isFalse fun e => t (List.cons.inj e).2
end

instance : DecidableEq Essence := same

end Essence

namespace Json

mutual
def essence : Json → Essence
  | .null => .nothing
  | .bool b => .number (if b then 1 else 0)
  | .number n => .number n.value
  | .str content => .text content
  | .array items => .list (essences items)
  | .object members => .object (Table.names members) (memberEssences members)

def essences : List Json → List Essence
  | [] => []
  | item :: rest => essence item :: essences rest

def memberEssences : List (Text × Json) → List Essence
  | [] => []
  | (_, value) :: rest => essence value :: memberEssences rest
end

end Json

namespace Table
variable {α β : Type}

instance : Std.Irrefl fun a b : Text => Text.before a b = true where
  irrefl a := by simp [Text.not_before_self]

instance : Std.Antisymm fun a b : Text => Text.before a b = true where
  antisymm a b first second := by
    have loop := Text.before_trans a b a first second
    rw [Text.not_before_self] at loop
    cases loop

theorem names_eq_of_subset {as : List (Text × α)} {bs : List (Text × β)} (first : Ascending as)
    (second : Ascending bs) (length : as.length = bs.length) (known : names as ⊆ names bs) :
    names as = names bs := by
  rw [ascending_iff] at first second
  have within := List.subperm_of_subset first.nodup known
  have ordered := List.sublist_of_subperm_of_pairwise within first second
  exact ordered.eq_of_length (by simpa [names] using length)

theorem find_isSome_iff {name : Text} {entries : List (Text × α)} :
    (find? name entries).isSome ↔ name ∈ names entries := by
  induction entries with
  | nil => simp [find?, names]
  | cons entry rest ih =>
    by_cases same : entry.1 = name
    · simp [find?, names, same]
    · simpa [find?, names, same, Ne.symm same] using ih

end Table

namespace Json

theorem essence_of_number {v : Json} {n : Number} (counts : v.number? = some n) :
    v.essence = .number n.value := by
  cases v with
  | bool b =>
    cases counts
    cases b <;> simp [essence, Number.value]
  | number m =>
    cases counts
    rfl
  | _ => cases counts

theorem Canonical.inRange {v : Json} {n : Number} (canonical : v.Canonical)
    (counts : v.number? = some n) : n.InRange := by
  cases v with
  | bool b =>
    cases counts
    cases b <;> decide
  | number m =>
    cases counts
    exact canonical
  | _ => cases counts

theorem names_known {as bs : List (Text × Json)} (equal : equalMembers as bs) :
    Table.names as ⊆ Table.names bs := by
  induction as with
  | nil => simp [Table.names]
  | cons entry rest ih =>
    rw [equalMembers, Bool.and_eq_true] at equal
    obtain ⟨here, others⟩ := equal
    have known : entry.1 ∈ Table.names bs := by
      rw [← Table.find_isSome_iff]
      split at here
      · rename_i found
        simp [found]
      · cases here
    exact List.cons_subset.mpr ⟨known, ih others⟩

theorem equalMembers_skip {name : Text} {value : Json} {as bs : List (Text × Json)}
    (unasked : name ∉ Table.names as) :
    equalMembers as ((name, value) :: bs) = equalMembers as bs := by
  induction as with
  | nil => rfl
  | cons entry rest ih =>
    simp only [Table.names, List.map_cons, List.mem_cons, not_or] at unasked
    rw [equalMembers, equalMembers, Table.find?, if_neg unasked.1, ih unasked.2]

theorem equal_number_iff {a b : Json} {m : Number} (counts : a.number? = some m)
    (first : a.Canonical) (second : b.Canonical) : a.equal b ↔ a.essence = b.essence := by
  rw [essence_of_number counts]
  cases other : b.number? with
  | some n =>
    have compared : a.equal b = sameNumber m n := by
      cases a <;> cases b <;> simp_all [equal, number?]
    rw [compared, essence_of_number other, Essence.number.injEq,
      Number.sameNumber_iff (first.inRange counts) (second.inRange other)]
  | none =>
    have different : a.equal b = false := by
      cases a <;> cases b <;> simp_all [equal, number?]
    rw [different]
    cases b <;> simp_all [number?, essence]

mutual
theorem equal_iff (a b : Json) (first : a.Canonical) (second : b.Canonical) :
    a.equal b ↔ a.essence = b.essence := by
  match a, b with
  | .array as, .array bs =>
    have items := equalItems_iff as bs first second
    rw [equal, Bool.and_eq_true, beq_iff_eq, items, essence, essence, Essence.list.injEq]
  | .object as, .object bs =>
    rw [equal, Bool.and_eq_true, beq_iff_eq, essence, essence, Essence.object.injEq]
    have members := fun names => equalMembers_iff as bs first.2 second.2 first.1 names
    constructor
    · rintro ⟨length, equal⟩
      have names := Table.names_eq_of_subset first.1 second.1 length (names_known equal)
      exact ⟨names, (members names).mp equal⟩
    · rintro ⟨names, values⟩
      have length := congrArg List.length names
      exact ⟨by simpa [Table.names] using length, (members names).mpr values⟩
  | .null, b => cases b <;> simp [equal, number?, essence]
  | .str s, b => cases b <;> simp [equal, number?, essence]
  | .bool p, b => exact equal_number_iff rfl first second
  | .number m, b => exact equal_number_iff rfl first second
  | .array as, .null | .array as, .bool _ | .array as, .number _ | .array as, .str _
  | .array as, .object _ => simp [equal, number?, essence]
  | .object as, .null | .object as, .bool _ | .object as, .number _ | .object as, .str _
  | .object as, .array _ => simp [equal, number?, essence]

theorem equalItems_iff (as bs : List Json) (first : CanonicalItems as)
    (second : CanonicalItems bs) :
    as.length = bs.length ∧ equalItems as bs ↔ essences as = essences bs := by
  match as, bs with
  | [], [] => simp [equalItems, essences]
  | [], _ :: _ => simp [essences]
  | _ :: _, [] => simp [essences]
  | a :: as, b :: bs =>
    have head := equal_iff a b first.1 second.1
    have tail := equalItems_iff as bs first.2 second.2
    rw [equalItems, Bool.and_eq_true, head, essences, essences, List.cons.injEq, ← tail,
      List.length_cons, List.length_cons, Nat.add_right_cancel_iff]
    exact and_left_comm

theorem equalMembers_iff (as bs : List (Text × Json)) (first : CanonicalMembers as)
    (second : CanonicalMembers bs) (ascending : Table.Ascending as)
    (names : Table.names as = Table.names bs) :
    equalMembers as bs ↔ memberEssences as = memberEssences bs := by
  match as, bs with
  | [], [] => simp [equalMembers, memberEssences]
  | [], _ :: _ => cases names
  | _ :: _, [] => cases names
  | (name, a) :: as, (other, b) :: bs =>
    obtain ⟨rfl, others⟩ : name = other ∧ Table.names as = Table.names bs := by
      simpa [Table.names] using names
    obtain ⟨above, ascending⟩ := List.pairwise_cons.mp ascending
    have unasked : name ∉ Table.names as := by
      intro member
      obtain ⟨entry, isEntry, rfl⟩ := List.mem_map.mp member
      have below := above entry isEntry
      simp only [Text.not_before_self] at below
      cases below
    have head := equal_iff a b first.1 second.1
    have tail := equalMembers_iff as bs first.2 second.2 ascending others
    rw [equalMembers, Bool.and_eq_true, equalMembers_skip unasked, Table.find?, if_pos rfl, head,
      tail, memberEssences, memberEssences, List.cons.injEq]
end

/-- Equality is an equivalence relation on the values of JSON, although numbers and truth values
    are equal across their kinds at every depth. -/
theorem equal_equivalence :
    Equivalence fun a b : { v : Json // v.Canonical } => a.val.equal b.val = true where
  refl a := (equal_iff a.val a.val a.property a.property).mpr rfl
  symm {a b} equal := by
    rw [equal_iff _ _ a.property b.property] at equal
    exact (equal_iff _ _ b.property a.property).mpr equal.symm
  trans {a b c} first second := by
    rw [equal_iff _ _ a.property b.property] at first
    rw [equal_iff _ _ b.property c.property] at second
    exact (equal_iff _ _ a.property c.property).mpr (first.trans second)

end Json
end Verdict
