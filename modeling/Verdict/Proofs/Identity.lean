import Verdict.Operator.Apply
import Verdict.Proofs.Lookup

/-!
Identity is equality that coerces nothing. Two values are identical exactly when they are equal and
when, wherever both have a part at the same place, the two parts are of one kind. As equal values
have their parts at the same places, identity is an equivalence relation too.
-/
namespace Verdict

namespace Json

inductive Place where
  | item (index : Nat)
  | member (name : Text)

def child? : Json → Place → Option Json
  | .array items, .item index => items[index]?
  | .object members, .member name => Table.find? name members
  | _, _ => none

/-- The part of a value to which a path leads; the empty path leads to the value itself. -/
def part? (v : Json) : List Place → Option Json
  | [] => some v
  | place :: rest => (v.child? place).bind fun inside => inside.part? rest

/-- Wherever a path leads to a part of both values, the two parts have one type name. -/
def AlikeInKind (a b : Json) : Prop :=
  ∀ path v w, a.part? path = some v → b.part? path = some w → v.kind.name = w.kind.name

theorem Kind.name_injective : Function.Injective Kind.name := by
  intro k k' same
  cases k <;> cases k' <;> first | rfl | exact absurd same (by decide)

variable {a b c v : Json}

theorem alikeInKind_iff : a.AlikeInKind b ↔ a.kind = b.kind ∧
    ∀ place x y, a.child? place = some x → b.child? place = some y → x.AlikeInKind y := by
  constructor
  · intro alike
    constructor
    · exact Kind.name_injective (alike [] a b rfl rfl)
    · intro place x y inA inB path v w leads leads'
      apply alike (place :: path) v w
      · rw [part?, inA]
        exact leads
      · rw [part?, inB]
        exact leads'
  · intro ⟨root, children⟩ path v w leads leads'
    cases path with
    | nil =>
      cases leads
      cases leads'
      rw [root]
    | cons place rest =>
      obtain ⟨x, inA, leads⟩ := Option.bind_eq_some_iff.mp leads
      obtain ⟨y, inB, leads'⟩ := Option.bind_eq_some_iff.mp leads'
      exact children place x y inA inB rest v w leads leads'

theorem AlikeInKind.refl (a : Json) : a.AlikeInKind a := by
  intro path v w leads leads'
  rw [leads, Option.some.injEq] at leads'
  rw [leads']

theorem AlikeInKind.symm (alike : a.AlikeInKind b) : b.AlikeInKind a := by
  intro path v w leads leads'
  exact (alike path w v leads' leads).symm

theorem equalItems_get {as bs : List Json} {index : Nat} {x y : Json}
    (equal : equalItems as bs) (inA : as[index]? = some x) (inB : bs[index]? = some y) :
    x.equal y := by
  induction as generalizing bs index with
  | nil => cases inA
  | cons a as ih =>
    cases bs with
    | nil => cases inB
    | cons b bs =>
      rw [equalItems, Bool.and_eq_true] at equal
      cases index with
      | zero =>
        cases inA
        cases inB
        exact equal.1
      | succ index => exact ih equal.2 inA inB

theorem equalMembers_find {as bs : List (Text × Json)} {name : Text} {x : Json}
    (equal : equalMembers as bs) (found : Table.find? name as = some x) :
    ∃ y, Table.find? name bs = some y ∧ x.equal y := by
  induction as with
  | nil => cases found
  | cons entry rest ih =>
    rw [equalMembers, Bool.and_eq_true] at equal
    obtain ⟨here, others⟩ := equal
    rw [Table.find?] at found
    split at found
    case isTrue same =>
      cases found
      subst same
      split at here
      case h_1 y inB => exact ⟨y, inB, here⟩
      case h_2 => cases here
    case isFalse => exact ih others found

theorem equal_child {place : Place} {x : Json} (equal : a.equal b)
    (inA : a.child? place = some x) : ∃ y, b.child? place = some y ∧ x.equal y := by
  cases a with
  | array as =>
    cases b with
    | array bs =>
      cases place with
      | item index =>
        rw [Json.equal, Bool.and_eq_true, beq_iff_eq] at equal
        have within : index < bs.length := by
          rw [← equal.1]
          exact (List.getElem?_eq_some_iff.mp inA).1
        exact ⟨bs[index], List.getElem?_eq_getElem within,
          equalItems_get equal.2 inA (List.getElem?_eq_getElem within)⟩
      | member => cases inA
    | _ => simp [Json.equal, number?] at equal
  | object as =>
    cases b with
    | object bs =>
      cases place with
      | item => cases inA
      | member name =>
        rw [Json.equal, Bool.and_eq_true] at equal
        exact equalMembers_find equal.2 inA
    | _ => simp [Json.equal, number?] at equal
  | _ => cases inA

theorem equal_part {path : List Place} (equal : a.equal b) (leads : a.part? path = some v) :
    ∃ w, b.part? path = some w ∧ v.equal w := by
  induction path generalizing a b with
  | nil =>
    cases leads
    exact ⟨b, rfl, equal⟩
  | cons place rest ih =>
    obtain ⟨x, inA, leads⟩ := Option.bind_eq_some_iff.mp leads
    obtain ⟨y, inB, equal⟩ := equal_child equal inA
    rw [part?, inB]
    exact ih equal leads

theorem AlikeInKind.trans (equal : a.equal b) (first : a.AlikeInKind b)
    (second : b.AlikeInKind c) : a.AlikeInKind c := by
  intro path v w leads leads'
  obtain ⟨u, middle, -⟩ := equal_part equal leads
  exact (first path v u leads middle).trans (second path u w middle leads')

theorem alike_items {as bs : List Json} : (Json.array as).AlikeInKind (.array bs) ↔
    ∀ (index : Nat) (x y : Json), as[index]? = some x → bs[index]? = some y →
      x.AlikeInKind y := by
  rw [alikeInKind_iff]
  constructor
  · intro ⟨_, children⟩ index
    exact children (.item index)
  · intro items
    refine ⟨rfl, fun place x y inA inB => ?_⟩
    cases place with
    | item index => exact items index x y inA inB
    | member => cases inA

theorem alike_members {as bs : List (Text × Json)} : (Json.object as).AlikeInKind (.object bs) ↔
    ∀ name x y, Table.find? name as = some x → Table.find? name bs = some y →
      x.AlikeInKind y := by
  rw [alikeInKind_iff]
  constructor
  · intro ⟨_, children⟩ name
    exact children (.member name)
  · intro members
    refine ⟨rfl, fun place x y inA inB => ?_⟩
    cases place with
    | item => cases inA
    | member name => exact members name x y inA inB

theorem alike_leaf (leaf : ∀ place, a.child? place = none) :
    a.AlikeInKind b ↔ a.kind = b.kind := by
  rw [alikeInKind_iff]
  constructor
  · intro ⟨root, _⟩
    exact root
  · intro root
    refine ⟨root, fun place x y inA _ => ?_⟩
    rw [leaf] at inA
    cases inA

theorem kind_of_identical (same : a.identical b) : a.kind = b.kind := by
  cases a <;> cases b
  case number.number m n => cases m <;> cases n <;> simp_all [identical, kind, Number.isReal]
  all_goals simp_all [identical, kind]

-- Values of different kinds are not identical, and their roots already differ in kind. Of values of
-- one kind only lists and objects have parts, which need the recursion.
mutual
theorem identical_iff (a b : Json) (canonical : a.Canonical) :
    a.identical b ↔ a.equal b ∧ a.AlikeInKind b := by
  by_cases root : a.kind = b.kind
  · match a, b with
    | .null, .null =>
      rw [alike_leaf fun _ => rfl]
      decide
    | .bool p, .bool q =>
      rw [alike_leaf fun _ => rfl]
      cases p <;> cases q <;> decide
    | .number m, .number n =>
      rw [alike_leaf fun _ => rfl]
      cases m <;> cases n <;> simp [identical, equal, number?, kind, Number.isReal]
    | .str s, .str t =>
      rw [alike_leaf fun _ => rfl]
      simp [identical, equal, kind]
    | .array as, .array bs =>
      rw [identical, equal, Bool.and_eq_true, Bool.and_eq_true, and_assoc,
        identicalItems_iff as bs canonical, alike_items]
    | .object as, .object bs =>
      rw [identical, equal, Bool.and_eq_true, Bool.and_eq_true, and_assoc,
        identicalMembers_iff as bs canonical.1 canonical.2, alike_members]
    | .number n, .null | .number n, .bool _ | .number n, .str _ | .number n, .array _
    | .number n, .object _ | .null, .number n | .bool _, .number n | .str _, .number n
    | .array _, .number n | .object _, .number n => cases n <;> cases root
  · constructor
    · intro same
      exact absurd (kind_of_identical same) root
    · intro ⟨_, alike⟩
      exact absurd (alikeInKind_iff.mp alike).1 root

theorem identicalItems_iff (as bs : List Json) (canonical : CanonicalItems as) :
    identicalItems as bs ↔ equalItems as bs ∧
      ∀ (index : Nat) (x y : Json), as[index]? = some x → bs[index]? = some y →
        x.AlikeInKind y := by
  match as, bs with
  | [], _ => simp [identicalItems, equalItems]
  | _ :: _, [] => simp [identicalItems, equalItems]
  | a :: as, b :: bs =>
    have head := identical_iff a b canonical.1
    have tail := identicalItems_iff as bs canonical.2
    rw [identicalItems, equalItems, Bool.and_eq_true, Bool.and_eq_true, head, tail]
    constructor
    · intro ⟨⟨equal, alike⟩, others, alikeOthers⟩
      refine ⟨⟨equal, others⟩, fun index x y inA inB => ?_⟩
      cases index with
      | zero =>
        cases inA
        cases inB
        exact alike
      | succ index => exact alikeOthers index x y inA inB
    · intro ⟨⟨equal, others⟩, alike⟩
      exact ⟨⟨equal, alike 0 a b rfl rfl⟩, others, fun index => alike (index + 1)⟩

theorem identicalMembers_iff (as bs : List (Text × Json)) (ascending : Table.Ascending as)
    (canonical : CanonicalMembers as) :
    identicalMembers as bs ↔ equalMembers as bs ∧
      ∀ name x y, Table.find? name as = some x → Table.find? name bs = some y →
        x.AlikeInKind y := by
  match as with
  | [] => simp [identicalMembers, equalMembers, Table.find?]
  | (name, a) :: as =>
    have tail := identicalMembers_iff as bs ascending.tail canonical.2
    rw [identicalMembers, equalMembers, Bool.and_eq_true, Bool.and_eq_true, tail]
    cases inB : Table.find? name bs with
    | none => simp
    | some b =>
      have head := identical_iff a b canonical.1
      simp only [head]
      constructor
      · intro ⟨⟨equal, alike⟩, others, alikeOthers⟩
        refine ⟨⟨equal, others⟩, fun key x y found found' => ?_⟩
        rw [Table.find?] at found
        split at found
        case isTrue same =>
          subst same
          cases found
          rw [inB] at found'
          cases found'
          exact alike
        case isFalse => exact alikeOthers key x y found found'
      · intro ⟨⟨equal, others⟩, alike⟩
        have first : Table.find? name ((name, a) :: as) = some a := by rw [Table.find?, if_pos rfl]
        refine ⟨⟨equal, alike name a b first inB⟩, others, fun key x y found => ?_⟩
        -- A name that is found further on is not the first one.
        have member : (key, x) ∈ as := Table.mem_of_find found
        exact alike key x y (Table.find_of_mem ascending (List.mem_cons_of_mem _ member))
end

end Json

namespace Operator
open Json

/-- Identity is never refused. It holds exactly between values that are equal and that have, at the
    root and wherever both have a part at the same place, the same type name. It is an equivalence
    relation on the values of JSON, and the negated operator says the opposite. -/
theorem identity_exact :
    (∀ a b : { v : Json // v.Canonical },
      (apply .identical a.val b.val = .ok true ↔
        apply .equal a.val b.val = .ok true ∧ a.val.AlikeInKind b.val) ∧
      ∃ same, apply .identical a.val b.val = .ok same ∧
        apply .notIdentical a.val b.val = .ok !same) ∧
    Equivalence fun a b : { v : Json // v.Canonical } =>
      apply .identical a.val b.val = .ok true := by
  have same_iff (a b : { v : Json // v.Canonical }) :
      apply .identical a.val b.val = .ok true ↔
        a.val.essence = b.val.essence ∧ a.val.AlikeInKind b.val := by
    rw [apply, Except.ok.injEq, ← equal_iff a.val b.val a.property b.property]
    exact identical_iff a.val b.val a.property
  constructor
  · intro a b
    constructor
    · rw [apply, apply, Except.ok.injEq, Except.ok.injEq]
      exact identical_iff a.val b.val a.property
    · exact ⟨a.val.identical b.val, rfl, rfl⟩
  · constructor
    case refl =>
      intro a
      exact (same_iff a a).mpr ⟨rfl, .refl a.val⟩
    case symm =>
      intro a b same
      obtain ⟨equal, alike⟩ := (same_iff a b).mp same
      exact (same_iff b a).mpr ⟨equal.symm, alike.symm⟩
    case trans =>
      intro a b c first second
      obtain ⟨equal, alike⟩ := (same_iff a b).mp first
      obtain ⟨equal', alike'⟩ := (same_iff b c).mp second
      have sameParts := (equal_iff a.val b.val a.property b.property).mpr equal
      exact (same_iff a c).mpr ⟨equal.trans equal', alike.trans sameParts alike'⟩

example :
    let zero := Json.object [(['a'], .array [.number (.int 0)])]
    let no := Json.object [(['a'], .array [.bool false])]
    apply .equal zero no = .ok true ∧ apply .identical zero no = .ok false := by
  decide

end Operator
end Verdict
