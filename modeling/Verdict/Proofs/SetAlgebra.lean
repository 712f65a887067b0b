import Verdict.Proofs.Order

/-!
The set operators as set algebra. Two lists, two texts or two objects are compared as the sets of
their elements: items up to equality, characters, or names. What membership tests is different for
each of the three, but asked for an element of the same kind it is membership in that set.
-/
namespace Verdict

theorem Text.occurs_singleton {c : Char} {content : Text} :
    occurs [c] content = true ↔ c ∈ content := by
  induction content with
  | nil => simp [occurs]
  | cons d rest ih => simp [occurs, ih]

namespace Json

inductive Collection : Kind → Json → Prop where
  | list {items : List Json} (canonical : (Json.array items).Canonical) :
      Collection .list (.array items)
  | text (content : Text) : Collection .text (.str content)
  | object {members : List (Text × Json)} (canonical : (Json.object members).Canonical) :
      Collection .object (.object members)

/-- The items of a list, up to equality, the characters of a text, the names in an object. -/
inductive ElementOf : Json → Json → Prop where
  | item {x item : Json} {items : List Json} (member : item ∈ items) (same : x.equal item) :
      ElementOf x (.array items)
  | character {c : Char} {content : Text} (member : c ∈ content) :
      ElementOf (.str [c]) (.str content)
  | name {name : Text} {members : List (Text × Json)} (member : name ∈ Table.names members) :
      ElementOf (.str name) (.object members)

def elementSet (v : Json) : Set { x : Json // x.Canonical } := { x | ElementOf x.val v }

variable {k : Kind} {v x y : Json} {items : List Json}

theorem Collection.canonical (collection : v.Collection k) : v.Canonical := by
  cases collection with
  | list canonical => exact canonical
  | text => trivial
  | object canonical => exact canonical

theorem equal_text_iff {content : Text} : x.equal (.str content) = true ↔ x = .str content := by
  cases x <;> simp [equal, number?]

theorem elementOf_iff {op : Operator} (read : op.elements v = .ok items) :
    ElementOf x v ↔ ∃ item ∈ items, x.equal item = true := by
  cases v with
  | array inside =>
    cases read
    exact ⟨fun | .item member same => ⟨_, member, same⟩,
      fun ⟨_, member, same⟩ => .item member same⟩
  | str content =>
    cases read
    simp only [List.mem_map, exists_exists_and_eq_and, equal_text_iff]
    exact ⟨fun | .character member => ⟨_, member, rfl⟩,
      fun ⟨_, member, same⟩ => same ▸ .character member⟩
  | object members =>
    cases read
    simp only [List.mem_map, exists_exists_and_eq_and, equal_text_iff]
    exact ⟨fun | .name member => ⟨_, member, rfl⟩,
      fun ⟨_, member, same⟩ => same ▸ .name member⟩
  | _ => cases read

theorem ElementOf.self {op : Operator} (canonical : x.Canonical) (read : op.elements v = .ok items)
    (member : x ∈ items) : ElementOf x v :=
  (elementOf_iff read).mpr ⟨x, member, (equal_iff x x canonical canonical).mpr rfl⟩

theorem ElementOf.of_equal (first : x.Canonical) (second : y.Canonical) (canonical : v.Canonical)
    (same : x.equal y = true) (element : ElementOf y v) : ElementOf x v := by
  cases element with
  | item member inside =>
    have isCanonical := (canonicalItems_iff _).mp canonical _ member
    rw [equal_iff x y first second] at same
    rw [equal_iff y _ second isCanonical, ← same] at inside
    exact .item member ((equal_iff x _ first isCanonical).mpr inside)
  | character member => exact equal_text_iff.mp same ▸ .character member
  | name member => exact equal_text_iff.mp same ▸ .name member

theorem Collection.regroup {items items' : List Json} (collection : (Json.array items).Collection k)
    (same : ∀ x, x ∈ items' ↔ x ∈ items) : (Json.array items').Collection k := by
  cases collection with
  | list canonical =>
    have each := (canonicalItems_iff items).mp canonical
    exact .list ((canonicalItems_iff _).mpr fun x member => each x ((same x).mp member))

theorem elementSet_congr {items items' : List Json} (same : ∀ x, x ∈ items' ↔ x ∈ items) :
    elementSet (.array items') = elementSet (.array items) := by
  have within {items items' : List Json} (known : ∀ x, x ∈ items → x ∈ items') :
      elementSet (.array items) ⊆ elementSet (.array items') := by
    rintro ⟨x, canonical⟩ (element : ElementOf x (.array items))
    cases element with
    | item member equal => exact .item (known _ member) equal
  exact Set.Subset.antisymm (within fun x => (same x).mp) (within fun x => (same x).mpr)

end Json

namespace Operator
open Json
variable {op : Operator} {k : Kind} {a b c v : Json} {items : List Json}

/-- There is an answer, and it says whether the proposition holds. -/
def Decides (result : Except Mismatch Bool) (p : Prop) : Prop :=
  ∃ answer, result = .ok answer ∧ (answer = true ↔ p)

namespace Decides
variable {result result' : Except Mismatch Bool} {p q : Prop}

theorem ok_true_iff (decides : Decides result p) : result = .ok true ↔ p := by
  obtain ⟨answer, rfl, correct⟩ := decides
  rw [Except.ok.injEq, correct]

theorem congr (decides : Decides result p) (same : p ↔ q) : Decides result q := by
  obtain ⟨answer, rfl, correct⟩ := decides
  exact ⟨answer, rfl, correct.trans same⟩

theorem unique (first : Decides result p) (second : Decides result' p) : result = result' := by
  obtain ⟨answer, rfl, correct⟩ := first
  obtain ⟨answer', rfl, correct'⟩ := second
  rw [Bool.eq_iff_iff.mpr (correct.trans correct'.symm)]

end Decides

theorem elements_ok (op : Operator) (collection : v.Collection k) :
    ∃ items, op.elements v = .ok items ∧ ∀ item ∈ items, item.Canonical := by
  have read : ∃ items, op.elements v = .ok items := by
    cases collection with
    | list => exact ⟨_, rfl⟩
    | text => exact ⟨_, rfl⟩
    | object => exact ⟨_, rfl⟩
  obtain ⟨items, read⟩ := read
  exact ⟨items, read,
    (canonicalItems_iff items).mp (op.canonical_elements collection.canonical read)⟩

theorem contains_list (op : Operator) (x : Json) (items : List Json) :
    Decides (op.contains (.array items) x) (ElementOf x (.array items)) := by
  refine ⟨_, rfl, List.any_eq_true.trans ⟨?_, ?_⟩⟩
  · exact fun ⟨_, inside, same⟩ => .item inside same
  · exact fun | .item inside same => ⟨_, inside, same⟩

theorem contains_object (op : Operator) (x : Json) (members : List (Text × Json)) :
    Decides (op.contains (.object members) x) (ElementOf x (.object members)) := by
  cases x with
  | str name =>
    refine ⟨_, rfl, Table.find_isSome_iff.trans ⟨.name, ?_⟩⟩
    exact fun | .name inside => inside
  | _ => exact ⟨false, rfl, nofun, nofun⟩

theorem contains_decides (first : a.Collection k) (second : b.Collection k)
    (read : op.elements a = .ok items) :
    ∀ item ∈ items, Decides (op.contains b item) (ElementOf item b) := by
  intro item member
  cases first with
  | list =>
    cases second with
    | list => exact op.contains_list item _
  | text =>
    cases read
    cases second with
    | text =>
      obtain ⟨c, -, rfl⟩ := List.mem_map.mp member
      refine ⟨_, rfl, Text.occurs_singleton.trans ⟨.character, ?_⟩⟩
      exact fun | .character inside => inside
  | object =>
    cases second with
    | object => exact op.contains_object item _

variable {P : Json → Prop}

theorem containsAll_decides
    (decided : ∀ item ∈ items, Decides (op.contains v item) (P item)) :
    Decides (op.containsAll v items) (∀ item ∈ items, P item) := by
  induction items with
  | nil => exact ⟨true, rfl, by simp⟩
  | cons item rest ih =>
    obtain ⟨here, others⟩ := List.forall_mem_cons.mp decided
    obtain ⟨found, asked, correct⟩ := here
    rw [containsAll, asked]
    cases found with
    | true => exact (ih others).congr (by simp [← correct])
    | false => exact ⟨false, rfl, by simp [← correct]⟩

theorem containsAny_decides
    (decided : ∀ item ∈ items, Decides (op.contains v item) (P item)) :
    Decides (op.containsAny v items) (∃ item ∈ items, P item) := by
  induction items with
  | nil => exact ⟨false, rfl, by simp⟩
  | cons item rest ih =>
    obtain ⟨here, others⟩ := List.forall_mem_cons.mp decided
    obtain ⟨found, asked, correct⟩ := here
    rw [containsAny, asked]
    cases found with
    | true => exact ⟨true, rfl, by simp [← correct]⟩
    | false => exact (ih others).congr (by simp [← correct])

theorem included_decides (op : Operator) (first : a.Collection k) (second : b.Collection k) :
    Decides (op.elements a >>= op.containsAll b) (a.elementSet ⊆ b.elementSet) := by
  obtain ⟨items, read, canonical⟩ := op.elements_ok first
  rw [read]
  refine (containsAll_decides (contains_decides first second read)).congr ⟨?_, ?_⟩
  · intro known x element
    obtain ⟨item, member, same⟩ := (elementOf_iff read).mp element
    exact (known item member).of_equal x.property (canonical item member) second.canonical same
  · intro within item member
    have element : ElementOf item a := .self (canonical item member) read member
    exact within (show ⟨item, canonical item member⟩ ∈ a.elementSet from element)

theorem overlap_of_contains {k' : Kind} (first : a.Collection k) (second : b.Collection k')
    (tests : ∀ items, op.elements a = .ok items →
      ∀ item ∈ items, Decides (op.contains b item) (ElementOf item b)) :
    Decides (op.elements a >>= op.containsAny b) (a.elementSet ∩ b.elementSet).Nonempty := by
  obtain ⟨items, read, canonical⟩ := op.elements_ok first
  have decided := containsAny_decides (tests items read)
  rw [read]
  refine decided.congr ⟨?_, ?_⟩
  · rintro ⟨item, member, element⟩
    exact ⟨⟨item, canonical item member⟩, .self (canonical item member) read member, element⟩
  · rintro ⟨x, left, right⟩
    obtain ⟨item, member, same⟩ := (elementOf_iff read).mp left
    have isCanonical := canonical item member
    have back := equal_symm x.property isCanonical same
    exact ⟨item, member, right.of_equal isCanonical x.property second.canonical back⟩

theorem overlap_decides (op : Operator) (first : a.Collection k) (second : b.Collection k) :
    Decides (op.elements a >>= op.containsAny b) (a.elementSet ∩ b.elementSet).Nonempty :=
  overlap_of_contains first second fun _ => contains_decides first second

theorem subset_decides (first : a.Collection k) (second : b.Collection k) :
    Decides (apply .subset a b) (a.elementSet ⊆ b.elementSet) :=
  included_decides .subset first second

theorem superset_decides (first : a.Collection k) (second : b.Collection k) :
    Decides (apply .superset a b) (b.elementSet ⊆ a.elementSet) :=
  included_decides .superset second first

theorem intersects_decides (first : a.Collection k) (second : b.Collection k) :
    Decides (apply .intersects a b) (a.elementSet ∩ b.elementSet).Nonempty :=
  overlap_decides .intersects first second

theorem set_operator_decides (k : Kind) : ∀ op ∈ [Operator.subset, .superset, .intersects],
    ∃ R : Set { x : Json // x.Canonical } → Set { x : Json // x.Canonical } → Prop, ∀ a b : Json,
      a.Collection k → b.Collection k → Decides (op.apply a b) (R a.elementSet b.elementSet) := by
  intro op among
  simp only [List.mem_cons, List.not_mem_nil, or_false] at among
  rcases among with rfl | rfl | rfl
  · exact ⟨(· ⊆ ·), fun _ _ => subset_decides⟩
  · exact ⟨(· ⊇ ·), fun _ _ => superset_decides⟩
  · exact ⟨fun A B => (A ∩ B).Nonempty, fun _ _ => intersects_decides⟩

theorem apply_same_items {items items' others others' : List Json}
    (first : (Json.array items).Collection k) (second : (Json.array others).Collection k)
    (left : ∀ x, x ∈ items' ↔ x ∈ items) (right : ∀ x, x ∈ others' ↔ x ∈ others)
    (among : op ∈ [Operator.subset, .superset, .intersects]) :
    op.apply (.array items') (.array others') = op.apply (.array items) (.array others) := by
  obtain ⟨R, decides⟩ := set_operator_decides k op among
  have decided := decides _ _ (first.regroup left) (second.regroup right)
  rw [elementSet_congr left, elementSet_congr right] at decided
  exact decided.unique (decides _ _ first second)

/-- Among lists, among texts and among objects the set operators are set algebra. Subset is never
    refused and says whether every element of the left operand is one of the right operand, so it
    is reflexive and transitive. Intersects is never refused and says whether there is a common
    element, so it is symmetric. Superset is the converse of Subset. In lists, neither the order of
    the items nor how often each one is repeated matters, on either side. -/
theorem set_operators_exact (first : a.Collection k) (second : b.Collection k)
    (third : c.Collection k) :
    Decides (apply .subset a b) (a.elementSet ⊆ b.elementSet) ∧
    apply .subset a a = .ok true ∧
    (apply .subset a b = .ok true → apply .subset b c = .ok true →
      apply .subset a c = .ok true) ∧
    Decides (apply .intersects a b) (a.elementSet ∩ b.elementSet).Nonempty ∧
    apply .intersects b a = apply .intersects a b ∧
    apply .superset a b = apply .subset b a ∧
    ∀ items items' others others' : List Json, a = .array items → b = .array others →
      (∀ x, x ∈ items' ↔ x ∈ items) → (∀ x, x ∈ others' ↔ x ∈ others) →
        ∀ op ∈ [Operator.subset, .superset, .intersects],
          op.apply (.array items') (.array others') = op.apply a b := by
  refine ⟨subset_decides first second, ?reflexive, ?transitive, intersects_decides first second,
    ?symmetric, (superset_decides first second).unique (subset_decides second first), ?items⟩
  case reflexive => exact (subset_decides first first).ok_true_iff.mpr subset_rfl
  case transitive =>
    rw [(subset_decides first second).ok_true_iff, (subset_decides second third).ok_true_iff,
      (subset_decides first third).ok_true_iff]
    exact Set.Subset.trans
  case symmetric =>
    have turned := intersects_decides second first
    rw [Set.inter_comm] at turned
    exact turned.unique (intersects_decides first second)
  case items =>
    rintro items items' others others' rfl rfl left right op among
    exact apply_same_items first second left right among

def trueAndText : Json := .array [.bool true, .str ['x']]

def textTwice : Json := .array [.str ['x'], realOne, .str ['x'], .null]

def nullFirst : Json := .array [.null, .number (.int 1), .str ['x']]

theorem one_is_one_element :
    (trueAndText.Collection .list ∧ textTwice.Collection .list ∧ nullFirst.Collection .list) ∧
      apply .subset trueAndText nullFirst = .ok true ∧
      Decides (apply .intersects trueAndText textTwice)
        (trueAndText.elementSet ∩ textTwice.elementSet).Nonempty ∧
      apply .superset trueAndText textTwice = .ok false ∧
      apply .superset (.array [.str ['x'], .bool true, .str ['x']])
          (.array [.null, .str ['x'], realOne]) =
        apply .superset trueAndText textTwice := by
  have first : trueAndText.Collection .list := .list (by decide)
  have second : textTwice.Collection .list := .list (by decide)
  have third : nullFirst.Collection .list := .list (by decide)
  obtain ⟨-, -, transitive, common, -, converse, regrouped⟩ :=
    set_operators_exact first second third
  refine ⟨⟨first, second, third⟩, transitive (by decide) (by decide), common,
    converse.trans (by decide), ?_⟩
  exact regrouped _ _ _ _ rfl rfl (by simp) (by simp; tauto) .superset (by decide)

end Operator
end Verdict
