import Verdict.Operator.Apply
import Verdict.Proofs.Canonical
import Verdict.Proofs.Essence

/-!
The operators see essences only, apart from the two that ask for identity: order, membership and
the set operators answer, or refuse to answer, by what equality sees of their operands. So equal
operands are interchangeable. What a refusal says may still differ, since it names kinds.
-/
namespace Verdict

namespace Essence

mutual
/-- Numbers, texts and lists are each ordered among themselves. The first two items of two lists
    that differ decide, even if they have no order. -/
def order? : Essence → Essence → Option Ordering
  | .number p, .number q => some (compare p q)
  | .text s, .text t => some (Text.order s t)
  | .list as, .list bs => orderItems? as bs
  | _, _ => none

def orderItems? : List Essence → List Essence → Option Ordering
  | [], [] => some .eq
  | [], _ :: _ => some .lt
  | _ :: _, [] => some .gt
  | a :: as, b :: bs => if a = b then orderItems? as bs else order? a b
end

def contains? (container item : Essence) : Option Bool :=
  match container, item with
  | .list items, item => some (decide (item ∈ items))
  | .text content, .text part => some (Text.occurs part content)
  | .object names _, .text name => some (names.contains name)
  | .object _ _, _ => some false
  | _, _ => none

def elements? : Essence → Option (List Essence)
  | .list items => some items
  | .text content => some (content.map fun c => .text [c])
  | .object names _ => some (names.map .text)
  | _ => none

def containsAll? (container : Essence) : List Essence → Option Bool
  | [] => some true
  | item :: rest => do
    if ← container.contains? item then containsAll? container rest else return false

def containsAny? (container : Essence) : List Essence → Option Bool
  | [] => some false
  | item :: rest => do
    if ← container.contains? item then return true else containsAny? container rest

/-- What an operator says of two essences. Identity also looks at kinds, which an essence has
    lost. -/
def answer? (op : Operator) (left right : Essence) : Option Bool :=
  match op with
  | .equal => some (decide (left = right))
  | .unequal => some (!decide (left = right))
  | .greater => (left.order? right).map (· == .gt)
  | .greaterOrEqual => (left.order? right).map (· != .lt)
  | .less => (left.order? right).map (· == .lt)
  | .lessOrEqual => (left.order? right).map (· != .gt)
  | .member => right.contains? left
  | .notMember => (right.contains? left).map (!·)
  | .subset => left.elements?.bind right.containsAll?
  | .superset => right.elements?.bind left.containsAll?
  | .intersects => left.elements?.bind right.containsAny?
  | .identical | .notIdentical => none

end Essence

namespace Json

theorem essences_eq_map (items : List Json) : essences items = items.map essence := by
  induction items with
  | nil => rfl
  | cons item rest ih => rw [essences, ih, List.map_cons]

end Json

namespace Operator
open Json

theorem toOption_map {ε α β : Type} (x : Except ε α) (f : α → β) :
    (x.map f).toOption = x.toOption.map f := by
  cases x <;> rfl

theorem toOption_bind {ε α β : Type} (x : Except ε α) (f : α → Except ε β) :
    (x >>= f).toOption = x.toOption.bind fun value => (f value).toOption := by
  cases x <;> rfl

variable (op : Operator)

theorem order_number {a b : Json} {m : Number} (counts : a.number? = some m)
    (first : a.Canonical) (second : b.Canonical) :
    (op.order a b).toOption = a.essence.order? b.essence := by
  rw [essence_of_number counts]
  cases other : b.number? with
  | some n =>
    have compared : op.order a b = .ok (m.order n) := by
      cases a <;> cases b <;> simp_all [order, number?]
    rw [compared, essence_of_number other,
      Number.order_eq_compare (first.inRange counts) (second.inRange other)]
    rfl
  | none =>
    have refused : op.order a b = .error (op.mismatch a b) := by
      cases a <;> cases b <;> simp_all [order, number?]
    rw [refused]
    cases b <;> simp_all [number?, essence, Essence.order?, Except.toOption]

-- The recursion is that of `order`: a list needs its items, and the items need the order of the
-- first two that differ.
mutual
theorem order_toOption (a b : Json) (first : a.Canonical) (second : b.Canonical) :
    (op.order a b).toOption = a.essence.order? b.essence := by
  match a, b with
  | .array as, .array bs => exact orderItems_toOption as bs first second
  | .bool p, b => exact order_number op rfl first second
  | .number m, b => exact order_number op rfl first second
  | .null, b => cases b <;> rfl
  | .str s, b => cases b <;> rfl
  | .object as, b => cases b <;> rfl
  | .array as, .null | .array as, .bool _ | .array as, .number _ | .array as, .str _
  | .array as, .object _ => rfl

theorem orderItems_toOption (as bs : List Json) (first : CanonicalItems as)
    (second : CanonicalItems bs) :
    (op.orderItems as bs).toOption = Essence.orderItems? (essences as) (essences bs) := by
  match as, bs with
  | [], [] => rfl
  | [], _ :: _ => rfl
  | _ :: _, [] => rfl
  | a :: as, b :: bs =>
    have decided := equal_iff a b first.1 second.1
    rw [orderItems, essences, essences, Essence.orderItems?]
    by_cases same : a.essence = b.essence
    · rw [if_pos (decided.mpr same), if_pos same]
      exact orderItems_toOption as bs first.2 second.2
    · rw [if_neg fun equal => same (decided.mp equal), if_neg same]
      exact order_toOption a b first.1 second.1
end

theorem contains_toOption {container item : Json} (first : container.Canonical)
    (second : item.Canonical) :
    (op.contains container item).toOption = container.essence.contains? item.essence := by
  cases container with
  | array items =>
    have canonical := (canonicalItems_iff items).mp first
    have found : items.any item.equal = decide (item.essence ∈ essences items) := by
      rw [Bool.eq_iff_iff, List.any_eq_true, decide_eq_true_iff, essences_eq_map, List.mem_map]
      constructor
      · rintro ⟨other, member, equal⟩
        exact ⟨other, member, ((equal_iff _ _ second (canonical other member)).mp equal).symm⟩
      · rintro ⟨other, member, same⟩
        exact ⟨other, member, (equal_iff _ _ second (canonical other member)).mpr same.symm⟩
    simp only [contains, found, essence, Essence.contains?, Except.toOption]
  | object members =>
    cases item with
    | str name =>
      have found : (Table.find? name members).isSome = (Table.names members).contains name := by
        rw [Bool.eq_iff_iff, Table.find_isSome_iff, List.contains_iff_mem]
      simp only [contains, found, essence, Essence.contains?, Except.toOption]
    | _ => rfl
  | str content => cases item <;> rfl
  | null => rfl
  | bool b => rfl
  | number n => rfl

theorem elements_toOption (value : Json) :
    (op.elements value).toOption.map essences = value.essence.elements? := by
  cases value with
  | str content => simp [elements, essence, Essence.elements?, Except.toOption, essences_eq_map]
  | object members => simp [elements, essence, Essence.elements?, Except.toOption, essences_eq_map]
  | _ => rfl

theorem canonical_elements {value : Json} {items : List Json} (canonical : value.Canonical)
    (read : op.elements value = .ok items) : CanonicalItems items := by
  cases value with
  | array => cases read; exact canonical
  | str content =>
    cases read
    simp [canonicalItems_iff, Canonical]
  | object members =>
    cases read
    simp [canonicalItems_iff, Canonical]
  | _ => cases read

theorem containsAll_toOption {container : Json} {items : List Json} (first : container.Canonical)
    (second : CanonicalItems items) : (op.containsAll container items).toOption =
      container.essence.containsAll? (essences items) := by
  induction items with
  | nil => rfl
  | cons item rest ih =>
    rw [containsAll, toOption_bind, contains_toOption op first second.1, essences,
      Essence.containsAll?]
    cases container.essence.contains? item.essence with
    | none => rfl
    | some found =>
      cases found with
      | true => exact ih second.2
      | false => rfl

theorem containsAny_toOption {container : Json} {items : List Json} (first : container.Canonical)
    (second : CanonicalItems items) : (op.containsAny container items).toOption =
      container.essence.containsAny? (essences items) := by
  induction items with
  | nil => rfl
  | cons item rest ih =>
    rw [containsAny, toOption_bind, contains_toOption op first second.1, essences,
      Essence.containsAny?]
    cases container.essence.contains? item.essence with
    | none => rfl
    | some found =>
      cases found with
      | true => rfl
      | false => exact ih second.2

theorem ask_toOption {asked : Json} (canonical : asked.Canonical)
    {ask : List Json → Except Mismatch Bool} {ask? : List Essence → Option Bool}
    (decided : ∀ {items}, CanonicalItems items → (ask items).toOption = ask? (essences items)) :
    (op.elements asked >>= ask).toOption = asked.essence.elements?.bind ask? := by
  rw [toOption_bind, ← elements_toOption op]
  cases read : op.elements asked with
  | error refusal => rfl
  | ok items => exact decided (canonical_elements op canonical read)

theorem apply_toOption {left right : Json} (first : left.Canonical) (second : right.Canonical)
    (loose : op ≠ .identical ∧ op ≠ .notIdentical) :
    (op.apply left right).toOption = Essence.answer? op left.essence right.essence := by
  have equality : left.equal right = decide (left.essence = right.essence) := by
    rw [Bool.eq_iff_iff, decide_eq_true_iff, equal_iff left right first second]
  have ordered := order_toOption op left right first second
  have contained := contains_toOption op second first
  cases op with
  | equal | unequal => simp only [apply, equality, Essence.answer?, Except.toOption]
  | greater | greaterOrEqual | less | lessOrEqual =>
    rw [apply, toOption_map, ordered, Essence.answer?]
  | member => exact contained
  | notMember => rw [apply, toOption_map, contained, Essence.answer?]
  | subset => exact ask_toOption _ first (containsAll_toOption _ second)
  | superset => exact ask_toOption _ second (containsAll_toOption _ first)
  | intersects => exact ask_toOption _ first (containsAny_toOption _ second)
  | identical => exact absurd rfl loose.1
  | notIdentical => exact absurd rfl loose.2

/-- Apart from the two operators of identity, equal operands give the same answer or are both
    refused. -/
theorem equal_operands_interchange (loose : op ≠ .identical ∧ op ≠ .notIdentical)
    {left right left' right' : Json}
    (canonical : left.Canonical ∧ right.Canonical ∧ left'.Canonical ∧ right'.Canonical)
    (sameLeft : left.equal left') (sameRight : right.equal right') :
    (∃ answer, op.apply left right = .ok answer ∧ op.apply left' right' = .ok answer) ∨
      (∃ refusal refusal', op.apply left right = .error refusal ∧
        op.apply left' right' = .error refusal') := by
  obtain ⟨first, second, first', second'⟩ := canonical
  have alike : (op.apply left right).toOption = (op.apply left' right').toOption := by
    rw [apply_toOption op first second loose, apply_toOption op first' second' loose,
      (equal_iff left left' first first').mp sameLeft,
      (equal_iff right right' second second').mp sameRight]
  cases one : op.apply left right with
  | ok answer =>
    cases other : op.apply left' right' with
    | ok answer' =>
      rw [one, other] at alike
      exact .inl ⟨answer, rfl, congrArg Except.ok (Option.some.inj alike).symm⟩
    | error refusal =>
      rw [one, other] at alike
      cases alike
  | error refusal =>
    cases other : op.apply left' right' with
    | ok answer' =>
      rw [one, other] at alike
      cases alike
    | error refusal' => exact .inr ⟨refusal, refusal', rfl, rfl⟩

def realOne : Json := .number (.real ⟨false, 4503599627370496, -52, by decide⟩)

theorem ones_interchange :
    Json.equal (.array [.bool true, .str ['x']]) (.array [realOne, .str ['x']]) ∧
      Json.equal (.array [.number (.int 1)]) (.array [.bool true]) ∧
      ((∃ answer,
          apply .intersects (.array [.bool true, .str ['x']]) (.array [.number (.int 1)]) =
            .ok answer ∧
          apply .intersects (.array [realOne, .str ['x']]) (.array [.bool true]) = .ok answer) ∨
        (∃ refusal refusal',
          apply .intersects (.array [.bool true, .str ['x']]) (.array [.number (.int 1)]) =
            .error refusal ∧
          apply .intersects (.array [realOne, .str ['x']]) (.array [.bool true]) =
            .error refusal')) := by
  have left : Json.equal (.array [.bool true, .str ['x']]) (.array [realOne, .str ['x']]) := by
    decide
  have right : Json.equal (.array [.number (.int 1)]) (.array [.bool true]) := by decide
  exact ⟨left, right, equal_operands_interchange .intersects (by decide) (by decide) left right⟩

end Operator
end Verdict
