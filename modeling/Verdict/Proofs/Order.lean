import Verdict.Proofs.Interchange

/-!
Order among values. Texts are ordered lexicographically, numbers as rational numbers, lists by their
first unequal items. Not every two values have an order, and having one is not transitive; still
order agrees with equality, reverses on the swapped pair, and goes through along a chain.
-/
namespace Verdict

namespace Text

theorem order_eq_compareLex (a b : Text) : order a b = List.compareLex compare a b := by
  induction a generalizing b with
  | nil => cases b <;> rfl
  | cons x as ih =>
    cases b with
    | nil => rfl
    | cons y bs =>
      have codes : x.toNat < y.toNat ↔ x < y := Iff.rfl
      rw [List.compareLex, ← ih bs]
      rcases lt_trichotomy x y with less | rfl | greater
      · simp [order, before, codes, less, compare_lt_iff_lt.mpr less]
      · simp [order, before]
      · have unequal : x ≠ y := greater.ne'
        simp [order, before, codes, greater.not_gt, unequal, compare_gt_iff_gt.mpr greater]

theorem order_fun_eq : order = List.compareLex compare :=
  funext fun a => funext fun b => order_eq_compareLex a b

instance : Std.TransCmp order := by
  rw [order_fun_eq]
  infer_instance

instance : Std.LawfulEqCmp order := by
  rw [order_fun_eq]
  infer_instance

end Text

theorem compare_chain {α : Type} {cmp : α → α → Ordering} [Std.TransCmp cmp] {a b c : α}
    (first : (cmp a b).isLE) (second : (cmp b c).isLE) : cmp a c = (cmp a b).then (cmp b c) := by
  cases left : cmp a b with
  | gt => simp [left] at first
  | eq =>
    cases right : cmp b c with
    | gt => simp [right] at second
    | eq => exact Std.TransCmp.eq_trans left right
    | lt => exact Std.TransCmp.lt_of_eq_of_lt left right
  | lt =>
    cases right : cmp b c with
    | gt => simp [right] at second
    | eq => exact Std.TransCmp.lt_of_lt_of_eq left right
    | lt => exact Std.TransCmp.lt_trans left right

namespace Essence

mutual
theorem order?_swap (a b : Essence) : b.order? a = (a.order? b).map Ordering.swap := by
  match a, b with
  | .number p, .number q =>
    have swapped : compare q p = (compare p q).swap := Std.OrientedCmp.eq_swap
    rw [order?, order?, swapped, Option.map_some]
  | .text s, .text t =>
    have swapped : Text.order t s = (Text.order s t).swap := Std.OrientedCmp.eq_swap
    rw [order?, order?, swapped, Option.map_some]
  | .list as, .list bs => exact orderItems?_swap as bs
  | .nothing, b => cases b <;> rfl
  | .object _ _, b => cases b <;> rfl
  | .number _, .nothing | .number _, .text _ | .number _, .list _ | .number _, .object _ _ => rfl
  | .text _, .nothing | .text _, .number _ | .text _, .list _ | .text _, .object _ _ => rfl
  | .list _, .nothing | .list _, .number _ | .list _, .text _ | .list _, .object _ _ => rfl

theorem orderItems?_swap (as bs : List Essence) :
    orderItems? bs as = (orderItems? as bs).map Ordering.swap := by
  match as, bs with
  | [], [] => rfl
  | [], _ :: _ => rfl
  | _ :: _, [] => rfl
  | a :: as, b :: bs =>
    rw [orderItems?, orderItems?]
    by_cases same : a = b
    · rw [if_pos same, if_pos same.symm]
      exact orderItems?_swap as bs
    · rw [if_neg same, if_neg (Ne.symm same)]
      exact order?_swap a b
end

mutual
theorem eq_of_order? {a b : Essence} (level : a.order? b = some .eq) : a = b := by
  match a, b with
  | .number p, .number q =>
    rw [order?, Option.some.injEq] at level
    rw [Std.LawfulEqCmp.eq_of_compare level]
  | .text s, .text t =>
    rw [order?, Option.some.injEq] at level
    rw [Std.LawfulEqCmp.eq_of_compare level]
  | .list as, .list bs => exact congrArg Essence.list (eq_of_orderItems? level)

theorem eq_of_orderItems? {as bs : List Essence} (level : orderItems? as bs = some .eq) :
    as = bs := by
  match as, bs with
  | [], [] => rfl
  | a :: as, b :: bs =>
    rw [orderItems?] at level
    split at level
    case isTrue same => rw [same, eq_of_orderItems? level]
    case isFalse differs => exact absurd (eq_of_order? level) differs
end

theorem order?_eq_iff {a b : Essence} {o : Ordering} (ordered : a.order? b = some o) :
    o = .eq ↔ a = b := by
  constructor
  · rintro rfl
    exact eq_of_order? ordered
  · rintro rfl
    have swapped := order?_swap a a
    rw [ordered, Option.map_some, Option.some.injEq] at swapped
    cases o with
    | eq => rfl
    | lt => cases swapped
    | gt => cases swapped

theorem order?_rises {a b : Essence} {o : Ordering} (ordered : a.order? b = some o)
    (notAbove : o.isLE) (differs : a ≠ b) : o = .lt := by
  cases o with
  | lt => rfl
  | eq => exact absurd (eq_of_order? ordered) differs
  | gt => cases notAbove

-- Of three lists the two comparisons end at places of their own. The one further to the left also
-- decides between the outer two; at a common place the items decide, by the induction.
mutual
theorem order?_chain {a b c : Essence} {o o' : Ordering} (first : a.order? b = some o)
    (second : b.order? c = some o') (notAbove : o.isLE) (notAbove' : o'.isLE) :
    a.order? c = some (o.then o') := by
  match a, b, c with
  | .number p, .number q, .number r =>
    cases first
    cases second
    rw [order?, compare_chain notAbove notAbove']
  | .text s, .text t, .text u =>
    cases first
    cases second
    rw [order?, compare_chain notAbove notAbove']
  | .list as, .list bs, .list cs => exact orderItems?_chain first second notAbove notAbove'

theorem orderItems?_chain {as bs cs : List Essence} {o o' : Ordering}
    (first : orderItems? as bs = some o) (second : orderItems? bs cs = some o')
    (notAbove : o.isLE) (notAbove' : o'.isLE) : orderItems? as cs = some (o.then o') := by
  match as, bs, cs with
  | [], [], _ =>
    cases first
    exact second
  | [], _ :: _, [] =>
    cases second
    cases notAbove'
  | [], _ :: _, _ :: _ =>
    cases first
    rfl
  | _ :: _, [], _ =>
    cases first
    cases notAbove
  | _ :: _, _ :: _, [] =>
    cases second
    cases notAbove'
  | a :: as, b :: bs, c :: cs =>
    rw [orderItems?] at first second ⊢
    by_cases left : a = b
    · subst left
      rw [if_pos rfl] at first
      by_cases right : a = c
      · rw [if_pos right] at second ⊢
        exact orderItems?_chain first second notAbove notAbove'
      · rw [if_neg right] at second ⊢
        obtain rfl := order?_rises second notAbove' right
        rw [second]
        cases o <;> trivial
    · rw [if_neg left] at first
      obtain rfl := order?_rises first notAbove left
      by_cases right : b = c
      · subst right
        rw [if_neg left, first]
        rfl
      · rw [if_neg right] at second
        have outer := order?_chain first second notAbove notAbove'
        have apart : a ≠ c := fun same => nomatch (order?_eq_iff outer).mpr same
        rw [if_neg apart, outer]
end

end Essence

namespace Json

/-- Two values that have an order: both count as numbers, both are texts, or both are lists whose
    first unequal items, if there are any, have one. -/
inductive Orderable : Json → Json → Prop where
  | numbers {a b : Json} {m n : Number} (left : a.number? = some m) (right : b.number? = some n) :
      Orderable a b
  | texts (s t : Text) : Orderable (.str s) (.str t)
  | alike {as bs : List Json} (same : ∀ pair ∈ as.zip bs, pair.1.equal pair.2) :
      Orderable (.array as) (.array bs)
  | differing {as bs : List Json} {front rest : List (Json × Json)} {a b : Json}
      (split : as.zip bs = front ++ (a, b) :: rest) (same : ∀ pair ∈ front, pair.1.equal pair.2)
      (differs : ¬a.equal b) (items : Orderable a b) : Orderable (.array as) (.array bs)

theorem alike_or_differing (as bs : List Json) :
    (∀ pair ∈ as.zip bs, pair.1.equal pair.2) ∨
      ∃ front a b rest, as.zip bs = front ++ (a, b) :: rest ∧
        (∀ pair ∈ front, pair.1.equal pair.2) ∧ ¬a.equal b := by
  cases found : (as.zip bs).find? fun pair => !pair.1.equal pair.2 with
  | none => exact .inl (by simpa using List.find?_eq_none.mp found)
  | some pair =>
    obtain ⟨differs, front, rest, split, same⟩ := List.find?_eq_some_iff_append.mp found
    exact .inr ⟨front, pair.1, pair.2, rest, split, by simpa using same, by simpa using differs⟩

theorem equal_symm {a b : Json} (first : a.Canonical) (second : b.Canonical) (same : a.equal b) :
    b.equal a :=
  (equal_iff b a second first).mpr ((equal_iff a b first second).mp same).symm

end Json

namespace Operator
open Json

theorem order_numbers (op : Operator) {a b : Json} {m n : Number} (left : a.number? = some m)
    (right : b.number? = some n) : op.order a b = .ok (m.order n) := by
  cases a <;> cases b <;> simp_all [order, number?]

theorem orderItems_alike (op : Operator) {as bs : List Json}
    (same : ∀ pair ∈ as.zip bs, pair.1.equal pair.2) : ∃ o, op.orderItems as bs = .ok o := by
  induction as generalizing bs with
  | nil => cases bs <;> exact ⟨_, rfl⟩
  | cons a as ih =>
    cases bs with
    | nil => exact ⟨_, rfl⟩
    | cons b bs =>
      rw [List.zip_cons_cons, List.forall_mem_cons] at same
      rw [orderItems, if_pos same.1]
      exact ih same.2

theorem orderItems_differing (op : Operator) {as bs : List Json} {front rest : List (Json × Json)}
    {a b : Json} (split : as.zip bs = front ++ (a, b) :: rest)
    (same : ∀ pair ∈ front, pair.1.equal pair.2) (differs : ¬a.equal b) :
    op.orderItems as bs = op.order a b := by
  induction front generalizing as bs with
  | nil =>
    obtain ⟨as, bs, rfl, rfl, -⟩ := List.zip_eq_cons_iff.mp split
    rw [orderItems, if_neg differs]
  | cons pair front ih =>
    obtain ⟨as, bs, rfl, rfl, behind⟩ := List.zip_eq_cons_iff.mp split
    rw [List.forall_mem_cons] at same
    rw [orderItems, if_pos same.1]
    exact ih behind.symm same.2

theorem order_of_orderable (op : Operator) {a b : Json} (orderable : a.Orderable b) :
    ∃ o, op.order a b = .ok o := by
  induction orderable with
  | numbers left right => exact ⟨_, order_numbers op left right⟩
  | texts s t => exact ⟨_, rfl⟩
  | alike same => exact orderItems_alike op same
  | differing split same differs _ ih =>
    obtain ⟨o, ordered⟩ := ih
    exact ⟨o, (orderItems_differing op split same differs).trans ordered⟩

/-- Every operator refuses the pair by the kinds of the same two parts, and the swapped pair by the
    same two kinds, swapped. -/
def Refused (a b : Json) : Prop :=
  ∃ k k' : Kind, ∀ op : Operator, op.order a b = .error ⟨op, k, .kind k'⟩ ∧
    op.order b a = .error ⟨op, k', .kind k⟩

theorem refused_differing {as bs : List Json} {front rest : List (Json × Json)} {a b : Json}
    (first : CanonicalItems as) (second : CanonicalItems bs)
    (split : as.zip bs = front ++ (a, b) :: rest)
    (same : ∀ pair ∈ front, pair.1.equal pair.2) (differs : ¬a.equal b) (refused : Refused a b) :
    Refused (.array as) (.array bs) := by
  obtain ⟨k, k', refused⟩ := refused
  have canonical : ∀ pair ∈ as.zip bs, pair.1.Canonical ∧ pair.2.Canonical := fun pair member =>
    ⟨(canonicalItems_iff as).mp first _ (List.of_mem_zip member).1,
      (canonicalItems_iff bs).mp second _ (List.of_mem_zip member).2⟩
  rw [split, List.forall_mem_append, List.forall_mem_cons] at canonical
  -- The first difference of the swapped lists is at the same place.
  have swapped : bs.zip as = front.map Prod.swap ++ (b, a) :: rest.map Prod.swap := by
    rw [← List.zip_swap, split, List.map_append, List.map_cons, Prod.swap_prod_mk]
  have same' : ∀ pair ∈ front.map Prod.swap, pair.1.equal pair.2 := by
    rw [List.forall_mem_map]
    intro pair member
    have inside := canonical.1 pair member
    exact equal_symm inside.1 inside.2 (same pair member)
  have differs' : ¬b.equal a := fun equal =>
    differs (equal_symm canonical.2.1.2 canonical.2.1.1 equal)
  exact ⟨k, k', fun op =>
    ⟨(orderItems_differing op split same differs).trans (refused op).1,
      (orderItems_differing op swapped same' differs').trans (refused op).2⟩⟩

-- Only two lists need the recursion, which goes to their first unequal items. Of the other pairs of
-- kinds each one is settled by itself.
theorem orderable_or_refused (a b : Json) (first : a.Canonical) (second : b.Canonical) :
    a.Orderable b ∨ Refused a b := by
  match a, b with
  | .array as, .array bs =>
    rcases alike_or_differing as bs with same | ⟨front, x, y, rest, split, same, differs⟩
    · exact .inl (.alike same)
    · have inside : x ∈ as ∧ y ∈ bs := List.of_mem_zip (split ▸ List.mem_append_cons_self)
      have canonical := (canonicalItems_iff as).mp first x inside.1
      have canonical' := (canonicalItems_iff bs).mp second y inside.2
      exact (orderable_or_refused x y canonical canonical').imp (.differing split same differs)
        (refused_differing first second split same differs)
  | .str s, .str t => exact .inl (.texts s t)
  | .bool _, .bool _ | .bool _, .number _ | .number _, .bool _ | .number _, .number _ =>
    exact .inl (.numbers rfl rfl)
  | .null, b | .object _, b => cases b <;> exact .inr ⟨_, _, fun _ => ⟨rfl, rfl⟩⟩
  | .bool _, .null | .bool _, .str _ | .bool _, .array _ | .bool _, .object _
  | .number _, .null | .number _, .str _ | .number _, .array _ | .number _, .object _
  | .str _, .null | .str _, .bool _ | .str _, .number _ | .str _, .array _ | .str _, .object _
  | .array _, .null | .array _, .bool _ | .array _, .number _ | .array _, .str _
  | .array _, .object _ => exact .inr ⟨_, _, fun _ => ⟨rfl, rfl⟩⟩
termination_by sizeOf a
decreasing_by
  have smaller := List.sizeOf_lt_of_mem inside.1
  rw [Json.array.sizeOf_spec]
  omega

theorem order_ok_iff (op : Operator) {a b : Json} {o : Ordering} (first : a.Canonical)
    (second : b.Canonical) : op.order a b = .ok o ↔ a.essence.order? b.essence = some o := by
  rw [← order_toOption op a b first second]
  cases op.order a b <;> simp [Except.toOption]

theorem order_told {op : Operator} {a b : Json} {o : Ordering} (first : a.Canonical)
    (second : b.Canonical) (ordered : op.order a b = .ok o) :
    (∀ op' : Operator, op'.order a b = .ok o ∧ op'.order b a = .ok o.swap) ∧
      a.equal b = (o == .eq) := by
  rw [order_ok_iff op first second] at ordered
  refine ⟨fun op' => ⟨(order_ok_iff op' first second).mpr ordered, ?_⟩, ?_⟩
  · rw [order_ok_iff op' second first, Essence.order?_swap, ordered]
    rfl
  · rw [Bool.eq_iff_iff, beq_iff_eq, equal_iff a b first second, Essence.order?_eq_iff ordered]

def orderings : List Operator := [.less, .lessOrEqual, .greater, .greaterOrEqual]

theorem apply_refused {op : Operator} {a b : Json} {refusal : Mismatch} (asks : op ∈ orderings)
    (refused : op.order a b = .error refusal) : op.apply a b = .error refusal := by
  simp only [orderings, List.mem_cons, List.not_mem_nil, or_false] at asks
  rcases asks with rfl | rfl | rfl | rfl <;> rw [apply, refused] <;> rfl

/-- The operators of order succeed exactly on orderable values. Then one of less, equal and greater
    holds, the other two operators follow, and the swapped pair exchanges less and greater. Other
    values all four refuse, in either order, naming the same two kinds from their sides. -/
theorem orderings_coherent {l r : Json} (first : l.Canonical) (second : r.Canonical) :
    (l.Orderable r ∧ ∃ below same above : Bool,
      [below, same, above].count true = 1 ∧
      (apply .less l r = .ok below ∧ apply .equal l r = .ok same ∧ apply .greater l r = .ok above ∧
        apply .lessOrEqual l r = .ok (below || same) ∧
        apply .greaterOrEqual l r = .ok (above || same)) ∧
      (apply .less r l = .ok above ∧ apply .equal r l = .ok same ∧ apply .greater r l = .ok below ∧
        apply .lessOrEqual r l = .ok (above || same) ∧
        apply .greaterOrEqual r l = .ok (below || same))) ∨
    (¬l.Orderable r ∧ ∃ k k' : Kind, ∀ op ∈ orderings,
      op.apply l r = .error ⟨op, k, .kind k'⟩ ∧ op.apply r l = .error ⟨op, k', .kind k⟩) := by
  rcases orderable_or_refused l r first second with orderable | ⟨k, k', refused⟩
  · obtain ⟨o, ordered⟩ := order_of_orderable .less orderable
    obtain ⟨told, equal⟩ := order_told first second ordered
    have equal' : r.equal l = (o == .eq) := by
      rw [← equal, Bool.eq_iff_iff]
      exact ⟨equal_symm second first, equal_symm first second⟩
    refine .inl ⟨orderable, o == .lt, o == .eq, o == .gt, ?_, ?_, ?_⟩
    · cases o <;> rfl
    · simp only [apply, (told _).1, equal]
      cases o <;> trivial
    · simp only [apply, (told _).2, equal']
      cases o <;> trivial
  · refine .inr ⟨fun orderable => ?_, k, k', fun op asks =>
      ⟨apply_refused asks (refused op).1, apply_refused asks (refused op).2⟩⟩
    obtain ⟨o, ordered⟩ := order_of_orderable .less orderable
    rw [(refused .less).1] at ordered
    cases ordered

def lowList : Json :=
  .array [realOne, .array [.bool true, .str ['x']], .null]

def highList : Json :=
  .array [.bool true, .array [.number (.int 1), .str ['y']], .object []]

theorem order_decided_inside :
    (lowList.Canonical ∧ highList.Canonical ∧ lowList.Orderable highList ∧
      apply .less lowList highList = .ok true ∧ apply .greater highList lowList = .ok true) ∧
    ¬(Json.array [.null, lowList]).Orderable (.array [.object [], highList]) := by
  have below : apply .less lowList highList = .ok true := by rfl
  have refused : apply .less (.array [.null, lowList]) (.array [.object [], highList]) =
      .error ⟨.less, .nothing, .kind .object⟩ := by rfl
  refine ⟨⟨by decide, by decide, ?_⟩, ?_⟩
  · rcases orderings_coherent (l := lowList) (r := highList) (by decide) (by decide) with
      ⟨orderable, lower, same, above, -, ⟨less, -⟩, -, -, swapped, -⟩ | ⟨-, k, k', refused⟩
    · rw [less] at below
      exact ⟨orderable, less.trans below, swapped.trans below⟩
    · rw [(refused .less (by decide)).1] at below
      cases below
  · rcases orderings_coherent (l := .array [.null, lowList]) (r := .array [.object [], highList])
      (by decide) (by decide) with ⟨-, lower, same, above, -, ⟨less, -⟩, -⟩ | ⟨unordered, -⟩
    · rw [less] at refused
      cases refused
    · exact unordered

theorem lessOrEqual_iff {a b : Json} (first : a.Canonical) (second : b.Canonical) :
    apply .lessOrEqual a b = .ok true ↔ ∃ o, a.essence.order? b.essence = some o ∧ o.isLE := by
  rw [← order_toOption .lessOrEqual a b first second, apply]
  rcases order .lessOrEqual a b with refusal | (_ | _ | _) <;> simp [Except.map, Except.toOption]

theorem less_iff {a b : Json} (first : a.Canonical) (second : b.Canonical) :
    apply .less a b = .ok true ↔ a.essence.order? b.essence = some .lt := by
  rw [← order_toOption .less a b first second, apply]
  rcases order .less a b with refusal | (_ | _ | _) <;> simp [Except.map, Except.toOption]

/-- Order is transitive and stays defined along a chain: where no step descends, the ends have an
    order and do not descend either, and they ascend if one of the steps does. -/
theorem lessOrEqual_chain {a b c : Json} (canonical : a.Canonical ∧ b.Canonical ∧ c.Canonical)
    (first : apply .lessOrEqual a b = .ok true) (second : apply .lessOrEqual b c = .ok true) :
    apply .lessOrEqual a c = .ok true ∧
      (apply .less a b = .ok true ∨ apply .less b c = .ok true → apply .less a c = .ok true) := by
  obtain ⟨left, middle, right⟩ := canonical
  obtain ⟨o, step, notAbove⟩ := (lessOrEqual_iff left middle).mp first
  obtain ⟨o', step', notAbove'⟩ := (lessOrEqual_iff middle right).mp second
  have ends := Essence.order?_chain step step' notAbove notAbove'
  rw [lessOrEqual_iff left right, less_iff left middle, less_iff middle right, less_iff left right,
    step, step', ends]
  constructor
  · exact ⟨_, rfl, by cases o <;> cases o' <;> trivial⟩
  · rintro (rises | rises)
    · cases rises
      rfl
    · cases rises
      cases o with
      | gt => cases notAbove
      | _ => rfl

/-- `[1, [1.0, "x"]]`, which is equal to the other list up to its end. -/
def shortList : Json :=
  .array [.number (.int 1), .array [realOne, .str ['x']]]

theorem lists_in_chain :
    (shortList.Canonical ∧ lowList.Canonical ∧ highList.Canonical) ∧
      apply .lessOrEqual shortList lowList = .ok true ∧
      apply .lessOrEqual lowList highList = .ok true ∧
      apply .lessOrEqual shortList highList = .ok true ∧
      apply .less shortList highList = .ok true := by
  have canonical : shortList.Canonical ∧ lowList.Canonical ∧ highList.Canonical := by decide
  have first : apply .lessOrEqual shortList lowList = .ok true := by rfl
  have second : apply .lessOrEqual lowList highList = .ok true := by rfl
  have ends := lessOrEqual_chain canonical first second
  exact ⟨canonical, first, second, ends.1, ends.2 (.inl rfl)⟩

end Operator

end Verdict
