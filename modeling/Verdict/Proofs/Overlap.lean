import Verdict.Proofs.SetAlgebra

/-!
Common elements of two operands of any kinds. A list and an object test for elements, but a text
looks for what it is asked for as a run of characters, and refuses what is no text. So `Intersects`
finds out whether there is a common element unless a text on the right misreads the elements of a
list or of an object, and only then its answer depends on the side on which an operand stands.
-/
namespace Verdict.Operator
open Json
variable {op : Operator} {k k' : Kind} {a b v x : Json} {items front rest : List Json}
  {content : Text}

theorem containsAny_absent (absent : ∀ item ∈ items, op.contains v item = .ok false) :
    op.containsAny v items = .ok false := by
  induction items with
  | nil => rfl
  | cons item rest ih =>
    obtain ⟨here, others⟩ := List.forall_mem_cons.mp absent
    rw [containsAny, here]
    exact ih others

theorem containsAny_first (absent : ∀ item ∈ front, op.contains v item = .ok false)
    (decisive : op.contains v x ≠ .ok false) :
    op.containsAny v (front ++ x :: rest) = op.contains v x := by
  induction front with
  | nil =>
    rw [List.nil_append, containsAny]
    cases asked : op.contains v x with
    | error e => rfl
    | ok found =>
      cases found with
      | true => rfl
      | false => exact absurd asked decisive
  | cons item front ih =>
    obtain ⟨here, others⟩ := List.forall_mem_cons.mp absent
    rw [List.cons_append, containsAny, here]
    exact ih others

theorem absent_or_decisive (op : Operator) (v : Json) (items : List Json) :
    (∀ item ∈ items, op.contains v item = .ok false) ∨
      ∃ front x rest, items = front ++ x :: rest ∧
        (∀ item ∈ front, op.contains v item = .ok false) ∧ op.contains v x ≠ .ok false := by
  induction items with
  | nil => exact .inl (List.forall_mem_nil _)
  | cons item rest ih =>
    by_cases here : op.contains v item = .ok false
    · rcases ih with absent | ⟨front, x, behind, rfl, absent, decisive⟩
      · exact .inl (List.forall_mem_cons.mpr ⟨here, absent⟩)
      · exact .inr ⟨item :: front, x, behind, rfl, List.forall_mem_cons.mpr ⟨here, absent⟩, decisive⟩
    · exact .inr ⟨[], item, rest, rfl, List.forall_mem_nil _, here⟩

theorem contains_text_absent : op.contains (.str content) x = .ok false ↔
    ∃ part, x = .str part ∧ Text.occurs part content = false := by
  cases x <;> simp [contains]

theorem contains_text_found : op.contains (.str content) x = .ok true ↔
    ∃ part, x = .str part ∧ Text.occurs part content = true := by
  cases x <;> simp [contains]

theorem contains_text_refused : (∃ refusal, op.contains (.str content) x = .error refusal) ↔
    ∀ part, x ≠ .str part := by
  cases x <;> simp [contains]

/-- The text misreads the elements of the operand on its left: after texts that do not occur in it
    there is something that is no text, or some text occurs in it although no element of that
    operand is one of its characters. -/
inductive Misread : Json → Json → Prop where
  | refused {v x : Json} {front rest : List Json} {content : Text}
      (read : elements .intersects v = .ok (front ++ x :: rest))
      (absent : ∀ item ∈ front, ∃ part, item = .str part ∧ Text.occurs part content = false)
      (noText : ∀ part, x ≠ .str part) : Misread v (.str content)
  | run {v : Json} {items : List Json} {part content : Text}
      (read : elements .intersects v = .ok items) (member : .str part ∈ items)
      (occurs : Text.occurs part content = true)
      (foreign : ¬(v.elementSet ∩ elementSet (.str content)).Nonempty) : Misread v (.str content)

theorem apply_intersects (read : elements .intersects a = .ok items) :
    apply .intersects a b = containsAny .intersects b items := by
  rw [apply, read]
  rfl

theorem character_of_common (read : elements .intersects a = .ok items)
    (common : (a.elementSet ∩ elementSet (.str content)).Nonempty) :
    ∃ c, .str [c] ∈ items ∧ c ∈ content := by
  obtain ⟨x, left, right⟩ := common
  obtain ⟨item, member, same⟩ := (elementOf_iff read).mp left
  obtain ⟨x, canonical⟩ := x
  cases right with
  | @character c _ inside =>
    have found : item = .str [c] := by
      cases item <;> simp_all [Json.equal, number?]
    exact ⟨c, found ▸ member, inside⟩

theorem Misread.not_decides (misread : Misread a b) :
    ¬Decides (apply .intersects a b) (a.elementSet ∩ b.elementSet).Nonempty := by
  intro ⟨answer, answered, correct⟩
  cases misread with
  | @refused x front rest content read absent noText =>
    obtain ⟨refusal, refused⟩ : ∃ refusal,
        contains .intersects (.str content) x = .error refusal := contains_text_refused.mpr noText
    have skipped : ∀ item ∈ front, contains .intersects (.str content) item = .ok false :=
      fun item member => contains_text_absent.mpr (absent item member)
    rw [apply_intersects read, containsAny_first skipped (by simp [refused]), refused] at answered
    cases answered
  | @run items part content read member occurs foreign =>
    obtain rfl : answer = false := by simpa [foreign] using correct
    rw [apply_intersects read] at answered
    rcases absent_or_decisive .intersects (.str content) items with
      absent | ⟨front, x, rest, rfl, absent, decisive⟩
    · obtain ⟨other, same, missing⟩ := contains_text_absent.mp (absent _ member)
      cases same
      rw [occurs] at missing
      cases missing
    · rw [containsAny_first absent decisive] at answered
      exact decisive answered

theorem decides_of_not_misread (read : elements .intersects a = .ok items)
    (right : ¬Misread a (.str content)) :
    Decides (apply .intersects a (.str content))
      (a.elementSet ∩ elementSet (.str content)).Nonempty := by
  rw [apply_intersects read]
  rcases absent_or_decisive .intersects (.str content) items with
    absent | ⟨front, x, rest, rfl, absent, decisive⟩
  · refine ⟨false, containsAny_absent absent, nofun, fun common => ?_⟩
    obtain ⟨c, member, inside⟩ := character_of_common read common
    obtain ⟨part, same, occurs⟩ := contains_text_absent.mp (absent _ member)
    cases same
    rw [Text.occurs_singleton.mpr inside] at occurs
    cases occurs
  · rw [containsAny_first absent decisive]
    cases asked : contains .intersects (.str content) x with
    | error refusal =>
      have noText := contains_text_refused.mp ⟨refusal, asked⟩
      have texts := fun item member => contains_text_absent.mp (absent item member)
      exact absurd (.refused read texts noText) right
    | ok found =>
      cases found with
      | false => exact absurd asked decisive
      | true =>
        obtain ⟨part, rfl, occurs⟩ := contains_text_found.mp asked
        by_cases common : (a.elementSet ∩ elementSet (.str content)).Nonempty
        · exact ⟨true, rfl, fun _ => common, fun _ => rfl⟩
        · exact absurd (.run read List.mem_append_cons_self occurs common) right

theorem intersects_decides_iff (first : a.Collection k) (second : b.Collection k') :
    Decides (apply .intersects a b) (a.elementSet ∩ b.elementSet).Nonempty ↔ ¬Misread a b := by
  constructor
  · intro decides misread
    exact misread.not_decides decides
  · intro right
    cases second with
    | list canonical =>
      exact overlap_of_contains first (.list canonical) fun _ _ item _ => contains_list _ item _
    | object canonical =>
      exact overlap_of_contains first (.object canonical) fun _ _ item _ => contains_object _ item _
    | text content =>
      obtain ⟨items, read, -⟩ := elements_ok .intersects first
      exact decides_of_not_misread read right

theorem Misread.kinds (first : a.Collection k) (second : b.Collection k')
    (misread : Misread a b) : k ≠ .text ∧ k' = .text := by
  have right : k' = .text := by
    cases misread <;> cases second <;> rfl
  subst right
  constructor
  · intro left
    subst left
    exact misread.not_decides (intersects_decides first second)
  · rfl

/-- On two operands that have elements, of whatever kinds, `Intersects` says whether there is a
    common element exactly when the right operand does not misread the elements of the left one.
    It gives the same answer on both sides exactly when neither operand misreads the other. Only a
    text misreads, on the right of a list or of an object. -/
theorem intersects_symmetric_iff (first : a.Collection k) (second : b.Collection k') :
    (Decides (apply .intersects a b) (a.elementSet ∩ b.elementSet).Nonempty ↔ ¬Misread a b) ∧
    ((∃ answer, apply .intersects a b = .ok answer ∧ apply .intersects b a = .ok answer) ↔
      ¬Misread a b ∧ ¬Misread b a) ∧
    (Misread a b → k ≠ .text ∧ k' = .text) := by
  have there := intersects_decides_iff first second
  have back := intersects_decides_iff second first
  rw [Set.inter_comm] at back
  refine ⟨there, ?symmetric, Misread.kinds first second⟩
  constructor
  · intro ⟨answer, answered, answered'⟩
    -- One of the two orders is read right, and the other one has its answer.
    have same : apply .intersects a b = apply .intersects b a := answered.trans answered'.symm
    rw [← there, ← back, same, and_self]
    by_cases misread : Misread b a
    · have right : ¬Misread a b := by
        intro other
        exact (misread.kinds second first).1 (other.kinds first second).2
      rw [← same]
      exact there.mpr right
    · exact back.mpr misread
  · intro ⟨right, right'⟩
    have decides := there.mpr right
    have same := decides.unique (back.mpr right')
    obtain ⟨answer, answered, -⟩ := decides
    exact ⟨answer, answered, same.symm.trans answered⟩

def mixedList : Json := .array [.str ['x'], .str ['b'], .number (.int 1)]

theorem character_meets_both_ways :
    (mixedList.Collection .list ∧ (Json.str "abc".toList).Collection .text) ∧
      apply .intersects mixedList (.str "abc".toList) = .ok true ∧
      apply .intersects (.str "abc".toList) mixedList = .ok true ∧
      Decides (apply .intersects mixedList (.str "abc".toList))
        (mixedList.elementSet ∩ elementSet (.str "abc".toList)).Nonempty := by
  have first : mixedList.Collection .list := .list (by decide)
  have second : (Json.str "abc".toList).Collection .text := .text _
  have there : apply .intersects mixedList (.str "abc".toList) = .ok true := by decide
  have back : apply .intersects (.str "abc".toList) mixedList = .ok true := by decide
  obtain ⟨decides, symmetric, -⟩ := intersects_symmetric_iff first second
  exact ⟨⟨first, second⟩, there, back, decides.mpr (symmetric.mp ⟨true, there, back⟩).1⟩

/-- `["ab"]` and `"abc"` have no common element: the text is not one character. Still the list
    intersects the text, while the text does not intersect the list. -/
theorem intersects_one_sided :
    ¬∀ (k k' : Kind) (l r : Json), l.Collection k → r.Collection k' →
      ∃ answer, apply .intersects l r = .ok answer ∧ apply .intersects r l = .ok answer := by
  intro symmetric
  obtain ⟨answer, answered, answered'⟩ := symmetric .list .text (.array [.str "ab".toList])
    (.str "abc".toList) (.list (by decide)) (.text _)
  have there : apply .intersects (.array [.str "ab".toList]) (.str "abc".toList) = .ok true := by
    decide
  have back : apply .intersects (.str "abc".toList) (.array [.str "ab".toList]) = .ok false := by
    decide
  rw [there, Except.ok.injEq] at answered
  rw [back, ← answered] at answered'
  cases answered'

end Verdict.Operator
