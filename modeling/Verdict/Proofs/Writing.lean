import Verdict.Proofs.NumberText
import Verdict.Proofs.Shape

/-!
What the text of a sequence spells. Every token that is written is a token of the rules, except
for a string that is put between quotes that it does not fit.
-/
namespace Verdict.Grammar

theorem unescaped_plain {c d : Char} {rest : Text} (plain : d ≠ '\\') :
    unescaped c (d :: rest) = (d == c || unescaped c rest) := by
  rw [unescaped.eq_3]
  exact fun _ _ backslash => absurd backslash plain

theorem fits_of_free {quote other : Char} {content : Text} (fits : Fits other content)
    (free : unescaped quote content = false) : Fits quote content := by
  fun_induction Fits other content with
  | case1 => trivial
  | case2 c rest ih => exact ih fits free
  | case3 c rest _ ih =>
    obtain ⟨-, plain, notFeed, notReturn, fits⟩ := fits
    rw [unescaped_plain plain, Bool.or_eq_false_iff] at free
    exact (fits_plain plain).mpr ⟨by simpa using free.1, notFeed, notReturn, ih fits free.2⟩

theorem free_of_fits {quote : Char} {content : Text} (fits : Fits quote content) :
    unescaped quote content = false := by
  fun_induction Fits quote content with
  | case1 => rfl
  | case2 c rest ih => exact ih fits
  | case3 c rest _ ih =>
    obtain ⟨notQuote, plain, -, -, fits⟩ := fits
    rw [unescaped_plain plain, ih fits]
    simp [notQuote]

theorem free_of_not_mem {quote : Char} {content : Text} (absent : quote ∉ content) :
    unescaped quote content = false := by
  fun_induction unescaped quote content with
  | case1 => rfl
  | case2 c rest ih => exact ih (by simp_all)
  | case3 c rest _ ih =>
    have different : c ≠ quote := by rintro rfl; simp at absent
    simp [different, ih (by simp_all)]

theorem spells_quoted {content : Text} (fits : Fits '"' content ∨ Fits '\'' content)
    (legible : LegibleString content) : SpellsScalar (Operand.quoted content) (.str content) := by
  unfold Operand.quoted
  by_cases double : '"' ∈ content
  · rw [if_pos double]
    have free : unescaped '\'' content = false := by
      simpa [LegibleString, double] using legible
    refine .str (.inr rfl) ?_
    rcases fits with fits | fits
    · exact fits_of_free fits free
    · exact fits
  · rw [if_neg double]
    refine .str (.inl rfl) ?_
    rcases fits with fits | fits
    · exact fits
    · exact fits_of_free fits (free_of_not_mem double)

theorem spells_scalar_write {v : Operand} (scalar : v.Scalar)
    (legible : ∀ content ∈ v.strings, LegibleString content) : SpellsScalar v.write v := by
  cases scalar with
  | int i => exact spells_int i
  | real x => exact spells_real x
  | str fits => exact spells_quoted fits (legible _ (by simp [Operand.strings]))
  | bool b =>
    cases b with
    | true => exact .yes rfl
    | false => exact .no rfl
  | nothing => exact .nothing rfl
  | path isPath => exact .path isPath

theorem joins_space (a b : Text) : Joins a b (a ++ ' ' :: b) :=
  .intro [' '] (by simp [Blank, Text.isBlank]) fun _ => rfl

theorem joins_close (a : Text) {c : Char} (notWord : isWordChar c = false) :
    Joins a [c] (a ++ [c]) :=
  .intro [] (by simp [Blank]) fun _ => by simp [wordEnds, notWord]

theorem parenthesized_tight (inner : Text) : Parenthesized inner ('(' :: (inner ++ [')'])) :=
  .intro (.intro [] (by simp [Blank]) (seam_of_closed (a := []) rfl))
    (joins_close ('(' :: inner) rfl)

theorem joined_more (separator first second : Text) (more : List Text) :
    Text.joined separator (first :: second :: more) =
      first ++ (separator ++ Text.joined separator (second :: more)) := by
  simp [joined_cons]

theorem spells_items_write {items : List Operand} (nonempty : items ≠ [])
    (scalars : ∀ item ∈ items, item.Scalar)
    (legible : ∀ content ∈ Operand.listStrings items, LegibleString content) :
    SpellsItems (Text.joined ", ".toList (Operand.writeItems items)) items := by
  induction items with
  | nil => exact absurd rfl nonempty
  | cons item rest ih =>
    rw [Operand.listStrings, List.forall_mem_append] at legible
    rw [List.forall_mem_cons] at scalars
    have spelled := spells_scalar_write scalars.1 legible.1
    cases rest with
    | nil =>
      simp only [Operand.writeItems, joined_cons, List.flatMap_nil, List.append_nil]
      exact .last spelled
    | cons second more =>
      have others := ih (by simp) scalars.2 legible.2
      have joins := joins_space (item.write ++ [','])
        (Text.joined ", ".toList (Operand.writeItems (second :: more)))
      rw [Operand.writeItems, Operand.writeItems, joined_more]
      rw [List.append_assoc] at joins
      exact .more spelled (joins_close item.write rfl) others joins

theorem spells_operand_write {v : Operand} (wellFormed : v.WellFormed)
    (legible : ∀ content ∈ v.strings, LegibleString content) : SpellsOperand v.write v := by
  cases wellFormed with
  | scalar scalar => exact .scalar (spells_scalar_write scalar legible)
  | list nonempty scalars =>
    exact .list (spells_items_write nonempty scalars legible) (parenthesized_tight _)

theorem spells_operator_write (op : Operator) : SpellsOperator op.write op := by
  unfold SpellsOperator
  cases op <;> decide

theorem spells_connective_write (c : Connective) : SpellsConnective c.write c := by
  cases c with
  | and => exact .and rfl
  | or => exact .or rfl

theorem spells_condition_write {c : Condition} (wellFormed : c.WellFormed)
    (legible : ∀ content ∈ c.strings, LegibleString content) : SpellsCondition c.write c := by
  rw [Condition.strings, List.forall_mem_append] at legible
  have left := spells_operand_write wellFormed.1 legible.1
  have right := spells_operand_write wellFormed.2 legible.2
  have joins := joins_space (c.left.write ++ ' ' :: c.operator.write) c.right.write
  rw [List.append_assoc] at joins
  exact .intro left (spells_operator_write c.operator) right (joins_space _ _) joins

theorem write_single (node : Node) : Sequence.write [node] = node.write := by
  simp [Sequence.write, Node.writeAll, joined_cons]

theorem write_joined (term : Node) (joint : Connective) {others : Sequence}
    (nonempty : others ≠ []) : Sequence.write (term :: .connective joint :: others) =
      term.write ++ ' ' :: joint.write ++ ' ' :: Sequence.write others := by
  obtain ⟨node, more, rfl⟩ := List.exists_cons_of_ne_nil nonempty
  simp [Sequence.write, Node.writeAll, Node.write, joined_cons]

theorem alternating_nonempty {valid : Condition → Prop} {nodes : Sequence}
    (alternating : AlternatingOf valid nodes) : nodes ≠ [] := by
  cases alternating <;> simp

theorem spells_terms_write {nodes : Sequence} (wellFormed : nodes.WellFormed)
    (legible : nodes.Legible) : SpellsTerms nodes.write nodes := by
  induction wellFormed with
  | condition isValid =>
    rw [write_single]
    exact .condition (spells_condition_write isValid (Sequence.legible_condition.mp legible))
  | group _ ih =>
    rw [write_single]
    exact .group (ih (Sequence.legible_group.mp legible)) (parenthesized_tight _)
  | @joined term joint others _ rest ihFirst ihRest =>
    obtain ⟨legibleTerm, legibleOthers⟩ := Sequence.legible_joined.mp legible
    have spelled := ihFirst legibleTerm
    rw [write_single] at spelled
    rw [write_joined term joint (alternating_nonempty rest)]
    exact .joined spelled (spells_connective_write joint) (ihRest legibleOthers)
      (joins_space _ _) (joins_space _ _)

end Verdict.Grammar
