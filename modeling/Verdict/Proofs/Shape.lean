import Verdict.Proofs.Language

/-!
The shape of the sequences that rules spell, and of those that could be spelled: terms and
connectives in turn, lists of scalars, strings that fit between quotes of either kind.
-/
namespace Verdict

/-- Terms and connectives in turn, from a term to a term, in every group too. -/
inductive AlternatingOf (valid : Condition → Prop) : Sequence → Prop where
  | condition {c : Condition} (isValid : valid c) : AlternatingOf valid [.condition c]
  | group {body : Sequence} (inside : AlternatingOf valid body) : AlternatingOf valid [.group body]
  | joined {term : Node} {joint : Connective} {others : Sequence}
      (first : AlternatingOf valid [term]) (rest : AlternatingOf valid others) :
      AlternatingOf valid (term :: .connective joint :: others)

def Alternating : Sequence → Prop := AlternatingOf fun _ => True

theorem AlternatingOf.mono {P Q : Condition → Prop} {nodes : Sequence}
    (alternating : AlternatingOf P nodes) (implies : ∀ c, P c → Q c) : AlternatingOf Q nodes := by
  induction alternating with
  | condition isValid => exact .condition (implies _ isValid)
  | group _ ih => exact .group ih
  | joined _ _ ihFirst ihRest => exact .joined ihFirst ihRest

inductive IsTerm (valid : Condition → Prop) : Node → Prop where
  | condition {c : Condition} (isValid : valid c) : IsTerm valid (.condition c)
  | group {body : Sequence} (inside : AlternatingOf valid body) : IsTerm valid (.group body)

theorem alternating_single {valid : Condition → Prop} {node : Node} :
    AlternatingOf valid [node] ↔ IsTerm valid node := by
  constructor
  · intro alternating
    cases alternating with
    | condition isValid => exact .condition isValid
    | group inside => exact .group inside
  · intro isTerm
    cases isTerm with
    | condition isValid => exact .condition isValid
    | group inside => exact .group inside

theorem alternating_joined {valid : Condition → Prop} {node second : Node} {others : Sequence} :
    AlternatingOf valid (node :: second :: others) ↔
      IsTerm valid node ∧ (∃ joint, second = .connective joint) ∧ AlternatingOf valid others := by
  constructor
  · intro alternating
    cases alternating with
    | joined first rest => exact ⟨alternating_single.mp first, ⟨_, rfl⟩, rest⟩
  · rintro ⟨isTerm, ⟨joint, rfl⟩, rest⟩
    exact .joined (alternating_single.mpr isTerm) rest

theorem alternating_iff {valid : Condition → Prop} (nodes : Sequence) :
    AlternatingOf valid nodes ↔ nodes.length % 2 = 1 ∧ ∀ i node, nodes[i]? = some node →
      if i % 2 = 0 then IsTerm valid node else ∃ joint, node = .connective joint := by
  match nodes with
  | [] =>
    constructor
    · intro alternating
      cases alternating
    · intro ⟨odd, _⟩
      cases odd
  | [node] =>
    rw [alternating_single]
    constructor
    · intro isTerm
      refine ⟨rfl, fun i found isFound => ?_⟩
      cases i with
      | zero =>
        cases isFound
        exact isTerm
      | succ i => cases isFound
    · intro ⟨_, places⟩
      exact places 0 node rfl
  | node :: second :: others =>
    have length : (node :: second :: others).length % 2 = others.length % 2 := by
      simp only [List.length_cons]
      omega
    rw [alternating_joined, alternating_iff others, length]
    constructor
    · intro ⟨isTerm, isJoint, odd, places⟩
      refine ⟨odd, fun i found isFound => ?_⟩
      match i with
      | 0 =>
        cases isFound
        exact isTerm
      | 1 =>
        cases isFound
        exact isJoint
      | i + 2 => simpa using places i found isFound
    · intro ⟨odd, places⟩
      refine ⟨places 0 node rfl, places 1 second rfl, odd, fun i found isFound => ?_⟩
      simpa using places (i + 2) found isFound

namespace Sequence

theorem validateAround_eq_ok_iff {path : Text} {nodes : List Node} {inside : Except Fault Unit} :
    validateAround path nodes inside = .ok () ↔ nodes.length % 2 = 1 ∧ inside = .ok () := by
  unfold validateAround
  cases nodes with
  | nil => simp [bind, Except.bind, throw, throwThe, MonadExceptOf.throw]
  | cons node rest =>
    cases inside <;>
      simp [bind, Except.bind, pure, Except.pure, throw, throwThe, MonadExceptOf.throw]

-- The recursion is that of `validateNodes`: through the nodes of a sequence and into groups.
mutual
theorem validateNode_eq_ok_iff (path : Text) (i : Nat) (node : Node) :
    validateNode path i node = .ok () ↔
      if i % 2 = 0 then IsTerm (fun _ => True) node else ∃ joint, node = .connective joint := by
  cases node with
  | condition c =>
    unfold validateNode
    split
    · exact ⟨fun _ => .condition trivial, fun _ => rfl⟩
    · simp [throw, throwThe, MonadExceptOf.throw]
  | connective joint =>
    unfold validateNode
    split
    · constructor
      · intro valid
        cases valid
      · intro isTerm
        cases isTerm
    · exact ⟨fun _ => ⟨joint, rfl⟩, fun _ => rfl⟩
  | group body =>
    unfold validateNode
    split
    · rw [validateAround_eq_ok_iff, validateNodes_eq_ok_iff]
      simp only [Nat.zero_add, ← alternating_iff]
      constructor
      · intro inside
        exact .group inside
      · intro isTerm
        cases isTerm with
        | group inside => exact inside
    · simp [throw, throwThe, MonadExceptOf.throw]

theorem validateNodes_eq_ok_iff (path : Text) (i : Nat) (nodes : List Node) :
    validateNodes path i nodes = .ok () ↔ ∀ j node, nodes[j]? = some node →
      if (i + j) % 2 = 0 then IsTerm (fun _ => True) node
      else ∃ joint, node = .connective joint := by
  cases nodes with
  | nil => simp [validateNodes, pure, Except.pure]
  | cons first rest =>
    have step : validateNodes path i (first :: rest) = .ok () ↔
        validateNode path i first = .ok () ∧ validateNodes path (i + 1) rest = .ok () := by
      rw [validateNodes]
      cases validateNode path i first <;> simp [bind, Except.bind]
    rw [step, validateNode_eq_ok_iff path i first, validateNodes_eq_ok_iff path (i + 1) rest]
    constructor
    · intro ⟨here, later⟩ j node found
      cases j with
      | zero =>
        cases found
        exact here
      | succ j =>
        have place : i + (j + 1) = i + 1 + j := by omega
        rw [place]
        exact later j node found
    · intro places
      refine ⟨places 0 first rfl, fun j node found => ?_⟩
      have place : i + 1 + j = i + (j + 1) := by omega
      rw [place]
      exact places (j + 1) node found
end

/-- The sequences that are valid are those whose terms and connectives alternate. -/
theorem validate_eq_ok_iff {path : Text} {nodes : Sequence} :
    nodes.validate path = .ok () ↔ Alternating nodes := by
  rw [validate, validateAround_eq_ok_iff, validateNodes_eq_ok_iff]
  simp only [Nat.zero_add]
  exact (alternating_iff nodes).symm

end Sequence
/-- Literals that can be spelled. A string fits between quotes of one kind at least. -/
inductive Operand.Scalar : Operand → Prop where
  | int (i : Int64) : Scalar (.int i)
  | real (x : Binary64.Finite) : Scalar (.real (.finite x))
  | str {content : Text} (fits : Grammar.Fits '"' content ∨ Grammar.Fits '\'' content) :
      Scalar (.str content)
  | bool (b : Bool) : Scalar (.bool b)
  | nothing : Scalar .nothing
  | path {p : Text} (isPath : Grammar.IsPath p) : Scalar (.path p)

inductive Operand.WellFormed : Operand → Prop where
  | scalar {v : Operand} (isScalar : v.Scalar) : WellFormed v
  | list {items : List Operand} (nonempty : items ≠ []) (scalars : ∀ item ∈ items, item.Scalar) :
      WellFormed (.list items)

def Condition.WellFormed (c : Condition) : Prop := c.left.WellFormed ∧ c.right.WellFormed

def Sequence.WellFormed : Sequence → Prop := AlternatingOf Condition.WellFormed

mutual
def Operand.strings : Operand → List Text
  | .str content => [content]
  | .list items => listStrings items
  | _ => []

def Operand.listStrings : List Operand → List Text
  | [] => []
  | item :: rest => Operand.strings item ++ listStrings rest
end

def Condition.strings (c : Condition) : List Text := c.left.strings ++ c.right.strings

mutual
def Node.strings : Node → List Text
  | .condition c => c.strings
  | .connective _ => []
  | .group body => allStrings body

def Node.allStrings : List Node → List Text
  | [] => []
  | node :: rest => Node.strings node ++ allStrings rest
end

def Sequence.strings (nodes : Sequence) : List Text := Node.allStrings nodes

/-- Whether the character occurs in a text other than after a backslash that takes it along. -/
def unescaped (c : Char) : Text → Bool
  | [] => false
  | '\\' :: _ :: rest => unescaped c rest
  | d :: rest => d == c || unescaped c rest

/-- A string with a double quote has no single quote of its own. -/
def LegibleString (content : Text) : Prop := ¬ ('"' ∈ content ∧ unescaped '\'' content)

instance (content : Text) : Decidable (LegibleString content) :=
  inferInstanceAs (Decidable (¬ _))

def Sequence.Legible (nodes : Sequence) : Prop := ∀ content ∈ nodes.strings, LegibleString content

instance (nodes : Sequence) : Decidable nodes.Legible :=
  inferInstanceAs (Decidable (∀ content ∈ nodes.strings, LegibleString content))

namespace Sequence

theorem legible_condition {c : Condition} :
    Legible [.condition c] ↔ ∀ content ∈ c.strings, LegibleString content := by
  simp [Legible, strings, Node.allStrings, Node.strings]

theorem legible_group {body : Sequence} : Legible [.group body] ↔ Legible body := by
  simp [Legible, strings, Node.allStrings, Node.strings]

theorem legible_joined {term : Node} {joint : Connective} {others : Sequence} :
    Legible (term :: .connective joint :: others) ↔ Legible [term] ∧ Legible others := by
  simp only [Legible, strings, Node.allStrings, Node.strings, List.nil_append, List.append_nil,
    List.forall_mem_append]

end Sequence

namespace Grammar

theorem scalar_of_spelled {t : Text} {v : Operand} (spelled : SpellsScalar t v) : v.Scalar := by
  cases spelled with
  | int => exact .int _
  | real => exact .real _
  | str isQuote fits =>
    rcases isQuote with rfl | rfl
    · exact .str (.inl fits)
    · exact .str (.inr fits)
  | yes => exact .bool true
  | no => exact .bool false
  | nothing => exact .nothing
  | path isPath => exact .path isPath

theorem scalars_of_spelled {t : Text} {items : List Operand} (spelled : SpellsItems t items) :
    items ≠ [] ∧ ∀ item ∈ items, item.Scalar := by
  induction spelled with
  | last scalar => simp [scalar_of_spelled scalar]
  | more scalar _ _ _ ih => simpa [scalar_of_spelled scalar] using ih.2

theorem operand_wellFormed {t : Text} {v : Operand} (spelled : SpellsOperand t v) :
    v.WellFormed := by
  cases spelled with
  | scalar spelled => exact .scalar (scalar_of_spelled spelled)
  | list spelled =>
    obtain ⟨nonempty, scalars⟩ := scalars_of_spelled spelled
    exact .list nonempty scalars

theorem terms_wellFormed {t : Text} {nodes : Sequence} (spelled : SpellsTerms t nodes) :
    nodes.WellFormed := by
  induction spelled with
  | condition spelled =>
    cases spelled with
    | intro left _ right => exact .condition ⟨operand_wellFormed left, operand_wellFormed right⟩
  | group _ _ ih => exact .group ih
  | joined _ _ _ _ _ first rest => exact .joined first rest

end Grammar

theorem Query.wellFormed_of_parse {limit : Nat} {query : Text} {nodes : Sequence}
    (read : parse limit query = .ok nodes) : nodes.WellFormed := by
  cases spells_of_parse read with
  | intro _ terms => exact Grammar.terms_wellFormed terms

end Verdict
