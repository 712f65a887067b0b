import Verdict.Proofs.Account
import Verdict.Proofs.Writing

/-!
Rules compose as texts. Two rules with a connective between them spell both sequences one after
the other, and parentheses around a rule spell its group. So parts in parentheses combine by their
verdicts alone, and parentheses around what a connective is followed by change nothing.
-/
namespace Verdict

namespace Query

def join (joint : Connective) (first second : Text) : Text :=
  first ++ ' ' :: (joint.write ++ ' ' :: second)

def enclose (query : Text) : Text := '(' :: (query ++ [')'])

end Query

/-- The second verdict where the connective needs it, the first one otherwise. -/
def Connective.combine {ε : Type} (first second : Except ε Bool) : Connective → Except ε Bool
  | .and =>
    match first with
    | .ok true => second
    | settled => settled
  | .or =>
    match first with
    | .ok false => second
    | settled => settled

namespace Grammar

theorem terms_append {a joint front b t : Text} {nodes others : Sequence} {c : Connective}
    (first : SpellsTerms a nodes) (connective : SpellsConnective joint c)
    (second : SpellsTerms b others) (joinsJoint : Joins a joint front)
    (joinsRest : Joins front b t) : SpellsTerms t (nodes ++ .connective c :: others) := by
  induction first generalizing front t with
  | condition spelled => exact .joined (.condition spelled) connective second joinsJoint joinsRest
  | group spelled around =>
    exact .joined (.group spelled around) connective second joinsJoint joinsRest
  | joined term inner more joinsInner joinsMore _ ih =>
    have starts := starts_terms more
    obtain ⟨middle, joinsMiddle, joinsFront⟩ := joinsMore.assoc joinsJoint starts.nonempty
    obtain ⟨last, joinsLast, whole⟩ :=
      joinsFront.assoc joinsRest (starts.joins joinsMiddle).nonempty
    exact .joined term inner (ih joinsMiddle joinsLast) joinsInner whole

theorem blank_append {a b : Text} (first : Blank a) (second : Blank b) : Blank (a ++ b) :=
  List.forall_mem_append.mpr ⟨first, second⟩

theorem blank_space : Blank [' '] := by simp [Blank, Text.isBlank]

theorem joins_blank {blanks : Text} (blank : Blank blanks) (nonempty : blanks ≠ []) (a b : Text) :
    Joins a b (a ++ (blanks ++ b)) := by
  refine .intro blanks blank fun _ => ?_
  obtain ⟨c, more, rfl⟩ := List.exists_cons_of_ne_nil nonempty
  exact wordEnds_of_blank (t := [c]) (by simp [Blank, blank c (by simp)])

theorem spells_join {first second : Text} {nodes others : Sequence}
    (spelled : Spells first nodes) (spelledSecond : Spells second others) (joint : Connective) :
    Spells (Query.join joint first second) (nodes ++ .connective joint :: others) := by
  cases spelled with
  | @intro before a after _ blankBefore terms blankAfter =>
    cases spelledSecond with
    | @intro before' b after' _ blankBefore' terms' blankAfter' =>
      have joinsJoint := joins_blank (blank_append blankAfter blank_space) (by simp) a joint.write
      have joinsRest := joins_blank (blank_append blank_space blankBefore') (by simp)
        (a ++ (after ++ [' '] ++ joint.write)) b
      have whole := terms_append terms (spells_connective_write joint) terms' joinsJoint joinsRest
      have text : Query.join joint (before ++ (a ++ after)) (before' ++ (b ++ after')) =
          before ++ (a ++ (after ++ [' '] ++ joint.write) ++ ([' '] ++ before' ++ b) ++ after') := by
        simp [Query.join]
      rw [text]
      exact .intro blankBefore whole blankAfter'

theorem spells_enclose {query : Text} {nodes : Sequence} (spelled : Spells query nodes) :
    Spells (Query.enclose query) [.group nodes] := by
  cases spelled with
  | @intro before text after _ blankBefore terms blankAfter =>
    have opening : Joins ['('] text (['('] ++ (before ++ text)) :=
      .intro before blankBefore (seam_of_closed (a := []) rfl)
    have ends : wordEnds (after ++ [')']) := by
      cases after with
      | nil => rfl
      | cons c more => exact wordEnds_of_blank (t := [c]) (by simp [Blank, blankAfter c (by simp)])
    have closing : Joins (['('] ++ (before ++ text)) [')'] _ :=
      .intro after blankAfter fun _ => ends
    have whole : SpellsTerms _ [.group nodes] := .group terms (.intro opening closing)
    have noBlanks : Blank [] := by simp [Blank]
    have spelled := Spells.intro noBlanks whole noBlanks
    simpa [Query.enclose] using spelled

end Grammar

namespace Sequence

theorem nesting_joined (nodes others : Sequence) (joint : Connective) :
    nesting (nodes ++ .connective joint :: others) = max nodes.nesting (nesting others) := by
  induction nodes with
  | nil => simp [nesting, Node.maxNesting, Node.nesting]
  | cons node rest ih =>
    simp only [nesting, List.cons_append, Node.maxNesting] at ih ⊢
    rw [ih, Nat.max_assoc]

theorem nesting_group (body : Sequence) : nesting [.group body] = body.nesting + 1 := by
  simp [nesting, Node.maxNesting, Node.nesting]

end Sequence

namespace Query

theorem parse_join {limit : Nat} {first second : Text} {nodes others : Sequence}
    (read : parse limit first = .ok nodes) (readSecond : parse limit second = .ok others)
    (joint : Connective) :
    parse limit (join joint first second) = .ok (nodes ++ .connective joint :: others) := by
  obtain ⟨spelled, within⟩ := parse_iff.mp read
  obtain ⟨spelledSecond, withinSecond⟩ := parse_iff.mp readSecond
  refine parse_iff.mpr ⟨Grammar.spells_join spelled spelledSecond joint, ?_⟩
  rw [Sequence.nesting_joined]
  exact Nat.max_le.mpr ⟨within, withinSecond⟩

theorem parse_enclose {limit : Nat} {query : Text} {nodes : Sequence}
    (read : parse limit query = .ok nodes) :
    parse (limit + 1) (enclose query) = .ok [.group nodes] := by
  obtain ⟨spelled, within⟩ := parse_iff.mp read
  refine parse_iff.mpr ⟨Grammar.spells_enclose spelled, ?_⟩
  rw [Sequence.nesting_group]
  omega

theorem parse_mono {limit larger : Nat} {query : Text} {nodes : Sequence}
    (enough : limit ≤ larger) (read : parse limit query = .ok nodes) :
    parse larger query = .ok nodes := by
  obtain ⟨spelled, within⟩ := parse_iff.mp read
  exact parse_iff.mpr ⟨spelled, within.trans enough⟩

end Query

namespace Evaluation

section
variable {valid : Condition → Prop} {nodes others : Sequence} (chain : Resolver)
  (context : Option Context)

theorem evaluate_group (alternating : AlternatingOf valid nodes) :
    Sequence.evaluate chain context [.group nodes] = nodes.evaluate chain context := by
  rw [evaluate_eq_account chain context (.group alternating), account_group,
    evaluate_eq_account chain context alternating]

theorem evaluate_groups (first : AlternatingOf valid nodes) (second : AlternatingOf valid others)
    (joint : Connective) :
    Sequence.evaluate chain context [.group nodes, .connective joint, .group others] =
      joint.combine (nodes.evaluate chain context) (others.evaluate chain context) := by
  have whole : AlternatingOf valid [.group nodes, .connective joint, .group others] :=
    .joined (.group first) (.group second)
  unfold Sequence.evaluate
  rw [scan_eq_meaning _ whole, scan_eq_meaning _ first, scan_eq_meaning _ second, meaning_joined,
    meaning_single, termMeaning, termMeaning]
  cases joint with
  | and => rcases meaning (Condition.holds chain context) nodes with e | (_ | _) <;> rfl
  | or => rcases meaning (Condition.holds chain context) nodes with e | (_ | _) <;> rfl

theorem account_grouped_tail (first : AlternatingOf valid nodes) (joint : Connective) :
    account (Condition.examine chain context) (nodes ++ [.connective joint, .group others]) =
      account (Condition.examine chain context) (nodes ++ .connective joint :: others) :=
  account_tail first (account_group others) joint

theorem alternating_append (first : AlternatingOf valid nodes)
    (second : AlternatingOf valid others) (joint : Connective) :
    AlternatingOf valid (nodes ++ .connective joint :: others) := by
  induction first with
  | condition isValid => exact .joined (.condition isValid) second
  | group inside => exact .joined (.group inside) second
  | joined term _ _ ih => exact .joined term ih

theorem evaluate_grouped_tail (first : AlternatingOf valid nodes)
    (second : AlternatingOf valid others) (joint : Connective) :
    Sequence.evaluate chain context (nodes ++ [.connective joint, .group others]) =
      Sequence.evaluate chain context (nodes ++ .connective joint :: others) := by
  rw [evaluate_eq_account chain context (alternating_append first (.group second) joint),
    account_grouped_tail chain context first joint,
    evaluate_eq_account chain context (alternating_append first second joint)]

theorem explain_grouped_tail (first : AlternatingOf valid nodes)
    (second : AlternatingOf valid others) (joint : Connective) (traced : Bool) :
    (Sequence.explain traced chain context (nodes ++ [.connective joint, .group others])).map
        Explanation.answer =
      (Sequence.explain traced chain context (nodes ++ .connective joint :: others)).map
        Explanation.answer := by
  rw [explain_eq_account chain context (alternating_append first (.group second) joint),
    account_grouped_tail chain context first joint,
    explain_eq_account chain context (alternating_append first second joint)]

end

/-- Rules compose. Joined by a connective, two rules spell both sequences, and a rule in parentheses
    spells its group one level deeper. Two rules in parentheses combine by their verdicts, one rule
    keeps its verdict, and parentheses around a tail change neither verdict nor error nor the
    conditions found true. -/
theorem rules_compose {limit : Nat} {first second : Text} {nodes others : Sequence}
    (read : Query.parse limit first = .ok nodes)
    (readSecond : Query.parse limit second = .ok others) :
    (∀ joint, Query.parse limit (Query.join joint first second) =
        .ok (nodes ++ .connective joint :: others)) ∧
      Query.parse (limit + 1) (Query.enclose first) = .ok [.group nodes] ∧
      (∀ chain context,
        Sequence.evaluate chain context [.group nodes] = nodes.evaluate chain context) ∧
      (∀ joint, ∃ both,
        Query.parse (limit + 1) (Query.join joint (Query.enclose first) (Query.enclose second)) =
            .ok both ∧
          ∀ chain context, Sequence.evaluate chain context both =
            joint.combine (nodes.evaluate chain context) (others.evaluate chain context)) ∧
      ∀ joint, ∃ plain grouped,
        Query.parse limit (Query.join joint first second) = .ok plain ∧
          Query.parse (limit + 1) (Query.join joint first (Query.enclose second)) = .ok grouped ∧
          ∀ chain context,
            Sequence.evaluate chain context grouped = Sequence.evaluate chain context plain ∧
              ∀ traced, (Sequence.explain traced chain context grouped).map Explanation.answer =
                (Sequence.explain traced chain context plain).map Explanation.answer := by
  have alternating := Query.wellFormed_of_parse read
  have alternatingSecond := Query.wellFormed_of_parse readSecond
  have enclosed := Query.parse_enclose read
  have enclosedSecond := Query.parse_enclose readSecond
  refine ⟨Query.parse_join read readSecond, enclosed,
    fun chain context => evaluate_group chain context alternating, fun joint => ?_,
    fun joint => ?_⟩
  · exact ⟨_, Query.parse_join enclosed enclosedSecond joint,
      fun chain context => evaluate_groups chain context alternating alternatingSecond joint⟩
  · have deeper := Query.parse_mono (Nat.le_succ limit) read
    refine ⟨_, _, Query.parse_join read readSecond joint,
      Query.parse_join deeper enclosedSecond joint, fun chain context => ⟨?_, fun traced => ?_⟩⟩
    · exact evaluate_grouped_tail chain context alternating alternatingSecond joint
    · exact explain_grouped_tail chain context alternating alternatingSecond joint traced

theorem word_paths_compose :
    Query.parse 0 "a = and".toList = .ok [.condition ⟨.path "a".toList, .equal, .path "and".toList⟩] ∧
      Query.parse 0 "or in in".toList =
        .ok [.condition ⟨.path "or".toList, .member, .path "in".toList⟩] ∧
      Query.join .or "a = and".toList "or in in".toList = "a = and or or in in".toList ∧
      Query.parse 0 (Query.join .or "a = and".toList "or in in".toList) =
        .ok [.condition ⟨.path "a".toList, .equal, .path "and".toList⟩, .connective .or,
          .condition ⟨.path "or".toList, .member, .path "in".toList⟩] := by
  have read : Query.parse 0 "a = and".toList =
      .ok [.condition ⟨.path "a".toList, .equal, .path "and".toList⟩] := by cbv
  have readSecond : Query.parse 0 "or in in".toList =
      .ok [.condition ⟨.path "or".toList, .member, .path "in".toList⟩] := by cbv
  exact ⟨read, readSecond, by cbv, (rules_compose read readSecond).1 .or⟩

end Evaluation
end Verdict
