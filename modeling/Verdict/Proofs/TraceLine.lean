import Verdict.Evaluation
import Verdict.Proofs.Numerals
import Verdict.Proofs.NumberText

/-!
What the lines of a trace tell by themselves. The end of a line says whether it is the line of a
condition and whether that condition was found true; what stands before its first colon is an
address, and no two addresses are written alike.
-/
namespace Verdict

theorem Text.endsWith_append {suffix front back : Text} (short : suffix.length ≤ back.length) :
    suffix.isSuffixOf (front ++ back) = suffix.isSuffixOf back := by
  rw [Bool.eq_iff_iff, List.isSuffixOf_iff_suffix, List.isSuffixOf_iff_suffix]
  constructor
  · intro whole
    exact List.suffix_of_suffix_length_le whole (List.suffix_append front back) short
  · intro ends
    exact ends.trans (List.suffix_append front back)

namespace Evaluation

def isTestLine (line : Text) : Bool := "MATCHED".toList.isSuffixOf line

def isMatchLine (line : Text) : Bool := " => MATCHED".toList.isSuffixOf line

def testEnding : Bool → Text
  | true => ") => MATCHED".toList
  | false => ") => NOT_MATCHED".toList

def stopEnding : Connective → Text
  | .or => " OR 短路 - 前项为真".toList
  | .and => " AND 短路 - 前项为假".toList

theorem testEnding_eq (matched : Bool) : testEnding matched =
    ") => ".toList ++ if matched then "MATCHED".toList else "NOT_MATCHED".toList := by
  cases matched <;> decide +kernel

theorem testEnding_tells (matched : Bool) : isTestLine (testEnding matched) = true ∧
    isMatchLine (testEnding matched) = matched := by
  cases matched <;> decide +kernel

theorem stopEnding_tells (joint : Connective) : isTestLine (stopEnding joint) = false ∧
    isMatchLine (stopEnding joint) = false := by
  cases joint <;> decide +kernel

namespace Step

def address : Step → Address
  | .tested address _ _ => address
  | .stopped address _ => address

def node : Step → Node
  | .tested _ c _ => .condition c
  | .stopped _ joint => .connective joint

def isTest : Step → Bool
  | .tested _ _ _ => true
  | .stopped _ _ => false

def isMatch : Step → Bool
  | .tested _ _ finding => finding.matched
  | .stopped _ _ => false

def ending : Step → Text
  | .tested _ _ finding => testEnding finding.matched
  | .stopped _ joint => stopEnding joint

theorem ending_long (step : Step) : " => MATCHED".toList.length ≤ step.ending.length := by
  cases step with
  | tested address c finding =>
    rw [ending]
    cases finding.matched <;> decide +kernel
  | stopped address joint =>
    rw [ending]
    cases joint <;> decide +kernel

theorem line_eq (step : Step) :
    ∃ middle, step.line = (writeAddress step.address ++ ':' :: middle) ++ step.ending := by
  cases step with
  | tested address c finding =>
    have colon : ": ".toList = [':', ' '] := by decide +kernel
    refine ⟨' ' :: (c.write ++ " (".toList ++ finding.left.write ++
      ' ' :: (c.operator.write ++ ' ' :: finding.right.write)), ?_⟩
    simp only [line, ending, testEnding_eq, Step.address, colon, List.append_assoc,
      List.cons_append, List.nil_append]
  | stopped address joint =>
    refine ⟨[], ?_⟩
    cases joint with
    | and =>
      have written : ": AND 短路 - 前项为假".toList = ':' :: stopEnding .and := by decide +kernel
      rw [line, ending, Step.address, written, List.append_assoc, List.cons_append, List.nil_append]
    | or =>
      have written : ": OR 短路 - 前项为真".toList = ':' :: stopEnding .or := by decide +kernel
      rw [line, ending, Step.address, written, List.append_assoc, List.cons_append, List.nil_append]

theorem isTestLine_line (step : Step) : isTestLine step.line = step.isTest := by
  obtain ⟨middle, written⟩ := step.line_eq
  have short : "MATCHED".toList.length ≤ step.ending.length :=
    le_trans (by decide +kernel) step.ending_long
  have ends : isTestLine step.line = isTestLine step.ending := by
    rw [written]
    exact Text.endsWith_append short
  rw [ends]
  cases step with
  | tested address c finding => exact (testEnding_tells finding.matched).1
  | stopped address joint => exact (stopEnding_tells joint).1

theorem isMatchLine_line (step : Step) : isMatchLine step.line = step.isMatch := by
  obtain ⟨middle, written⟩ := step.line_eq
  have ends : isMatchLine step.line = isMatchLine step.ending := by
    rw [written]
    exact Text.endsWith_append step.ending_long
  rw [ends]
  cases step with
  | tested address c finding => exact (testEnding_tells finding.matched).2
  | stopped address joint => exact (stopEnding_tells joint).2

end Step

def indices (address : Address) : Text :=
  address.flatMap fun index => '[' :: (Text.ofNat index ++ [']'])

theorem indices_cons (index : Nat) (below : Address) :
    indices (index :: below) = '[' :: (Text.ofNat index ++ ']' :: indices below) := by
  simp [indices]

theorem indices_injective : Function.Injective indices := by
  intro a
  induction a with
  | nil =>
    intro b same
    cases b with
    | nil => rfl
    | cons index below => simp [indices] at same
  | cons index below ih =>
    intro b same
    cases b with
    | nil => simp [indices] at same
    | cons other below' =>
      rw [indices_cons, indices_cons, List.cons.injEq] at same
      -- The digits of an index end at the bracket that closes it.
      have split (n : Nat) (rest : Text) :
          Text.spanDigits (Text.ofNat n ++ ']' :: rest) = (Text.ofNat n, ']' :: rest) :=
        Grammar.spanDigits_digits (Grammar.digits_ofNat n) _ (by simp)
      have parts := congrArg Text.spanDigits same.2
      rw [split, split, Prod.mk.injEq, List.cons.injEq] at parts
      obtain ⟨digits, -, rest⟩ := parts
      have number := congrArg Text.natOfDigits digits
      rw [Text.natOfDigits_ofNat, Text.natOfDigits_ofNat] at number
      rw [number, ih rest]

theorem writeAddress_injective : Function.Injective writeAddress := by
  intro a b same
  exact indices_injective (List.append_cancel_left same)

theorem colon_not_mem_indices (address : Address) : ':' ∉ indices address := by
  induction address with
  | nil => simp [indices]
  | cons index below ih =>
    have noDigit : ':' ∉ Text.ofNat index := by
      intro member
      have digit := Grammar.digits_ofNat index ':' member
      cases digit
    rw [indices_cons]
    simp [noDigit, ih]

theorem Step.line_takeWhile (step : Step) :
    step.line.takeWhile (· != ':') = writeAddress step.address := by
  obtain ⟨middle, written⟩ := step.line_eq
  have noColon : ∀ c ∈ writeAddress step.address, (c != ':') = true := by
    intro c member
    rw [bne_iff_ne]
    rintro rfl
    rcases List.mem_append.mp member with root | inside
    · exact absurd root (by decide +kernel)
    · exact colon_not_mem_indices step.address inside
  rw [written, List.append_assoc, List.takeWhile_append_of_pos noColon, List.cons_append,
    List.takeWhile_cons_of_neg (by decide), List.append_nil]

theorem Step.address_of_line {step other : Step} (same : step.line = other.line) :
    step.address = other.address := by
  apply writeAddress_injective
  rw [← step.line_takeWhile, ← other.line_takeWhile, same]

end Evaluation
end Verdict
