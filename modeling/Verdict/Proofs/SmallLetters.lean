import Verdict.Text.Case
import Verdict.Proofs.Words

/-!
Small letters and ASCII. A text of settled characters is the small form of another text, in all
scripts, exactly if it is so in ASCII: no character beyond ASCII has a settled one as its small form.
-/
namespace Verdict.Text

/-- No character but its ASCII capital has this one in its small form. -/
def Settled (d : Char) : Prop :=
  (d.toLower = d ∧ small d = [d] ∧ small d.toUpper = [d]) ∧ d ≠ '\u0307' ∧ d ≠ 'ς' ∧
    ∀ run ∈ capitals, run.small ≤ d.toNat → d.toNat ≤ run.small + (run.last - run.first) →
      run = ⟨0x41, 0x5a, 1, 0x61⟩

instance : DecidablePred Settled := fun d => by
  unfold Settled
  infer_instance

theorem toNat_toUpper (c : Char) :
    c.toUpper.toNat = if 97 ≤ c.toNat ∧ c.toNat ≤ 122 then c.toNat - 32 else c.toNat := by
  have lower : (c.val ≥ 'a'.val ∧ c.val ≤ 'z'.val) ↔ 97 ≤ c.toNat ∧ c.toNat ≤ 122 := by
    simp only [ge_iff_le, UInt32.le_iff_toNat_le]
    rfl
  unfold Char.toUpper
  simp only [lower]
  split
  · rename_i within
    show (c.val + _).toNat = _
    rw [UInt32.toNat_add]
    show (c.toNat + 4294967264) % 4294967296 = _
    omega
  · rfl

theorem toUpper_of_toLower_ne {c : Char} (capital : c.toLower ≠ c) : c.toLower.toUpper = c := by
  have moved : c.toLower.toNat ≠ c.toNat := fun same => capital (Char.toNat_inj.mp same)
  apply Char.toNat_inj.mp
  rw [Grammar.toNat_toLower] at moved
  split at moved
  · rename_i upper
    rw [toNat_toUpper, Grammar.toNat_toLower, if_pos upper, if_pos (by omega)]
    omega
  · exact absurd rfl moved

theorem capitals_valid : ∀ run ∈ capitals,
    run.small + (run.last - run.first) < 0xd800 ∨
      0xdfff < run.small ∧ run.small + (run.last - run.first) < 0x110000 := by decide +kernel

theorem small_of_settled {c : Char} (settled : Settled c.toLower) : small c = [c.toLower] := by
  obtain ⟨⟨-, own, upper⟩, -⟩ := settled
  by_cases same : c.toLower = c
  · rw [same] at own ⊢
    exact own
  · rwa [toUpper_of_toLower_ne same] at upper

theorem toLower_of_run {c : Char} {code : Nat}
    (found : (capitals.findSome? fun run => run.small? c.toNat) = some code)
    (settled : Settled (Char.ofNat code)) : Char.ofNat code = c.toLower := by
  obtain ⟨run, member, small⟩ := List.exists_of_findSome?_eq_some found
  unfold Capitals.small? at small
  split at small
  · rename_i within
    obtain ⟨above, below, -⟩ := within
    cases small
    have valid : (run.small + (c.toNat - run.first)).isValidChar := by
      have bounds := capitals_valid run member
      unfold Nat.isValidChar
      omega
    have code : (Char.ofNat (run.small + (c.toNat - run.first))).toNat =
        run.small + (c.toNat - run.first) := by
      rw [Char.toNat_ofNat, if_pos valid]
    have ascii := settled.2.2.2 run member (by omega) (by omega)
    subst ascii
    apply Char.toNat_inj.mp
    rw [code, Grammar.toNat_toLower]
    simp only at above below ⊢
    rw [if_pos ⟨above, below⟩]
    omega
  · cases small

theorem toLower_of_small {c : Char} (settled : ∀ d ∈ small c, Settled d) :
    small c = [c.toLower] := by
  unfold small at settled ⊢
  by_cases dotted : c = '\u0130'
  · rw [if_pos dotted] at settled
    exact absurd rfl (settled '\u0307' (by simp)).2.1
  · rw [if_neg dotted] at settled ⊢
    cases found : capitals.findSome? fun run => run.small? c.toNat with
    | some code =>
      simp only [found] at settled ⊢
      rw [toLower_of_run found (settled _ (by simp))]
    | none =>
      simp only [found] at settled ⊢
      rw [(settled c (by simp)).1.1]

theorem not_settled_sigma : ¬ Settled 'Σ' := by decide +kernel

/-- A text has a settled text as its small form in all scripts if and only if it has it in ASCII,
    whatever the rule for the sigma at the end of a word. -/
theorem lowered_eq_iff {w : Text} (settled : ∀ d ∈ w, Settled d) (final : Text → Text → Bool)
    (front t : Text) : lowered final front t = w ↔ folded t = w := by
  induction t generalizing front w with
  | nil => rfl
  | cons c rest ih =>
    unfold lowered
    show _ ↔ c.toLower :: folded rest = w
    constructor
    · intro same
      subst same
      split at settled
      · exact absurd rfl (settled 'ς' (by simp)).2.2.1
      · rename_i plain
        have head := toLower_of_small fun d inside => settled d (List.mem_append_left _ inside)
        have tail := (ih (fun d inside => settled d (List.mem_append_right _ inside))
          (front ++ [c])).mp rfl
        rw [if_neg plain, head, tail]
        rfl
    · intro same
      subst same
      have head : Settled c.toLower := settled _ (by simp)
      have plain : ¬ (c = 'Σ' ∧ final front rest) := by
        rintro ⟨rfl, -⟩
        exact not_settled_sigma head
      have tail := (ih (fun d inside => settled d (List.mem_cons_of_mem _ inside))
        (front ++ [c])).mpr rfl
      rw [if_neg plain, small_of_settled head, tail]
      rfl

end Verdict.Text
