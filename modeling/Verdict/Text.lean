/-!
Texts are lists of characters. Letter case means the case of the ASCII letters; order is the
order of code points; a number is written in decimal.
-/
namespace Verdict

abbrev Text := List Char

namespace Text

def ofNat (n : Nat) : Text := Nat.toDigits 10 n

def ofInt : Int → Text
  | .ofNat n => ofNat n
  | .negSucc n => '-' :: ofNat (n + 1)

def natOfDigits (digits : Text) : Nat := Nat.ofDigitChars 10 digits 0

theorem natOfDigits_ofNat (n : Nat) : natOfDigits (ofNat n) = n :=
  Nat.ofDigitChars_ten_toDigits

def folded (t : Text) : Text := t.map Char.toLower

def before : Text → Text → Bool
  | _, [] => false
  | [], _ :: _ => true
  | a :: as, b :: bs => a.toNat < b.toNat || (a == b && before as bs)

theorem not_before_self (a : Text) : before a a = false := by
  induction a with
  | nil => rfl
  | cons c rest ih => simp [before, ih]

theorem before_trans (a b c : Text) (first : before a b) (second : before b c) : before a c := by
  induction a generalizing b c with
  | nil =>
    cases c with
    | nil => cases b <;> simp [before] at second
    | cons => rfl
  | cons x as ih =>
    cases b with
    | nil => simp [before] at first
    | cons y bs =>
      cases c with
      | nil => simp [before] at second
      | cons z cs =>
        simp only [before, Bool.or_eq_true, decide_eq_true_eq, Bool.and_eq_true, beq_iff_eq] at *
        rcases first with below | ⟨rfl, first⟩ <;> rcases second with below' | ⟨rfl, second⟩
        · exact .inl (Nat.lt_trans below below')
        · exact .inl below
        · exact .inl below'
        · exact .inr ⟨rfl, ih bs cs first second⟩

theorem before_of_not_before (a b : Text) (notBefore : before b a = false) (differs : a ≠ b) :
    before a b := by
  induction a generalizing b with
  | nil =>
    cases b with
    | nil => exact absurd rfl differs
    | cons => rfl
  | cons x as ih =>
    cases b with
    | nil => simp [before] at notBefore
    | cons y bs =>
      simp only [before, Bool.or_eq_false_iff, decide_eq_false_iff_not, Bool.and_eq_false_iff,
        Nat.not_lt, Bool.or_eq_true, decide_eq_true_eq, Bool.and_eq_true, beq_iff_eq] at *
      by_cases same : x = y
      · subst same
        refine .inr ⟨rfl, ih bs ?_ fun e => differs (e ▸ rfl)⟩
        simpa using notBefore.2
      · have apart : x.toNat ≠ y.toNat := fun e => same (Char.toNat_inj.mp e)
        exact .inl (by omega)

def order (a b : Text) : Ordering :=
  if before a b then .lt else if a == b then .eq else .gt

def occurs (part : Text) : Text → Bool
  | [] => part.isEmpty
  | c :: rest => part.isPrefixOf (c :: rest) || occurs part rest

def joined (separator : Text) (parts : List Text) : Text := separator.intercalate parts

def spanDigits (t : Text) : Text × Text := (t.takeWhile Char.isDigit, t.dropWhile Char.isDigit)

theorem spanDigits_append (t : Text) : (spanDigits t).1 ++ (spanDigits t).2 = t := by
  simp [spanDigits]

def spanSign : Text → Bool × Text
  | '-' :: rest => (true, rest)
  | '+' :: rest => (false, rest)
  | t => (false, t)

def isBlank (c : Char) : Bool := c == ' ' || c == '\t' || c == '\r' || c == '\n'

def skipBlanks (t : Text) : Text := t.dropWhile isBlank

def skipSpaces (t : Text) : Text := t.dropWhile fun c => c == ' ' || c == '\t'

end Text
end Verdict
