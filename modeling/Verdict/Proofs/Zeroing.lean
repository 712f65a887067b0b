import Verdict.Proofs.Budget

/-!
The grammar looks at no digit. A text and the same text with a zero for every digit are read alike:
the same readers match, as far, and the same attempts are noted. Only what numerals come to differs.
-/
namespace Verdict.Grammar
open Reader

def zero (c : Char) : Char := if c.isDigit then '0' else c

def zeroed (t : Text) : Text := t.map zero

theorem zero_eq_iff {c d : Char} (other : d.isDigit = false) : zero c = d ↔ c = d := by
  unfold zero
  split
  case isTrue digit =>
    constructor
    · rintro rfl
      cases other
    · rintro rfl
      rw [other] at digit
      cases digit
  case isFalse => rfl

theorem zero_class {p : Char → Bool} (digits : ∀ d, d.isDigit → p d = p '0') (c : Char) :
    p (zero c) = p c := by
  unfold zero
  split
  case isTrue digit => exact (digits c digit).symm
  case isFalse => rfl

@[simp] theorem isDigit_zero (c : Char) : (zero c).isDigit = c.isDigit :=
  zero_class (fun d digit => by rw [digit]; rfl) c

theorem isAlpha_of_isDigit {c : Char} (digit : c.isDigit) : c.isAlpha = false := by
  rw [isDigit_iff] at digit
  rw [Bool.eq_false_iff, Ne, isAlpha_iff]
  omega

theorem isBlank_of_isDigit {c : Char} (digit : c.isDigit) : Text.isBlank c = false := by
  rw [Bool.eq_false_iff]
  intro blank
  have none : ∀ d ∈ [' ', '\t', '\r', '\n'], d.isDigit = false := by decide
  rw [none c (isBlank_cases blank)] at digit
  cases digit

@[simp] theorem isAlpha_zero (c : Char) : (zero c).isAlpha = c.isAlpha :=
  zero_class (fun d digit => by rw [isAlpha_of_isDigit digit]; rfl) c

@[simp] theorem isWordChar_zero (c : Char) : isWordChar (zero c) = isWordChar c :=
  zero_class (fun d digit => by rw [(isWordChar_iff d).mpr (.inr (.inl digit))]; rfl) c

@[simp] theorem isBlank_zero (c : Char) : Text.isBlank (zero c) = Text.isBlank c :=
  zero_class (fun d digit => by rw [isBlank_of_isDigit digit]; rfl) c

theorem zeroed_cons (c : Char) (t : Text) : zeroed (c :: t) = zero c :: zeroed t := rfl

@[simp] theorem zeroed_append (a b : Text) : zeroed (a ++ b) = zeroed a ++ zeroed b :=
  List.map_append

@[simp] theorem length_zeroed (t : Text) : (zeroed t).length = t.length := List.length_map _

@[simp] theorem zeroed_eq_nil_iff {t : Text} : zeroed t = [] ↔ t = [] := List.map_eq_nil_iff

theorem skipBlanks_zeroed (t : Text) : Text.skipBlanks (zeroed t) = zeroed (Text.skipBlanks t) := by
  simp [Text.skipBlanks, zeroed, List.dropWhile_map, Function.comp_def]

@[simp] theorem wordEnds_zeroed (t : Text) : wordEnds (zeroed t) = wordEnds t := by
  cases t with
  | nil => rfl
  | cons c rest => simp [wordEnds, zeroed]

theorem spanDigits_zeroed (t : Text) : Text.spanDigits (zeroed t) =
    (zeroed (Text.spanDigits t).1, zeroed (Text.spanDigits t).2) := by
  simp [Text.spanDigits, zeroed, List.takeWhile_map, List.dropWhile_map, Function.comp_def]

theorem spanSign_zeroed (t : Text) :
    Text.spanSign (zeroed t) = ((Text.spanSign t).1, zeroed (Text.spanSign t).2) := by
  cases t with
  | nil => rfl
  | cons c rest =>
    by_cases minus : c = '-'
    · rw [minus]
      rfl
    · by_cases plus : c = '+'
      · rw [plus]
        rfl
      · have unsigned : Text.spanSign (c :: rest) = (false, c :: rest) :=
          spanSign_sign .absent _ (by simpa using ⟨plus, minus⟩)
        have other : zero c ≠ '+' ∧ zero c ≠ '-' :=
          ⟨(zero_eq_iff rfl).not.mpr plus, (zero_eq_iff rfl).not.mpr minus⟩
        have unsignedZeroed :
            Text.spanSign (zero c :: zeroed rest) = (false, zero c :: zeroed rest) :=
          spanSign_sign .absent _ (by simpa using other)
        rw [unsigned, zeroed_cons, unsignedZeroed]

theorem zero_mem_iff {c : Char} {others : List Char} (noDigit : ∀ d ∈ others, d.isDigit = false) :
    zero c ∈ others ↔ c ∈ others := by
  constructor
  · intro member
    rwa [← (zero_eq_iff (noDigit _ member)).mp rfl] at member
  · intro member
    rwa [(zero_eq_iff (noDigit c member)).mpr rfl]

theorem spanExponent_zeroed {signs : List Char} (noDigit : ∀ c ∈ signs, c.isDigit = false)
    (t : Text) :
    (Numeral.spanExponent signs (zeroed t)).2 = zeroed (Numeral.spanExponent signs t).2 := by
  cases t with
  | nil => rfl
  | cons c rest =>
    have letter : (zero c = 'e' ∨ zero c = 'E') ↔ (c = 'e' ∨ c = 'E') :=
      or_congr (zero_eq_iff rfl) (zero_eq_iff rfl)
    have signed : (zeroed rest).head?.any (· ∈ signs) = rest.head?.any (· ∈ signs) := by
      cases rest with
      | nil => rfl
      | cons d more => simp [zeroed_cons, zero_mem_iff noDigit]
    have dropped : (if rest.head?.any (· ∈ signs) then (zeroed rest).drop 1 else zeroed rest) =
        zeroed (if rest.head?.any (· ∈ signs) then rest.drop 1 else rest) := by
      split
      · simp [zeroed]
      · rfl
    rw [zeroed_cons]
    unfold Numeral.spanExponent
    simp only [letter, signed, dropped, spanDigits_zeroed]
    by_cases isLetter : c = 'e' ∨ c = 'E'
    · simp only [isLetter, ↓reduceIte]
      generalize Text.spanDigits (if rest.head?.any (· ∈ signs) then rest.drop 1 else rest) = span
      obtain ⟨digits, more⟩ := span
      cases digits <;> rfl
    · simp only [isLetter, ↓reduceIte]
      rfl

/-- Where a token ends does not depend on digits. -/
def Unseeing {α : Type} (f : Text → Option (α × Text)) : Prop :=
  ∀ t, (f (zeroed t)).map Prod.snd = (f t).map fun found => zeroed found.2

theorem unseeing_integer : Unseeing integer? := by
  intro t
  simp only [integer_eq, spanSign_zeroed, spanDigits_zeroed, ne_eq, zeroed_eq_nil_iff,
    spanExponent_zeroed (show ∀ c ∈ ['+'], c.isDigit = false by decide), wordEnds_zeroed]
  split <;> rfl

theorem unseeing_afterPoint (negative : Bool) (whole : Text) (t : Text) :
    (afterPoint? negative (zeroed whole) (zeroed t)).map Prod.snd =
      (afterPoint? negative whole t).map fun found => zeroed found.2 := by
  simp only [afterPoint?, spanDigits_zeroed, ne_eq, zeroed_eq_nil_iff,
    spanExponent_zeroed (show ∀ c ∈ ['+', '-'], c.isDigit = false by decide), wordEnds_zeroed]
  split <;> rfl

theorem unseeing_real : Unseeing real? := by
  intro t
  by_cases point : ∃ more, (Text.spanDigits (Text.spanSign t).2).2 = '.' :: more
  · obtain ⟨more, point⟩ := point
    have pointZeroed : (Text.spanDigits (Text.spanSign (zeroed t)).2).2 = '.' :: zeroed more := by
      rw [spanSign_zeroed, spanDigits_zeroed, point]
      rfl
    rw [real_point t more point, real_point _ _ pointZeroed, spanSign_zeroed, spanDigits_zeroed]
    exact unseeing_afterPoint _ _ more
  · have noPoint : ∀ c ∈ (Text.spanDigits (Text.spanSign t).2).2.head?, c ≠ '.' := by
      rintro _ member rfl
      exact point (List.head?_eq_some_iff.mp member)
    have noPointZeroed : ∀ c ∈ (Text.spanDigits (Text.spanSign (zeroed t)).2).2.head?, c ≠ '.' := by
      rw [spanSign_zeroed, spanDigits_zeroed]
      simp only [zeroed, List.head?_map]
      intro c member
      obtain ⟨d, inside, rfl⟩ := Option.map_eq_some_iff.mp member
      exact (zero_eq_iff rfl).not.mpr (noPoint d inside)
    rw [real_no_point t noPoint, real_no_point _ noPointZeroed]
    rfl

theorem Unseeing.of_rest {α β : Type} {f : Text → Option (α × Text)} {g : Text → Option (β × Text)}
    (unseeing : Unseeing f) (same : ∀ t, (g t).map Prod.snd = (f t).map Prod.snd) :
    Unseeing g := by
  intro t
  rw [same, unseeing t]
  have rest := congrArg (Option.map zeroed) (same t)
  simpa [Function.comp_def] using rest.symm

theorem unseeing_integerOperand : Unseeing integerOperand? := by
  refine unseeing_integer.of_rest fun t => ?_
  unfold integerOperand?
  cases integer? t with
  | none => rfl
  | some found =>
    simp only [Option.bind_eq_bind, Option.bind_some]
    split <;> rfl

theorem unseeing_realOperand : Unseeing realOperand? := by
  refine unseeing_real.of_rest fun t => ?_
  unfold realOperand?
  cases real? t with
  | none => rfl
  | some found =>
    simp only [Option.bind_eq_bind, Option.bind_some]
    split <;> rfl

theorem toLower_of_isDigit {c : Char} (digit : c.isDigit) : c.toLower = c := by
  apply Char.toNat_inj.mp
  rw [isDigit_iff] at digit
  rw [toNat_toLower]
  split <;> omega

theorem isDigit_toLower (c : Char) : c.toLower.isDigit = c.isDigit := by
  rw [Bool.eq_iff_iff, isDigit_iff, isDigit_iff, toNat_toLower]
  split <;> omega

theorem folded_zeroed (t : Text) : Text.folded (zeroed t) = zeroed (Text.folded t) := by
  simp only [Text.folded, zeroed, List.map_map]
  refine List.map_congr_left fun c _ => ?_
  simp only [Function.comp_apply]
  by_cases digit : c.isDigit
  · rw [toLower_of_isDigit digit]
    unfold zero
    rw [if_pos digit]
    rfl
  · simp [zero, isDigit_toLower, digit]

theorem zeroed_eq_iff {t word : Text} (noDigit : ∀ c ∈ word, c.isDigit = false) :
    zeroed t = word ↔ t = word := by
  induction t generalizing word with
  | nil => rfl
  | cons c rest ih =>
    cases word with
    | nil => simp [zeroed]
    | cons d more =>
      rw [List.forall_mem_cons] at noDigit
      rw [zeroed_cons, List.cons.injEq, List.cons.injEq, zero_eq_iff noDigit.1, ih noDigit.2]

theorem take_zeroed (n : Nat) (t : Text) : (zeroed t).take n = zeroed (t.take n) :=
  List.map_take.symm

theorem drop_zeroed (n : Nat) (t : Text) : (zeroed t).drop n = zeroed (t.drop n) :=
  List.map_drop.symm

theorem afterWord_zeroed {word : Text} (noDigit : ∀ c ∈ word, c.isDigit = false) (t : Text) :
    afterWord? word (zeroed t) = (afterWord? word t).map zeroed := by
  simp only [afterWord?, take_zeroed, drop_zeroed, folded_zeroed, zeroed_eq_iff noDigit,
    wordEnds_zeroed]
  split <;> rfl

theorem unseeing_word {α : Type} {word : Text} (noDigit : ∀ c ∈ word, c.isDigit = false)
    (value : α) : Unseeing fun t => (afterWord? word t).map (value, ·) := by
  intro t
  simp [afterWord_zeroed noDigit, Function.comp_def]

theorem unseeing_boolean : Unseeing boolean? := by
  intro t
  have noDigit : ∀ c ∈ "true".toList, c.isDigit = false := by decide
  have word := afterWord_zeroed noDigit t
  simp only [boolean?]
  rw [word]
  cases afterWord? "true".toList t with
  | some rest => rfl
  | none => exact unseeing_word (by decide) false t

theorem isPrefixOf_zeroed {symbol : Text} (noDigit : ∀ c ∈ symbol, c.isDigit = false) (t : Text) :
    symbol.isPrefixOf (zeroed t) = symbol.isPrefixOf t := by
  rw [Bool.eq_iff_iff, List.isPrefixOf_iff_prefix, List.isPrefixOf_iff_prefix,
    List.prefix_iff_eq_take, List.prefix_iff_eq_take, take_zeroed, eq_comm, zeroed_eq_iff noDigit,
    eq_comm]

theorem unseeing_operator : Unseeing operator? := by
  intro t
  have symbols : ∀ entry ∈ symbolTable, ∀ c ∈ entry.1, c.isDigit = false := by decide
  have words : ∀ entry ∈ wordTable, ∀ c ∈ entry.1, c.isDigit = false := by decide
  have symbol : symbolTable.find? (fun entry => entry.1.isPrefixOf (zeroed t)) =
      symbolTable.find? fun entry => entry.1.isPrefixOf t :=
    List.find?_congr fun entry member => isPrefixOf_zeroed (symbols entry member) t
  have word : wordTable.find?
        (fun entry => Text.folded ((zeroed t).take entry.1.length) = entry.1) =
      wordTable.find? fun entry => Text.folded (t.take entry.1.length) = entry.1 :=
    List.find?_congr fun entry member => by
      rw [take_zeroed, folded_zeroed, decide_eq_decide, zeroed_eq_iff (words entry member)]
  simp only [operator?, symbol, word]
  split
  · simp [drop_zeroed]
  · split
    · simp only [drop_zeroed, wordEnds_zeroed]
      split <;> rfl
    · rfl

theorem contentUpTo_zeroed {quote : Char} (isQuote : quote ≠ '\\') (noDigit : quote.isDigit = false)
    (t : Text) : (contentUpTo? quote (zeroed t)).map Prod.snd =
      (contentUpTo? quote t).map fun found => zeroed found.2 := by
  have same : zero quote = quote := (zero_eq_iff noDigit).mpr rfl
  fun_induction contentUpTo? quote t with
  | case1 => rfl
  | case2 c rest ih =>
    show ((contentUpTo? quote (zeroed rest)).map _).map _ = _
    simpa [Function.comp_def] using ih
  | case3 rest =>
    rw [zeroed_cons, same, contentUpTo_plain isQuote, if_pos rfl]
    rfl
  | case4 c rest plain notQuote special =>
    by_cases backslash : c = '\\'
    · subst backslash
      cases rest with
      | nil =>
        have alone : contentUpTo? quote ['\\'] = none := by simp [contentUpTo?, notQuote]
        exact congrArg (Option.map Prod.snd) alone
      | cons d more => exact (plain d more rfl rfl).elim
    · have ends : zero c = '\n' ∨ zero c = '\r' := by
        simpa [zero_eq_iff, backslash] using special
      rw [zeroed_cons, contentUpTo_plain ((zero_eq_iff rfl).not.mpr backslash),
        if_neg ((zero_eq_iff noDigit).not.mpr notQuote), if_pos ends]
      rfl
  | case5 c rest plain notQuote ordinary ih =>
    have goesOn : ¬ (zero c = '\n' ∨ zero c = '\r') := by
      simp_all [zero_eq_iff]
    rw [zeroed_cons, contentUpTo_plain ((zero_eq_iff rfl).not.mpr fun same => ordinary (.inl same)),
      if_neg ((zero_eq_iff noDigit).not.mpr notQuote), if_neg goesOn]
    simpa [Function.comp_def] using ih

theorem unseeing_string : Unseeing string? := by
  intro t
  cases t with
  | nil => rfl
  | cons c rest =>
    by_cases double : c = '"'
    · subst double
      exact contentUpTo_zeroed (by decide) rfl rest
    · by_cases single : c = '\''
      · subst single
        exact contentUpTo_zeroed (by decide) rfl rest
      · have none : string? (c :: rest) = none := string_none (by simpa using ⟨double, single⟩)
        have noneZeroed : string? (zeroed (c :: rest)) = .none :=
          string_none (by simpa [zeroed, zero_eq_iff] using ⟨double, single⟩)
        rw [none, noneZeroed]
        rfl

theorem spanPath_zeroed (t : Text) : (spanPath (zeroed t)).2 = zeroed (spanPath t).2 := by
  fun_induction spanPath t with
  | case1 => rfl
  | case2 c rest letter path after spanned ih =>
    show (spanPath ('.' :: zero c :: zeroed rest)).2 = _
    rw [spanPath, if_pos ((isAlpha_zero c).trans letter)]
    rw [spanned] at ih
    exact ih
  | case3 c rest notLetter =>
    show (spanPath ('.' :: zero c :: zeroed rest)).2 = _
    rw [spanPath, if_neg (by simpa using notLetter)]
    rfl
  | case4 c rest _ isWord path after spanned ih =>
    have notPoint : zero c ≠ '.' := by
      intro point
      rw [(zero_eq_iff rfl).mp point] at isWord
      cases isWord
    rw [zeroed_cons, spanPath.eq_3 _ _ fun _ _ point => absurd point notPoint,
      if_pos ((isWordChar_zero c).trans isWord)]
    rw [spanned] at ih
    exact ih
  | case5 c rest plain notWord =>
    by_cases point : c = '.'
    · subst point
      cases rest with
      | nil => rfl
      | cons d more => exact (plain d more rfl rfl).elim
    · have notPoint : zero c ≠ '.' := (zero_eq_iff rfl).not.mpr point
      rw [zeroed_cons, spanPath.eq_3 _ _ fun _ _ point => absurd point notPoint,
        if_neg (by simpa using notWord)]

theorem unseeing_path : Unseeing path? := by
  intro t
  cases t with
  | nil => rfl
  | cons c rest =>
    rw [zeroed_cons]
    simp only [path?, isAlpha_zero]
    split
    · simp [spanPath_zeroed]
    · rfl

inductive Alike {α β : Type} : Outcome α → Outcome β → Prop where
  | matched (value : α) (value' : β) (rest : Text) :
      Alike (.matched value rest) (.matched value' (zeroed rest))
  | failed : Alike .failed .failed
  | exhausted : Alike .exhausted .exhausted

/-- The second reader does on a zeroed text what the first one does on the text. -/
def Follows {α β : Type} (p : Reader α) (q : Reader β) : Prop :=
  ∀ t, Alike (p t).outcome (q (zeroed t)).outcome ∧ (q (zeroed t)).attempts = (p t).attempts

section
variable {α β γ δ : Type}

theorem follows_pure (value : α) (value' : β) :
    Follows (pure value : Reader α) (pure value' : Reader β) :=
  fun t => ⟨.matched value value' t, rfl⟩

theorem follows_fail : Follows (fail : Reader α) (fail : Reader β) := fun _ => ⟨.failed, rfl⟩

theorem Follows.bind {p : Reader α} {q : Reader β} {f : α → Reader γ} {g : β → Reader δ}
    (first : Follows p q) (next : ∀ value value', Follows (f value) (g value')) :
    Follows (p >>= f) (q >>= g) := by
  intro t
  obtain ⟨outcomes, attempts⟩ := first t
  show Alike (Reader.bind p f t).outcome (Reader.bind q g (zeroed t)).outcome ∧
    (Reader.bind q g (zeroed t)).attempts = (Reader.bind p f t).attempts
  simp only [Reader.bind, attempts]
  generalize (p t).outcome = here at outcomes
  generalize (q (zeroed t)).outcome = there at outcomes
  cases outcomes with
  | matched value value' rest =>
    obtain ⟨outcomes, attempts⟩ := next value value' rest
    exact ⟨outcomes, by simp only [attempts]⟩
  | failed => exact ⟨.failed, rfl⟩
  | exhausted => exact ⟨.exhausted, rfl⟩

theorem Follows.orElse {p p' : Reader α} {q q' : Reader β} (first : Follows p q)
    (second : Follows p' q') : Follows (Reader.orElse p p') (Reader.orElse q q') := by
  intro t
  obtain ⟨outcomes, attempts⟩ := first t
  obtain ⟨others, otherAttempts⟩ := second t
  simp only [Reader.orElse, attempts]
  generalize (p t).outcome = here at outcomes
  generalize (q (zeroed t)).outcome = there at outcomes
  cases outcomes with
  | matched value value' rest => exact ⟨.matched value value' rest, rfl⟩
  | failed => exact ⟨others, by simp only [otherAttempts]⟩
  | exhausted => exact ⟨.exhausted, rfl⟩

theorem follows_choice {ps : List (Reader α)} (each : ∀ p ∈ ps, Follows p p) :
    Follows (choice ps) (choice ps) := by
  induction ps with
  | nil => exact follows_fail
  | cons p rest ih =>
    exact (each p (by simp)).orElse (ih fun other member => each other (by simp [member]))

theorem Follows.repeated {p : Reader α} {q : Reader β} (each : Follows p q) (count : Nat) :
    Follows (Reader.repeated p count) (Reader.repeated q count) := by
  induction count with
  | zero => exact follows_pure [] []
  | succ count ih =>
    intro t
    obtain ⟨outcomes, attempts⟩ := each t
    simp only [Reader.repeated, attempts]
    generalize (p t).outcome = here at outcomes
    generalize (q (zeroed t)).outcome = there at outcomes
    cases outcomes with
    | failed => exact ⟨.matched [] [] t, rfl⟩
    | exhausted => exact ⟨.exhausted, rfl⟩
    | matched value value' rest =>
      obtain ⟨more, moreAttempts⟩ := ih rest
      simp only [moreAttempts]
      generalize (Reader.repeated p count rest).outcome = here at more
      generalize (Reader.repeated q count (zeroed rest)).outcome = there at more
      cases more with
      | matched values values' last => exact ⟨.matched _ _ last, rfl⟩
      | failed => exact ⟨.failed, rfl⟩
      | exhausted => exact ⟨.exhausted, rfl⟩

theorem Follows.many {p : Reader α} {q : Reader β} (each : Follows p q) :
    Follows (Reader.many p) (Reader.many q) := by
  intro t
  simp only [Reader.many, length_zeroed]
  exact each.repeated (t.length + 1) t

theorem Follows.part {p : Reader α} {q : Reader β} (inner : Follows p q) (name : Part) :
    Follows (Reader.part name p) (Reader.part name q) := by
  intro t
  obtain ⟨outcomes, attempts⟩ := inner (Text.skipBlanks t)
  simp only [Reader.part, skipBlanks_zeroed, attempts, length_zeroed]
  generalize (p (Text.skipBlanks t)).outcome = here at outcomes
  generalize (q (zeroed (Text.skipBlanks t))).outcome = there at outcomes
  cases outcomes with
  | matched value value' rest => exact ⟨.matched value value' rest, rfl⟩
  | failed => exact ⟨.failed, rfl⟩
  | exhausted => exact ⟨.exhausted, rfl⟩

theorem Unseeing.follows {f : Text → Option (α × Text)} (unseeing : Unseeing f) :
    Follows (token f) (token f) := by
  intro t
  have same := unseeing t
  unfold token
  cases here : f t with
  | none =>
    rw [here, Option.map_none, Option.map_eq_none_iff] at same
    rw [same]
    exact ⟨.failed, rfl⟩
  | some found =>
    rw [here] at same
    obtain ⟨other, there, rest⟩ := Option.map_eq_some_iff.mp same
    rw [there]
    simp only [rest]
    exact ⟨.matched found.1 other.1 found.2, trivial⟩

theorem follows_symbol {c : Char} (noDigit : c.isDigit = false) :
    Follows (symbol c) (symbol c) := by
  intro t
  simp only [symbol, skipBlanks_zeroed]
  cases Text.skipBlanks t with
  | nil => exact ⟨.failed, rfl⟩
  | cons first rest =>
    simp only [zeroed_cons, zero_eq_iff noDigit]
    split
    · exact ⟨.matched () () rest, rfl⟩
    · exact ⟨.failed, rfl⟩

theorem follows_opening (allowed : Bool) : Follows (opening allowed) (opening allowed) := by
  intro t
  obtain ⟨outcomes, attempts⟩ := follows_symbol (c := '(') rfl t
  simp only [opening]
  generalize symbol '(' t = here at outcomes attempts
  generalize symbol '(' (zeroed t) = there at outcomes attempts
  obtain ⟨outcome, _⟩ := here
  obtain ⟨outcomeZeroed, _⟩ := there
  cases outcomes with
  | matched value value' rest =>
    cases allowed with
    | true => exact ⟨.matched value value' rest, attempts⟩
    | false => exact ⟨.exhausted, attempts⟩
  | failed => exact ⟨.failed, attempts⟩
  | exhausted => exact ⟨.exhausted, attempts⟩

end

theorem follows_value : Follows value value := by
  apply follows_choice
  simp only [List.forall_mem_cons]
  exact ⟨unseeing_realOperand.follows.part _, unseeing_integerOperand.follows.part _,
    (unseeing_string.follows.bind fun _ _ => follows_pure _ _).part _,
    (unseeing_boolean.follows.bind fun _ _ => follows_pure _ _).part _,
    ((unseeing_word (by decide) ()).follows.bind fun _ _ => follows_pure _ _).part _,
    (unseeing_path.follows.bind fun _ _ => follows_pure _ _).part _, by simp⟩

theorem follows_valueList (allowed : Bool) : Follows (valueList allowed) (valueList allowed) := by
  have more := ((follows_symbol (c := ',') rfl).bind fun _ _ => follows_value).many
  exact ((follows_opening allowed).bind fun _ _ => follows_value.bind fun _ _ =>
    more.bind fun _ _ => (follows_symbol rfl).bind fun _ _ => follows_pure _ _).part _

theorem follows_operand (allowed : Bool) : Follows (operand allowed) (operand allowed) :=
  (follows_valueList allowed).orElse follows_value

theorem follows_condition (allowed : Bool) : Follows (condition allowed) (condition allowed) :=
  ((follows_operand allowed).bind fun _ _ => (unseeing_operator.follows.part _).bind fun _ _ =>
    (follows_operand allowed).bind fun _ _ => follows_pure _ _).part _

theorem follows_connective : Follows connective connective :=
  ((unseeing_word (by decide) _).follows.part _).orElse
    ((unseeing_word (by decide) _).follows.part _)

variable {inner : Option (Reader (Spelled Sequence))}

theorem follows_group (inside : ∀ p ∈ inner, Follows p p) :
    Follows (group inner) (group inner) := by
  have body : Follows (inner.getD fail) (inner.getD fail) := by
    cases inner with
    | none => exact follows_fail
    | some p => exact inside p rfl
  exact ((follows_opening _).bind fun _ _ => body.bind fun _ _ =>
    (follows_symbol rfl).bind fun _ _ => follows_pure _ _).part _

theorem follows_level (inside : ∀ p ∈ inner, Follows p p) :
    Follows (level inner) (level inner) := by
  have term : Follows (term inner) (term inner) :=
    (follows_condition _).orElse (follows_group inside)
  have joined : Follows (joinedTerm inner) (joinedTerm inner) :=
    follows_connective.bind fun _ _ => term.bind fun _ _ => follows_pure _ _
  exact (term.bind fun _ _ => joined.many.bind fun _ _ => follows_pure _ _).part _

theorem follows_expression (budget : Nat) : Follows (expression budget) (expression budget) := by
  induction budget with
  | zero => exact follows_level (by simp)
  | succ budget ih =>
    refine follows_level fun p member => ?_
    cases member
    exact ih

theorem follows_end : Follows endOfInput endOfInput := by
  refine Follows.part (fun t => ?_) _
  by_cases empty : t = []
  · simp only [empty, zeroed_eq_nil_iff, ↓reduceIte]
    exact ⟨.matched () () [], trivial⟩
  · simp only [empty, zeroed_eq_nil_iff, ↓reduceIte]
    exact ⟨.failed, trivial⟩

/-- Which digits a text has makes no difference to whether it is a rule and to what is attempted. -/
theorem follows_main (budget : Nat) :
    Follows (Reader.part .main (main budget)) (Reader.part .main (main budget)) :=
  ((follows_expression budget).bind fun _ _ => follows_end.bind fun _ _ => follows_pure _ _).part _

end Verdict.Grammar

namespace Verdict.Query
open Grammar

theorem nestsBeyond_zeroed {limit depth : Nat} {quote : Option Char} {t : Text}
    (noDigit : ∀ c ∈ quote, c.isDigit = false) :
    nestsBeyond limit depth quote (zeroed t) = nestsBeyond limit depth quote t := by
  fun_induction nestsBeyond limit depth quote t with
  | case1 => simp [zeroed, nestsBeyond]
  | case2 depth q c rest ih =>
    show nestsBeyond limit depth (some q) ('\\' :: zero c :: zeroed rest) = _
    rw [nestsBeyond, ih noDigit]
  | case3 depth q c rest plain ih =>
    have plainZeroed : ∀ d more, zero c = '\\' → zeroed rest = d :: more → False := by
      intro d more same whole
      obtain ⟨e, others, whole, -, -⟩ := List.map_eq_cons_iff.mp whole
      exact plain e others ((zero_eq_iff rfl).mp same) whole
    rw [zeroed_cons, nestsBeyond.eq_3 _ _ _ _ _ plainZeroed]
    simp only [zero_eq_iff (noDigit q rfl)]
    refine ih fun d member => noDigit d ?_
    split at member
    · cases member
    · exact member
  | case4 depth c rest isQuote ih =>
    have same : zero c = c := (zero_eq_iff (by rcases isQuote with rfl | rfl <;> rfl)).mpr rfl
    rw [zeroed_cons, same, nestsBeyond, if_pos isQuote]
    exact ih fun d member => by
      obtain rfl : c = d := by simpa using member
      rcases isQuote with rfl | rfl <;> rfl
  | case5 depth rest notQuote ih =>
    show nestsBeyond limit depth none ('(' :: zeroed rest) = _
    rw [nestsBeyond, if_neg notQuote, if_pos rfl, ih noDigit]
  | case6 depth rest notQuote notOpen ih =>
    show nestsBeyond limit depth none (')' :: zeroed rest) = _
    rw [nestsBeyond, if_neg notQuote, if_neg notOpen, if_pos rfl, ih noDigit]
  | case7 depth c rest notQuote notOpen notClose ih =>
    rw [zeroed_cons, nestsBeyond, if_neg (by simpa [zero_eq_iff] using notQuote),
      if_neg ((zero_eq_iff rfl).not.mpr notOpen), if_neg ((zero_eq_iff rfl).not.mpr notClose),
      ih noDigit]

end Verdict.Query
