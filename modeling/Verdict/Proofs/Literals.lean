import Verdict.Proofs.Numerals

/-!
Scalar operands at the start of a text. The kinds of literal are tried one after the other, but a
text that spells one of them spells no other before it.
-/
namespace Verdict.Grammar

theorem fits_plain {quote c : Char} {rest : Text} (plain : c ≠ '\\') :
    Fits quote (c :: rest) ↔ c ≠ quote ∧ c ≠ '\n' ∧ c ≠ '\r' ∧ Fits quote rest := by
  rw [Fits.eq_3 _ _ _ fun _ _ backslash => absurd backslash plain]
  simp [plain]

theorem contentUpTo_plain {quote c : Char} {rest : Text} (plain : c ≠ '\\') :
    contentUpTo? quote (c :: rest) =
      if c = quote then some ([], rest)
      else if c = '\n' ∨ c = '\r' then none
      else (contentUpTo? quote rest).map fun (content, rest) => (c :: content, rest) := by
  rw [contentUpTo?.eq_3 _ _ _ fun _ _ backslash => absurd backslash plain]
  simp [plain]

theorem contentUpTo_sound {quote : Char} {t content rest : Text}
    (read : contentUpTo? quote t = some (content, rest)) :
    t = content ++ quote :: rest ∧ Fits quote content := by
  fun_induction contentUpTo? quote t generalizing content with
  | case1 => cases read
  | case2 c more ih =>
    obtain ⟨⟨inner, after⟩, innerRead, same⟩ := Option.map_eq_some_iff.mp read
    obtain ⟨rfl, rfl⟩ := Prod.mk.inj same
    obtain ⟨rfl, fits⟩ := ih innerRead
    exact ⟨rfl, fits⟩
  | case3 more =>
    obtain ⟨rfl, rfl⟩ := Prod.mk.inj (Option.some.inj read)
    exact ⟨rfl, trivial⟩
  | case4 => cases read
  | case5 c more _ notQuote plain ih =>
    obtain ⟨⟨inner, after⟩, innerRead, same⟩ := Option.map_eq_some_iff.mp read
    obtain ⟨rfl, rfl⟩ := Prod.mk.inj same
    obtain ⟨rfl, fits⟩ := ih innerRead
    simp only [not_or] at plain
    exact ⟨rfl, (fits_plain plain.1).mpr ⟨notQuote, plain.2.1, plain.2.2, fits⟩⟩

theorem contentUpTo_complete {quote : Char} {content : Text} (isQuote : quote ≠ '\\')
    (fits : Fits quote content) (rest : Text) :
    contentUpTo? quote (content ++ quote :: rest) = some (content, rest) := by
  fun_induction Fits quote content with
  | case1 => simp [contentUpTo_plain isQuote]
  | case2 c more ih =>
    have inner := ih fits
    simp [contentUpTo?, inner]
  | case3 c more _ ih =>
    obtain ⟨notQuote, plain, notFeed, notReturn, fits⟩ := fits
    have inner := ih fits
    simp [contentUpTo_plain plain, notQuote, notFeed, notReturn, inner]

theorem string_sound {t content rest : Text} (read : string? t = some (content, rest)) :
    ∃ text, t = text ++ rest ∧ SpellsScalar text (.str content) ∧ Seam text rest := by
  unfold string? at read
  split at read
  · obtain ⟨rfl, fits⟩ := contentUpTo_sound read
    exact ⟨_, by simp, .str (.inl rfl) fits, seam_of_closed (a := '"' :: content) rfl⟩
  · obtain ⟨rfl, fits⟩ := contentUpTo_sound read
    exact ⟨_, by simp, .str (.inr rfl) fits, seam_of_closed (a := '\'' :: content) rfl⟩
  · cases read

theorem string_complete {quote : Char} {content : Text} (isQuote : quote = '"' ∨ quote = '\'')
    (fits : Fits quote content) (rest : Text) :
    string? (quote :: (content ++ [quote]) ++ rest) = some (content, rest) := by
  have read : contentUpTo? quote (content ++ quote :: rest) = some (content, rest) := by
    apply contentUpTo_complete _ fits
    rcases isQuote with rfl | rfl <;> decide
  rcases isQuote with rfl | rfl <;> simpa [string?] using read

theorem string_none {t : Text} (head : ∀ c ∈ t.head?, c ≠ '"' ∧ c ≠ '\'') : string? t = none := by
  unfold string?
  split
  · exact absurd rfl (head '"' rfl).1
  · exact absurd rfl (head '\'' rfl).2
  · rfl

theorem joined_cons (separator first : Text) (more : List Text) :
    Text.joined separator (first :: more) = first ++ more.flatMap (separator ++ ·) := by
  induction more generalizing first with
  | nil => simp [Text.joined, List.intercalate]
  | cons next more ih =>
    have tail := ih next
    simp only [Text.joined, List.intercalate, List.intersperse_cons_cons, List.flatten_cons]
      at tail ⊢
    rw [tail]
    simp

theorem identifier_word {t : Text} (identifier : Identifier t) : ∀ c ∈ t, isWordChar c := by
  obtain ⟨c, rest, rfl, letter, others⟩ := identifier
  intro d member
  rcases List.mem_cons.mp member with rfl | later
  · exact isWordChar_of_isAlpha letter
  · exact others d later

theorem spanPath_sound (t : Text) :
    ∃ (word : Text) (more : List Text), (∀ c ∈ word, isWordChar c) ∧
      (∀ part ∈ more, Identifier part) ∧
      (spanPath t).1 = word ++ more.flatMap ('.' :: ·) ∧
      t = (spanPath t).1 ++ (spanPath t).2 ∧ wordEnds (spanPath t).2 := by
  fun_induction spanPath t with
  | case1 => exact ⟨[], [], by simp, by simp, rfl, rfl, rfl⟩
  | case2 c rest letter path after spanned ih =>
    obtain ⟨word, more, isWord, parts, shape, whole, ends⟩ := ih
    simp only [spanned] at shape whole ends ⊢
    refine ⟨[], (c :: word) :: more, by simp, ?_, by simp [shape], by simp [whole], ends⟩
    rintro part (_ | ⟨_, member⟩)
    · exact ⟨c, word, rfl, letter, isWord⟩
    · exact parts part member
  | case3 c rest notLetter =>
    exact ⟨[], [], by simp, by simp, rfl, rfl, rfl⟩
  | case4 c rest _ isWordC path after spanned ih =>
    obtain ⟨word, more, isWord, parts, shape, whole, ends⟩ := ih
    simp only [spanned] at shape whole ends ⊢
    refine ⟨c :: word, more, ?_, parts, by simp [shape], by simp [whole], ends⟩
    rintro d (_ | ⟨_, member⟩)
    · exact isWordC
    · exact isWord d member
  | case5 c rest _ notWord =>
    exact ⟨[], [], by simp, by simp, rfl, rfl, by simpa [wordEnds] using notWord⟩

theorem spanPath_word {word : Text} (isWord : ∀ c ∈ word, isWordChar c) (rest : Text) :
    spanPath (word ++ rest) = (word ++ (spanPath rest).1, (spanPath rest).2) := by
  induction word with
  | nil => rfl
  | cons c more ih =>
    have isWordC : isWordChar c := isWord c (by simp)
    have notPoint : c ≠ '.' := by
      rintro rfl
      exact absurd isWordC Bool.false_ne_true
    have tail := ih fun d member => isWord d (by simp [member])
    rw [List.cons_append, spanPath.eq_3 _ _ fun _ _ point => absurd point notPoint]
    simp [isWordC, tail]

theorem spanPath_ends {rest : Text} (ends : wordEnds rest) (noPoint : ∀ c ∈ rest.head?, c ≠ '.') :
    spanPath rest = ([], rest) := by
  cases rest with
  | nil => rfl
  | cons c more =>
    rw [spanPath.eq_3 _ _ fun _ _ point => absurd point (noPoint c rfl)]
    have notWord : isWordChar c = false := by simpa [wordEnds] using ends
    simp [notWord]

theorem spanPath_parts {more : List Text} {rest : Text} (parts : ∀ part ∈ more, Identifier part)
    (ends : wordEnds rest) (noPoint : ∀ c ∈ rest.head?, c ≠ '.') :
    spanPath (more.flatMap ('.' :: ·) ++ rest) = (more.flatMap ('.' :: ·), rest) := by
  induction more with
  | nil => exact spanPath_ends ends noPoint
  | cons part more ih =>
    obtain ⟨c, word, rfl, letter, isWord⟩ := parts part (by simp)
    have tail := ih fun other member => parts other (by simp [member])
    have spanned := spanPath_word isWord (more.flatMap ('.' :: ·) ++ rest)
    simp only [List.flatMap_cons, List.cons_append, List.append_assoc]
    rw [spanPath]
    simp [letter, spanned, tail]

theorem valueWords_word : ∀ word ∈ valueWords, ∀ c ∈ word, isWordChar c := by decide

theorem parts_end (more : List Text) {rest : Text} (ends : wordEnds rest) :
    wordEnds (more.flatMap ('.' :: ·) ++ rest) := by
  cases more with
  | nil => exact ends
  | cons => rfl

theorem path_sound {t p rest : Text} (read : path? t = some (p, rest))
    (free : ∀ word ∈ valueWords, afterWord? word t = none) :
    t = p ++ rest ∧ IsPath p ∧ wordEnds rest := by
  cases t with
  | nil => cases read
  | cons c more =>
    simp only [path?] at read
    split at read
    · rename_i letter
      obtain ⟨word, parts, isWord, identifiers, shape, whole, ends⟩ := spanPath_sound more
      generalize spanPath more = spanned at shape whole ends read
      obtain ⟨path, after⟩ := spanned
      subst shape whole
      obtain ⟨rfl, rfl⟩ := Prod.mk.inj (Option.some.inj read)
      have first : Identifier (c :: word) := ⟨c, word, rfl, letter, isWord⟩
      have notValue : Text.folded (c :: word) ∉ valueWords := by
        intro member
        have next := afterWord_append (identifier_word first) (parts_end parts ends)
          (valueWords_word _ member)
        simp only [List.cons_append, ← List.append_assoc] at next
        rw [free _ member] at next
        simp at next
      have joined := joined_cons ['.'] (c :: word) parts
      simp only [List.cons_append, List.nil_append] at joined
      exact ⟨rfl, joined ▸ .intro first identifiers notValue, ends⟩
    · cases read

theorem path_complete {p rest : Text} (isPath : IsPath p) (ends : wordEnds rest)
    (noPoint : ∀ c ∈ rest.head?, c ≠ '.') :
    path? (p ++ rest) = some (p, rest) ∧
      ∀ word ∈ valueWords, afterWord? word (p ++ rest) = none := by
  cases isPath with
  | @intro first more start parts free =>
    have tail := spanPath_parts parts ends noPoint
    have word := identifier_word start
    simp only [joined_cons, List.cons_append, List.nil_append, List.append_assoc]
    constructor
    · obtain ⟨c, others, rfl, letter, isWord⟩ := start
      have spanned := spanPath_word isWord (more.flatMap ('.' :: ·) ++ rest)
      simp [path?, letter, spanned, tail]
    · intro value member
      rw [afterWord_append word (parts_end more ends) (valueWords_word value member)]
      have differs : Text.folded first ≠ value := fun same => free (same ▸ member)
      simp [differs]

def scalar? (t : Text) : Option (Spelled Operand × Text) :=
  (realOperand? t).or <| (integerOperand? t).or <|
    ((string? t).map fun (content, rest) => (.ok (.str content), rest)).or <|
      ((boolean? t).map fun (b, rest) => (.ok (.bool b), rest)).or <|
        ((nothing? t).map fun (_, rest) => (.ok .nothing, rest)).or <|
          ((path? t).map fun (p, rest) => (.ok (.path p), rest)).or none

theorem boolean_sound {t rest : Text} {b : Bool} (read : boolean? t = some (b, rest)) :
    ∃ text, t = text ++ rest ∧ SpellsScalar text (.bool b) ∧ wordEnds rest := by
  unfold boolean? at read
  split at read
  · rename_i after found
    obtain ⟨rfl, rfl⟩ := Prod.mk.inj (Option.some.inj read)
    obtain ⟨text, split, word, ends⟩ := (afterWord_iff _ _ _).mp found
    exact ⟨text, split, .yes word, ends⟩
  · obtain ⟨after, found, same⟩ := Option.map_eq_some_iff.mp read
    obtain ⟨rfl, rfl⟩ := Prod.mk.inj same
    obtain ⟨text, split, word, ends⟩ := (afterWord_iff _ _ _).mp found
    exact ⟨text, split, .no word, ends⟩

theorem boolean_none {t : Text} (read : boolean? t = none) :
    afterWord? "true".toList t = none ∧ afterWord? "false".toList t = none := by
  unfold boolean? at read
  split at read
  · cases read
  · rename_i none
    exact ⟨none, Option.map_eq_none_iff.mp read⟩

theorem scalar_sound {t rest : Text} {v : Operand} (read : scalar? t = some (.ok v, rest)) :
    ∃ text, t = text ++ rest ∧ SpellsScalar text v ∧ Seam text rest := by
  have closed : ∀ {text}, wordEnds rest → Seam text rest := fun ends _ => ends
  unfold scalar? at read
  rcases Option.or_eq_some_iff.mp read with real | ⟨-, read⟩
  · obtain ⟨text, split, spelled, ends⟩ := realOperand_sound real
    exact ⟨text, split, spelled, closed ends⟩
  rcases Option.or_eq_some_iff.mp read with integer | ⟨-, read⟩
  · obtain ⟨text, split, spelled, ends⟩ := integerOperand_sound integer
    exact ⟨text, split, spelled, closed ends⟩
  rcases Option.or_eq_some_iff.mp read with string | ⟨-, read⟩
  · obtain ⟨⟨content, after⟩, found, same⟩ := Option.map_eq_some_iff.mp string
    cases same
    exact string_sound found
  rcases Option.or_eq_some_iff.mp read with boolean | ⟨noBoolean, read⟩
  · obtain ⟨⟨b, after⟩, found, same⟩ := Option.map_eq_some_iff.mp boolean
    cases same
    obtain ⟨text, split, spelled, ends⟩ := boolean_sound found
    exact ⟨text, split, spelled, closed ends⟩
  rcases Option.or_eq_some_iff.mp read with nothing | ⟨noNothing, read⟩
  · obtain ⟨⟨word?, after⟩, found, same⟩ := Option.map_eq_some_iff.mp nothing
    cases same
    obtain ⟨after, word, same⟩ := Option.map_eq_some_iff.mp found
    cases same
    obtain ⟨text, split, word, ends⟩ := (afterWord_iff _ _ _).mp word
    exact ⟨text, split, .nothing word, closed ends⟩
  rcases Option.or_eq_some_iff.mp read with path | ⟨-, read⟩
  · obtain ⟨⟨p, after⟩, found, same⟩ := Option.map_eq_some_iff.mp path
    cases same
    have noWord := boolean_none (Option.map_eq_none_iff.mp noBoolean)
    have noNone := Option.map_eq_none_iff.mp (Option.map_eq_none_iff.mp noNothing)
    have free : ∀ word ∈ valueWords, afterWord? word t = none := by
      intro word member
      simp only [valueWords, List.mem_cons, List.not_mem_nil, or_false] at member
      rcases member with rfl | rfl | rfl
      · exact noWord.1
      · exact noWord.2
      · exact noNone
    obtain ⟨split, isPath, ends⟩ := path_sound found free
    exact ⟨p, split, .path isPath, closed ends⟩
  · cases read

theorem literal_none_of_letter {t : Text} (letter : ∀ c ∈ t.head?, c.isAlpha) :
    realOperand? t = none ∧ integerOperand? t = none ∧ string? t = none := by
  have numbers := number_none (t := t) fun c member => by
    have isLetter := letter c member
    rw [isDigit_iff]
    rw [isAlpha_iff] at isLetter
    refine ⟨by omega, ?_, ?_, ?_⟩ <;> rintro rfl <;> exact absurd isLetter (by decide)
  have noQuote := string_none (t := t) fun c member => by
    have isLetter := letter c member
    constructor <;> rintro rfl <;> exact absurd isLetter Bool.false_ne_true
  exact ⟨numbers.1, numbers.2, noQuote⟩

theorem letter_of_folded {t rest word : Text} (folded : Text.folded t = word)
    (letter : ∀ c ∈ word.head?, c.isAlpha) (nonempty : word ≠ []) :
    ∀ c ∈ (t ++ rest).head?, c.isAlpha := by
  cases t with
  | nil => exact absurd folded.symm nonempty
  | cons d more =>
    subst folded
    intro c member
    obtain rfl : d = c := by simpa using member
    exact isAlpha_of_toLower (letter _ (by simp [Text.folded]))

theorem afterWord_value {t rest : Text} (folded : Text.folded t ∈ valueWords) (seam : Seam t rest)
    (word : Text) (known : word ∈ valueWords) :
    afterWord? word (t ++ rest) = if Text.folded t = word then some rest else none := by
  have isText := word_of_folded rfl (valueWords_word _ folded)
  have nonempty : t ≠ [] := by
    rintro rfl
    exact absurd folded (by decide)
  exact afterWord_append isText (seam (endsOpen_of_word isText nonempty)) (valueWords_word _ known)

theorem path_chars {p : Text} (isPath : IsPath p) : ∀ c ∈ p, isWordChar c ∨ c = '.' := by
  cases isPath with
  | @intro first more start parts free =>
    intro c member
    rw [joined_cons, List.mem_append, List.mem_flatMap] at member
    rcases member with inFirst | ⟨part, inMore, inPart⟩
    · exact .inl (identifier_word start c inFirst)
    · rcases List.mem_cons.mp inPart with point | inWord
      · exact .inr point
      · exact .inl (identifier_word (parts part inMore) c inWord)

theorem endsOpen_path {p : Text} (isPath : IsPath p) : endsOpen p := by
  have nonempty : p ≠ [] := by
    cases isPath with
    | intro start _ _ =>
      obtain ⟨c, rest, rfl, -, -⟩ := start
      simp [joined_cons]
  have last := path_chars isPath _ (List.getLast_mem nonempty)
  simpa [endsOpen, List.getLast?_eq_some_getLast nonempty] using last

theorem letter_of_path {p : Text} (isPath : IsPath p) (rest : Text) :
    ∀ c ∈ (p ++ rest).head?, c.isAlpha := by
  cases isPath with
  | @intro first more start parts free =>
    obtain ⟨c, others, rfl, letter, -⟩ := start
    simp [joined_cons, letter]

theorem scalar_letter {t : Text} (letter : ∀ c ∈ t.head?, c.isAlpha) :
    scalar? t =
      ((boolean? t).map fun (b, rest) => (.ok (.bool b), rest)).or
        (((nothing? t).map fun (_, rest) => (.ok .nothing, rest)).or
          (((path? t).map fun (p, rest) => (.ok (.path p), rest)).or none)) := by
  obtain ⟨noReal, noInteger, noString⟩ := literal_none_of_letter letter
  simp only [scalar?, noReal, noInteger, noString, Option.map_none, Option.none_or]

theorem scalar_word {text rest : Text} (known : Text.folded text ∈ valueWords)
    (seam : Seam text rest) : scalar? (text ++ rest) =
      if Text.folded text = "true".toList then some (.ok (.bool true), rest)
      else if Text.folded text = "false".toList then some (.ok (.bool false), rest)
      else some (.ok .nothing, rest) := by
  have letters : ∀ word ∈ valueWords, word ≠ [] ∧ ∀ c ∈ word.head?, c.isAlpha := by decide
  obtain ⟨nonempty, letter⟩ := letters _ known
  have isTrue := afterWord_value known seam "true".toList (by decide)
  have isFalse := afterWord_value known seam "false".toList (by decide)
  have isNone := afterWord_value known seam "none".toList (by decide)
  rw [scalar_letter (letter_of_folded rfl letter nonempty), boolean?, nothing?, isTrue, isFalse,
    isNone]
  simp only [valueWords, List.mem_cons, List.not_mem_nil, or_false] at known
  rcases known with word | word | word <;> rw [word] <;> rfl

theorem scalar_complete {text rest : Text} {v : Operand} (spelled : SpellsScalar text v)
    (seam : Seam text rest) (noPoint : ∀ c ∈ rest.head?, c ≠ '.') :
    scalar? (text ++ rest) = some (.ok v, rest) := by
  cases spelled with
  | int spelled value =>
    have ends := seam (endsOpen_integer spelled)
    have noReal := real_none_of_integer spelled ends noPoint
    have read := integer_complete spelled ends
    simp [scalar?, realOperand?, noReal, integerOperand?, read, value]
  | real spelled value =>
    have read := real_complete spelled (seam (endsOpen_real spelled))
    simp [scalar?, realOperand?, read, value]
  | @str quote content isQuote fits =>
    have numbers := number_none (t := quote :: (content ++ [quote]) ++ rest)
      (by rcases isQuote with rfl | rfl <;> simp)
    have read := string_complete isQuote fits rest
    rw [scalar?, numbers.1, numbers.2, read]
    rfl
  | yes word => rw [scalar_word (word ▸ by decide) seam, if_pos word]
  | no word =>
    rw [scalar_word (word ▸ by decide) seam, word]
    rfl
  | nothing word =>
    rw [scalar_word (word ▸ by decide) seam, word]
    rfl
  | path isPath =>
    obtain ⟨read, free⟩ := path_complete isPath (seam (endsOpen_path isPath)) noPoint
    have notTrue := free "true".toList (by decide)
    have notFalse := free "false".toList (by decide)
    have notNone := free "none".toList (by decide)
    rw [scalar_letter (letter_of_path isPath rest), boolean?, notTrue, notFalse, nothing?, notNone,
      read]
    rfl

end Verdict.Grammar
