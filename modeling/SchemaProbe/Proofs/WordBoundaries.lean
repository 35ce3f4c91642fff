import Mathlib
import SchemaProbe.Text.Words

namespace SchemaProbe.Text

/-!
# Where words end

A space is put at every boundary between words that has no separator.  The boundaries
are found in one go here; finding them in two rounds of substitution gives the same:
first a space is put behind each acronym that a capitalised word follows, then between
a small letter or a digit and a capital.  A text without capitals has no boundary, and
in camel case there is one before each capital that starts a word.
-/

/-- Whether there is no capital in a text. -/
def IsSmall (text : List Char) : Prop :=
  ∀ c ∈ text, c.isUpper = false

/-- Whether a character is a small letter or a digit. -/
def isSmallOrDigit (c : Char) : Bool :=
  c.isLower || c.isDigit

/-! ## Boundaries -/

/-- Nothing but spaces is added at the boundaries between words. -/
theorem mem_of_mem_spaced
    {text : List Char}
    {c : Char}
    (member : c ∈ spaced text) :
    c = ' ' ∨ c ∈ text := by
  induction text using spaced.induct with
  | case1 => cases member
  | case2 d => exact .inr member
  | case3 before after rest _ inductionHypothesis =>
      rw [spaced] at member
      grind
  | case4 before after rest _ inductionHypothesis =>
      rw [spaced] at member
      grind

/-- A boundary is a capital after another letter or digit, so a text without capitals has
none. -/
theorem spaced_of_isSmall
    {text : List Char}
    (small : IsSmall text) :
    spaced text = text := by
  induction text using spaced.induct with
  | case1 => rfl
  | case2 c => rfl
  | case3 before after rest isEnd _ =>
      have notCapital : after.isUpper = false := small after (by simp)
      simp [endsWord, notCapital] at isEnd
  | case4 before after rest noEnd inductionHypothesis =>
      rw [spaced, if_neg noEnd,
        inductionHypothesis fun c member => small c (List.mem_cons_of_mem _ member)]

/-- A small letter or digit is below 128, is no capital, separates nothing and stays in
small letters. -/
theorem isSmallOrDigit_cases
    {c : Char}
    (isPlain : isSmallOrDigit c = true) :
    c.toNat < 128 ∧ c.isUpper = false ∧ isSeparator c = false ∧ c.toLower = c := by
  have low : c.toNat < 128 := by
    simp only [isSmallOrDigit, Char.isLower, Char.isDigit, Bool.or_eq_true, Bool.and_eq_true,
      decide_eq_true_eq, ge_iff_le, UInt32.le_iff_toNat_le, Char.reduceVal, UInt32.reduceToNat,
      Char.toNat_val] at isPlain
    omega
  have every : ∀ n < 128, isSmallOrDigit (Char.ofNat n) = true →
      (Char.ofNat n).isUpper = false ∧ isSeparator (Char.ofNat n) = false ∧
        (Char.ofNat n).toLower = Char.ofNat n := by
    decide +kernel
  have here := every c.toNat low
  rw [Char.ofNat_toNat] at here
  exact ⟨low, here isPlain⟩

/-- Between a small letter or digit and a capital there is a boundary, and there is none
before. -/
theorem spaced_append_capital
    {first capital : Char}
    {word rest : List Char}
    (plain : ∀ c ∈ first :: word, isSmallOrDigit c = true)
    (isCapital : capital.isUpper = true) :
    spaced (first :: word ++ capital :: rest) =
      first :: word ++ ' ' :: spaced (capital :: rest) := by
  induction word generalizing first with
  | nil =>
      have isEnd : endsWord first capital rest.head? = true := by
        have isPlain := plain first List.mem_cons_self
        rw [isSmallOrDigit] at isPlain
        simp only [endsWord, isCapital, isPlain, Bool.true_or, Bool.true_and]
      rw [List.singleton_append, spaced, if_pos isEnd]
      rfl
  | cons second word inductionHypothesis =>
      have notCapital : second.isUpper = false :=
        (isSmallOrDigit_cases (plain second (by simp))).2.1
      have noEnd : ¬ endsWord first second (word ++ capital :: rest).head? = true := by
        simp [endsWord, notCapital]
      have later := inductionHypothesis fun c member => plain c (List.mem_cons_of_mem _ member)
      rw [List.cons_append, List.cons_append] at later
      rw [List.cons_append, List.cons_append, spaced, if_neg noEnd, later]
      rfl

/-- A capital before a small letter or digit belongs to its word. -/
theorem spaced_capital
    {capital second : Char}
    (rest : List Char)
    (plain : isSmallOrDigit second = true) :
    spaced (capital :: second :: rest) = capital :: spaced (second :: rest) := by
  have noEnd : ¬ endsWord capital second rest.head? = true := by
    simp [endsWord, (isSmallOrDigit_cases plain).2.1]
  rw [spaced, if_neg noEnd]

/-! ## Boundaries by substitution -/

/-- Whether a text starts with a capital and a small letter. -/
def startsCapitalized : List Char → Bool
  | first :: second :: _ => first.isUpper && second.isLower
  | _ => false

/-- The longest run of capitals, one at least, that a text starts with and a capital and a
small letter follow; and what follows it. -/
def acronym? : List Char → Option (List Char × List Char)
  | [] => none
  | first :: rest =>
    if first.isUpper then
      match acronym? rest with
      | some (capitals, following) => some (first :: capitals, following)
      | none => if startsCapitalized rest then some ([first], rest) else none
    else none

/-- What is found is a run of capitals before a capital and a small letter. -/
theorem acronym?_eq_some
    {text capitals following : List Char}
    (found : acronym? text = some (capitals, following)) :
    text = capitals ++ following ∧ capitals ≠ [] ∧ (∀ c ∈ capitals, c.isUpper = true) ∧
      ∃ first second rest, following = first :: second :: rest ∧ first.isUpper = true ∧
        second.isLower = true := by
  induction text generalizing capitals with
  | nil => cases found
  | cons c text inductionHypothesis =>
      rw [acronym?] at found
      split at found
      · rename_i isCapital
        split at found
        · rename_i later after foundLater
          obtain ⟨rfl, rfl⟩ : c :: later = capitals ∧ after = following := by simpa using found
          obtain ⟨rfl, -, areCapitals, starts⟩ := inductionHypothesis foundLater
          exact ⟨rfl, List.cons_ne_nil _ _, List.forall_mem_cons.mpr ⟨isCapital, areCapitals⟩, starts⟩
        · split at found
          · rename_i starts
            obtain ⟨rfl, rfl⟩ : [c] = capitals ∧ text = following := by simpa using found
            refine ⟨rfl, List.cons_ne_nil _ _, by simpa using isCapital, ?_⟩
            match text, starts with
            | first :: second :: rest, starts =>
                rw [startsCapitalized, Bool.and_eq_true] at starts
                exact ⟨first, second, rest, rfl, starts⟩
          · cases found
      · cases found

/-- A text with a space in every acronym that a capitalised word follows: the acronyms are
found from left to right, and the next one is looked for after the small letter. -/
def spaceAcronyms (text : List Char) : List Char :=
  match found : acronym? text with
  | some (capitals, first :: second :: rest) =>
    have : rest.length < text.length := by
      rw [(acronym?_eq_some found).1, List.length_append, List.length_cons, List.length_cons]
      omega
    capitals ++ ' ' :: first :: second :: spaceAcronyms rest
  | _ =>
    match text with
    | [] => []
    | first :: rest => first :: spaceAcronyms rest
termination_by text.length

/-- A text with a space wherever a small letter or a digit is followed by a capital; the next
such place is looked for after the capital. -/
def spaceHumps : List Char → List Char
  | before :: after :: rest =>
    if (before.isLower || before.isDigit) && after.isUpper then
      before :: ' ' :: after :: spaceHumps rest
    else before :: spaceHumps (after :: rest)
  | text => text

/-- A capital is neither a small letter nor a digit. -/
theorem not_small_of_isUpper
    {c : Char}
    (isCapital : c.isUpper = true) :
    (c.isLower || c.isDigit) = false := by
  have notSmall : c.isLower = false := by
    simpa using Char.not_isLower_of_isUpper isCapital
  have notDigit : c.isDigit = false := by
    simp only [Char.isUpper, Char.isDigit, UInt32.le_iff_toNat_le, Char.reduceVal,
      UInt32.reduceToNat, ge_iff_le, decide_eq_true_eq, Bool.and_eq_false_iff,
      decide_eq_false_iff_not] at isCapital ⊢
    omega
  rw [notSmall, notDigit, Bool.false_or]

/-- A capital is not followed by a boundary of the second kind. -/
theorem spaceHumps_capital
    {c : Char}
    (isCapital : c.isUpper = true)
    (rest : List Char) :
    spaceHumps (c :: rest) = c :: spaceHumps rest := by
  cases rest with
  | nil => rfl
  | cons d rest =>
      rw [spaceHumps, not_small_of_isUpper isCapital, Bool.false_and, if_neg (by decide)]

/-- Where an acronym is found, a space is put behind it. -/
theorem spaceAcronyms_of_some
    {text capitals rest : List Char}
    {first second : Char}
    (found : acronym? text = some (capitals, first :: second :: rest)) :
    spaceAcronyms text = capitals ++ ' ' :: first :: second :: spaceAcronyms rest := by
  rw [spaceAcronyms]
  split
  · rename_i foundAlso
    obtain ⟨rfl, rfl, rfl, rfl⟩ : _ = capitals ∧ _ = first ∧ _ = second ∧ _ = rest := by
      simpa using foundAlso.symm.trans found
    rfl
  · rename_i notFound
    exact absurd found (notFound _ _ _ _)

/-- Where no acronym is found, the next character is tried. -/
theorem spaceAcronyms_of_none
    {c : Char}
    {rest : List Char}
    (notFound : acronym? (c :: rest) = none) :
    spaceAcronyms (c :: rest) = c :: spaceAcronyms rest := by
  rw [spaceAcronyms]
  split
  · rename_i found
    rw [notFound] at found
    cases found
  · rfl

/-- Between two capitals that a small letter follows there is an acronym. -/
theorem acronym?_ne_none
    {before after c : Char}
    (rest : List Char)
    (isCapital : before.isUpper = true)
    (alsoCapital : after.isUpper = true)
    (isSmall : c.isLower = true) :
    acronym? (before :: after :: c :: rest) ≠ none := by
  rw [acronym?, if_pos isCapital]
  cases acronym? (after :: c :: rest) with
  | some found => simp
  | none => simp [startsCapitalized, alsoCapital, isSmall]

/-- In an acronym there is a boundary before its last capital, if that starts a word. -/
theorem spaced_acronym
    {capitals : List Char}
    {first second : Char}
    (rest : List Char)
    (notEmpty : capitals ≠ [])
    (areCapitals : ∀ c ∈ capitals, c.isUpper = true)
    (isCapital : first.isUpper = true)
    (isSmall : second.isLower = true) :
    spaced (capitals ++ first :: second :: rest) =
      capitals ++ ' ' :: first :: spaced (second :: rest) := by
  have noEnd : ¬ endsWord first second rest.head? = true := by
    simp [endsWord, Char.not_isUpper_of_isLower isSmall]
  induction capitals with
  | nil => exact absurd rfl notEmpty
  | cons c capitals inductionHypothesis =>
      have here := areCapitals c List.mem_cons_self
      cases capitals with
      | nil =>
          have isEnd : endsWord c first (second :: rest).head? = true := by
            simp [endsWord, here, isCapital, isSmall]
          rw [List.singleton_append, spaced, if_pos isEnd, spaced, if_neg noEnd]
          rfl
      | cons d capitals =>
          have alsoCapital := areCapitals d (by simp)
          have noEndHere : ¬ endsWord c d (capitals ++ first :: second :: rest).head? = true := by
            have later : ∀ e ∈ (capitals ++ first :: second :: rest).head?, e.isUpper = true := by
              cases capitals with
              | nil => simpa using isCapital
              | cons e capitals => simpa using areCapitals e (by simp)
            cases following : (capitals ++ first :: second :: rest).head? with
            | none => simp at following
            | some e =>
                have notSmall : e.isLower = false := by
                  simpa using Char.not_isLower_of_isUpper (later e following)
                simp [endsWord, not_small_of_isUpper here, notSmall]
          have later := inductionHypothesis (List.cons_ne_nil _ _) fun e member =>
            areCapitals e (List.mem_cons_of_mem _ member)
          rw [List.cons_append] at later
          rw [List.cons_append, List.cons_append, spaced, if_neg noEndHere, later]
          rfl

/-- A boundary of the second kind is not found in what the first kind has set off. -/
theorem spaceHumps_acronym
    {capitals : List Char}
    {first : Char}
    (rest : List Char)
    (areCapitals : ∀ c ∈ capitals, c.isUpper = true)
    (isCapital : first.isUpper = true) :
    spaceHumps (capitals ++ ' ' :: first :: rest) =
      capitals ++ ' ' :: first :: spaceHumps rest := by
  induction capitals with
  | nil =>
      have notHump : ¬ ((' '.isLower || ' '.isDigit) && first.isUpper) = true := by
        simp
      rw [List.nil_append, spaceHumps, if_neg notHump, spaceHumps_capital isCapital]
      rfl
  | cons c capitals inductionHypothesis =>
      rw [List.cons_append, spaceHumps_capital (areCapitals c List.mem_cons_self),
        inductionHypothesis fun d member => areCapitals d (List.mem_cons_of_mem _ member)]
      rfl

/-- A text starts alike with spaces in its acronyms. -/
theorem exists_spaceAcronyms_cons
    (c : Char)
    (rest : List Char) :
    ∃ spacedRest, spaceAcronyms (c :: rest) = c :: spacedRest := by
  cases found : acronym? (c :: rest) with
  | none => exact ⟨_, spaceAcronyms_of_none found⟩
  | some parts =>
      obtain ⟨capitals, following⟩ := parts
      obtain ⟨whole, notEmpty, -, first, second, after, rfl, -⟩ := acronym?_eq_some found
      obtain ⟨d, capitals, rfl⟩ := List.exists_cons_of_ne_nil notEmpty
      obtain rfl : c = d := (List.cons.inj whole).1
      exact ⟨_, spaceAcronyms_of_some found⟩

/-- The boundaries are those that are found in two rounds: first behind acronyms, and then
between a small letter or a digit and a capital. -/
theorem spaced_eq_spaceHumps_spaceAcronyms (text : List Char) :
    spaced text = spaceHumps (spaceAcronyms text) := by
  induction size : text.length using Nat.strong_induction_on generalizing text with
  | h n inductionHypothesis =>
      subst size
      cases text with
      | nil => rw [spaceAcronyms]; rfl
      | cons c rest =>
          cases found : acronym? (c :: rest) with
          | none =>
              have later := inductionHypothesis rest.length (by simp) rest rfl
              rw [spaceAcronyms_of_none found]
              cases rest with
              | nil => rw [spaceAcronyms]; rfl
              | cons d rest =>
                  obtain ⟨spacedRest, startsAlike⟩ := exists_spaceAcronyms_cons d rest
                  have ends : endsWord c d rest.head? =
                      ((c.isLower || c.isDigit) && d.isUpper) := by
                    cases isCapital : c.isUpper with
                    | false => rw [endsWord, isCapital, Bool.false_and, Bool.or_false, Bool.and_comm]
                    | true =>
                        have noAcronym : (d.isUpper && rest.head?.any Char.isLower) = false := by
                          by_contra isAcronym
                          rw [Bool.not_eq_false, Bool.and_eq_true] at isAcronym
                          obtain ⟨alsoCapital, startsSmall⟩ := isAcronym
                          cases rest with
                          | nil => cases startsSmall
                          | cons e rest =>
                              exact acronym?_ne_none rest isCapital alsoCapital startsSmall found
                        rw [endsWord, isCapital, not_small_of_isUpper isCapital, Bool.false_or,
                          Bool.true_and, noAcronym, Bool.false_and]
                  rw [startsAlike] at later ⊢
                  rw [spaced, spaceHumps, ends, later]
                  split
                  · rename_i isHump
                    rw [spaceHumps_capital (Bool.and_eq_true_iff.mp isHump).2]
                  · rfl
          | some parts =>
              obtain ⟨capitals, following⟩ := parts
              obtain ⟨whole, notEmpty, areCapitals, first, second, after, rfl, isCapital, isSmall⟩ :=
                acronym?_eq_some found
              have notAcronym : acronym? (second :: after) = none := by
                rw [acronym?, if_neg (Char.not_isUpper_of_isLower isSmall)]
              have shorter : (second :: after).length < (c :: rest).length := by
                simp only [whole, List.length_append, List.length_cons]
                omega
              have later := inductionHypothesis _ shorter (second :: after) rfl
              rw [spaceAcronyms_of_some found, spaceHumps_acronym _ areCapitals isCapital, whole,
                spaced_acronym after notEmpty areCapitals isCapital isSmall, later,
                spaceAcronyms_of_none notAcronym]

end SchemaProbe.Text
